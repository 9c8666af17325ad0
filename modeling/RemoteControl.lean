import RemoteControl.Concurrency.RelyGuarantee
import RemoteControl.Theory.Transitions
import RemoteControl.Theory.Machine
import RemoteControl.Theory.History
import RemoteControl.Theory.Steps
import RemoteControl.Theory.Operations
import RemoteControl.Theory.Transactions
import RemoteControl.Theory.Calls
import RemoteControl.Theory.RequestCalls
import RemoteControl.Theory.SessionCalls
import RemoteControl.Theory.Runs
import RemoteControl.Theory.Monotone
import RemoteControl.Concurrency.Linearize
import RemoteControl.Theory.Linearizability
import RemoteControl.Theory.Notifications
import RemoteControl.Theory.Consent
import RemoteControl.Concurrency.Turns
import RemoteControl.Theory.Completion
import RemoteControl.Theory.Clients
import RemoteControl.Core.Together
import RemoteControl.Theory.Together
import RemoteControl.Theory.Admissions
import RemoteControl.Theory.Sequential
import RemoteControl.Theory.DeviceHistory
import RemoteControl.Theory.DeviceSteps
import RemoteControl.Theory.DeviceOperations
import RemoteControl.Theory.DeviceCalls
import RemoteControl.Theory.DeviceRuns
import RemoteControl.Theory.DeviceCommits
import RemoteControl.Theory.Enrollment
import RemoteControl.Theory.LatestCode
import RemoteControl.Theory.Patches
import RemoteControl.Theory.Tokens
import RemoteControl.Theory.Sockets
import RemoteControl.Theory.Authorization
import RemoteControl.Theory.Presence
import RemoteControl.Concurrency.Traces
import RemoteControl.Theory.OwnTraces
import RemoteControl.Theory.Recovery
import RemoteControl.Theory.ClosedSessions
import RemoteControl.Concurrency.Waiting
import RemoteControl.Theory.Deadlocks
import RemoteControl.Core.Accounts
import RemoteControl.Theory.Logins
import RemoteControl.Theory.JoinsApart
import RemoteControl.Theory.Spelling
import RemoteControl.Theory.Registration
import RemoteControl.Concurrency.Ledger
import RemoteControl.Concurrency.Versions
import RemoteControl.Theory.DeviceRecords
import RemoteControl.Theory.DeviceTraces
import RemoteControl.Theory.DeviceAccess
import RemoteControl.Theory.Onboarding
import RemoteControl.Core.TechnicianBackend
import RemoteControl.Core.Technicians
import RemoteControl.Theory.TechnicianTraces
import RemoteControl.Theory.TechnicianHistory
import RemoteControl.Theory.TechnicianRooms
import RemoteControl.Theory.Authority
import RemoteControl.Theory.Passwords
import RemoteControl.Theory.Activation
import RemoteControl.Theory.Ownership
