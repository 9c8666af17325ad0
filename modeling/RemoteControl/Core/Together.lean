import RemoteControl.Core.Lifecycle
import RemoteControl.Core.Signaling

/-!
# The Lifecycle and the Signaling Together

Both work on the same table of remote sessions: the lifecycle writes it, and
the signaling only reads what is committed. `Core.Signaling` leaves open who
commits, and lets every commit happen that `mayCommit` allows. Here the
commits of the signaling are those of the lifecycle, one for one and at the
same moment.

The identifiers of the sessions are strings in the signaling. `Spelling` is
how the database writes a UUID: no two UUIDs alike, and in lower case.

A turn of the lifecycle that commits a session and the turn of the signaling
that finds it committed are one step. So there is never a moment at which the
two disagree about the table, which is what it means that they share it.

## Main definitions

* `Spelling`: How the database writes an identifier.
* `Backend`: The calls of the lifecycle and the messages of the signaling.
* `Step`: A turn of one of them, or a commit that both take part in.
* `Reachable`: A state that some steps lead to.
-/

namespace RemoteControl.Together

open Concurrency

open Signaling (Validator RemoteSessionRow MessageId)

/-- How the database writes an identifier. -/
structure Spelling where
  spell : Uuid → String
  injective : Function.Injective spell
  canonical : ∀ id, Signaling.canonical (spell id) = spell id

/-- The columns of a session that the signaling selects. -/
def Spelling.row (sp : Spelling) (s : RemoteSession) : RemoteSessionRow :=
  { id := sp.spell s.id, deviceId := s.deviceId, technicianId := s.technicianId
    status := s.status }

/-- The two systems, side by side. -/
structure Backend where
  lifecycle : Calls
  signaling : Signaling.Messages

section Steps

variable (calls : CallId → Operation) (throws : CallId → Emitter → Bool) (v : Validator)
  (messages : MessageId → Signaling.Operation) (sp : Spelling)

/-- A call takes a turn, and commits no session; or it commits one, and the
    signaling finds it committed; or a message takes a turn. -/
inductive Step (a : Backend) : Backend → Prop where
  -- The turn may write what it likes to the requests.
  | call (c : CallId) (env : Env) (lifecycle : Calls)
      (hturn : a.lifecycle.turn (exec throws) c env = some lifecycle)
      (hsame : lifecycle.shared.tables.sessions = a.lifecycle.shared.tables.sessions) :
      Step a { a with lifecycle }
  -- The row that was committed is a message to the signaling of its own.
  | commit (c : CallId) (env : Env) (lifecycle : Calls) (k : Uuid) (s : RemoteSession)
      (m : MessageId) (menv : Signaling.Env) (signaling : Signaling.Messages)
      (hturn : a.lifecycle.turn (exec throws) c env = some lifecycle)
      (hrow : lifecycle.shared.tables.sessions k = some s)
      (hnew : a.lifecycle.shared.tables.sessions k ≠ some s)
      (hm : messages m = .commit (sp.row s))
      (hcommit : a.signaling.turn Signaling.exec m menv = some signaling) :
      Step a { lifecycle, signaling }
  | message (m : MessageId) (menv : Signaling.Env) (signaling : Signaling.Messages)
      (hm : ∀ row, messages m ≠ .commit row)
      (hturn : a.signaling.turn Signaling.exec m menv = some signaling) :
      Step a { a with signaling }

/-- Empty tables, no calls, no sockets and no messages. -/
def boot (devices : Uuid → Device) (users : Uuid → User) (clock : Timestamp) : Backend :=
  { lifecycle := RemoteControl.boot calls devices users clock
    signaling := Signaling.boot v messages }

/-- A state that some steps lead to. -/
def Reachable (a : Backend) : Prop :=
  ∃ devices users clock,
    Relation.ReflTransGen (Step throws messages sp) (boot calls v messages devices users clock) a

end Steps

end RemoteControl.Together
