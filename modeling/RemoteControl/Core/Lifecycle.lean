import RemoteControl.Core.SupportRequests
import RemoteControl.Core.RemoteSessions

/-!
# The Lifecycle

The nine calls that change a request or a session, and the system in which
any number of them run at once. A call is named by a number; what the number
stands for is a parameter, so that a statement about all families of calls is
a statement about any number of calls of any kind, by anyone.

`handle` marks where a call begins and where it has returned. The two marks
make "this call had returned before that one began" a statement about the
history, and they are answered at once, so they give no other call a turn.

## Main definitions

* `Operation`: The nine calls with their arguments.
* `handle`: The program of a call.
* `boot`: The system before any call was made, on empty tables.
* `Reachable`: A system that a run of the calls leads to.
* `Response`: What a call returns.
-/

namespace RemoteControl

open Concurrency

/-- The nine calls, each with what the controller hands to the service. -/
inductive Operation where
  | createForDevice (device : Device)
  | assign (id : Uuid) (technician : User)
  | acceptByDevice (id : Uuid) (device : Device)
  | rejectByDevice (id : Uuid) (device : Device)
  | cancelByDevice (id : Uuid) (device : Device)
  | create (supportRequestId : Uuid) (user : User)
  | activateByTechnician (id : Uuid) (user : User)
  | closeByTechnician (id : Uuid) (user : User)
  | closeByDevice (id : Uuid) (device : Device)
  deriving DecidableEq, Repr

/-- What a call returns: a request or a session, as the API shows it. -/
inductive Response where
  | supportRequest (dto : SupportRequestResponseDto)
  | remoteSession (dto : RemoteSessionResponseDto)
  deriving DecidableEq, Repr

/-- The service's method for the call. -/
def Operation.body : Operation → Service Response
  | .createForDevice device => Response.supportRequest <$>
      SupportRequestsService.createForDevice device
  | .assign id technician => Response.supportRequest <$>
      SupportRequestsService.assign id technician
  | .acceptByDevice id device => Response.supportRequest <$>
      SupportRequestsService.acceptByDevice id device
  | .rejectByDevice id device => Response.supportRequest <$>
      SupportRequestsService.rejectByDevice id device
  | .cancelByDevice id device => Response.supportRequest <$>
      SupportRequestsService.cancelByDevice id device
  | .create supportRequestId user => Response.remoteSession <$>
      RemoteSessionsService.create supportRequestId user
  | .activateByTechnician id user => Response.remoteSession <$>
      RemoteSessionsService.activateByTechnician id user
  | .closeByTechnician id user => Response.remoteSession <$>
      RemoteSessionsService.closeByTechnician id user
  | .closeByDevice id device => Response.remoteSession <$>
      RemoteSessionsService.closeByDevice id device

/-- A call: its method, between the marks of its beginning and its return. -/
def handle (op : Operation) : Service Response := do
  ask .enter
  let response ← op.body.onError (fun e => do
    ask .leave
    .throw e)
  ask .leave
  return response

/-- A system of calls. -/
abbrev Calls := System Op Resp HttpException Response World CallId

/-- No call has been made, and the tables are empty. -/
def boot (calls : CallId → Operation) (devices : Uuid → Device) (users : Uuid → User)
    (clock : Timestamp) : Calls :=
  System.start (World.init devices users clock) (fun c => handle (calls c))

/-- A system that some run leads to. -/
def Reachable (calls : CallId → Operation) (throws : CallId → Emitter → Bool) (sys : Calls) :
    Prop :=
  ∃ devices users clock, Run (exec throws) anyTurn (boot calls devices users clock) sys

end RemoteControl
