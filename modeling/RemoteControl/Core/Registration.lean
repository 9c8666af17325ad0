import RemoteControl.Core.DeviceServices

/-!
# The Registration of Devices

How a device is registered. The service gives it a public identifier of nine
random digits, and leaves it to the database to find out that the identifier
is taken: the insertion fails then, and is tried again with another one, at
most five times.

What an insertion comes to is up to the surroundings (`Outcome`). It succeeds,
it violates the unique constraint of the public identifier, it violates another
one, or it fails in any other way. The service only sees what was thrown, and
looks for the name of the column in what the driver says of a violation.

Every insertion is a statement of its own, and one that fails leaves no row.

The loop of the source counts its attempts from one and looks at the count
before it tries again, so the fifth collision is not retried and is thrown
like any other violation. The statement after the loop is kept as the case of
no attempts left.

## Main definitions

* `DeviceDraft`: The row to be inserted.
* `Thrown`, `PostgresError`: What an insertion may throw.
* `DevicesService.create`: The registration.
* `Outcome`, `Surroundings`, `exec`: What the insertions come to.
* `attempts`: The loop.
* `isPublicIdCollision`, `handleDBError`: What the service makes of an error.
-/

namespace RemoteControl.Registration

open Concurrency

/-! ## Rows -/

/-- What an administrator may say of a new device. -/
structure CreateDeviceDto where
  name : Option String := none
  manufacturer : Option String := none
  model : Option String := none
  androidVersion : Option String := none
  appVersion : Option String := none
  deriving DecidableEq, Repr

/-- The columns a new device is saved with. The database adds the rest. -/
structure DeviceDraft where
  dto : CreateDeviceDto
  publicId : String
  deriving DecidableEq, Repr

/-- The row the database makes of it. A new device is active. -/
def DeviceDraft.toRow (d : DeviceDraft) (id : Uuid) : Device :=
  { id, publicId := d.publicId, name := d.dto.name, manufacturer := d.dto.manufacturer
    model := d.dto.model, androidVersion := d.dto.androidVersion, appVersion := d.dto.appVersion
    isActive := true }

/-! ## Errors -/

/-- The fields of the error of the driver. Each may be missing. -/
structure PostgresError where
  code : Option String
  detail : Option String
  constraint : Option String
  deriving DecidableEq, Repr

/-- What may be thrown: the error of a failed query, or anything else. -/
inductive Thrown where
  | queryFailed (driverError : PostgresError)
  | other
  deriving DecidableEq, Repr

/-! ## Programs -/

/-- What the registration asks of its surroundings. -/
inductive Op where
  | randomInt (min max : Nat)
  | save (device : DeviceDraft)
  | isOnline (deviceId : Uuid)

def Resp : Op → Type
  | .randomInt _ _ => Nat
  | .save _ => Except Thrown Device
  | .isOnline _ => Bool

/-- A program of the registration. -/
abbrev Service (α : Type) := Prog Op Resp HttpException α

/-- An operation. Nothing else has a part in this, so nothing waits. -/
def ask (o : Op) : Service (Resp o) := Prog.request o

/-- One string is part of the other. -/
def includes (s part : String) : Bool := decide (part.toList <:+: s.toList)

/-- The string with characters before it that make it `length` long. -/
def padStart (s : String) (length : Nat) (c : Char) : String :=
  String.ofList (List.replicate (length - s.length) c ++ s.toList)

namespace DevicesService

/-- How often an insertion is tried. -/
def publicIdMaxAttempts : Nat := 5

/-- Three random digits, with zeros in front. -/
def group : Service String := do
  let n : Nat ← ask (.randomInt 0 1000)
  return padStart (toString n) 3 '0'

/-- Nine random digits in groups of three. -/
def generatePublicId : Service String := do
  let first ← group
  let second ← group
  let third ← group
  return first ++ "-" ++ second ++ "-" ++ third

/-- What the driver said, if it was a query that failed. -/
def getPostgresError : Thrown → Option PostgresError
  | .queryFailed driverError => some driverError
  | .other => none

/-- The error is a violation that names the column. What is searched for the name
    is the constraint and the detail, put together. -/
def isPublicIdCollision (error : Thrown) : Bool :=
  match getPostgresError error with
  | none => false
  | some pgError =>
    if pgError.code ≠ some uniqueViolation then false
    else includes (pgError.constraint.getD "" ++ " " ++ pgError.detail.getD "") "publicId"

/-- A violation without a detail is told with the text of its status. -/
def handleDBError (error : Thrown) : HttpException :=
  match getPostgresError error with
  | none => .internalServerError "Please check server logs"
  | some pgError =>
    if pgError.code = some uniqueViolation then .badRequest (pgError.detail.getD "Bad Request")
    else .internalServerError "Please check server logs"

/-- The device as the API shows it. -/
def toResponse (device : Device) : Service Devices.DeviceResponseDto := do
  let isOnline : Bool ← ask (.isOnline device.id)
  return { id := device.id, publicId := device.publicId, name := device.name
           manufacturer := device.manufacturer, model := device.model
           androidVersion := device.androidVersion, appVersion := device.appVersion
           isActive := some device.isActive, isOnline }

/-- The loop from one attempt on, with so many left. -/
def attempts (createDeviceDto : CreateDeviceDto) (attempt : Nat) :
    Nat → Service Devices.DeviceResponseDto
  | 0 => .throw (.internalServerError "Could not generate a unique public id, please retry")
  | left + 1 => do
    let publicId ← generatePublicId
    let saved : Except Thrown Device ← ask (.save ⟨createDeviceDto, publicId⟩)
    match saved with
    | .ok device => toResponse device
    | .error error =>
      -- On the last attempt a collision is an error like the others.
      let isRetriableCollision :=
        isPublicIdCollision error && decide (attempt < publicIdMaxAttempts)
      if isRetriableCollision = true then attempts createDeviceDto (attempt + 1) left
      else .throw (handleDBError error)

/-- Register a device. -/
def create (createDeviceDto : CreateDeviceDto) : Service Devices.DeviceResponseDto :=
  attempts createDeviceDto 1 publicIdMaxAttempts

end DevicesService

/-! ## What the insertions come to -/

/-- What an insertion comes to. What the driver says of a public identifier
    that is taken names the column, of another constraint it may say anything.
    What fails otherwise is no violation of a unique constraint. -/
inductive Outcome where
  | saved (id : Uuid)
  | collided (constraint : Option String)
  | violated (detail constraint : Option String)
  | failed (error : Thrown)
      (h : ∀ e, DevicesService.getPostgresError error = some e → e.code ≠ some uniqueViolation)

/-- The detail of a unique constraint on one column. -/
def keyExists (column value : String) : String :=
  "Key (" ++ column ++ ")=(" ++ value ++ ") already exists."

/-- What is thrown, or the row that was saved. -/
def Outcome.answer (draft : DeviceDraft) : Outcome → Except Thrown Device
  | .saved id => .ok (draft.toRow id)
  | .collided constraint => .error (.queryFailed
      ⟨some uniqueViolation, some (keyExists "\"publicId\"" draft.publicId), constraint⟩)
  | .violated detail constraint =>
    .error (.queryFailed ⟨some uniqueViolation, detail, constraint⟩)
  | .failed error _ => .error error

/-- What each insertion comes to, the random numbers, and who is connected. -/
structure Surroundings where
  outcome : Nat → Outcome
  random : Nat → Nat
  isOnline : Uuid → Bool

/-- The rows of the table, the insertions so far and the random numbers
    drawn. -/
structure World where
  rows : List Device
  inserts : List DeviceDraft
  draws : Nat

/-- What an operation answers and does. A refused insertion leaves no row. -/
def exec (env : Surroundings) (o : Op) (w : World) : Option (Resp o × World) :=
  match o with
  | .randomInt min max =>
    some (min + env.random w.draws % (max - min), { w with draws := w.draws + 1 })
  | .save draft =>
    let saved := (env.outcome w.inserts.length).answer draft
    some (saved, { w with
      rows := w.rows ++ saved.toOption.toList, inserts := w.inserts ++ [draft] })
  | .isOnline deviceId => some (env.isOnline deviceId, w)

end RemoteControl.Registration
