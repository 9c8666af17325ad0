import RemoteControl.Theory.DeviceCalls

/-!
# Runs of the Device Services

`handle_spec` verifies one call against what the others may do. Here the
soundness of the rules turns it into a statement about every reachable
system: the invariant holds, and a call that is over has ended the way its
response says.

Properties of whole runs are then properties of histories. They are proved by
induction on the history, one entry at a time, in the modules that follow.

The example that is used throughout has one tablet. A call for a code, the
activation with this code and a login take 13, 19 and 7 turns when they go one
after another. The schedules are followed by evaluation
(`reachable_of_follow`), and the theorems are then applied to the state that
is reached.

## Main definitions

* `plainCrypto`, `tablet`, `turns`: Something to follow schedules with.

## Theorems

* `Reachable.inv`, `Reachable.history`: Every reachable system keeps the rules.
* `Reachable.done`, `Reachable.thrown`: How a call that is over has ended.
* `reachable_of_follow`: A schedule that can be followed reaches its end.
* `boot_sound`: Each call keeps the rules from its beginning.
* `deviceTable_committed`, `deviceTable_free`, `init_inv`, `init_at`: The
  state of the start.
-/

namespace RemoteControl.Devices

open Concurrency

variable {crypto : Crypto} {calls : CallId → Call} {fleet : List Device} {c : CallId}

/-- How a call has ended is not changed by the others. -/
theorem Done.stable {r : Response} :
    (deviceRules crypto calls fleet).Stable c (Done crypto calls c r) := by
  intro u w w' huc hi hi' hg h
  rcases h with ⟨p, hp, ha⟩
  exact ⟨p, hp, At.stable u w w' huc hi hi' hg ha⟩

/-- Likewise if it has ended with an error. -/
theorem Thrown.stable {e : HttpException} :
    (deviceRules crypto calls fleet).Stable c (Thrown crypto calls c e) := by
  intro u w w' huc hi hi' hg h
  rcases h with ⟨p, hp, ha⟩
  exact ⟨p, hp, At.stable u w w' huc hi hi' hg ha⟩

/-! ## The beginning -/

/-- The committed devices of the start are those of the fleet. -/
theorem deviceTable_committed (id : Uuid) :
    (deviceTable fleet).committed id = fleet.find? (fun d => decide (d.id = id)) := by
  induction fleet with
  | nil => rfl
  | cons d fleet ih =>
      rw [List.find?_cons, deviceTable, Table.committed]
      by_cases hd : d.id = id
      · subst hd
        rw [Table.set_row_self, decide_eq_true rfl]
      · rw [Table.set_row_of_ne _ _ _ _ (fun hc => hd hc.symm), decide_eq_false hd]
        exact ih

/-- No row of the start is held. -/
theorem deviceTable_free : (deviceTable fleet).HoldsRows c (fun _ => none) := by
  induction fleet with
  | nil =>
      rintro k ⟨p, hp⟩
      simp only [deviceTable, Table.init, Row.empty, reduceCtorEq] at hp
  | cons d fleet ih =>
      intro k
      by_cases hk : k = d.id
      -- The row of this device was set with no holder.
      · rintro ⟨p, hp⟩
        rw [deviceTable, hk, Table.set_row_self] at hp
        simp only [reduceCtorEq] at hp
      · show ¬ ((deviceTable (d :: fleet)).row k).HeldBy c
        rw [deviceTable, Table.set_row_of_ne _ _ _ _ hk]
        exact ih k

/-- The state of the start is the one the empty history leads to. -/
theorem init_inv : Inv crypto calls fleet (World.init fleet) where
  tables := by
    simp only [World.tables, World.init, replay, Tables.initial, Tables.mk.injEq]
    exact ⟨funext deviceTable_committed, rfl, rfl⟩
  history := trivial
  distinct := Table.distinctHowever_init _
  contexts := fun _ => rfl
  connections := rfl

/-- A call starts with nothing found and nothing held. -/
theorem init_at : At c .start .free (World.init fleet) where
  progress := rfl
  devices := deviceTable_free
  enrollments := by
    rintro k ⟨p, hp⟩
    simp only [World.init, Table.init, Row.empty, reduceCtorEq] at hp
  credentials := by
    rintro k ⟨p, hp⟩
    simp only [World.init, Table.init, Row.empty, reduceCtorEq] at hp

/-! ## Every reachable system -/

/-- The system of the calls is sound from its start, as each call is verified. -/
theorem boot_sound : (deviceRules crypto calls fleet).Sound (exec crypto) (Done crypto calls)
    (Thrown crypto calls) (boot crypto calls fleet) := by
  refine .start init_inv (fun c w hr hi => ?_)
  exact handle_spec crypto calls fleet c w hi (hr.keeps At.stable init_inv init_at).1

/-- Every reachable system keeps to the rules. -/
theorem Reachable.sound {sys : Calls} (h : Reachable crypto calls fleet sys) :
    (deviceRules crypto calls fleet).Sound (exec crypto) (Done crypto calls)
    (Thrown crypto calls) sys :=
  boot_sound.run (fun _ _ => Done.stable) (fun _ _ => Thrown.stable) h

/-- The invariant holds in every reachable system. -/
theorem Reachable.inv {sys : Calls} (h : Reachable crypto calls fleet sys) :
    Inv crypto calls fleet sys.shared := h.sound.inv

/-- The history of every reachable system is in order. -/
theorem Reachable.history {sys : Calls} (h : Reachable crypto calls fleet sys) :
    History crypto calls fleet sys.shared.log := h.inv.history

/-- How a call that has returned has ended. -/
theorem Reachable.done {sys : Calls} (h : Reachable crypto calls fleet sys) {r : Response}
    (hc : sys.threads c = .ret r) : Answers crypto (calls c) (progress c sys.shared.log) r := by
  have hsafe := h.sound.safe c
  rw [hc] at hsafe
  rcases hsafe with ⟨p, hp, ha⟩
  rw [ha.progress]
  exact hp

/-- How a call that has thrown has ended. -/
theorem Reachable.thrown {sys : Calls} (h : Reachable crypto calls fleet sys)
    {e : HttpException} (hc : sys.threads c = .throw e) :
    Threw crypto (calls c) (progress c sys.shared.log) := by
  have hsafe := h.sound.safe c
  rw [hc] at hsafe
  rcases hsafe with ⟨p, hp, ha⟩
  rw [ha.progress]
  exact hp

/-- A schedule that can be followed reaches its end. -/
theorem reachable_of_follow {ls : List (CallId × Env)} {p : Calls → Bool}
    (h : ((follow (exec crypto) (boot crypto calls fleet) ls).any p) = true) :
    ∃ sys, Reachable crypto calls fleet sys ∧ p sys = true := by
  rw [Option.any_eq_true] at h
  rcases h with ⟨sys, hsys, hp⟩
  exact ⟨sys, run_of_follow ls _ sys hsys, hp⟩

/-! ## A tablet to try things on -/

/-- Hashing that hides nothing, and tokens that anybody could sign. -/
def plainCrypto : Crypto :=
  { hash := fun data _ => data
    compare := fun data hash => decide (data = hash)
    sha256 := fun data => data.toList.map (fun ch => UInt8.ofNat ch.toNat)
    sign := fun payload _ => if payload.credentialId = 100 then "first" else "second"
    verify := fun token _ =>
      if token = "first" then some { sub := 7, tokenType := "device", credentialId := 100 }
      else if token = "second" then some { sub := 7, tokenType := "device", credentialId := 200 }
      else none }

/-- A code is its own hash there. -/
theorem plainCrypto_comparesExactly : plainCrypto.ComparesExactly := fun _ _ _ => rfl

/-- The device of the examples. -/
def tablet : Device :=
  { id := 7, publicId := "384-729-142", name := none, manufacturer := none, model := none
    androidVersion := none, appVersion := none, isActive := true }

/-- The tablet comes with this code. -/
def activation (code : String) : Call := .activate { publicId := "384-729-142", code }

/-- A call takes `n` turns in a row. What is random is this number, and a row
    that is inserted gets this identifier. -/
def turns (c : CallId) (n : Nat) (random : Nat) (newId : Uuid) : List (CallId × Env) :=
  List.replicate n (c, { time := 10, random, bytes := "secret", salt := 0, newId, createdAt := 1
                         atOnce := fun _ => true })

end RemoteControl.Devices
