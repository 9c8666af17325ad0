import RemoteControl.Core.Registration

/-!
# Registration and Retries

What the registration of a device comes to, for all that its insertions may
come to. It stops at the first insertion that it does not take for a taken
identifier, or at the fifth (`create_saved`, `create_told`).

The fifth is where it goes wrong: the error of the fifth insertion is never
one to try again after, so it is told like any other violation, and the loop
never runs to its end. Whoever asks for a device when five identifiers in a row
were taken is told of a bad request, and not that the server is out of luck
(`retries_exhausted`). The other way to go wrong is a violation of another
constraint whose description happens to name the column. Otherwise the
registration does what it is meant to do (`retries_correctly`).

The proof follows the loop once, in general. `attempt_alone` runs an attempt
up to its insertion; what comes after an insertion is another attempt
(`attempt_retried`) or the end (`attempt_saved`, `attempt_told`). A list of
outcomes therefore decides where the registration stops, and the result is one
of two: a row is stored, or the last outcome is told (`create_saved`,
`create_told`). What a registration is meant to do speaks of another place,
the first outcome that is no collision. The two places differ where the
service is misled, and where there is no such outcome among the first five,
and these are the two conditions of `Retriable`.

## Main definitions

* `Outcome.isCollision`, `Outcome.misleads`, `Outcome.retries`: What an
  insertion comes to, and what the service takes it for.
* `Stops`, `FirstSettled`: Where the service stops, and where it ought to.
* `RetriesCorrectly`: What a registration is meant to do.

## Theorems

* `create_saved`, `create_told`: What a registration does.
* `retries_correctly`: When that is what it is meant to do.
* `retries_exhausted`: Five identifiers that are taken.
-/

namespace RemoteControl.Registration

open Concurrency DevicesService

/-! ## Outcomes -/

/-- The public identifier was taken. -/
def Outcome.isCollision : Outcome → Bool
  | .collided _ => true
  | _ => false

/-- A violation of another constraint, told with the name of the column. -/
def Outcome.misleads : Outcome → Bool
  | .violated detail constraint =>
    includes (constraint.getD "" ++ " " ++ detail.getD "") "publicId"
  | _ => false

/-- What the service takes for a public identifier that is taken. -/
def Outcome.retries (o : Outcome) : Bool := o.isCollision || o.misleads

/-- The row was stored. -/
def Outcome.isSaved : Outcome → Bool
  | .saved _ => true
  | _ => false

/-- A string includes its parts. -/
theorem includes_of_append {before part after : String} :
    includes (before ++ part ++ after) part = true := by
  refine decide_eq_true ⟨before.toList, after.toList, ?_⟩
  rw [String.toList_append, String.toList_append]

/-- The detail names the column. -/
theorem includes_keyExists (s value : String) :
    includes (s ++ keyExists "\"publicId\"" value) "publicId" = true := by
  have hsplit : s ++ keyExists "\"publicId\"" value =
      (s ++ "Key (\"") ++ "publicId" ++ ("\")=(" ++ value ++ ") already exists.") := by
    rw [← String.toList_inj]
    simp only [keyExists, String.toList_append, List.append_assoc]
    rfl
  rw [hsplit]
  exact includes_of_append

/-- The service tries again after what it takes for a collision. The detail of a
    collision names the column by itself; that of another violation does only if
    it is misleading; and an error without the code of a violation is never taken
    for one. -/
theorem retries_iff {o : Outcome} {draft : DeviceDraft} {error : Thrown}
    (h : o.answer draft = .error error) : isPublicIdCollision error = o.retries := by
  cases o with
  | saved id => cases h
  | collided constraint =>
      cases h
      simp only [isPublicIdCollision, getPostgresError, ne_eq, not_true_eq_false, if_false,
        Option.getD_some, Outcome.retries, Outcome.isCollision, Bool.true_or]
      exact includes_keyExists _ _
  | violated detail constraint =>
      cases h
      simp only [isPublicIdCollision, getPostgresError, ne_eq, not_true_eq_false, if_false,
        Outcome.retries, Outcome.isCollision, Outcome.misleads, Bool.false_or]
  | failed thrown hcode =>
      cases h
      simp only [isPublicIdCollision, Outcome.retries, Outcome.isCollision, Outcome.misleads,
        Bool.or_false]
      cases herror : getPostgresError error with
      | none => rfl
      | some e => simp only [hcode e herror, ne_eq, not_false_eq_true, if_true]

/-- How what an insertion comes to is told, if it is not tried again. -/
def Outcome.told (draft : DeviceDraft) : Outcome → HttpException
  | .collided _ => .badRequest (keyExists "\"publicId\"" draft.publicId)
  | .violated detail _ => .badRequest (detail.getD "Bad Request")
  | _ => .internalServerError "Please check server logs"

/-- What an error is told as depends on the outcome and, for a violation, on the
    draft that it names. The attempt that it was is not told. -/
theorem handleDBError_eq {o : Outcome} {draft : DeviceDraft} {error : Thrown}
    (h : o.answer draft = .error error) : handleDBError error = o.told draft := by
  cases o with
  | saved id => cases h
  | collided constraint =>
      cases h
      rfl
  | violated detail constraint =>
      cases h
      rfl
  | failed thrown hcode =>
      cases h
      simp only [handleDBError, Outcome.told]
      cases herror : getPostgresError error with
      | none => rfl
      | some e => simp only [hcode e herror, if_false]

/-! ## Attempts -/

variable {env : Surroundings} {dto : CreateDeviceDto} {rows : List Device} {n left : Nat}

/-- The three digits of a random number. -/
def digits (env : Surroundings) (draw : Nat) : String :=
  padStart (toString (0 + env.random draw % (1000 - 0))) 3 '0'

/-- The row that an attempt inserts. Every attempt draws three new numbers. -/
def draftOf (env : Surroundings) (dto : CreateDeviceDto) (attempt : Nat) : DeviceDraft :=
  ⟨dto, digits env (3 * attempt) ++ "-" ++ digits env (3 * attempt + 1) ++ "-" ++
    digits env (3 * attempt + 2)⟩

/-- The world after so many insertions, none of which has left a row. -/
def worldAt (env : Surroundings) (dto : CreateDeviceDto) (rows : List Device) (n : Nat) : World :=
  { rows, inserts := (List.range n).map (draftOf env dto), draws := 3 * n }

/-- The response for a stored row. -/
def respond (env : Surroundings) (row : Device) : Devices.DeviceResponseDto :=
  { id := row.id, publicId := row.publicId, name := row.name, manufacturer := row.manufacturer
    model := row.model, androidVersion := row.androidVersion, appVersion := row.appVersion
    isActive := some row.isActive, isOnline := env.isOnline row.id }

/-- One insertion for each attempt so far. -/
theorem length_inserts : (worldAt env dto rows n).inserts.length = n := by
  rw [worldAt, List.length_map, List.length_range]

/-- The insertion of an attempt. -/
theorem inserted_at (n : Nat) : (worldAt env dto rows n).inserts ++ [draftOf env dto n] =
    (worldAt env dto rows (n + 1)).inserts := by
  rw [worldAt, worldAt, List.range_succ, List.map_append, List.map_singleton]

/-- An attempt up to its insertion. The three draws come first, so the draft is
    the one of this attempt, and the world has one more insertion whatever it came
    to. -/
theorem attempt_alone {f : Except Thrown Device → Service Devices.DeviceResponseDto} :
    (generatePublicId.bind (fun publicId => Prog.op (.save ⟨dto, publicId⟩) f)).runAlone (exec env)
        (worldAt env dto rows n) =
      (f ((env.outcome n).answer (draftOf env dto n))).runAlone (exec env)
        { worldAt env dto rows (n + 1) with
          rows := rows ++ ((env.outcome n).answer (draftOf env dto n)).toOption.toList } := by
  -- Up to the insertion the program is a fixed number of operations, which compute
  -- away.
  change (f ((env.outcome (worldAt env dto rows n).inserts.length).answer
      (draftOf env dto n))).runAlone (exec env)
    { rows := rows ++ ((env.outcome (worldAt env dto rows n).inserts.length).answer
        (draftOf env dto n)).toOption.toList
      inserts := (worldAt env dto rows n).inserts ++ [draftOf env dto n], draws := 3 * n + 3 } = _
  rw [length_inserts, inserted_at]
  rfl

/-- What comes after an insertion. -/
def afterSave (dto : CreateDeviceDto) (attempt left : Nat) :
    Except Thrown Device → Service Devices.DeviceResponseDto
  | .ok device => toResponse device
  | .error error =>
    if (isPublicIdCollision error && decide (attempt < publicIdMaxAttempts)) = true then
      attempts dto (attempt + 1) left
    else .throw (handleDBError error)

/-- An attempt draws an identifier and inserts a row under it. -/
theorem attempts_succ {attempt : Nat} : attempts dto attempt (left + 1) =
    generatePublicId.bind (fun publicId =>
      Prog.op (.save ⟨dto, publicId⟩) (afterSave dto attempt left)) := by
  rw [attempts]
  rfl

/-- An attempt whose insertion succeeds. -/
theorem attempt_saved {id : Uuid} (h : env.outcome n = .saved id) :
    (attempts dto (n + 1) (left + 1)).runAlone (exec env) (worldAt env dto rows n) =
      some (.ok (respond env ((draftOf env dto n).toRow id)),
        { worldAt env dto rows (n + 1) with rows := rows ++ [(draftOf env dto n).toRow id] }) := by
  rw [attempts_succ, attempt_alone]
  rw [h]
  rfl

/-- An attempt that is tried again. A stored row is no collision, so what was
    answered is an error, and it is one to try again after. -/
theorem attempt_retried (h : (env.outcome n).retries = true) (hn : n + 1 < publicIdMaxAttempts) :
    (attempts dto (n + 1) (left + 1)).runAlone (exec env) (worldAt env dto rows n) =
      (attempts dto (n + 2) left).runAlone (exec env) (worldAt env dto rows (n + 1)) := by
  rw [attempts_succ, attempt_alone]
  cases hanswer : (env.outcome n).answer (draftOf env dto n) with
  | ok device =>
      cases ho : env.outcome n with
      | saved id =>
          rw [ho] at h
          cases h
      | _ =>
          rw [ho] at hanswer
          cases hanswer
  | error error =>
      have hboth : (isPublicIdCollision error && decide (n + 1 < publicIdMaxAttempts)) = true := by
        rw [retries_iff hanswer, h, decide_eq_true hn, Bool.and_self]
      simp only [afterSave, hboth, if_true, Except.toOption, Option.toList_none, List.append_nil]
      rfl

/-- An attempt after which no other one is made. The service either does not take
    the error for a collision, or it has no attempt left. -/
theorem attempt_told {error : Thrown}
    (hanswer : (env.outcome n).answer (draftOf env dto n) = .error error)
    (h : (env.outcome n).retries = false ∨ n + 1 = publicIdMaxAttempts) :
    (attempts dto (n + 1) (left + 1)).runAlone (exec env) (worldAt env dto rows n) =
      some (.error ((env.outcome n).told (draftOf env dto n)), worldAt env dto rows (n + 1)) := by
  rw [attempts_succ, attempt_alone]
  rw [hanswer]
  -- The guard of the loop fails, on its one side or on the other.
  have hlast : ¬ (isPublicIdCollision error && decide (n + 1 < publicIdMaxAttempts)) = true := by
    rw [retries_iff hanswer, Bool.and_eq_true, decide_eq_true_eq]
    rintro ⟨hretries, hn⟩
    rcases h with h | h
    · rw [hretries] at h
      cases h
    · omega
  simp only [afterSave, hlast, Except.toOption, Option.toList_none, List.append_nil,
    handleDBError_eq hanswer]
  rfl

/-! ## Where the service stops -/

/-- The service stops at the first insertion it does not try again after, and
    at the fifth at the latest. -/
structure Stops (env : Surroundings) (n : Nat) : Prop where
  bound : n < publicIdMaxAttempts
  before : ∀ i < n, (env.outcome i).retries = true
  last : (env.outcome n).retries = false ∨ n + 1 = publicIdMaxAttempts

/-- The first insertion that comes to anything else than an identifier that is
    taken. -/
structure FirstSettled (env : Surroundings) (n : Nat) : Prop where
  bound : n < publicIdMaxAttempts
  before : ∀ i < n, (env.outcome i).isCollision = true
  settled : (env.outcome n).isCollision = false

/-- A search that is bounded ends. Either some place within the bound is the first
    where the property fails, or it holds at all of them. -/
theorem first_or_all (p : Nat → Bool) (N : Nat) :
    (∃ n < N, (∀ i < n, p i = true) ∧ p n = false) ∨ ∀ i < N, p i = true := by
  induction N with
  | zero => exact .inr (fun i hi => absurd hi (Nat.not_lt_zero i))
  | succ N ih =>
      rcases ih with ⟨n, hn, hbefore, hp⟩ | hall
      · exact .inl ⟨n, Nat.lt_succ_of_lt hn, hbefore, hp⟩
      · by_cases hp : p N = true
        · refine .inr (fun i hi => ?_)
          rcases Nat.lt_succ_iff_lt_or_eq.mp hi with hi | rfl
          · exact hall i hi
          · exact hp
        · exact .inl ⟨N, Nat.lt_succ_self N, hall, Bool.not_eq_true _ ▸ hp⟩

/-- The service stops somewhere: at the first outcome that it does not try again
    after, or else at the fifth. -/
theorem stops_exists (env : Surroundings) : ∃ n, Stops env n := by
  rcases first_or_all (fun i => (env.outcome i).retries) publicIdMaxAttempts with
    ⟨n, hn, hbefore, hlast⟩ | hall
  · exact ⟨n, hn, hbefore, .inl hlast⟩
  · have hlt : 4 < publicIdMaxAttempts := by decide
    exact ⟨4, hlt, fun i hi => hall i (Nat.lt_trans hi hlt), .inr rfl⟩

/-- The attempts that are tried again lead to the next one. The registration is
    then at its next attempt, with the world that so many insertions have left. -/
theorem attempts_alone (hbefore : ∀ i < n, (env.outcome i).retries = true)
    (hn : n + left + 1 = publicIdMaxAttempts) :
    (create dto).runAlone (exec env) ⟨rows, [], 0⟩ =
      (attempts dto (n + 1) (left + 1)).runAlone (exec env) (worldAt env dto rows n) := by
  induction n generalizing left with
  | zero =>
      have hleft : left + 1 = publicIdMaxAttempts := by omega
      rw [create, ← hleft]
      rfl
  | succ n ih =>
      rw [ih (fun i hi => hbefore i (Nat.lt_succ_of_lt hi)) (by omega : n + (left + 1) + 1 = _)]
      exact attempt_retried (hbefore n (Nat.lt_succ_self n)) (by omega)

/-- A registration whose last insertion succeeds. -/
theorem create_saved {id : Uuid} (h : Stops env n) (ho : env.outcome n = .saved id) :
    (create dto).runAlone (exec env) ⟨rows, [], 0⟩ =
      some (.ok (respond env ((draftOf env dto n).toRow id)),
        { worldAt env dto rows (n + 1) with rows := rows ++ [(draftOf env dto n).toRow id] }) := by
  obtain ⟨left, hleft⟩ := Nat.exists_eq_add_of_lt h.bound
  rw [attempts_alone h.before (hleft.symm)]
  exact attempt_saved ho

/-- A registration whose last insertion fails. The attempts before it are tried
    again, and this one is not. -/
theorem create_told (h : Stops env n) (ho : (env.outcome n).isSaved = false) :
    (create dto).runAlone (exec env) ⟨rows, [], 0⟩ =
      some (.error ((env.outcome n).told (draftOf env dto n)), worldAt env dto rows (n + 1)) := by
  obtain ⟨left, hleft⟩ := Nat.exists_eq_add_of_lt h.bound
  -- An outcome that stores nothing answers an error.
  have hanswer : ∃ error, (env.outcome n).answer (draftOf env dto n) = .error error := by
    cases hn : env.outcome n with
    | saved id =>
        rw [hn] at ho
        cases ho
    | _ => exact ⟨_, rfl⟩
  rcases hanswer with ⟨error, hanswer⟩
  rw [attempts_alone h.before (hleft.symm)]
  exact attempt_told hanswer h.last

/-! ## What a registration is meant to do -/

/-- What a registration is meant to do, from its result and the world after
    it. -/
structure RetriesCorrectly (env : Surroundings) (dto : CreateDeviceDto) (rows : List Device)
    (result : Except HttpException Devices.DeviceResponseDto) (w : World) : Prop where
  atMost : w.inserts.length ≤ publicIdMaxAttempts
  fresh : w.inserts = (List.range w.inserts.length).map (draftOf env dto)
  retries : ∀ i, i + 1 < w.inserts.length → (env.outcome i).isCollision = true
  created : ((∃ response, result = .ok response) ∧ ∃ row, w.rows = rows ++ [row]) ↔
    ∃ n, FirstSettled env n ∧ (env.outcome n).isSaved = true
  returned : ∀ response, result = .ok response →
    ∃ row, w.rows = rows ++ [row] ∧ response = respond env row
  refused : ∀ error, result = .error error → w.rows = rows
  violated : ∀ n detail constraint, FirstSettled env n →
    env.outcome n = .violated detail constraint →
    (∃ message, result = .error (.badRequest message)) ∧ w.inserts.length = n + 1
  failed : ∀ n error h, FirstSettled env n → env.outcome n = .failed error h →
    result = .error (.internalServerError "Please check server logs") ∧ w.inserts.length = n + 1
  exhausted : (∀ i < publicIdMaxAttempts, (env.outcome i).isCollision = true) →
    result = .error (.internalServerError
      "Could not generate a unique public id, please retry") ∧ w.rows = rows

/-- There is one place where the service ought to stop: the earlier of two would
    be a collision for the later. -/
theorem FirstSettled.eq {m : Nat} (h : FirstSettled env n) (h' : FirstSettled env m) : n = m := by
  rcases Nat.lt_trichotomy n m with hlt | heq | hlt
  · have hbad := h'.before n hlt
    rw [h.settled] at hbad
    cases hbad
  · exact heq
  · have hbad := h.before m hlt
    rw [h'.settled] at hbad
    cases hbad

/-- Where the service ought to stop, it does, if it is not misled before the
    last attempt. -/
theorem FirstSettled.stops (h : FirstSettled env n)
    (hleads : n + 1 < publicIdMaxAttempts → (env.outcome n).misleads = false) : Stops env n where
  bound := h.bound
  before := fun i hi => by rw [Outcome.retries, h.before i hi, Bool.true_or]
  last := by
    by_cases hn : n + 1 < publicIdMaxAttempts
    · exact .inl (by rw [Outcome.retries, h.settled, hleads hn, Bool.or_self])
    · exact .inr (by have := h.bound; omega)

/-- There is one place where the service stops. -/
theorem Stops.eq {m : Nat} (h : Stops env n) (h' : Stops env m) : n = m := by
  rcases Nat.lt_trichotomy n m with hlt | heq | hlt
  · rcases h.last with hlast | hlast
    · rw [h'.before n hlt] at hlast
      cases hlast
    · have := h'.bound
      omega
  · exact heq
  · rcases h'.last with hlast | hlast
    · rw [h.before m hlt] at hlast
      cases hlast
    · have := h.bound
      omega

/-- Whoever is misled before the last attempt goes on. It takes that outcome for a
    collision as well, and it has attempts left. -/
theorem Stops.after_misled {k : Nat} (h : Stops env n) (hk : FirstSettled env k)
    (hlt : k + 1 < publicIdMaxAttempts) (hmisled : (env.outcome k).misleads = true) : k < n := by
  by_contra hle
  -- If it had stopped by then, it would have stopped at an outcome that it tries again
  -- after.
  have hretries : (env.outcome n).retries = true := by
    rcases Nat.lt_or_eq_of_le (Nat.not_lt.mp hle) with hlt' | rfl
    · rw [Outcome.retries, hk.before n hlt', Bool.true_or]
    · rw [Outcome.retries, hmisled, Bool.or_true]
  rcases h.last with hlast | hlast
  · rw [hretries] at hlast
    cases hlast
  · omega

/-- What is asked of the inputs, for a registration to do what it is meant
    to. -/
def Retriable (env : Surroundings) : Prop :=
  (∃ i < publicIdMaxAttempts, (env.outcome i).isCollision = false) ∧
  ∀ n, FirstSettled env n → n + 1 < publicIdMaxAttempts → (env.outcome n).misleads = false

/-- The service stops where it ought to. -/
theorem Retriable.settled (h : Retriable env) (hn : Stops env n) : FirstSettled env n := by
  rcases first_or_all (fun i => (env.outcome i).isCollision) publicIdMaxAttempts with
    ⟨m, hm, hbefore, hlast⟩ | hall
  · have hfirst : FirstSettled env m := ⟨hm, hbefore, hlast⟩
    rw [hn.eq (hfirst.stops (h.2 m hfirst))]
    exact hfirst
  · rcases h.1 with ⟨i, hi, hnot⟩
    rw [hall i hi] at hnot
    cases hnot

variable {result : Except HttpException Devices.DeviceResponseDto} {w : World}

/-- What the number of insertions says of the inputs. A misleading outcome in an
    earlier place would be the one to tell, with no insertion after it; but the
    service has made more. -/
theorem RetriesCorrectly.not_misled (h : RetriesCorrectly env dto rows result w)
    (hn : Stops env n) (hw : w.inserts = (worldAt env dto rows (n + 1)).inserts) :
    ∀ k, FirstSettled env k → k + 1 < publicIdMaxAttempts → (env.outcome k).misleads = false := by
  intro k hk hlt
  rw [← Bool.not_eq_true]
  intro hmisled
  cases ho : env.outcome k with
  | violated detail constraint =>
      have hlength := (h.violated k detail constraint hk ho).2
      rw [hw, length_inserts] at hlength
      have := hn.after_misled hk hlt hmisled
      omega
  | _ =>
      rw [ho] at hmisled
      cases hmisled

/-- The insertions are as they are meant to be, when the service stops where it
    ought to. -/
theorem inserts_correctly (hn : FirstSettled env n)
    (hw : w.inserts = (worldAt env dto rows (n + 1)).inserts) :
    w.inserts.length = n + 1 ∧ w.inserts.length ≤ publicIdMaxAttempts ∧
      w.inserts = (List.range w.inserts.length).map (draftOf env dto) ∧
      ∀ i, i + 1 < w.inserts.length → (env.outcome i).isCollision = true := by
  have hlength : w.inserts.length = n + 1 := by
    rw [hw, length_inserts]
  rw [hlength]
  refine ⟨rfl, hn.bound, hw, fun i hi => hn.before i (by omega)⟩

/-- A registration that stores its row does what it is meant to exactly under the
    condition. In the one direction the stored row is no collision, so there is a
    settled outcome; in the other each clause speaks of the first settled outcome,
    and that is this one. -/
theorem saved_correctly {id : Uuid} {row : Device} (hn : Stops env n)
    (ho : env.outcome n = .saved id) : RetriesCorrectly env dto rows (.ok (respond env row))
      { worldAt env dto rows (n + 1) with rows := rows ++ [row] } ↔ Retriable env := by
  constructor
  · intro h
    refine ⟨⟨n, hn.bound, ?_⟩, h.not_misled hn rfl⟩
    rw [ho]
    rfl
  · intro h
    have hfirst := h.settled hn
    rcases inserts_correctly (w := { worldAt env dto rows (n + 1) with rows := rows ++ [row] })
      hfirst rfl with ⟨_, hatMost, hfresh, hretries⟩
    -- Every clause about an outcome of another kind would be about this one.
    have hother : ∀ {k o}, FirstSettled env k → env.outcome k = o → o = .saved id := by
      intro k o hk hko
      rw [← hko, hk.eq hfirst, ho]
    refine ⟨hatMost, hfresh, hretries, ?_, ?_, ?_, ?_, ?_, ?_⟩
    · exact ⟨fun _ => ⟨n, hfirst, by rw [ho]; rfl⟩, fun _ => ⟨⟨_, rfl⟩, row, rfl⟩⟩
    · intro response hresponse
      cases hresponse
      exact ⟨row, rfl, rfl⟩
    · intro error herror
      cases herror
    · intro k detail constraint hk hko
      cases hother hk hko
    · intro k error _ hk hko
      cases hother hk hko
    · intro hall
      have hbad := hall n hn.bound
      rw [hfirst.settled] at hbad
      cases hbad

/-- A registration that tells of an error does what it is meant to exactly under
    the condition. Five collisions are the case in which there is nothing settled:
    the last one is told as a bad request, which is not what it ought to be. -/
theorem told_correctly (hn : Stops env n) (ho : (env.outcome n).isSaved = false) :
    RetriesCorrectly env dto rows (.error ((env.outcome n).told (draftOf env dto n)))
      (worldAt env dto rows (n + 1)) ↔ Retriable env := by
  constructor
  · intro h
    -- Only that some outcome is settled is left to see.
    refine ⟨?_, h.not_misled hn rfl⟩
    by_contra hall
    have hcollided : ∀ i < publicIdMaxAttempts, (env.outcome i).isCollision = true := by
      intro i hi
      by_contra hnot
      exact hall ⟨i, hi, Bool.not_eq_true _ ▸ hnot⟩
    -- The last collision is told as a bad request.
    have htold := (h.exhausted hcollided).1
    have hlast := hcollided n hn.bound
    cases hn' : env.outcome n with
    | collided constraint =>
        rw [hn'] at htold
        cases htold
    | _ =>
        rw [hn'] at hlast
        cases hlast
  · intro h
    -- The service has stopped where it ought to, so each clause is about the outcome it
    -- has told.
    have hfirst := h.settled hn
    rcases inserts_correctly (w := worldAt env dto rows (n + 1)) hfirst rfl with
      ⟨hlength, hatMost, hfresh, hretries⟩
    refine ⟨hatMost, hfresh, hretries, ⟨?_, ?_⟩, ?_, fun _ _ => rfl, ?_, ?_, ?_⟩
    · rintro ⟨⟨response, hresponse⟩, _⟩
      cases hresponse
    · rintro ⟨k, hk, hsaved⟩
      rw [hk.eq hfirst, ho] at hsaved
      cases hsaved
    · intro response hresponse
      cases hresponse
    · intro k detail constraint hk hko
      rw [hk.eq hfirst] at hko ⊢
      rw [hko]
      exact ⟨⟨_, rfl⟩, hlength⟩
    · intro k error hcode hk hko
      rw [hk.eq hfirst] at hko ⊢
      rw [hko]
      exact ⟨rfl, hlength⟩
    · intro hall
      have hbad := hall n hn.bound
      rw [hfirst.settled] at hbad
      cases hbad

/-- A registration does what it is meant to do, unless the first five
    identifiers are all taken, or another violation is told with the name of
    the column before the fifth attempt. -/
theorem retries_correctly (env : Surroundings) (dto : CreateDeviceDto) (rows : List Device) :
    ∃ result w, (create dto).runAlone (exec env) ⟨rows, [], 0⟩ = some (result, w) ∧
      (RetriesCorrectly env dto rows result w ↔ Retriable env) := by
  rcases stops_exists env with ⟨n, hn⟩
  cases ho : env.outcome n with
  | saved id => exact ⟨_, _, create_saved hn ho, saved_correctly hn ho⟩
  | _ =>
      have hnot : (env.outcome n).isSaved = false := by
        rw [ho]
        rfl
      exact ⟨_, _, create_told hn hnot, told_correctly hn hnot⟩

/-- Every identifier is taken. -/
def unlucky : Surroundings :=
  { outcome := fun _ => .collided none, random := fun _ => 0, isOnline := fun _ => false }

/-- After five identifiers that are taken, the caller is told of a bad
    request. -/
theorem retries_exhausted : ∃ message w,
    (create {}).runAlone (exec unlucky) ⟨[], [], 0⟩ = some (.error (.badRequest message), w) ∧
      ¬ RetriesCorrectly unlucky {} [] (.error (.badRequest message)) w := by
  have hstops : Stops unlucky 4 := ⟨by decide, fun _ _ => rfl, .inr rfl⟩
  refine ⟨_, _, create_told hstops rfl, fun h => ?_⟩
  have htold := (h.exhausted (fun _ _ => rfl)).1
  cases htold

end RemoteControl.Registration
