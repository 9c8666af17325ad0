import RemoteControl.Theory.DeviceCommits
import Mathlib.Data.Set.Card

/-!
# The Lifecycle of Enrollments and Credentials

What holds of the enrollments and the credentials of a device in every
reachable state, whatever the interleaving of the calls that led there.

Each enrollment is followed on its own (`EnrollmentOk`): its counter counts
the calls that guessed wrong, it is used by one call at most, and it is never
both used and revoked. The argument is the same for all of them. Only three
kinds of commit touch an enrollment, and two of these only write rows that
their call has locked while they were pending.

The three numbers of `Counts` grow together, by one for each
commit of an activation that found the right code, and never otherwise.

A wrong guess is counted by the commit of its transaction, after which the
call is refused. That no guess is lost is therefore a statement about calls
that are over (`counted_when_over`). A call that has ended without a commit
was rolled back, and this happens only after it had found the right code.

The counter is compared with a set of calls, not with a number of entries, as
the guess that is counted is identified by its call. In the step this is an
insertion of one new element: a call commits once, so it has not been counted.

## Main definitions

* `Guessed`, `WrongGuess`: A committed activation whose code was wrong.
* `Consumed`, `Activated`: A committed activation whose code was right.
* `EnrollmentOk`: What holds of one enrollment.
* `RowOk`: What holds of an enrollment that is there.
* `Through`: What a successful activation has gone through.
* `UsedBy`, `IssuedTo`, `Counts`: The sets that are counted.

## Theorems

* `enrollment_ok`: It holds of every enrollment.
* `counted_when_over`: No wrong guess is lost.
* `counts`: Activations, used enrollments, credentials.
* `inForce_of_issued`: A device that was issued a credential has one in force.
* `enrollment_lifecycle`: All of it, in every reachable state.
* `EnrollmentOk.commit`: One enrollment, across any commit.
* `activated_through`: A successful activation had the right code.
* `consumed_activated`: Whoever uses an enrollment activates.
* `Counts.activated`, `Counts.unchanged`: The three sets, across a commit.
-/

namespace RemoteControl.Devices

open Concurrency

section

variable (crypto : Crypto) (calls : CallId → Call)

/-- An activation that found the enrollment pending, and whose code was that
    of none it found. -/
def Guessed (call : Call) (p : Progress) (id : Uuid) : Prop :=
  ∃ dto, call = .activate dto ∧ (∃ e ∈ p.found, e.id = id) ∧
    ∀ e ∈ p.found, ∀ code, e.HasCode crypto code → dto.code ≠ code

/-- It has committed. -/
def WrongGuess (l : List Entry) (id : Uuid) (c : CallId) : Prop :=
  (progress c l).committed ≠ none ∧ Guessed crypto (calls c) (progress c l) id

end

/-- The call has committed the use of the enrollment. -/
def Consumed (l : List Entry) (id : Uuid) : CallId → Prop :=
  CommittedWith (fun ws => ∃ w ∈ ws.enrollments, w.key = id ∧ w.new.usedAt ≠ none) l

/-- The call has committed a new credential of the device. -/
def Activated (l : List Entry) (deviceId : Uuid) : CallId → Prop :=
  CommittedWith (fun ws => ∃ w ∈ ws.credentials, w.old = none ∧ w.new.deviceId = deviceId) l

variable {crypto : Crypto} {calls : CallId → Call} {fleet : List Device} {c : CallId}

/-! ## What an entry adds -/

/-- An entry that commits nothing neither adds a wrong guess nor takes one back:
    who has committed finds no more. -/
theorem wrongGuess_note {ev : Event} {l : List Entry}
    (hok : EntryOk crypto calls fleet l ⟨c, ev⟩) (hev : ¬ ev.IsCommit) (id : Uuid) :
    WrongGuess crypto calls (⟨c, ev⟩ :: l) id = WrongGuess crypto calls l id := by
  funext c'
  simp only [WrongGuess, committed_of_note hev c', eq_iff_iff, and_congr_right_iff]
  intro hc'
  simp only [Guessed, (History.settled hok hc').1]

/-- A commit adds the guess of its call, if it was a wrong one. -/
theorem wrongGuess_commit {ws : Writes} {l : List Entry} (hopen : (progress c l).committed = none)
    (id : Uuid) (c' : CallId) :
    WrongGuess crypto calls (⟨c, .committed ws⟩ :: l) id c' ↔
      (c' = c ∧ Guessed crypto (calls c) (progress c l) id) ∨ WrongGuess crypto calls l id c' := by
  by_cases hc : c = c'
  · subst hc
    simp only [WrongGuess, progress_own, Progress.add, hopen, ne_eq, reduceCtorEq,
      not_false_eq_true, not_true_eq_false, true_and, false_and, or_false]
    exact Iff.rfl
  · have hne : c' ≠ c := fun h => hc h.symm
    simp only [WrongGuess, progress_other (e := ⟨c, .committed ws⟩) hc, hne, false_and, false_or]

/-! ## One enrollment -/

/-- What holds of an enrollment that there is. -/
structure RowOk (crypto : Crypto) (calls : CallId → Call) (l : List Entry) (id : Uuid)
    (e : DeviceEnrollment) : Prop where
  exclusive : e.usedAt = none ∨ e.revokedAt = none
  attempts : e.failedAttempts ≤ DeviceEnrollmentService.maxFailedAttempts
  exhausted : e.failedAttempts = DeviceEnrollmentService.maxFailedAttempts → e.revokedAt ≠ none
  counted : (e.failedAttempts : ℕ∞) = {c | WrongGuess crypto calls l id c}.encard
  used : e.usedAt ≠ none ↔ ∃ c, Consumed l id c
  code : ∃ code, e.HasCode crypto code

/-- What holds of the enrollment with this identifier, if there is one. -/
structure EnrollmentOk (crypto : Crypto) (calls : CallId → Call) (fleet : List Device)
    (l : List Entry) (id : Uuid) : Prop where
  absent : (replay fleet l).enrollments id = none →
    (∀ c, ¬ WrongGuess crypto calls l id c) ∧ ∀ c, ¬ Consumed l id c
  row : ∀ e, (replay fleet l).enrollments id = some e → RowOk crypto calls l id e
  once : ∀ c c', Consumed l id c → Consumed l id c' → c = c'

/-- A code is open if it was neither used nor revoked. -/
theorem isUnsettled_iff {e : DeviceEnrollment} :
    e.isUnsettled = true ↔ e.usedAt = none ∧ e.revokedAt = none := by
  simp only [DeviceEnrollment.isUnsettled, Bool.and_eq_true, Option.isNone_iff_eq_none]

/-- It is pending if it has not expired either. -/
theorem isPending_iff {e : DeviceEnrollment} {now : Timestamp} :
    e.isPending now = true ↔ e.usedAt = none ∧ e.revokedAt = none ∧ now < e.expiresAt := by
  rw [DeviceEnrollment.isPending, Bool.and_eq_true, isUnsettled_iff, decide_eq_true_eq, and_assoc]

section Commit

variable {ws : Writes} {l : List Entry} {id : Uuid}

/-- A commit of a call that has not guessed wrong adds none. -/
theorem wrongGuess_same (ws : Writes) (hopen : (progress c l).committed = none)
    (hguess : ¬ Guessed crypto (calls c) (progress c l) id) :
    WrongGuess crypto calls (⟨c, .committed ws⟩ :: l) id = WrongGuess crypto calls l id := by
  funext c'
  rw [eq_iff_iff, wrongGuess_commit hopen]
  exact or_iff_right (fun hc => hguess hc.2)

/-- A commit that leaves the enrollment unused adds no use. -/
theorem consumed_same (hopen : (progress c l).committed = none)
    (hunused : ∀ w ∈ ws.enrollments, w.key = id → w.new.usedAt = none) :
    Consumed (⟨c, .committed ws⟩ :: l) id = Consumed l id := by
  funext c'
  rw [eq_iff_iff]
  refine (committedWith_commit hopen c').trans (or_iff_right ?_)
  rintro ⟨_, w, hw, hk, hused⟩
  exact hused (hunused w hw hk)

/-- A commit that uses no enrollment, and no guess. -/
theorem EnrollmentOk.quiet (h : EnrollmentOk crypto calls fleet l id)
    (hopen : (progress c l).committed = none)
    (hguess : ¬ Guessed crypto (calls c) (progress c l) id)
    (hunused : ∀ w ∈ ws.enrollments, w.key = id → w.new.usedAt = none)
    (habsent : (replay fleet (⟨c, .committed ws⟩ :: l)).enrollments id = none →
      (replay fleet l).enrollments id = none)
    (hrow : ∀ e, (replay fleet (⟨c, .committed ws⟩ :: l)).enrollments id = some e →
      (RowOk crypto calls l id e)) :
    EnrollmentOk crypto calls fleet (⟨c, .committed ws⟩ :: l) id := by
  -- The call is neither a wrong guess at this enrollment nor its use.
  have hguesses := wrongGuess_same ws hopen hguess
  have hconsumed := consumed_same hopen hunused
  refine ⟨fun hnone => ?_, fun e he => ?_, ?_⟩
  · rw [hguesses, hconsumed]
    exact h.absent (habsent hnone)
  · have hok := hrow e he
    refine ⟨hok.exclusive, hok.attempts, hok.exhausted, ?_, ?_, hok.code⟩
    · rw [hguesses]
      exact hok.counted
    · rw [hconsumed]
      exact hok.used
  · rw [hconsumed]
    exact h.once

/-- Nothing has happened to an enrollment that was just saved. -/
theorem RowOk.fresh (h : EnrollmentOk crypto calls fleet l id)
    (hnone : (replay fleet l).enrollments id = none) {e : DeviceEnrollment}
    (hunsettled : e.isUnsettled = true) (hattempts : e.failedAttempts = 0)
    (hcode : ∃ code, e.HasCode crypto code) : RowOk crypto calls l id e := by
  rcases isUnsettled_iff.mp hunsettled with ⟨hused, hrevoked⟩
  -- There was no row, so nobody has guessed at it or used it.
  rcases h.absent hnone with ⟨hguess, hconsumed⟩
  refine ⟨.inl hused, ?_, fun h5 => ?_, ?_, ?_, hcode⟩
  · rw [hattempts]
    exact Nat.zero_le _
  · rw [hattempts] at h5
    exact absurd h5 (by decide)
  · rw [hattempts, show {c | WrongGuess crypto calls l id c} = ∅ from
      Set.eq_empty_iff_forall_notMem.mpr hguess, Set.encard_empty, Nat.cast_zero]
  · exact ⟨fun hne => absurd hused hne, fun ⟨c, hc⟩ => absurd hc (hconsumed c)⟩

/-- An open enrollment may be revoked at any time. -/
theorem RowOk.revoked {e : DeviceEnrollment} (h : RowOk crypto calls l id e)
    (hunsettled : e.isUnsettled = true) (now : Timestamp) :
    RowOk crypto calls l id (e.revoke now) := by
  rcases isUnsettled_iff.mp hunsettled with ⟨hused, _⟩
  exact ⟨.inl hused, h.attempts, fun _ => Option.some_ne_none _, h.counted, h.used, h.code⟩

/-- A wrong guess on a pending enrollment. It is counted, and the last one
    that is tolerated revokes. -/
theorem EnrollmentOk.failed (h : EnrollmentOk crypto calls fleet l id)
    (hopen : (progress c l).committed = none)
    (hguess : Guessed crypto (calls c) (progress c l) id) {e : DeviceEnrollment}
    {now : Timestamp} (hpending : e.isPending now = true)
    (hrow : (replay fleet l).enrollments id = some e)
    (hnew : (replay fleet (⟨c, .committed ws⟩ :: l)).enrollments id = some (e.fail now))
    (hunused : ∀ w ∈ ws.enrollments, w.key = id → w.new.usedAt = none) :
    EnrollmentOk crypto calls fleet (⟨c, .committed ws⟩ :: l) id := by
  have hok := h.row e hrow
  rcases isPending_iff.mp hpending with ⟨hused, hrevoked, _⟩
  have hconsumed := consumed_same hopen hunused
  have hset : {c' | WrongGuess crypto calls (⟨c, .committed ws⟩ :: l) id c'} =
      insert c {c' | WrongGuess crypto calls l id c'} := by
    ext c'
    simp only [Set.mem_ofPred_eq, Set.mem_insert_iff, wrongGuess_commit hopen, hguess, and_true]
  have hnot : c ∉ {c' | WrongGuess crypto calls l id c'} := fun hc => hc.1 hopen
  -- The enrollment was not exhausted, because it was not revoked.
  have hlt : e.failedAttempts < DeviceEnrollmentService.maxFailedAttempts :=
    lt_of_le_of_ne hok.attempts (fun h5 => hok.exhausted h5 hrevoked)
  refine ⟨fun hnone => ?_, fun e' he' => ?_, ?_⟩
  · rw [hnew] at hnone
    simp only [reduceCtorEq] at hnone
  · rw [hnew, Option.some.injEq] at he'
    subst he'
    refine ⟨.inl hused, hlt, fun h5 => ?_, ?_, ?_, hok.code⟩
    · have hlast : DeviceEnrollmentService.maxFailedAttempts ≤ e.failedAttempts + 1 :=
        Nat.le_of_eq h5.symm
      simp only [DeviceEnrollment.fail, if_pos hlast, ne_eq, reduceCtorEq, not_false_eq_true]
    · rw [hset, Set.encard_insert_of_notMem hnot, ← hok.counted]
      exact Nat.cast_succ _
    · rw [hconsumed]
      exact hok.used
  · rw [hconsumed]
    exact h.once

/-- The use of a pending enrollment. -/
theorem EnrollmentOk.used (h : EnrollmentOk crypto calls fleet l id)
    (hopen : (progress c l).committed = none)
    (hguess : ¬ Guessed crypto (calls c) (progress c l) id) {e : DeviceEnrollment}
    {now : Timestamp} (hpending : e.isPending now = true)
    (hrow : (replay fleet l).enrollments id = some e)
    (hnew : (replay fleet (⟨c, .committed ws⟩ :: l)).enrollments id = some (e.use now))
    (hw : ⟨id, some e, e.use now⟩ ∈ ws.enrollments) :
    EnrollmentOk crypto calls fleet (⟨c, .committed ws⟩ :: l) id := by
  have hok := h.row e hrow
  rcases isPending_iff.mp hpending with ⟨hused, hrevoked, _⟩
  have hguesses := wrongGuess_same ws hopen hguess
  -- The enrollment was pending, so nobody had used it before.
  have hnobody : ∀ c', ¬ Consumed l id c' := fun c' hc' => hok.used.mpr ⟨c', hc'⟩ hused
  have hconsumed : ∀ c', Consumed (⟨c, .committed ws⟩ :: l) id c' ↔ c' = c := by
    intro c'
    refine (committedWith_commit hopen c').trans ⟨?_, ?_⟩
    · rintro (hc | hc)
      · exact hc.1
      · exact absurd hc (hnobody c')
    · exact fun hc => .inl ⟨hc, _, hw, rfl, Option.some_ne_none _⟩
  refine ⟨fun hnone => ?_, fun e' he' => ?_, fun c₁ c₂ h₁ h₂ => ?_⟩
  · rw [hnew] at hnone
    simp only [reduceCtorEq] at hnone
  · rw [hnew, Option.some.injEq] at he'
    subst he'
    refine ⟨.inr hrevoked, hok.attempts, hok.exhausted, ?_, ?_, hok.code⟩
    · rw [hguesses]
      exact hok.counted
    · exact ⟨fun _ => ⟨c, (hconsumed c).mpr rfl⟩, fun _ => Option.some_ne_none _⟩
  · rw [(hconsumed c₁).mp h₁, (hconsumed c₂).mp h₂]

/-- Who has found the right code has not guessed wrong. -/
theorem Activates.not_guessed (hcmp : crypto.ComparesExactly) {dto : ActivateDeviceDto}
    {p : Progress} {now : Timestamp} {device : Device} {e : DeviceEnrollment}
    {k : DeviceCredential} (h : Activates crypto dto p now device e k ws)
    (hcode : ∃ code, e.HasCode crypto code) : ¬ Guessed crypto (.activate dto) p id := by
  rintro ⟨dto', hcall, _, hwrong⟩
  rcases hcode with ⟨code, salt, hhash⟩
  -- The code that was given has the hash of the enrollment, and is compared exactly.
  have hsame := h.code
  rw [hhash, hcmp, decide_eq_true_eq] at hsame
  rw [Call.activate.injEq] at hcall
  rw [← hcall] at hwrong
  exact hwrong e h.found code ⟨salt, hhash⟩ hsame

/-- A call that has found no enrollment has not guessed. -/
theorem not_guessed {call : Call} {p : Progress} (h : p.found = []) :
    ¬ Guessed crypto call p id := by
  rintro ⟨_, _, ⟨e, he, _⟩, _⟩
  rw [h] at he
  simp only [List.not_mem_nil] at he

/-- One enrollment, across a commit. -/
theorem EnrollmentOk.commit (hcmp : crypto.ComparesExactly) (hh : History crypto calls fleet l)
    (hopen : (progress c l).committed = none) (hcur : Current (replay fleet l) ws)
    (hexp : Explains crypto (calls c) (progress c l) ws)
    (h : ∀ id, EnrollmentOk crypto calls fleet l id) :
    EnrollmentOk crypto calls fleet (⟨c, .committed ws⟩ :: l) id := by
  -- A commit that leaves the enrollments alone.
  have hnothing : ws.enrollments = [] → ¬ Guessed crypto (calls c) (progress c l) id →
      EnrollmentOk crypto calls fleet (⟨c, .committed ws⟩ :: l) id := by
    intro hempty hguess
    have hsame : (replay fleet (⟨c, .committed ws⟩ :: l)).enrollments id =
        (replay fleet l).enrollments id := by
      simp only [replay, apply_enrollments, hempty, applyWrites_nil]
    refine (h id).quiet hopen hguess (fun w hw => ?_) (fun hnone => ?_) (fun e he => ?_)
    · rw [hempty] at hw
      exact absurd hw List.not_mem_nil
    · rw [← hsame, hnone]
    · exact (h id).row e (by rw [← hsame, he])
  cases hexp with
  | nothing _ _ hfound _ hempty _ => exact hnothing hempty (not_guessed hfound)
  | patched _ _ _ _ _ hfound _ _ _ _ hempty _ => exact hnothing hempty (not_guessed hfound)
  | touched _ _ _ hfound _ hempty _ => exact hnothing hempty (not_guessed hfound)
  | failed dto now hcall hnow hwrong hws _ _ =>
      -- The rows it writes are those it has locked, and these were pending.
      have hpending : ∀ e ∈ (progress c l).found, e.isPending now = true := by
        intro e he
        rcases found_pending hh he with ⟨_, now', _, hnow', hp⟩
        rw [hnow, Option.some.injEq] at hnow'
        rw [hnow']
        exact hp
      have hunused : ∀ w ∈ ws.enrollments, w.key = id → w.new.usedAt = none := by
        intro w hw _
        rcases (hws w).mp hw with ⟨e, he, rfl⟩
        exact (isPending_iff.mp (hpending e he)).1
      rcases applyWrites_current hcur.enrollments id with ⟨hno, heq⟩ | ⟨w, hw, hk, hold, hnew⟩
      · -- This enrollment was not among them.
        refine (h id).quiet hopen ?_ hunused (fun hnone => by rw [← heq]; exact hnone)
          (fun e he => (h id).row e (by rw [← heq]; exact he))
        rintro ⟨_, _, ⟨e, he, hid⟩, _⟩
        exact hno _ ((hws _).mpr ⟨e, he, rfl⟩) hid
      · -- It was, and none of the codes was right.
        rcases (hws w).mp hw with ⟨e, he, rfl⟩
        subst hk
        refine (h e.id).failed hopen ⟨dto, hcall, ⟨e, he, rfl⟩, fun e' he' code hcode hsame => ?_⟩
          (hpending e he) hold hnew hunused
        rcases hcode with ⟨salt, hhash⟩
        have hfalse := hwrong e' he'
        rw [hhash, hcmp, decide_eq_false_iff_not] at hfalse
        exact hfalse hsame
  | activated dto now device e k hcall hact =>
      have hrow : (replay fleet l).enrollments e.id = some e :=
        hcur.enrollments _ ((hact.enrollments _).mpr rfl)
      have hguess : ¬ Guessed crypto (calls c) (progress c l) id := by
        rw [hcall]
        exact hact.not_guessed hcmp ((h e.id).row e hrow).code
      rcases applyWrites_current hcur.enrollments id with ⟨hno, heq⟩ | ⟨w, hw, hk, hold, hnew⟩
      · -- Another enrollment was used.
        exact (h id).quiet hopen hguess (fun w hw hk => absurd hk (hno w hw))
          (fun hnone => by rw [← heq]; exact hnone)
          (fun e he => (h id).row e (by rw [← heq]; exact he))
      · -- This one was.
        rw [(hact.enrollments w).mp hw] at hk hold hnew
        subst hk
        rcases found_pending hh hact.found with ⟨_, now', _, hnow', hp⟩
        rw [hact.time, Option.some.injEq] at hnow'
        rw [← hnow'] at hp
        exact (h e.id).used hopen hguess hp hold hnew ((hact.enrollments _).mpr rfl)
  | issued deviceId now e hcall hiss =>
      -- A new enrollment is unused, and so is one that is revoked as open.
      have hunused : ∀ w ∈ ws.enrollments, w.key = id → w.new.usedAt = none := by
        intro w hw _
        rcases hiss.enrollments w hw with rfl | ⟨r, hr, _, _, rfl⟩
        · exact (isUnsettled_iff.mp hiss.unsettled).1
        · exact (isUnsettled_iff.mp hr).1
      refine (h id).quiet hopen (not_guessed hiss.found) hunused (fun hnone => ?_)
        (fun row hrow => ?_)
      · rcases applyWrites_current hcur.enrollments id with ⟨_, heq⟩ | ⟨w, _, _, _, hnew⟩
        · rw [← heq]
          exact hnone
        · have hsome := hnew.symm.trans hnone
          simp only [reduceCtorEq] at hsome
      · rcases applyWrites_current hcur.enrollments id with ⟨_, heq⟩ | ⟨w, hw, hk, hold, hnew⟩
        · exact (h id).row row (by rw [← heq]; exact hrow)
        · have hsame : w.new = row := Option.some.inj (hnew.symm.trans hrow)
          rcases hiss.enrollments w hw with rfl | ⟨r, hr, _, _, rfl⟩
          -- It is the new one, or one of those that were revoked.
          · rw [← hsame]
            exact .fresh (h id) hold hiss.unsettled hiss.attempts hiss.code
          · rw [← hsame]
            exact ((h id).row r hold).revoked hr now

end Commit

/-- Every enrollment, in every history. -/
theorem enrollment_ok (hcmp : crypto.ComparesExactly) {l : List Entry}
    (h : History crypto calls fleet l) (id : Uuid) : EnrollmentOk crypto calls fleet l id := by
  refine h.induction (P := fun l => ∀ id, EnrollmentOk crypto calls fleet l id) ?_ ?_ ?_ id
  · refine fun id => ⟨fun _ => ⟨fun c hc => hc.1 rfl, ?_⟩, fun e he => ?_, ?_⟩
    · rintro c ⟨ws, hws, _⟩
      simp only [progress, Progress.start, reduceCtorEq] at hws
    · simp only [replay, Tables.initial, reduceCtorEq] at he
    · rintro c c' ⟨ws, hws, _⟩
      simp only [progress, Progress.start, reduceCtorEq] at hws
  · intro c ev l _ hok hev ih id
    -- An entry that commits nothing changes none of what is counted.
    have hguesses := wrongGuess_note hok hev id
    have hconsumed : Consumed (⟨c, ev⟩ :: l) id = Consumed l id := committedWith_note hev
    refine ⟨?_, fun e he => ?_, ?_⟩
    · rw [replay_of_note hev, hguesses, hconsumed]
      exact (ih id).absent
    · rw [replay_of_note hev] at he
      have hrow := (ih id).row e he
      refine ⟨hrow.exclusive, hrow.attempts, hrow.exhausted, ?_, ?_, hrow.code⟩
      · rw [hguesses]
        exact hrow.counted
      · rw [hconsumed]
        exact hrow.used
    · rw [hconsumed]
      exact (ih id).once
  · intro c ws l hh hopen hcur hexp ih id
    exact .commit hcmp hh hopen hcur hexp ih

/-! ## Activations -/

/-- What a successful activation has gone through: it consumed one enrollment,
    which was pending when it was locked, with the right code. -/
structure Through (crypto : Crypto) (calls : CallId → Call) (l : List Entry) (deviceId : Uuid)
    (c : CallId) (dto : ActivateDeviceDto) (now : Timestamp) (e : DeviceEnrollment) : Prop where
  call : calls c = .activate dto
  started : (progress c l).now = some now
  locked : e ∈ (progress c l).found
  owned : e.deviceId = deviceId
  unused : e.usedAt = none
  unrevoked : e.revokedAt = none
  unexpired : now < e.expiresAt
  code : e.HasCode crypto dto.code
  consumed : ∀ id, Consumed l id c ↔ id = e.id

/-- A commit issues a credential only when it activates. -/
theorem Explains.issues {call : Call} {p : Progress} {ws : Writes}
    (h : Explains crypto call p ws) {deviceId : Uuid}
    (hw : ∃ w ∈ ws.credentials, w.old = none ∧ w.new.deviceId = deviceId) :
    ∃ dto now device e k, call = .activate dto ∧ device.id = deviceId ∧
      Activates crypto dto p now device e k ws := by
  rcases hw with ⟨w, hw, hold, hdevice⟩
  cases h.credentialChange hw with
  | issued dto now device e k hcall hact hwrite =>
      rw [hwrite] at hdevice
      exact ⟨dto, now, device, e, k, hcall, hact.owner.symm.trans hdevice, hact⟩
  -- The other two write over a row that was there.
  | revoked _ _ _ _ _ r _ _ _ _ hwrite =>
      rw [hwrite] at hold
      simp only [reduceCtorEq] at hold
  | touched _ _ r _ hwrite =>
      rw [hwrite] at hold
      simp only [reduceCtorEq] at hold

/-- A commit uses an enrollment only when it activates. -/
theorem Explains.consumes {call : Call} {p : Progress} {ws : Writes}
    (h : Explains crypto call p ws) (hpending : ∀ e ∈ p.found, e.usedAt = none) {id : Uuid}
    (hw : ∃ w ∈ ws.enrollments, w.key = id ∧ w.new.usedAt ≠ none) :
    ∃ dto now device e k, call = .activate dto ∧ e.id = id ∧
      Activates crypto dto p now device e k ws := by
  rcases hw with ⟨w, hw, hk, hused⟩
  cases h.enrollmentChange hw with
  -- What is failed, given out or superseded was unused, and stays so.
  | failed _ _ e _ he hwrite =>
      rw [hwrite] at hused
      exact absurd (hpending e he) hused
  | given _ _ e _ hiss hwrite =>
      rw [hwrite] at hused
      exact absurd (isUnsettled_iff.mp hiss.unsettled).1 hused
  | superseded _ _ r _ hr _ hwrite =>
      rw [hwrite] at hused
      exact absurd (isUnsettled_iff.mp hr).1 hused
  | used dto now device e k hcall hact hwrite =>
      rw [hwrite] at hk
      exact ⟨dto, now, device, e, k, hcall, hk, hact⟩

/-- Credentials do not change hands. -/
theorem Explains.credential_owner {call : Call} {p : Progress} {ws : Writes}
    (h : Explains crypto call p ws) {w : Write Uuid DeviceCredential} (hw : w ∈ ws.credentials)
    {k : DeviceCredential} (hold : w.old = some k) : w.new.deviceId = k.deviceId := by
  cases h.credentialChange hw with
  | issued _ _ _ _ _ _ _ hwrite =>
      rw [hwrite] at hold
      simp only [reduceCtorEq] at hold
  | revoked _ _ _ _ _ r _ _ _ _ hwrite =>
      rw [hwrite] at hold ⊢
      rw [← Option.some.inj hold]
      rfl
  | touched _ _ r _ hwrite =>
      rw [hwrite] at hold ⊢
      rw [← Option.some.inj hold]

/-- What a commit writes over a credential keeps it active, or revokes it for
    another one of the device. -/
theorem Explains.revokes {call : Call} {p : Progress} {ws : Writes}
    (h : Explains crypto call p ws) {w : Write Uuid DeviceCredential} (hw : w ∈ ws.credentials)
    {k : DeviceCredential} (hold : w.old = some k) :
    w.new.isActive = k.isActive ∨ ∃ dto now device e k',
      Activates crypto dto p now device e k' ws ∧ k.deviceId = device.id := by
  cases h.credentialChange hw with
  | issued _ _ _ _ _ _ _ hwrite =>
      rw [hwrite] at hold
      simp only [reduceCtorEq] at hold
  | revoked dto now device e k' r _ hact _ howner hwrite =>
      rw [hwrite] at hold
      rw [← Option.some.inj hold]
      exact .inr ⟨dto, now, device, e, k', hact, howner⟩
  | touched _ _ r _ hwrite =>
      rw [hwrite] at hold ⊢
      rw [← Option.some.inj hold]
      exact .inl rfl

/-- What an activation has locked was not used. -/
theorem found_unused {l : List Entry} (h : History crypto calls fleet l) :
    ∀ e ∈ (progress c l).found, e.usedAt = none := by
  intro e he
  rcases found_pending h he with ⟨_, _, _, _, hp⟩
  exact (isPending_iff.mp hp).1

/-- Whoever uses an enrollment activates. -/
theorem consumed_activated {l : List Entry} (h : History crypto calls fleet l) {id : Uuid}
    (hc : Consumed l id c) : ∃ deviceId, Activated l deviceId c := by
  refine h.induction (P := fun l => Consumed l id c → ∃ deviceId, Activated l deviceId c)
    ?_ ?_ ?_ hc
  · rintro ⟨ws, hws, _⟩
    simp only [progress, Progress.start, reduceCtorEq] at hws
  · intro c' ev l _ _ hev ih hc
    have hconsumed : Consumed (⟨c', ev⟩ :: l) id = Consumed l id := committedWith_note hev
    rw [hconsumed] at hc
    rcases ih hc with ⟨deviceId, hact⟩
    have hkeep : Activated (⟨c', ev⟩ :: l) deviceId = Activated l deviceId :=
      committedWith_note hev
    exact ⟨deviceId, by rw [hkeep]; exact hact⟩
  · intro c' ws l hh hopen _ hexp ih hc
    rcases (committedWith_commit hopen c).mp hc with ⟨rfl, hused⟩ | hbefore
    -- The commit that uses an enrollment issues a credential.
    · rcases hexp.consumes (found_unused hh) hused with ⟨_, _, device, _, k, _, _, hact⟩
      refine ⟨device.id, (committedWith_commit hopen c).mpr (.inl ⟨rfl, _, hact.issued, rfl, ?_⟩)⟩
      exact hact.owner
    · rcases ih hbefore with ⟨deviceId, hact⟩
      exact ⟨deviceId, (committedWith_commit hopen c).mpr (.inr hact)⟩

/-- An activation that has issued a credential consumed one enrollment, which was
    pending when it was locked, and whose code was given. -/
theorem activated_through (hcmp : crypto.ComparesExactly) {l : List Entry}
    (h : History crypto calls fleet l) {deviceId : Uuid} (hc : Activated l deviceId c) :
    ∃ dto now e, Through crypto calls l deviceId c dto now e := by
  refine h.induction (P := fun l => Activated l deviceId c → ∃ dto now e,
    Through crypto calls l deviceId c dto now e) ?_ ?_ ?_ hc
  · -- In the beginning nothing is committed.
    rintro ⟨ws, hws, _⟩
    simp only [progress, Progress.start, reduceCtorEq] at hws
  · intro c' ev l _ hok hev ih hc
    have hkeep : Activated (⟨c', ev⟩ :: l) deviceId = Activated l deviceId :=
      committedWith_note hev
    have hbefore : Activated l deviceId c := by
      rw [← hkeep]
      exact hc
    rcases ih hbefore with ⟨dto, now, e, hthrough⟩
    have hcommitted : (progress c l).committed ≠ none := by
      rcases hbefore with ⟨ws, hws, _⟩
      rw [hws]
      exact Option.some_ne_none _
    -- It has committed, so nothing is added to what it has found.
    rcases History.settled hok hcommitted with ⟨hfound, hnow⟩
    have hconsumed : ∀ id, Consumed (⟨c', ev⟩ :: l) id = Consumed l id :=
      fun id => committedWith_note hev
    refine ⟨dto, now, e, { hthrough with
      started := hnow.trans hthrough.started, locked := ?_, consumed := fun id => ?_ }⟩
    · rw [hfound]
      exact hthrough.locked
    · rw [hconsumed id]
      exact hthrough.consumed id
  · intro c' ws l hh hopen hcur hexp ih hc
    have hconsumed : ∀ id, Consumed (⟨c', .committed ws⟩ :: l) id c ↔
        (c = c' ∧ ∃ w ∈ ws.enrollments, w.key = id ∧ w.new.usedAt ≠ none) ∨ Consumed l id c :=
      fun id => committedWith_commit hopen c
    rcases (committedWith_commit hopen c).mp hc with ⟨rfl, hissues⟩ | hbefore
    · rcases hexp.issues hissues with ⟨dto, now, device, e, k, hcall, hdevice, hact⟩
      -- What it locked was pending at the time it was told first.
      rcases found_pending hh hact.found with ⟨_, now', _, hnow', hp⟩
      rw [hact.time, Option.some.injEq] at hnow'
      rw [← hnow'] at hp
      rcases isPending_iff.mp hp with ⟨hused, hrevoked, hexpires⟩
      have hrow : (replay fleet l).enrollments e.id = some e :=
        hcur.enrollments _ ((hact.enrollments _).mpr rfl)
      refine ⟨dto, now, e, { call := hcall, started := ?_, locked := ?_
                             owned := hact.owned.trans hdevice, unused := hused
                             unrevoked := hrevoked, unexpired := hexpires, code := ?_
                             consumed := fun id => ?_ }⟩
      · rw [progress_own]
        exact hact.time
      · rw [progress_own]
        exact hact.found
      · rcases ((enrollment_ok hcmp hh e.id).row e hrow).code with ⟨code, salt, hhash⟩
        have hsame := hact.code
        rw [hhash, hcmp, decide_eq_true_eq] at hsame
        exact ⟨salt, by rw [hsame]; exact hhash⟩
      · refine (hconsumed id).trans ⟨?_, ?_⟩
        · rintro (⟨_, w, hw, hk, _⟩ | ⟨ws', hws', _⟩)
          · rw [(hact.enrollments w).mp hw] at hk
            exact hk.symm
          · rw [hopen] at hws'
            simp only [reduceCtorEq] at hws'
        · rintro rfl
          exact .inl ⟨rfl, _, (hact.enrollments _).mpr rfl, rfl, Option.some_ne_none _⟩
    · rcases ih hbefore with ⟨dto, now, e, hthrough⟩
      -- It commits once, so this commit is another call's.
      have hne : c' ≠ c := by
        rintro rfl
        rcases hbefore with ⟨ws', hws', _⟩
        rw [hopen] at hws'
        simp only [reduceCtorEq] at hws'
      have hsame : progress c (⟨c', .committed ws⟩ :: l) = progress c l :=
        progress_other (e := ⟨c', .committed ws⟩) hne
      refine ⟨dto, now, e, { hthrough with
        started := by rw [hsame]; exact hthrough.started
        locked := by rw [hsame]; exact hthrough.locked, consumed := fun id => ?_ }⟩
      refine (hconsumed id).trans ((or_iff_right (fun hc => hne hc.1.symm)).trans ?_)
      exact hthrough.consumed id

/-! ## Every wrong guess counts -/

/-- An enrollment that was locked is the hash of some code. -/
theorem found_has_code (hcmp : crypto.ComparesExactly) {l : List Entry}
    (h : History crypto calls fleet l) {e : DeviceEnrollment} (he : e ∈ (progress c l).found) :
    ∃ code, e.HasCode crypto code := by
  have hlocked : ∃ l₁, ⟨c, .found e⟩ :: l₁ <:+ l := by
    refine entry_of_progress (P := fun p => e ∈ p.found) List.not_mem_nil (fun p ev hp => ?_) he
    cases ev with
    | found row =>
        simp only [Progress.add, List.mem_append, List.mem_singleton] at hp
        rcases hp with hp | rfl
        · exact .inl hp
        · exact .inr rfl
    | _ => exact .inl hp
  rcases hlocked with ⟨l₁, hl₁⟩
  -- When it was locked it was a row of the table.
  rcases h.suffix hl₁ with ⟨hok, hbefore⟩
  exact ((enrollment_ok hcmp hbefore e.id).row e hok.2.1).code

/-- A call that is over and has guessed wrong is counted: it cannot have ended
    before its transaction was committed. -/
theorem counted_when_over (hcmp : crypto.ComparesExactly) {sys : Calls}
    (h : Reachable crypto calls fleet sys) {id : Uuid}
    (hover : (∃ r, sys.threads c = .ret r) ∨ ∃ e, sys.threads c = .throw e)
    (hguess : Guessed crypto (calls c) (progress c sys.shared.log) id) :
    WrongGuess crypto calls sys.shared.log id c := by
  refine ⟨fun hnone => ?_, hguess⟩
  rcases hguess with ⟨dto, hcall, _, hwrong⟩
  rcases hover with ⟨r, hr⟩ | ⟨e, he⟩
  · -- An activation that returns has committed.
    have hanswers := h.done hr
    cases r with
    | activation a =>
        rcases hanswers with ⟨_, ws, _, hws, _⟩
        rw [hnone] at hws
        cases hws
    | enrollmentCode r =>
        rcases hanswers with ⟨_, _, hother, _⟩
        rw [hcall] at hother
        cases hother
    | device r =>
        rcases hanswers with ⟨_, hother, _⟩
        rw [hcall] at hother
        cases hother
    | token r =>
        rcases hanswers with ⟨_, _, _, _, hother, _⟩
        rw [hcall] at hother
        cases hother
    | authorized d =>
        rcases hanswers with ⟨_, _, hother, _⟩
        rw [hcall] at hother
        cases hother
    | done =>
        rcases hanswers with ⟨_, hother, _⟩ | ⟨_, hother⟩
        · rw [hcall] at hother
          cases hother
        · rw [hcall] at hother
          cases hother
  · -- One that throws without a commit had the right code.
    rcases (h.thrown he).counted dto hcall hnone with ⟨e', he', hcode⟩
    rcases found_has_code hcmp h.history he' with ⟨code, salt, hhash⟩
    rw [hhash, hcmp, decide_eq_true_eq] at hcode
    exact hwrong e' he' code ⟨salt, hhash⟩ hcode

/-! ## Counting -/

/-- A row of a used enrollment of the device. -/
def UsedBy (deviceId : Uuid) (row : Option DeviceEnrollment) : Prop :=
  ∃ e, row = some e ∧ e.deviceId = deviceId ∧ e.usedAt ≠ none

/-- A row of a credential of the device. -/
def IssuedTo (deviceId : Uuid) (row : Option DeviceCredential) : Prop :=
  ∃ k, row = some k ∧ k.deviceId = deviceId

/-- A row that is there is of a used enrollment of the device, or not. -/
theorem usedBy_some {deviceId : Uuid} {e : DeviceEnrollment} :
    UsedBy deviceId (some e) ↔ e.deviceId = deviceId ∧ e.usedAt ≠ none := by
  simp only [UsedBy, Option.some.injEq, exists_eq_left']

/-- A row that is there is of a credential of the device, or not. -/
theorem issuedTo_some {deviceId : Uuid} {k : DeviceCredential} :
    IssuedTo deviceId (some k) ↔ k.deviceId = deviceId := by
  simp only [IssuedTo, Option.some.injEq, exists_eq_left']

/-- The three sets whose sizes are compared. -/
structure Counts (fleet : List Device) (l : List Entry) (deviceId : Uuid) : Prop where
  used : {c | Activated l deviceId c}.encard =
    {id | UsedBy deviceId ((replay fleet l).enrollments id)}.encard
  issued : {id | UsedBy deviceId ((replay fleet l).enrollments id)}.encard =
    {id | IssuedTo deviceId ((replay fleet l).credentials id)}.encard

/-- The commit of an activation of the device makes each set larger by one. -/
theorem Counts.activated {ws : Writes} {l : List Entry} {deviceId : Uuid}
    (h : Counts fleet l deviceId) (hopen : (progress c l).committed = none)
    (hcur : Current (replay fleet l) ws) {dto : ActivateDeviceDto} {p : Progress}
    {now : Timestamp} {device : Device} {e : DeviceEnrollment} {k : DeviceCredential}
    (hact : Activates crypto dto p now device e k ws) (hunused : e.usedAt = none)
    (hdevice : device.id = deviceId) : Counts fleet (⟨c, .committed ws⟩ :: l) deviceId := by
  subst hdevice
  -- All three sets grow by one element.
  have hacts : {c' | Activated (⟨c, .committed ws⟩ :: l) device.id c'} =
      insert c {c' | Activated l device.id c'} := by
    ext c'
    refine (committedWith_commit hopen c').trans (or_congr_left (and_iff_left ?_))
    exact ⟨_, hact.issued, rfl, hact.owner⟩
  have hused : {id | UsedBy device.id ((replay fleet (⟨c, .committed ws⟩ :: l)).enrollments id)} =
      insert e.id {id | UsedBy device.id ((replay fleet l).enrollments id)} := by
    ext id
    refine applyWrites_insert (P := UsedBy device.id) hcur.enrollments
      ⟨_, (hact.enrollments _).mpr rfl, rfl⟩
      (fun w hw _ => ?_) (fun w hw hk => ?_) id
    · -- Of the enrollments the commit writes one, which it uses.
      rw [(hact.enrollments w).mp hw]
      exact usedBy_some.mpr ⟨hact.owned, Option.some_ne_none _⟩
    · rw [(hact.enrollments w).mp hw] at hk
      exact absurd rfl hk
  have hissued : {id | IssuedTo device.id ((replay fleet (⟨c, .committed ws⟩ :: l)).credentials id)}
      = insert k.id {id | IssuedTo device.id ((replay fleet l).credentials id)} := by
    ext id
    refine applyWrites_insert (P := IssuedTo device.id) hcur.credentials ⟨_, hact.issued, rfl⟩
      (fun w hw _ => ?_)
      (fun w hw hk => ?_) id
    · -- Of the credentials it writes the new one and the ones it revokes, which keep
      -- their device.
      rcases hact.credentials w hw with rfl | ⟨r, _, hr, rfl⟩
      · exact issuedTo_some.mpr hact.owner
      · exact issuedTo_some.mpr hr
    · rcases hact.credentials w hw with rfl | ⟨r, _, _, rfl⟩
      · exact absurd rfl hk
      · rw [issuedTo_some, issuedTo_some]
        rfl
  -- And none of the three elements was there before.
  have hacts_new : c ∉ {c' | Activated l device.id c'} := by
    rintro ⟨ws', hws', _⟩
    rw [hopen] at hws'
    simp only [reduceCtorEq] at hws'
  have hused_new : e.id ∉ {id | UsedBy device.id ((replay fleet l).enrollments id)} := by
    rw [Set.mem_ofPred_eq, show (replay fleet l).enrollments e.id = some e from
      hcur.enrollments _ ((hact.enrollments _).mpr rfl), usedBy_some]
    exact fun hc => hc.2 hunused
  have hissued_new : k.id ∉ {id | IssuedTo device.id ((replay fleet l).credentials id)} := by
    rintro ⟨k', hk', _⟩
    rw [show (replay fleet l).credentials k.id = none from hcur.credentials _ hact.issued] at hk'
    simp only [reduceCtorEq] at hk'
  refine ⟨?_, ?_⟩
  · rw [hacts, hused, Set.encard_insert_of_notMem hacts_new, Set.encard_insert_of_notMem hused_new,
      h.used]
  · rw [hused, hissued, Set.encard_insert_of_notMem hused_new,
      Set.encard_insert_of_notMem hissued_new, h.issued]

/-- Every other commit leaves them alone. -/
theorem Counts.unchanged {ws : Writes} {l : List Entry} {deviceId : Uuid}
    (h : Counts fleet l deviceId) (hopen : (progress c l).committed = none)
    (hcur : Current (replay fleet l) ws)
    (hnone : ¬ ∃ w ∈ ws.credentials, w.old = none ∧ w.new.deviceId = deviceId)
    (hused : ∀ w ∈ ws.enrollments, UsedBy deviceId w.old ↔ UsedBy deviceId (some w.new))
    (hissued : ∀ w ∈ ws.credentials, IssuedTo deviceId w.old ↔ IssuedTo deviceId (some w.new)) :
    Counts fleet (⟨c, .committed ws⟩ :: l) deviceId := by
  -- None of the three sets changes.
  have hacts : {c' | Activated (⟨c, .committed ws⟩ :: l) deviceId c'} =
      {c' | Activated l deviceId c'} := by
    ext c'
    exact (committedWith_commit hopen c').trans (or_iff_right (fun hc => hnone hc.2))
  have husedset : {id | UsedBy deviceId ((replay fleet (⟨c, .committed ws⟩ :: l)).enrollments id)} =
      {id | UsedBy deviceId ((replay fleet l).enrollments id)} := by
    ext id
    exact applyWrites_same hcur.enrollments hused id
  have hissuedset : {id | IssuedTo deviceId
      ((replay fleet (⟨c, .committed ws⟩ :: l)).credentials id)} =
      {id | IssuedTo deviceId ((replay fleet l).credentials id)} := by
    ext id
    exact applyWrites_same hcur.credentials hissued id
  refine ⟨?_, ?_⟩
  · rw [hacts, husedset, h.used]
  · rw [husedset, hissuedset, h.issued]

/-- A commit that does not use the enrollment keeps it unused, or used. -/
theorem Explains.usedBy_same {call : Call} {p : Progress} {ws : Writes} {deviceId : Uuid}
    (h : Explains crypto call p ws)
    (hother : ∀ dto now device e k, Activates crypto dto p now device e k ws →
      device.id ≠ deviceId) :
    ∀ w ∈ ws.enrollments, UsedBy deviceId w.old ↔ UsedBy deviceId (some w.new) := by
  intro w hw
  cases h.enrollmentChange hw with
  | failed _ _ e _ _ hwrite =>
      rw [hwrite, usedBy_some, usedBy_some]
      rfl
  | given _ _ e _ hiss hwrite =>
      rw [hwrite]
      refine iff_of_false ?_ (fun hc => ?_)
      · rintro ⟨e', he', _⟩
        simp only [reduceCtorEq] at he'
      · exact (usedBy_some.mp hc).2 (isUnsettled_iff.mp hiss.unsettled).1
  | superseded _ _ r _ _ _ hwrite =>
      rw [hwrite, usedBy_some, usedBy_some]
      rfl
  | used dto now device e k _ hact hwrite =>
      have hne := hother dto now device e k hact
      rw [hwrite, usedBy_some, usedBy_some]
      exact iff_of_false (fun hc => hne (hact.owned.symm.trans hc.1))
        (fun hc => hne (hact.owned.symm.trans hc.1))

/-- A commit that does not issue a credential to the device keeps those it
    has. -/
theorem Explains.issuedTo_same {call : Call} {p : Progress} {ws : Writes} {deviceId : Uuid}
    (h : Explains crypto call p ws)
    (hnone : ¬ ∃ w ∈ ws.credentials, w.old = none ∧ w.new.deviceId = deviceId) :
    ∀ w ∈ ws.credentials, IssuedTo deviceId w.old ↔ IssuedTo deviceId (some w.new) := by
  intro w hw
  cases hold : w.old with
  | none =>
      refine iff_of_false ?_ (fun hc => hnone ⟨w, hw, hold, issuedTo_some.mp hc⟩)
      rintro ⟨k, hk, _⟩
      simp only [reduceCtorEq] at hk
  | some k =>
      have hsame : w.new.deviceId = k.deviceId := h.credential_owner hw hold
      rw [issuedTo_some, issuedTo_some, hsame]

/-- The three sets have the same size, at every point of a history. -/
theorem counts {l : List Entry} (h : History crypto calls fleet l) (deviceId : Uuid) :
    Counts fleet l deviceId := by
  refine h.induction (P := fun l => Counts fleet l deviceId) ?_ ?_ ?_
  · -- In the beginning all three are empty.
    have hacts : {c | Activated ([] : List Entry) deviceId c} = ∅ := by
      refine Set.eq_empty_iff_forall_notMem.mpr (fun c hc => ?_)
      rcases hc with ⟨ws, hws, _⟩
      simp only [progress, Progress.start, reduceCtorEq] at hws
    have hused : {id | UsedBy deviceId ((replay fleet []).enrollments id)} = ∅ := by
      refine Set.eq_empty_iff_forall_notMem.mpr (fun id hc => ?_)
      rcases hc with ⟨e, he, _⟩
      simp only [replay, Tables.initial, reduceCtorEq] at he
    have hissued : {id | IssuedTo deviceId ((replay fleet []).credentials id)} = ∅ := by
      refine Set.eq_empty_iff_forall_notMem.mpr (fun id hc => ?_)
      rcases hc with ⟨k, hk, _⟩
      simp only [replay, Tables.initial, reduceCtorEq] at hk
    exact ⟨by rw [hacts, hused], by rw [hused, hissued]⟩
  · intro c ev l _ _ hev ih
    -- An entry that commits nothing leaves the sets as they are.
    have hkeep : Activated (⟨c, ev⟩ :: l) deviceId = Activated l deviceId :=
      committedWith_note hev
    refine ⟨?_, ?_⟩
    · rw [hkeep, replay_of_note hev]
      exact ih.used
    · rw [replay_of_note hev]
      exact ih.issued
  · intro c ws l hh hopen hcur hexp ih
    -- A commit activates the device, or leaves its sets alone.
    by_cases hissues : ∃ w ∈ ws.credentials, w.old = none ∧ w.new.deviceId = deviceId
    · rcases hexp.issues hissues with ⟨dto, now, device, e, k, _, hdevice, hact⟩
      exact ih.activated hopen hcur hact (found_unused hh e hact.found) hdevice
    · refine ih.unchanged hopen hcur hissues (hexp.usedBy_same ?_)
        (hexp.issuedTo_same hissues)
      intro dto now device e k hact hdevice
      exact hissues ⟨_, hact.issued, rfl, hact.owner.trans hdevice⟩

/-! ## The credential in force -/

/-- A credential of the device that is not revoked. -/
def InForce (T : Tables) (deviceId id : Uuid) : Prop :=
  ∃ k, T.credentials id = some k ∧ k.deviceId = deviceId ∧ k.isActive = true

/-- A device that was issued a credential has one in force. -/
theorem inForce_of_issued {l : List Entry} (h : History crypto calls fleet l) {deviceId : Uuid}
    (hissued : ∃ id, IssuedTo deviceId ((replay fleet l).credentials id)) :
    ∃ id, InForce (replay fleet l) deviceId id := by
  refine h.induction (P := fun l => (∃ id, IssuedTo deviceId ((replay fleet l).credentials id)) →
    ∃ id, InForce (replay fleet l) deviceId id) ?_ ?_ ?_ hissued
  · rintro ⟨id, k, hk, _⟩
    simp only [replay, Tables.initial, reduceCtorEq] at hk
  · intro c ev l _ _ hev ih
    rw [replay_of_note hev]
    exact ih
  · intro c ws l hh hopen hcur hexp ih hissued
    by_cases hissues : ∃ w ∈ ws.credentials, w.old = none ∧ w.new.deviceId = deviceId
    · -- The credential that is issued is not revoked by the same commit.
      rcases hexp.issues hissues with ⟨dto, now, device, e, k, _, hdevice, hact⟩
      refine ⟨k.id, k, ?_, hact.owner.trans hdevice, hact.unrevoked⟩
      rcases applyWrites_current hcur.credentials k.id with ⟨hno, _⟩ | ⟨w, hw, _, hold, hnew⟩
      · exact absurd rfl (hno _ hact.issued)
      · rcases hact.credentials w hw with rfl | ⟨r, _, _, rfl⟩
        · exact hnew
        · rw [hcur.credentials _ hact.issued] at hold
          simp only [reduceCtorEq] at hold
    · rcases hissued with ⟨id, hid⟩
      have hbefore : IssuedTo deviceId ((replay fleet l).credentials id) :=
        (applyWrites_same hcur.credentials (hexp.issuedTo_same hissues) id).mp hid
      rcases ih ⟨id, hbefore⟩ with ⟨id', k, hk, hown, hactive⟩
      rcases applyWrites_current hcur.credentials id' with ⟨_, heq⟩ | ⟨w, hw, _, hold, hnew⟩
      · exact ⟨id', k, heq.trans hk, hown, hactive⟩
      · refine ⟨id', w.new, hnew, ?_, ?_⟩
        · rw [← hown]
          exact hexp.credential_owner hw (hold.symm.trans hk)
        · rcases hexp.revokes hw (hold.symm.trans hk) with
            hkeep | ⟨dto, now, device, e, k', hact, hd⟩
          · rw [hkeep]
            exact hactive
          · exact absurd ⟨_, hact.issued, rfl, hact.owner.trans (hd.symm.trans hown)⟩ hissues

/-- Whatever the interleaving of the calls that led to a state:

    * an enrollment is used by one call at most, which then is a successful
      activation, and it is never both used and revoked;
    * its counter is the number of wrong guesses, at most five, and the fifth
      one revoked it;
    * a call that is over and guessed wrong is one of those that are counted;
    * a successful activation went through an enrollment that was pending when
      it was locked, with the right code, and used this one only;
    * an activation that returned was successful, and one that threw was not;
    * there are as many successful activations of a device as used enrollments
      and as credentials;
    * a device has one credential in force if it was issued any, and never
      more than one. -/
theorem enrollment_lifecycle (hcmp : crypto.ComparesExactly) {sys : Calls}
    (h : Reachable crypto calls fleet sys) :
    (∀ id c c', Consumed sys.shared.log id c → Consumed sys.shared.log id c' → c = c') ∧
    (∀ id c, Consumed sys.shared.log id c → ∃ deviceId, Activated sys.shared.log deviceId c) ∧
    (∀ id e, sys.shared.tables.enrollments id = some e →
      (e.usedAt ≠ none ↔ ∃ c, Consumed sys.shared.log id c) ∧
      ¬ (e.usedAt ≠ none ∧ e.revokedAt ≠ none) ∧
      (e.failedAttempts : ℕ∞) = {c | WrongGuess crypto calls sys.shared.log id c}.encard ∧
      e.failedAttempts ≤ 5 ∧ (e.failedAttempts = 5 → e.revokedAt ≠ none)) ∧
    (∀ deviceId c, Activated sys.shared.log deviceId c → ∃ dto now e,
      Through crypto calls sys.shared.log deviceId c dto now e) ∧
    (∀ c a, sys.threads c = .ret (.activation a) → Activated sys.shared.log a.deviceId c) ∧
    (∀ c e, sys.threads c = .throw e → ∀ deviceId, ¬ Activated sys.shared.log deviceId c) ∧
    (∀ id c, ((∃ r, sys.threads c = .ret r) ∨ ∃ e, sys.threads c = .throw e) →
      Guessed crypto (calls c) (progress c sys.shared.log) id →
      WrongGuess crypto calls sys.shared.log id c) ∧
    (∀ deviceId, {c | Activated sys.shared.log deviceId c}.encard =
        {id | UsedBy deviceId (sys.shared.tables.enrollments id)}.encard ∧
      {id | UsedBy deviceId (sys.shared.tables.enrollments id)}.encard =
        {id | IssuedTo deviceId (sys.shared.tables.credentials id)}.encard) ∧
    (∀ deviceId id id', InForce sys.shared.tables deviceId id →
      InForce sys.shared.tables deviceId id' → id = id') ∧
    ∀ deviceId, (∃ id, IssuedTo deviceId (sys.shared.tables.credentials id)) →
      ∃ id, InForce sys.shared.tables deviceId id := by
  have hh := h.history
  rw [h.inv.tables]
  refine ⟨fun id => (enrollment_ok hcmp hh id).once, fun id c hc => ?_, fun id e he => ?_,
    fun deviceId c hc => activated_through hcmp hh hc, fun c a hc => ?_, fun c e hc => ?_,
    fun id c hover hguess => counted_when_over hcmp h hover hguess,
    fun deviceId => ⟨(counts hh deviceId).used, (counts hh deviceId).issued⟩,
    fun deviceId id id' hid hid' => ?_, fun deviceId => inForce_of_issued hh⟩
  -- The use of an enrollment goes with a credential for its device.
  · exact consumed_activated hh hc
  · have hrow := (enrollment_ok hcmp hh id).row e he
    refine ⟨hrow.used, fun hboth => ?_, hrow.counted, hrow.attempts, hrow.exhausted⟩
    rcases hrow.exclusive with hu | hr
    · exact hboth.1 hu
    · exact hboth.2 hr
  · rcases h.done hc with ⟨dto, ws, _, hws, ⟨k, hk, hd, _⟩, _⟩
    exact ⟨ws, hws, _, hk, rfl, hd⟩
  · rintro deviceId ⟨ws, hws, w, hw, _⟩
    -- A call that has thrown has committed no credential.
    rw [(h.thrown hc).credentials ws hws] at hw
    exact absurd hw List.not_mem_nil
  · rcases hid with ⟨k, hk, hown, hactive⟩
    rcases hid' with ⟨k', hk', hown', hactive'⟩
    rw [← h.inv.tables] at hk hk'
    -- The unique index admits one active credential for each device.
    refine h.inv.distinct.committed (List.mem_singleton.mpr rfl) hk hk' (x := deviceId) ?_ ?_
    · simp only [hactive, if_true, hown]
    · simp only [hactive', if_true, hown']

/-- A tablet that gets its code wrong once. -/
def secondAttempt : CallId → Call
  | 0 => .createEnrollmentCode 7
  | 1 => activation "000000"
  | _ => activation "000123"

/-- The wrong guess is counted, and the tablet has one credential in force. -/
theorem enrollment_lifecycle_secondAttempt : ∃ sys,
    Reachable plainCrypto secondAttempt [tablet] sys ∧
    (1 : ℕ∞) = {c | WrongGuess plainCrypto secondAttempt sys.shared.log 50 c}.encard ∧
    ∃ id, InForce sys.shared.tables 7 id := by
  have hrun : ((follow (exec plainCrypto) (boot plainCrypto secondAttempt [tablet])
      (turns 0 13 123 50 ++ turns 1 15 0 0 ++ turns 2 19 0 100)).any (fun sys =>
        (sys.shared.tables.enrollments 50).any (fun e => decide (e.failedAttempts = 1)) &&
        (sys.shared.tables.credentials 100).any (fun k => decide (k.deviceId = 7)))) = true := by
    decide +kernel
  rcases reachable_of_follow hrun with ⟨sys, hsys, hp⟩
  rw [Bool.and_eq_true, Option.any_eq_true, Option.any_eq_true] at hp
  rcases hp with ⟨⟨e, he, hattempts⟩, k, hk, hown⟩
  rw [decide_eq_true_eq] at hattempts hown
  rcases enrollment_lifecycle plainCrypto_comparesExactly hsys with
    ⟨_, _, hrows, _, _, _, _, _, _, hforce⟩
  have hcount := (hrows 50 e he).2.2.1
  rw [hattempts] at hcount
  exact ⟨sys, hsys, hcount, hforce 7 ⟨100, k, hk, hown⟩⟩

end RemoteControl.Devices
