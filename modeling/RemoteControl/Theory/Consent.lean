import RemoteControl.Theory.Linearizability

/-!
# Consent

Whom the device has answered. When a request becomes accepted or rejected,
the answer was meant for the technician assigned to it if the call began
after the assignment had been committed: the device could have seen who it
was then.

The answers take their time and read the row before they update it, but what
they read decides only about the owner. An assignment that commits between
the beginning of an answer and its update is therefore answered by a call
that cannot have known of it, with a time that may be earlier than that of
the assignment. `consent_after_assignment` says that this is the only way:
consent is given to a technician already assigned, and the times of every
row are in order, exactly in the runs where no assignment of a request
commits during a call that answers it.

The moment at which a device knows of an assignment is taken to be its commit.
So consent is a relation between the history at the beginning of the answer
and the technician that the answer is stored with. A request is assigned at
most once (`assigned_once`), and for that reason the technician that is stored
when the answer commits was assigned either before the call began or during it
(`assignedIn_or_since`).

For the times the same split is used: an assignment before the beginning of
the call has an earlier time than what the call reads off the clock, and one
that falls into the call is the exception that is named.

## Main definitions

* `SupportRequest.Chronological`: The times of a request are in order.
* `AssignedIn`, `AssignedSince`: The assignment in a history.
* `ConsentGiven`: Every answer follows the assignment it answers.
* `Undisturbed`: No assignment falls into a call that answers it.
* `tooEarly`: A run in which a request is accepted before anyone has taken it.

## Theorems

* `assignedIn_of_technician`: A stored technician was assigned.
* `assigned_once`: A request is assigned once.
* `chronological_past`: The times of the rows of an undisturbed run.
* `consent_after_assignment`: The characterization.
* `Explains.technician`, `Explains.assigns`, `Explains.answers`: What commits
  do to the technician of a request.
* `Explains.chronological`: A commit keeps the times in order.
* `assignedIn_or_since`: When the technician of an answer was assigned.
* `consent_of_undisturbed`: One direction, for the consent.
-/

namespace RemoteControl

open Concurrency Machine

variable {calls : CallId → Operation} {throws : CallId → Emitter → Bool}

/-- The times of a request that are there are in order. -/
def SupportRequest.Chronological (r : SupportRequest) : Prop :=
  (∀ a b, r.assignedAt = some a → r.respondedAt = some b → a ≤ b) ∧
  (∀ b d, r.respondedAt = some b → r.closedAt = some d → b ≤ d) ∧
  (∀ a d, r.assignedAt = some a → r.closedAt = some d → a ≤ d)

section Definitions

variable (calls : CallId → Operation)

/-- An assignment of the request to the technician has committed. -/
def AssignedIn (k technicianId : Uuid) (l : List Entry) : Prop :=
  ∃ e l' technician ws, e :: l' <:+ l ∧ e.event = .committed ws ∧
    calls e.call = .assign k technician ∧ technician.id = technicianId

/-- An assignment of the request has committed in `l`, after `before`. -/
def AssignedSince (k : Uuid) (before l : List Entry) : Prop :=
  ∃ e l' technician ws, e :: l' <:+ l ∧ before <:+ l' ∧ e.event = .committed ws ∧
    calls e.call = .assign k technician

/-- Every call that took a request to accepted or rejected began after the
    assignment of the technician it is stored with had committed. -/
def ConsentGiven (log : List Entry) : Prop :=
  ∀ e l ws, e :: l <:+ log → e.event = .committed ws → ∀ w ∈ ws.requests,
    w.new.status = .accepted ∨ w.new.status = .rejected →
      ∃ before technicianId, (progress e.call l).entered = some before ∧
        w.new.technicianId = some technicianId ∧ AssignedIn calls w.key technicianId before

/-- No request is assigned between the beginning of a call that answers it
    and the update with which the call does. -/
def Undisturbed (log : List Entry) : Prop :=
  ∀ e l ws k device before, e :: l <:+ log → e.event = .committed ws →
    calls e.call = .acceptByDevice k device ∨ calls e.call = .rejectByDevice k device →
    (progress e.call l).entered = some before → ¬ AssignedSince calls k before l

end Definitions

/-! ## One commit -/

section Commits

variable {T : Tables} {t : Timestamp} {op : Operation} {ws : Writes}

/-- A commit leaves the technician of a request alone, or assigns one. -/
theorem Explains.technician (h : Explains T t op ws) {w : Write Uuid SupportRequest}
    (hw : w ∈ ws.requests) {technicianId : Uuid} (ht : w.new.technicianId = some technicianId) :
    (∃ technician, op = .assign w.key technician ∧ technician.id = technicianId) ∨
      ∃ r, T.requests w.key = some r ∧ r.technicianId = some technicianId := by
  cases h.requestChange hw with
  | created device createdAt hop hr hnew =>
      rw [hnew] at ht
      simp only [newRequest, reduceCtorEq] at ht
  | assigned technician r hop hr hs hnew =>
      rw [hnew] at ht
      exact .inl ⟨technician, hop, Option.some.inj ht⟩
  -- Only an assignment writes the technician; the other changes keep what they find.
  | accepted device r hop hr hs hnew =>
      rw [hnew] at ht
      exact .inr ⟨r, hr, ht⟩
  | rejected device r hop hr hs hnew =>
      rw [hnew] at ht
      exact .inr ⟨r, hr, ht⟩
  | cancelled r hr hs htime hnew =>
      rw [hnew] at ht
      exact .inr ⟨r, hr, ht⟩
  | completed r hr hs htime hnew =>
      rw [hnew] at ht
      exact .inr ⟨r, hr, ht⟩

/-- An assignment finds the request waiting, and leaves it with a technician. -/
theorem Explains.assigns {k : Uuid} {technician : User}
    (h : Explains T t (.assign k technician) ws) :
    (∃ r, T.requests k = some r ∧ r.status = .waiting) ∧
      ∃ r, (T.apply ws).requests k = some r ∧ r.technicianId = some technician.id := by
  cases h with
  | assigned id technician r hr hs =>
      refine ⟨⟨r, hr, hs⟩, (assignment technician.id t).apply r, ?_, rfl⟩
      rw [apply_requestWrites, if_pos rfl]

/-- Only an answer of the device takes a request to accepted or rejected, and it
    finds the request assigned. The other ways to write a request leave it with
    another status. -/
theorem Explains.answers (h : Explains T t op ws) {w : Write Uuid SupportRequest}
    (hw : w ∈ ws.requests) (hst : w.new.status = .accepted ∨ w.new.status = .rejected) :
    (∃ device, op = .acceptByDevice w.key device ∨ op = .rejectByDevice w.key device) ∧
      ∃ r, T.requests w.key = some r ∧ r.status = .assigned ∧
        w.new.technicianId = r.technicianId := by
  cases h.requestChange hw with
  | accepted device r hop hr hs hnew => exact ⟨⟨device, .inl hop⟩, r, hr, hs, by rw [hnew]; rfl⟩
  | rejected device r hop hr hs hnew => exact ⟨⟨device, .inr hop⟩, r, hr, hs, by rw [hnew]; rfl⟩
  | created device createdAt hop hr hnew =>
      rw [hnew] at hst
      simp only [newRequest, reduceCtorEq, or_self] at hst
  | assigned technician r hop hr hs hnew =>
      rw [hnew] at hst
      simp only [SupportRequestTransition.apply, assignment, reduceCtorEq, or_self] at hst
  | cancelled r hr hs htime hnew =>
      rw [hnew] at hst
      simp only [SupportRequestTransition.apply, cancellation, reduceCtorEq, or_self] at hst
  | completed r hr hs htime hnew =>
      rw [hnew] at hst
      simp only [SupportRequestTransition.apply, completion, reduceCtorEq, or_self] at hst

/-- The commit of an answer takes its request to accepted or rejected. -/
theorem Explains.answered (h : Explains T t op ws) {k : Uuid} {device : Device}
    (hop : op = .acceptByDevice k device ∨ op = .rejectByDevice k device) :
    ∃ w ∈ ws.requests, w.key = k ∧ (w.new.status = .accepted ∨ w.new.status = .rejected) := by
  rcases hop with rfl | rfl
  · cases h with
    | accepted id device r hr hd hs => exact ⟨_, List.mem_singleton.mpr rfl, rfl, .inl rfl⟩
  · cases h with
    | rejected id device r hr hd hs => exact ⟨_, List.mem_singleton.mpr rfl, rfl, .inr rfl⟩

/-- A request with a technician has the time of its assignment. Every status with
    a technician calls for that time. -/
theorem Consistent.assignedAt (hc : Consistent T) {k technicianId : Uuid} {r : SupportRequest}
    (hr : T.requests k = some r) (ht : r.technicianId = some technicianId) :
    ∃ a, r.assignedAt = some a := by
  have hwf := hc.requestWellFormed k r hr
  rw [SupportRequest.WellFormed, ht] at hwf
  rw [← Option.isSome_iff_exists]
  cases hs : r.status <;> rw [hs] at hwf
  · simp only [reduceCtorEq, false_and] at hwf
  · exact hwf.2.1
  · exact hwf.2.1
  · exact hwf.2.1
  · exact hwf.2.1.mp rfl
  · exact hwf.2.1

/-- The times of a row are in order when it is closed at a time that is not
    before the others. -/
theorem chronological_closed {r r' : SupportRequest} (h : r.Chronological) (hs : r.StampedBy t)
    (ha : r'.assignedAt = r.assignedAt) (hr : r'.respondedAt = r.respondedAt)
    (hc : r'.closedAt = some t) : r'.Chronological := by
  unfold SupportRequest.Chronological
  rw [ha, hr, hc]
  refine ⟨h.1, fun b d hb hd => ?_, fun a d ha' hd => ?_⟩
  · rw [← Option.some.inj hd]
    exact hs.2 b hb
  · rw [← Option.some.inj hd]
    exact hs.1 a ha'

/-- The times of a written row are in order if those of the row before were,
    and an answer is not earlier than the assignment it finds. -/
theorem Explains.chronological (h : Explains T t op ws) (hc : Consistent T)
    (hold : ∀ k r, T.requests k = some r → r.Chronological)
    (hanswer : ∀ k r device, op = .acceptByDevice k device ∨ op = .rejectByDevice k device →
      T.requests k = some r → r.status = .assigned → ∀ a, r.assignedAt = some a → a ≤ t)
    {w : Write Uuid SupportRequest} (hw : w ∈ ws.requests) : w.new.Chronological := by
  cases h.requestChange hw with
  | created device createdAt hop hr hnew =>
      rw [hnew]
      simp only [SupportRequest.Chronological, newRequest, reduceCtorEq, false_implies,
        implies_true, and_self]
  | assigned technician r hop hr hs hnew =>
      -- A request that waits has neither been answered nor closed.
      have hwf := hc.requestWellFormed _ r hr
      rw [SupportRequest.WellFormed, hs] at hwf
      rw [hnew]
      simp only [SupportRequest.Chronological, SupportRequestTransition.apply, assignment,
        Option.none_or, hwf.2.2.1, hwf.2.2.2, reduceCtorEq, false_implies, implies_true, and_self]
  | accepted device r hop hr hs hnew =>
      have hwf := hc.requestWellFormed _ r hr
      rw [SupportRequest.WellFormed, hs] at hwf
      have hafter := hanswer _ r device (.inl hop) hr hs
      rw [hnew]
      refine ⟨fun a b ha hb => ?_, fun b d _ hd => ?_, fun a d _ hd => ?_⟩
      -- The answer is stamped with the time of the call, which is not before the
      -- assignment.
      · rw [← Option.some.inj hb]
        exact hafter a ha
      -- A request that was assigned is not closed yet.
      · have hnone : (none : Option Timestamp) = some d := hwf.2.2.2 ▸ hd
        simp only [reduceCtorEq] at hnone
      · have hnone : (none : Option Timestamp) = some d := hwf.2.2.2 ▸ hd
        simp only [reduceCtorEq] at hnone
  | rejected device r hop hr hs hnew =>
      have hafter := hanswer _ r device (.inr hop) hr hs
      rw [hnew]
      refine ⟨fun a b ha hb => ?_, fun b d hb hd => ?_, fun a d ha hd => ?_⟩
      · rw [← Option.some.inj hb]
        exact hafter a ha
      · -- A rejection closes the request at the time it stores for the answer.
        exact Nat.le_of_eq ((Option.some.inj hb).symm.trans (Option.some.inj hd))
      · rw [← Option.some.inj hd]
        exact hafter a ha
  | cancelled r hr hs htime hnew =>
      rw [hnew]
      exact chronological_closed (hold _ r hr) htime rfl rfl rfl
  | completed r hr hs htime hnew =>
      rw [hnew]
      exact chronological_closed (hold _ r hr) htime rfl rfl rfl

end Commits

/-! ## The past of a run -/

section Past

variable {w : World}

/-- A stored technician was assigned by a call in the history. -/
theorem assignedIn_of_technician (hi : Inv calls throws w) {l : List Entry} (hl : l <:+ w.log)
    {k technicianId : Uuid} {r : SupportRequest} (hr : (replay l).requests k = some r)
    (ht : r.technicianId = some technicianId) : AssignedIn calls k technicianId l := by
  have hlater : ∀ {e : Entry} {l : List Entry}, AssignedIn calls k technicianId l →
      AssignedIn calls k technicianId (e :: l) := by
    rintro e l ⟨e', l', technician, ws, hs, he⟩
    exact ⟨e', l', technician, ws, hs.trans (List.suffix_cons e l), he⟩
  refine hi.past_induction (P := fun l => ∀ r, (replay l).requests k = some r →
    r.technicianId = some technicianId → AssignedIn calls k technicianId l) (fun r hr => ?_)
    (fun e l _ hsame ih r hr ht => ?_) (fun e l ws t _ he hafter _ hx ih r hr ht => ?_) hl r hr ht
  · simp only [replay, Tables.empty, reduceCtorEq] at hr
  · rw [hsame] at hr
    exact hlater (ih r hr ht)
  · rw [hafter, apply_requests] at hr
    rcases applyWrites_cases ws.requests (replay l).requests k with heq | ⟨w', hw', hk, heq⟩
    · rw [heq] at hr
      exact hlater (ih r hr ht)
    · rw [heq, Option.some.injEq] at hr
      subst hr hk
      -- Either this commit assigned the technician, or the row had it before.
      rcases hx.technician hw' ht with ⟨technician, hop, hid⟩ | ⟨r', hr', ht'⟩
      · exact ⟨e, l, technician, ws, List.suffix_rfl, he, hop, hid⟩
      · exact hlater (ih r' hr' ht')

/-- Once assigned, a request has a technician. It is the one it was assigned to,
    as the column does not change. -/
theorem technician_of_assignedIn (hi : Inv calls throws w) {l : List Entry} (hl : l <:+ w.log)
    {k technicianId : Uuid} (h : AssignedIn calls k technicianId l) :
    ∃ r, (replay l).requests k = some r ∧ r.technicianId = some technicianId := by
  rcases h with ⟨e, l', technician, ws, hs, he, hop, hid⟩
  rcases hi.explained (hs.trans hl) he with ⟨_, t, hx⟩
  rw [hop] at hx
  rcases hx.assigns.2 with ⟨r, hr, ht⟩
  have hgrows := hi.grows_between hs hl
  simp only [replay, he] at hgrows
  rcases hgrows.requests k r hr with ⟨r', hr', hkeep⟩
  exact ⟨r', hr', by rw [← hid]; exact hkeep.technicianId _ ht⟩

/-- A request is assigned once: an assignment finds it without a technician. -/
theorem assigned_once (hi : Inv calls throws w) {before l : List Entry} (hl : l <:+ w.log)
    {k technicianId : Uuid} (h : AssignedIn calls k technicianId before) :
    ¬ AssignedSince calls k before l := by
  rintro ⟨e, l', technician, ws, hs, hbefore, he, hop⟩
  have hl' := (List.suffix_cons e l').trans (hs.trans hl)
  rcases hi.explained (hs.trans hl) he with ⟨hcons, t, hx⟩
  rw [hop] at hx
  rcases hx.assigns.1 with ⟨r, hr, hst⟩
  rcases technician_of_assignedIn hi (hbefore.trans hl') h with ⟨r₀, hr₀, ht⟩
  rcases (hi.grows_between hbefore hl').requests k r₀ hr₀ with ⟨r', hr', hkeep⟩
  rw [hr, Option.some.injEq] at hr'
  subst hr'
  -- The later assignment found the request waiting, which has no technician.
  have hwf := hcons.requestWellFormed k r hr
  rw [SupportRequest.WellFormed, hst] at hwf
  have htech := hkeep.technicianId _ ht
  rw [hwf.1] at htech
  simp only [reduceCtorEq] at htech

/-- A technician that is stored when a call answers was assigned before the
    call began, or since. -/
theorem assignedIn_or_since {l before : List Entry} {k technicianId : Uuid}
    (h : AssignedIn calls k technicianId l) (hbefore : before <:+ l) :
    AssignedIn calls k technicianId before ∨ AssignedSince calls k before l := by
  rcases h with ⟨e, l', technician, ws, hs, he, hop, hid⟩
  rcases List.suffix_or_suffix_of_suffix hs hbefore with hin | hsince
  · exact .inl ⟨e, l', technician, ws, hin, he, hop, hid⟩
  · rw [List.suffix_cons_iff] at hsince
    rcases hsince with rfl | hsince
    · exact .inl ⟨e, l', technician, ws, List.suffix_rfl, he, hop, hid⟩
    · exact .inr ⟨e, l', technician, ws, hs, hsince, he, hop⟩

/-- The stamps of the rows of a moment are not later than that moment. -/
theorem stamped_past (hi : Inv calls throws w) {l : List Entry} (hl : l <:+ w.log)
    {now : Timestamp} (hnow : ∀ e ∈ l, e.time ≤ now) :
    ∀ k r, (replay l).requests k = some r → r.StampedBy now := by
  refine hi.past_induction (P := fun l => (∀ e ∈ l, e.time ≤ now) →
    ∀ k r, (replay l).requests k = some r → r.StampedBy now) (fun _ k r hr => ?_)
    (fun e l _ hsame ih hnow => ?_) (fun e l ws _ hl he hafter _ _ ih hnow => ?_) hl hnow
  · simp only [replay, Tables.empty, reduceCtorEq] at hr
  · rw [hsame]
    exact ih (fun e' he' => hnow e' (List.mem_cons_of_mem e he'))
  · -- The call has read its time off the clock before this entry.
    rcases hi.commit hl he with ⟨_, _, _, _, _, t, _, _, ht, hx⟩
    rw [hafter]
    exact hx.stamped (ih (fun e' he' => hnow e' (List.mem_cons_of_mem e he')))
      (Nat.le_trans ht (hnow e List.mem_cons_self))

/-- Every time an answer stores is that of a technician assigned before the
    call began, unless an assignment fell into the call. -/
theorem consent_of_undisturbed (hi : Inv calls throws w) (hu : Undisturbed calls w.log) :
    ConsentGiven calls w.log := by
  intro e l ws hs he w' hw' hst
  have hl := (List.suffix_cons e l).trans hs
  rcases hi.commit hs he with ⟨hcons, _, _, _, before, t, hb, _, _, hx⟩
  rcases hx.answers hw' hst with ⟨⟨device, hop⟩, r, hr, hassigned, htech⟩
  -- An assigned request has a technician, and somebody has assigned it.
  have hwf := hcons.requestWellFormed _ r hr
  rw [SupportRequest.WellFormed, hassigned] at hwf
  rcases Option.isSome_iff_exists.mp hwf.1 with ⟨technicianId, ht⟩
  refine ⟨before, technicianId, hb, by rw [htech, ht], ?_⟩
  rcases entered_suffix hb with ⟨l₂, hl₂⟩
  rcases assignedIn_or_since (assignedIn_of_technician hi hl hr ht) ⟨l₂, hl₂.symm⟩ with hin | hsince
  · exact hin
  · exact absurd hsince (hu e l ws w'.key device before hs he hop hb)

/-- The times of the rows of an undisturbed run are in order, at every moment. -/
theorem chronological_past (hi : Inv calls throws w) (hu : Undisturbed calls w.log)
    {l : List Entry} (hl : l <:+ w.log) :
    ∀ k r, (replay l).requests k = some r → r.Chronological := by
  refine hi.past_induction
    (P := fun l => ∀ k r, (replay l).requests k = some r → r.Chronological) (fun k r hr => ?_)
    (fun e l _ hsame ih => ?_) (fun e l ws _ hl he hafter hcons _ ih k r hr => ?_) hl
  · simp only [replay, Tables.empty, reduceCtorEq] at hr
  · rw [hsame]
    exact ih
  have hl' := (List.suffix_cons e l).trans hl
  rcases hi.commit hl he with ⟨_, _, _, _, before, t, hb, htimes, _, hx⟩
  rcases entered_suffix hb with ⟨l₂, hl₂⟩
  have hbefore : before <:+ l := ⟨l₂, hl₂.symm⟩
  rw [hafter, apply_requests] at hr
  rcases applyWrites_cases ws.requests (replay l).requests k with heq | ⟨w', hw', hk, heq⟩
  · rw [heq] at hr
    exact ih k r hr
  rw [heq, Option.some.injEq] at hr
  subst hr
  refine hx.chronological hcons ih (fun k r device hop hr hs a ha => ?_) hw'
  -- The request had its technician, and with it this time, before the call began.
  have hwf := hcons.requestWellFormed k r hr
  rw [SupportRequest.WellFormed, hs] at hwf
  rcases Option.isSome_iff_exists.mp hwf.1 with ⟨technicianId, ht⟩
  rcases assignedIn_or_since (assignedIn_of_technician hi hl' hr ht) hbefore with hin | hsince
  · rcases technician_of_assignedIn hi (hbefore.trans hl') hin with ⟨r₀, hr₀, ht₀⟩
    rcases (hi.grows_between hbefore hl').requests k r₀ hr₀ with ⟨r', hr', hkeep⟩
    rw [hr, Option.some.injEq] at hr'
    subst hr'
    have hcons₀ := hi.past before (hbefore.trans hl')
    rcases hcons₀.assignedAt hr₀ ht₀ with ⟨a₀, ha₀⟩
    have hsame := hkeep.assignedAt a₀ ha₀
    rw [ha, Option.some.injEq] at hsame
    rw [hsame]
    exact (stamped_past hi (hbefore.trans hl') htimes k r₀ hr₀).1 a₀ ha₀
  · exact absurd hsince (hu e l ws k device before hl he hop hb)

end Past

/-- Consent is given to a technician already assigned, and the times of every
    request are in order, in exactly the runs in which no assignment commits
    between the beginning of a call that answers the request and its update. -/
theorem consent_after_assignment {sys : Calls} (h : Reachable calls throws sys) :
    (ConsentGiven calls sys.shared.log ∧
      ∀ k r, sys.shared.tables.requests k = some r → r.Chronological) ↔
    Undisturbed calls sys.shared.log := by
  have hi := h.inv
  constructor
  · rintro ⟨hgiven, _⟩ e l ws k device before hs he hop hb
    rcases hi.explained hs he with ⟨_, t, hx⟩
    rcases hx.answered hop with ⟨w, hw, hk, hst⟩
    rcases hgiven e l ws hs he w hw hst with ⟨before', technicianId, hb', _, hin⟩
    rw [hb, Option.some.injEq] at hb'
    subst hb' hk
    -- Assigned before the call began, the request is not assigned again.
    exact assigned_once hi ((List.suffix_cons e l).trans hs) hin
  · intro hu
    refine ⟨consent_of_undisturbed hi hu, ?_⟩
    rw [hi.tables]
    exact chronological_past hi hu List.suffix_rfl

/-- The tablet accepts before anyone has taken its request; the assignment
    comes between the beginning of the call and its update. -/
def tooEarly : List (CallId × Env) := turns 0 3 10 ++ turns 2 3 0 ++ turns 1 7 0 ++ turns 2 4 0

/-- The row is accepted, and its times are out of order. -/
theorem tooEarly_reachable : ∃ sys, Reachable assistance quiet sys ∧
    ∃ r, sys.shared.tables.requests 10 = some r ∧ r.status = .accepted ∧ ¬ r.Chronological := by
  have hrun : ((follow (exec quiet) (boot assistance (fun _ => tablet) (fun _ => agent) 0)
      tooEarly).any (fun sys => (sys.shared.tables.requests 10).any (fun r =>
        decide (r.status = .accepted ∧ r.assignedAt = some 2 ∧ r.respondedAt = some 1)))) =
      true := by
    decide +kernel
  rcases reachable_of_follow hrun with ⟨sys, hsys, hp⟩
  rw [Option.any_eq_true] at hp
  rcases hp with ⟨r, hr, hst⟩
  rcases of_decide_eq_true hst with ⟨hacc, ha, hb⟩
  refine ⟨sys, hsys, r, hr, hacc, fun hc => ?_⟩
  -- It is answered at 1 and assigned at 2.
  have hle : (2 : Nat) ≤ 1 := hc.1 2 1 ha hb
  omega

/-- The tablet has accepted a technician it could not have seen. -/
theorem consent_after_assignment_early : ¬ ∀ (calls : CallId → Operation)
    (throws : CallId → Emitter → Bool) (sys : Calls), Reachable calls throws sys →
    ConsentGiven calls sys.shared.log ∧
      ∀ k r, sys.shared.tables.requests k = some r → r.Chronological := by
  intro hall
  rcases tooEarly_reachable with ⟨sys, hsys, r, hr, _, hnot⟩
  exact hnot ((hall assistance quiet sys hsys).2 10 r hr)

/-- That run is not undisturbed. -/
theorem consent_after_assignment_disturbed : ∃ sys, Reachable assistance quiet sys ∧
    ¬ Undisturbed assistance sys.shared.log := by
  rcases tooEarly_reachable with ⟨sys, hsys, r, hr, _, hnot⟩
  exact ⟨sys, hsys, fun hu => hnot (((consent_after_assignment hsys).mpr hu).2 10 r hr)⟩

end RemoteControl
