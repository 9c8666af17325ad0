import RemoteControl.Concurrency.Linearize
import RemoteControl.Theory.Monotone

/-!
# Linearizability

Every run of the nine calls is explained by a sequential one on the abstract
machine. A call that commits happens at its commit. A call that fails happens
at the moment it saw at which the machine refuses it, which is somewhere
between its beginning and its end and usually not where it gave up: a closure
that finds its session closed gave up at the update, but what it saw may have
been decided when it first read the row.

Both moments are entries of the call's own in the history, so the order of
the history puts a call that has returned before one that begins later, and
the committed rows of that moment are what the machine's step looks at.

What a call was told, what it has committed and that it has left are kept from
then on, as every step adds an entry. With this the order is read off the
history: at each entry at most one call happens (`picked`), at its commit or
at the moment chosen for its failure. That a call happens once follows as it
commits once, and not if it has failed.

The order agrees with real time since both the moment of a call and the marks
of its beginning and its end are entries. A call that had returned when
another began has left before, and no entry of its own comes after that.

## Main definitions

* `Precedes`: A call had returned when another began.
* `performs`: A call's step of the machine, with its outcome.

## Theorems

* `entered_kept`, `committed_kept`, `left_kept`: Progress is kept.
* `precedes_of_run`: A call that is over before another begins precedes it.
* `lifecycle_linearizable`: The sequential explanation of a run.
* `picked_cases`: What happens at an entry.
* `Reachable.failures`: The moments of the failures.
* `sequential_picked`, `pairwise_picked`: The order is a run of the machine,
  and agrees with real time.
-/

namespace RemoteControl

open Concurrency Machine

variable {calls : CallId → Operation} {throws : CallId → Emitter → Bool} {c : CallId}

/-! ## Progress is kept -/

/-- What a call was told about the device is kept. -/
theorem asked_kept_append {l₁ l : List Entry} {b : Bool}
    (h : (progress c l).asked = some b) : (progress c (l₁ ++ l)).asked = some b := by
  induction l₁ with
  | nil => exact h
  | cons e l₁ ih => exact asked_kept ih

/-- A call that has left has left for good. -/
theorem left_kept {l₁ l : List Entry} (h : (progress c l).left = true) :
    (progress c (l₁ ++ l)).left = true := by
  induction l₁ with
  | nil => exact h
  | cons e l₁ ih =>
      rw [List.cons_append]
      by_cases he : e.call = c
      · rw [progress_own he]
        cases hev : e.event with
        | ran o => cases o <;> exact ih
        | left => rfl
        | _ => exact ih
      · rw [progress_other he]
        exact ih

/-- The history before its beginning is kept. -/
theorem entered_kept {l₁ l before : List Entry} (hh : History calls throws (l₁ ++ l))
    (h : (progress c l).entered = some before) :
    (progress c (l₁ ++ l)).entered = some before := by
  induction l₁ with
  | nil => exact h
  | cons e l₁ ih =>
      rw [List.cons_append] at hh ⊢
      have ih' := ih hh.2
      by_cases he : e.call = c
      · rw [progress_own he]
        have hok := hh.1.event
        cases hev : e.event with
        | entered =>
            -- A call enters only once.
            simp only [hev, he] at hok
            rw [hok] at ih'
            simp only [Progress.start, reduceCtorEq] at ih'
        | ran o => cases o <;> exact ih'
        | _ => exact ih'
      · rw [progress_other he]
        exact ih'

/-- What it has committed is kept. -/
theorem committed_kept {l₁ l : List Entry} {ws : Writes} (hh : History calls throws (l₁ ++ l))
    (h : (progress c l).committed = some ws) : (progress c (l₁ ++ l)).committed = some ws := by
  induction l₁ with
  | nil => exact h
  | cons e l₁ ih =>
      rw [List.cons_append] at hh ⊢
      have ih' := ih hh.2
      by_cases he : e.call = c
      · rw [progress_own he]
        have hok := hh.1.event
        cases hev : e.event with
        | committed ws' =>
            -- A call commits only once.
            simp only [hev, he] at hok
            have hnone := hok.1
            rw [ih'] at hnone
            simp only [reduceCtorEq] at hnone
        | ran o => cases o <;> exact ih'
        | _ => exact ih'
      · rw [progress_other he]
        exact ih'

/-- What a call committed is an entry of the history. -/
theorem committed_entry {l : List Entry} {ws : Writes}
    (h : (progress c l).committed = some ws) :
    ∃ e l', e :: l' <:+ l ∧ e.call = c ∧ e.event = .committed ws := by
  induction l with
  | nil => simp only [progress, Progress.start, reduceCtorEq] at h
  | cons a l ih =>
      -- If it had committed before this entry, the commit is further down.
      have hrest : (progress c l).committed = some ws →
          ∃ e l', e :: l' <:+ a :: l ∧ e.call = c ∧ e.event = .committed ws := by
        intro hl
        rcases ih hl with ⟨e, l', hsuffix, he⟩
        exact ⟨e, l', hsuffix.trans (List.suffix_cons a l), he⟩
      by_cases ha : a.call = c
      · rw [progress_own ha] at h
        cases hev : a.event with
        | committed ws' =>
            rw [hev] at h
            simp only [Progress.add, Option.some.injEq] at h
            exact ⟨a, l, List.suffix_rfl, ha, by rw [hev, h]⟩
        | ran o =>
            rw [hev] at h
            cases o <;> exact hrest h
        | entered =>
            rw [hev] at h
            exact hrest h
        | asked b =>
            rw [hev] at h
            exact hrest h
        | emitted em threw =>
            rw [hev] at h
            exact hrest h
        | left =>
            rw [hev] at h
            exact hrest h
      · rw [progress_other ha] at h
        exact hrest h

/-- What came before is a history, too. -/
theorem History.suffix {l l' : List Entry} (h : History calls throws l) (hs : l' <:+ l) :
    History calls throws l' := by
  rcases hs with ⟨t, rfl⟩
  induction t with
  | nil => exact h
  | cons e t ih => exact ih h.2

/-- A call with an entry in the history has entered. -/
theorem entered_of_entry {e : Entry} {l : List Entry} (hh : History calls throws (e :: l)) :
    ∃ before, (progress e.call (e :: l)).entered = some before ∧ before <:+ l := by
  -- The history at its beginning is a part of the present one.
  have hbefore : ∀ before, (progress e.call l).entered = some before → before <:+ l := by
    intro before hb
    rcases entered_suffix hb with ⟨l₁, hl⟩
    exact ⟨l₁, hl.symm⟩
  have hsome : (progress e.call l).entered.isSome → ∃ before,
      (progress e.call l).entered = some before ∧ before <:+ l := by
    intro h
    rcases Option.isSome_iff_exists.mp h with ⟨before, hb⟩
    exact ⟨before, hb, hbefore before hb⟩
  rw [progress_own rfl]
  have hev := hh.1.event
  cases he : e.event with
  | entered => exact ⟨l, rfl, List.suffix_rfl⟩
  | ran o =>
      simp only [he] at hev
      cases o <;> exact hsome hev
  | asked b =>
      simp only [he] at hev
      exact hsome hev
  | committed ws =>
      simp only [he] at hev
      rcases hev with ⟨_, _, _, before, _, hb, _⟩
      exact ⟨before, hb, hbefore before hb⟩
  | emitted em threw =>
      -- An emission follows the commit, and the call had entered by then.
      simp only [he] at hev
      -- It had entered when it committed, and that is kept.
      rcases hev with ⟨_, ws, hws, _⟩
      rcases committed_entry hws with ⟨e', l', ⟨t, rfl⟩, hc, he'⟩
      have hcommit := hh.2.split.1.event
      simp only [he'] at hcommit
      rcases hcommit with ⟨_, _, _, before, _, hb, _⟩
      rw [hc] at hb
      have hkept : (progress e.call (t ++ e' :: l')).entered = some before := by
        have hmore : (progress e.call ((t ++ [e']) ++ l')).entered = some before :=
          entered_kept (by
            rw [List.append_assoc]
            exact hh.2) hb
        rw [List.append_assoc] at hmore
        exact hmore
      exact ⟨before, hkept, hbefore before hkept⟩
  | left =>
      simp only [he] at hev
      exact hsome hev

/-! ## The sequential explanation -/

/-- Call `d` had returned when call `c` began. -/
def Precedes (l : List Entry) (d c : CallId) : Prop :=
  ∃ before, (progress c l).entered = some before ∧ (progress d before).left = true

/-- A call that had not entered has its beginning among the entries since. -/
theorem entered_after {t l before : List Entry} (hnone : (progress c l).entered = none)
    (h : (progress c (t ++ l)).entered = some before) : l <:+ before := by
  induction t with
  | nil =>
      rw [List.nil_append, hnone] at h
      simp only [reduceCtorEq] at h
  | cons e t ih =>
      rw [List.cons_append] at h
      by_cases he : e.call = c
      · rw [progress_own he] at h
        cases hev : e.event with
        | entered =>
            rw [hev] at h
            simp only [Progress.add, Option.some.injEq] at h
            exact ⟨t, h⟩
        | ran o =>
            rw [hev] at h
            cases o <;> exact ih h
        | asked b =>
            rw [hev] at h
            exact ih h
        | committed ws =>
            rw [hev] at h
            exact ih h
        | emitted em threw =>
            rw [hev] at h
            exact ih h
        | left =>
            rw [hev] at h
            exact ih h
      · rw [progress_other he] at h
        exact ih h

/-- The history only grows, with a step. -/
theorem Guar.log_suffix {w w' : World} (h : Guar c w w') : w.log <:+ w'.log := by
  rcases h.entry with ⟨e, _, _, hlog, _⟩
  rw [hlog]
  exact List.suffix_cons e w.log

/-- And with a run. -/
theorem Reachable.log_suffix {ok : Calls → CallId → Env → Prop} {a b : Calls}
    (ha : Reachable calls throws a) (h : Run (exec throws) ok a b) :
    a.shared.log <:+ b.shared.log :=
  ha.sound.relates (fun _ _ => Returned.stable) (fun _ _ => Raised.stable)
    (fun w w' => w.log <:+ w'.log) (fun _ => List.suffix_rfl) (fun _ _ _ h h' => h.trans h')
    (fun _ _ _ _ _ hg => hg.log_suffix) h

/-- The marks of the history are the beginnings and the ends of the calls: a
    call that is over before another begins precedes it. -/
theorem precedes_of_run {ok : Calls → CallId → Env → Prop} {a b : Calls} {d : CallId}
    {before : List Entry} (ha : Reachable calls throws a) (h : Run (exec throws) ok a b)
    (hover : (∃ r, a.threads d = .ret r) ∨ ∃ e, a.threads d = .throw e)
    (hnot : (progress c a.shared.log).entered = none)
    (hc : (progress c b.shared.log).entered = some before) : Precedes b.shared.log d c := by
  -- A call that is over has left, however it has ended.
  have hleft : (progress d a.shared.log).left = true := by
    rcases hover with ⟨r, hr⟩ | ⟨e, he⟩
    · rcases ha.returned hr with ⟨_, _, _, _, hat, _⟩
      rw [hat.progress]
      rfl
    · rcases ha.raised he with ⟨_, _, _, hat, _⟩ | ⟨_, _, _, _, _, _, _, _, hat, _⟩
      · rw [hat.progress]
        rfl
      · rw [hat.progress]
        rfl
  rcases ha.log_suffix h with ⟨t, ht⟩
  rw [← ht] at hc
  rcases entered_after hnot hc with ⟨t', ht'⟩
  refine ⟨before, by rw [← ht]; exact hc, ?_⟩
  rw [← ht']
  exact left_kept hleft

/-- A call's step of the machine, with an identifier that is not in use if
    the call creates a row. -/
def performs (calls : CallId → Operation) (online : CallId → Bool) (c : CallId) (o : Outcome)
    (S S' : State) : Prop :=
  ∃ newId, (o = .success → Fresh (calls c) newId S) ∧
    perform (calls c) (online c) newId S = (o, S')

/-- The moments at which failed calls are said to have happened: the length
    of the history before it, and the class of the failure. -/
structure Failures (calls : CallId → Operation) (sys : Calls)
    (failure : CallId → Option (Nat × Outcome)) : Prop where
  refuses : ∀ c n o, failure c = some (n, o) → o ≠ .success ∧
    (progress c sys.shared.log).committed = none ∧
    ∀ e l, e :: l <:+ sys.shared.log → l.length = n → e.call = c →
      ∀ online, (∀ b, (progress c sys.shared.log).asked = some b → online = b) →
        Refuses (calls c) online o (replay l)
  chosen : ∀ c e o, sys.threads c = .throw e → e.outcome = some o →
    ∃ e' l, e' :: l <:+ sys.shared.log ∧ e'.call = c ∧ (∀ ws, e'.event ≠ .committed ws) ∧
      failure c = some (l.length, o)

/-- What is said to have happened at an entry. -/
def picked (failure : CallId → Option (Nat × Outcome)) (e : Entry) (l : List Entry) :
    Option (CallId × Outcome) :=
  match e.event with
  | .committed _ => some (e.call, .success)
  | _ => match failure e.call with
    | some (n, o) => if n = l.length then some (e.call, o) else none
    | none => none

/-- At its commit a call happens, and succeeds. -/
theorem picked_committed {failure : CallId → Option (Nat × Outcome)} {e : Entry}
    {l : List Entry} {ws : Writes} (he : e.event = .committed ws) :
    picked failure e l = some (e.call, .success) := by
  simp only [picked, he]

/-- An entry where something happened is a commit or the moment of a failure. -/
theorem picked_cases {failure : CallId → Option (Nat × Outcome)} {e : Entry} {l : List Entry}
    {x : CallId × Outcome} (h : picked failure e l = some x) : x.1 = e.call ∧
    ((∃ ws, e.event = .committed ws ∧ x.2 = .success) ∨
      (∀ ws, e.event ≠ .committed ws) ∧ failure e.call = some (l.length, x.2)) := by
  -- Without a commit it is the moment of a failure.
  have hfail : (∀ ws, e.event ≠ .committed ws) → (match failure e.call with
      | some (n, o) => if n = l.length then some (e.call, o) else none
      | none => none) = some x → x.1 = e.call ∧ failure e.call = some (l.length, x.2) := by
    intro _ hx
    cases hf : failure e.call with
    | none =>
        rw [hf] at hx
        simp only [reduceCtorEq] at hx
    | some no =>
        rw [hf] at hx
        by_cases hn : no.1 = l.length
        · simp only [if_pos hn, Option.some.injEq] at hx
          rw [← hx, ← hn]
          exact ⟨rfl, rfl⟩
        · simp only [if_neg hn, reduceCtorEq] at hx
  cases he : e.event with
  | committed ws =>
      simp only [picked, he, Option.some.injEq] at h
      rw [← h]
      exact ⟨rfl, .inl ⟨ws, rfl, rfl⟩⟩
  | _ =>
      simp only [picked, he] at h
      have hx := hfail (fun ws hc => by rw [he] at hc; simp only [reduceCtorEq] at hc) h
      exact ⟨hx.1, .inr ⟨fun ws hc => by simp only [reduceCtorEq] at hc, hx.2⟩⟩

section Explanation

variable {sys : Calls} {failure : CallId → Option (Nat × Outcome)}

/-- The moment of each failed call can be chosen: its error is a refusal. -/
theorem Reachable.failures (h : Reachable calls throws sys) :
    ∃ failure, Failures calls sys failure := by
  have hpoint : ∀ c, ∃ f : Option (Nat × Outcome),
      (∀ n o, f = some (n, o) → o ≠ .success ∧
        (progress c sys.shared.log).committed = none ∧
        ∀ e l, e :: l <:+ sys.shared.log → l.length = n → e.call = c →
          ∀ online, (∀ b, (progress c sys.shared.log).asked = some b → online = b) →
            Refuses (calls c) online o (replay l)) ∧
      (∀ e o, sys.threads c = .throw e → e.outcome = some o →
        ∃ e' l, e' :: l <:+ sys.shared.log ∧ e'.call = c ∧ (∀ ws, e'.event ≠ .committed ws) ∧
          f = some (l.length, o)) := by
    intro c
    by_cases hthrow : ∃ e o, sys.threads c = .throw e ∧ e.outcome = some o
    · rcases hthrow with ⟨e, o, hc, ho⟩
      -- The refusal is that of an entry of its own, and the length of what came before
      -- tells which one.
      rcases h.raised hc with ⟨before, a, n, ha, o', ho', href⟩ | ⟨he, _⟩
      · rw [ho, Option.some.injEq] at ho'
        subst ho'
        rcases href with ⟨l₁, e', l, hlog, hcall, hev, href⟩
        refine ⟨some (l.length, o), fun n' o' hn => ?_, fun e'' o'' hc' ho'' => ?_⟩
        · rw [Option.some.injEq, Prod.mk.injEq] at hn
          rcases hn with ⟨rfl, rfl⟩
          refine ⟨fun hs => ?_, by rw [ha.progress]; rfl, fun e₂ l₂ hsuffix hlen _ online hon => ?_⟩
          · rw [hs] at ho
            cases e <;> simp only [HttpException.outcome, Option.some.injEq, reduceCtorEq] at ho
          · -- Two suffixes of the history of one length are one.
            have hsame : e₂ :: l₂ = e' :: l := by
              refine (List.suffix_of_suffix_length_le hsuffix ⟨l₁, hlog.symm⟩ ?_).eq_of_length ?_
              · simp only [List.length_cons, hlen, Nat.le_refl]
              · simp only [List.length_cons, hlen]
            rw [List.cons.injEq] at hsame
            rw [hsame.2]
            exact href online hon
        · rw [hc, Prog.throw.injEq] at hc'
          rw [← hc', ho, Option.some.injEq] at ho''
          exact ⟨e', l, ⟨l₁, hlog.symm⟩, hcall, hev, by rw [ho'']⟩
      · rw [he] at ho
        simp only [HttpException.outcome, reduceCtorEq] at ho
    · refine ⟨none, fun n o hn => ?_, fun e o hc ho => absurd ⟨e, o, hc, ho⟩ hthrow⟩
      simp only [reduceCtorEq] at hn
  choose failure hfailure using hpoint
  exact ⟨failure, fun c n o => (hfailure c).1 n o, fun c => (hfailure c).2⟩

/-- What comes before an entry, and what comes after it. -/
theorem suffix_split {α : Type} {e : α} {l l' : List α} (h : e :: l <:+ l') :
    ∃ l₁, l' = l₁ ++ e :: l := by
  rcases h with ⟨l₁, hl⟩
  exact ⟨l₁, hl.symm⟩

/-- At each entry the machine takes the step of the call that happens there,
    or stays as it is. -/
theorem sequential_picked (h : Reachable calls throws sys) (hf : Failures calls sys failure)
    {online : CallId → Bool}
    (honline : ∀ c b, (progress c sys.shared.log).asked = some b → online c = b) :
    Sequential (performs calls online) (view Tables.empty)
      (linear (picked failure) sys.shared.log) (view sys.shared.tables) := by
  rw [h.inv.tables]
  refine sequential_linear (fun l => view (replay l)) (fun e l hs c o hx => ?_)
    (fun e l _ hx => ?_)
  · rcases suffix_split hs with ⟨l₁, hlog⟩
    rcases picked_cases hx with ⟨hc, ⟨ws, he, ho⟩ | ⟨hev, hfail⟩⟩
    · simp only at hc ho
      subst hc ho
      rcases h.inv.commit hs he with ⟨hcons, _, _, hpresence, _, t, _, _, _, hexplains⟩
      have hasked : (calls e.call).NeedsPresence → online e.call = true := by
        intro hp
        refine honline e.call true ?_
        rw [hlog, ← List.singleton_append, ← List.append_assoc]
        exact asked_kept_append (hpresence hp)
      -- A commit is a step of the machine, with a new identifier for what it creates.
      rcases hexplains.performs hcons (online e.call) hasked with ⟨newId, hfresh, hperform⟩
      refine ⟨newId, fun _ => hfresh, ?_⟩
      simp only [replay, he]
      exact hperform
    · simp only at hc hfail
      subst hc
      -- A refusal is a step that changes nothing, and neither has the entry.
      rcases hf.refuses e.call l.length o hfail with ⟨hne, _, href⟩
      refine ⟨0, fun ho => absurd ho hne, ?_⟩
      have hsame : replay (e :: l) = replay l := by
        cases he : e.event with
        | committed ws => exact absurd he (hev ws)
        | _ => simp only [replay, he]
      simp only [hsame]
      exact href e l hs rfl rfl (online e.call) (honline e.call) 0
  · cases he : e.event with
    | committed ws =>
        rw [picked_committed he] at hx
        simp only [reduceCtorEq] at hx
    | _ => simp only [replay, he]

/-- A call happens once, and after every call that had returned when it
    began. -/
theorem pairwise_picked (h : Reachable calls throws sys) (hf : Failures calls sys failure) :
    (linear (picked failure) sys.shared.log).Pairwise (fun y x => y.1 ≠ x.1 ∧
      ¬ Precedes sys.shared.log x.1 y.1) := by
  have hhist := h.inv.history
  refine pairwise_linear (fun e l hs x hx y hy => ?_)
  rcases mem_linear.mp hy with ⟨e', l', hs', hy'⟩
  rcases suffix_split hs with ⟨l₁, hlog⟩
  rcases hs' with ⟨l₂, hl⟩
  rcases picked_cases hx with ⟨hxc, hxk⟩
  rcases picked_cases hy' with ⟨hyc, hyk⟩
  have hhl : History calls throws l := (hhist.suffix hs).2
  constructor
  · intro hsame
    -- Both entries would be of one call.
    have hcall : e'.call = e.call := by rw [← hyc, ← hxc, hsame]
    rcases hyk with ⟨ws, he', _⟩ | ⟨_, hfail'⟩
    · -- The earlier pick was a commit, so nothing can happen to the call any more.
      have hdone : (progress e.call l).committed = some ws := by
        have hat : (progress e.call (e' :: l')).committed = some ws := by
          rw [← hcall, progress_own rfl, he']
          rfl
        rw [← hl]
        exact committed_kept (by rw [hl]; exact hhl) hat
      rcases hxk with ⟨ws', he, _⟩ | ⟨_, hfail⟩
      · rcases h.inv.commit hs he with ⟨_, hnone, _⟩
        rw [hdone] at hnone
        simp only [reduceCtorEq] at hnone
      · have hnone := (hf.refuses e.call _ _ hfail).2.1
        have hmore : (progress e.call ((l₁ ++ [e]) ++ l)).committed = some ws :=
          committed_kept (by
            rw [List.append_assoc, List.singleton_append, ← hlog]
            exact hhist) hdone
        rw [List.append_assoc, List.singleton_append, ← hlog, hnone] at hmore
        simp only [reduceCtorEq] at hmore
    -- The earlier pick was a failure, so the call has not committed.
    · rw [hcall] at hfail'
      rcases hxk with ⟨ws, he, _⟩ | ⟨_, hfail⟩
      · have hnone := (hf.refuses e.call _ _ hfail').2.1
        have hat : (progress e.call (e :: l)).committed = some ws := by
          rw [progress_own rfl, he]
          rfl
        have hmore : (progress e.call (l₁ ++ e :: l)).committed = some ws :=
          committed_kept (by rw [← hlog]; exact hhist) hat
        rw [← hlog, hnone] at hmore
        simp only [reduceCtorEq] at hmore
      -- Both are its failure, but a history has only one length.
      · rw [hfail, Option.some.injEq, Prod.mk.injEq] at hfail'
        have hlen : l.length = l₂.length + (l'.length + 1) := by
          rw [← hl, List.length_append, List.length_cons]
        omega
  · rintro ⟨before, hb, hleft⟩
    -- The later call had entered before its entry.
    have hentered : ∃ b, (progress y.1 (e' :: l')).entered = some b ∧ b <:+ l' := by
      rw [hyc]
      exact entered_of_entry (by
        refine hhl.suffix ⟨l₂, hl⟩)
    rcases hentered with ⟨b, hb', hsuffix⟩
    have hkept : (progress y.1 sys.shared.log).entered = some b := by
      have hmore : (progress y.1 ((l₁ ++ e :: l₂) ++ e' :: l')).entered = some b :=
        entered_kept (by
          rw [List.append_assoc, List.cons_append, hl, ← hlog]
          exact hhist) hb'
      rw [List.append_assoc, List.cons_append, hl, ← hlog] at hmore
      exact hmore
    rw [hb, Option.some.injEq] at hkept
    subst hkept
    -- The later call had left before its own entry.
    have hgone : (progress x.1 l).left = true := by
      rcases hsuffix with ⟨t, ht⟩
      rw [← hl, ← ht, ← List.cons_append, ← List.append_assoc]
      exact left_kept hleft
    have hnot := (hhist.suffix hs).1.notLeft
    rw [← hxc, hgone] at hnot
    simp only [reduceCtorEq] at hnot

end Explanation

/-- Every run is explained by a sequential run of the machine: with the
    presence each call was told of, in an order that keeps two calls apart
    that did not overlap, with the outcome of every call that has returned,
    and with the committed rows for its final state. A call whose transport
    failed after its commit counts as the success it was. -/
theorem lifecycle_linearizable {sys : Calls} (h : Reachable calls throws sys)
    (online : CallId → Bool)
    (honline : ∀ c b, (progress c sys.shared.log).asked = some b → online c = b) :
    ∃ order : List (CallId × Outcome),
      Sequential (performs calls online) (view Tables.empty) order (view sys.shared.tables) ∧
      (order.map Prod.fst).Nodup ∧
      order.Pairwise (fun x y => ¬ Precedes sys.shared.log y.1 x.1) ∧
      (∀ x ∈ order, (progress x.1 sys.shared.log).entered.isSome) ∧
      (∀ c r, sys.threads c = .ret r → (c, .success) ∈ order) ∧
      (∀ c e, sys.threads c = .throw e →
        (∃ o, e.outcome = some o ∧ (c, o) ∈ order) ∨
        (e = .transportError ∧ (c, .success) ∈ order)) := by
  rcases h.failures with ⟨failure, hf⟩
  -- A call that has committed happens at its commit.
  have hcommitted : ∀ c ws, (progress c sys.shared.log).committed = some ws →
      (c, Outcome.success) ∈ linear (picked failure) sys.shared.log := by
    intro c ws hws
    rcases committed_entry hws with ⟨e, l, hs, hc, he⟩
    refine mem_linear.mpr ⟨e, l, hs, ?_⟩
    rw [picked_committed he, hc]
  refine ⟨linear (picked failure) sys.shared.log, sequential_picked h hf honline, ?_, ?_,
    fun x hx => ?_, fun c r hc => ?_, fun c e hc => ?_⟩
  -- Each call happens once.
  · rw [List.Nodup, List.pairwise_map]
    exact (pairwise_picked h hf).imp (fun hxy => hxy.1)
  · exact (pairwise_picked h hf).imp (fun hxy => hxy.2)
  · rcases mem_linear.mp hx with ⟨e, l, hs, hx'⟩
    rcases suffix_split hs with ⟨l₁, hlog⟩
    rcases entered_of_entry (h.inv.history.suffix hs) with ⟨b, hb, _⟩
    rw [(picked_cases hx').1, hlog, entered_kept (by rw [← hlog]; exact h.inv.history) hb]
    rfl
  · rcases h.returned hc with ⟨_, before, a, ws, ha, _⟩
    exact hcommitted c ws (by rw [ha.progress]; rfl)
  · rcases h.raised hc with
      ⟨before, a, n, ha, o, ho, href⟩ | ⟨he, _, _, before, a, ws, em, rest, ha, _⟩
    · -- A refusal happens at the moment that was chosen for it.
      rcases hf.chosen c e o hc ho with ⟨e', l, hs, hcall, hev, hfail⟩
      refine .inl ⟨o, ho, mem_linear.mpr ⟨e', l, hs, ?_⟩⟩
      rw [← hcall] at hfail ⊢
      cases he' : e'.event with
      | committed ws => exact absurd he' (hev ws)
      | _ => simp only [picked, he', hfail, if_true]
    · -- A transport that fails does so after the commit.
      exact .inr ⟨he, hcommitted c ws (by rw [ha.progress]; rfl)⟩

/-- A cancellation that comes after the session was opened is refused, and
    the order says so. -/
theorem lifecycle_linearizable_late_cancel : ∃ sys, Reachable assistance quiet sys ∧
    ∃ order : List (CallId × Outcome),
      Sequential (performs assistance
        (fun c => ((progress c sys.shared.log).asked).getD true)) (view Tables.empty) order
        (view sys.shared.tables) ∧
      (3, .success) ∈ order ∧ (6, .conflict) ∈ order := by
  have hrun : ((follow (exec quiet) (boot assistance (fun _ => tablet) (fun _ => agent) 0)
      (opening ++ turns 6 9 0)).any (fun sys => (sys.threads 3).returned.isSome &&
        (sys.threads 6).thrown.any (fun e => decide (e.outcome = some .conflict)))) = true := by
    decide +kernel
  rcases reachable_of_follow hrun with ⟨sys, hsys, hp⟩
  rw [Bool.and_eq_true, Option.isSome_iff_exists, Option.any_eq_true] at hp
  rcases hp with ⟨⟨r, hr⟩, e, he, hconflict⟩
  rw [Prog.returned_eq_some] at hr
  rw [Prog.thrown_eq_some] at he
  rw [decide_eq_true_eq] at hconflict
  rcases lifecycle_linearizable hsys (fun c => ((progress c sys.shared.log).asked).getD true)
    (fun c b hb => by rw [hb]; rfl) with ⟨order, hseq, _, _, _, hret, hthrow⟩
  refine ⟨sys, hsys, order, hseq, ?_, ?_⟩
  · exact hret 3 r hr
  · rcases hthrow 6 e he with ⟨o, ho, hmem⟩ | ⟨htransport, _⟩
    · rw [hconflict, Option.some.injEq] at ho
      rw [ho]
      exact hmem
    · rw [htransport] at hconflict
      simp only [HttpException.outcome, reduceCtorEq] at hconflict

end RemoteControl
