import RemoteControl.Concurrency.Interleave
import RemoteControl.Concurrency.RowTable
import Mathlib.Logic.Relation
import Mathlib.Order.WellFounded

/-!
# Waiting for Each Other

Which transaction a statement waits for, and when a family of programs cannot
end up waiting in a circle.

A statement that needs a row waits for the transaction that holds it. An
insertion waits for a transaction that has written a row the new one clashes
with: it has to know whether that version, or the one it replaces, is going to
be there. `selectForUpdate_eq_none` and its siblings say that there is no other
reason for a statement to have no answer.

A program waits only where it has said so, if every operation inside a segment
but the first is one that is answered at once (`Prog.PromptFrom`). Then a
program that has no turn to take waits for another, and following the waits
leads somewhere as long as no wait leads back.

The graph is given by what a program is about to issue. `blocks` says whom an
operation waits for in a state, and is a parameter: for statements it is the
two relations of the first section. That it contains no cycle is not shown
here. It is shown of a system that takes its locks in an order, and then
`follow_waits` finds somebody who can go on.

## Main definitions

* `Table.LockedBy`, `Table.ClashesWith`: The reasons to wait.
* `Prog.PromptFrom`: A program that waits only at the beginning of a segment.
* `System.WaitsFor`: The wait-for graph.

## Theorems

* `System.waits_of_stuck`: What has no turn to take waits for another.
* `not_cycle`, `follow_waits`: Where following the waits leads to.
* `PromptFrom.bind`, `PromptFrom.onError`: Sequencing and handlers.
* `System.Prompt.run`: Every program of a system waits only where it has said
  so.
-/

set_option linter.unusedSectionVars false

namespace Concurrency

/-! ## Statements -/

namespace Table

variable {K V C X : Type} [DecidableEq K] [DecidableEq C]

/-- Another transaction, `d`, holds the row. -/
def LockedBy (t : Table K V C) (a : Option C) (k : K) (d : C) : Prop :=
  a ≠ some d ∧ (t.row k).HeldBy d

/-- Another transaction, `d`, has written a row that the new one clashes with,
    in the version it has written or in the version it is replacing. -/
def ClashesWith [DecidableEq X] (t : Table K V C) (ix : List (UniqueIndex V X)) (a : Option C)
    (v : V) (d : C) : Prop :=
  ∃ k w i, a ≠ some d ∧ (t.row k).held = some (d, some w) ∧ i ∈ ix ∧
    (i.clash v w = true ∨ ∃ u, (t.row k).committed = some u ∧ i.clash v u = true)

variable {t : Table K V C} {a : Option C} {c : C} {k : K} {p : V → Bool}

/-- A row that is not free is held by another transaction. -/
theorem lockedBy_of_not_free (h : (t.row k).freeFor a = false) : ∃ d, t.LockedBy a k d := by
  unfold Row.freeFor at h
  -- The row is held, and not by `a`, or it would be free.
  rcases hrow : (t.row k).held with _ | ⟨d, u⟩
  · simp only [hrow, Bool.true_eq_false] at h
  · simp only [hrow, decide_eq_false_iff_not] at h
    exact ⟨d, h, u, hrow⟩

/-- A locking read has no answer only if another transaction holds the row. -/
theorem selectForUpdate_eq_none (h : t.selectForUpdate c k p = none) :
    ∃ d, t.LockedBy (some c) k d := by
  unfold selectForUpdate at h
  -- With no such row, or with one that does not fit, there is an answer.
  split at h
  · simp only [reduceCtorEq] at h
  · split at h
    · simp only [reduceCtorEq] at h
    · rename_i hfree
      exact lockedBy_of_not_free (Bool.eq_false_iff.mpr hfree)

/-- An update has no answer only if another transaction holds the row. -/
theorem update_eq_none {f : V → V} (h : t.update a k p f = none) : ∃ d, t.LockedBy a k d := by
  unfold update at h
  split at h
  · simp only [reduceCtorEq] at h
  · split at h
    · simp only [reduceCtorEq] at h
    · rename_i hfree
      exact lockedBy_of_not_free (Bool.eq_false_iff.mpr hfree)

variable [DecidableEq X] {ix : List (UniqueIndex V X)} {v : V}

/-- A row that blocks an insertion was written by another transaction, and the
    version it has written or the one it is replacing clashes with the new row. -/
theorem clashesWith_of_blocks {i : UniqueIndex V X} (hi : i ∈ ix)
    (h : blocks i a v (t.row k) = true) : ∃ d, t.ClashesWith ix a v d := by
  unfold blocks at h
  rcases hrow : (t.row k).held with _ | ⟨d, _ | w⟩
  -- An unheld row and a deleted one block nothing.
  · simp only [hrow, Bool.false_eq_true] at h
  · simp only [hrow, Bool.false_eq_true] at h
  · simp only [hrow, Bool.and_eq_true, decide_eq_true_eq, Bool.or_eq_true, Option.any_eq_true] at h
    exact ⟨d, k, w, i, h.1, hrow, hi, h.2⟩

/-- An insertion has no answer only if the key is taken or another transaction has
    written a row that the new one clashes with. -/
theorem insert_eq_none (h : t.insert ix a k v = none) :
    k ∈ t.dom ∨ ∃ d, t.ClashesWith ix a v d := by
  unfold insert at h
  split at h
  · rename_i hk
    exact .inl hk
  · split at h
    · rename_i hblocks
      simp only [List.any_eq_true] at hblocks
      rcases hblocks with ⟨k', _, i, hi, hblocks⟩
      exact .inr (clashesWith_of_blocks hi hblocks)
    · split at h <;> simp only [reduceCtorEq] at h

/-- Whom a statement waits for holds a row. -/
theorem LockedBy.held {d : C} (h : t.LockedBy a k d) : ∃ k, (t.row k).HeldBy d := ⟨k, h.2⟩

/-- Whom an insertion waits for holds a row. -/
theorem ClashesWith.held {d : C} (h : t.ClashesWith ix a v d) : ∃ k, (t.row k).HeldBy d := by
  rcases h with ⟨k, w, i, _, hrow, _⟩
  exact ⟨k, some w, hrow⟩

end Table

variable {Op : Type} {Resp : Op → Type} {ε α β σ Env ι : Type}

/-! ## Where a program may wait -/

namespace Prog

/-- Every operation is of the kind that is answered at once, except the first
    one of a segment. The flag says that a segment is beginning. -/
def PromptFrom (atOnce : Op → Prop) : Bool → Prog Op Resp ε α → Prop
  | _, ret _ => True
  | _, throw _ => True
  | first, op o k => (first = true ∨ atOnce o) ∧ ∀ r, PromptFrom atOnce false (k r)
  | _, await p => PromptFrom atOnce true p

variable {atOnce : Op → Prop} {b : Bool}

/-- A program that waits nowhere in its current segment may also begin one. -/
theorem PromptFrom.begin {p : Prog Op Resp ε α} (h : p.PromptFrom atOnce false) :
    p.PromptFrom atOnce b := by
  cases p with
  | ret a => trivial
  | throw e => trivial
  | op o k =>
      refine ⟨.inr (h.1.resolve_left ?_), h.2⟩
      exact Bool.false_ne_true
  | await p => exact h

/-- The second program of a sequence goes on in the segment in which the first has
    ended, so its first operation must not wait. -/
theorem PromptFrom.bind {p : Prog Op Resp ε α} {f : α → Prog Op Resp ε β}
    (h : p.PromptFrom atOnce b) (hf : ∀ a, (f a).PromptFrom atOnce false) :
    (p.bind f).PromptFrom atOnce b := by
  induction p generalizing b with
  | ret a => exact (hf a).begin
  | throw e => trivial
  | op o k ih => exact ⟨h.1, fun r => ih r (h.2 r)⟩
  | await p ih => exact ih (b := true) h

/-- A handler goes on in the segment in which the error was thrown. -/
theorem PromptFrom.onError {p : Prog Op Resp ε α} {f : ε → Prog Op Resp ε α}
    (h : p.PromptFrom atOnce b) (hf : ∀ e, (f e).PromptFrom atOnce false) :
    (p.onError f).PromptFrom atOnce b := by
  induction p generalizing b with
  | ret a => trivial
  | throw e => exact (hf e).begin
  | op o k ih => exact ⟨h.1, fun r => ih r (h.2 r)⟩
  | await p ih => exact ih (b := true) h

variable {exec : (o : Op) → σ → Option (Resp o × σ)}

/-- What a segment leaves begins with a wait, or is over. -/
theorem PromptFrom.segment {p p' : Prog Op Resp ε α} {s s' : σ} (h : p.PromptFrom atOnce b)
    (hseg : Concurrency.segment exec p s = some (p', s')) : p'.PromptFrom atOnce false := by
  refine segment_induction (motive := fun p _ => ∀ b, p.PromptFrom atOnce b →
    p'.PromptFrom atOnce false) (fun hstop b h => ?_) (fun o k s r s₁ _ ih b h => ih false (h.2 r))
    hseg b h
  -- Waiting or over, it is not in the middle of a segment.
  cases p' with
  | op o k => exact hstop.elim
  | ret a => trivial
  | throw e => trivial
  | await p => exact h

/-- Inside a segment nothing has to wait. All of its operations are answered at
    once. -/
theorem PromptFrom.segment_isSome {p : Prog Op Resp ε α} (h : p.PromptFrom atOnce false)
    (hexec : ∀ o s, atOnce o → (exec o s).isSome) (s : σ) :
    (Concurrency.segment exec p s).isSome := by
  induction p generalizing s with
  | ret a => rfl
  | throw e => rfl
  | await p _ => rfl
  | op o k ih =>
      have ho := h.1.resolve_left Bool.false_ne_true
      rcases Option.isSome_iff_exists.mp (hexec o s ho) with ⟨rs, hrs⟩
      simp only [Concurrency.segment, hrs]
      exact ih rs.1 (h.2 rs.1) rs.2

/-- A segment that cannot happen has a first operation that has to wait. -/
theorem PromptFrom.segment_none {p : Prog Op Resp ε α} (h : p.PromptFrom atOnce b)
    (hexec : ∀ o s, atOnce o → (exec o s).isSome) {s : σ}
    (hseg : Concurrency.segment exec p s = none) : ∃ o k, p = .op o k ∧ exec o s = none := by
  cases p with
  | ret a => simp only [Concurrency.segment, reduceCtorEq] at hseg
  | throw e => simp only [Concurrency.segment, reduceCtorEq] at hseg
  | await p => simp only [Concurrency.segment, reduceCtorEq] at hseg
  | op o k =>
      refine ⟨o, k, rfl, ?_⟩
      cases hx : exec o s with
      | none => rfl
      | some rs =>
          simp only [Concurrency.segment, hx] at hseg
          -- After the first operation nothing has to wait.
          have hrest := (h.2 rs.1).segment_isSome hexec rs.2
          rw [hseg, Option.isSome_none] at hrest
          exact (Bool.false_ne_true hrest).elim

end Prog

/-! ## The wait-for graph -/

section Graph

variable {exec : ι → Env → (o : Op) → σ → Option (Resp o × σ)} {atOnce : Op → Prop}

/-- Every program waits only at the beginning of a segment. -/
def System.Prompt (atOnce : Op → Prop) (sys : System Op Resp ε α σ ι) : Prop :=
  ∀ t, (sys.threads t).PromptFrom atOnce false

/-- The program is about to issue an operation that `u` has to finish first. -/
def System.WaitsFor (blocks : ι → Op → σ → ι → Prop) (sys : System Op Resp ε α σ ι) (t u : ι) :
    Prop :=
  ∃ o k, sys.threads t = .await (.op o k) ∧ blocks t o sys.shared u

/-- Before the first turn every program is at a wait, so its first operation may
    wait. -/
theorem System.Prompt.start {s : σ} {p : ι → Prog Op Resp ε α}
    (h : ∀ t, (p t).PromptFrom atOnce false) : (System.start s p).Prompt atOnce :=
  fun t => (h t).begin (b := true)

variable [DecidableEq ι]

/-- A turn leaves the one program at a wait and moves no other. -/
theorem System.Prompt.turn {sys sys' : System Op Resp ε α σ ι} {t : ι} {env : Env}
    (h : sys.Prompt atOnce) (hturn : sys.turn exec t env = some sys') : sys'.Prompt atOnce := by
  rcases turn_cases hturn with ⟨p, p', s', hp, hseg, rfl⟩
  intro u
  by_cases hu : u = t
  · have hprompt := h t
    rw [hp] at hprompt
    rw [hu]
    simp only [Function.update_self]
    exact Prog.PromptFrom.segment (b := true) hprompt hseg
  · simp only [Function.update_of_ne hu]
    exact h u

/-- In every state of a run the programs wait only where they have said so. -/
theorem System.Prompt.run {ok : System Op Resp ε α σ ι → ι → Env → Prop}
    {a b : System Op Resp ε α σ ι} (h : a.Prompt atOnce) (hrun : Run exec ok a b) :
    b.Prompt atOnce :=
  hrun.invariant h (fun _ _ _ _ hc _ hturn => hc.turn hturn)

/-- A program that is not over and has no turn to take waits for another. -/
theorem System.waits_of_stuck {blocks : ι → Op → σ → ι → Prop} {sys : System Op Resp ε α σ ι}
    {t : ι} {env : Env} (h : sys.Prompt atOnce)
    (hexec : ∀ o s, atOnce o → (exec t env o s).isSome)
    (hblocks : ∀ o, exec t env o sys.shared = none → ∃ u, blocks t o sys.shared u)
    {p : Prog Op Resp ε α} (hp : sys.threads t = .await p) (hturn : sys.turn exec t env = none) :
    ∃ u, sys.WaitsFor blocks t u := by
  have hprompt := h t
  rw [hp] at hprompt
  have hseg : segment (exec t env) p sys.shared = none := by
    simp only [System.turn, hp] at hturn
    cases hseg : segment (exec t env) p sys.shared with
    | none => rfl
    | some ps =>
        rw [hseg] at hturn
        simp only [reduceCtorEq] at hturn
  -- What the member is stuck at is the first operation of its segment.
  rcases Prog.PromptFrom.segment_none (b := true) hprompt hexec hseg with ⟨o, k, rfl, hx⟩
  rcases hblocks o hx with ⟨u, hu⟩
  exact ⟨u, o, k, hp, hu⟩

end Graph

/-! ## Following the waits -/

section Follow

variable {R : ι → ι → Prop}

/-- Nothing waits for itself. A cycle would be an endless descent. -/
theorem not_cycle (hwf : WellFounded (fun y x => R x y)) (x : ι) : ¬ Relation.TransGen R x x :=
  fun h => hwf.transGen.irrefl.irrefl x (Relation.transGen_swap.mp h)

/-- Following the waits, one comes to something that does not wait. By
    well-founded induction: whoever waits, waits for somebody further down. -/
theorem follow_waits (hwf : WellFounded (fun y x => R x y)) (x : ι) :
    ∃ y, Relation.ReflTransGen R x y ∧ ∀ z, ¬ R y z := by
  induction x using hwf.induction with
  | _ x ih =>
      by_cases h : ∃ y, R x y
      · rcases h with ⟨y, hxy⟩
        rcases ih y hxy with ⟨z, hyz, hz⟩
        exact ⟨z, hyz.head hxy, hz⟩
      · exact ⟨x, .refl, fun z hz => h ⟨z, hz⟩⟩

end Follow

end Concurrency
