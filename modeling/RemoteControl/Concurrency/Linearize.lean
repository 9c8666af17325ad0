import Mathlib.Data.List.Basic

/-!
# Linearization by Points

A concurrent run leaves a history of entries, and a sequential explanation of
it picks for some entries the operation that is said to have happened there.
`linear` collects the picks in the order of the history. What has to be shown
of the picks is local: at each entry the abstract state either takes the step
of the operation picked there or stays as it is (`sequential_linear`), and
the pick stands in the right relation to those before it (`pairwise_linear`).

Histories are lists with the newest entry first, so an entry is picked
knowing the history before it.

A pick may depend on the history before the entry only, and not on what comes
later. This makes the sequential run grow at its end as the history grows, so
both theorems are by induction on the history and look at one entry at a time.

## Main definitions

* `Sequential`: Operations run one after the other, with their outcomes.
* `linear`: The picks of a history, oldest first.

## Theorems

* `mem_linear`: Where a pick comes from.
* `sequential_linear`: The picks are a sequential run.
* `pairwise_linear`: A relation between every pick and the ones before it.
-/

namespace Concurrency

variable {Entry Call Outcome State : Type}

/-- Running operations one after the other from `init`: `step` is what one of
    them does, and with which outcome. -/
inductive Sequential (step : Call → Outcome → State → State → Prop) (init : State) :
    List (Call × Outcome) → State → Prop where
  | nil : Sequential step init [] init
  | snoc (order : List (Call × Outcome)) (s s' : State) (c : Call) (o : Outcome)
      (hrun : Sequential step init order s) (hstep : step c o s s') :
      Sequential step init (order ++ [(c, o)]) s'

/-- The picks of a history, oldest first. -/
def linear (pick : Entry → List Entry → Option (Call × Outcome)) :
    List Entry → List (Call × Outcome)
  | [] => []
  | e :: l => linear pick l ++ (pick e l).toList

variable {pick : Entry → List Entry → Option (Call × Outcome)}

/-- A pick is in the sequential run if and only if it was picked at some entry of
    the history, from what had happened before. -/
theorem mem_linear {l : List Entry} {x : Call × Outcome} :
    x ∈ linear pick l ↔ ∃ e l', e :: l' <:+ l ∧ pick e l' = some x := by
  induction l with
  | nil =>
      simp only [linear, List.not_mem_nil, List.suffix_nil, reduceCtorEq, false_and,
        exists_false]
  | cons a l ih =>
      simp only [linear, List.mem_append, ih, Option.mem_toList, List.suffix_cons_iff,
        List.cons.injEq]
      -- Picked at the last entry, or at one before.
      constructor
      · rintro (⟨e, l', hl, hx⟩ | hx)
        · exact ⟨e, l', .inr hl, hx⟩
        · exact ⟨a, l, .inl ⟨rfl, rfl⟩, hx⟩
      · rintro ⟨e, l', ⟨rfl, rfl⟩ | hl, hx⟩
        · exact .inr hx
        · exact .inl ⟨e, l', hl, hx⟩

/-- Entry by entry, the state takes the step that is picked or stays. `state` is
    the abstract state that belongs to a history. -/
theorem sequential_linear {step : Call → Outcome → State → State → Prop}
    (state : List Entry → State) {l : List Entry}
    (hpick : ∀ e l', e :: l' <:+ l → ∀ c o, pick e l' = some (c, o) →
      step c o (state l') (state (e :: l')))
    (hstay : ∀ e l', e :: l' <:+ l → pick e l' = none → state (e :: l') = state l') :
    Sequential step (state []) (linear pick l) (state l) := by
  induction l with
  | nil => exact .nil
  | cons a l ih =>
      have hrun := ih (fun e l' hl => hpick e l' (hl.trans (List.suffix_cons a l)))
        (fun e l' hl => hstay e l' (hl.trans (List.suffix_cons a l)))
      cases hx : pick a l with
      | none =>
          have hsame := hstay a l List.suffix_rfl hx
          simp only [linear, hx, Option.toList_none, List.append_nil, hsame]
          exact hrun
      -- The call that is picked here takes its step now.
      | some x =>
          have hnext := hpick a l List.suffix_rfl x.1 x.2 hx
          simp only [linear, hx, Option.toList_some]
          exact .snoc _ _ _ x.1 x.2 hrun hnext

/-- Every pick stands in the relation to all of those before it. Asked for at the
    entry at which the later of the two is picked. -/
theorem pairwise_linear {R : Call × Outcome → Call × Outcome → Prop} {l : List Entry}
    (h : ∀ e l', e :: l' <:+ l → ∀ x, pick e l' = some x → ∀ y ∈ linear pick l', R y x) :
    (linear pick l).Pairwise R := by
  induction l with
  | nil => exact .nil
  | cons a l ih =>
      have hrest := ih (fun e l' hl => h e l' (hl.trans (List.suffix_cons a l)))
      simp only [linear, List.pairwise_append]
      refine ⟨hrest, ?_, fun y hy x hx => ?_⟩
      -- At most one is picked at an entry, so the only pairs are with earlier ones.
      · cases pick a l with
        | none => exact .nil
        | some x => exact List.pairwise_singleton R x
      · rw [Option.mem_toList] at hx
        exact h a l List.suffix_rfl x hx y hy

end Concurrency
