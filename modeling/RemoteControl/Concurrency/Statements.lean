import RemoteControl.Concurrency.RowTable

/-!
# The Statements of a Transaction

What each statement of `Concurrency.RowTable` does, for an actor in the
situation its program is in: a statement on its own, a transaction that holds
no row of the table, or one that holds exactly one. These are the situations
a proof about a program meets, because a program takes its locks one by one
and knows which it has.

Every statement is described by what it answers, by what the actor holds
afterwards, and by what it does to the committed rows. That it leaves the
rows of other transactions alone is `Untouched`, and `Holds.frame` is the
other side of it: what a transaction holds is not changed by the others.

The unique indexes are an invariant of the table. `Distinct` speaks about
every version of a row, committed or not, so that no commit and no rollback
can bring out a clash that was not there before.

A proof about a program does not look into the tables. It knows its hold, and
gets from the specification of its next statement what it holds then and what
has been committed. The specifications say everything that a caller may use,
so the definitions of the statements are unfolded here and nowhere above.

## Main definitions

* `Hold`: A row in the hands of a transaction.
* `Table.Holds`: A transaction holds exactly this row of the table.
* `Table.Untouched`: The rows other actors hold stay as they are.
* `Table.Distinct`: No two versions of two rows clash in a unique index.
* `Table.Adds`: At most one version was written.

## Theorems

* `Table.Holds.frame`: What others do leaves the held rows alone.
* `Table.writes_of_holds`: The writes of a transaction that holds one row.
* `Table.lock_spec`, `Table.update_auto_spec`, `Table.update_free_spec`,
  `Table.update_held_spec`, `Table.insert_auto_spec`, `Table.insert_spec`,
  `Table.commit_spec`, `Table.rollback_spec`: The statements.
* `Table.Distinct.narrow`, `Table.Distinct.insert`: The unique indexes hold
  across every statement.
* `Table.lock_cases`, `Table.update_cases`, `Table.insert_cases`: What a
  statement turns out to be.
* `Table.writes_of_holds`, `Table.held_of_mem_writes`: What a commit is about
  to write.
-/

set_option linter.unusedSectionVars false

namespace Concurrency

variable {K V C X : Type} [DecidableEq K]

/-- One row in the hands of a transaction: its key, its committed version and
    the version written to it. -/
structure Hold (K V : Type) where
  key : K
  committed : Option V
  written : Option V

/-- What a commit makes of a hold. -/
def Hold.writes (h : Hold K V) : List (Write K V) :=
  match h.written with
  | some v => [⟨h.key, h.committed, v⟩]
  | none => []

namespace Table

/-- Transaction `c` holds no row of the table, or exactly this one. -/
def Holds (t : Table K V C) (c : C) : Option (Hold K V) → Prop
  | none => ∀ k, ¬ (t.row k).HeldBy c
  | some h => t.row h.key = ⟨h.committed, some (c, h.written)⟩ ∧
      ∀ k, k ≠ h.key → ¬ (t.row k).HeldBy c

/-- The rows held by anyone but the actor are what they were, and nobody but
    the actor came to hold a row. -/
def Untouched (a : Option C) (t t' : Table K V C) : Prop :=
  ∀ k c, a ≠ some c → ((t.row k).HeldBy c ∨ (t'.row k).HeldBy c) → t'.row k = t.row k

/-- What does nothing touches nothing. -/
theorem Untouched.refl (a : Option C) (t : Table K V C) : Untouched a t t :=
  fun _ _ _ _ => rfl

/-- Two steps that leave the rows of the others alone, one after the other. -/
theorem Untouched.trans {a : Option C} {t t' t'' : Table K V C} (h : Untouched a t t')
    (h' : Untouched a t' t'') : Untouched a t t'' := by
  intro k c hac hheld
  -- Held in the first state or in the last, hence in the one between.
  rcases hheld with hheld | hheld
  · have hrow := h k c hac (.inl hheld)
    rw [← hrow] at hheld
    rw [h' k c hac (.inl hheld), hrow]
  · have hrow := h' k c hac (.inr hheld)
    rw [hrow] at hheld ⊢
    exact h k c hac (.inr hheld)

/-- What others do leaves a transaction's holds alone. The rows it holds are among
    those that the others leave alone, and they cannot make it hold another one. -/
theorem Holds.frame {t t' : Table K V C} {c : C} {h : Option (Hold K V)} {a : Option C}
    (hh : t.Holds c h) (hu : Untouched a t t') (ha : a ≠ some c) : t'.Holds c h := by
  cases h with
  | none =>
      intro k hk
      rw [hu k c ha (.inr hk)] at hk
      exact hh k hk
  | some h =>
      refine ⟨?_, fun k hne hk => ?_⟩
      · rw [hu h.key c ha (.inl ⟨h.written, by rw [hh.1]⟩)]
        exact hh.1
      · rw [hu k c ha (.inr hk)] at hk
        exact hh.2 k hne hk

variable [DecidableEq C]

/-- Changing a row that is free for the actor into one that nobody else holds
    touches no row of anybody else. -/
theorem untouched_set {t : Table K V C} {a : Option C} {k : K} {r : Row V C}
    (hfree : (t.row k).freeFor a = true) (hr : ∀ c, r.HeldBy c → a = some c) :
    Untouched a t (t.set k r) := by
  intro k' c hac hheld
  by_cases hk : k' = k
  · subst hk
    -- Before the change nobody else holds the row, and after it nobody else does.
    exfalso
    rcases hheld with ⟨p, hp⟩ | hnew
    · simp only [Row.freeFor, hp, decide_eq_true_eq] at hfree
      exact hac hfree
    · rw [set_row_self] at hnew
      exact hac (hr c hnew)
  · exact set_row_of_ne t k k' r hk

/-- Whoever holds a row that was just written is who has written it. -/
theorem put_heldBy {r : Row V C} {a : Option C} {v : V} {c : C} (h : (r.put a v).HeldBy c) :
    a = some c := by
  rcases h with ⟨p, hp⟩
  cases a with
  | none => simp only [Row.put, reduceCtorEq] at hp
  | some c' =>
      simp only [Row.put, Option.some.injEq, Prod.mk.injEq] at hp
      rw [hp.1]

/-- Whoever holds a row that was just locked is who has locked it. -/
theorem lock_heldBy {r : Row V C} {c c' : C} (hfree : r.freeFor (some c) = true)
    (h : (r.lock c).HeldBy c') : some c = some c' := by
  rcases h with ⟨p, hp⟩
  simp only [Row.lock] at hp
  simp only [Row.freeFor] at hfree
  -- Locked now, or held before by the same transaction.
  cases hr : r.held with
  | none =>
      rw [hr] at hp
      simp only [Option.some.injEq, Prod.mk.injEq] at hp
      rw [hp.1]
  | some q =>
      rw [hr] at hp hfree
      simp only [decide_eq_true_eq] at hfree
      rw [hr, Option.some.injEq] at hp
      rw [hfree, hp]

/-- A transaction that holds no row sees what is committed. -/
theorem holds_none_view {t : Table K V C} {c : C} (h : t.Holds c none) (k : K) :
    t.view (some c) k = t.committed k := by
  simp only [view, Row.view, committed]
  cases hr : (t.row k).held with
  | none => rfl
  | some q =>
      rcases q with ⟨c', _ | v⟩
      · rfl
      -- The version is that of another transaction, and hidden from this one.
      · have hne : ¬ (some c = some c') := by
          rw [Option.some.injEq]
          rintro rfl
          exact h k ⟨some v, hr⟩
        simp only [if_neg hne]

/-- A statement on its own sees what is committed. -/
theorem auto_view (t : Table K V C) (k : K) : t.view none k = t.committed k := by
  simp only [view, Row.view, committed]
  rcases (t.row k).held with _ | ⟨c', _ | v⟩
  · rfl
  · rfl
  · simp only [reduceCtorEq, if_false]

/-- Changing a row that is there uses no new key. -/
theorem dom_set {t : Table K V C} {k : K} {v : V} (h : t.committed k = some v) (r : Row V C) :
    (t.set k r).dom = t.dom := by
  rw [← auto_view] at h
  exact if_pos (mem_dom_of_view h)

/-- A transaction sees its row as it has left it. -/
theorem holds_some_view {t : Table K V C} {c : C} {h : Hold K V} (hh : t.Holds c (some h)) :
    t.view (some c) h.key = h.written.or h.committed := by
  simp only [view, Row.view, hh.1]
  cases h.written with
  | none => simp only [Option.none_or]
  | some v => simp only [if_true, Option.some_or]

/-- To a row it does not hold, a transaction has written nothing. -/
theorem writeAt_of_not_held {t : Table K V C} {c : C} {k : K} (h : ¬ (t.row k).HeldBy c) :
    t.writeAt c k = none := by
  simp only [writeAt]
  split
  · rename_i c' v hr
    have hne : ¬ (c' = c) := by
      rintro rfl
      exact h ⟨some v, hr⟩
    rw [if_neg hne]
  · rfl

/-- The writes of a transaction that holds one row of the table, or none. -/
theorem writes_of_holds {t : Table K V C} {c : C} {h : Option (Hold K V)} (hh : t.Holds c h) :
    t.writes c = h.elim [] Hold.writes := by
  cases h with
  | none =>
      rw [writes, Option.elim_none, List.filterMap_eq_nil_iff]
      -- It holds no row, so it has written to none.
      exact fun k _ => writeAt_of_not_held (hh k)
  | some h =>
      -- A row that is held is in the table.
      have hdom : h.key ∈ t.dom := by
        by_contra hk
        have hrow := hh.1
        rw [t.support h.key hk] at hrow
        simp only [Row.empty, Row.mk.injEq, reduceCtorEq, and_false] at hrow
      -- Split the domain at the held key: no other key contributes a write.
      rcases List.append_of_mem hdom with ⟨l₁, l₂, hl⟩
      have hnodup := t.nodup
      rw [hl] at hnodup
      have hout : ∀ l : List K, h.key ∉ l → l.filterMap (t.writeAt c) = [] := by
        intro l hnot
        rw [List.filterMap_eq_nil_iff]
        intro k hk
        refine writeAt_of_not_held (hh.2 k ?_)
        rintro rfl
        exact hnot hk
      have hsplit := List.nodup_append.mp hnodup
      have h₁ : h.key ∉ l₁ := fun hmem => hsplit.2.2 _ hmem _ List.mem_cons_self rfl
      have h₂ : h.key ∉ l₂ := (List.nodup_cons.mp hsplit.2.1).1
      rw [writes, hl, List.filterMap_append, List.filterMap_cons, hout l₁ h₁, hout l₂ h₂]
      simp only [writeAt, hh.1, Hold.writes, Option.elim_some]
      cases h.written with
      | none => simp only [List.append_nil]
      | some v => simp only [if_true, List.nil_append]

/-! ## Statements -/

/-- A statement that writes a row that was free touches none of the others'. -/
theorem put_untouched {t : Table K V C} {a : Option C} {k : K} {v : V}
    (hfree : (t.row k).freeFor a = true) : Untouched a t (t.set k ((t.row k).put a v)) :=
  untouched_set hfree (fun _ h => put_heldBy h)

/-- A statement on its own writes to the committed rows. -/
theorem put_committed (t : Table K V C) (k : K) (old : Option V) (v : V) :
    (t.set k ((t.row k).put none v)).committed = applyWrites [⟨k, old, v⟩] t.committed := by
  funext k'
  rw [applyWrites_single]
  by_cases hk : k' = k
  · rw [hk, if_pos rfl]
    simp only [committed, set_row_self, Row.put]
  · rw [if_neg (fun hc => hk hc.symm)]
    simp only [committed, set_row_of_ne t k k' _ hk]

/-- What is not touched by a statement on its own is not touched by anyone. -/
theorem Untouched.auto {t t' : Table K V C} (h : Untouched none t t') (a : Option C) :
    Untouched a t t' :=
  fun k c _ => h k c (by simp only [ne_eq, reduceCtorEq, not_false_eq_true])

/-- A row that another actor may lock is not held by `c`, or `c` is that actor. -/
theorem not_heldBy_of_free {r : Row V C} {a : Option C} {c : C} (hfree : r.freeFor a = true)
    (hac : a ≠ some c) : ¬ r.HeldBy c := by
  rintro ⟨p, hp⟩
  simp only [Row.freeFor, hp, decide_eq_true_eq] at hfree
  exact hac hfree

/-- Changing a row that `c` may change leaves its other rows unheld. Under any
    other key the row is what it was. -/
theorem not_heldBy_set {t : Table K V C} {c : C} (hh : t.Holds c none) {k k' : K} {r : Row V C}
    (hne : k' ≠ k) : ¬ ((t.set k r).row k').HeldBy c := by
  rw [set_row_of_ne t k k' r hne]
  exact hh k'

/-- A row that is free for a transaction and not held by it is not held at all. -/
theorem held_eq_none {r : Row V C} {c : C} (hfree : r.freeFor (some c) = true)
    (hheld : ¬ r.HeldBy c) : r.held = none := by
  cases hr : r.held with
  | none => rfl
  | some q =>
      simp only [Row.freeFor, hr, decide_eq_true_eq, Option.some.injEq] at hfree
      exact absurd ⟨q.2, by rw [hr, hfree]⟩ hheld

/-- What a lock turns out to be: there is no such row, or it is held from now
    on. -/
theorem lock_cases {t t' : Table K V C} {c : C} {k : K} {p : V → Bool} {res : Option V}
    (h : t.selectForUpdate c k p = some (res, t')) :
    (res = none ∧ t' = t ∧ ∀ v, t.view (some c) k = some v → p v = false) ∨
      ∃ v, res = some v ∧ t.view (some c) k = some v ∧ p v = true ∧
        (t.row k).freeFor (some c) = true ∧ t' = t.set k ((t.row k).lock c) := by
  simp only [selectForUpdate] at h
  cases hs : t.select (some c) k p with
  | none =>
      rw [hs] at h
      simp only [Option.some.injEq, Prod.mk.injEq] at h
      exact .inl ⟨h.1.symm, h.2.symm, select_eq_none.mp hs⟩
  | some v =>
      rw [hs] at h
      simp only at h
      rcases select_eq_some.mp hs with ⟨hview, hp⟩
      by_cases hfree : (t.row k).freeFor (some c) = true
      · rw [if_pos hfree] at h
        simp only [Option.some.injEq, Prod.mk.injEq] at h
        exact .inr ⟨v, h.1.symm, hview, hp, hfree, h.2.symm⟩
      · rw [if_neg hfree] at h
        simp only [reduceCtorEq] at h

/-- What an update turns out to be: there is no such row, or it is written. -/
theorem update_cases {t t' : Table K V C} {a : Option C} {k : K} {p : V → Bool} {f : V → V}
    {res : Bool} (h : t.update a k p f = some (res, t')) :
    (res = false ∧ t' = t ∧ ∀ v, t.view a k = some v → p v = false) ∨
      ∃ v, res = true ∧ t.view a k = some v ∧ p v = true ∧ (t.row k).freeFor a = true ∧
        t' = t.set k ((t.row k).put a (f v)) := by
  simp only [update] at h
  cases hs : t.select a k p with
  | none =>
      rw [hs] at h
      simp only [Option.some.injEq, Prod.mk.injEq] at h
      exact .inl ⟨h.1.symm, h.2.symm, select_eq_none.mp hs⟩
  | some v =>
      rw [hs] at h
      simp only at h
      rcases select_eq_some.mp hs with ⟨hview, hp⟩
      by_cases hfree : (t.row k).freeFor a = true
      · rw [if_pos hfree] at h
        simp only [Option.some.injEq, Prod.mk.injEq] at h
        exact .inr ⟨v, h.1.symm, hview, hp, hfree, h.2.symm⟩
      · rw [if_neg hfree] at h
        simp only [reduceCtorEq] at h

/-- A lock on a row that was free touches none of the others'. -/
theorem lock_untouched {t : Table K V C} {c : C} {k : K}
    (hfree : (t.row k).freeFor (some c) = true) :
    Untouched (some c) t (t.set k ((t.row k).lock c)) :=
  untouched_set hfree (fun _ h => lock_heldBy hfree h)

/-- A lock commits nothing. -/
theorem lock_committed (t : Table K V C) (c : C) (k : K) :
    (t.set k ((t.row k).lock c)).committed = t.committed := by
  refine set_committed _ _ _ ?_
  simp only [Row.lock]
  split <;> rfl

/-- `SELECT ... FOR UPDATE` by a transaction that holds no row yet. If it answers
    with a row, the row is committed, was free, and is held from now on. If it
    answers with none, nothing has happened. -/
theorem lock_spec {t t' : Table K V C} {c : C} {k : K} {p : V → Bool} {res : Option V}
    (hh : t.Holds c none) (h : t.selectForUpdate c k p = some (res, t')) :
    Untouched (some c) t t' ∧ t'.committed = t.committed ∧
      (res = none → t' = t ∧ ∀ v, t.committed k = some v → p v = false) ∧
      ∀ v, res = some v → t.committed k = some v ∧ p v = true ∧ (t.row k).held = none ∧
        t' = t.set k ((t.row k).lock c) ∧ t'.Holds c (some ⟨k, some v, none⟩) := by
  rcases lock_cases h with ⟨rfl, rfl, hno⟩ | ⟨v, rfl, hview, hp, hfree, rfl⟩
  · refine ⟨Untouched.refl _ _, rfl, fun _ => ⟨rfl, fun v hv => hno v ?_⟩, fun v hv => ?_⟩
    · rw [holds_none_view hh]
      exact hv
    · simp only [reduceCtorEq] at hv
  · rw [holds_none_view hh] at hview
    -- The row is free, and the transaction does not hold it.
    have hnone := held_eq_none hfree (hh k)
    refine ⟨lock_untouched hfree, lock_committed t c k, fun hc => ?_, fun v' hv' => ?_⟩
    · simp only [reduceCtorEq] at hc
    · rw [Option.some.injEq] at hv'
      subst hv'
      refine ⟨hview, hp, hnone, rfl, ?_, fun k' hne => not_heldBy_set hh hne⟩
      have hc : (t.row k).committed = some v := hview
      rw [set_row_self]
      simp only [Row.lock, hnone, hc]

/-- `UPDATE` as a statement on its own. What it has written is committed at once,
    because it is its own transaction. -/
theorem update_auto_spec {t t' : Table K V C} {k : K} {p : V → Bool} {f : V → V} {res : Bool}
    (h : t.update none k p f = some (res, t')) :
    Untouched none t t' ∧
      (res = false → t' = t ∧ ∀ v, t.committed k = some v → p v = false) ∧
      (res = true → ∃ v, t.committed k = some v ∧ p v = true ∧ (t.row k).held = none ∧
        t' = t.set k ((t.row k).put none (f v)) ∧
        t'.committed = applyWrites [⟨k, some v, f v⟩] t.committed) := by
  rcases update_cases h with ⟨rfl, rfl, hno⟩ | ⟨v, rfl, hview, hp, hfree, rfl⟩
  · refine ⟨Untouched.refl _ _, fun _ => ⟨rfl, fun v hv => hno v ?_⟩, fun hc => ?_⟩
    · rw [auto_view]
      exact hv
    · simp only [Bool.false_eq_true] at hc
  · rw [auto_view] at hview
    refine ⟨put_untouched hfree, fun hc => ?_, fun _ => ⟨v, hview, hp, ?_, rfl,
      put_committed t k (some v) (f v)⟩⟩
    · simp only [Bool.true_eq_false] at hc
    · -- A statement on its own finds the row free only if nobody holds it.
      cases hr : (t.row k).held with
      | none => rfl
      | some q =>
          simp only [Row.freeFor, hr, reduceCtorEq, decide_false, Bool.false_eq_true] at hfree

/-- `UPDATE` by a transaction that holds no row yet. What it has written is held,
    with the version that was committed. -/
theorem update_free_spec {t t' : Table K V C} {c : C} {k : K} {p : V → Bool} {f : V → V}
    {res : Bool} (hh : t.Holds c none) (h : t.update (some c) k p f = some (res, t')) :
    Untouched (some c) t t' ∧ t'.committed = t.committed ∧
      (res = false → t' = t ∧ ∀ v, t.committed k = some v → p v = false) ∧
      (res = true → ∃ v, t.committed k = some v ∧ p v = true ∧ (t.row k).held = none ∧
        t' = t.set k ((t.row k).put (some c) (f v)) ∧
        t'.Holds c (some ⟨k, some v, some (f v)⟩)) := by
  rcases update_cases h with ⟨rfl, rfl, hno⟩ | ⟨v, rfl, hview, hp, hfree, rfl⟩
  · refine ⟨Untouched.refl _ _, rfl, fun _ => ⟨rfl, fun v hv => hno v ?_⟩, fun hc => ?_⟩
    · rw [holds_none_view hh]
      exact hv
    · simp only [Bool.false_eq_true] at hc
  · rw [holds_none_view hh] at hview
    refine ⟨put_untouched hfree, set_committed _ _ _ rfl, fun hc => ?_, fun _ => ⟨v, hview, hp,
      held_eq_none hfree (hh k), rfl, ?_, fun k' hne => not_heldBy_set hh hne⟩⟩
    · simp only [Bool.true_eq_false] at hc
    · have hc : (t.row k).committed = some v := hview
      rw [set_row_self]
      simp only [Row.put, hc]

/-- `UPDATE` of the row the transaction holds, which never has to wait. It answers
    whether the row, as the transaction has left it, meets the condition. -/
theorem update_held_spec {t t' : Table K V C} {c : C} {h : Hold K V} {p : V → Bool} {f : V → V}
    {res : Bool} {v : V} (hh : t.Holds c (some h)) (hv : h.written.or h.committed = some v)
    (hup : t.update (some c) h.key p f = some (res, t')) :
    Untouched (some c) t t' ∧ t'.committed = t.committed ∧ res = p v ∧
      (res = false → t' = t) ∧
      (res = true → t' = t.set h.key ((t.row h.key).put (some c) (f v)) ∧
        t'.Holds c (some ⟨h.key, h.committed, some (f v)⟩)) := by
  have hview : t.view (some c) h.key = some v := (holds_some_view hh).trans hv
  rcases update_cases hup with ⟨rfl, rfl, hno⟩ | ⟨v', rfl, hview', hp, hfree, rfl⟩
  · refine ⟨Untouched.refl _ _, rfl, (hno v hview).symm, fun _ => rfl, fun hc => ?_⟩
    simp only [Bool.false_eq_true] at hc
  · -- The transaction sees the version that it has in hand.
    rw [hview, Option.some.injEq] at hview'
    subst hview'
    refine ⟨put_untouched hfree, set_committed _ _ _ rfl, hp.symm, fun hc => ?_,
      fun _ => ⟨rfl, ?_, fun k' hne => ?_⟩⟩
    · simp only [Bool.true_eq_false] at hc
    · -- The committed version stays the one that was there when the row was locked.
      have hc : (t.row h.key).committed = h.committed := by rw [hh.1]
      rw [set_row_self]
      simp only [Row.put, hc]
    · rw [set_row_of_ne t h.key k' _ hne]
      exact hh.2 k' hne

/-- After a commit the transaction holds nothing. Its rows are let go, and those
    of others are none of its own. -/
theorem not_heldBy_commit (t : Table K V C) (c : C) (k : K) : ¬ ((t.commit c).row k).HeldBy c := by
  rintro ⟨p, hp⟩
  simp only [commit, mapRows, Row.commit] at hp
  cases hr : (t.row k).held with
  | none =>
      rw [hr] at hp
      simp only [hr, reduceCtorEq] at hp
  | some q =>
      rw [hr] at hp
      by_cases hc : q.1 = c
      · simp only [if_pos hc, reduceCtorEq] at hp
      · simp only [if_neg hc, hr, Option.some.injEq] at hp
        exact hc (by rw [hp])

/-- A commit touches none of the others' rows. -/
theorem commit_untouched (t : Table K V C) (c : C) : Untouched (some c) t (t.commit c) := by
  intro k c' hac hheld
  -- Whoever else holds the row, it is not the transaction that commits.
  have hne : ∀ q, (t.row k).held = some q → q.1 ≠ c := by
    intro q hq hqc
    rcases hheld with ⟨p, hp⟩ | ⟨p, hp⟩
    · rw [hq, Option.some.injEq] at hp
      rw [hp] at hqc
      exact hac (by rw [← hqc])
    · simp only [commit, mapRows, Row.commit, hq, if_pos hqc, reduceCtorEq] at hp
  simp only [commit, mapRows, Row.commit]
  cases hr : (t.row k).held with
  | none => rfl
  | some q => simp only [if_neg (hne q hr)]

/-- `COMMIT`, for a transaction that holds one row of the table, or none. What it
    held is what it writes. -/
theorem commit_spec {t : Table K V C} {c : C} {h : Option (Hold K V)} (hh : t.Holds c h) :
    Untouched (some c) t (t.commit c) ∧ (t.commit c).Holds c none ∧
      (t.commit c).committed = applyWrites (h.elim [] Hold.writes) t.committed := by
  refine ⟨commit_untouched t c, not_heldBy_commit t c, ?_⟩
  rw [commit_committed, writes_of_holds hh]

/-- `ROLLBACK`. Nothing is written and nothing is held any more. -/
theorem rollback_spec (t : Table K V C) (c : C) :
    Untouched (some c) t (t.rollback c) ∧ (t.rollback c).Holds c none ∧
      (t.rollback c).committed = t.committed := by
  refine ⟨fun k c' hac hheld => ?_, ?_, rollback_committed t c⟩
  · have hne : ∀ q, (t.row k).held = some q → q.1 ≠ c := by
      intro q hq hqc
      rcases hheld with ⟨p, hp⟩ | ⟨p, hp⟩
      · rw [hq, Option.some.injEq] at hp
        rw [hp] at hqc
        exact hac (by rw [← hqc])
      · simp only [rollback, mapRows, Row.rollback, hq, if_pos hqc, reduceCtorEq] at hp
    simp only [rollback, mapRows, Row.rollback]
    cases hr : (t.row k).held with
    | none => rfl
    | some q => simp only [if_neg (hne q hr)]
  · rintro k ⟨p, hp⟩
    simp only [rollback, mapRows, Row.rollback] at hp
    cases hr : (t.row k).held with
    | none =>
        rw [hr] at hp
        simp only [hr, reduceCtorEq] at hp
    | some q =>
        rw [hr] at hp
        -- A row of its own is let go, one of the others is none of its own.
        by_cases hc : q.1 = c
        · simp only [if_pos hc, reduceCtorEq] at hp
        · simp only [if_neg hc, hr, Option.some.injEq] at hp
          exact hc (by rw [hp])

/-! ## The unique indexes -/

variable [DecidableEq X]

/-- No version of a row clashes with a version of another row. -/
def Distinct (ix : List (UniqueIndex V X)) (t : Table K V C) : Prop :=
  ∀ i ∈ ix, ∀ k k', k ≠ k' → ∀ v ∈ (t.row k).versions, ∀ v' ∈ (t.row k').versions,
    i.clash v v' = false

/-- Two rows do not clash if the one is not in the index, or they have different
    keys. -/
theorem clash_eq_false {i : UniqueIndex V X} {v w : V} :
    i.clash v w = false ↔ i.key v = none ∨ i.key v ≠ i.key w := by
  simp only [UniqueIndex.clash, Bool.and_eq_false_iff, Option.isSome_eq_false_iff,
    Option.isNone_iff_eq_none, decide_eq_false_iff_not, ne_eq]

/-- Which of the two comes first does not matter. -/
theorem clash_comm {i : UniqueIndex V X} {v w : V} (h : i.clash v w = false) :
    i.clash w v = false := by
  rw [clash_eq_false] at h ⊢
  by_cases hkey : i.key w = none
  · exact .inl hkey
  · refine .inr (fun heq => ?_)
    rcases h with hc | hc
    · exact hkey (by rw [heq, hc])
    · exact hc heq.symm

/-- The version takes no key of any index that the row does not have already. -/
def TakesNoKey (ix : List (UniqueIndex V X)) (v : V) (r : Row V C) : Prop :=
  ∀ i ∈ ix, i.key v = none ∨ ∃ v₀ ∈ r.versions, i.key v₀ = i.key v

/-- A statement after which no row has a key it did not have before keeps the
    indexes. -/
theorem Distinct.narrow {ix : List (UniqueIndex V X)} {t t' : Table K V C} (h : t.Distinct ix)
    (hkeys : ∀ k, ∀ v ∈ (t'.row k).versions, TakesNoKey ix v (t.row k)) : t'.Distinct ix := by
  intro i hi k k' hne v hv v' hv'
  rw [clash_eq_false]
  rcases hkeys k v hv i hi with hnone | ⟨v₀, hv₀, heq⟩
  · exact .inl hnone
  -- Both have kept a key, and those did not clash before.
  · rcases hkeys k' v' hv' i hi with hnone' | ⟨v₀', hv₀', heq'⟩
    · by_cases hkey : i.key v = none
      · exact .inl hkey
      · refine .inr (fun hc => hkey ?_)
        rw [hc, hnone']
    · rw [← heq, ← heq']
      exact clash_eq_false.mp (h i hi k k' hne v₀ hv₀ v₀' hv₀')

/-- A version that is there already takes no new key. -/
theorem takesNoKey_self {ix : List (UniqueIndex V X)} {r : Row V C} {v : V}
    (hv : v ∈ r.versions) : TakesNoKey ix v r :=
  fun _ _ => .inr ⟨v, hv, rfl⟩

/-- The committed version is a version. -/
theorem mem_versions_committed {r : Row V C} {v : V} (h : r.committed = some v) :
    v ∈ r.versions := by
  simp only [Row.versions, h, Option.toList_some, List.mem_append, List.mem_singleton, true_or]

/-- So is the one that a transaction has written. -/
theorem mem_versions_written {r : Row V C} {v : V} {c : C} (h : r.held = some (c, some v)) :
    v ∈ r.versions := by
  simp only [Row.versions, h, List.mem_append, List.mem_singleton, or_true]

/-- There are no others. -/
theorem mem_versions {r : Row V C} {v : V} (h : v ∈ r.versions) :
    r.committed = some v ∨ ∃ c, r.held = some (c, some v) := by
  simp only [Row.versions, List.mem_append, Option.mem_toList] at h
  rcases h with h | h
  · exact .inl h
  · cases hr : r.held with
    | none =>
        rw [hr] at h
        simp only [List.not_mem_nil] at h
    | some q =>
        rcases q with ⟨c, _ | w⟩
        · rw [hr] at h
          simp only [List.not_mem_nil] at h
        · rw [hr] at h
          simp only [List.mem_singleton] at h
          exact .inr ⟨c, by rw [h]⟩

/-- Changing one row, to versions that take no new key. -/
theorem Distinct.set {ix : List (UniqueIndex V X)} {t : Table K V C} (h : t.Distinct ix) {k : K}
    {r : Row V C} (hr : ∀ v ∈ r.versions, TakesNoKey ix v (t.row k)) :
    (t.set k r).Distinct ix := by
  refine h.narrow (fun k' v hv => ?_)
  by_cases hk : k' = k
  · subst hk
    rw [set_row_self] at hv
    exact hr v hv
  · rw [set_row_of_ne t k k' r hk] at hv
    exact takesNoKey_self hv

/-- A lock adds no version. -/
theorem Distinct.lock {ix : List (UniqueIndex V X)} {t : Table K V C} (h : t.Distinct ix) {k : K}
    {c : C} (hfree : (t.row k).held = none) : (t.set k ((t.row k).lock c)).Distinct ix := by
  refine h.set (fun v hv => ?_)
  simp only [Row.lock, hfree] at hv
  rcases mem_versions hv with hv | ⟨c', hv⟩
  · exact takesNoKey_self (mem_versions_committed hv)
  · simp only [Option.some.injEq, Prod.mk.injEq, reduceCtorEq, and_false] at hv

/-- A written version that takes no new key keeps the indexes. -/
theorem Distinct.put {ix : List (UniqueIndex V X)} {t : Table K V C} (h : t.Distinct ix) {k : K}
    {a : Option C} {v : V} (hv : TakesNoKey ix v (t.row k)) :
    (t.set k ((t.row k).put a v)).Distinct ix := by
  refine h.set (fun w hw => ?_)
  cases a with
  | none =>
      rcases mem_versions hw with hw | ⟨c', hw⟩
      · simp only [Row.put, Option.some.injEq] at hw
        rw [← hw]
        exact hv
      · simp only [Row.put, reduceCtorEq] at hw
  -- The committed version stays, and there is a written one.
  | some c =>
      rcases mem_versions hw with hw | ⟨c', hw⟩
      · exact takesNoKey_self (mem_versions_committed hw)
      · simp only [Row.put, Option.some.injEq, Prod.mk.injEq] at hw
        rw [← hw.2]
        exact hv

/-- A commit keeps the indexes, because it adds no version. -/
theorem Distinct.commit {ix : List (UniqueIndex V X)} {t : Table K V C} (h : t.Distinct ix)
    (c : C) : (t.commit c).Distinct ix := by
  refine h.narrow (fun k v hv => takesNoKey_self ?_)
  simp only [Table.commit, mapRows, Row.commit] at hv
  cases hr : (t.row k).held with
  | none =>
      rw [hr] at hv
      exact hv
  | some q =>
      rw [hr] at hv
      by_cases hc : q.1 = c
      · simp only [if_pos hc] at hv
        rcases mem_versions hv with hv | ⟨c', hv⟩
        -- What becomes committed was a version of the row before.
        · cases hq : q.2 with
          | none =>
              rw [hq, Option.none_or] at hv
              exact mem_versions_committed hv
          | some w =>
              rw [hq, Option.some_or, Option.some.injEq] at hv
              exact mem_versions_written (c := q.1) (by rw [hr, ← hv, ← hq])
        · simp only [reduceCtorEq] at hv
      · simp only [if_neg hc] at hv
        exact hv

/-- A rollback keeps them, because it only drops versions. -/
theorem Distinct.rollback {ix : List (UniqueIndex V X)} {t : Table K V C} (h : t.Distinct ix)
    (c : C) : (t.rollback c).Distinct ix := by
  refine h.narrow (fun k v hv => takesNoKey_self ?_)
  simp only [Table.rollback, mapRows, Row.rollback] at hv
  cases hr : (t.row k).held with
  | none =>
      rw [hr] at hv
      exact hv
  | some q =>
      rw [hr] at hv
      by_cases hc : q.1 = c
      · simp only [if_pos hc] at hv
        rcases mem_versions hv with hv | ⟨c', hv⟩
        · exact mem_versions_committed hv
        · simp only [reduceCtorEq] at hv
      · simp only [if_neg hc] at hv
        exact hv

/-- The indexes on the committed rows: two rows with the same key are one. The
    committed versions are among the versions. -/
theorem Distinct.committed {ix : List (UniqueIndex V X)} {t : Table K V C} (h : t.Distinct ix)
    {i : UniqueIndex V X} (hi : i ∈ ix) {k k' : K} {v v' : V} {x : X}
    (hv : t.committed k = some v) (hv' : t.committed k' = some v') (hx : i.key v = some x)
    (hx' : i.key v' = some x) : k = k' := by
  by_contra hne
  have hclash := h i hi k k' hne v (mem_versions_committed hv) v' (mem_versions_committed hv')
  rw [clash_eq_false, hx, hx'] at hclash
  rcases hclash with hc | hc
  · simp only [reduceCtorEq] at hc
  · exact hc rfl

/-! ## Insertions -/

/-- What an insertion found: a clash with a row it can see, or none with any
    version of any row that its actor does not hold. The former is the error it
    answers with. In the latter case the new row is written. -/
theorem insert_cases {ix : List (UniqueIndex V X)} {t t' : Table K V C} {a : Option C} {k : K}
    {v : V} {res : Except String Unit} (h : t.insert ix a k v = some (res, t')) :
    k ∉ t.dom ∧
      (∀ name, res = .error name → t' = t ∧ ∃ i ∈ ix, i.name = name ∧ ∃ k' v',
        t.view a k' = some v' ∧ i.clash v v' = true) ∧
      (res = .ok () → t' = t.set k ((t.row k).put a v) ∧ ∀ i ∈ ix, ∀ k',
        (∀ c, a = some c → ¬ (t.row k').HeldBy c) → ∀ v' ∈ (t.row k').versions,
          i.clash v v' = false) := by
  simp only [insert] at h
  by_cases hk : k ∈ t.dom
  · simp only [if_pos hk, reduceCtorEq] at h
  · rw [if_neg hk] at h
    -- A version that some other transaction has written would be waited for.
    by_cases hb : (t.dom.any fun k' => ix.any fun i => blocks i a v (t.row k')) = true
    · simp only [if_pos hb, reduceCtorEq] at h
    · rw [if_neg hb] at h
      refine ⟨hk, ?_⟩
      cases hvio : t.violated ix a v with
      -- The index that was found is violated by a row that is seen.
      | some i =>
          rw [hvio] at h
          simp only [Option.some.injEq, Prod.mk.injEq] at h
          refine ⟨fun name hname => ⟨h.2.symm, i, ?_⟩, fun hok => ?_⟩
          · have hfound := List.find?_some hvio
            rw [List.any_eq_true] at hfound
            rcases hfound with ⟨k', _, hclash⟩
            rw [Option.any_eq_true] at hclash
            rcases hclash with ⟨v', hview, hclash⟩
            rw [← h.1, Except.error.injEq] at hname
            exact ⟨List.mem_of_find?_eq_some hvio, hname, k', v', hview, hclash⟩
          · rw [← h.1] at hok
            simp only [reduceCtorEq] at hok
      | none =>
          rw [hvio] at h
          simp only [Option.some.injEq, Prod.mk.injEq] at h
          -- No index is violated, so the row was written and the answer is no error.
          refine ⟨fun name hname => ?_, fun _ => ⟨h.2.symm, fun i hi k' hnot v' hv' => ?_⟩⟩
          · rw [← h.1] at hname
            simp only [reduceCtorEq] at hname
          · have hseen := List.find?_eq_none.mp hvio i hi
            have hk' : k' ∈ t.dom := by
              by_contra hc
              rw [t.support k' hc] at hv'
              simp only [Row.versions, Row.empty, Option.toList_none, List.nil_append,
                List.not_mem_nil] at hv'
            simp only [List.any_eq_true, not_exists, not_and, Bool.not_eq_true] at hseen hb
            have hblock := hb k' hk' i hi
            have hview := hseen k' hk'
            simp only [view, Row.view] at hview
            -- A committed version is seen and checked, a written one would block.
            rcases mem_versions hv' with hc | ⟨c, hw⟩
            · cases hr : (t.row k').held with
              | none =>
                  simp only [hr, hc, Option.any_some] at hview
                  exact hview
              | some q =>
                  rcases q with ⟨c, _ | w⟩
                  · simp only [hr, hc, Option.any_some] at hview
                    exact hview
                  · have hne : ¬ (a = some c) := fun hac => hnot c hac ⟨some w, hr⟩
                    simp only [hr, if_neg hne, hc, Option.any_some] at hview
                    exact hview
            · have hne : a ≠ some c := fun hac => hnot c hac ⟨some v', hw⟩
              simp only [blocks, hw, decide_eq_true hne, Bool.true_and, Bool.or_eq_false_iff]
                at hblock
              exact hblock.1

/-- Under an unused key there is no row. -/
theorem row_empty_of_not_mem {t : Table K V C} {k : K} (hk : k ∉ t.dom) :
    t.row k = Row.empty := t.support k hk

/-- An insertion keeps the indexes. Its actor holds no row of the table, so every
    version of every row was checked. -/
theorem Distinct.insert {ix : List (UniqueIndex V X)} {t t' : Table K V C} {a : Option C} {k : K}
    {v : V} {res : Except String Unit} (h : t.Distinct ix)
    (hfree : ∀ c, a = some c → t.Holds c none) (hins : t.insert ix a k v = some (res, t')) :
    t'.Distinct ix := by
  rcases insert_cases hins with ⟨hk, herr, hok⟩
  cases res with
  | error name =>
      rw [(herr name rfl).1]
      exact h
  | ok u =>
      rcases hok rfl with ⟨rfl, hclash⟩
      -- The row had no version, so the inserted one is its only one.
      have hnew : ∀ w ∈ ((t.row k).put a v).versions, w = v := by
        intro w hw
        rw [row_empty_of_not_mem hk] at hw
        cases a with
        | none =>
            rcases mem_versions hw with hw | ⟨c', hw⟩
            · simp only [Row.put, Option.some.injEq] at hw
              exact hw.symm
            · simp only [Row.put, reduceCtorEq] at hw
        | some c =>
            rcases mem_versions hw with hw | ⟨c', hw⟩
            · simp only [Row.put, Row.empty, reduceCtorEq] at hw
            · simp only [Row.put, Option.some.injEq, Prod.mk.injEq] at hw
              exact hw.2.symm
      -- Of two different rows at most one is the new one.
      intro i hi k₁ k₂ hne v₁ hv₁ v₂ hv₂
      by_cases h₁ : k₁ = k
      · rw [h₁, set_row_self] at hv₁
        rw [set_row_of_ne t k k₂ _ (fun hc => hne (by rw [h₁, hc]))] at hv₂
        rw [hnew v₁ hv₁]
        exact hclash i hi k₂ (fun c hc => hfree c hc k₂) v₂ hv₂
      · rw [set_row_of_ne t k k₁ _ h₁] at hv₁
        by_cases h₂ : k₂ = k
        · rw [h₂, set_row_self] at hv₂
          rw [hnew v₂ hv₂]
          exact clash_comm (hclash i hi k₁ (fun c hc => hfree c hc k₁) v₁ hv₁)
        · rw [set_row_of_ne t k k₂ _ h₂] at hv₂
          exact h i hi k₁ k₂ hne v₁ hv₁ v₂ hv₂

/-- A row that was inserted clashes with none that is committed. What is committed
    was seen, or hidden by a version that would have been waited for. -/
theorem insert_no_clash {ix : List (UniqueIndex V X)} {t t' : Table K V C} {a : Option C} {k : K}
    {v : V} (h : t.insert ix a k v = some (.ok (), t')) (hfree : ∀ c, a = some c → t.Holds c none) :
    ∀ i ∈ ix, ∀ k' v', t.committed k' = some v' → i.clash v v' = false := by
  intro i hi k' v' hv'
  exact ((insert_cases h).2.2 rfl).2 i hi k' (fun c hc => hfree c hc k') v'
    (mem_versions_committed hv')

/-- An insertion touches no row of anybody else, because its key is unused. -/
theorem insert_untouched {ix : List (UniqueIndex V X)} {t t' : Table K V C} {a : Option C} {k : K}
    {v : V} {res : Except String Unit} (h : t.insert ix a k v = some (res, t')) :
    Untouched a t t' := by
  rcases insert_cases h with ⟨hk, herr, hok⟩
  cases res with
  | error name =>
      rw [(herr name rfl).1]
      exact Untouched.refl _ t
  | ok u =>
      rw [(hok rfl).1]
      exact put_untouched (by rw [row_empty_of_not_mem hk]; rfl)

/-- An insertion in a transaction commits nothing. The new row is there when the
    transaction commits. -/
theorem insert_committed {ix : List (UniqueIndex V X)} {t t' : Table K V C} {c : C} {k : K} {v : V}
    {res : Except String Unit} (h : t.insert ix (some c) k v = some (res, t')) :
    t'.committed = t.committed := by
  rcases insert_cases h with ⟨_, herr, hok⟩
  cases res with
  | error name => rw [(herr name rfl).1]
  | ok u =>
      rw [(hok rfl).1]
      exact set_committed _ _ _ rfl

/-- `INSERT` as a statement on its own. A violated index means a committed row
    that clashes, and nothing has happened. -/
theorem insert_auto_spec {ix : List (UniqueIndex V X)} {t t' : Table K V C} {k : K} {v : V}
    {res : Except String Unit} (h : t.insert ix none k v = some (res, t')) :
    Untouched none t t' ∧
      (∀ name, res = .error name → t' = t ∧ ∃ i ∈ ix, i.name = name ∧ ∃ k' v',
        t.committed k' = some v' ∧ i.clash v v' = true) ∧
      (res = .ok () → t.committed k = none ∧
        t'.committed = applyWrites [⟨k, none, v⟩] t.committed) := by
  rcases insert_cases h with ⟨hk, herr, hok⟩
  refine ⟨insert_untouched h, fun name hname => ?_, fun hres => ?_⟩
  · rcases herr name hname with ⟨ht, i, hi, hn, k', v', hview, hclash⟩
    rw [auto_view] at hview
    exact ⟨ht, i, hi, hn, k', v', hview, hclash⟩
  · rw [(hok hres).1]
    exact ⟨by rw [committed, row_empty_of_not_mem hk]; rfl, put_committed t k none v⟩

/-- `INSERT` by a transaction that holds no row of the table yet. The new row is
    held, and has no committed version yet. -/
theorem insert_spec {ix : List (UniqueIndex V X)} {t t' : Table K V C} {c : C} {k : K} {v : V}
    {res : Except String Unit} (hh : t.Holds c none)
    (h : t.insert ix (some c) k v = some (res, t')) :
    Untouched (some c) t t' ∧ t'.committed = t.committed ∧
      (∀ name, res = .error name → t' = t ∧ ∃ i ∈ ix, i.name = name ∧ ∃ k' v',
        t.committed k' = some v' ∧ i.clash v v' = true) ∧
      (res = .ok () → t.committed k = none ∧ t'.Holds c (some ⟨k, none, some v⟩)) := by
  rcases insert_cases h with ⟨hk, herr, hok⟩
  have hempty := row_empty_of_not_mem hk
  refine ⟨insert_untouched h, insert_committed h, fun name hname => ?_, fun hres => ?_⟩
  · rcases herr name hname with ⟨ht, i, hi, hn, k', v', hview, hclash⟩
    rw [holds_none_view hh] at hview
    exact ⟨ht, i, hi, hn, k', v', hview, hclash⟩
  · rw [(hok hres).1]
    refine ⟨by rw [committed, hempty]; rfl, ?_, fun k' hne => not_heldBy_set hh hne⟩
    rw [set_row_self, hempty]
    rfl

/-! ## What a transaction holds afterwards

Whatever the transaction held before. -/

/-- The versions that transactions have written are those from before, and
    perhaps one more. -/
def Adds (t t' : Table K V C) (c : C) (k : K) (P : V → Prop) : Prop :=
  t'.committed = t.committed ∧ ∀ k' u v, (t'.row k').held = some (u, some v) →
    (t.row k').held = some (u, some v) ∨ u = c ∧ k' = k ∧ P v

/-- Nothing was written. -/
theorem adds_refl {t : Table K V C} {c : C} {k : K} {P : V → Prop} : Adds t t c k P :=
  ⟨rfl, fun _ _ _ h => .inl h⟩

/-- Writing one row. -/
theorem adds_put {t : Table K V C} {c : C} {k : K} {v : V} {P : V → Prop} (hv : P v) :
    Adds t (t.set k ((t.row k).put (some c) v)) c k P := by
  refine ⟨set_committed _ _ _ rfl, fun k' u v' h => ?_⟩
  by_cases hk : k' = k
  · subst hk
    rw [set_row_self] at h
    simp only [Row.put, Option.some.injEq, Prod.mk.injEq] at h
    exact .inr ⟨h.1.symm, rfl, h.2 ▸ hv⟩
  · rw [set_row_of_ne t k k' _ hk] at h
    exact .inl h

/-- A lock writes no version. -/
theorem lock_adds {t t' : Table K V C} {c : C} {k : K} {p : V → Bool} {res : Option V}
    (h : t.selectForUpdate c k p = some (res, t')) : Adds t t' c k (fun _ => False) := by
  rcases lock_cases h with ⟨_, rfl, _⟩ | ⟨v, _, _, _, _, rfl⟩
  · exact adds_refl
  · refine ⟨lock_committed t c k, fun k' u v h => .inl ?_⟩
    -- A lock comes without a written version.
    by_cases hk : k' = k
    · subst hk
      rw [set_row_self] at h
      simp only [Row.lock] at h
      split at h
      · exact h
      · simp only [Option.some.injEq, Prod.mk.injEq, reduceCtorEq, and_false] at h
    · rw [set_row_of_ne t k k' _ hk] at h
      exact h

/-- What a lock returns is the committed version, or the one its transaction
    has written before. -/
theorem lock_sees {t t' : Table K V C} {c : C} {k : K} {p : V → Bool} {v : V}
    (h : t.selectForUpdate c k p = some (some v, t')) :
    p v = true ∧ (t.committed k = some v ∨ (t.row k).held = some (c, some v)) := by
  rcases lock_cases h with ⟨hc, _, _⟩ | ⟨v', hv, hview, hp, _, _⟩
  · simp only [reduceCtorEq] at hc
  rw [Option.some.injEq] at hv
  subst hv
  refine ⟨hp, ?_⟩
  simp only [view, Row.view] at hview
  split at hview
  · rename_i d u hheld
    -- Its own version, if it has written one.
    by_cases hc : some c = some d
    · rw [if_pos hc, Option.some.injEq] at hview
      rw [hheld, hview, Option.some.inj hc]
      exact .inr rfl
    · rw [if_neg hc] at hview
      exact .inl hview
  · exact .inl hview

/-- An update writes one version, made from another one. -/
theorem update_adds {t t' : Table K V C} {c : C} {k : K} {p : V → Bool} {f : V → V} {res : Bool}
    (h : t.update (some c) k p f = some (res, t')) :
    Adds t t' c k (fun v => ∃ old, v = f old) := by
  rcases update_cases h with ⟨_, rfl, _⟩ | ⟨v, _, _, _, _, rfl⟩
  · exact adds_refl
  · exact adds_put ⟨v, rfl⟩

/-- An insertion writes the new row. -/
theorem insert_adds {ix : List (UniqueIndex V X)} {t t' : Table K V C} {c : C} {k : K} {v : V}
    (h : t.insert ix (some c) k v = some (.ok (), t')) : Adds t t' c k (fun v' => v' = v) := by
  rw [((insert_cases h).2.2 rfl).1]
  exact adds_put rfl

/-- A transaction has written what its commit writes. Its rows are in its hands
    until then. -/
theorem held_of_mem_writes {t : Table K V C} {c : C} {x : Write K V} (hx : x ∈ t.writes c) :
    (t.row x.key).held = some (c, some x.new) := by
  simp only [writes, List.mem_filterMap] at hx
  rcases hx with ⟨k, _, hk⟩
  simp only [writeAt] at hk
  split at hk
  · split at hk
    · rename_i u v hheld hu
      rw [Option.some.injEq] at hk
      rw [← hk, hheld, hu]
    · simp only [reduceCtorEq] at hk
  · simp only [reduceCtorEq] at hk

/-- What a commit overwrites is the committed version. Nobody else can have
    changed it since the row was locked. -/
theorem committed_of_mem_writes {t : Table K V C} {c : C} {x : Write K V} (hx : x ∈ t.writes c) :
    t.committed x.key = x.old := by
  simp only [writes, List.mem_filterMap] at hx
  rcases hx with ⟨k, _, hk⟩
  simp only [writeAt] at hk
  split at hk
  · split at hk
    · rw [Option.some.injEq] at hk
      rw [← hk]
      rfl
    · simp only [reduceCtorEq] at hk
  · simp only [reduceCtorEq] at hk

/-- The end of a transaction writes nothing. -/
theorem held_of_commit {t : Table K V C} {c u : C} {k : K} {v : V}
    (h : ((t.commit c).row k).held = some (u, some v)) : (t.row k).held = some (u, some v) := by
  simp only [commit, mapRows, Row.commit] at h
  split at h
  · split at h
    · simp only [reduceCtorEq] at h
    · exact h
  · exact h

/-- Nor does a rollback. -/
theorem held_of_rollback {t : Table K V C} {c u : C} {k : K} {v : V}
    (h : ((t.rollback c).row k).held = some (u, some v)) : (t.row k).held = some (u, some v) := by
  simp only [rollback, mapRows, Row.rollback] at h
  split at h
  · split at h
    · simp only [reduceCtorEq] at h
    · exact h
  · exact h

end Table

end Concurrency
