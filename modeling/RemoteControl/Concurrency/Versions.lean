import RemoteControl.Concurrency.Statements

/-!
# What is True of Every Version

A property of rows that holds of every version there is, the committed ones and
those that transactions have written. A statement keeps it when what it writes
has it, and the ends of transactions keep it anyway, as they only drop
versions. No program comes into it: what a table satisfies in this way it
satisfies in every run.

A version of a row that nobody has committed was inserted by the transaction
that holds it. So a property of these versions can speak of that transaction
(`Table.EveryNew`).

The lemmas follow the statements. Each one first takes its statement apart
with the case lemmas of `Concurrency.Statements`, and then there are three
shapes left: nothing has changed, a version was written (`Every.put`), or
versions were dropped or moved (`Every.shrink`).

## Main definitions

* `Table.Every`: Every version of every row has the property.
* `Table.EveryNew`: Every version of a row that is not there yet has it.

## Theorems

* `Table.Every.update`, `Table.Every.insert`, `Table.Every.selectForUpdate`:
  Statements.
* `Table.Every.commit`, `Table.Every.rollback`: The ends of a transaction.
* `Table.Every.view`: What an actor sees has the property.
* `Table.update_committed`, `Table.selectForUpdate_committed`: A transaction
  commits nothing before it ends.
* `Table.EveryNew.writes`: What a transaction inserts with its commit.
* `Table.Every.committed`, `Table.Every.mem_scan`: What is committed and what
  a query finds.
-/

set_option linter.unusedSectionVars false

namespace Concurrency

namespace Table

variable {K V C X : Type} [DecidableEq K] [DecidableEq C]

/-- Every version of every row has the property. -/
def Every (P : K → V → Prop) (t : Table K V C) : Prop := ∀ k, ∀ v ∈ (t.row k).versions, P k v

variable {P P' : K → V → Prop} {t t' : Table K V C}

/-- In an empty table there is no version. -/
theorem every_init : (init : Table K V C).Every P := by
  intro k v hv
  rcases mem_versions hv with hv | ⟨c, hv⟩
  · simp only [init, Row.empty, reduceCtorEq] at hv
  · simp only [init, Row.empty, reduceCtorEq] at hv

/-- A weaker property. -/
theorem Every.mono (h : t.Every P) (hP : ∀ k v, P k v → P' k v) : t.Every P' :=
  fun k v hv => hP k v (h k v hv)

/-- What is committed has the property. -/
theorem Every.committed (h : t.Every P) {k : K} {v : V} (hv : t.committed k = some v) : P k v :=
  h k v (mem_versions_committed hv)

/-- Changing one row, to versions that have the property. -/
theorem Every.set (h : t.Every P) {k : K} {r : Row V C} (hr : ∀ v ∈ r.versions, P k v) :
    (t.set k r).Every P := by
  intro k' v hv
  by_cases hk : k' = k
  · subst hk
    rw [set_row_self] at hv
    exact hr v hv
  · rw [set_row_of_ne t k k' r hk] at hv
    exact h k' v hv

/-- What was there before, with versions dropped or moved. -/
theorem Every.shrink (h : t.Every P)
    (hrow : ∀ k, ∀ v ∈ (t'.row k).versions, v ∈ (t.row k).versions) : t'.Every P :=
  fun k v hv => h k v (hrow k v hv)

/-- What an actor sees has the property, whether it is its own version or the
    committed one. -/
theorem Every.view (h : t.Every P) {a : Option C} {k : K} {v : V} (hv : t.view a k = some v) :
    P k v := by
  simp only [Table.view, Row.view] at hv
  cases hr : (t.row k).held with
  | none =>
      rw [hr] at hv
      exact h k v (mem_versions_committed hv)
  | some q =>
      rcases q with ⟨c, _ | w⟩
      · rw [hr] at hv
        exact h k v (mem_versions_committed hv)
      · rw [hr] at hv
        simp only at hv
        -- The actor sees its own version, and the committed one of any other row.
        by_cases hc : a = some c
        · rw [if_pos hc, Option.some.injEq] at hv
          exact h k v (mem_versions_written (by rw [hr, hv]))
        · rw [if_neg hc] at hv
          exact h k v (mem_versions_committed hv)

/-- What a query finds has the property, under some key. -/
theorem Every.mem_scan (h : t.Every P) {a : Option C} {p : V → Bool} {v : V}
    (hv : v ∈ t.scan a p) : ∃ k, P k v := by
  rcases Table.mem_scan.mp hv with ⟨k, hview, _⟩
  exact ⟨k, h.view hview⟩

/-- Writing a version that has the property. -/
theorem Every.put (h : t.Every P) {a : Option C} {k : K} {v : V} (hv : P k v) :
    (t.set k ((t.row k).put a v)).Every P := by
  refine h.set (fun w hw => ?_)
  cases a with
  -- A statement on its own replaces the committed version.
  | none =>
      rcases mem_versions hw with hw | ⟨c, hw⟩
      · simp only [Row.put, Option.some.injEq] at hw
        rw [← hw]
        exact hv
      · simp only [Row.put, reduceCtorEq] at hw
  -- A transaction leaves the committed version and holds the new one.
  | some c =>
      rcases mem_versions hw with hw | ⟨c', hw⟩
      · exact h k w (mem_versions_committed hw)
      · simp only [Row.put, Option.some.injEq, Prod.mk.injEq] at hw
        rw [← hw.2]
        exact hv

/-- A lock writes no version. -/
theorem Every.selectForUpdate (h : t.Every P) {c : C} {k : K} {p : V → Bool} {res : Option V}
    (hx : t.selectForUpdate c k p = some (res, t')) : t'.Every P := by
  rcases lock_cases hx with ⟨_, rfl, _⟩ | ⟨v, _, _, _, _, rfl⟩
  · exact h
  · refine h.set (fun w hw => h k w ?_)
    -- A lock is not a version.
    cases hr : (t.row k).held with
    | none =>
        rw [Row.lock, hr] at hw
        rcases mem_versions hw with hw | ⟨c', hw⟩
        · exact mem_versions_committed hw
        · simp only [Option.some.injEq, Prod.mk.injEq, reduceCtorEq, and_false] at hw
    | some q =>
        rw [Row.lock, hr] at hw
        exact hw

/-- The row the actor sees has the property, so what is written need only have
    it for such a row. -/
theorem Every.update (h : t.Every P) {a : Option C} {k : K} {p : V → Bool} {f : V → V} {res : Bool}
    (hx : t.update a k p f = some (res, t')) (hf : ∀ v, P k v → p v = true → P k (f v)) :
    t'.Every P := by
  rcases update_cases hx with ⟨_, rfl, _⟩ | ⟨v, _, hview, hp, _, rfl⟩
  · exact h
  · exact h.put (hf v (h.view hview) hp)

/-- An insertion keeps the property if the new row has it. -/
theorem Every.insert [DecidableEq X] (h : t.Every P) {ix : List (UniqueIndex V X)} {a : Option C}
    {k : K} {v : V} {res : Except String Unit} (hx : t.insert ix a k v = some (res, t'))
    (hv : P k v) : t'.Every P := by
  rcases insert_cases hx with ⟨_, herr, hok⟩
  cases res with
  | error name =>
      rw [(herr name rfl).1]
      exact h
  | ok _ =>
      rw [(hok rfl).1]
      exact h.put hv

/-- In a transaction, neither locks nor updates commit anything. -/
theorem selectForUpdate_committed {c : C} {k : K} {p : V → Bool} {res : Option V}
    (hx : t.selectForUpdate c k p = some (res, t')) : t'.committed = t.committed := by
  rcases lock_cases hx with ⟨_, rfl, _⟩ | ⟨v, _, _, _, _, rfl⟩
  · rfl
  · exact lock_committed t c k

/-- Nor does an update, in a transaction. -/
theorem update_committed {c : C} {k : K} {p : V → Bool} {f : V → V} {res : Bool}
    (hx : t.update (some c) k p f = some (res, t')) : t'.committed = t.committed := by
  rcases update_cases hx with ⟨_, rfl, _⟩ | ⟨v, _, _, _, _, rfl⟩
  · rfl
  · exact set_committed _ _ _ rfl

/-- A commit keeps the property: a version moves, and another one may go. -/
theorem Every.commit (h : t.Every P) (c : C) : (t.commit c).Every P := by
  refine h.shrink (fun k v hv => ?_)
  simp only [Table.commit, mapRows, Row.commit] at hv
  cases hr : (t.row k).held with
  | none =>
      rw [hr] at hv
      exact hv
  | some q =>
      rcases q with ⟨c', p⟩
      rw [hr] at hv
      by_cases hc : c' = c
      · simp only [if_pos hc] at hv
        rcases mem_versions hv with hv | ⟨_, hv⟩
        -- What becomes committed was a version of the row before.
        · cases p with
          | none => exact mem_versions_committed hv
          | some w =>
              simp only [Option.some_or, Option.some.injEq] at hv
              exact mem_versions_written (by rw [hr, hv])
        · simp only [reduceCtorEq] at hv
      · simp only [if_neg hc] at hv
        exact hv

/-- A rollback keeps it: a version goes. -/
theorem Every.rollback (h : t.Every P) (c : C) : (t.rollback c).Every P := by
  refine h.shrink (fun k v hv => ?_)
  simp only [Table.rollback, mapRows, Row.rollback] at hv
  cases hr : (t.row k).held with
  | none =>
      rw [hr] at hv
      exact hv
  | some q =>
      rcases q with ⟨c', p⟩
      rw [hr] at hv
      by_cases hc : c' = c
      · simp only [if_pos hc] at hv
        rcases mem_versions hv with hv | ⟨_, hv⟩
        · exact mem_versions_committed hv
        · simp only [reduceCtorEq] at hv
      · simp only [if_neg hc] at hv
        exact hv

/-! ## Rows that are not there yet -/

/-- Every version that a transaction has written to a row nobody has committed
    has the property, which may speak of the transaction. -/
def EveryNew (P : C → K → V → Prop) (t : Table K V C) : Prop :=
  ∀ k c v, t.committed k = none → (t.row k).held = some (c, some v) → P c k v

variable {Q Q' : C → K → V → Prop}

/-- In an empty table nobody has written a version. -/
theorem everyNew_init : (init : Table K V C).EveryNew Q := by
  intro k c v _ hv
  simp only [init, Row.empty, reduceCtorEq] at hv

/-- A weaker property. -/
theorem EveryNew.mono (h : t.EveryNew Q) (hQ : ∀ c k v, Q c k v → Q' c k v) : t.EveryNew Q' :=
  fun k c v hnone hv => hQ c k v (h k c v hnone hv)

/-- A statement that writes at most one version, which has the property. -/
theorem EveryNew.adds (h : t.EveryNew Q) {c : C} {k : K} {R : V → Prop} (hadds : Adds t t' c k R)
    (hR : ∀ v, R v → Q c k v) : t'.EveryNew Q := by
  intro k' u v hnone hv
  -- The version was there before, in a row that was not, or it is the one written now.
  rcases hadds.2 k' u v hv with hold | ⟨rfl, rfl, hnew⟩
  · rw [hadds.1] at hnone
    exact h k' u v hnone hold
  · exact hR v hnew

/-- A lock writes no version. -/
theorem EveryNew.selectForUpdate (h : t.EveryNew Q) {c : C} {k : K} {p : V → Bool}
    {res : Option V} (hx : t.selectForUpdate c k p = some (res, t')) : t'.EveryNew Q :=
  h.adds (lock_adds hx) (fun _ hf => hf.elim)

/-- An insertion keeps the property if the new row has it. -/
theorem EveryNew.insert [DecidableEq X] (h : t.EveryNew Q) {ix : List (UniqueIndex V X)} {c : C}
    {k : K} {v : V} (hx : t.insert ix (some c) k v = some (.ok (), t')) (hv : Q c k v) :
    t'.EveryNew Q := by
  refine h.adds (insert_adds hx) (fun v' hv' => ?_)
  rw [hv']
  exact hv

/-- What a transaction sees of a row that is not there is what it has written
    to it, so what it writes now need only follow from that. -/
theorem EveryNew.update (h : t.EveryNew Q) {c : C} {k : K} {p : V → Bool} {f : V → V} {res : Bool}
    (hx : t.update (some c) k p f = some (res, t')) (hf : ∀ v, Q c k v → Q c k (f v)) :
    t'.EveryNew Q := by
  intro k' u w hnone hw
  rw [update_committed hx] at hnone
  rcases update_cases hx with ⟨_, rfl, _⟩ | ⟨v, _, hview, _, _, rfl⟩
  · exact h k' u w hnone hw
  by_cases hk : k' = k
  · subst hk
    rw [set_row_self] at hw
    simp only [Row.put, Option.some.injEq, Prod.mk.injEq] at hw
    rcases hw with ⟨rfl, rfl⟩
    -- The row that the update saw is the transaction's own version.
    refine hf v (h k' c v hnone ?_)
    simp only [view, Row.view] at hview
    split at hview
    · rename_i d w hheld
      by_cases hd : some c = some d
      · rw [if_pos hd, Option.some.injEq] at hview
        rw [hheld, hview, Option.some.inj hd]
      · rw [if_neg hd] at hview
        exact absurd (hview.symm.trans hnone) (Option.some_ne_none v)
    · exact absurd (hview.symm.trans hnone) (Option.some_ne_none v)
  · rw [set_row_of_ne t k k' _ hk] at hw
    exact h k' u w hnone hw

/-- The end of a transaction takes no row away. So a row that is not there after
    it was not there before it. -/
theorem EveryNew.commit (h : t.EveryNew Q) (c : C) : (t.commit c).EveryNew Q := by
  intro k u v hnone hv
  have hold := held_of_commit hv
  refine h k u v ?_ hold
  -- If the version had been that of the transaction that commits, the row would be
  -- there now.
  simp only [Table.committed, Table.commit, mapRows, Row.commit, hold] at hnone
  split at hnone
  · simp only [Option.some_or, reduceCtorEq] at hnone
  · exact hnone

/-- A rollback changes no committed row, and drops versions. -/
theorem EveryNew.rollback (h : t.EveryNew Q) (c : C) : (t.rollback c).EveryNew Q := by
  intro k u v hnone hv
  rw [rollback_committed] at hnone
  exact h k u v hnone (held_of_rollback hv)

/-- What a transaction is about to commit to a row that is not there has the
    property. That there is no row yet is what the write records as the old
    version. -/
theorem EveryNew.writes (h : t.EveryNew Q) {c : C} {w : Write K V} (hw : w ∈ t.writes c)
    (hold : w.old = none) : Q c w.key w.new := by
  refine h w.key c w.new ?_ (held_of_mem_writes hw)
  rw [committed_of_mem_writes hw]
  exact hold

end Table

end Concurrency
