import RemoteControl.Concurrency.Statements
import Mathlib.Logic.Function.Basic

/-!
# Transactions that Hold Many Rows

The statements of `Concurrency.RowTable` for a transaction that holds any
number of rows of a table. `Table.HoldsRows` says which: it gives, for every
key, the committed version of the row and the version the transaction has
written to it, or nothing when the transaction does not hold the row.

A transaction that changes one row and inserts another may take a key of a
unique index from the first and give it to the second. Between its statements
the key then belongs to a version that is still committed and to one that is
not, and `Table.Distinct` does not hold. What holds is that no two rows clash
however the open transactions end, each of them with all of its writes or
with none (`Table.DistinctHowever`).

A state of a transaction is thus a function from keys to held rows, and each
statement updates it under one key. `heldRows` presents such a function for a
transaction that has locked some rows and written to some of these, which is
the only shape a long transaction ever has between its statements.

## Main definitions

* `Held`: A row in the hands of a transaction, without its key.
* `Table.HoldsRows`: The rows a transaction holds.
* `heldRows`: Given rows, each with the version written to it, if any.
* `Table.keys`: The rows a statement over many rows visits.
* `Row.outcome`: What a row will be, given which transactions commit.
* `Table.DistinctHowever`: No two rows clash, whatever the outcome.

## Theorems

* `heldRows_append`, `heldRows_write`: Holding one more row, and writing one.
* `Table.HoldsRows.frame`: What others do leaves the held rows alone.
* `Table.lockRow_spec`, `Table.updateRow_spec`, `Table.insertRow_spec`,
  `Table.commitRows_spec`, `Table.rollbackRows_spec`: The statements.
* `Table.mem_writes`: What a commit is about to write.
* `Table.DistinctHowever.update`, `Table.DistinctHowever.insert`: The unique
  indexes hold across every statement.
* `Table.DistinctHowever.committed`: They hold of the committed rows.
* `Table.HoldsRows.view`: What a transaction sees.
* `Row.outcome_put`, `Row.outcome_commit`, `Row.outcome_rollback`: What a
  write, a commit and a rollback do to an outcome.
* `Table.DistinctHowever.narrow`: A statement that gives no row a new key.
-/

set_option linter.unusedSectionVars false

namespace Concurrency

variable {K V C X : Type} [DecidableEq K] [DecidableEq C]

/-- A row in the hands of a transaction: its committed version and the
    version written to it. -/
structure Held (V : Type) where
  committed : Option V
  written : Option V

/-- What the row is for the transaction that holds it. -/
def Held.current (h : Held V) : Option V := h.written.or h.committed

/-- These rows, known by their committed versions, with what was written to
    each. -/
def heldRows (key : V → K) (rows : List V) (written : V → Option V) (k : K) : Option (Held V) :=
  (rows.find? (fun v => decide (key v = k))).map (fun v => ⟨some v, written v⟩)

/-- A row that was looked up by its key has the key. -/
theorem key_of_find? {key : V → K} {rows : List V} {k : K} {v : V}
    (h : rows.find? (fun v => decide (key v = k)) = some v) : key v = k := by
  have hv := List.find?_some h
  rw [decide_eq_true_eq] at hv
  exact hv

/-- No rows are held. -/
@[simp] theorem heldRows_nil (key : V → K) (written : V → Option V) :
    heldRows key [] written = fun _ => none := rfl

/-- A row that is not held has a key that none of the held ones has. -/
theorem heldRows_eq_none {key : V → K} {rows : List V} {written : V → Option V} {k : K} :
    heldRows key rows written k = none ↔ ∀ v ∈ rows, key v ≠ k := by
  simp only [heldRows, Option.map_eq_none_iff, List.find?_eq_none, decide_eq_true_eq, ne_eq]

/-- A row of the list is held under its key. -/
theorem heldRows_of_mem {key : V → K} {rows : List V} {written : V → Option V}
    (hn : (rows.map key).Nodup) {v : V} (hv : v ∈ rows) :
    heldRows key rows written (key v) = some ⟨some v, written v⟩ := by
  induction rows with
  | nil => simp only [List.not_mem_nil] at hv
  | cons u rows ih =>
      simp only [List.map_cons, List.nodup_cons, List.mem_map, not_exists, not_and] at hn
      -- The row is the first of the list, or it comes later and has another key than
      -- the first.
      rcases List.mem_cons.mp hv with rfl | hv
      · simp only [heldRows, List.find?_cons, decide_true, Option.map_some]
      · have hne : ¬ (key u = key v) := fun hc => hn.1 v hv hc.symm
        simp only [heldRows, List.find?_cons, hne, decide_false]
        exact ih hn.2 hv

/-- What is held under a key is the row of the list with that key. -/
theorem heldRows_eq_some {key : V → K} {rows : List V} {written : V → Option V}
    (hn : (rows.map key).Nodup) {k : K} {h : Held V} :
    heldRows key rows written k = some h ↔ ∃ v ∈ rows, key v = k ∧ h = ⟨some v, written v⟩ := by
  constructor
  · intro hk
    simp only [heldRows, Option.map_eq_some_iff] at hk
    rcases hk with ⟨v, hfind, hh⟩
    exact ⟨v, List.mem_of_find?_eq_some hfind, key_of_find? hfind, hh.symm⟩
  · rintro ⟨v, hv, rfl, rfl⟩
    exact heldRows_of_mem hn hv

/-- A row with a new key, put at the end. -/
theorem nodup_keys_append {key : V → K} {rows : List V} {v : V} (hn : (rows.map key).Nodup)
    (hnew : ∀ u ∈ rows, key u ≠ key v) : ((rows ++ [v]).map key).Nodup := by
  rw [List.map_append, List.nodup_append]
  refine ⟨hn, List.nodup_singleton _, fun a ha b hb => ?_⟩
  rcases List.mem_map.mp ha with ⟨u, hu, rfl⟩
  rw [List.map_singleton, List.mem_singleton] at hb
  rw [hb]
  exact hnew u hu

/-- What was written to the rows. A write of the transaction is a row of the list
    with what was written to it. -/
theorem heldRows_eq_write {key : V → K} {rows : List V} {written : V → Option V}
    (hn : (rows.map key).Nodup) {w : Write K V} :
    heldRows key rows written w.key = some ⟨w.old, some w.new⟩ ↔
      ∃ v ∈ rows, ∃ u, written v = some u ∧ w = ⟨key v, some v, u⟩ := by
  rw [heldRows_eq_some hn]
  constructor
  · rintro ⟨v, hv, hk, hh⟩
    rw [Held.mk.injEq] at hh
    exact ⟨v, hv, w.new, hh.2.symm, by rw [hk, ← hh.1]⟩
  · rintro ⟨v, hv, u, hu, rfl⟩
    exact ⟨v, hv, rfl, by rw [hu]⟩

/-- Holding one more row. Its key is a new one. -/
theorem heldRows_append {key : V → K} {rows : List V} {written : V → Option V} {v : V}
    (hnew : ∀ u ∈ rows, key u ≠ key v) :
    Function.update (heldRows key rows written) (key v) (some ⟨some v, written v⟩) =
      heldRows key (rows ++ [v]) written := by
  funext k
  by_cases hk : k = key v
  -- No row of the list has the new key, so the lookup comes to the end.
  · subst hk
    have hnone : rows.find? (fun u => decide (key u = key v)) = none := by
      simp only [List.find?_eq_none, decide_eq_true_eq]
      exact hnew
    simp only [Function.update_self, heldRows, List.find?_append, hnone, Option.none_or,
      List.find?_cons, decide_true, Option.map_some]
  · have hne : ¬ (key v = k) := fun hc => hk hc.symm
    simp only [Function.update_of_ne hk, heldRows, List.find?_append, List.find?_cons, hne,
      decide_false, List.find?_nil, Option.or_none]

/-- Writing one of the rows. The list stays, and what is written to the row is
    replaced. -/
theorem heldRows_write [DecidableEq V] {key : V → K} {rows : List V} {written : V → Option V}
    (hn : (rows.map key).Nodup) {v : V} (hv : v ∈ rows) (u : V) :
    Function.update (heldRows key rows written) (key v) (some ⟨some v, some u⟩) =
      heldRows key rows (Function.update written v (some u)) := by
  funext k
  by_cases hk : k = key v
  · subst hk
    rw [Function.update_self, heldRows_of_mem hn hv, Function.update_self]
  · rw [Function.update_of_ne hk]
    simp only [heldRows]
    cases hfind : rows.find? (fun u => decide (key u = k)) with
    | none => rfl
    | some x =>
        have hx : key x = k := key_of_find? hfind
        -- Two rows of the list with different keys are different rows.
        have hne : x ≠ v := by
          rintro rfl
          exact hk hx.symm
        rw [Option.map_some, Option.map_some, Function.update_of_ne hne]

/-- What is written when one row more is. Either it is the write that is new, or
    one under another key. -/
theorem update_eq_write {f : K → Option (Held V)} {k : K} {o : Option V} {v : V}
    {w : Write K V} :
    Function.update f k (some ⟨o, some v⟩) w.key = some ⟨w.old, some w.new⟩ ↔
      w = ⟨k, o, v⟩ ∨ (w.key ≠ k ∧ f w.key = some ⟨w.old, some w.new⟩) := by
  rcases w with ⟨key, old, new⟩
  -- The updated row has exactly one write, the others keep theirs.
  by_cases hk : key = k
  · subst hk
    simp only [Function.update_self, Option.some.injEq, Held.mk.injEq, Write.mk.injEq, true_and,
      ne_eq, not_true_eq_false, false_and, or_false]
    constructor
    · rintro ⟨rfl, rfl⟩
      exact ⟨rfl, rfl⟩
    · rintro ⟨rfl, rfl⟩
      exact ⟨rfl, rfl⟩
  · simp only [Function.update_of_ne hk, Write.mk.injEq, hk, false_and, false_or, ne_eq,
      not_false_eq_true, true_and]

namespace Table

/-- Transaction `c` holds these rows of the table, and no others. -/
def HoldsRows (t : Table K V C) (c : C) (f : K → Option (Held V)) : Prop :=
  ∀ k, match f k with
    | some h => t.row k = ⟨h.committed, some (c, h.written)⟩
    | none => ¬ (t.row k).HeldBy c

/-- The row under a key that the transaction holds. -/
theorem HoldsRows.held {t : Table K V C} {c : C} {f : K → Option (Held V)} (hh : t.HoldsRows c f)
    {k : K} {h : Held V} (hk : f k = some h) : t.row k = ⟨h.committed, some (c, h.written)⟩ := by
  have hrow := hh k
  rw [hk] at hrow
  exact hrow

/-- A row under another key is not held by it. -/
theorem HoldsRows.unheld {t : Table K V C} {c : C} {f : K → Option (Held V)}
    (hh : t.HoldsRows c f) {k : K} (hk : f k = none) : ¬ (t.row k).HeldBy c := by
  have hrow := hh k
  rw [hk] at hrow
  exact hrow

/-- What others do leaves a transaction's rows alone. A row it holds cannot be
    written by them, and a row it does not hold they cannot make it hold. -/
theorem HoldsRows.frame {t t' : Table K V C} {c : C} {f : K → Option (Held V)} {a : Option C}
    (hh : t.HoldsRows c f) (hu : Untouched a t t') (ha : a ≠ some c) : t'.HoldsRows c f := by
  intro k
  cases hk : f k with
  | some h =>
      have hrow := hh.held hk
      show t'.row k = ⟨h.committed, some (c, h.written)⟩
      rw [hu k c ha (.inl ⟨h.written, by rw [hrow]⟩)]
      exact hrow
  | none =>
      intro hheld
      rw [hu k c ha (.inr hheld)] at hheld
      exact hh.unheld hk hheld

/-- What a transaction sees: its own rows as it has left them, the others as
    they are committed. -/
theorem HoldsRows.view {t : Table K V C} {c : C} {f : K → Option (Held V)} (hh : t.HoldsRows c f)
    (k : K) : t.view (some c) k = (f k).elim (t.committed k) Held.current := by
  unfold Table.view
  cases hk : f k with
  | some h =>
      rw [hh.held hk]
      -- What was written hides what is committed.
      cases hw : h.written with
      | none => simp only [Row.view, Held.current, hw, Option.elim_some, Option.none_or]
      | some v => simp only [Row.view, Held.current, hw, if_true, Option.elim_some, Option.some_or]
  | none =>
      have hnot := hh.unheld hk
      simp only [Row.view, committed, Option.elim_none]
      cases hr : (t.row k).held with
      | none => rfl
      | some q =>
          rcases q with ⟨c', _ | v⟩
          · rfl
          -- Someone else's version, which the transaction does not see.
          · have hne : ¬ (some c = some c') := by
              rw [Option.some.injEq]
              rintro rfl
              exact hnot ⟨some v, hr⟩
            simp only [if_neg hne]

/-- The committed version of a held row is the one that was there when it was
    locked. -/
theorem HoldsRows.committed_eq {t : Table K V C} {c : C} {f : K → Option (Held V)}
    (hh : t.HoldsRows c f) {k : K} {h : Held V} (hk : f k = some h) :
    t.committed k = h.committed := by
  rw [committed, hh.held hk]

/-- Changing one row that is free for the transaction into one it holds. -/
theorem HoldsRows.set {t : Table K V C} {c : C} {f : K → Option (Held V)} (hh : t.HoldsRows c f)
    {k : K} {r : Row V C} {h : Held V} (hr : r = ⟨h.committed, some (c, h.written)⟩) :
    (t.set k r).HoldsRows c (Function.update f k (some h)) := by
  intro k'
  by_cases hk : k' = k
  · subst hk
    simp only [Function.update_self, set_row_self]
    exact hr
  · rw [Function.update_of_ne hk, set_row_of_ne t k k' r hk]
    exact hh k'

/-! ## Statements -/

/-- `SELECT ... FOR UPDATE` of one row. If it answers with a row, that row is
    committed, was free, and is held now. Otherwise there is none that meets the
    condition. -/
theorem lockRow_spec {t t' : Table K V C} {c : C} {k : K} {p : V → Bool} {res : Option V}
    {f : K → Option (Held V)} (hh : t.HoldsRows c f) (hk : f k = none)
    (h : t.selectForUpdate c k p = some (res, t')) :
    Untouched (some c) t t' ∧ t'.committed = t.committed ∧
      (res = none → t' = t ∧ ∀ v, t.committed k = some v → p v = false) ∧
      ∀ v, res = some v → t.committed k = some v ∧ p v = true ∧ (t.row k).held = none ∧
        t' = t.set k ((t.row k).lock c) ∧
        t'.HoldsRows c (Function.update f k (some ⟨some v, none⟩)) := by
  -- The row is not held yet, so what is seen is what is committed.
  have hview := hh.view k
  rw [hk, Option.elim_none] at hview
  rcases lock_cases h with ⟨rfl, rfl, hno⟩ | ⟨v, rfl, hv, hp, hfree, rfl⟩
  · refine ⟨Untouched.refl _ _, rfl, fun _ => ⟨rfl, fun v hv => hno v (hview.trans hv)⟩,
      fun v hv => ?_⟩
    simp only [reduceCtorEq] at hv
  · rw [hview] at hv
    have hnone := held_eq_none hfree (hh.unheld hk)
    have hc : (t.row k).committed = some v := hv
    refine ⟨lock_untouched hfree, lock_committed t c k, fun hc => ?_, fun v' hv' => ?_⟩
    · simp only [reduceCtorEq] at hc
    · rw [Option.some.injEq] at hv'
      subst hv'
      exact ⟨hv, hp, hnone, rfl, hh.set (by simp only [Row.lock, hnone, hc])⟩

/-- `UPDATE` of one row by a transaction. If a row was changed, it is held now
    with the new version. Otherwise what is seen does not meet the condition. -/
theorem updateRow_spec {t t' : Table K V C} {c : C} {k : K} {p : V → Bool} {g : V → V}
    {res : Bool} {f : K → Option (Held V)} (hh : t.HoldsRows c f)
    (h : t.update (some c) k p g = some (res, t')) :
    Untouched (some c) t t' ∧ t'.committed = t.committed ∧
      (res = false → t' = t ∧ ∀ v, t.view (some c) k = some v → p v = false) ∧
      (res = true → ∃ v, t.view (some c) k = some v ∧ p v = true ∧
        (t.row k).freeFor (some c) = true ∧ t' = t.set k ((t.row k).put (some c) (g v)) ∧
        t'.HoldsRows c (Function.update f k (some ⟨t.committed k, some (g v)⟩))) := by
  rcases update_cases h with ⟨rfl, rfl, hno⟩ | ⟨v, rfl, hv, hp, hfree, rfl⟩
  · refine ⟨Untouched.refl _ _, rfl, fun _ => ⟨rfl, hno⟩, fun hc => ?_⟩
    simp only [Bool.false_eq_true] at hc
  · refine ⟨put_untouched hfree, set_committed _ _ _ rfl, fun hc => ?_,
      fun _ => ⟨v, hv, hp, hfree, rfl, hh.set rfl⟩⟩
    simp only [Bool.true_eq_false] at hc

/-- `INSERT` by a transaction. It is refused without a trace, or the key was
    unused and the new row is held now. -/
theorem insertRow_spec [DecidableEq X] {ix : List (UniqueIndex V X)} {t t' : Table K V C} {c : C}
    {k : K} {v : V} {res : Except String Unit} {f : K → Option (Held V)} (hh : t.HoldsRows c f)
    (h : t.insert ix (some c) k v = some (res, t')) :
    Untouched (some c) t t' ∧ t'.committed = t.committed ∧
      (∀ name, res = .error name → t' = t) ∧
      (res = .ok () → t.committed k = none ∧ f k = none ∧
        t'.HoldsRows c (Function.update f k (some ⟨none, some v⟩))) := by
  rcases insert_cases h with ⟨hk, herr, hok⟩
  have hempty := row_empty_of_not_mem hk
  refine ⟨insert_untouched h, insert_committed h, fun name hname => (herr name hname).1,
    fun hres => ?_⟩
  -- An unused key has an empty row, which nobody can hold.
  have hnone : f k = none := by
    cases hf : f k with
    | none => rfl
    | some h =>
        have hrow := hh.held hf
        rw [hempty] at hrow
        simp only [Row.empty, Row.mk.injEq, reduceCtorEq, and_false] at hrow
  rw [(hok hres).1]
  refine ⟨by rw [committed, hempty]; rfl, hnone, hh.set ?_⟩
  rw [hempty]
  rfl

/-- The writes of a transaction are its held rows that it has written. -/
theorem mem_writes {t : Table K V C} {c : C} {f : K → Option (Held V)} (hh : t.HoldsRows c f)
    {w : Write K V} : w ∈ t.writes c ↔ f w.key = some ⟨w.old, some w.new⟩ := by
  -- What is written to a row, if it is held and was written at all.
  have hwrite : ∀ k, t.writeAt c k = (f k).bind (fun h => h.written.map (⟨k, h.committed, ·⟩)) := by
    intro k
    cases hk : f k with
    | none => rw [writeAt_of_not_held (hh.unheld hk), Option.bind_none]
    | some h =>
        simp only [writeAt, hh.held hk, Option.bind_some]
        cases h.written with
        | none => rfl
        | some v => simp only [if_true, Option.map_some]
  simp only [writes, List.mem_filterMap, hwrite, Option.bind_eq_some_iff, Option.map_eq_some_iff]
  constructor
  · rintro ⟨k, _, h, hk, v, hv, rfl⟩
    rw [hk, ← hv]
  · intro hk
    refine ⟨w.key, ?_, _, hk, w.new, rfl, rfl⟩
    -- A row that is held is in the table.
    by_contra hdom
    have hrow := hh.held hk
    rw [t.support w.key hdom] at hrow
    simp only [Row.empty, Row.mk.injEq, reduceCtorEq, and_false] at hrow

/-- `COMMIT`, for a transaction that holds any rows of the table. It holds none of
    them afterwards. -/
theorem commitRows_spec (t : Table K V C) (c : C) :
    Untouched (some c) t (t.commit c) ∧ (t.commit c).HoldsRows c (fun _ => none) ∧
      (t.commit c).committed = applyWrites (t.writes c) t.committed :=
  ⟨commit_untouched t c, not_heldBy_commit t c, commit_committed t c⟩

/-- `ROLLBACK`, likewise, and nothing is written. -/
theorem rollbackRows_spec (t : Table K V C) (c : C) :
    Untouched (some c) t (t.rollback c) ∧ (t.rollback c).HoldsRows c (fun _ => none) ∧
      (t.rollback c).committed = t.committed := rollback_spec t c

/-! ## Many rows -/

/-- The keys of the rows that meet a condition, in the order the rows were
    inserted. A statement over many rows visits these one by one. -/
def keys (t : Table K V C) (a : Option C) (p : V → Bool) : List K :=
  t.dom.filter (fun k => (t.select a k p).isSome)

/-- No row is visited twice. -/
theorem keys_nodup (t : Table K V C) (a : Option C) (p : V → Bool) : (t.keys a p).Nodup :=
  t.nodup.filter _

/-- The rows that are visited are those that are seen and meet the condition. -/
theorem mem_keys {t : Table K V C} {a : Option C} {p : V → Bool} {k : K} :
    k ∈ t.keys a p ↔ ∃ v, t.view a k = some v ∧ p v = true := by
  simp only [keys, List.mem_filter, Option.isSome_iff_exists, select_eq_some]
  constructor
  · rintro ⟨_, v, h⟩
    exact ⟨v, h⟩
  · rintro ⟨v, h⟩
    exact ⟨mem_dom_of_view h.1, v, h⟩

end Table

/-! ## Outcomes -/

/-- What a row will be once the open transactions have ended, the ones in
    `out` by a commit. -/
def Row.outcome (r : Row V C) (out : C → Bool) : Option V :=
  match r.held with
  | some (c, some v) => if out c = true then some v else r.committed
  | _ => r.committed

namespace Row

/-- An unused key will have no row. -/
theorem outcome_empty (out : C → Bool) : (Row.empty : Row V C).outcome out = none := rfl

/-- If no transaction commits, the committed rows stay. -/
theorem outcome_none (r : Row V C) : r.outcome (fun _ => false) = r.committed := by
  rcases r with ⟨v, _ | ⟨c, _ | w⟩⟩ <;> rfl

/-- What a row will be is one of the versions it has. -/
theorem mem_versions_outcome {r : Row V C} {out : C → Bool} {v : V}
    (h : r.outcome out = some v) : v ∈ r.versions := by
  rcases r with ⟨v₀, _ | ⟨c, _ | w⟩⟩
  · exact Table.mem_versions_committed h
  · exact Table.mem_versions_committed h
  · simp only [outcome] at h
    split at h
    · rw [Option.some.injEq] at h
      rw [← h]
      exact Table.mem_versions_written rfl
    · exact Table.mem_versions_committed h

/-- For the transaction that may write the row, the outcome of its commit is
    what it sees. -/
theorem outcome_of_freeFor {r : Row V C} {c : C} {out : C → Bool}
    (hfree : r.freeFor (some c) = true) (hout : out c = true) :
    r.outcome out = r.view (some c) := by
  rcases r with ⟨v, _ | ⟨c', _ | w⟩⟩
  · rfl
  · rfl
  · simp only [freeFor, decide_eq_true_eq, Option.some.injEq] at hfree
    simp only [outcome, view, ← hfree, hout, if_true]

/-- A version written by a transaction is what the row will be if it commits, and
    otherwise the row will be what it would have been. -/
theorem outcome_put {r : Row V C} {c : C} {v : V} (out : C → Bool)
    (hfree : r.freeFor (some c) = true) :
    (r.put (some c) v).outcome out = if out c = true then some v else r.outcome out := by
  by_cases hout : out c = true
  · simp only [put, outcome, hout, if_true]
  · rw [if_neg hout]
    rcases r with ⟨v₀, _ | ⟨c', _ | w⟩⟩
    · simp only [put, outcome, if_neg hout]
    · simp only [put, outcome, if_neg hout]
    · simp only [freeFor, decide_eq_true_eq, Option.some.injEq] at hfree
      simp only [put, outcome, ← hfree, if_neg hout]

/-- A lock decides nothing about what the row will be. -/
theorem outcome_lock (r : Row V C) (c : C) (out : C → Bool) :
    (r.lock c).outcome out = r.outcome out := by
  rcases r with ⟨v, _ | q⟩ <;> rfl

/-- What a row will be after a commit is what it will be in the outcomes in which
    that transaction commits. -/
theorem outcome_commit (r : Row V C) (c : C) (out : C → Bool) :
    (r.commit c).outcome out = r.outcome (Function.update out c true) := by
  rcases r with ⟨v, _ | ⟨c', _ | w⟩⟩
  · rfl
  · by_cases hc : c' = c <;> simp only [commit, outcome, hc, if_true, if_false, Option.none_or]
  · by_cases hc : c' = c
    · simp only [commit, outcome, hc, if_true, Option.some_or, Function.update_self]
    · simp only [commit, outcome, if_neg hc, Function.update_of_ne hc]

/-- What a row will be after a rollback is what it will be in the outcomes in
    which that transaction does not commit. -/
theorem outcome_rollback (r : Row V C) (c : C) (out : C → Bool) :
    (r.rollback c).outcome out = r.outcome (Function.update out c false) := by
  rcases r with ⟨v, _ | ⟨c', _ | w⟩⟩
  · rfl
  · by_cases hc : c' = c <;> simp only [rollback, outcome, hc, if_true, if_false]
  · by_cases hc : c' = c
    · simp only [rollback, outcome, hc, if_true, Function.update_self, Bool.false_eq_true,
        if_false]
    · simp only [rollback, outcome, if_neg hc, Function.update_of_ne hc]

end Row

namespace Table

variable [DecidableEq X]

/-- No two rows clash, whichever of the open transactions commit. -/
def DistinctHowever (ix : List (UniqueIndex V X)) (t : Table K V C) : Prop :=
  ∀ i ∈ ix, ∀ out k k', k ≠ k' → ∀ v v', (t.row k).outcome out = some v →
    (t.row k').outcome out = some v' → i.clash v v' = false

/-- There is no row yet that could clash. -/
theorem distinctHowever_init (ix : List (UniqueIndex V X)) :
    (init : Table K V C).DistinctHowever ix := by
  intro i _ out k k' _ v v' hv _
  simp only [init, Row.outcome_empty, reduceCtorEq] at hv

/-- A statement that gives no row an outcome with a key it did not have. The
    outcomes may come about differently afterwards. -/
theorem DistinctHowever.narrow {ix : List (UniqueIndex V X)} {t t' : Table K V C}
    (h : t.DistinctHowever ix) (before : (C → Bool) → C → Bool)
    (hkeys : ∀ i ∈ ix, ∀ out k v, (t'.row k).outcome out = some v → i.key v = none ∨
      ∃ v₀, (t.row k).outcome (before out) = some v₀ ∧ i.key v₀ = i.key v) :
    t'.DistinctHowever ix := by
  intro i hi out k k' hne v v' hv hv'
  rw [clash_eq_false]
  by_cases hkey : i.key v = none
  · exact .inl hkey
  -- Both keys were there before, in the outcome that `before` names.
  rcases hkeys i hi out k v hv with hnone | ⟨v₀, hv₀, heq⟩
  · exact .inl hnone
  rcases hkeys i hi out k' v' hv' with hnone | ⟨v₀', hv₀', heq'⟩
  · refine .inr (fun hc => hkey ?_)
    rw [hc, hnone]
  · rw [← heq, ← heq']
    exact clash_eq_false.mp (h i hi (before out) k k' hne v₀ v₀' hv₀ hv₀')

/-- A statement after which every row will be what it would have been, in an
    outcome of before. -/
theorem DistinctHowever.outcomes {ix : List (UniqueIndex V X)} {t t' : Table K V C}
    (h : t.DistinctHowever ix) (before : (C → Bool) → C → Bool)
    (hrows : ∀ out k, (t'.row k).outcome out = (t.row k).outcome (before out)) :
    t'.DistinctHowever ix :=
  h.narrow before (fun _ _ out k v hv => .inr ⟨v, by rw [← hrows out k, hv], rfl⟩)

/-- A lock keeps the unique indexes. -/
theorem DistinctHowever.lock {ix : List (UniqueIndex V X)} {t : Table K V C}
    (h : t.DistinctHowever ix) (k : K) (c : C) :
    (t.set k ((t.row k).lock c)).DistinctHowever ix := by
  refine h.outcomes id (fun out k' => ?_)
  by_cases hk : k' = k
  · rw [hk, set_row_self]
    exact Row.outcome_lock _ _ _
  · rw [set_row_of_ne t k k' _ hk]
    rfl

/-- An update that gives the row no key it does not have for its transaction. -/
theorem DistinctHowever.update {ix : List (UniqueIndex V X)} {t : Table K V C}
    (h : t.DistinctHowever ix) {k : K} {c : C} {v v₀ : V}
    (hfree : (t.row k).freeFor (some c) = true) (hview : t.view (some c) k = some v₀)
    (hkey : ∀ i ∈ ix, i.key v = none ∨ i.key v₀ = i.key v) :
    (t.set k ((t.row k).put (some c) v)).DistinctHowever ix := by
  refine h.narrow id (fun i hi out k' w hw => ?_)
  by_cases hk : k' = k
  · subst hk
    rw [set_row_self, Row.outcome_put out hfree] at hw
    -- The new version only counts where the transaction commits.
    by_cases hout : out c = true
    · rw [if_pos hout, Option.some.injEq] at hw
      rw [← hw]
      rcases hkey i hi with hnone | heq
      · exact .inl hnone
      · exact .inr ⟨v₀, by rw [id, Row.outcome_of_freeFor hfree hout]; exact hview, heq⟩
    · rw [if_neg hout] at hw
      exact .inr ⟨w, hw, rfl⟩
  · rw [set_row_of_ne t k k' _ hk] at hw
    exact .inr ⟨w, hw, rfl⟩

/-- A commit keeps them, because it only settles what the outcome of one
    transaction is. -/
theorem DistinctHowever.commit {ix : List (UniqueIndex V X)} {t : Table K V C}
    (h : t.DistinctHowever ix) (c : C) : (t.commit c).DistinctHowever ix :=
  h.outcomes (fun out => Function.update out c true) (fun out _ => Row.outcome_commit _ c out)

/-- So does a rollback. -/
theorem DistinctHowever.rollback {ix : List (UniqueIndex V X)} {t : Table K V C}
    (h : t.DistinctHowever ix) (c : C) : (t.rollback c).DistinctHowever ix :=
  h.outcomes (fun out => Function.update out c false) (fun out _ => Row.outcome_rollback _ c out)

/-- An insertion that succeeds clashes with nothing its actor sees. -/
theorem insert_visible {ix : List (UniqueIndex V X)} {t t' : Table K V C} {a : Option C} {k : K}
    {v : V} (h : t.insert ix a k v = some (.ok (), t')) {i : UniqueIndex V X} (hi : i ∈ ix)
    {k' : K} {v' : V} (hv : t.view a k' = some v') : i.clash v v' = false := by
  simp only [insert] at h
  split at h
  · simp only [reduceCtorEq] at h
  · split at h
    · simp only [reduceCtorEq] at h
    · cases hvio : t.violated ix a v with
      | some j =>
          rw [hvio] at h
          simp only [Option.some.injEq, Prod.mk.injEq, reduceCtorEq, false_and] at h
      | none =>
          -- No index was found to be violated, and this row was looked at.
          have hseen := List.find?_eq_none.mp hvio i hi
          simp only [List.any_eq_true, not_exists, not_and, Bool.not_eq_true] at hseen
          have hnot := hseen k' (mem_dom_of_view hv)
          rw [hv, Option.any_some] at hnot
          exact hnot

/-- An insertion, whose transaction may have given up the key of the new row in
    another row it holds. This is why the outcomes are spoken of and not the
    versions: as versions, the old row and the new one clash. -/
theorem DistinctHowever.insert {ix : List (UniqueIndex V X)} {t t' : Table K V C} {c : C} {k : K}
    {v : V} {res : Except String Unit} (h : t.DistinctHowever ix)
    (hins : t.insert ix (some c) k v = some (res, t')) : t'.DistinctHowever ix := by
  rcases insert_cases hins with ⟨hk, herr, hok⟩
  cases res with
  | error name =>
      rw [(herr name rfl).1]
      exact h
  | ok u =>
      rcases hok rfl with ⟨rfl, hclash⟩
      have hempty := row_empty_of_not_mem hk
      have hfree : (t.row k).freeFor (some c) = true := by rw [hempty]; rfl
      -- Against a row of others every version counts, against one of its own
      -- only the version it sees, because the two commit together.
      have hother : ∀ i ∈ ix, ∀ out, out c = true → ∀ k' v',
          (t.row k').outcome out = some v' → i.clash v v' = false := by
        intro i hi out hout k' v' hv'
        by_cases hheld : (t.row k').HeldBy c
        · have hfree' : (t.row k').freeFor (some c) = true := by
            rcases hheld with ⟨p, hp⟩
            simp only [Row.freeFor, hp, decide_true]
          rw [Row.outcome_of_freeFor hfree' hout] at hv'
          exact insert_visible hins hi hv'
        · refine hclash i hi k' (fun c' hc' => ?_) v' (Row.mem_versions_outcome hv')
          rw [Option.some.injEq] at hc'
          rw [← hc']
          exact hheld
      -- The new row is there only where its transaction commits.
      have hnew : ∀ out w, ((t.row k).put (some c) v).outcome out = some w →
          out c = true ∧ w = v := by
        intro out w hw
        rw [Row.outcome_put out hfree] at hw
        by_cases hout : out c = true
        · rw [if_pos hout, Option.some.injEq] at hw
          exact ⟨hout, hw.symm⟩
        · rw [if_neg hout, hempty, Row.outcome_empty] at hw
          simp only [reduceCtorEq] at hw
      -- Of two different rows at most one is the new one.
      intro i hi out k₁ k₂ hne v₁ v₂ hv₁ hv₂
      by_cases h₁ : k₁ = k
      · rw [h₁, set_row_self] at hv₁
        rw [set_row_of_ne t k k₂ _ (fun hc => hne (by rw [h₁, hc]))] at hv₂
        rcases hnew out v₁ hv₁ with ⟨hout, rfl⟩
        exact hother i hi out hout k₂ v₂ hv₂
      · rw [set_row_of_ne t k k₁ _ h₁] at hv₁
        by_cases h₂ : k₂ = k
        · rw [h₂, set_row_self] at hv₂
          rcases hnew out v₂ hv₂ with ⟨hout, rfl⟩
          exact clash_comm (hother i hi out hout k₁ v₁ hv₁)
        · rw [set_row_of_ne t k k₂ _ h₂] at hv₂
          exact h i hi out k₁ k₂ hne v₁ v₂ hv₁ hv₂

/-- The indexes on the committed rows: two rows with the same key are one. The
    outcome in which no open transaction commits is the one that matters here. -/
theorem DistinctHowever.committed {ix : List (UniqueIndex V X)} {t : Table K V C}
    (h : t.DistinctHowever ix) {i : UniqueIndex V X} (hi : i ∈ ix) {k k' : K} {v v' : V} {x : X}
    (hv : t.committed k = some v) (hv' : t.committed k' = some v') (hx : i.key v = some x)
    (hx' : i.key v' = some x) : k = k' := by
  by_contra hne
  have hclash := h i hi (fun _ => false) k k' hne v v' (by rw [Row.outcome_none]; exact hv)
    (by rw [Row.outcome_none]; exact hv')
  rw [clash_eq_false, hx, hx'] at hclash
  rcases hclash with hc | hc
  · simp only [reduceCtorEq] at hc
  · exact hc rfl

end Table

end Concurrency
