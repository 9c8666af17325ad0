import Mathlib.Data.List.Nodup
import Mathlib.Data.Option.Basic

/-!
# Tables with Row Locks

A database table at the isolation level where each statement sees what was
committed when it ran, and where a writer holds its rows until its
transaction ends.

A row carries its committed version and, while a transaction holds it, that
transaction and the version it has written, if any. An inserted row has no
committed version until its transaction commits. The uncommitted version
lives inside the lock, so a written row that nobody holds cannot be built.

A statement is run by an actor. `some c` is the transaction `c`, whose
statements see its own uncommitted versions; `none` is a statement on its
own, which commits as it ends and so never holds a row.

Waiting is an absent answer. A conditional statement first looks for its row
in what it sees: if the row does not qualify the statement is over and has
touched nothing, held or not; if it qualifies and another transaction holds
it, the statement has no answer yet. When it runs at last it evaluates its
condition on the row as it is then, which is the re-evaluation the isolation
level prescribes for a row that was locked.

A unique index is a name and a partial key: `none` keeps a row out of the
index, which is how a partial index is given its condition. An insertion
waits while another transaction has an uncommitted version of a row that
clashes with the new one, and fails when it sees a row that clashes. Only
insertions consult the indexes: `Table.Distinct.narrow` asks of every other
write that it gives the row no new key, and the model's updates meet that.

The keys in use are kept in a list, in the order the rows were inserted. The
order is what a query without a sort answers with, and the list makes a query
over a table computable although its rows are a function.

## Main definitions

* `Row`, `Table`: Rows with their locks, and a table of them.
* `Table.select`, `Table.scan`, `Table.anyRow`: Reading.
* `Table.selectForUpdate`, `Table.update`, `Table.insert`: Statements that
  lock, write, and insert.
* `Table.commit`, `Table.rollback`: The two ends of a transaction.
* `Table.writes`: What a commit is about to write.

## Theorems

* `Table.select_eq_some`, `Table.anyRow_iff`, `Table.mem_scan`: Reading in
  terms of what the actor sees.
* `Table.commit_committed`: A commit changes the committed rows by its writes.
* `Table.rollback_committed`: A rollback changes none.
* `applyWrites_cases`, `applyWrites_same`, `applyWrites_insert`: The rows
  after some writes, under one key.
* `Table.select_eq_none`: When nothing is read.
-/

set_option linter.unusedSectionVars false

namespace Concurrency

variable {K V C X : Type}

/-- A row: its committed version, and its holder with the holder's version. -/
structure Row (V C : Type) where
  committed : Option V
  held : Option (C × Option V)

namespace Row

/-- The row nobody has inserted. -/
def empty : Row V C := { committed := none, held := none }

/-- Transaction `c` holds the row. -/
def HeldBy (r : Row V C) (c : C) : Prop := ∃ p, r.held = some (c, p)

/-- The versions of a row: the committed one and the uncommitted one. -/
def versions (r : Row V C) : List V :=
  r.committed.toList ++ (match r.held with
    | some (_, some v) => [v]
    | _ => [])

/-- The end of transaction `c`, keeping what it wrote. -/
def commit [DecidableEq C] (c : C) (r : Row V C) : Row V C :=
  match r.held with
  | some (c', p) => if c' = c then { committed := p.or r.committed, held := none } else r
  | none => r

/-- The end of transaction `c`, dropping what it wrote. -/
def rollback [DecidableEq C] (c : C) (r : Row V C) : Row V C :=
  match r.held with
  | some (c', _) => if c' = c then { committed := r.committed, held := none } else r
  | none => r

variable [DecidableEq C]

/-- What an actor's statements see of the row. -/
def view (r : Row V C) (a : Option C) : Option V :=
  match r.held with
  | some (c, some v) => if a = some c then some v else r.committed
  | _ => r.committed

/-- No other transaction holds the row. -/
def freeFor (r : Row V C) (a : Option C) : Bool :=
  match r.held with
  | some (c, _) => decide (a = some c)
  | none => true

/-- Hold the row, keeping what was already written to it. -/
def lock (r : Row V C) (c : C) : Row V C :=
  match r.held with
  | some _ => r
  | none => { r with held := some (c, none) }

/-- Write the row: at once for a statement on its own, inside the lock for a
    transaction. -/
def put (r : Row V C) (a : Option C) (v : V) : Row V C :=
  match a with
  | none => { committed := some v, held := none }
  | some c => { r with held := some (c, some v) }

end Row

/-- A table: the keys in use, and a row for every key. -/
structure Table (K V C : Type) where
  dom : List K
  row : K → Row V C
  nodup : dom.Nodup
  support : ∀ k, k ∉ dom → row k = Row.empty

/-- One row changed by a commit: what it was and what it became. -/
structure Write (K V : Type) where
  key : K
  old : Option V
  new : V

/-- A unique index: its name, and the key under which a row is in it. -/
structure UniqueIndex (V X : Type) where
  name : String
  key : V → Option X

/-- Two rows may not both be in the index under the same key. -/
def UniqueIndex.clash [DecidableEq X] (i : UniqueIndex V X) (v w : V) : Bool :=
  (i.key v).isSome && decide (i.key v = i.key w)

variable [DecidableEq K]

/-- The committed rows after a list of writes. -/
def applyWrites (ws : List (Write K V)) (f : K → Option V) (k : K) : Option V :=
  match ws.find? (fun w => decide (w.key = k)) with
  | some w => some w.new
  | none => f k

/-- Without writes the rows stay as they are. -/
@[simp] theorem applyWrites_nil (f : K → Option V) : applyWrites [] f = f := rfl

/-- A single write changes the row under its key, and no other. -/
theorem applyWrites_single (w : Write K V) (f : K → Option V) (k : K) :
    applyWrites [w] f k = if w.key = k then some w.new else f k := by
  by_cases h : w.key = k
  · simp only [applyWrites, List.find?_cons, h, decide_true, if_true]
  · simp only [applyWrites, List.find?_cons, h, decide_false, List.find?_nil, if_false]

/-- Under a key, a list of writes leaves the row or makes it one of its own. -/
theorem applyWrites_cases (ws : List (Write K V))
    (f : K → Option V) (k : K) :
    applyWrites ws f k = f k ∨ ∃ w ∈ ws, w.key = k ∧ applyWrites ws f k = some w.new := by
  simp only [applyWrites]
  cases hw : ws.find? (fun w => decide (w.key = k)) with
  | none => exact .inl rfl
  | some w =>
      have hk := List.find?_some hw
      rw [decide_eq_true_eq] at hk
      exact .inr ⟨w, List.mem_of_find?_eq_some hw, hk, rfl⟩

/-- The same, told apart by whether there is a write under the key. Where no write
    has the key, the row stays. -/
theorem applyWrites_split (ws : List (Write K V)) (f : K → Option V) (k : K) :
    ((∀ w ∈ ws, w.key ≠ k) ∧ applyWrites ws f k = f k) ∨
      ∃ w ∈ ws, w.key = k ∧ applyWrites ws f k = some w.new := by
  simp only [applyWrites]
  cases hfind : ws.find? (fun w => decide (w.key = k)) with
  | none =>
      rw [List.find?_eq_none] at hfind
      exact .inl ⟨fun w hw hk => hfind w hw (decide_eq_true hk), rfl⟩
  | some w =>
      have hk := List.find?_some hfind
      rw [decide_eq_true_eq] at hk
      exact .inr ⟨w, List.mem_of_find?_eq_some hfind, hk, rfl⟩

/-- Writes that start from the rows there are. So the version that was there
    before is the one that the write has recorded as old. -/
theorem applyWrites_current {ws : List (Write K V)} {f : K → Option V}
    (h : ∀ w ∈ ws, f w.key = w.old) (k : K) :
    ((∀ w ∈ ws, w.key ≠ k) ∧ applyWrites ws f k = f k) ∨
      ∃ w ∈ ws, w.key = k ∧ f k = w.old ∧ applyWrites ws f k = some w.new := by
  rcases applyWrites_split ws f k with hno | ⟨w, hw, hk, heq⟩
  · exact .inl hno
  · exact .inr ⟨w, hw, hk, by rw [← hk, h w hw], heq⟩

/-- A property that no write changes. It is the same before and after, under every
    key. -/
theorem applyWrites_same {ws : List (Write K V)} {f : K → Option V}
    (h : ∀ w ∈ ws, f w.key = w.old) {P : Option V → Prop}
    (hP : ∀ w ∈ ws, P w.old ↔ P (some w.new)) (k : K) : P (applyWrites ws f k) ↔ P (f k) := by
  rcases applyWrites_current h k with ⟨_, heq⟩ | ⟨w, hw, _, hold, hnew⟩
  · rw [heq]
  · rw [hnew, hold]
    exact (hP w hw).symm

/-- A property that the writes under one key bring about, and no others. This is
    what a commit does to a query that counts such rows. -/
theorem applyWrites_insert {ws : List (Write K V)} {f : K → Option V}
    (h : ∀ w ∈ ws, f w.key = w.old) {P : Option V → Prop} {k : K} (hk : ∃ w ∈ ws, w.key = k)
    (hin : ∀ w ∈ ws, w.key = k → P (some w.new))
    (hout : ∀ w ∈ ws, w.key ≠ k → (P w.old ↔ P (some w.new))) (k' : K) :
    P (applyWrites ws f k') ↔ k' = k ∨ P (f k') := by
  rcases applyWrites_current h k' with ⟨hno, heq⟩ | ⟨w, hw, hkey, hold, hnew⟩
  -- No write has this key, so it is not the new one.
  · rw [heq]
    refine (or_iff_right (fun hc => ?_)).symm
    rcases hk with ⟨w, hw, hkey⟩
    exact hno w hw (hkey.trans hc.symm)
  · rw [hnew, hold]
    by_cases hc : k' = k
    · simp only [hc, true_or, iff_true]
      exact hin w hw (hkey.trans hc)
    · simp only [hc, false_or]
      exact (hout w hw (fun hk => hc (hkey.symm.trans hk))).symm

namespace Table

/-- The table without rows. -/
def init : Table K V C where
  dom := []
  row := fun _ => Row.empty
  nodup := List.nodup_nil
  support := fun _ _ => rfl

/-- The committed rows, which is what the rest of the world sees. -/
def committed (t : Table K V C) (k : K) : Option V := (t.row k).committed

/-- Change one row. -/
def set (t : Table K V C) (k : K) (r : Row V C) : Table K V C where
  dom := if k ∈ t.dom then t.dom else t.dom ++ [k]
  row := fun k' => if k' = k then r else t.row k'
  nodup := by
    split
    · exact t.nodup
    · rename_i hk
      exact List.nodup_append.mpr ⟨t.nodup, List.nodup_singleton k, fun a ha b hb hab => by
        rw [List.mem_singleton] at hb
        rw [hab, hb] at ha
        exact hk ha⟩
  support := by
    intro k' hk'
    have hne : k' ≠ k := by
      rintro rfl
      split at hk'
      · rename_i hk
        exact hk' hk
      · exact hk' (List.mem_append_right _ (List.mem_singleton.mpr rfl))
    rw [if_neg hne]
    refine t.support k' (fun hmem => hk' ?_)
    split
    · exact hmem
    · exact List.mem_append_left _ hmem

/-- Change every row in the same way, one that leaves absent rows absent. -/
def mapRows (t : Table K V C) (f : Row V C → Row V C) (hf : f Row.empty = Row.empty) :
    Table K V C where
  dom := t.dom
  row := fun k => f (t.row k)
  nodup := t.nodup
  support := fun k hk => by rw [t.support k hk, hf]

variable [DecidableEq C]

/-- What an actor sees under a key. -/
def view (t : Table K V C) (a : Option C) (k : K) : Option V := (t.row k).view a

/-- `SELECT ... WHERE id = k AND p`. -/
def select (t : Table K V C) (a : Option C) (k : K) (p : V → Bool) : Option V :=
  (t.view a k).filter p

/-- `SELECT ... WHERE p`, in the order the rows were inserted. -/
def scan (t : Table K V C) (a : Option C) (p : V → Bool) : List V :=
  t.dom.filterMap (fun k => t.select a k p)

/-- `SELECT EXISTS (... WHERE p)`. -/
def anyRow (t : Table K V C) (a : Option C) (p : V → Bool) : Bool :=
  t.dom.any (fun k => (t.select a k p).isSome)

/-- `SELECT ... WHERE id = k AND p FOR UPDATE`, by transaction `c`. -/
def selectForUpdate (t : Table K V C) (c : C) (k : K) (p : V → Bool) :
    Option (Option V × Table K V C) :=
  match t.select (some c) k p with
  | none => some (none, t)
  | some v => if (t.row k).freeFor (some c) then some (some v, t.set k ((t.row k).lock c))
    else none

/-- `UPDATE ... SET f WHERE id = k AND p`, answering whether a row changed. -/
def update (t : Table K V C) (a : Option C) (k : K) (p : V → Bool) (f : V → V) :
    Option (Bool × Table K V C) :=
  match t.select a k p with
  | none => some (false, t)
  | some v => if (t.row k).freeFor a then some (true, t.set k ((t.row k).put a (f v)))
    else none

/-- Another transaction has an uncommitted version of the row, and one of the
    row's versions clashes with the new row. -/
def blocks [DecidableEq X] (i : UniqueIndex V X) (a : Option C) (v : V) (r : Row V C) : Bool :=
  match r.held with
  | some (c, some w) => decide (a ≠ some c) && (i.clash v w || r.committed.any (i.clash v))
  | _ => false

/-- The first unique index, in the order declared, that a visible row violates. -/
def violated [DecidableEq X] (t : Table K V C) (ix : List (UniqueIndex V X)) (a : Option C)
    (v : V) : Option (UniqueIndex V X) :=
  ix.find? (fun i => t.dom.any (fun k => (t.view a k).any (i.clash v)))

/-- `INSERT`, answering the name of a violated index or nothing. The key is
    generated, and a generated key that is in use has no outcome here. -/
def insert [DecidableEq X] (t : Table K V C) (ix : List (UniqueIndex V X)) (a : Option C) (k : K)
    (v : V) : Option (Except String Unit × Table K V C) :=
  if k ∈ t.dom then none
  else if t.dom.any (fun k' => ix.any (fun i => blocks i a v (t.row k'))) then none
  else match t.violated ix a v with
    | some i => some (.error i.name, t)
    | none => some (.ok (), t.set k ((t.row k).put a v))

/-- End transaction `c`, keeping what it wrote. -/
def commit (t : Table K V C) (c : C) : Table K V C := t.mapRows (Row.commit c) rfl

/-- End transaction `c`, dropping what it wrote. -/
def rollback (t : Table K V C) (c : C) : Table K V C := t.mapRows (Row.rollback c) rfl

/-- What transaction `c` has written to a row. -/
def writeAt (t : Table K V C) (c : C) (k : K) : Option (Write K V) :=
  match (t.row k).held with
  | some (c', some v) => if c' = c then some ⟨k, (t.row k).committed, v⟩ else none
  | _ => none

/-- What a commit of `c` is about to write. -/
def writes (t : Table K V C) (c : C) : List (Write K V) := t.dom.filterMap (t.writeAt c)

/-! ## Reading -/

/-- The row that was changed. -/
@[simp] theorem set_row_self (t : Table K V C) (k : K) (r : Row V C) : (t.set k r).row k = r := by
  simp only [set, if_true]

/-- The rows that were not. -/
theorem set_row_of_ne (t : Table K V C) (k k' : K) (r : Row V C) (h : k' ≠ k) :
    (t.set k r).row k' = t.row k' := by
  simp only [set, if_neg h]

/-- A change that leaves the committed version of its row leaves all committed
    rows as they are. -/
theorem set_committed (t : Table K V C) (k : K) (r : Row V C)
    (h : r.committed = t.committed k) : (t.set k r).committed = t.committed := by
  funext k'
  by_cases hk : k' = k
  · rw [hk]
    simp only [committed, set_row_self]
    exact h
  · simp only [committed, set_row_of_ne t k k' r hk]

/-- A row that is seen is in the table. -/
theorem mem_dom_of_view {t : Table K V C} {a : Option C} {k : K} {v : V}
    (h : t.view a k = some v) : k ∈ t.dom := by
  by_contra hk
  rw [view, t.support k hk] at h
  simp only [Row.view, Row.empty, reduceCtorEq] at h

/-- A conditional read finds what is seen under the key and meets the condition. -/
theorem select_eq_some {t : Table K V C} {a : Option C} {k : K} {p : V → Bool} {v : V} :
    t.select a k p = some v ↔ t.view a k = some v ∧ p v = true := by
  simp only [select, Option.filter_eq_some_iff]

/-- It finds nothing if what is seen, if anything is, does not meet the condition. -/
theorem select_eq_none {t : Table K V C} {a : Option C} {k : K} {p : V → Bool} :
    t.select a k p = none ↔ ∀ v, t.view a k = some v → p v = false := by
  simp only [select, Option.filter_eq_none_iff, Bool.not_eq_true]

/-- There is a row that meets the condition among those that are seen. -/
theorem anyRow_iff {t : Table K V C} {a : Option C} {p : V → Bool} :
    t.anyRow a p = true ↔ ∃ k v, t.view a k = some v ∧ p v = true := by
  simp only [anyRow, List.any_eq_true, Option.isSome_iff_exists, select_eq_some]
  constructor
  · rintro ⟨k, _, v, h⟩
    exact ⟨k, v, h⟩
  · rintro ⟨k, v, h⟩
    exact ⟨k, mem_dom_of_view h.1, v, h⟩

/-- The rows of a query are those that are seen and meet the condition. -/
theorem mem_scan {t : Table K V C} {a : Option C} {p : V → Bool} {v : V} :
    v ∈ t.scan a p ↔ ∃ k, t.view a k = some v ∧ p v = true := by
  simp only [scan, List.mem_filterMap, select_eq_some]
  constructor
  · rintro ⟨k, _, h⟩
    exact ⟨k, h⟩
  · rintro ⟨k, h⟩
    exact ⟨k, mem_dom_of_view h.1, h⟩

/-! ## What a commit writes -/

/-- A key picked out of a list of writes, one for each key of a list without
    repetitions: the write found there is the one made for that key. -/
theorem find?_filterMap_key (g : K → Option (Write K V)) (hg : ∀ k w, g k = some w → w.key = k)
    (l : List K) (k : K) :
    (l.filterMap g).find? (fun w => decide (w.key = k)) = if k ∈ l then g k else none := by
  induction l with
  | nil => rfl
  | cons a l ih =>
      cases ha : g a with
      | none =>
          simp only [List.filterMap_cons, ha, ih, List.mem_cons]
          -- A key without a write is looked up in vain.
          by_cases hak : k = a
          · rw [hak, ha]
            simp only [true_or, ite_self]
          · simp only [hak, false_or]
      | some w =>
          simp only [List.filterMap_cons, ha, List.find?_cons, hg a w ha, List.mem_cons]
          by_cases hak : a = k
          · rw [← hak]
            simp only [decide_true, true_or, if_true, ha]
          · have hka : k ≠ a := fun hc => hak hc.symm
            simp only [hak, decide_false, hka, false_or]
            exact ih

/-- What is written to a row has the key of the row. -/
theorem writeAt_key {t : Table K V C} {c : C} {k : K} {w : Write K V}
    (h : t.writeAt c k = some w) : w.key = k := by
  simp only [writeAt] at h
  split at h
  · split at h
    · simp only [Option.some.injEq] at h
      rw [← h]
    · simp only [reduceCtorEq] at h
  · simp only [reduceCtorEq] at h

/-- A commit changes the committed rows by its writes and by nothing else. -/
theorem commit_committed (t : Table K V C) (c : C) :
    (t.commit c).committed = applyWrites (t.writes c) t.committed := by
  funext k
  simp only [applyWrites, writes,
    find?_filterMap_key (t.writeAt c) (fun k w h => writeAt_key h) t.dom k]
  -- Outside of the table there is nothing to commit.
  by_cases hk : k ∈ t.dom
  · simp only [if_pos hk, committed, commit, mapRows, Row.commit, writeAt]
    -- The row is free, or held without a version, or held with one, by `c` or not.
    rcases (t.row k).held with _ | ⟨c', _ | v⟩
    · rfl
    · by_cases hc : c' = c
      · simp only [hc, if_true, Option.none_or]
      · simp only [hc, if_false]
    · by_cases hc : c' = c
      · simp only [hc, if_true, Option.some_or]
      · simp only [hc, if_false]
  · simp only [if_neg hk, committed, commit, mapRows, t.support k hk]
    rfl

/-- A rollback leaves the committed rows as they are. -/
theorem rollback_committed (t : Table K V C) (c : C) :
    (t.rollback c).committed = t.committed := by
  funext k
  simp only [committed, rollback, mapRows, Row.rollback]
  -- It lets go of a row and takes nothing over from it.
  rcases (t.row k).held with _ | ⟨c', p⟩
  · rfl
  · by_cases hc : c' = c
    · simp only [hc, if_true]
    · simp only [hc, if_false]

end Table

end Concurrency
