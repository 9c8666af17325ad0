import RemoteControl.Concurrency.HeldRows

/-!
# Tables That One Actor Has to Itself

While nobody else holds a row, an actor uses a table as if there were no
locks: no statement waits, each one answers from the rows the actor sees, and
the rows it sees next are those rows with the statement carried out. So a
table is described by a function from keys to rows, and each statement by what
it makes of this function.

`Table.Sole` relates a table to that function. With no actor it says that
nobody holds a row and that these are the committed rows, which is where a
transaction starts and where its commit leads.

This is what a sequential proof about the code starts from: the tables of a
call that runs alone are `Sole` at every point, so its statements can be
replaced by their effects on functions, and the locks are gone.

## Main definitions

* `Table.Sole`: What the only actor sees.
* `updateRow`: The rows after an update of one of them.
* `OnlyRow`: Only one row meets a condition.

## Theorems

* `Table.Sole.selectForUpdate`, `Table.Sole.update`, `Table.Sole.insert`: The
  statements.
* `Table.Sole.begin`, `Table.Sole.commit`: The two ends of a transaction.
* `Table.Sole.mem_scan`, `Table.Sole.mem_keys`: The queries.
* `updateRow_each`, `updateRow_keys`: The rows after an update of several of
  them.
* `OnlyRow.insert`, `OnlyRow.update`, `OnlyRow.narrow`: Where the only such row
  comes from, and how it stays the only one.
* `Table.Sole.keys_single`, `Table.Sole.scan_single`: What a query for it answers.
-/

set_option linter.unusedSectionVars false

namespace Concurrency

variable {K V C X : Type} [DecidableEq K] [DecidableEq C] [DecidableEq X]

/-! ## Updates -/

/-- The rows after an update of the row under a key, if it meets the condition.
    Under another key nothing happens. -/
def updateRow (p : V → Bool) (g : V → V) (f : K → Option V) (k : K) : K → Option V :=
  Function.update f k ((f k).map (fun v => if p v then g v else v))

/-- An update after which a row does not meet the condition any more changes each
    of the rows it visits once. So the order of the visits does not matter, and
    neither do repetitions. -/
theorem updateRow_each {p : V → Bool} {g : V → V} (hdone : ∀ v, p (g v) = false) (ks : List K)
    (f : K → Option V) (k : K) :
    ks.foldl (updateRow p g) f k =
      if k ∈ ks then (f k).map (fun v => if p v then g v else v) else f k := by
  induction ks generalizing f with
  | nil => simp only [List.foldl_nil, List.not_mem_nil, if_false]
  | cons k' ks ih =>
      rw [List.foldl_cons, ih]
      by_cases hk : k = k'
      -- The second visit finds a row that does not meet the condition.
      · -- The row has been changed, and a second visit leaves it alone.
        have htwice : ∀ v, (if p (if p v then g v else v) then g (if p v then g v else v)
            else (if p v then g v else v)) = if p v then g v else v := by
          intro v
          cases hp : p v with
          | true => simp only [if_true, hdone, Bool.false_eq_true, if_false]
          | false => simp only [Bool.false_eq_true, if_false, hp]
        simp only [updateRow, hk, Function.update_self, List.mem_cons, true_or, if_true,
          Option.map_map, Function.comp_def, htwice, ite_self]
      · simp only [updateRow, List.mem_cons, hk, false_or, Function.update_of_ne, ne_eq,
          not_false_eq_true]

/-- An update that visits every row that meets the condition leaves none that
    does. Whatever rows it visits besides. -/
theorem updateRow_keys {p : V → Bool} {g : V → V} (hdone : ∀ v, p (g v) = false) {ks : List K}
    {f : K → Option V} (hks : ∀ k v, f k = some v → p v = true → k ∈ ks) (k : K) (v : V)
    (hv : ks.foldl (updateRow p g) f k = some v) : p v = false := by
  rw [updateRow_each hdone] at hv
  split at hv
  · rcases Option.map_eq_some_iff.mp hv with ⟨v₀, _, rfl⟩
    split
    · exact hdone v₀
    · rename_i hp
      exact Bool.eq_false_iff.mpr hp
  · rename_i hk
    exact Bool.eq_false_iff.mpr (fun hp => hk (hks k v hv hp))

/-! ## The only row of its kind -/

/-- The row under this key meets the condition, and no other does. -/
structure OnlyRow (p : V → Bool) (f : K → Option V) (k : K) (v : V) : Prop where
  row : f k = some v
  meets : p v = true
  only : ∀ k' w, f k' = some w → p w = true → k' = k

namespace OnlyRow

variable {p q : V → Bool} {f : K → Option V} {k : K} {v : V}

/-- The first row that meets the condition. -/
theorem insert (hnone : ∀ k w, f k = some w → p w = false) (hp : p v = true) :
    OnlyRow p (Function.update f k (some v)) k v := by
  refine ⟨Function.update_self k _ f, hp, fun k' w hw hpw => ?_⟩
  by_contra hk
  rw [Function.update_of_ne hk] at hw
  rw [hnone k' w hw] at hpw
  exact Bool.false_ne_true hpw

/-- A change of the row that the condition does not notice. -/
theorem update (h : OnlyRow p f k v) {g : V → V} (hg : p (g v) = true) :
    OnlyRow p (updateRow (fun _ => true) g f k) k (g v) := by
  refine ⟨?_, hg, fun k' w hw hpw => ?_⟩
  · simp only [updateRow, Function.update_self, h.row, Option.map_some, if_true]
  · by_contra hk
    rw [updateRow, Function.update_of_ne hk] at hw
    exact hk (h.only k' w hw hpw)

/-- A condition that is harder to meet. -/
theorem narrow (h : OnlyRow p f k v) (hq : q v = true) (hqp : ∀ w, q w = true → p w = true) :
    OnlyRow q f k v :=
  ⟨h.row, hq, fun k' w hw hqw => h.only k' w hw (hqp w hqw)⟩

end OnlyRow

namespace Table

/-- The actor sees these rows, and nobody else holds one. -/
structure Sole (a : Option C) (f : K → Option V) (t : Table K V C) : Prop where
  view : ∀ k, t.view a k = f k
  free : ∀ k, (t.row k).freeFor a = true

variable {a : Option C} {c : C} {f : K → Option V} {t : Table K V C} {k : K} {p : V → Bool} {v : V}

/-- Where nobody holds a row, the committed rows are what anybody sees. -/
theorem sole_of_free (h : ∀ k, (t.row k).held = none) : t.Sole none t.committed := by
  refine ⟨fun k => auto_view t k, fun k => ?_⟩
  simp only [Row.freeFor, h k]

/-- A row that was never inserted is not held. -/
theorem held_of_dom (h : ∀ k ∈ t.dom, (t.row k).held = none) (k : K) : (t.row k).held = none := by
  by_cases hk : k ∈ t.dom
  · exact h k hk
  · rw [t.support k hk, Row.empty]

/-- What is seen without a transaction is what is committed. -/
theorem Sole.committed (h : t.Sole none f) : t.committed = f := by
  funext k
  rw [← auto_view]
  exact h.view k

/-- Without a transaction, nobody holds a row. -/
theorem Sole.held (h : t.Sole none f) (k : K) : (t.row k).held = none := by
  have hfree := h.free k
  cases hr : (t.row k).held with
  | none => rfl
  | some q => simp only [Row.freeFor, hr, reduceCtorEq, decide_false, Bool.false_eq_true] at hfree

/-- Whoever begins a transaction then is the only actor. No row is held yet, so it
    sees what is committed. -/
theorem Sole.begin (h : t.Sole none f) (c : C) : t.Sole (some c) f := by
  refine ⟨fun k => ?_, fun k => ?_⟩
  · rw [← h.view k]
    simp only [Table.view, Row.view, h.held k]
  · simp only [Row.freeFor, h.held k]

/-- What was seen inside of the transaction is there after it. Its versions take
    the place of the committed ones, and it lets go of its rows. -/
theorem Sole.commit (h : t.Sole (some c) f) : (t.commit c).Sole none f := by
  refine ⟨fun k => ?_, fun k => ?_⟩
  · rw [← h.view k]
    -- A held row is held by the transaction, so its version is the one that stays.
    have hfree := h.free k
    simp only [Table.view, Table.commit, mapRows, Row.commit, Row.view]
    cases hr : (t.row k).held with
    | none => simp only [hr]
    | some q =>
        simp only [Row.freeFor, hr, decide_eq_true_eq, Option.some.injEq] at hfree
        rcases q with ⟨c', _ | w⟩
        · simp only [hfree, if_true, Option.none_or]
        · simp only [hfree, if_true, Option.some_or]
  · have hfree := h.free k
    simp only [Table.commit, mapRows, Row.commit]
    cases hr : (t.row k).held with
    | none => simp only [Row.freeFor, hr]
    | some q =>
        simp only [Row.freeFor, hr, decide_eq_true_eq, Option.some.injEq] at hfree
        simp only [← hfree, if_true, Row.freeFor]

/-- A conditional read, on the rows that are seen. -/
theorem Sole.select (h : t.Sole a f) : t.select a k p = (f k).filter p := by
  rw [Table.select, h.view]

/-- A query finds the rows that meet its condition. -/
theorem Sole.mem_scan (h : t.Sole a f) : v ∈ t.scan a p ↔ ∃ k, f k = some v ∧ p v = true := by
  simp only [Table.mem_scan, h.view]

/-- So does a statement over many rows. -/
theorem Sole.mem_keys (h : t.Sole a f) : k ∈ t.keys a p ↔ ∃ v, f k = some v ∧ p v = true := by
  simp only [Table.mem_keys, h.view]

/-- If one row meets the condition, it is the only one visited. -/
theorem Sole.keys_single (h : t.Sole a f) (hs : OnlyRow p f k v) : t.keys a p = [k] := by
  have hmem : ∀ k', k' ∈ t.keys a p ↔ k' ∈ [k] := by
    intro k'
    rw [h.mem_keys, List.mem_singleton]
    constructor
    · rintro ⟨w, hw, hp⟩
      exact hs.only k' w hw hp
    · rintro rfl
      exact ⟨v, hs.row, hs.meets⟩
  -- Two lists without repetitions that have the same members, one of them of length
  -- one.
  exact List.perm_singleton.mp
    ((List.perm_ext_iff_of_nodup (keys_nodup t a p) (List.nodup_singleton k)).mpr hmem)

/-- If one row meets the condition, it is the first of the answer. -/
theorem Sole.scan_single (h : t.Sole a f) (hs : OnlyRow p f k v) :
    (t.scan a p).head? = some v := by
  have hmem : v ∈ t.scan a p := h.mem_scan.mpr ⟨k, hs.row, hs.meets⟩
  cases hscan : t.scan a p with
  | nil =>
      rw [hscan] at hmem
      cases hmem
  | cons w l =>
      rcases h.mem_scan.mp (hscan ▸ List.mem_cons_self : w ∈ t.scan a p) with ⟨k', hk', hw⟩
      -- The row that comes first is the only one.
      have hrow := hs.row
      rw [← hs.only k' w hk' hw, hk'] at hrow
      rw [List.head?_cons, hrow]

/-- A lock changes nothing of what is seen. -/
theorem Sole.lock (h : t.Sole (some c) f) (k : K) :
    (t.set k ((t.row k).lock c)).Sole (some c) f := by
  refine ⟨fun k' => ?_, fun k' => ?_⟩
  · rw [← h.view k']
    by_cases hk : k' = k
    · simp only [Table.view, hk, set_row_self, Row.lock]
      cases hr : (t.row k).held <;> simp only [Row.view, hr]
    · simp only [Table.view, set_row_of_ne t k k' _ hk]
  · by_cases hk : k' = k
    · simp only [hk, set_row_self, Row.lock]
      have hfree := h.free k
      cases hr : (t.row k).held with
      | none => simp only [Row.freeFor, decide_true]
      | some q => exact hfree
    · rw [set_row_of_ne t k k' _ hk]
      exact h.free k'

/-- A write changes what is seen under its key. -/
theorem Sole.put (h : t.Sole a f) (k : K) (v : V) :
    (t.set k ((t.row k).put a v)).Sole a (Function.update f k (some v)) := by
  refine ⟨fun k' => ?_, fun k' => ?_⟩
  · by_cases hk : k' = k
    · rw [hk, Function.update_self]
      cases a <;> simp only [Table.view, set_row_self, Row.put, Row.view, if_true]
    · rw [Function.update_of_ne hk, ← h.view k']
      simp only [Table.view, set_row_of_ne t k k' _ hk]
  · by_cases hk : k' = k
    · rw [hk, set_row_self]
      cases a <;> simp only [Row.put, Row.freeFor, decide_true]
    · rw [set_row_of_ne t k k' _ hk]
      exact h.free k'

/-- The keys in use, after a change of a row that is there. -/
theorem Sole.set_dom (h : t.Sole a f) (hk : f k = some v) (r : Row V C) :
    (t.set k r).dom = t.dom := by
  have hmem : k ∈ t.dom := mem_dom_of_view ((h.view k).trans hk)
  simp only [Table.set, if_pos hmem]

/-- `SELECT ... FOR UPDATE` answers at once. -/
theorem Sole.selectForUpdate (h : t.Sole (some c) f) (k : K) (p : V → Bool) :
    ∃ t', t.selectForUpdate c k p = some ((f k).filter p, t') ∧ t'.Sole (some c) f ∧
      t'.dom = t.dom := by
  simp only [Table.selectForUpdate, h.select]
  cases hv : (f k).filter p with
  | none => exact ⟨t, rfl, h, rfl⟩
  | some v =>
      simp only [h.free k, if_true]
      exact ⟨_, rfl, h.lock k, h.set_dom (Option.filter_eq_some_iff.mp hv).1 _⟩

/-- `UPDATE` answers at once. -/
theorem Sole.update (h : t.Sole a f) (k : K) (p : V → Bool) (g : V → V) :
    ∃ t', t.update a k p g = some (((f k).filter p).isSome, t') ∧ t'.Sole a (updateRow p g f k) ∧
      t'.dom = t.dom := by
  simp only [Table.update, h.select]
  cases hv : (f k).filter p with
  | none =>
      refine ⟨t, rfl, ?_, rfl⟩
      -- No row there meets the condition.
      have hsame : updateRow p g f k = f := by
        rw [updateRow, Function.update_eq_self_iff]
        cases hf : f k with
        | none => rfl
        | some v =>
            have hp := (Option.filter_eq_none_iff.mp hv) v hf
            rw [Option.map_some, if_neg hp]
      rw [hsame]
      exact h
  | some v =>
      rcases Option.filter_eq_some_iff.mp hv with ⟨hf, hp⟩
      simp only [h.free k, if_true]
      refine ⟨_, rfl, ?_, h.set_dom hf _⟩
      simp only [updateRow, hf, Option.map_some, hp, if_true]
      exact h.put k (g v)

/-- `INSERT` answers at once, and is not refused if no row clashes. -/
theorem Sole.insert (h : t.Sole a f) (ix : List (UniqueIndex V X)) (v : V) (hk : k ∉ t.dom)
    (hclash : ∀ i ∈ ix, ∀ k' w, f k' = some w → i.clash v w = false) :
    ∃ t', t.insert ix a k v = some (.ok (), t') ∧ t'.Sole a (Function.update f k (some v)) ∧
      t'.dom = t.dom ++ [k] := by
  -- Nobody else has a version that could block the insertion.
  have hblocks : (t.dom.any (fun k' => ix.any (fun i => blocks i a v (t.row k')))) = false := by
    rw [Bool.eq_false_iff, ne_eq, List.any_eq_true]
    rintro ⟨k', _, hany⟩
    rcases List.any_eq_true.mp hany with ⟨i, _, hb⟩
    have hfree := h.free k'
    simp only [blocks] at hb
    cases hr : (t.row k').held with
    | none => simp only [hr, Bool.false_eq_true] at hb
    | some q =>
        rcases q with ⟨c', _ | w⟩
        · simp only [hr, Bool.false_eq_true] at hb
        · simp only [Row.freeFor, hr, decide_eq_true_eq] at hfree
          simp only [hr, hfree, ne_eq, not_true_eq_false, decide_false, Bool.false_and,
            Bool.false_eq_true] at hb
  -- Whatever is seen does not clash, so no index is violated.
  have hviolated : t.violated ix a v = none := by
    rw [violated, List.find?_eq_none]
    intro i hi hany
    rcases List.any_eq_true.mp hany with ⟨k', _, hw⟩
    rw [h.view, Option.any_eq_true] at hw
    rcases hw with ⟨w, hfw, hcw⟩
    rw [hclash i hi k' w hfw] at hcw
    exact Bool.false_ne_true hcw
  simp only [Table.insert, if_neg hk, hblocks, Bool.false_eq_true, if_false, hviolated]
  refine ⟨_, rfl, h.put k v, ?_⟩
  simp only [Table.set, if_neg hk]

end Table

end Concurrency
