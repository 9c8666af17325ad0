import RemoteControl.Concurrency.Interleave
import Mathlib.Algebra.BigOperators.Group.Finset.Piecewise
import Mathlib.Algebra.Order.BigOperators.Group.Finset

/-!
# How Many Turns a Program Takes

A program without loops takes a bounded number of turns, whatever it is
answered, and a finite family of such programs takes a bounded number of turns
together. So a schedule that only gives turns to finitely many members of a
family comes to an end, and it cannot be told from outside which of them the
turns went to: every turn brings its member one turn closer to its end.

That a schedule ends does not mean that the members are over, because they may
wait for each other. If at every point some member that is not over can take
its turn, though, the members can be brought to their ends
(`exists_completion`).

The bound is a number for each program, and a turn takes one off the number of
its program (`System.Bounded.turn`). So a schedule can be accounted for member
by member (`left_of_follow`): what it has given to a member and what is left
to that member is what the member had. The bound on the whole schedule is the
sum over its members, and the bound on a single member needs no finite family.

## Main definitions

* `Prog.Bounded`: The program takes at most so many turns.
* `System.Bounded`: Every program of a system does, for its own bound.

## Theorems

* `Prog.Bounded.bind`, `Prog.Bounded.onError_bind`: Bounds add up.
* `System.Bounded.turn`: A turn takes one off the bound of its program.
* `turns_le_of_follow`: A schedule gives no program more turns than its bound.
* `length_le_of_follow`: A schedule is no longer than the bounds allow.
* `exists_completion`: What can always go on can be completed.
* `left_of_follow`: What a schedule leaves of the bounds.
* `follow_invariant`: What the turns of the members keep, a schedule keeps.
-/

namespace Concurrency

variable {Op : Type} {Resp : Op → Type} {ε α β σ Env ι : Type}

/-! ## Programs -/

namespace Prog

/-- The program waits at most so many times, and so takes at most one turn
    more than that. -/
def Bounded : Prog Op Resp ε α → Nat → Prop
  | ret _, _ => True
  | throw _, _ => True
  | op _ k, n => ∀ r, (k r).Bounded n
  | await _, 0 => False
  | await p, n + 1 => p.Bounded n

/-- A bound may be raised. -/
theorem Bounded.mono {p : Prog Op Resp ε α} {n m : Nat} (h : p.Bounded n) (hnm : n ≤ m) :
    p.Bounded m := by
  induction p generalizing n m with
  | ret a => trivial
  | throw e => trivial
  | op o k ih => exact fun r => ih r (h r) hnm
  | await p ih =>
      -- A wait uses up one of the turns, of the smaller bound and of the larger.
      cases n with
      | zero => exact h.elim
      | succ n =>
          cases m with
          | zero => exact absurd hnm (Nat.not_succ_le_zero n)
          | succ m => exact ih (n := n) h (Nat.le_of_succ_le_succ hnm)

/-- The bound of a sequence is the sum of the two bounds. -/
theorem Bounded.bind {p : Prog Op Resp ε α} {f : α → Prog Op Resp ε β} (n m : Nat)
    (h : p.Bounded n) (hf : ∀ a, (f a).Bounded m) : (p.bind f).Bounded (n + m) := by
  induction p generalizing n with
  | ret a => exact (hf a).mono (Nat.le_add_left m n)
  | throw e => trivial
  | op o k ih => exact fun r => ih r n (h r)
  | await p ih =>
      cases n with
      | zero => exact h.elim
      | succ n =>
          rw [Nat.succ_add]
          exact ih n h

/-- A handler and what comes after it share one bound, because only one of the two
    ways is taken. Either the program returns, and then what comes after it
    follows, or it throws, and then the handler and what comes after that do. -/
theorem Bounded.onError_bind {p : Prog Op Resp ε α} {h : ε → Prog Op Resp ε α}
    {f : α → Prog Op Resp ε β} (n m : Nat) (hp : p.Bounded n)
    (hh : ∀ e, ((h e).bind f).Bounded m) (hf : ∀ a, (f a).Bounded m) :
    ((p.onError h).bind f).Bounded (n + m) := by
  induction p generalizing n with
  | ret a => exact (hf a).mono (Nat.le_add_left m n)
  | throw e => exact (hh e).mono (Nat.le_add_left m n)
  | op o k ih => exact fun r => ih r n (hp r)
  | await p ih =>
      cases n with
      | zero => exact hp.elim
      | succ n =>
          rw [Nat.succ_add]
          exact ih n hp

/-- The bound of a program with a handler is the sum of the two bounds. -/
theorem Bounded.onError {p : Prog Op Resp ε α} {h : ε → Prog Op Resp ε α} (n m : Nat)
    (hp : p.Bounded n) (hh : ∀ e, (h e).Bounded m) : (p.onError h).Bounded (n + m) := by
  induction p generalizing n with
  | ret a => trivial
  | throw e => exact (hh e).mono (Nat.le_add_left m n)
  | op o k ih => exact fun r => ih r n (hp r)
  | await p ih =>
      cases n with
      | zero => exact hp.elim
      | succ n =>
          rw [Nat.succ_add]
          exact ih n hp

/-- A segment does not wait, so its rest has the same bound. -/
theorem Bounded.segment {exec : (o : Op) → σ → Option (Resp o × σ)} {p p' : Prog Op Resp ε α}
    {s s' : σ} {n : Nat} (h : p.Bounded n) (hseg : Concurrency.segment exec p s = some (p', s')) :
    p'.Bounded n :=
  segment_induction (motive := fun p _ => p.Bounded n → p'.Bounded n) (fun _ h => h)
    (fun _ _ _ r _ _ ih h => ih (h r)) hseg h

end Prog

/-! ## Systems -/

/-- Every program takes at most as many turns as its bound says. -/
def System.Bounded (sys : System Op Resp ε α σ ι) (bound : ι → Nat) : Prop :=
  ∀ t, (sys.threads t).Bounded (bound t)

/-- Before its first turn every program waits, so one turn is added to what it
    takes from then on. -/
theorem System.Bounded.start {s : σ} {p : ι → Prog Op Resp ε α} {bound : ι → Nat}
    (h : ∀ t, (p t).Bounded (bound t)) :
    (System.start s p).Bounded (fun t => bound t + 1) :=
  h

variable [DecidableEq ι] {exec : ι → Env → (o : Op) → σ → Option (Resp o × σ)}

/-- A turn takes one off the bound of its program. The bounds of the others stay. -/
theorem System.Bounded.turn {sys sys' : System Op Resp ε α σ ι} {t : ι} {env : Env}
    {bound : ι → Nat} (h : sys.Bounded bound) (hturn : sys.turn exec t env = some sys') :
    0 < bound t ∧ sys'.Bounded (Function.update bound t (bound t - 1)) := by
  rcases turn_cases hturn with ⟨p, p', s', hp, hseg, rfl⟩
  have hbound := h t
  rw [hp] at hbound
  -- A program without a turn left would not be waiting.
  cases hn : bound t with
  | zero =>
      rw [hn] at hbound
      exact hbound.elim
  | succ n =>
      rw [hn] at hbound
      refine ⟨Nat.succ_pos n, fun u => ?_⟩
      by_cases hu : u = t
      · subst hu
        simp only [Function.update_self, Nat.add_sub_cancel]
        exact Prog.Bounded.segment (n := n) hbound hseg
      · simp only [Function.update_of_ne hu]
        exact h u

/-- The bounds of some members together, after one of them has one less. It is
    stated with the one added, to stay clear of the subtraction. -/
theorem sum_update_sub_one {S : Finset ι} {bound : ι → Nat} {t : ι} (ht : t ∈ S)
    (hpos : 0 < bound t) :
    (∑ u ∈ S, Function.update bound t (bound t - 1) u) + 1 = ∑ u ∈ S, bound u := by
  rw [Finset.sum_update_of_mem ht, Finset.sum_eq_add_sum_sdiff_singleton_of_mem ht bound]
  omega

/-- What a schedule does to a property that the turns of its members keep. The
    turns in question are those of the members of the family, because the schedule
    gives turns to nobody else. -/
theorem follow_invariant {S : Finset ι} {P : System Op Resp ε α σ ι → Prop}
    {a b : System Op Resp ε α σ ι} {ls : List (ι × Env)} (hls : ∀ x ∈ ls, x.1 ∈ S)
    (h : follow exec a ls = some b) (ha : P a)
    (hstep : ∀ c d t env, t ∈ S → P c → c.turn exec t env = some d → P d) : P b := by
  induction ls generalizing a with
  | nil =>
      rw [follow, Option.some.injEq] at h
      rw [← h]
      exact ha
  | cons x rest ih =>
      simp only [follow] at h
      cases hturn : a.turn exec x.1 x.2 with
      | none =>
          rw [hturn] at h
          simp only [reduceCtorEq] at h
      | some c =>
          rw [hturn] at h
          -- The first turn keeps the property, and the rest follows by induction.
          exact ih (fun y hy => hls y (List.mem_cons_of_mem x hy)) h
            (hstep a c x.1 x.2 (hls x List.mem_cons_self) ha hturn)

/-- A schedule takes from each bound one for every turn that it gives to the
    member. -/
theorem left_of_follow {a b : System Op Resp ε α σ ι} {bound : ι → Nat} {ls : List (ι × Env)}
    (hbound : a.Bounded bound) (h : follow exec a ls = some b) :
    ∃ left : ι → Nat, b.Bounded left ∧
      ∀ t, (ls.filter (fun x => x.1 = t)).length + left t = bound t := by
  induction ls generalizing a bound with
  | nil =>
      rw [follow, Option.some.injEq] at h
      rw [← h]
      exact ⟨bound, hbound, fun t => Nat.zero_add (bound t)⟩
  | cons x rest ih =>
      simp only [follow] at h
      cases hturn : a.turn exec x.1 x.2 with
      | none =>
          rw [hturn] at h
          simp only [reduceCtorEq] at h
      | some c =>
          rw [hturn] at h
          rcases hbound.turn hturn with ⟨hpos, hc⟩
          -- What is left is what the rest of the schedule leaves, from the bounds after
          -- the first turn.
          rcases ih hc h with ⟨left, hb, hleft⟩
          refine ⟨left, hb, fun t => ?_⟩
          have hrest := hleft t
          by_cases ht : x.1 = t
          · -- The first turn is counted, and its bound was positive.
            subst ht
            rw [Function.update_self] at hrest
            rw [List.filter_cons, if_pos (decide_eq_true rfl), List.length_cons]
            omega
          · rw [Function.update_of_ne (Ne.symm ht)] at hrest
            rw [List.filter_cons, if_neg (by simpa only [decide_eq_true_eq] using ht)]
            exact hrest

/-- No member gets more turns than its bound. So nobody can overrun at the expense
    of somebody who stays below. -/
theorem turns_le_of_follow {a b : System Op Resp ε α σ ι} {bound : ι → Nat}
    {ls : List (ι × Env)} (hbound : a.Bounded bound) (h : follow exec a ls = some b) (t : ι) :
    (ls.filter (fun x => x.1 = t)).length ≤ bound t := by
  rcases left_of_follow hbound h with ⟨left, _, hleft⟩
  have ht := hleft t
  omega

/-- The turns of a schedule are those that it gives to its members. -/
theorem length_eq_sum_turns {S : Finset ι} {ls : List (ι × Env)} (hls : ∀ x ∈ ls, x.1 ∈ S) :
    ls.length = ∑ t ∈ S, (ls.filter (fun x => x.1 = t)).length := by
  have hmem : ∀ t ∈ (↑(ls.map Prod.fst) : Multiset ι), t ∈ S := by
    intro t ht
    rcases List.mem_map.mp (Multiset.mem_coe.mp ht) with ⟨x, hx, rfl⟩
    exact hls x hx
  have hsum := Multiset.sum_count_eq_card hmem
  rw [Multiset.coe_card, List.length_map] at hsum
  rw [← hsum]
  refine Finset.sum_congr rfl (fun t _ => ?_)
  rw [Multiset.coe_count, List.count, List.countP_map, List.countP_eq_length_filter]
  rfl

/-- A schedule is no longer than the bounds of its members together, because it is
    no longer for any of them. -/
theorem length_le_of_follow {S : Finset ι} {a b : System Op Resp ε α σ ι} {bound : ι → Nat}
    {ls : List (ι × Env)} (hbound : a.Bounded bound) (hls : ∀ x ∈ ls, x.1 ∈ S)
    (h : follow exec a ls = some b) : ls.length ≤ ∑ t ∈ S, bound t := by
  rw [length_eq_sum_turns hls]
  exact Finset.sum_le_sum (fun t _ => turns_le_of_follow hbound h t)

/-- If some member can take its turn as long as there is one that is not over,
    the members can be brought to their ends. `P` is what is known of the
    systems on the way. -/
theorem exists_completion {S : Finset ι} {P : System Op Resp ε α σ ι → Prop}
    {done : System Op Resp ε α σ ι → ι → Prop}
    (hstep : ∀ a b t env, t ∈ S → P a → a.turn exec t env = some b → P b)
    (hgo : ∀ a, P a → (∃ t ∈ S, ¬ done a t) → ∃ t ∈ S, ∃ env, (a.turn exec t env).isSome)
    {a : System Op Resp ε α σ ι} {bound : ι → Nat} (hbound : a.Bounded bound) (ha : P a) :
    ∃ ls b, (∀ x ∈ ls, x.1 ∈ S) ∧ follow exec a ls = some b ∧ ∀ t ∈ S, done b t := by
  -- By induction on the turns that are left.
  induction hn : ∑ t ∈ S, bound t using Nat.strong_induction_on generalizing a bound with
  | _ n ih =>
      by_cases hall : ∀ t ∈ S, done a t
      · exact ⟨[], a, fun x hx => absurd hx List.not_mem_nil, rfl, hall⟩
      · push Not at hall
        rcases hgo a ha hall with ⟨t, ht, env, hsome⟩
        rcases Option.isSome_iff_exists.mp hsome with ⟨b, hturn⟩
        rcases hbound.turn hturn with ⟨hpos, hb⟩
        -- One turn of it, and the sum of the bounds is less.
        have hless := sum_update_sub_one ht hpos
        rcases ih _ (by omega) hb (hstep a b t env ht ha hturn) rfl with ⟨ls, c, hls, hc, hover⟩
        refine ⟨(t, env) :: ls, c, fun x hx => ?_, ?_, hover⟩
        · rcases List.mem_cons.mp hx with rfl | hx
          · exact ht
          · exact hls x hx
        · simp only [follow, hturn]
          exact hc

end Concurrency
