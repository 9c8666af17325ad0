import RemoteControl.Concurrency.Interleave

/-!
# Programs That Complete

What it takes for a program that is given every turn to come to a good end. A
triple of `Concurrency.RelyGuarantee` says what holds if a program ends;
`Prog.Completes` says that it ends as well, and with a value: no operation is
ever without an answer, and no error is thrown. The operations may be run with
any environments that meet a condition, and each with another one, so that the
time may go on between them.

`Prog.Completes` is the weakest precondition of the program. It is computed
from the end of the program to its beginning, and the rules are its equations.
What it says about a system is `Prog.Completes.of_run`, `Prog.Completes.goes_on` and
`Prog.Completes.exists_run`: if only this program takes turns, then it always can
until it is over, it can be brought to its end, and what it ends with is good.

The program is run with every admitted environment at every operation, so a
postcondition cannot depend on a lucky clock or a lucky random number. What it
may depend on is the state it starts in, and that nobody else takes a turn.

## Main definitions

* `Prog.Completes`: The program ends well when it has all the turns.
* `onlyTurns`: The turns of one program, taken with certain environments.

## Theorems

* `completes_bind`, `Prog.Completes.onError`, `Prog.Completes.mono`: The rules.
* `Prog.Completes.of_run`: What a run of the program alone leads to.
* `Prog.Completes.goes_on`: It never has to wait.
* `Prog.Completes.exists_run`: It can be brought to its end.
* `Prog.Completes.segment`: A segment of a program that completes.
* `suspended_of_onlyTurns`: The program stays between two turns.
-/

namespace Concurrency

variable {Op : Type} {Resp : Op → Type} {ε α β σ Env ι : Type}

section Programs

variable (exec : Env → (o : Op) → σ → Option (Resp o × σ)) (ok : Env → Prop)

/-- The program has an answer to each of its operations and ends with a value
    that is good in the state it leaves, whatever admitted environments its
    operations are run with. -/
def Prog.Completes (Q : α → σ → Prop) : Prog Op Resp ε α → σ → Prop
  | .ret a, s => Q a s
  | .throw _, _ => False
  | .op o k, s => ∀ env, ok env → ∃ r s', exec env o s = some (r, s') ∧ Prog.Completes Q (k r) s'
  | .await p, s => Prog.Completes Q p s

variable {exec ok} {Q Q' : α → σ → Prop} {s s' : σ}

/-- A program that ends well ends well in any weaker sense. -/
theorem Prog.Completes.mono {p : Prog Op Resp ε α} (h : p.Completes exec ok Q s)
    (hQ : ∀ a s', Q a s' → Q' a s') : p.Completes exec ok Q' s := by
  induction p generalizing s with
  | ret a => exact hQ a s h
  | throw e => exact h
  | op o k ih =>
      intro env henv
      rcases h env henv with ⟨r, s', hx, hk⟩
      exact ⟨r, s', hx, ih r hk⟩
  | await p ih => exact ih h

/-- A sequence ends well if the first program ends in a state and with a value
    from which the second one ends well. -/
theorem completes_bind {p : Prog Op Resp ε α} {f : α → Prog Op Resp ε β} {R : β → σ → Prop} :
    (p.bind f).Completes exec ok R s ↔
      p.Completes exec ok (fun a s' => (f a).Completes exec ok R s') s := by
  induction p generalizing s with
  | ret a => exact Iff.rfl
  | throw e => exact Iff.rfl
  -- The same is asked of both continuations, for every answer.
  | op o k ih => simp only [Prog.op_bind, Prog.Completes, ih]
  | await p ih => exact ih

/-- A handler has nothing to do. A program that completes throws no error. -/
theorem Prog.Completes.onError {p : Prog Op Resp ε α} (h : p.Completes exec ok Q s)
    (f : ε → Prog Op Resp ε α) : (p.onError f).Completes exec ok Q s := by
  induction p generalizing s with
  | ret a => exact h
  | throw e => exact h.elim
  | op o k ih =>
      intro env henv
      rcases h env henv with ⟨r, s', hx, hk⟩
      exact ⟨r, s', hx, ih r hk⟩
  | await p ih => exact ih h

/-- A segment takes the program on. It is answered to the end of the segment, and
    what is left of it is going to end well too. -/
theorem Prog.Completes.segment {p : Prog Op Resp ε α} {env : Env} (h : p.Completes exec ok Q s)
    (henv : ok env) :
    ∃ p' s', Concurrency.segment (exec env) p s = some (p', s') ∧ p'.Completes exec ok Q s' := by
  induction p generalizing s with
  | ret a => exact ⟨_, _, rfl, h⟩
  | throw e => exact h.elim
  | op o k ih =>
      rcases h env henv with ⟨r, s', hx, hk⟩
      rcases ih r hk with ⟨p', s'', hseg, hp⟩
      refine ⟨p', s'', ?_, hp⟩
      simp only [Concurrency.segment, hx, hseg]
  | await p ih => exact ⟨_, _, rfl, h⟩

end Programs

/-! ## In a system -/

/-- The turns of program `t`, taken with environments that meet the condition. -/
def onlyTurns (ok : Env → Prop) (t : ι) (_ : System Op Resp ε α σ ι) (u : ι) (env : Env) : Prop :=
  u = t ∧ ok env

variable [DecidableEq ι] {exec : ι → Env → (o : Op) → σ → Option (Resp o × σ)} {ok : Env → Prop}
  {Q : α → σ → Prop} {t u : ι} {x y : System Op Resp ε α σ ι}

/-- Wherever the program is, it is going to end well. Every turn is one of its
    own, and a turn is a segment. -/
theorem Prog.Completes.of_run (h : (x.threads t).Completes (exec t) ok Q x.shared)
    (hrun : Run exec (onlyTurns ok t) x y) : (y.threads t).Completes (exec t) ok Q y.shared := by
  refine hrun.invariant (P := fun z => (z.threads t).Completes (exec t) ok Q z.shared) h
    (fun a b u env ha hok hturn => ?_)
  rcases hok with ⟨rfl, henv⟩
  -- The turn was taken by the program itself, so its point is the one that moved.
  rcases turn_cases hturn with ⟨p, p', s', hp, hseg, rfl⟩
  simp only [Function.update_self]
  rw [hp] at ha
  rcases Prog.Completes.segment (p := p) ha henv with ⟨p₁, s₁, hseg₁, hp₁⟩
  rw [hseg, Option.some.injEq, Prod.mk.injEq] at hseg₁
  rw [hseg₁.1, hseg₁.2]
  exact hp₁

/-- A program that was between two turns still is, or it is over. -/
theorem suspended_of_onlyTurns (hp : (x.threads t).Suspended)
    (hrun : Run exec (onlyTurns ok t) x y) : (y.threads t).Suspended := by
  refine hrun.invariant (P := fun z => (z.threads t).Suspended) hp (fun a b u env _ hok hturn => ?_)
  rcases hok with ⟨rfl, _⟩
  rcases turn_cases hturn with ⟨p, p', s', _, hseg, rfl⟩
  simp only [Function.update_self]
  exact segment_suspended _ p _ p' s' hseg

/-- It can always take the next turn, until it is over and has ended well. -/
theorem Prog.Completes.goes_on (h : (x.threads t).Completes (exec t) ok Q x.shared)
    (hp : (x.threads t).Suspended) (hrun : Run exec (onlyTurns ok t) x y) :
    (∃ a, y.threads t = .ret a ∧ Q a y.shared) ∨
      ∀ env, ok env → (y.turn exec t env).isSome := by
  have hy := h.of_run hrun
  have hsuspended := suspended_of_onlyTurns hp hrun
  cases ht : y.threads t with
  -- It is over. That it has thrown an error, or is in the middle of a segment, is
  -- impossible.
  | ret a =>
      rw [ht] at hy
      exact .inl ⟨a, rfl, hy⟩
  | throw e =>
      rw [ht] at hy
      exact hy.elim
  | op o k =>
      rw [ht] at hsuspended
      exact hsuspended.elim
  | await p =>
      rw [ht] at hy
      refine .inr (fun env henv => ?_)
      rcases Prog.Completes.segment (p := p) hy henv with ⟨p', s', hseg, _⟩
      simp only [System.turn, ht, hseg, Option.isSome_some]

/-- The rest of a segment, and the turns after it. The first segment is kept apart
    from the turns after it, so that the induction can go through a wait. -/
theorem Prog.Completes.exists_turns {env : Env} (henv : ok env) {p : Prog Op Resp ε α} {s : σ}
    (h : p.Completes (exec t) ok Q s) :
    ∃ p₁ s₁, Concurrency.segment (exec t env) p s = some (p₁, s₁) ∧
      ∀ z : System Op Resp ε α σ ι, z.threads t = p₁ → z.shared = s₁ →
        ∃ z', Run exec (onlyTurns ok t) z z' ∧ ∃ a, z'.threads t = .ret a := by
  induction p generalizing s with
  | ret a => exact ⟨_, _, rfl, fun z hz _ => ⟨z, .refl, a, hz⟩⟩
  | throw e => exact h.elim
  | op o k ih =>
      rcases h env henv with ⟨r, s', hx, hk⟩
      simp only [Concurrency.segment, hx]
      exact ih r hk
  | await p ih =>
      rcases ih h with ⟨p₁, s₁, hseg, hrest⟩
      refine ⟨_, _, rfl, fun z hz hs => ?_⟩
      -- One turn for the segment, and then the rest.
      have hturn : z.turn exec t env =
          some { shared := s₁, threads := Function.update z.threads t p₁ } := by
        simp only [System.turn, hz, hs, hseg]
      rcases hrest { shared := s₁, threads := Function.update z.threads t p₁ }
        (Function.update_self t p₁ z.threads) rfl with ⟨z', hrun, hend⟩
      exact ⟨z', (Run.step z _ t env .refl ⟨rfl, henv⟩ hturn).trans hrun, hend⟩

/-- It can be brought to its end. One admitted environment is enough, taken for
    all turns. -/
theorem Prog.Completes.exists_run (h : (x.threads t).Completes (exec t) ok Q x.shared)
    (hp : (x.threads t).Suspended) (hok : ∃ env, ok env) :
    ∃ y, Run exec (onlyTurns ok t) x y ∧ ∃ a, y.threads t = .ret a := by
  rcases hok with ⟨env, henv⟩
  rcases Prog.Completes.exists_turns henv h with ⟨p₁, s₁, hseg, hrest⟩
  -- It is suspended, so its first segment is empty.
  have hsame : x.threads t = p₁ ∧ x.shared = s₁ := by
    cases hthread : x.threads t with
    | op o k =>
        rw [hthread] at hp
        exact hp.elim
    | _ =>
        rw [hthread] at hseg
        simp only [Concurrency.segment, Option.some.injEq, Prod.mk.injEq] at hseg
        exact hseg
  exact hrest x hsame.1 hsame.2

end Concurrency
