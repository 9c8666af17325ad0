import RemoteControl.Concurrency.RelyGuarantee

/-!
# Programs That Run Alone

A program that gets every turn is one that nobody interferes with, so the
rules of `Concurrency.RelyGuarantee` apply to it with others that do nothing.
What is left of them is a logic for one sequential run. An assertion need not
be stable to be carried across a wait, and the condition on issuing an
operation says when the program may get stuck: an operation that has no answer
has to be excused.

The rules are the general ones with nothing to rely on (`alone_interference`).
So the triples of a program that are proved here use the same rules for
sequencing and for handlers, and what they say in the end is about the
interpreter `Prog.runAlone` and mentions no rules any more (`alone_ends`).

## Main definitions

* `Rules.alone`: The rules for a program that runs alone.
* `always`: Turns that are all taken with one environment.

## Theorems

* `alone_op`: An operation and what follows it.
* `alone_ends`: What a triple says about `Prog.runAlone`.
* `alone_await`: Every assertion survives a wait.
* `safe_ends`: What a safe program does when it runs alone.
-/

namespace Concurrency

variable {Op : Type} {Resp : Op → Type} {ε α β σ Env ι : Type}

/-- Program `t` runs, every turn is taken with `env`, and where an operation
    has no answer there is the excuse. -/
def Rules.alone (exec : ι → Env → (o : Op) → σ → Option (Resp o × σ)) (t : ι) (env : Env)
    (excuse : Prop) : Rules Op σ ι where
  inv := fun _ => True
  guar := fun u _ _ => u = t
  issue := fun _ o s => exec t env o s = none → excuse

/-- The turns of a program that runs alone are all taken alike. -/
def always (exec : ι → Env → (o : Op) → σ → Option (Resp o × σ)) (env : Env) :
    ι → Unit → (o : Op) → σ → Option (Resp o × σ) :=
  fun t _ => exec t env

variable {exec : ι → Env → (o : Op) → σ → Option (Resp o × σ)} {t : ι} {env : Env}
  {excuse : Prop} {P : σ → Prop} {Q : α → σ → Prop} {E : ε → σ → Prop}

/-- Nobody else does anything. So the state after a wait is the state before it. -/
theorem alone_interference {s s' : σ}
    (h : (Rules.alone exec t env excuse).Interference t s s') : s' = s := by
  induction h with
  | refl => rfl
  | tail _ hstep _ =>
      -- Whoever takes a step is program `t`, which is not among the others.
      rcases hstep with ⟨u, hne, hu, _⟩
      exact (hne hu).elim

/-- Every assertion survives a wait. There is no stability to show, because
    nothing comes in between. -/
theorem alone_await {p : Prog Op Resp ε α}
    (h : (Rules.alone exec t env excuse).Triple (always exec env) t P p Q E) :
    (Rules.alone exec t env excuse).Triple (always exec env) t P (.await p) Q E := by
  intro s hs hP s' hr _
  rw [alone_interference hr]
  exact h s hs hP

/-- An operation, and what follows it in the same segment. What is asked of the
    operation is an excuse where it has no answer, and the next assertion where it
    has one. -/
theorem alone_op {o : Op} {k : Resp o → Prog Op Resp ε α} (M : Resp o → σ → Prop)
    (hstuck : ∀ s, P s → exec t env o s = none → excuse)
    (h : ∀ s, P s → ∀ r s', exec t env o s = some (r, s') → M r s')
    (hk : ∀ r, (Rules.alone exec t env excuse).Triple (always exec env) t (M r) (k r) Q E) :
    (Rules.alone exec t env excuse).Triple (always exec env) t P (.op o k) Q E :=
  .op M (fun s _ hP => hstuck s hP)
    (fun s _ hP _ r s' hx => ⟨trivial, rfl, h s hP r s' hx⟩) hk

/-- What a safe program does when it runs alone. By induction on the program,
    which `Prog.runAlone` follows as `Safe` does. -/
theorem safe_ends {Φ : Except ε α → σ → Prop} {p : Prog Op Resp ε α} {s : σ}
    (h : (Rules.alone exec t env excuse).Safe (always exec env) t (fun a => Φ (.ok a))
      (fun e => Φ (.error e)) p s) :
    (p.runAlone (exec t env) s = none → excuse) ∧
      ∀ res s', p.runAlone (exec t env) s = some (res, s') → Φ res s' := by
  induction p generalizing s with
  | ret a =>
      refine ⟨fun hnone => ?_, fun res s' hrun => ?_⟩
      · simp only [Prog.runAlone, reduceCtorEq] at hnone
      · simp only [Prog.runAlone, Option.some.injEq, Prod.mk.injEq] at hrun
        rw [← hrun.1, ← hrun.2]
        exact h
  | throw e =>
      refine ⟨fun hnone => ?_, fun res s' hrun => ?_⟩
      · simp only [Prog.runAlone, reduceCtorEq] at hnone
      · simp only [Prog.runAlone, Option.some.injEq, Prod.mk.injEq] at hrun
        rw [← hrun.1, ← hrun.2]
        exact h
  -- The only place where a run alone can get stuck.
  | op o k ih =>
      simp only [Prog.runAlone]
      cases hx : exec t env o s with
      | none => exact ⟨fun _ => h.1 hx, fun res s' hrun => by simp only [reduceCtorEq] at hrun⟩
      | some rs => exact ih rs.1 (h.2 () rs.1 rs.2 hx).2.2
  | await p ih => exact ih (h s .refl trivial)

/-- A triple about a program that runs alone is about `Prog.runAlone`. -/
theorem alone_ends {Φ : Except ε α → σ → Prop} {p : Prog Op Resp ε α}
    (h : (Rules.alone exec t env excuse).Triple (always exec env) t P p (fun a => Φ (.ok a))
      (fun e => Φ (.error e))) {s : σ} (hP : P s) :
    (p.runAlone (exec t env) s = none → excuse) ∧
      ∀ res s', p.runAlone (exec t env) s = some (res, s') → Φ res s' :=
  safe_ends (h s trivial hP)

end Concurrency
