import RemoteControl.Concurrency.Program
import Mathlib.Logic.Function.Basic

/-!
# Interleaved Execution

A family of programs over one shared state, and the runs in which they take
turns. A turn is one segment: everything a program does between two waits.
Which program takes the next turn is arbitrary, so a statement about all runs
is a statement about every scheduler.

The family is indexed by an arbitrary type and every member is present from
the start, suspended before its first segment. A member that never gets a
turn has not been called, so "any number of calls, at any time" needs no
separate step that creates a call.

What the surroundings decide during a turn, such as the reading of a clock,
is the environment value the turn is taken with. A turn in which some
operation has no outcome is not possible in that state, which is how waiting
for a lock is modelled: the program keeps its place and the others go on.

A run carries a condition on its turns. With the trivial condition it is any
run; a nontrivial one restricts the schedules, which is what a result about
the runs that avoid a certain race is stated with.

Runs are built at their end (`Run.step`), because what is proved of them is
what their last turn preserves. Schedules are lists and are followed from
their beginning, so that a run on a concrete input can be evaluated.
`run_of_follow` connects the two.

## Main definitions

* `segment`: One uninterrupted piece of a program.
* `System`: A shared state and the programs, each at the point it has reached.
* `System.turn`: One program takes a turn.
* `Run`: The runs whose turns all meet a condition.
* `follow`: A run along a given schedule.

## Theorems

* `segment_induction`: Induction along a segment.
* `segment_suspended`: A segment ends at a wait or at the end of the program.
* `Run.trans`: Runs compose.
* `Run.mono`: A weaker condition allows more runs.
* `Run.invariant`: What every turn preserves holds after a run.
* `run_of_runAlone`: A program runs to its end while the others wait.
* `run_of_follow`, `run_of_schedule`: Following a schedule is a run.
-/

namespace Concurrency

variable {Op : Type} {Resp : Op → Type} {ε α σ Env ι : Type}

/-- One uninterrupted piece of a program: the operations up to the next wait
    or to the end, or `none` if one of them cannot happen. -/
def segment (exec : (o : Op) → σ → Option (Resp o × σ)) :
    Prog Op Resp ε α → σ → Option (Prog Op Resp ε α × σ)
  | .ret a, s => some (.ret a, s)
  | .throw e, s => some (.throw e, s)
  | .await p, s => some (.await p, s)
  | .op o k, s => match exec o s with
    | none => none
    | some (r, s') => segment exec (k r) s'

/-- The program is between two turns, or over. -/
def Prog.Suspended : Prog Op Resp ε α → Prop
  | .op _ _ => False
  | _ => True

/-- Induction along a segment, from where it stops back to where it begins. -/
theorem segment_induction {exec : (o : Op) → σ → Option (Resp o × σ)} {p' : Prog Op Resp ε α}
    {s' : σ} {motive : Prog Op Resp ε α → σ → Prop} (stop : p'.Suspended → motive p' s')
    (step : ∀ o k s r s₁, exec o s = some (r, s₁) → motive (k r) s₁ → motive (.op o k) s)
    {p : Prog Op Resp ε α} {s : σ} (h : segment exec p s = some (p', s')) : motive p s := by
  -- Where the program does not begin with an operation the segment is over.
  have hstop : ∀ q u, q.Suspended → some (q, u) = some (p', s') → motive q u := by
    intro q u hq hsame
    rw [Option.some.injEq, Prod.mk.injEq] at hsame
    rw [hsame.1, hsame.2]
    exact stop (hsame.1 ▸ hq)
  induction p generalizing s with
  | ret a => exact hstop _ _ trivial h
  | throw e => exact hstop _ _ trivial h
  | await p _ => exact hstop _ _ trivial h
  | op o k ih =>
      simp only [segment] at h
      cases hx : exec o s with
      | none =>
          rw [hx] at h
          simp only [reduceCtorEq] at h
      | some rs =>
          rw [hx] at h
          exact step o k s rs.1 rs.2 hx (ih rs.1 h)

/-- A segment goes on until the program waits or is over, so afterwards no
    operation is pending. -/
theorem segment_suspended (exec : (o : Op) → σ → Option (Resp o × σ))
    (p : Prog Op Resp ε α) (s : σ) (p' : Prog Op Resp ε α) (s' : σ)
    (h : segment exec p s = some (p', s')) : p'.Suspended :=
  segment_induction (motive := fun _ _ => p'.Suspended) (fun hp => hp)
    (fun _ _ _ _ _ _ ih => ih) h

/-- The shared state and the programs, each at the point it has reached. -/
structure System (Op : Type) (Resp : Op → Type) (ε α σ ι : Type) where
  shared : σ
  threads : ι → Prog Op Resp ε α

/-- Every program suspended before its first segment. -/
def System.start (s : σ) (p : ι → Prog Op Resp ε α) : System Op Resp ε α σ ι :=
  { shared := s, threads := fun t => .await (p t) }

variable [DecidableEq ι]
variable (exec : ι → Env → (o : Op) → σ → Option (Resp o × σ))

/-- Program `t` takes a turn, with `env` deciding what the surroundings
    decide. A program that is over, or stuck, has no turn to take. -/
def System.turn (sys : System Op Resp ε α σ ι) (t : ι) (env : Env) :
    Option (System Op Resp ε α σ ι) :=
  match sys.threads t with
  | .await p => match segment (exec t env) p sys.shared with
    | none => none
    | some (p', s') => some { shared := s', threads := Function.update sys.threads t p' }
  | _ => none

/-- The runs from `a` whose turns all meet the condition. -/
inductive Run (ok : System Op Resp ε α σ ι → ι → Env → Prop)
    (a : System Op Resp ε α σ ι) : System Op Resp ε α σ ι → Prop where
  | refl : Run ok a a
  | step (b c : System Op Resp ε α σ ι) (t : ι) (env : Env) (hab : Run ok a b)
      (hok : ok b t env) (hbc : b.turn exec t env = some c) : Run ok a c

/-- The condition every turn meets. -/
def anyTurn (_ : System Op Resp ε α σ ι) (_ : ι) (_ : Env) : Prop := True

variable {exec}

/-- Runs compose, by induction on the second. -/
theorem Run.trans {ok : System Op Resp ε α σ ι → ι → Env → Prop}
    {a b c : System Op Resp ε α σ ι} (hab : Run exec ok a b) (hbc : Run exec ok b c) :
    Run exec ok a c := by
  induction hbc with
  | refl => exact hab
  | step d e t env _ hok hde ih => exact .step d e t env ih hok hde

/-- A weaker condition on the turns allows more runs. -/
theorem Run.mono {ok ok' : System Op Resp ε α σ ι → ι → Env → Prop}
    (hmono : ∀ s t env, ok s t env → ok' s t env) {a b : System Op Resp ε α σ ι}
    (h : Run exec ok a b) : Run exec ok' a b := by
  induction h with
  | refl => exact .refl
  | step c d t env _ hok hcd ih => exact .step c d t env ih (hmono c t env hok) hcd

/-- What every allowed turn preserves holds wherever a run leads. The induction
    every safety result is proved with. -/
theorem Run.invariant {ok : System Op Resp ε α σ ι → ι → Env → Prop}
    {P : System Op Resp ε α σ ι → Prop} {a b : System Op Resp ε α σ ι}
    (h : Run exec ok a b) (ha : P a)
    (hstep : ∀ c d t env, P c → ok c t env → c.turn exec t env = some d → P d) : P b := by
  induction h with
  | refl => exact ha
  | step c d t env _ hok hcd ih => exact hstep c d t env ih hok hcd

/-- What a turn did, read off its equation. -/
theorem turn_cases {sys sys' : System Op Resp ε α σ ι} {t : ι} {env : Env}
    (h : sys.turn exec t env = some sys') :
    ∃ p p' s', sys.threads t = .await p ∧ segment (exec t env) p sys.shared = some (p', s') ∧
      sys' = { shared := s', threads := Function.update sys.threads t p' } := by
  simp only [System.turn] at h
  cases hp : sys.threads t with
  | ret a =>
      rw [hp] at h
      simp only [reduceCtorEq] at h
  | throw e =>
      rw [hp] at h
      simp only [reduceCtorEq] at h
  | op o k =>
      rw [hp] at h
      simp only [reduceCtorEq] at h
  -- Only a program that waits has a turn to take.
  | await p =>
      rw [hp] at h
      -- Its turn is its segment, up to the next wait.
      simp only at h
      cases hs : segment (exec t env) p sys.shared with
      | none =>
          rw [hs] at h
          simp only [reduceCtorEq] at h
      | some ps =>
          rw [hs] at h
          simp only [Option.some.injEq] at h
          exact ⟨p, ps.1, ps.2, rfl, hs, h.symm⟩

/-- A program that is over in this way. -/
def Prog.over : Except ε α → Prog Op Resp ε α
  | .ok a => .ret a
  | .error e => .throw e

/-- The turns that a program takes when nobody else takes one. The first segment
    is kept apart from the turns after it, because the run alone does not stop at
    the first wait and a turn begins with one. -/
theorem turns_of_runAlone {p : Prog Op Resp ε α} {s s' : σ} {t : ι} {env : Env}
    {result : Except ε α} (h : p.runAlone (exec t env) s = some (result, s')) :
    ∃ p₁ s₁, segment (exec t env) p s = some (p₁, s₁) ∧ ∀ sys : System Op Resp ε α σ ι,
      sys.threads t = p₁ → sys.shared = s₁ → ∃ sys', Run exec anyTurn sys sys' ∧
        sys'.shared = s' ∧ sys'.threads t = .over result := by
  induction p generalizing s with
  | ret a =>
      simp only [Prog.runAlone, Option.some.injEq, Prod.mk.injEq] at h
      refine ⟨_, _, rfl, fun sys hp hs => ⟨sys, .refl, hs.trans h.2, ?_⟩⟩
      -- It is over already, and takes no turn at all.
      rw [← h.1]
      exact hp
  | throw e =>
      simp only [Prog.runAlone, Option.some.injEq, Prod.mk.injEq] at h
      refine ⟨_, _, rfl, fun sys hp hs => ⟨sys, .refl, hs.trans h.2, ?_⟩⟩
      rw [← h.1]
      exact hp
  | op o k ih =>
      simp only [Prog.runAlone] at h
      -- An operation belongs to the segment that the induction hypothesis describes.
      simp only [segment]
      cases hx : exec t env o s with
      | none =>
          rw [hx] at h
          simp only [reduceCtorEq] at h
      | some rs =>
          rw [hx] at h
          exact ih rs.1 h
  | await p ih =>
      rcases ih h with ⟨p₁, s₁, hseg, hrest⟩
      refine ⟨_, _, rfl, fun sys hp hs => ?_⟩
      -- One turn for the segment, and then the rest.
      have hturn : sys.turn exec t env =
          some { shared := s₁, threads := Function.update sys.threads t p₁ } := by
        simp only [System.turn, hp, hs, hseg]
      rcases hrest { shared := s₁, threads := Function.update sys.threads t p₁ }
        (Function.update_self t p₁ sys.threads) rfl with ⟨sys', hrun, hend⟩
      exact ⟨sys', (Run.step sys _ t env .refl trivial hturn).trans hrun, hend⟩

/-- A program that can be run alone to its end can be run to it in a system. -/
theorem run_of_runAlone {sys : System Op Resp ε α σ ι} {t : ι} {env : Env}
    {result : Except ε α} {s' : σ} (hp : (sys.threads t).Suspended)
    (h : (sys.threads t).runAlone (exec t env) sys.shared = some (result, s')) :
    ∃ sys', Run exec anyTurn sys sys' ∧ sys'.shared = s' ∧ sys'.threads t = .over result := by
  rcases turns_of_runAlone h with ⟨p₁, s₁, hseg, hrest⟩
  -- It is suspended, so its first segment is empty.
  have hsame : sys.threads t = p₁ ∧ sys.shared = s₁ := by
    cases hthread : sys.threads t with
    | op o k =>
        rw [hthread] at hp
        exact hp.elim
    | _ =>
        rw [hthread] at hseg
        simp only [segment, Option.some.injEq, Prod.mk.injEq] at hseg
        exact hseg
  exact hrest sys hsame.1 hsame.2

variable (exec)

/-- Follow a schedule, a list of who takes the turn and with what environment.
    There is no result if somebody is scheduled who has no turn to take. -/
def follow : System Op Resp ε α σ ι → List (ι × Env) → Option (System Op Resp ε α σ ι)
  | sys, [] => some sys
  | sys, (t, env) :: rest => match sys.turn exec t env with
    | none => none
    | some sys' => follow sys' rest

variable {exec}

/-- Following a schedule is a run with any condition that its environments meet. -/
theorem run_of_schedule {P : Env → Prop} (ls : List (ι × Env)) (hP : ∀ x ∈ ls, P x.2)
    (a b : System Op Resp ε α σ ι) (h : follow exec a ls = some b) :
    Run exec (fun _ _ env => P env) a b := by
  induction ls generalizing a with
  | nil =>
      simp only [follow, Option.some.injEq] at h
      rw [h]
      exact .refl
  | cons l rest ih =>
      simp only [follow] at h
      cases hl : a.turn exec l.1 l.2 with
      | none =>
          rw [hl] at h
          simp only [reduceCtorEq] at h
      -- The first turn, and then the rest of the schedule.
      | some c =>
          rw [hl] at h
          exact (Run.step a c l.1 l.2 .refl (hP l List.mem_cons_self) hl).trans
            (ih (fun x hx => hP x (List.mem_cons_of_mem l hx)) c h)

/-- Following a schedule is a run, with no condition on its turns. -/
theorem run_of_follow (ls : List (ι × Env)) (a b : System Op Resp ε α σ ι)
    (h : follow exec a ls = some b) : Run exec anyTurn a b :=
  run_of_schedule ls (fun _ _ => trivial) a b h

end Concurrency
