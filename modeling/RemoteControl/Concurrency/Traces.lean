import RemoteControl.Concurrency.Interleave
import Mathlib.Data.List.Infix

/-!
# The Trace of a Program

What a program has done so far, as a list of marks with the newest first. A
program that runs among others leaves its marks between theirs, but which
operations it issues, and in which order, depends on the answers alone. So a
fact about a program's own trace can be proved without the other programs: by
going through the program with an arbitrary answer to each operation
(`Prog.Along`).

What a mark is, is a parameter, and so is the relation that says which marks
an operation with its answer may leave. A result about the answers, such as
where in a history a row was read, is put into that relation.

The state has to hold the traces (`Marked`). Then in every state a run leads
to, each program is at a point that its trace leads to, and each of the marks
is of an operation that was in order at its time.

A trace is read with the newest mark first, so `older <:+ newer` says that the
one is what the other was at an earlier time. Where in a history something was
the case is stated by a suffix: `m :: l <:+ h` puts the mark `m` at the point
of the history `h` at which `l` had happened.

## Main definitions

* `Prog.Along`: What holds along every path of a program.
* `Trail`: The marks of a trace were in order.
* `Marked`: The traces are kept in the state.
* `Traced`: A system whose programs are where their traces lead to.
* `marksOf`: The trace of a program, when all traces are kept in one history.
* `Prog.Within`: What holds within each segment of a program.
* `Contiguous`: The marks of a segment stand together in the history.

## Theorems

* `Prog.Along.bind`, `Prog.Along.onError`: Sequencing and handlers.
* `Traced.run`: The programs stay where their traces lead to.
* `Traced.finishes`: A program that need not wait any more can be finished.
* `marksOf_append`, `marksOf_at`: Where in the history the marks of a trace are.
* `contiguous_of_run`: A segment is not interrupted.
* `Prog.Along.uses`: A program whose operations are all harmless.
* `runsAlone_of_along`, `segment_along`: One segment, and a program that
  nobody interrupts.
* `suffix_trichotomy`, `marksOf_unique`: Of two marks one came first, and when
  they are the same.
* `Prog.Within.bind`: Sequencing, within a segment.
-/

namespace Concurrency

variable {Op : Type} {Resp : Op → Type} {ε α β σ μ Env ι : Type}

/-! ## Along a program -/

namespace Prog

/-- From the trace so far on, whatever the answers are, every operation is in
    order when it is issued, and the program ends in `Q` or `E`. -/
def Along (S : (o : Op) → Resp o → μ → Prop) (ok : List μ → Op → Prop) (Q : List μ → α → Prop)
    (E : List μ → ε → Prop) : Prog Op Resp ε α → List μ → Prop
  | ret a, tr => Q tr a
  | throw e, tr => E tr e
  | op o k, tr => ok tr o ∧ ∀ r m, S o r m → Along S ok Q E (k r) (m :: tr)
  | await p, tr => Along S ok Q E p tr

variable {S : (o : Op) → Resp o → μ → Prop} {ok : List μ → Op → Prop} {Q : List μ → α → Prop}
  {Q' : List μ → β → Prop} {E E' : List μ → ε → Prop} {tr : List μ}

/-- Weakening the postconditions. By induction on the program, as for every rule
    of this section. -/
theorem Along.conseq {p : Prog Op Resp ε α} {Q' : List μ → α → Prop} (h : p.Along S ok Q E tr)
    (hQ : ∀ tr a, Q tr a → Q' tr a) (hE : ∀ tr e, E tr e → E' tr e) : p.Along S ok Q' E' tr := by
  induction p generalizing tr with
  | ret a => exact hQ tr a h
  | throw e => exact hE tr e h
  | op o k ih => exact ⟨h.1, fun r m hm => ih r (h.2 r m hm)⟩
  | await p ih => exact ih h

/-- Asking less of the operations. -/
theorem Along.mono {p : Prog Op Resp ε α} {ok' : List μ → Op → Prop} (h : p.Along S ok Q E tr)
    (hok : ∀ tr o, ok tr o → ok' tr o) : p.Along S ok' Q E tr := by
  induction p generalizing tr with
  | ret a => exact h
  | throw e => exact h
  | op o k ih => exact ⟨hok tr o h.1, fun r m hm => ih r (h.2 r m hm)⟩
  | await p ih => exact ih h

/-- Sequencing. The second program goes on from the trace that the first has left. -/
theorem Along.bind {p : Prog Op Resp ε α} {f : α → Prog Op Resp ε β} (h : p.Along S ok Q E tr)
    (hf : ∀ tr a, Q tr a → (f a).Along S ok Q' E tr) : (p.bind f).Along S ok Q' E tr := by
  induction p generalizing tr with
  | ret a => exact hf tr a h
  | throw e => exact h
  | op o k ih => exact ⟨h.1, fun r m hm => ih r (h.2 r m hm)⟩
  | await p ih => exact ih h

/-- A handler. It goes on from the trace at which the error was thrown. -/
theorem Along.onError {p : Prog Op Resp ε α} {f : ε → Prog Op Resp ε α}
    (h : p.Along S ok Q E tr) (hf : ∀ tr e, E tr e → (f e).Along S ok Q E' tr) :
    (p.onError f).Along S ok Q E' tr := by
  induction p generalizing tr with
  | ret a => exact h
  | throw e => exact hf tr e h
  | op o k ih => exact ⟨h.1, fun r m hm => ih r (h.2 r m hm)⟩
  | await p ih => exact ih h

/-- A program whose operations are in order, and keep what is known. -/
theorem Along.uses {O : Op → Prop} {K : List μ → Prop} {p : Prog Op Resp ε α} (hp : p.Uses O)
    (hop : ∀ o r m tr, O o → S o r m → K tr → K (m :: tr)) (hok : ∀ o tr, O o → K tr → ok tr o)
    (h : K tr) : p.Along S ok (fun tr _ => K tr) (fun tr _ => K tr) tr := by
  induction p generalizing tr with
  | ret a => exact h
  | throw e => exact h
  | op o k ih =>
      exact ⟨hok o tr hp.1 h, fun r m hm => ih r (hp.2 r) (hop o r m tr hp.1 hm h)⟩
  | await p ih => exact ih hp h

/-- Nothing is asked of the program. -/
theorem along_trivial (p : Prog Op Resp ε α) (tr : List μ) :
    p.Along S (fun _ _ => True) (fun _ _ => True) (fun _ _ => True) tr := by
  induction p generalizing tr with
  | ret a => trivial
  | throw e => trivial
  | op o k ih => exact ⟨trivial, fun r m _ => ih r (m :: tr)⟩
  | await p ih => exact ih tr

end Prog

/-- Each mark is of an operation that was in order after the marks before. -/
def Trail (S : (o : Op) → Resp o → μ → Prop) (ok : List μ → Op → Prop) (tr : List μ) : Prop :=
  ∀ m tr', m :: tr' <:+ tr → ∃ o r, S o r m ∧ ok tr' o

/-- No marks, nothing to show. -/
theorem trail_nil {S : (o : Op) → Resp o → μ → Prop} {ok : List μ → Op → Prop} :
    Trail S ok [] := by
  intro m tr' h
  rw [List.suffix_nil] at h
  simp only [reduceCtorEq] at h

/-- One more mark, of an operation that was in order. -/
theorem Trail.cons {S : (o : Op) → Resp o → μ → Prop} {ok : List μ → Op → Prop} {tr : List μ}
    {o : Op} {r : Resp o} {m : μ} (h : Trail S ok tr) (hm : S o r m) (ho : ok tr o) :
    Trail S ok (m :: tr) := by
  intro m' tr' hs
  -- The mark in question is the new one, or it was there before.
  rcases List.suffix_cons_iff.mp hs with heq | hs
  · rw [List.cons.injEq] at heq
    rw [heq.1, heq.2]
    exact ⟨o, r, hm, ho⟩
  · exact h m' tr' hs

/-! ## Among other programs -/

section Traced

variable (exec : ι → Env → (o : Op) → σ → Option (Resp o × σ)) (I : σ → Prop)
  (S : ι → (o : Op) → Resp o → μ → Prop) (marks : ι → σ → List μ)

/-- The state holds the trace of every program. An operation adds its mark to
    the trace of the program that issues it, and to no other. -/
structure Marked : Prop where
  inv : ∀ t env o s r s', exec t env o s = some (r, s') → I s → I s'
  own : ∀ t env o s r s', exec t env o s = some (r, s') → I s →
    ∃ m, S t o r m ∧ marks t s' = m :: marks t s
  others : ∀ t u env o s r s', exec t env o s = some (r, s') → u ≠ t → marks u s' = marks u s

variable (ok : ι → List μ → Op → Prop) (Q : ι → List μ → α → Prop) (E : ι → List μ → ε → Prop)

/-- Every program is at a point its trace leads to. -/
structure Traced (sys : System Op Resp ε α σ ι) : Prop where
  inv : I sys.shared
  along : ∀ t, (sys.threads t).Along (S t) (ok t) (Q t) (E t) (marks t sys.shared)
  trail : ∀ t, Trail (S t) (ok t) (marks t sys.shared)

variable {exec I S marks ok Q E}

/-- Before the first turn all traces are empty, and every program is at its
    beginning. -/
theorem Traced.start {s : σ} {p : ι → Prog Op Resp ε α} (hs : I s) (hnil : ∀ t, marks t s = [])
    (hp : ∀ t, (p t).Along (S t) (ok t) (Q t) (E t) []) :
    Traced I S marks ok Q E (System.start s p) := by
  refine ⟨hs, fun t => ?_, fun t => ?_⟩
  · simp only [System.start, hnil]
    exact hp t
  · simp only [System.start, hnil]
    exact trail_nil

/-- A segment of a program that is where its trace leads to. The traces of the
    others are the same afterwards. -/
theorem segment_along (hmarked : Marked exec I S marks) {t : ι} {env : Env}
    {p p' : Prog Op Resp ε α} {s s' : σ} (hs : I s)
    (h : p.Along (S t) (ok t) (Q t) (E t) (marks t s)) (htrail : Trail (S t) (ok t) (marks t s))
    (hseg : segment (exec t env) p s = some (p', s')) :
    I s' ∧ p'.Along (S t) (ok t) (Q t) (E t) (marks t s') ∧ Trail (S t) (ok t) (marks t s') ∧
      ∀ u, u ≠ t → marks u s' = marks u s := by
  refine segment_induction (motive := fun p s => I s →
    p.Along (S t) (ok t) (Q t) (E t) (marks t s) → Trail (S t) (ok t) (marks t s) →
    I s' ∧ p'.Along (S t) (ok t) (Q t) (E t) (marks t s') ∧ Trail (S t) (ok t) (marks t s') ∧
      ∀ u, u ≠ t → marks u s' = marks u s)
    (fun _ hs h htrail => ⟨hs, h, htrail, fun _ _ => rfl⟩)
    (fun o k s r s₁ hx ih hs h htrail => ?_) hseg hs h htrail
  -- The operation has left its mark, and the program goes on along it.
  rcases hmarked.own t env o s r s₁ hx hs with ⟨m, hm, hmarks⟩
  have halong := h.2 r m hm
  have htrail' := htrail.cons hm h.1
  rw [← hmarks] at halong htrail'
  rcases ih (hmarked.inv t env o s r s₁ hx hs) halong htrail' with ⟨hs', hend, htrail'', hothers⟩
  refine ⟨hs', hend, htrail'', fun u hu => ?_⟩
  -- An operation leaves the trails of the others as they are.
  rw [hothers u hu]
  exact hmarked.others t u env o s r s₁ hx hu

/-- A program whose operations, from here on, all have an answer can be run alone
    to its end. `L` is what the answers need to know of the trace, and a further
    mark does not spoil it. -/
theorem runsAlone_of_along (hmarked : Marked exec I S marks) {L : List μ → Prop} {t : ι} {env : Env}
    (hL : ∀ m tr, L tr → L (m :: tr))
    (hanswers : ∀ tr o s, L tr → ok t tr o → (exec t env o s).isSome)
    {p : Prog Op Resp ε α} {s : σ} (hs : I s) (hl : L (marks t s))
    (h : p.Along (S t) (ok t) (Q t) (E t) (marks t s)) :
    ∃ result s', p.runAlone (exec t env) s = some (result, s') := by
  induction p generalizing s with
  | ret a => exact ⟨_, _, rfl⟩
  | throw e => exact ⟨_, _, rfl⟩
  | await p ih => exact ih hs hl h
  | op o k ih =>
      -- An operation that is in order is answered.
      rcases Option.isSome_iff_exists.mp (hanswers _ o s hl h.1) with ⟨rs, hx⟩
      rcases hmarked.own t env o s rs.1 rs.2 hx hs with ⟨m, hm, hmarks⟩
      have halong := h.2 rs.1 m hm
      have hl' := hL m _ hl
      rw [← hmarks] at halong hl'
      simp only [Prog.runAlone, hx]
      exact ih rs.1 (hmarked.inv t env o s rs.1 rs.2 hx hs) hl' halong

variable [DecidableEq ι]

/-- A turn leaves every program at a point that its trace leads to: its own by
    `segment_along`, and the others because neither their points nor their traces
    have moved. -/
theorem Traced.turn (hmarked : Marked exec I S marks) {sys sys' : System Op Resp ε α σ ι} {t : ι}
    {env : Env} (h : Traced I S marks ok Q E sys) (hturn : sys.turn exec t env = some sys') :
    Traced I S marks ok Q E sys' := by
  rcases turn_cases hturn with ⟨p, p', s', hp, hseg, rfl⟩
  have halong : p.Along (S t) (ok t) (Q t) (E t) (marks t sys.shared) := by
    have hawait := h.along t
    rw [hp] at hawait
    exact hawait
  rcases segment_along hmarked h.inv halong (h.trail t) hseg with ⟨hs', hend, htrail, hothers⟩
  refine ⟨hs', fun u => ?_, fun u => ?_⟩
  -- Whoever has not had the turn has the same trail as before.
  · by_cases hu : u = t
    · subst hu
      simp only [Function.update_self]
      exact hend
    · simp only [Function.update_of_ne hu]
      rw [hothers u hu]
      exact h.along u
  · by_cases hu : u = t
    · subst hu
      exact htrail
    · simp only
      rw [hothers u hu]
      exact h.trail u

/-- The programs stay where their traces lead to. -/
theorem Traced.run (hmarked : Marked exec I S marks)
    {ok' : System Op Resp ε α σ ι → ι → Env → Prop} {a b : System Op Resp ε α σ ι}
    (h : Traced I S marks ok Q E a) (hrun : Run exec ok' a b) : Traced I S marks ok Q E b :=
  hrun.invariant h (fun _ _ _ _ hc _ hturn => hc.turn hmarked hturn)

/-- A program whose operations, from here on, all have an answer can be run to
    its end while the others wait. -/
theorem Traced.finishes (hmarked : Marked exec I S marks) {L : List μ → Prop} {t : ι}
    (env : Env) {sys : System Op Resp ε α σ ι} (h : Traced I S marks ok Q E sys)
    (hL : ∀ m tr, L tr → L (m :: tr))
    (hanswers : ∀ tr o s, L tr → ok t tr o → (exec t env o s).isSome)
    (hl : L (marks t sys.shared)) (hp : (sys.threads t).Suspended) :
    ∃ sys' result, Run exec anyTurn sys sys' ∧ sys'.threads t = .over result := by
  rcases runsAlone_of_along hmarked hL hanswers h.inv hl (h.along t) with ⟨result, s', halone⟩
  rcases run_of_runAlone hp halone with ⟨sys', hrun, _, hover⟩
  exact ⟨sys', result, hrun, hover⟩

end Traced

/-! ## One history of all programs -/

section History

variable [DecidableEq ι] (owner : μ → ι)

/-- The marks of one program in a history of the marks of all. -/
def marksOf (t : ι) (l : List μ) : List μ := l.filter (fun m => decide (owner m = t))

variable {owner} {t : ι} {m : μ} {l l' : List μ}

/-- A mark of its own is in the trace of a program. -/
theorem marksOf_own (h : owner m = t) : marksOf owner t (m :: l) = m :: marksOf owner t l := by
  simp only [marksOf, List.filter_cons, h, decide_true, if_true]

/-- A mark of somebody else is not. -/
theorem marksOf_other (h : owner m ≠ t) : marksOf owner t (m :: l) = marksOf owner t l := by
  simp only [marksOf, List.filter_cons, h, decide_false, Bool.false_eq_true, if_false]

/-- An earlier history has an earlier trace. -/
theorem marksOf_suffix (h : l <:+ l') : marksOf owner t l <:+ marksOf owner t l' :=
  h.filter _

/-- The marks in a trace are those of its program. -/
theorem mem_marksOf : m ∈ marksOf owner t l ↔ m ∈ l ∧ owner m = t := by
  simp only [marksOf, List.mem_filter, decide_eq_true_eq]

/-- The marks before one of the program's own. -/
theorem marksOf_before (h : m :: l <:+ l') (hm : owner m = t) :
    m :: marksOf owner t l <:+ marksOf owner t l' := by
  rw [← marksOf_own hm]
  exact marksOf_suffix h

/-- A mark at a point of the history is in the history. -/
theorem mem_of_suffix (h : m :: l <:+ l') : m ∈ l' := h.subset List.mem_cons_self

/-- A mark in the history is at some point of it. -/
theorem exists_suffix (h : m ∈ l) : ∃ l', m :: l' <:+ l := by
  rcases List.append_of_mem h with ⟨newer, older, rfl⟩
  exact ⟨older, List.suffix_append newer _⟩

/-- The newest mark of a trace, with the marks of others after it. -/
theorem marksOf_cons {tr : List μ} (h : marksOf owner t l = m :: tr) :
    ∃ lm, m :: lm <:+ l ∧ marksOf owner t lm = tr ∧ owner m = t := by
  induction l with
  | nil => simp only [marksOf, List.filter_nil, reduceCtorEq] at h
  | cons b l ih =>
      -- Either the last mark of the history is the newest of the trace, or somebody
      -- else's.
      by_cases hb : owner b = t
      · rw [marksOf_own hb, List.cons.injEq] at h
        rw [← h.1]
        exact ⟨l, List.suffix_rfl, h.2, hb⟩
      · rw [marksOf_other hb] at h
        rcases ih h with ⟨lm, hlm, hrest⟩
        exact ⟨lm, hlm.trans (List.suffix_cons b l), hrest⟩

/-- Where in the history the marks of a trace are: the marks that are older in the
    trace are those before that point. By going back through the newer marks one
    by one. -/
theorem marksOf_append {newer older : List μ} (h : marksOf owner t l = newer ++ older) :
    ∃ lo, lo <:+ l ∧ marksOf owner t lo = older := by
  induction newer generalizing l with
  | nil => exact ⟨l, List.suffix_rfl, h⟩
  | cons a newer ih =>
      rcases marksOf_cons h with ⟨la, hla, hmarks, _⟩
      rcases ih hmarks with ⟨lo, hlo, holder⟩
      exact ⟨lo, hlo.trans ((List.suffix_cons a la).trans hla), holder⟩

/-- Where in the history a mark of a trace is, with the trace before it. -/
theorem marksOf_at {newer older : List μ} (h : marksOf owner t l = newer ++ m :: older) :
    ∃ lm, m :: lm <:+ l ∧ marksOf owner t lm = older := by
  rcases marksOf_append h with ⟨lo, hlo, hmarks⟩
  rcases marksOf_cons hmarks with ⟨lm, hlm, holder, _⟩
  exact ⟨lm, hlm.trans hlo, holder⟩

/-- Of two marks of a history one came first, or they are the same. Suffixes of
    one history are in line. -/
theorem suffix_trichotomy {m' : μ} {l₀ : List μ} (h : m :: l <:+ l₀) (h' : m' :: l' <:+ l₀) :
    m :: l <:+ l' ∨ m' :: l' <:+ l ∨ m :: l = m' :: l' := by
  rcases List.suffix_or_suffix_of_suffix h h' with hs | hs
  · rcases List.suffix_cons_iff.mp hs with heq | hs
    · exact .inr (.inr heq)
    · exact .inl hs
  · rcases List.suffix_cons_iff.mp hs with heq | hs
    · exact .inr (.inr heq.symm)
    · exact .inr (.inl hs)

/-- The one mark is older than the other. -/
def Before (l : List μ) (m m' : μ) : Prop := ∃ older, m' :: older <:+ l ∧ m ∈ older

/-- A program has one mark of a kind, if none of that kind is before it in its
    trace. -/
theorem marksOf_unique {K : μ → Prop} {m' : μ} {l₀ : List μ}
    (hfirst : ∀ d ld, d :: ld <:+ l₀ → K d → ∀ d' ∈ marksOf owner (owner d) ld, ¬ K d')
    (h : m :: l <:+ l₀) (h' : m' :: l' <:+ l₀) (hm : K m) (hm' : K m')
    (howner : owner m = owner m') : m :: l = m' :: l' := by
  rcases suffix_trichotomy h h' with hs | hs | heq
  · exact absurd hm (hfirst m' l' h' hm' m (mem_marksOf.mpr ⟨mem_of_suffix hs, howner⟩))
  · exact absurd hm' (hfirst m l h hm m' (mem_marksOf.mpr ⟨mem_of_suffix hs, howner.symm⟩))
  · exact heq

end History

/-! ## Segments in the history -/

namespace Prog

/-- Every operation is in order after the marks of its segment so far, and what
    the program returns fits to those of its last segment. A wait begins a new
    one. -/
def Within (S : (o : Op) → Resp o → μ → Prop) (ok : List μ → Op → Prop) (Q : List μ → α → Prop) :
    Prog Op Resp ε α → List μ → Prop
  | ret a, seg => Q seg a
  | throw _, _ => True
  | op o k, seg => ok seg o ∧ ∀ r m, S o r m → Within S ok Q (k r) (m :: seg)
  | await p, _ => Within S ok Q p []

variable {S : (o : Op) → Resp o → μ → Prop} {ok : List μ → Op → Prop} {Q : List μ → α → Prop}
  {Q' : List μ → β → Prop} {seg : List μ}

/-- Sequencing. A sequence does not wait in between, so the second goes on in the
    segment of the first. -/
theorem Within.bind {p : Prog Op Resp ε α} {f : α → Prog Op Resp ε β} (h : p.Within S ok Q seg)
    (hf : ∀ seg a, Q seg a → (f a).Within S ok Q' seg) : (p.bind f).Within S ok Q' seg := by
  induction p generalizing seg with
  | ret a => exact hf seg a h
  | throw e => trivial
  | op o k ih => exact ⟨h.1, fun r m hm => ih r (h.2 r m hm)⟩
  | await p ih => exact ih h

/-- What a segment leaves goes on in a new one. The marks of the old one are
    forgotten. -/
theorem Within.suspended {p : Prog Op Resp ε α} (h : p.Within S ok (fun _ _ => True) seg)
    (hp : p.Suspended) : p.Within S ok (fun _ _ => True) [] := by
  cases p with
  | op o k => exact hp.elim
  | ret a => trivial
  | throw e => trivial
  | await p => exact h

end Prog

section Contiguous

variable (S : ι → (o : Op) → Resp o → μ → Prop) (ok : ι → List μ → Op → Prop)

/-- Right before each mark stand the marks of its segment, after which its
    operation was in order. -/
def Contiguous (l : List μ) : Prop :=
  ∀ m l', m :: l' <:+ l → ∃ t o r seg older, S t o r m ∧ l' = seg ++ older ∧ ok t seg o

variable {S ok} {exec : ι → Env → (o : Op) → σ → Option (Resp o × σ)} {history : σ → List μ}

/-- A mark whose operation was in order after the marks of its segment. -/
theorem Contiguous.cons {m : μ} {seg older : List μ} {t : ι} {o : Op} {r : Resp o}
    (h : Contiguous S ok (seg ++ older)) (hm : S t o r m) (ho : ok t seg o) :
    Contiguous S ok (m :: (seg ++ older)) := by
  intro m' l' hs
  rcases List.suffix_cons_iff.mp hs with heq | hs
  · rw [List.cons.injEq] at heq
    rw [heq.1, heq.2]
    exact ⟨t, o, r, seg, older, hm, rfl, ho⟩
  · exact h m' l' hs

/-- Within a segment the marks are put on top of one another, and no other mark
    comes between them. -/
theorem segment_within
    (hmark : ∀ t env o s r s', exec t env o s = some (r, s') →
      ∃ m, S t o r m ∧ history s' = m :: history s)
    {t : ι} {env : Env} {p p' : Prog Op Resp ε α} {s s' : σ} {seg older : List μ}
    (hp : p.Within (S t) (ok t) (fun _ _ => True) seg) (hs : history s = seg ++ older)
    (h : Contiguous S ok (history s)) (hseg : segment (exec t env) p s = some (p', s')) :
    p'.Within (S t) (ok t) (fun _ _ => True) [] ∧ Contiguous S ok (history s') := by
  refine segment_induction (motive := fun p s => ∀ seg,
    p.Within (S t) (ok t) (fun _ _ => True) seg → history s = seg ++ older →
    Contiguous S ok (history s) →
    p'.Within (S t) (ok t) (fun _ _ => True) [] ∧ Contiguous S ok (history s'))
    (fun hstop seg hp _ h => ⟨hp.suspended hstop, h⟩)
    (fun o k s r s₁ hx ih seg hp hs h => ?_) hseg seg hp hs h
  -- The operation puts its mark on top of those of its segment.
  rcases hmark t env o s r s₁ hx with ⟨m, hm, hhist⟩
  rw [hs] at hhist h
  refine ih (m :: seg) (hp.2 r m hm) hhist ?_
  rw [hhist]
  exact h.cons hm hp.1

/-- In a run the marks of a segment stand together. -/
theorem contiguous_of_run [DecidableEq ι]
    (hmark : ∀ t env o s r s', exec t env o s = some (r, s') →
      ∃ m, S t o r m ∧ history s' = m :: history s)
    {c : System Op Resp ε α σ ι → ι → Env → Prop} {a b : System Op Resp ε α σ ι}
    (hrun : Run exec c a b) (hnil : history a.shared = [])
    (hthreads : ∀ t, (a.threads t).Within (S t) (ok t) (fun _ _ => True) []) :
    Contiguous S ok (history b.shared) := by
  refine (hrun.invariant (P := fun d =>
    (∀ t, (d.threads t).Within (S t) (ok t) (fun _ _ => True) []) ∧
    Contiguous S ok (history d.shared)) ⟨hthreads, ?_⟩ ?_).2
  · intro m l' h
    rw [hnil, List.suffix_nil] at h
    simp only [reduceCtorEq] at h
  · intro d d' t env hd _ hturn
    rcases turn_cases hturn with ⟨p, p', s', hp, hseg, rfl⟩
    have hwithin : p.Within (S t) (ok t) (fun _ _ => True) [] := by
      have hawait := hd.1 t
      rw [hp] at hawait
      exact hawait
    -- A turn begins with an empty segment.
    rcases segment_within hmark hwithin (List.nil_append _).symm hd.2 hseg with ⟨hp', hlog⟩
    refine ⟨fun u => ?_, hlog⟩
    by_cases hu : u = t
    · subst hu
      simp only [Function.update_self]
      exact hp'
    · simp only [Function.update_of_ne hu]
      exact hd.1 u

end Contiguous

end Concurrency
