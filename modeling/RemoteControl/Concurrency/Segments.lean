import RemoteControl.Concurrency.RelyGuarantee

/-!
# Between Turns

Some properties of the shared state hold whenever no program is in the middle
of a segment, but not after each operation: a program may break them and
repair them before it waits. The rules of `Concurrency.RelyGuarantee` speak of
every operation, so they cannot state such a property. This module adds it on
top of them.

`Turns` names the property, and a relation that says what all operations leave
as it is. `Rests` follows the program like `Safe` does. The property has to
hold where the program waits or ends, and may be assumed where a segment
begins. What a program knows beyond it is carried across a wait by the
relation.

Most programs never touch what the property is about. `Prog.Uses` lists the
operations of a program, and `Turns.Triple.uses` settles it if all of them
are harmless.

The property is not part of the invariant of the rules, because an operation
in the middle of a segment may find it broken. What the rules know of a
program, that it is safe, is used where its operations are taken apart
(`rests_segment`), so nothing of it has to be proved again.

## Main definitions

* `Turns`: A property between turns.
* `Turns.Rests`, `Turns.Triple`: A program that establishes it by the end of
  each of its segments.
* `Turns.Settled`: A system of such programs.

## Theorems

* `Run.keeps`: What every operation preserves, a run preserves.
* `Turns.Triple.bind`, `Turns.Triple.onError`: Sequencing and handlers.
* `Turns.Triple.uses`: Programs with harmless operations only.
* `Turns.Settled.run`: The property holds between the turns of a run.
* `segment_keeps`, `Prog.Uses.keeps`: What every operation, or every operation
  of a program, preserves.
* `Turns.Settled.turn`: A turn leaves the property behind, and every program
  resting.
-/

namespace Concurrency

variable {Op : Type} {Resp : Op → Type} {ε α β σ Env ι : Type}

/-! ## What every operation preserves -/

/-- A property that no operation falsifies holds to the end of a segment. By
    induction along the segment. -/
theorem segment_keeps {exec : (o : Op) → σ → Option (Resp o × σ)} {K : σ → Prop}
    (hop : ∀ o s r s', exec o s = some (r, s') → K s → K s') {p p' : Prog Op Resp ε α} {s s' : σ}
    (hseg : segment exec p s = some (p', s')) (hs : K s) : K s' := by
  exact segment_induction (motive := fun _ s => K s → K s') (fun _ hs => hs)
    (fun o k s r s₁ hx ih hs => ih (hop o s r s₁ hx hs)) hseg hs

/-- A property that no operation falsifies holds to the end of a run. -/
theorem Run.keeps [DecidableEq ι] {exec : ι → Env → (o : Op) → σ → Option (Resp o × σ)}
    {ok : System Op Resp ε α σ ι → ι → Env → Prop} {K : σ → Prop}
    (hop : ∀ t env o s r s', exec t env o s = some (r, s') → K s → K s')
    {a b : System Op Resp ε α σ ι} (h : Run exec ok a b) (ha : K a.shared) : K b.shared := by
  refine h.invariant (P := fun c => K c.shared) ha (fun c d t env hc _ hturn => ?_)
  -- A turn is a segment of the program that takes it.
  rcases turn_cases hturn with ⟨p, p', s', _, hseg, rfl⟩
  exact segment_keeps (hop t env) hseg hc

/-- What a segment leaves uses no other operations. -/
theorem Prog.Uses.segment {exec : (o : Op) → σ → Option (Resp o × σ)} {O : Op → Prop}
    {p p' : Prog Op Resp ε α} {s s' : σ} (h : p.Uses O)
    (hseg : Concurrency.segment exec p s = some (p', s')) : p'.Uses O :=
  segment_induction (motive := fun p _ => p.Uses O → p'.Uses O) (fun _ h => h)
    (fun _ _ _ r _ _ ih h => ih (h.2 r)) hseg h

/-- A property that none of the operations of a program falsifies holds to the
    end of a segment of it. -/
theorem Prog.Uses.keeps {exec : (o : Op) → σ → Option (Resp o × σ)} {O : Op → Prop} {K : σ → Prop}
    (hop : ∀ o s r s', O o → exec o s = some (r, s') → K s → K s') {p p' : Prog Op Resp ε α}
    {s s' : σ} (h : p.Uses O) (hseg : Concurrency.segment exec p s = some (p', s')) (hs : K s) :
    K s' :=
  segment_induction (motive := fun p s => p.Uses O → K s → K s') (fun _ _ hs => hs)
    (fun o _ s r s₁ hx ih h hs => ih (h.2 r) (hop o s r s₁ h.1 hx hs)) hseg h hs

/-! ## Turns -/

/-- A property that holds between turns, and a relation between the states
    that come before and after one another. -/
structure Turns (σ : Type) where
  rest : σ → Prop
  rel : σ → σ → Prop
  refl : ∀ s, rel s s
  trans : ∀ r s u, rel r s → rel s u → rel r u

namespace Turns

variable (R : Rules Op σ ι) (T : Turns σ) (exec : Env → (o : Op) → σ → Option (Resp o × σ))

/-- From a state inside a segment on, the program has the property established
    wherever it waits, and ends in `Q` or `E`. -/
def Rests (Q : α → σ → Prop) (E : ε → σ → Prop) : Prog Op Resp ε α → σ → Prop
  | .ret a, s => Q a s
  | .throw e, s => E e s
  | .op o k, s => ∀ env r s', exec env o s = some (r, s') → R.inv s' → T.rel s s' →
      Rests Q E (k r) s'
  | .await p, s => T.rest s ∧ ∀ s', T.rel s s' → R.inv s' → T.rest s' → Rests Q E p s'

/-- From every state that meets the assertion, the program rests. -/
def Triple (P : σ → Prop) (p : Prog Op Resp ε α) (Q : α → σ → Prop) (E : ε → σ → Prop) : Prop :=
  ∀ s, R.inv s → P s → Rests R T exec Q E p s

variable {R T exec} {P : σ → Prop} {Q : α → σ → Prop} {E E' : ε → σ → Prop}

/-- Weakening the postconditions of a program that rests. -/
theorem Rests.conseq {p : Prog Op Resp ε α} {Q' : α → σ → Prop} {s : σ}
    (h : Rests R T exec Q E p s) (hQ : ∀ a s, Q a s → Q' a s) (hE : ∀ e s, E e s → E' e s) :
    Rests R T exec Q' E' p s := by
  induction p generalizing s with
  | ret a => exact hQ a s h
  | throw e => exact hE e s h
  | op o k ih => exact fun env r s' hx hi hrel => ih r (h env r s' hx hi hrel)
  | await p ih => exact ⟨h.1, fun s' hrel hi hrest => ih (h.2 s' hrel hi hrest)⟩

/-- Strengthening the assertion, weakening the postconditions. -/
theorem Triple.conseq {p : Prog Op Resp ε α} {P' : σ → Prop} {Q' : α → σ → Prop}
    (h : Triple R T exec P p Q E) (hP : ∀ s, P' s → P s) (hQ : ∀ a s, Q a s → Q' a s)
    (hE : ∀ e s, E e s → E' e s) : Triple R T exec P' p Q' E' :=
  fun s hs hPs => (h s hs (hP s hPs)).conseq hQ hE

/-- Sequencing, from a given state on. -/
theorem Rests.bind {p : Prog Op Resp ε α} {f : α → Prog Op Resp ε β} {s : σ}
    {Qβ : β → σ → Prop} (h : Rests R T exec Q E p s) (hs : R.inv s)
    (hf : ∀ a, Triple R T exec (Q a) (f a) Qβ E) : Rests R T exec Qβ E (p.bind f) s := by
  induction p generalizing s with
  | ret a => exact hf a s hs h
  | throw e => exact h
  | op o k ih => exact fun env r s' hx hi hrel => ih r (h env r s' hx hi hrel) hi
  | await p ih => exact ⟨h.1, fun s' hrel hi hrest => ih (h.2 s' hrel hi hrest) hi⟩

/-- Sequencing: the value's postcondition is the next assertion. -/
theorem Triple.bind {p : Prog Op Resp ε α} {f : α → Prog Op Resp ε β} {Qβ : β → σ → Prop}
    (h : Triple R T exec P p Q E) (hf : ∀ a, Triple R T exec (Q a) (f a) Qβ E) :
    Triple R T exec P (p.bind f) Qβ E :=
  fun s hs hP => (h s hs hP).bind hs hf

/-- A handler, from a given state on. -/
theorem Rests.onError {p : Prog Op Resp ε α} {f : ε → Prog Op Resp ε α} {s : σ}
    (h : Rests R T exec Q E p s) (hs : R.inv s)
    (hf : ∀ e, Triple R T exec (E e) (f e) Q E') : Rests R T exec Q E' (p.onError f) s := by
  induction p generalizing s with
  | ret a => exact h
  | throw e => exact hf e s hs h
  | op o k ih => exact fun env r s' hx hi hrel => ih r (h env r s' hx hi hrel) hi
  | await p ih => exact ⟨h.1, fun s' hrel hi hrest => ih (h.2 s' hrel hi hrest) hi⟩

/-- A handler: the error's postcondition is the handler's assertion. -/
theorem Triple.onError {p : Prog Op Resp ε α} {f : ε → Prog Op Resp ε α}
    (h : Triple R T exec P p Q E) (hf : ∀ e, Triple R T exec (E e) (f e) Q E') :
    Triple R T exec P (p.onError f) Q E' :=
  fun s hs hP => (h s hs hP).onError hs hf

/-- An operation: what it establishes is what the rest assumes. -/
theorem Triple.op {o : Op} {k : Resp o → Prog Op Resp ε α} (M : Resp o → σ → Prop)
    (h : ∀ s, R.inv s → P s → ∀ env r s', exec env o s = some (r, s') → R.inv s' → T.rel s s' →
      M r s')
    (hk : ∀ r, Triple R T exec (M r) (k r) Q E) : Triple R T exec P (.op o k) Q E :=
  fun s hs hP env r s' hx hi hrel => hk r s' hi (h s hs hP env r s' hx hi hrel)

/-- A wait: the property holds, and is what the rest may assume, together with
    what the relation has carried across. -/
theorem Triple.await {p : Prog Op Resp ε α} {K : σ → Prop} (hrest : ∀ s, R.inv s → P s → T.rest s)
    (hK : ∀ s s', P s → T.rel s s' → K s')
    (hp : Triple R T exec (fun s => T.rest s ∧ K s) p Q E) : Triple R T exec P (.await p) Q E :=
  fun s hs hPs => ⟨hrest s hs hPs, fun s' hrel hi hr => hp s' hi ⟨hr, hK s s' hPs hrel⟩⟩

/-- A program all of whose operations keep the property, and what is known
    besides. -/
theorem Triple.uses {O : Op → Prop} {K : σ → Prop} {p : Prog Op Resp ε α} (hp : p.Uses O)
    (hop : ∀ env o s r s', O o → R.inv s → exec env o s = some (r, s') → T.rest s → T.rest s')
    (hK : ∀ s s', K s → T.rel s s' → K s') :
    Triple R T exec (fun s => T.rest s ∧ K s) p (fun _ s => T.rest s ∧ K s)
      (fun _ s => T.rest s ∧ K s) := by
  intro s hs hP
  induction p generalizing s with
  | ret a => exact hP
  | throw e => exact hP
  | op o k ih =>
      exact fun env r s' hx hi hrel => ih r (hp.2 r) s' hi
        ⟨hop env o s r s' hp.1 hs hx hP.1, hK s s' hP.2 hrel⟩
  | await p ih => exact ⟨hP.1, fun s' hrel hi hr => ih hp s' hi ⟨hr, hK s s' hP.2 hrel⟩⟩

end Turns

/-! ## Soundness -/

namespace Turns

variable (R : Rules Op σ ι) (T : Turns σ) (exec : ι → Env → (o : Op) → σ → Option (Resp o × σ))

/-- The property holds, and every program rests from where it stands on. -/
structure Settled (sys : System Op Resp ε α σ ι) : Prop where
  rest : T.rest sys.shared
  threads : ∀ t s, T.rel sys.shared s → R.inv s → T.rest s →
    Rests R T (exec t) (fun _ => T.rest) (fun _ => T.rest) (sys.threads t) s

variable {R T exec} {Q : ι → α → σ → Prop} {E : ι → ε → σ → Prop}

/-- A segment of a program that rests. It leads to a related state, and what is
    left of the program rests there. -/
theorem rests_segment {t : ι} {env : Env} {p p' : Prog Op Resp ε α} {s s' : σ}
    {Q : α → σ → Prop} {E : ε → σ → Prop} (hsafe : R.Safe exec t Q E p s)
    (h : Rests R T (exec t) (fun _ => T.rest) (fun _ => T.rest) p s)
    (hrel : ∀ o s r s', exec t env o s = some (r, s') → T.rel s s')
    (hseg : segment (exec t env) p s = some (p', s')) :
    T.rel s s' ∧ Rests R T (exec t) (fun _ => T.rest) (fun _ => T.rest) p' s' := by
  refine segment_induction (motive := fun p s => R.Safe exec t Q E p s →
    Rests R T (exec t) (fun _ => T.rest) (fun _ => T.rest) p s →
    T.rel s s' ∧ Rests R T (exec t) (fun _ => T.rest) (fun _ => T.rest) p' s')
    (fun _ _ h => ⟨T.refl s', h⟩) (fun o k s r s₁ hx ih hsafe h => ?_) hseg hsafe h
  -- The invariant after the operation comes from safety.
  rcases hsafe.2 env r s₁ hx with ⟨hi, _, hk⟩
  have hstep := hrel o s r s₁ hx
  rcases ih hk (h env r s₁ hx hi hstep) with ⟨hrest, hend⟩
  exact ⟨T.trans _ _ _ hstep hrest, hend⟩

/-- Where a segment has ended, the property holds, and from there on the
    program rests in every state that comes later. -/
theorem suspended_rests {exec : Env → (o : Op) → σ → Option (Resp o × σ)} {p : Prog Op Resp ε α}
    {s : σ} (hp : p.Suspended) (h : Rests R T exec (fun _ => T.rest) (fun _ => T.rest) p s) :
    T.rest s ∧ ∀ s', T.rel s s' → T.rest s' →
      Rests R T exec (fun _ => T.rest) (fun _ => T.rest) p s' := by
  cases p with
  | ret a => exact ⟨h, fun _ _ hrest => hrest⟩
  | throw e => exact ⟨h, fun _ _ hrest => hrest⟩
  | op o k => exact hp.elim
  | await p =>
      exact ⟨h.1, fun s' hrel hrest => ⟨hrest, fun s'' hrel' => h.2 s'' (T.trans _ _ _ hrel hrel')⟩⟩

/-- A family of programs that rest from the start. -/
theorem Settled.start {s : σ} {p : ι → Prog Op Resp ε α} (hs : T.rest s)
    (hp : ∀ t, Triple R T (exec t) T.rest (p t) (fun _ => T.rest) (fun _ => T.rest)) :
    Settled R T exec (System.start s p) :=
  ⟨hs, fun t _ _ _ hrest => ⟨hrest, fun s' _ hi hr => hp t s' hi hr⟩⟩

section Soundness

variable [DecidableEq ι]

/-- A turn leaves the system settled. The program that takes the turn rests where
    its segment ends, and the others rest in every state related to the one they
    were in before. -/
theorem Settled.turn (hrel : ∀ t env o s r s', exec t env o s = some (r, s') → T.rel s s')
    {sys sys' : System Op Resp ε α σ ι} {t : ι} {env : Env} (hsound : R.Sound exec Q E sys)
    (h : Settled R T exec sys) (hturn : sys.turn exec t env = some sys') :
    Settled R T exec sys' := by
  rcases turn_cases hturn with ⟨p, p', s', hp, hseg, rfl⟩
  have hsafe := hsound.safe t
  rw [hp] at hsafe
  have hrests := h.threads t sys.shared (T.refl _) hsound.inv h.rest
  rw [hp] at hrests
  rcases rests_segment (hsafe sys.shared .refl hsound.inv)
    (hrests.2 sys.shared (T.refl _) hsound.inv h.rest) (hrel t env) hseg with ⟨hstep, hend⟩
  rcases suspended_rests (segment_suspended _ _ _ _ _ hseg) hend with ⟨hrest, hlater⟩
  refine ⟨hrest, fun u s'' hrel' hi hr => ?_⟩
  -- The others go on from a state that is related to theirs.
  by_cases hut : u = t
  · rw [hut]
    simp only [Function.update_self]
    exact hlater s'' hrel' hr
  · simp only [Function.update_of_ne hut]
    exact h.threads u s'' (T.trans _ _ _ hstep hrel') hi hr

/-- The property holds between the turns of a run. Soundness of the rules is
    carried along, because a turn needs it. -/
theorem Settled.run (hrel : ∀ t env o s r s', exec t env o s = some (r, s') → T.rel s s')
    (hQ : ∀ t a, R.Stable t (Q t a)) (hE : ∀ t e, R.Stable t (E t e))
    {ok : System Op Resp ε α σ ι → ι → Env → Prop} {a b : System Op Resp ε α σ ι}
    (hsound : R.Sound exec Q E a) (h : Settled R T exec a) (hrun : Run exec ok a b) :
    Settled R T exec b := by
  refine (hrun.invariant (P := fun c => R.Sound exec Q E c ∧ Settled R T exec c) ⟨hsound, h⟩
    (fun c d t env hc _ hturn => ?_)).2
  exact ⟨(hc.1.turn hQ hE hturn).1, hc.2.turn hrel hc.1 hturn⟩

end Soundness

end Turns

end Concurrency
