import RemoteControl.Concurrency.Interleave

/-!
# Rely and Guarantee

A program logic for interleaved programs. Each program is verified once, on
its own, against a description of what the others may do in between; the
soundness theorem then says what holds of every run of the whole family.

`Rules` is that description. The invariant is a property of the shared state
that every operation preserves. The guarantee of a program relates the state
before and after one of its operations, and what a program relies on is the
guarantee of all the others. A third component records in which states an
operation may be issued, which is where a discipline such as an order on
locks is stated.

`Safe` follows the program. Nothing interferes inside a segment, so an
operation is examined in the very state the one before it left; at a wait the
others may have taken any number of turns, so what is carried across has to
survive their guarantees. An assertion with that property is `Stable`.

`Triple` is the form the proofs are written in: from a stable assertion, a
program is safe and ends in one of two postconditions, one for the value it
returns and one for the error it throws. There is one rule for each way a
program is put together, so a helper function is verified once and used by
its triple.

Each of the rules about `Triple` is one about `Safe` in every state the
assertion admits. The latter are by induction on the program, with the state
generalized, because an operation and a wait both change it.

## Main definitions

* `Rules`: An invariant, guarantees, and conditions on issuing operations.
* `Rules.Stable`: An assertion the other programs cannot falsify.
* `Rules.Persistent`: An assertion no program can falsify.
* `Rules.Safe`: A program respects the rules from a given state on.
* `Rules.Triple`: Safety from every state that meets an assertion.
* `Rules.Sound`: Every program of a system is safe where it stands.

## Theorems

* `Triple.ret`, `Triple.throw`, `Triple.op`, `Triple.await`: The rules for
  the four shapes of a program.
* `Triple.bind`, `Triple.onError`: The rules for sequencing and handlers.
* `Triple.conseq`: Strengthening the assertion, weakening the postconditions.
* `Triple.frame`: A persistent assertion is carried along.
* `safe_segment`: A segment keeps the invariant and stays within its guarantee.
* `Sound.turn`: A turn of one program leaves every program safe.
* `Sound.run`: So does a run.
* `Sound.relates`: A run relates its two ends by what every guarantee implies.
-/

namespace Concurrency

variable {Op : Type} {Resp : Op → Type} {ε α β σ Env ι : Type}

/-- What a family of programs agrees on. -/
structure Rules (Op σ ι : Type) where
  inv : σ → Prop
  guar : ι → σ → σ → Prop
  issue : ι → Op → σ → Prop

namespace Rules

variable (R : Rules Op σ ι)

/-- What the programs other than `t` may do to the state while `t` waits. -/
def Interference (t : ι) : σ → σ → Prop :=
  Relation.ReflTransGen (fun s s' => ∃ u, u ≠ t ∧ R.guar u s s' ∧ R.inv s')

/-- No operation of a program other than `t` falsifies the assertion. -/
def Stable (t : ι) (P : σ → Prop) : Prop :=
  ∀ u s s', u ≠ t → R.inv s → R.inv s' → R.guar u s s' → P s → P s'

/-- A stable assertion survives what the others do, and so does the invariant. -/
theorem Interference.keeps {R : Rules Op σ ι} {t : ι} {P : σ → Prop} (hP : R.Stable t P)
    {s s' : σ} (h : R.Interference t s s') (hinv : R.inv s) (hs : P s) : P s' ∧ R.inv s' := by
  induction h with
  | refl => exact ⟨hs, hinv⟩
  | tail _ hstep ih =>
      rcases hstep with ⟨u, hut, hg, hi⟩
      exact ⟨hP u _ _ hut ih.2 hi hg ih.1, hi⟩

/-- Stable assertions can be put together. -/
theorem Stable.and {R : Rules Op σ ι} {t : ι} {P P' : σ → Prop} (hP : R.Stable t P)
    (hP' : R.Stable t P') : R.Stable t (fun s => P s ∧ P' s) :=
  fun u s s' hut hi hi' hg h => ⟨hP u s s' hut hi hi' hg h.1, hP' u s s' hut hi hi' hg h.2⟩

/-- A stable assertion about something that is not named. -/
theorem Stable.exists {R : Rules Op σ ι} {t : ι} {P : β → σ → Prop}
    (hP : ∀ b, R.Stable t (P b)) : R.Stable t (fun s => ∃ b, P b s) :=
  fun u s s' hut hi hi' hg ⟨b, h⟩ => ⟨b, hP b u s s' hut hi hi' hg h⟩

/-- No operation of any program falsifies the assertion. -/
def Persistent (P : σ → Prop) : Prop :=
  ∀ t s s', R.inv s → R.inv s' → R.guar t s s' → P s → P s'

/-- What nobody falsifies, the others do not falsify. -/
theorem Persistent.stable {R : Rules Op σ ι} {t : ι} {P : σ → Prop} (hP : R.Persistent P) :
    R.Stable t P :=
  fun u s s' _ hi hi' hg h => hP u s s' hi hi' hg h

/-- Persistent assertions can be put together. -/
theorem Persistent.and {R : Rules Op σ ι} {P P' : σ → Prop} (hP : R.Persistent P)
    (hP' : R.Persistent P') : R.Persistent (fun s => P s ∧ P' s) :=
  fun t s s' hi hi' hg h => ⟨hP t s s' hi hi' hg h.1, hP' t s s' hi hi' hg h.2⟩

variable (exec : ι → Env → (o : Op) → σ → Option (Resp o × σ))

/-- From state `s` on, program `t` keeps the invariant, stays within its
    guarantee, issues operations only where it may, and ends in `Q` or `E`,
    whatever the others do while it waits. -/
def Safe (t : ι) (Q : α → σ → Prop) (E : ε → σ → Prop) : Prog Op Resp ε α → σ → Prop
  | .ret a, s => Q a s
  | .throw e, s => E e s
  | .op o k, s => R.issue t o s ∧ ∀ env r s', exec t env o s = some (r, s') →
      R.inv s' ∧ R.guar t s s' ∧ Safe t Q E (k r) s'
  | .await p, s => ∀ s', R.Interference t s s' → R.inv s' → Safe t Q E p s'

/-- From every state that meets the assertion, the program is safe. -/
def Triple (t : ι) (P : σ → Prop) (p : Prog Op Resp ε α) (Q : α → σ → Prop)
    (E : ε → σ → Prop) : Prop :=
  ∀ s, R.inv s → P s → R.Safe exec t Q E p s

variable {R exec} {t : ι} {P P' : σ → Prop} {Q Q' : α → σ → Prop} {E E' : ε → σ → Prop}

/-- The program has returned, so its postcondition has to hold already. -/
theorem Triple.ret {a : α} (h : ∀ s, R.inv s → P s → Q a s) :
    R.Triple exec t P (.ret a) Q E := h

/-- The program has failed, so the error's postcondition has to hold already. -/
theorem Triple.throw {e : ε} (h : ∀ s, R.inv s → P s → E e s) :
    R.Triple exec t P (.throw e) Q E := h

/-- An operation: it may be issued, and each of its outcomes keeps the
    invariant and the guarantee and establishes what the rest assumes. -/
theorem Triple.op {o : Op} {k : Resp o → Prog Op Resp ε α} (M : Resp o → σ → Prop)
    (hissue : ∀ s, R.inv s → P s → R.issue t o s)
    (h : ∀ s, R.inv s → P s → ∀ env r s', exec t env o s = some (r, s') →
      R.inv s' ∧ R.guar t s s' ∧ M r s')
    (hk : ∀ r, R.Triple exec t (M r) (k r) Q E) : R.Triple exec t P (.op o k) Q E := by
  intro s hs hP
  refine ⟨hissue s hs hP, fun env r s' hexec => ?_⟩
  rcases h s hs hP env r s' hexec with ⟨hi, hg, hM⟩
  exact ⟨hi, hg, hk r s' hi hM⟩

/-- A wait: the assertion carried across has to be stable. While the program
    waits, only the others can have changed the state. -/
theorem Triple.await {p : Prog Op Resp ε α} (hP : R.Stable t P)
    (hp : R.Triple exec t P p Q E) : R.Triple exec t P (.await p) Q E := by
  intro s hs hPs s' hr hi
  exact hp s' hi (hr.keeps hP hs hPs).1

/-- Weakening the postconditions, from a given state on. -/
theorem Safe.conseq {p : Prog Op Resp ε α} {s : σ} (h : R.Safe exec t Q E p s) (hs : R.inv s)
    (hQ : ∀ a s, R.inv s → Q a s → Q' a s) (hE : ∀ e s, R.inv s → E e s → E' e s) :
    R.Safe exec t Q' E' p s := by
  induction p generalizing s with
  | ret a => exact hQ a s hs h
  | throw e => exact hE e s hs h
  | op o k ih =>
      refine ⟨h.1, fun env r s' hexec => ?_⟩
      rcases h.2 env r s' hexec with ⟨hi, hg, hk⟩
      exact ⟨hi, hg, ih r hk hi⟩
  | await p ih => exact fun s' hr hi => ih (h s' hr hi) hi

/-- Strengthening the assertion, weakening the postconditions. -/
theorem Triple.conseq {p : Prog Op Resp ε α} (h : R.Triple exec t P' p Q' E')
    (hP : ∀ s, R.inv s → P s → P' s) (hQ : ∀ a s, R.inv s → Q' a s → Q a s)
    (hE : ∀ e s, R.inv s → E' e s → E e s) : R.Triple exec t P p Q E :=
  fun s hs hPs => (h s hs (hP s hs hPs)).conseq hs hQ hE

/-- Weakening only the assertion. -/
theorem Triple.weaken {p : Prog Op Resp ε α} (h : R.Triple exec t P' p Q E)
    (hP : ∀ s, R.inv s → P s → P' s) : R.Triple exec t P p Q E :=
  fun s hs hPs => h s hs (hP s hs hPs)

/-- Sequencing, from a given state on. -/
theorem Safe.bind {p : Prog Op Resp ε α} {f : α → Prog Op Resp ε β} {s : σ}
    {Qβ : β → σ → Prop} (h : R.Safe exec t Q E p s) (hs : R.inv s)
    (hf : ∀ a, R.Triple exec t (Q a) (f a) Qβ E) : R.Safe exec t Qβ E (p.bind f) s := by
  induction p generalizing s with
  | ret a => exact hf a s hs h
  | throw e => exact h
  | op o k ih =>
      refine ⟨h.1, fun env r s' hexec => ?_⟩
      -- The first program goes on with the answer, and the second is still to come.
      rcases h.2 env r s' hexec with ⟨hi, hg, hk⟩
      exact ⟨hi, hg, ih r hk hi⟩
  | await p ih => exact fun s' hr hi => ih (h s' hr hi) hi

/-- Sequencing: the value's postcondition is the next assertion. -/
theorem Triple.bind {p : Prog Op Resp ε α} {f : α → Prog Op Resp ε β} {Qβ : β → σ → Prop}
    (h : R.Triple exec t P p Q E) (hf : ∀ a, R.Triple exec t (Q a) (f a) Qβ E) :
    R.Triple exec t P (p.bind f) Qβ E :=
  fun s hs hP => (h s hs hP).bind hs hf

/-- A handler, from a given state on. -/
theorem Safe.onError {p : Prog Op Resp ε α} {f : ε → Prog Op Resp ε α} {s : σ}
    (h : R.Safe exec t Q E p s) (hs : R.inv s)
    (hf : ∀ e, R.Triple exec t (E e) (f e) Q E') : R.Safe exec t Q E' (p.onError f) s := by
  induction p generalizing s with
  | ret a => exact h
  | throw e => exact hf e s hs h
  | op o k ih =>
      refine ⟨h.1, fun env r s' hexec => ?_⟩
      rcases h.2 env r s' hexec with ⟨hi, hg, hk⟩
      exact ⟨hi, hg, ih r hk hi⟩
  | await p ih => exact fun s' hr hi => ih (h s' hr hi) hi

/-- A handler: the error's postcondition is the handler's assertion. -/
theorem Triple.onError {p : Prog Op Resp ε α} {f : ε → Prog Op Resp ε α}
    (h : R.Triple exec t P p Q E) (hf : ∀ e, R.Triple exec t (E e) (f e) Q E') :
    R.Triple exec t P (p.onError f) Q E' :=
  fun s hs hP => (h s hs hP).onError hs hf

/-- A persistent assertion is carried along, from a given state on. -/
theorem Safe.frame {K : σ → Prop} (hK : R.Persistent K) {p : Prog Op Resp ε α} {s : σ}
    (h : R.Safe exec t Q E p s) (hs : R.inv s) (hKs : K s) :
    R.Safe exec t (fun a s => Q a s ∧ K s) (fun e s => E e s ∧ K s) p s := by
  induction p generalizing s with
  | ret a => exact ⟨h, hKs⟩
  | throw e => exact ⟨h, hKs⟩
  | op o k ih =>
      refine ⟨h.1, fun env r s' hexec => ?_⟩
      rcases h.2 env r s' hexec with ⟨hi, hg, hk⟩
      exact ⟨hi, hg, ih r hk hi (hK t s s' hs hi hg hKs)⟩
  | await p ih =>
      exact fun s' hr hi => ih (h s' hr hi) hi (hr.keeps hK.stable hs hKs).1

/-- The frame rule: what no operation falsifies is carried along. -/
theorem Triple.frame {K : σ → Prop} (hK : R.Persistent K) {p : Prog Op Resp ε α}
    (h : R.Triple exec t P p Q E) :
    R.Triple exec t (fun s => P s ∧ K s) p (fun a s => Q a s ∧ K s) (fun e s => E e s ∧ K s) :=
  fun s hs hPs => (h s hs hPs.1).frame hK hs hPs.2

/-- What the assertion only says to exist may be named. -/
theorem Triple.exists {P : β → σ → Prop} {p : Prog Op Resp ε α}
    (h : ∀ b, R.Triple exec t (P b) p Q E) : R.Triple exec t (fun s => ∃ b, P b s) p Q E :=
  fun s hs ⟨b, hP⟩ => h b s hs hP

/-- What the assertion says without the state may be assumed beforehand. -/
theorem Triple.pure {φ : Prop} {p : Prog Op Resp ε α} (h : φ → R.Triple exec t P p Q E) :
    R.Triple exec t (fun s => φ ∧ P s) p Q E :=
  fun s hs hP => h hP.1 s hs hP.2

/-- A branch of the program that no state meeting the assertion takes. -/
theorem Triple.absurd {p : Prog Op Resp ε α} (h : ∀ s, R.inv s → ¬ P s) :
    R.Triple exec t P p Q E :=
  fun s hs hP => (h s hs hP).elim

/-- A segment of a safe program keeps the invariant, is made of operations within
    the guarantee, and leaves the rest of the program safe. By induction along the
    segment, operation by operation. -/
theorem safe_segment {p p' : Prog Op Resp ε α} {s s' : σ} {env : Env}
    (h : R.Safe exec t Q E p s) (hs : R.inv s)
    (hseg : segment (exec t env) p s = some (p', s')) :
    R.inv s' ∧ R.Safe exec t Q E p' s' ∧
      Relation.ReflTransGen (fun a b => R.guar t a b ∧ R.inv a ∧ R.inv b) s s' := by
  refine segment_induction (motive := fun p s => R.Safe exec t Q E p s → R.inv s →
    R.inv s' ∧ R.Safe exec t Q E p' s' ∧
      Relation.ReflTransGen (fun a b => R.guar t a b ∧ R.inv a ∧ R.inv b) s s')
    (fun _ h hs => ⟨hs, h, .refl⟩) (fun o k s r s₁ hx ih h hs => ?_) hseg h hs
  -- The operation is one step within the guarantee, and the rest of the segment
  -- follows.
  rcases h.2 env r s₁ hx with ⟨hi, hg, hk⟩
  rcases ih hk hi with ⟨hi', hsafe, hsteps⟩
  exact ⟨hi', hsafe, .head ⟨hg, hs, hi⟩ hsteps⟩

/-- A program that is between two turns stays safe while the others take theirs.
    What it has returned, or what it waits with, is not falsified by them. -/
theorem safe_interference {p : Prog Op Resp ε α} {s s' : σ} (hp : p.Suspended)
    (h : R.Safe exec t Q E p s) (hQ : ∀ a, R.Stable t (Q a)) (hE : ∀ e, R.Stable t (E e))
    (hs : R.inv s) (hr : R.Interference t s s') : R.Safe exec t Q E p s' := by
  cases p with
  | ret a => exact (hr.keeps (hQ a) hs h).1
  | throw e => exact (hr.keeps (hE e) hs h).1
  | op o k => exact hp.elim
  | await p => exact fun s'' hr' hi => h s'' (hr.trans hr') hi

variable (R exec) in
/-- The invariant holds and every program is safe where it stands. -/
structure Sound (Q : ι → α → σ → Prop) (E : ι → ε → σ → Prop)
    (sys : System Op Resp ε α σ ι) : Prop where
  inv : R.inv sys.shared
  suspended : ∀ t, (sys.threads t).Suspended
  safe : ∀ t, R.Safe exec t (Q t) (E t) (sys.threads t) sys.shared

section Soundness

variable {Q : ι → α → σ → Prop} {E : ι → ε → σ → Prop}

/-- A family of programs safe from the initial assertion starts out sound. -/
theorem Sound.start {s : σ} {p : ι → Prog Op Resp ε α} (hs : R.inv s)
    (hp : ∀ t s', R.Interference t s s' → R.inv s' → R.Safe exec t (Q t) (E t) (p t) s') :
    R.Sound exec Q E (System.start s p) :=
  ⟨hs, fun _ => trivial, fun t s' => hp t s'⟩

/-- Where a program is about to issue an operation, it may. -/
theorem Sound.issued {sys : System Op Resp ε α σ ι} (h : R.Sound exec Q E sys) {t : ι} {o : Op}
    {k : Resp o → Prog Op Resp ε α} (ht : sys.threads t = .await (.op o k)) :
    R.issue t o sys.shared := by
  have hsafe := h.safe t
  rw [ht] at hsafe
  exact (hsafe sys.shared .refl h.inv).1

variable [DecidableEq ι]

/-- A turn of one program leaves every program safe: its own because that is
    what safety says, the others because its steps are interference to them. -/
theorem Sound.turn (hQ : ∀ t a, R.Stable t (Q t a)) (hE : ∀ t e, R.Stable t (E t e))
    {sys sys' : System Op Resp ε α σ ι} {t : ι} {env : Env} (h : R.Sound exec Q E sys)
    (hturn : sys.turn exec t env = some sys') :
    R.Sound exec Q E sys' ∧ Relation.ReflTransGen
      (fun a b => R.guar t a b ∧ R.inv a ∧ R.inv b) sys.shared sys'.shared := by
  rcases turn_cases hturn with ⟨p, p', s', hp, hseg, rfl⟩
  have hsafe := h.safe t
  rw [hp] at hsafe
  rcases safe_segment (hsafe sys.shared .refl h.inv) h.inv hseg with ⟨hi, hsafe', hsteps⟩
  refine ⟨⟨hi, fun u => ?_, fun u => ?_⟩, hsteps⟩
  · by_cases hut : u = t
    · rw [hut]
      simp only [Function.update_self]
      exact segment_suspended _ _ _ _ _ hseg
    · simp only [Function.update_of_ne hut]
      exact h.suspended u
  · by_cases hut : u = t
    · rw [hut]
      simp only [Function.update_self]
      exact hsafe'
    · simp only [Function.update_of_ne hut]
      -- For everybody else the segment is interference.
      have hother : R.Interference u sys.shared s' :=
        Relation.ReflTransGen.mono
          (fun _ _ hab => ⟨t, fun hc => hut hc.symm, hab.1, hab.2.2⟩) _ _ hsteps
      exact safe_interference (h.suspended u) (h.safe u) (hQ u) (hE u) h.inv hother

/-- A run leaves every program safe, by induction on its turns. -/
theorem Sound.run (hQ : ∀ t a, R.Stable t (Q t a)) (hE : ∀ t e, R.Stable t (E t e))
    {ok : System Op Resp ε α σ ι → ι → Env → Prop} {a b : System Op Resp ε α σ ι}
    (h : R.Sound exec Q E a) (hrun : Run exec ok a b) : R.Sound exec Q E b :=
  hrun.invariant h (fun _ _ _ _ hc _ hturn => (hc.turn hQ hE hturn).1)

/-- What every guarantee implies, a run implies, when it composes. A turn is made
    of operations that each imply the relation. -/
theorem Sound.relates (hQ : ∀ t a, R.Stable t (Q t a)) (hE : ∀ t e, R.Stable t (E t e))
    {ok : System Op Resp ε α σ ι → ι → Env → Prop} {a b : System Op Resp ε α σ ι}
    (rel : σ → σ → Prop) (hrefl : ∀ s, rel s s)
    (htrans : ∀ r s u, rel r s → rel s u → rel r u)
    (hguar : ∀ t s s', R.inv s → R.inv s' → R.guar t s s' → rel s s')
    (h : R.Sound exec Q E a) (hrun : Run exec ok a b) : rel a.shared b.shared := by
  have hboth := hrun.invariant (P := fun c => R.Sound exec Q E c ∧ rel a.shared c.shared)
    ⟨h, hrefl _⟩ ?_
  · exact hboth.2
  · intro c d t env hc _ hturn
    rcases hc.1.turn hQ hE hturn with ⟨hd, hsteps⟩
    have hmove : ∀ s', Relation.ReflTransGen (fun a b => R.guar t a b ∧ R.inv a ∧ R.inv b)
        c.shared s' → rel a.shared s' := by
      intro s' hs'
      -- The relation is carried along the operations of the turn.
      induction hs' with
      | refl => exact hc.2
      | tail _ hstep ih => exact htrans _ _ _ ih (hguar t _ _ hstep.2.1 hstep.2.2 hstep.1)
    exact ⟨hd, hmove _ hsteps⟩

end Soundness

end Rules

end Concurrency
