import RemoteControl.Theory.Completion
import RemoteControl.Theory.Recovery

/-!
# One Call at a Time

What the calls do when nobody interferes with them, which is how their
documentation describes them. A call that takes all the turns has the history
to itself: what is added to it is added by that call, it commits once or not at
all, and the rows it was refused by are those it began with. So it is one step
of the machine, from the rows before it to the rows after it, and a sequence of
calls is the sequence of their steps.

It never waits either, if no row is held when it begins. Other calls may have
begun and be in the middle of something, as long as they hold nothing.

With that, a question about what a client can achieve is one about the machine.
A device can always get back to asking for help, whatever became of its last
request and whatever the transport does: it reads its session and its request,
ends the one that is not over, and asks anew.

The argument has three parts. What a lone call leaves alone follows from the
guarantee of its operations (`DoneBy`): all new entries are its own, and it
locks rows for nobody else. What it achieves follows from its history: before
its commit its entries do not change the rows (`replay_uncommitted`), nor do
those after it (`replay_committed`), so its commit takes the rows it began
with to those it ends with, and a refusal leaves them as they were. And that
it ends follows from its bounded number of turns, since each of them can be
taken (`lone_goes_on`). For the way out of a device there is one more part,
about the machine alone: what the reads return decides a call that the machine
lets succeed, whatever the presence, and that leaves the device without an
active request (`wayOut_spec`).

## Main definitions

* `InTurn`: Calls made one after the other.
* `outcomeOf`: The class of the answer of a call.
* `wayOut`: What a device does to ask for help again.

## Theorems

* `DoneBy.of_run`, `DoneBy.holding`: What one call leaves alone.
* `lone_goes_on`: A call that runs alone never waits.
* `lone_performs`: It is one step of the machine.
* `in_turn_performs`: Calls in turn are a sequential run of the machine.
* `device_way_out`: No state is a dead end for a device.
-/

namespace RemoteControl

open Concurrency Machine

variable {calls : CallId → Operation} {throws : CallId → Emitter → Bool} {c d : CallId}
  {x y z : Calls}

/-! ## What one call leaves alone -/

/-- Only call `c` takes turns. -/
def only (c : CallId) (_ : Calls) (d : CallId) (_ : Env) : Prop := d = c

/-- What has happened since is the doing of call `c`. -/
structure DoneBy (c : CallId) (w w' : World) : Prop where
  log : ∃ l, w'.log = l ++ w.log ∧ ∀ e ∈ l, e.call = c
  requests : Table.Untouched (some c) w.requests w'.requests
  sessions : Table.Untouched (some c) w.sessions w'.sessions

/-- Nothing has happened. -/
theorem DoneBy.refl (c : CallId) (w : World) : DoneBy c w w :=
  ⟨⟨[], rfl, fun _ he => absurd he List.not_mem_nil⟩, .refl _ _, .refl _ _⟩

/-- One more operation of the call. Its guarantee says that it locks and unlocks
    for itself alone. -/
theorem DoneBy.tail {w w' w'' : World} (h : DoneBy c w w') (hg : Guar c w' w'') :
    DoneBy c w w'' := by
  rcases h.log with ⟨l, hl, hown⟩
  rcases hg.entry with ⟨e, he, _, hlog, _⟩
  refine ⟨⟨e :: l, by rw [hlog, hl, List.cons_append], fun a ha => ?_⟩,
    h.requests.trans hg.requests, h.sessions.trans hg.sessions⟩
  rcases List.mem_cons.mp ha with rfl | ha
  · exact he
  · exact hown a ha

/-- A run of one call is its own doing. -/
theorem DoneBy.of_run (h : Reachable calls throws x) (hrun : Run (exec throws) (only c) x y) :
    Reachable calls throws y ∧ DoneBy c x.shared y.shared := by
  refine hrun.invariant (P := fun s => Reachable calls throws s ∧ DoneBy c x.shared s.shared)
    ⟨h, .refl c _⟩ (fun a b t env ha ht hturn => ?_)
  obtain rfl : t = c := ht
  rcases ha.1 with ⟨devices, users, clock, hbefore⟩
  refine ⟨⟨devices, users, clock, .step a b t env hbefore trivial hturn⟩, ?_⟩
  rcases ha.1.sound.turn (fun _ _ => Returned.stable) (fun _ _ => Raised.stable) hturn with
    ⟨_, hsteps⟩
  -- The turn is a sequence of operations, each of which adds one entry.
  generalize b.shared = w at hsteps
  induction hsteps with
  | refl => exact ha.2
  | tail _ hstep ih => exact ih.tail hstep.1

/-- A row that another call holds was held by it before. -/
theorem DoneBy.holding {w w' : World} (h : DoneBy c w w') (hd : d ≠ c) (hheld : Holding w' d) :
    Holding w d := by
  have hne : some c ≠ some d := fun hc => hd (Option.some.inj hc).symm
  rcases hheld with ⟨k, hk⟩ | ⟨k, hk⟩
  · rw [h.requests k d hne (.inr hk)] at hk
    exact .inl ⟨k, hk⟩
  · rw [h.sessions k d hne (.inr hk)] at hk
    exact .inr ⟨k, hk⟩

/-- A call that is over holds nothing. -/
theorem not_holding_of_over (h : Reachable calls throws x) (hover : Over x c) :
    ¬ Holding x.shared c := by
  intro hheld
  rcases await_of_holding h hheld with ⟨p, hp⟩
  rcases hover with ⟨r, hr⟩ | ⟨e, he⟩
  · rw [hp] at hr
    simp only [reduceCtorEq] at hr
  · rw [hp] at he
    simp only [reduceCtorEq] at he

/-- A call that takes all the turns keeps the others from doing anything. -/
theorem threads_of_run (hrun : Run (exec throws) (only c) x y) (hd : d ≠ c) :
    y.threads d = x.threads d := by
  refine hrun.invariant (P := fun s => s.threads d = x.threads d) rfl
    (fun a b t env ha ht hturn => ?_)
  obtain rfl : t = c := ht
  rcases turn_cases hturn with ⟨_, _, _, _, _, rfl⟩
  simp only [Function.update_of_ne hd]
  exact ha

/-! ## Without waiting -/

/-- Where no other call holds a row, a call that takes all the turns can always
    take the next one. -/
theorem lone_goes_on (h : Reachable calls throws x) (hidle : ∀ d, d ≠ c → ¬ Holding x.shared d)
    (hrun : Run (exec throws) (only c) x y) (hover : ¬ Over y c) {env : Env}
    (hfresh : env.Fresh y.shared) : (y.turn (exec throws) c env).isSome := by
  rcases DoneBy.of_run h hrun with ⟨hy, hdone⟩
  rcases await_of_unfinished hy
    (Option.eq_none_iff_forall_ne_some.mpr
      (fun r hr => hover (.inl ⟨r, Prog.returned_eq_some.mp hr⟩)))
    (Option.eq_none_iff_forall_ne_some.mpr
      (fun e he => hover (.inr ⟨e, Prog.thrown_eq_some.mp he⟩))) with ⟨p, hp⟩
  rcases goes_on hy hp with ⟨d, hpath, hturn⟩
  rcases Relation.ReflTransGen.cases_head hpath with rfl | ⟨e, hwait, _⟩
  · exact hturn env hfresh
  · -- It would wait for itself or for a call that held a row from the start.
    by_cases he : e = c
    · subst he
      exact (no_deadlock hy e (.single hwait)).elim
    · exact (hidle e he (hdone.holding he (waitsFor_holding hwait))).elim

/-- So it can be brought to its end. The number of turns is bounded, and as long
    as it is not over it can take one, so the completion of runs applies with this
    call alone. -/
theorem lone_completes (h : Reachable calls throws x)
    (hidle : ∀ d, d ≠ c → ¬ Holding x.shared d) :
    ∃ y, Run (exec throws) (only c) x y ∧ Over y c := by
  -- How many turns each call has left, in the state it starts from.
  have hbound : ∃ left : CallId → Nat, x.Bounded left := by
    rcases h with ⟨devices, users, clock, hbefore⟩
    exact hbefore.invariant (P := fun s => ∃ left : CallId → Nat, s.Bounded left)
      ⟨_, System.Bounded.start (fun c => handle_bounded (calls c))⟩
      (fun _ _ _ _ hs _ hturn => hs.elim (fun _ hleft => ⟨_, (hleft.turn hturn).2⟩))
  -- Wherever it is not over, it can take a turn.
  have hgo : ∀ a, Run (exec throws) (only c) x a → (∃ t ∈ ({c} : Finset CallId), ¬ Over a t) →
      ∃ t ∈ ({c} : Finset CallId), ∃ env, (a.turn (exec throws) t env).isSome := by
    rintro a ha ⟨t, ht, hover⟩
    obtain rfl := Finset.mem_singleton.mp ht
    rcases exists_fresh a.shared with ⟨env, hfresh⟩
    exact ⟨t, ht, env, lone_goes_on h hidle ha hover hfresh⟩
  have hstep : ∀ (a b : Calls) (t : CallId) (env : Env), t ∈ ({c} : Finset CallId) →
      Run (exec throws) (only c) x a → a.turn (exec throws) t env = some b →
      Run (exec throws) (only c) x b :=
    fun a b t env ht ha hturn => .step a b t env ha (Finset.mem_singleton.mp ht) hturn
  rcases hbound with ⟨left, hleft⟩
  rcases exists_completion hstep hgo hleft .refl with ⟨ls, y, hls, hy, hover⟩
  exact ⟨y, follow_invariant hls hy .refl hstep, hover c (Finset.mem_singleton_self c)⟩

/-! ## One step of the machine -/

/-- The class of the answer of a call. A transport that fails after the commit
    leaves it the success it was. -/
def outcomeOf : Service Response → Option Outcome
  | .ret _ => some .success
  | .throw .transportError => some .success
  | .throw e => e.outcome
  | _ => none

/-- The entries of a call that has not committed leave the rows alone. Only a
    commit changes the rows that a history leads to. -/
theorem replay_uncommitted {l l₀ : List Entry} (hown : ∀ e ∈ l, e.call = c)
    (hnone : (progress c (l ++ l₀)).committed = none) : replay (l ++ l₀) = replay l₀ := by
  induction l with
  | nil => rfl
  | cons e l ih =>
      rw [List.cons_append, progress_own (hown e List.mem_cons_self)] at hnone
      have hrest := ih (fun a ha => hown a (List.mem_cons_of_mem e ha))
      rw [List.cons_append]
      cases he : e.event with
      | committed ws => simp only [he, Progress.add, reduceCtorEq] at hnone
      | ran o =>
          -- Every entry but a commit is skipped by the replay.
          rw [replay_note (by simp only [he, ne_eq, reduceCtorEq, not_false_eq_true, implies_true])]
          rw [he] at hnone
          cases o <;> exact hrest hnone
      | _ =>
          rw [replay_note (by simp only [he, ne_eq, reduceCtorEq, not_false_eq_true, implies_true])]
          rw [he] at hnone
          exact hrest hnone

/-- Neither do those that a call adds after its commit. -/
theorem replay_committed {l l₀ : List Entry} {ws : Writes}
    (hh : History calls throws (l ++ l₀)) (hown : ∀ e ∈ l, e.call = c)
    (hsome : (progress c l₀).committed = some ws) : replay (l ++ l₀) = replay l₀ := by
  induction l with
  | nil => rfl
  | cons e l ih =>
      have hc := hown e List.mem_cons_self
      rw [List.cons_append] at hh ⊢
      rw [replay_note, ih hh.2 (fun a ha => hown a (List.mem_cons_of_mem e ha))]
      intro ws' he
      have hok := hh.1.event
      simp only [he, hc] at hok
      -- It would be a second commit.
      have hnone := hok.1
      rw [committed_kept hh.2 hsome] at hnone
      simp only [reduceCtorEq] at hnone

/-- An entry of a call that had none before is among the new ones. The entry
    cannot be an old one, so the two ways of cutting the history meet among the
    new entries. -/
theorem entry_since {l l₀ l₁ l₂ : List Entry} {e : Entry} (hnew : ∀ e ∈ l₀, e.call ≠ c)
    (he : e.call = c) (heq : l ++ l₀ = l₁ ++ e :: l₂) :
    ∃ l', l = l₁ ++ e :: l' ∧ l₂ = l' ++ l₀ := by
  have hnot : e ∉ l₀ := fun hmem => hnew e hmem he
  rcases List.append_eq_append_iff.mp heq with ⟨a, _, hl₀⟩ | ⟨a, hl, hl₀⟩
  · exact absurd (by rw [hl₀]; exact List.mem_append_right a List.mem_cons_self) hnot
  · cases a with
    | nil =>
        rw [List.nil_append] at hl₀
        exact absurd (by rw [← hl₀]; exact List.mem_cons_self) hnot
    | cons b a =>
        rw [List.cons_append, List.cons.injEq] at hl₀
        rw [hl₀.1]
        exact ⟨a, hl, hl₀.2⟩

/-- Around an entry of the call, whatever is newer is its own, and what is older
    is its own down to where it began. -/
theorem DoneBy.entry {w w' : World} (h : DoneBy c w w') (hnew : ∀ e ∈ w.log, e.call ≠ c)
    {e : Entry} {l₁ l₂ : List Entry} (he : e.call = c) (hlog : w'.log = l₁ ++ e :: l₂) :
    ∃ l' : List Entry, (∀ a ∈ l', a.call = c) ∧ (∀ a ∈ l₁, a.call = c) ∧ l₂ = l' ++ w.log := by
  rcases h.log with ⟨l, hl, hown⟩
  rcases entry_since hnew he (hl.symm.trans hlog) with ⟨l', rfl, hl'⟩
  exact ⟨l', fun a ha => hown a (by simp [ha]), fun a ha => hown a (by simp [ha]), hl'⟩

/-- A call that has committed did so from the rows it began with, and has left
    them as it committed them. -/
theorem DoneBy.commit {w w' : World} {ws : Writes} (h : DoneBy c w w') (hi : Inv calls throws w)
    (hi' : Inv calls throws w') (hnew : ∀ e ∈ w.log, e.call ≠ c)
    (hcommitted : (progress c w'.log).committed = some ws) :
    w'.tables = w.tables.apply ws ∧ (∃ t, Explains w.tables t (calls c) ws) ∧
      ((calls c).NeedsPresence → (progress c w'.log).asked = some true) := by
  rcases committed_entry hcommitted with ⟨e, l₂, ⟨l₁, hlog⟩, he, hev⟩
  -- The commit, among the entries of the call.
  rcases h.entry hnew he hlog.symm with ⟨l', hl', hl₁, rfl⟩
  rcases hi'.commit ⟨l₁, hlog⟩ hev with ⟨_, hnone, _, hasked, _, t, _, _, _, hx⟩
  rw [he] at hnone hasked hx
  -- Up to it the rows were those it began with.
  have hbefore := replay_uncommitted hl' hnone
  rw [hbefore, ← hi.tables] at hx
  refine ⟨?_, ⟨t, hx⟩, fun hneeds => ?_⟩
  · have hhist := hi'.history
    -- After it they are those it committed.
    have hafter : (progress c (e :: (l' ++ w.log))).committed = some ws := by
      rw [progress_own he, hev]
      rfl
    rw [← hlog] at hhist
    rw [hi'.tables, ← hlog, replay_committed hhist hl₁ hafter, replay, hev]
    simp only [hbefore, hi.tables]
  · rw [← hlog]
    exact asked_kept_append (asked_kept (hasked hneeds))

/-- A call that was refused was refused by the rows it began with. It has not
    committed, so its entries have left the rows as they were, up to the read that
    it was refused by and to the end. -/
theorem DoneBy.refusal {w w' : World} {cls : Outcome} (h : DoneBy c w w')
    (hi : Inv calls throws w) (hi' : Inv calls throws w') (hnew : ∀ e ∈ w.log, e.call ≠ c)
    (hcommitted : (progress c w'.log).committed = none) (href : Refused calls c cls w'.log) :
    w'.tables = w.tables ∧
      ∀ online, (∀ b, (progress c w'.log).asked = some b → online = b) →
        Refuses (calls c) online cls w.tables := by
  rcases h.log with ⟨l, hl, hown⟩
  rcases href with ⟨l₁, e, l₂, hlog, he, _, hrefuses⟩
  rcases h.entry hnew he hlog with ⟨l', hl', hl₁, rfl⟩
  -- A commit before the refusal would still be there.
  have hnone : (progress c (l' ++ w.log)).committed = none := by
    by_contra hsome
    rcases Option.ne_none_iff_exists'.mp hsome with ⟨ws, hws⟩
    have hhist := hi'.history
    rw [hlog, List.append_cons] at hhist
    rw [hlog, List.append_cons, committed_kept hhist hws] at hcommitted
    simp only [reduceCtorEq] at hcommitted
  rw [replay_uncommitted hl' hnone, ← hi.tables] at hrefuses
  refine ⟨?_, hrefuses⟩
  rw [hl] at hcommitted
  rw [hi'.tables, hl, replay_uncommitted hown hcommitted, hi.tables]

/-- A call that takes all the turns is one step of the machine, for any
    presence that agrees with what the call was told. -/
theorem lone_performs (h : Reachable calls throws x) (hnew : ∀ e ∈ x.shared.log, e.call ≠ c)
    (hrun : Run (exec throws) (only c) x y) (hover : Over y c) :
    ∃ o, outcomeOf (y.threads c) = some o ∧ ∀ online : CallId → Bool,
      (∀ b, (progress c y.shared.log).asked = some b → online c = b) →
      performs calls online c o (view x.shared.tables) (view y.shared.tables) := by
  rcases DoneBy.of_run h hrun with ⟨hy, hdone⟩
  have hsuccess : ∀ ws, (progress c y.shared.log).committed = some ws →
      ∀ online : CallId → Bool, (∀ b, (progress c y.shared.log).asked = some b → online c = b) →
      performs calls online c .success (view x.shared.tables) (view y.shared.tables) := by
    intro ws hws online honline
    rcases hdone.commit h.inv hy.inv hnew hws with ⟨htables, ⟨t, hx⟩, hasked⟩
    rcases hx.performs h.inv.consistent (online c) (fun hneeds => honline true (hasked hneeds)) with
      ⟨newId, hfresh, hperform⟩
    rw [← htables] at hperform
    exact ⟨newId, fun _ => hfresh, hperform⟩
  rcases hover with ⟨r, hr⟩ | ⟨e, he⟩
  · rcases hy.returned hr with ⟨_, before, a, ws, ha, _⟩
    exact ⟨.success, by rw [hr]; rfl, hsuccess ws (by rw [ha.progress]; rfl)⟩
  · rcases hy.raised he with ⟨before, a, n, ha, cls, hcls, href⟩ |
      ⟨rfl, _, _, before, a, ws, em, rest, ha, _⟩
    · rcases hdone.refusal h.inv hy.inv hnew (by rw [ha.progress]; rfl) href with ⟨htables, hr⟩
      refine ⟨cls, ?_, fun online honline => ⟨0, fun hs => ?_, ?_⟩⟩
      · rw [he]
        cases e with
        | transportError => simp only [HttpException.outcome, reduceCtorEq] at hcls
        | _ => exact hcls
      · -- No error is a success.
        rw [hs] at hcls
        cases e <;> simp only [HttpException.outcome, reduceCtorEq, Option.some.injEq] at hcls
      · rw [htables]
        exact hr (online c) honline 0
    · exact ⟨.success, by rw [he]; rfl, hsuccess ws (by rw [ha.progress]; rfl)⟩

/-! ## One call after the other -/

/-- The calls are made one after the other, each alone until it is over. -/
inductive InTurn (throws : CallId → Emitter → Bool) (x : Calls) : List CallId → Calls → Prop where
  | nil : InTurn throws x [] x
  | snoc (cs : List CallId) (y z : Calls) (c : CallId) (h : InTurn throws x cs y)
      (hrun : Run (exec throws) (only c) y z) (hover : Over z c) : InTurn throws x (cs ++ [c]) z

/-- Nobody holds a row. -/
def Idle (x : Calls) : Prop := ∀ d, ¬ Holding x.shared d

/-- What is known after some calls in turn. -/
structure Afterwards (calls : CallId → Operation) (throws : CallId → Emitter → Bool) (x : Calls)
    (cs : List CallId) (y : Calls) : Prop where
  reachable : Reachable calls throws y
  idle : Idle y
  log : ∃ l, y.shared.log = l ++ x.shared.log ∧ ∀ e ∈ l, e.call ∈ cs
  threads : ∀ d ∉ cs, y.threads d = x.threads d

/-- After any number of calls in turn: the state is reachable, nobody holds a row,
    the new entries are theirs, and no other call has moved. Each is kept by one
    more call that runs alone to its end. -/
theorem InTurn.afterwards {cs : List CallId} (h : Reachable calls throws x) (hidle : Idle x)
    (hturn : InTurn throws x cs y) : Afterwards calls throws x cs y := by
  induction hturn with
  | nil => exact ⟨h, hidle, ⟨[], rfl, fun _ he => absurd he List.not_mem_nil⟩, fun _ _ => rfl⟩
  | snoc cs y z c hprev hrun hover ih =>
      rcases DoneBy.of_run ih.reachable hrun with ⟨hz, hdone⟩
      rcases hdone.log with ⟨l, hl, hown⟩
      rcases ih.log with ⟨l', hl', hown'⟩
      refine ⟨hz, fun d hheld => ?_, ⟨l ++ l', by rw [hl, hl', List.append_assoc], fun e he => ?_⟩,
        fun d hd => ?_⟩
      · -- The call itself is over, and an idle state has nobody else holding a row.
        by_cases hd : d = c
        · rw [hd] at hheld
          exact not_holding_of_over hz hover hheld
        · exact ih.idle d (hdone.holding hd hheld)
      · rcases List.mem_append.mp he with he | he
        · rw [hown e he]
          exact List.mem_append_right cs (List.mem_singleton_self c)
        · exact List.mem_append_left [c] (hown' e he)
      · rw [List.mem_append, List.mem_singleton, not_or] at hd
        rw [threads_of_run hrun hd.2, ih.threads d hd.1]

/-- A call that had not begun, and is none of those made since, has not. -/
theorem Afterwards.unbegun {cs : List CallId} (h : Afterwards calls throws x cs y) (hc : c ∉ cs)
    (hnew : ∀ e ∈ x.shared.log, e.call ≠ c) : ∀ e ∈ y.shared.log, e.call ≠ c := by
  rcases h.log with ⟨l, hl, hown⟩
  intro e he heq
  rw [hl, List.mem_append] at he
  rcases he with he | he
  · exact hc (heq ▸ hown e he)
  · exact hnew e he heq

/-- Where no row is held, calls can be made in turn. -/
theorem InTurn.exists (h : Reachable calls throws x) (hidle : Idle x) (cs : List CallId) :
    cs.Nodup → ∃ y, InTurn throws x cs y := by
  induction cs using List.reverseRecOn with
  | nil => exact fun _ => ⟨x, .nil⟩
  | append_singleton cs c ih =>
      intro hnodup
      rcases ih (List.nodup_append.mp hnodup).1 with ⟨y, hy⟩
      have hafter := hy.afterwards h hidle
      rcases lone_completes hafter.reachable (fun d _ => hafter.idle d) with ⟨z, hrun, hover⟩
      exact ⟨z, .snoc cs y z c hy hrun hover⟩

/-- Calls made one after the other, where no row is held, never wait, and they are
    the steps of the machine in their order, with the outcomes that they were
    answered with. The order is the one they were made in. The induction goes over
    the calls: the last one is a step of the machine from where the earlier ones
    have left it. -/
theorem in_turn_performs (h : Reachable calls throws x) (hidle : Idle x) {cs : List CallId}
    (hnodup : cs.Nodup) (hnew : ∀ c ∈ cs, ∀ e ∈ x.shared.log, e.call ≠ c) :
    (∃ z, InTurn throws x cs z) ∧
    (∀ pre y c z (env : Env), InTurn throws x pre y → Run (exec throws) (only c) y z →
      ¬ Over z c → env.Fresh z.shared → (z.turn (exec throws) c env).isSome) ∧
    ∀ z, InTurn throws x cs z → ∃ order : List (CallId × Outcome),
      order.map Prod.fst = cs ∧
      (∀ c o, (c, o) ∈ order → outcomeOf (z.threads c) = some o) ∧
      ∀ online : CallId → Bool,
        (∀ c ∈ cs, ∀ b, (progress c z.shared.log).asked = some b → online c = b) →
        Sequential (performs calls online) (view x.shared.tables) order
          (view z.shared.tables) := by
  refine ⟨InTurn.exists h hidle cs hnodup, fun pre y c z env hpre hrun hover hfresh => ?_,
    fun z hturn => ?_⟩
  · have hafter := hpre.afterwards h hidle
    exact lone_goes_on hafter.reachable (fun d _ => hafter.idle d) hrun hover hfresh
  induction hturn with
  | nil =>
      exact ⟨[], rfl, fun c o hc => absurd hc List.not_mem_nil, fun _ _ => .nil⟩
  | snoc cs y z c hprev hrun hover ih =>
      rcases List.nodup_append.mp hnodup with ⟨hnodup', _, hdisjoint⟩
      -- The last call is none of those before it, so it has not begun.
      have hc : c ∉ cs := fun hmem => hdisjoint c hmem c (List.mem_singleton_self c) rfl
      have hafter := hprev.afterwards h hidle
      have hunbegun := hafter.unbegun hc
        (hnew c (List.mem_append_right cs (List.mem_singleton_self c)))
      rcases DoneBy.of_run hafter.reachable hrun with ⟨_, hdone⟩
      rcases hdone.log with ⟨l, hl, _⟩
      rcases lone_performs hafter.reachable hunbegun hrun hover with ⟨o, ho, hperforms⟩
      rcases ih hnodup' (fun d hd => hnew d (List.mem_append_left [c] hd)) with
        ⟨order, hcalls, houtcomes, hseq⟩
      refine ⟨order ++ [(c, o)], by simp [hcalls], fun d o' hd => ?_, fun online honline => ?_⟩
      · rcases List.mem_append.mp hd with hd | hd
        · -- The calls before it are over, and keep their answers.
          have hmem : d ∈ cs := by
            rw [← hcalls]
            exact List.mem_map_of_mem hd
          rw [threads_of_run hrun (fun heq => hc (heq ▸ hmem))]
          exact houtcomes d o' hd
        · rw [List.mem_singleton, Prod.mk.injEq] at hd
          rw [hd.1, hd.2]
          exact ho
      · refine .snoc order _ _ c o (hseq online (fun d hd b hb => ?_)) (hperforms online ?_)
        · refine honline d (List.mem_append_left [c] hd) b ?_
          rw [hl]
          exact asked_kept_append hb
        · exact honline c (List.mem_append_right cs (List.mem_singleton_self c))

/-- Before any call was made no row is held. -/
theorem idle_boot (devices : Uuid → Device) (users : Uuid → User) (clock : Timestamp) :
    Idle (boot calls devices users clock) :=
  fun d => not_holding (init_at (c := d) devices users clock).requests
    (init_at (c := d) devices users clock).sessions

/-- The calls that lead to a session, one after the other. The machine begins with
    no rows, and the four steps end with the session. -/
theorem in_turn_performs_opening : ∃ z order,
    InTurn quiet (boot assistance (fun _ => tablet) (fun _ => agent) 0) [0, 1, 2, 3] z ∧
    order.map Prod.fst = [0, 1, 2, 3] ∧
    Sequential (performs assistance
      (fun c => ((progress c z.shared.log).asked).getD true)) (view Tables.empty) order
      (view z.shared.tables) := by
  have hreach : Reachable assistance quiet (boot assistance (fun _ => tablet) (fun _ => agent) 0) :=
    ⟨_, _, _, .refl⟩
  have hcalls : ([0, 1, 2, 3] : List CallId).Nodup := by decide
  rcases in_turn_performs hreach (idle_boot _ _ _) hcalls
    (fun _ _ e he => absurd he List.not_mem_nil) with ⟨⟨z, hz⟩, _, hall⟩
  rcases hall z hz with ⟨order, hcalls, _, hseq⟩
  exact ⟨z, order, hz, hcalls, hseq _ (fun c _ b hb => by simp only [hb, Option.getD_some])⟩

/-! ## A way out -/

/-- What a device does to ask for help again: it reads its session and its
    request, ends what is not over, and makes a request. -/
def wayOut (throws : CallId → Emitter → Bool) (c : CallId) (env : Env) (device : Device)
    (w : World) : List Operation :=
  match answer throws c env (RemoteSessionsService.findCurrentForDevice device.id) w with
  | some (some s) => [.closeByDevice s.id device, .createForDevice device]
  | _ => match answer throws c env (SupportRequestsService.findCurrentForDevice device.id) w with
    | some (some r) => [.cancelByDevice r.id device, .createForDevice device]
    | _ => [.createForDevice device]

/-- The device has no request that is active. -/
def Machine.State.Clear (S : State) (deviceId : Uuid) : Prop := ¬ S.HasActiveRequest deviceId

/-- In terms of the rows: the device's requests are all over. -/
theorem clear_iff {T : Tables} {deviceId : Uuid} : (view T).Clear deviceId ↔
    ∀ k r, T.requests k = some r → r.deviceId = deviceId → r.isActive = false := by
  constructor
  · intro h k r hr hd
    refine Bool.eq_false_iff.mpr (fun ha => h ⟨k, r.view, view_request hr, hd, isActive_mem.mp ha⟩)
  · rintro h ⟨k, r, hr, hd, hs⟩
    rcases view_request_inv hr with ⟨r', hr', rfl⟩
    have hno := h k r' hr' hd
    rw [isActive_mem.mpr hs] at hno
    simp only [Bool.true_eq_false] at hno

/-- Once the only active request of a device is over it has none. By the index
    there is no other one. -/
theorem Unique.clear_setRequest {T : Tables} (hu : Unique T) {k : Uuid} {r : SupportRequest}
    {r' : RequestState} (hr : T.requests k = some r) (ha : r.isActive = true)
    (hs : r'.status ∉ activeSupportRequestStatuses) {S : State}
    (hS : S.requests = (view T).requests) : (S.setRequest k r').Clear r.deviceId := by
  rintro ⟨j, r'', hj, hd, hactive⟩
  by_cases hk : j = k
  · simp only [State.setRequest, hk, Function.update_self, Option.some.injEq] at hj
    exact hs (hj ▸ hactive)
  · simp only [State.setRequest, Function.update_of_ne hk, hS] at hj
    rcases view_request_inv hj with ⟨r₀, hr₀, rfl⟩
    exact hk (hu.activeRequest j k r₀ r hr₀ hr (isActive_mem.mpr hactive) ha hd)

/-- A device that closes its session has no active request afterwards. A live
    session has its request accepted, which is the active one of the device, and
    closing the session closes it. -/
theorem closeByDevice_clears {w : World} (hi : Inv calls throws w) {device : Device} {k : Uuid}
    {s : RemoteSession} (hs : w.tables.sessions k = some s) (hd : s.deviceId = device.id)
    (hl : s.isLive = true) (online : Bool) (newId : Uuid) :
    ∃ S, perform (.closeByDevice k device) online newId (view w.tables) = (.success, S) ∧
      S.Clear device.id := by
  rcases hi.consistent.owned k s hs with ⟨r, hr, hrd, _, hst⟩
  rw [if_pos hl] at hst
  have hopen : ¬ (s.view.status = .closed) := isLive_iff.mp hl
  have hreq : (view w.tables).requests s.view.supportRequestId = some r.view := view_request hr
  simp only [perform, State.close, if_neg hopen, hreq,
    view_filter_session hs (p := fun s => decide (s.deviceId = device.id)) (decide_eq_true hd)]
  refine ⟨_, rfl, ?_⟩
  rw [← hd, ← hrd]
  exact hi.unique.clear_setRequest hr (isActive_iff.mpr (.inr (.inr hst)))
    (by simp [activeSupportRequestStatuses]) rfl

/-- So has one that cancels its request, if there is no session. -/
theorem cancelByDevice_clears {w : World} (hi : Inv calls throws w) {device : Device} {k : Uuid}
    {r : SupportRequest} (hr : w.tables.requests k = some r) (hd : r.deviceId = device.id)
    (ha : r.isActive = true)
    (hnone : ∀ j s, w.tables.sessions j = some s → s.deviceId = device.id → s.isLive = false)
    (online : Bool) (newId : Uuid) :
    ∃ S, perform (.cancelByDevice k device) online newId (view w.tables) = (.success, S) ∧
      S.Clear device.id := by
  have hgo : r.view.status ∈ activeSupportRequestStatuses ∧ ¬ (view w.tables).Started k := by
    refine ⟨isActive_mem.mp ha, ?_⟩
    rintro ⟨j, s, hj, rfl, hlive⟩
    rcases view_session_inv hj with ⟨s', hs', rfl⟩
    rcases hi.consistent.owned j s' hs' with ⟨r', hr', hrd, _, _⟩
    -- The session of the request would be one of the device.
    have hsame : r = r' := Option.some.inj (hr.symm.trans hr')
    have hno := hnone j s' hs' (by rw [← hrd, ← hsame, hd])
    rw [isLive_iff.mpr hlive] at hno
    simp only [Bool.true_eq_false] at hno
  simp only [perform, if_pos hgo,
    view_filter_request hr (p := fun r => decide (r.deviceId = device.id)) (decide_eq_true hd)]
  refine ⟨_, rfl, ?_⟩
  rw [← hd]
  exact hi.unique.clear_setRequest hr ha (by simp [activeSupportRequestStatuses]) rfl

/-- A device without an active request is given one that waits, whether or not
    anybody is online. -/
theorem createForDevice_waits {S : State} {device : Device} (hactive : device.isActive = true)
    (hclear : S.Clear device.id) (online : Bool) (newId : Uuid) :
    perform (.createForDevice device) online newId S =
      (.success, S.setRequest newId ⟨device.id, none, .waiting⟩) := by
  simp only [perform, hactive, Bool.true_eq_false, if_false, if_neg hclear]

/-- What the device reads decides what it does: it has no active request, or one
    call leaves it without. A session is closed, whatever its request. Without
    one, an active request is cancelled; it is not accepted, since an accepted one
    would have its session. -/
theorem wayOut_spec {w : World} (hi : Inv calls throws w) (c : CallId) (env : Env)
    (device : Device) : ∃ pre, wayOut throws c env device w = pre ++ [.createForDevice device] ∧
      (pre = [] ∧ (view w.tables).Clear device.id ∨
        ∃ op, pre = [op] ∧ ¬ op.Leaks ∧ ∀ online newId, ∃ S,
          perform op online newId (view w.tables) = (.success, S) ∧ S.Clear device.id) := by
  rcases session_of_device hi c env device.id with ⟨session, hsession, hshown⟩
  rcases request_of_device hi c env device.id with ⟨request, hrequest, hshown'⟩
  cases session with
  | some dto =>
      rcases (hshown dto).mp rfl with ⟨k, s, hs, ⟨hl, hd⟩, rfl⟩
      refine ⟨[.closeByDevice k device], ?_, .inr ⟨_, rfl, fun hleaks => hleaks,
        closeByDevice_clears hi hs hd hl⟩⟩
      simp only [wayOut, hsession, List.singleton_append, List.cons.injEq, and_true,
        Operation.closeByDevice.injEq]
      exact hi.consistent.sessionId k s hs
  | none =>
      have hnone : ∀ k s, w.tables.sessions k = some s → s.deviceId = device.id →
          s.isLive = false := fun k s hs hd => Bool.eq_false_iff.mpr (fun hl =>
            absent_of_none hshown rfl hs ⟨hl, hd⟩)
      cases request with
      | some dto =>
          rcases (hshown' dto).mp rfl with ⟨k, r, hr, ⟨ha, hd⟩, rfl⟩
          refine ⟨[.cancelByDevice k device], ?_, .inr ⟨_, rfl, fun hleaks => hleaks,
            cancelByDevice_clears hi hr hd ha hnone⟩⟩
          simp only [wayOut, hsession, hrequest, List.singleton_append, List.cons.injEq, and_true,
            Operation.cancelByDevice.injEq]
          exact hi.consistent.requestId k r hr
      | none =>
          refine ⟨[], by simp only [wayOut, hsession, hrequest, List.nil_append], .inl ⟨rfl, ?_⟩⟩
          exact clear_iff.mpr (fun k r hr hd => Bool.eq_false_iff.mpr (fun ha =>
            absent_of_none hshown' rfl hr ⟨ha, hd⟩))

/-- A call that the machine lets succeed returns, unless the transport can fail
    it. -/
theorem lone_succeeds (h : Reachable calls throws x) (hnew : ∀ e ∈ x.shared.log, e.call ≠ c)
    (hrun : Run (exec throws) (only c) x y) (hover : Over y c) (hleaks : ¬ (calls c).Leaks)
    {P : State → Prop} (hperform : ∀ online newId, ∃ S,
      perform (calls c) online newId (view x.shared.tables) = (.success, S) ∧ P S) :
    (∃ r, y.threads c = .ret r) ∧ P (view y.shared.tables) := by
  rcases lone_performs h hnew hrun hover with ⟨o, ho, hperforms⟩
  rcases hperforms (fun _ => ((progress c y.shared.log).asked).getD true)
    (fun b hb => by simp only [hb, Option.getD_some]) with ⟨newId, _, hstep⟩
  rcases hperform _ newId with ⟨S, hS, hP⟩
  rw [hS, Prod.mk.injEq] at hstep
  refine ⟨?_, hstep.2 ▸ hP⟩
  rcases hover with hret | ⟨e, he⟩
  · exact hret
  · rcases (DoneBy.of_run h hrun).1.raised he with ⟨_, _, _, _, cls, hcls, _⟩ | ⟨_, hleak, _⟩
    · -- An error is not a success.
      rw [he, ← hstep.1] at ho
      cases e <;> simp only [outcomeOf, HttpException.outcome, Option.some.injEq,
        reduceCtorEq] at ho hcls
    · exact absurd hleak hleaks

/-- The last of the calls, and the others before it. -/
theorem InTurn.unsnoc {cs : List CallId} (h : InTurn throws x (cs ++ [c]) z) :
    ∃ y, InTurn throws x cs y ∧ Run (exec throws) (only c) y z ∧ Over z c := by
  generalize heq : cs ++ [c] = cs' at h
  cases h with
  | nil => exact absurd heq (List.append_ne_nil_of_right_ne_nil cs (List.cons_ne_nil c []))
  | snoc ds y z d hprev hrun hover =>
      rcases List.append_inj' heq rfl with ⟨rfl, hd⟩
      obtain rfl := List.singleton_injective hd
      exact ⟨y, hprev, hrun, hover⟩

/-- No calls leave the state as it is. -/
theorem InTurn.eq_of_nil (h : InTurn throws x [] y) : y = x := by
  generalize heq : ([] : List CallId) = cs at h
  cases h with
  | nil => rfl
  | snoc ds _ _ d _ _ _ =>
      exact absurd heq.symm (List.append_ne_nil_of_right_ne_nil ds (List.cons_ne_nil d []))

/-- No state is a dead end for a device. Where nobody holds a row, a device that
    may use the service, and does what its own reads tell it to, gets to the end
    of each of its calls, every one of them returns, whatever the transport does,
    and after them it has a request that waits, and no session. The calls run one
    after the other, so the rows that the device has read are still those that its
    first call is decided by. -/
theorem device_way_out (h : Reachable calls throws x) (hidle : Idle x) {device : Device}
    (hactive : device.isActive = true) (reader : CallId) (env : Env) {cs : List CallId}
    (hcs : cs.map calls = wayOut throws reader env device x.shared) (hnodup : cs.Nodup)
    (hnew : ∀ c ∈ cs, ∀ e ∈ x.shared.log, e.call ≠ c) :
    (∃ z, InTurn throws x cs z) ∧
    ∀ z, InTurn throws x cs z → (∀ c ∈ cs, ∃ r, z.threads c = .ret r) ∧
      answer throws reader env (RemoteSessionsService.findCurrentForDevice device.id) z.shared =
        some none ∧
      ∃ dto, answer throws reader env (SupportRequestsService.findCurrentForDevice device.id)
        z.shared = some (some dto) ∧ dto.status = .waiting := by
  refine ⟨InTurn.exists h hidle cs hnodup, fun z hturn => ?_⟩
  rcases wayOut_spec h.inv reader env device with ⟨pre, hpre, hclears⟩
  rw [hpre] at hcs
  -- The last call asks for help, and before it there is one call or none.
  rcases List.map_eq_append_iff.mp hcs with ⟨cs₁, cs₂, rfl, hcs₁, hcs₂⟩
  rcases List.map_eq_singleton_iff.mp hcs₂ with ⟨c, rfl, hc⟩
  rcases hturn.unsnoc with ⟨y, hprev, hrun, hover⟩
  have hafter := hprev.afterwards h hidle
  rcases List.nodup_append.mp hnodup with ⟨_, _, hdisjoint⟩
  have hc₁ : c ∉ cs₁ := fun hmem => hdisjoint c hmem c (List.mem_singleton_self c) rfl
  have hunbegun := hafter.unbegun hc₁
    (hnew c (List.mem_append_right cs₁ (List.mem_singleton_self c)))
  -- The call before the last one, if there is one, leaves the device without a request.
  have hclear : (∀ d ∈ cs₁, ∃ r, y.threads d = .ret r) ∧
      (view y.shared.tables).Clear device.id := by
    rcases hclears with ⟨rfl, hclear⟩ | ⟨op, rfl, hleaks, hperform⟩
    · rw [List.map_eq_nil_iff] at hcs₁
      subst hcs₁
      rw [hprev.eq_of_nil]
      exact ⟨fun d hd => absurd hd List.not_mem_nil, hclear⟩
    · rcases List.map_eq_singleton_iff.mp hcs₁ with ⟨d, rfl, hd⟩
      rcases (show InTurn throws x ([] ++ [d]) y from hprev).unsnoc with ⟨x', hx', hrun', hover'⟩
      rw [hx'.eq_of_nil] at hrun'
      rw [← hd] at hleaks hperform
      rcases lone_succeeds h (hnew d (List.mem_append_left [c] (List.mem_singleton_self d))) hrun'
        hover' hleaks hperform with ⟨hret, hclear⟩
      refine ⟨fun d' hd' => ?_, hclear⟩
      rw [List.mem_singleton.mp hd']
      exact hret
  -- The last call: the device has no active request, so it is given one.
  rcases lone_succeeds (P := fun S => ∃ k r, S.requests k = some r ∧ r.deviceId = device.id ∧
      r.status = .waiting) hafter.reachable hunbegun hrun hover
    (by rw [hc]; exact fun hleaks => hleaks)
    (fun online newId => ⟨_, by rw [hc]; exact createForDevice_waits hactive hclear.2 online newId,
      newId, _, Function.update_self newId _ _, rfl, rfl⟩) with ⟨hret, k, r, hr, hd, hwaiting⟩
  have hz := (DoneBy.of_run hafter.reachable hrun).1
  rcases view_request_inv hr with ⟨row, hrow, rfl⟩
  have hrowactive : row.isActive = true := isActive_iff.mpr (.inl hwaiting)
  refine ⟨fun d hd => ?_, ?_, ?_⟩
  · -- The earlier call keeps its answer while the last one runs.
    rcases List.mem_append.mp hd with hd | hd
    · rw [threads_of_run hrun (fun heq => hc₁ (heq ▸ hd))]
      exact hclear.1 d hd
    · rw [List.mem_singleton.mp hd]
      exact hret
  · -- The read of the session.
    rcases session_of_device hz.inv reader env device.id with ⟨found, hfound, hshown⟩
    rw [hfound]
    cases found with
    | none => rfl
    | some dto =>
        -- A live session would have a second active request.
        rcases (hshown dto).mp rfl with ⟨j, s, hs, ⟨hl, hsd⟩, _⟩
        rcases hz.inv.consistent.owned j s hs with ⟨r', hr', hrd, _, hst⟩
        rw [if_pos hl] at hst
        have hsame := hz.inv.unique.active_request hr' hrow (isActive_iff.mpr (.inr (.inr hst)))
          hrowactive ((hrd.trans hsd).trans hd.symm)
        rw [hsame] at hst
        exact absurd (hst.symm.trans hwaiting) (by simp only [reduceCtorEq, not_false_eq_true])
  · -- The read of the request: the one that was made is active and the device's own.
    rcases request_of_device hz.inv reader env device.id with ⟨found, hfound, hshown⟩
    exact ⟨_, by rw [hfound, (hshown _).mpr ⟨k, row, hrow, ⟨hrowactive, hd⟩, rfl⟩], hwaiting⟩

/-- A schedule whose calls are all over leaves no row held. -/
theorem idle_of_follow {devices : Uuid → Device} {users : Uuid → User} {clock : Timestamp}
    {S : Finset CallId} {ls : List (CallId × Env)} (hls : ∀ e ∈ ls, e.1 ∈ S)
    (h : follow (exec throws) (boot calls devices users clock) ls = some x)
    (hover : ∀ c ∈ S, (x.threads c).returned.isSome) : Idle x := by
  have hconfined : Confined calls throws S x :=
    follow_invariant hls h (.boot S devices users clock) (fun _ _ _ _ hc hP => hP.turn hc)
  intro d hheld
  rcases Option.isSome_iff_exists.mp (hover d (hconfined.mem_of_holding hheld)) with ⟨r, hr⟩
  exact not_holding_of_over hconfined.reachable (.inl ⟨r, Prog.returned_eq_some.mp hr⟩) hheld

/-- A tablet that is in a session closes it and asks for help again. -/
def startingOver : CallId → Operation
  | 7 => .closeByDevice 20 tablet
  | 8 => .createForDevice tablet
  | c => assistance c

/-- The schedule is the one that opens a session; in the state it leads to, the
    reads tell the tablet to close it, and it has its request after that. -/
theorem device_way_out_opening : ∃ x z, Reachable startingOver quiet x ∧
    (∃ s, x.shared.tables.sessions 20 = some s ∧ s.status = .connecting) ∧
    InTurn quiet x [7, 8] z ∧ (∃ r, z.threads 8 = .ret r) ∧
    ∃ dto, answer quiet 9 steadily (SupportRequestsService.findCurrentForDevice 1) z.shared =
      some (some dto) ∧ dto.status = .waiting := by
  have hrun : ((follow (exec quiet) (boot startingOver (fun _ => tablet) (fun _ => agent) 0)
      opening).any (fun x =>
        (x.shared.tables.sessions 20).any (fun s => decide (s.status = .connecting)) &&
        decide (∀ c ∈ Finset.range 4, (x.threads c).returned.isSome = true) &&
        decide ([7, 8].map startingOver = wayOut quiet 9 steadily tablet x.shared) &&
        x.shared.log.all (fun e => decide (e.call ≠ 7 ∧ e.call ≠ 8)))) = true := by
    decide +kernel
  rw [Option.any_eq_true] at hrun
  rcases hrun with ⟨x, hx, hp⟩
  simp only [Bool.and_eq_true, decide_eq_true_eq, List.all_eq_true, Option.any_eq_true] at hp
  rcases hp with ⟨⟨⟨⟨s, hs, hst⟩, hover⟩, hops⟩, hnew⟩
  have hreach : Reachable startingOver quiet x := ⟨_, _, _, run_of_follow opening _ x hx⟩
  have hidle : Idle x := idle_of_follow (S := Finset.range 4) (by decide) hx hover
  have hactive : tablet.isActive = true := rfl
  rcases device_way_out hreach hidle hactive 9 steadily hops (by decide)
    (fun c hc e he => by
      rcases List.mem_cons.mp hc with rfl | hc
      · exact (hnew e he).1
      · rw [List.mem_singleton.mp hc]
        exact (hnew e he).2) with ⟨⟨z, hz⟩, hall⟩
  rcases hall z hz with ⟨hret, _, hdto⟩
  exact ⟨x, z, hreach, ⟨s, hs, hst⟩, hz, hret 8 (by simp), hdto⟩

end RemoteControl
