import RemoteControl.Theory.SessionCalls

/-!
# Runs of the Lifecycle

The nine methods put together. `handle_spec` verifies a whole call, from
before it has been made to after it has returned, and the soundness of the
rules turns that into a statement about every reachable system: the invariant
holds, and every call that is over has ended in one of the ways of
`Theory.Calls`.

What holds of the committed rows at every moment is then read off the
invariant. The first such result is `cross_table_consistency`.

`handle` marks the beginning of a call and its return around the method. The
mark at the beginning gives the history that the call cannot have influenced
(`enter_then`), and after the mark at the end the call takes no more turns, so
that what it ended in is stable. `handle_ends` is the same for a method of
which more is known, and `Reachable.ends` brings that to a reachable system.

## Main definitions

* `Returned`, `Raised`: How a call has ended once it has left.
* `assistance`, `turns`: A tablet asks for help, and the turns of its calls.
* `Progress.gone`: The progress of a call that has returned.
* `tablet`, `agent`, `quiet`, `opening`: A run of the calls up to an open
  session.

## Theorems

* `body_spec`, `handle_spec`: A method, and a call.
* `Reachable.sound`: Every reachable system keeps to the rules.
* `reachable_of_follow`: A schedule that can be followed reaches its end.
* `cross_table_consistency`: What the two tables have in common.
* `handle_ends`, `Reachable.ends`: What more a method is known to end in.
* `enter_then`, `leave_then`: The two marks around a method.
* `init_inv`, `init_at`: Where the system begins.
-/

namespace RemoteControl

open Concurrency Machine

section Ends

variable (calls : CallId → Operation) (throws : CallId → Emitter → Bool) (c : CallId)

/-- The same, with the return marked. -/
def Progress.gone (p : Progress) : Progress := { p with left := true }

/-- The call has returned its answer. -/
def Returned (r : Response) (w : World) : Prop :=
  ((calls c).Leaks → throws c .emitToDevice = false) ∧
  ∃ before a ws, At c (announcing before a ws (attempts calls throws c ws)).gone .free w ∧
    Answers w.tables (calls c) ws r

/-- The call has ended in an error. -/
def Raised (e : HttpException) (w : World) : Prop :=
  (∃ before a n, At c (working before a n).gone .free w ∧ RefusedWith calls c e w) ∨
  (e = .transportError ∧ (calls c).Leaks ∧ throws c .emitToDevice = true ∧
    ∃ before a ws em rest, At c (announcing before a ws [(em, true)]).gone .free w ∧
      announcements (calls c) ws = em :: rest)

end Ends

variable {calls : CallId → Operation} {throws : CallId → Emitter → Bool} {c : CallId}

/-- The call is over, and the row that it has shown only grows. -/
theorem Returned.stable {r : Response} :
    (lifecycle calls throws).Stable c (Returned calls throws c r) := by
  intro u w w' huc hi hi' hg h
  rcases h with ⟨hquiet, before, a, ws, ha, hr⟩
  exact ⟨hquiet, before, a, ws, At.stable u w w' huc hi hi' hg ha,
    hr.grows (hg.grows hi hi')⟩

/-- The call is over, and its reason is in the past. -/
theorem Raised.stable {e : HttpException} :
    (lifecycle calls throws).Stable c (Raised calls throws c e) := by
  intro u w w' huc hi hi' hg h
  rcases h with ⟨before, a, n, ha, hr⟩ | ⟨he, hl, ht, before, a, ws, em, rest, ha, hs⟩
  · exact .inl ⟨before, a, n, At.stable u w w' huc hi hi' hg ha,
      RefusedWith.persistent u w w' hi hi' hg hr⟩
  · exact .inr ⟨he, hl, ht, before, a, ws, em, rest, At.stable u w w' huc hi hi' hg ha, hs⟩

/-! ## A whole call -/

/-- The method of a call. -/
theorem body_spec {before : List Entry} {w₁ : World} (hi₁ : Inv calls throws w₁) :
    (lifecycle calls throws).Triple (exec throws) c (Begun c before w₁) (calls c).body
      (Done calls throws c before) (Thrown calls throws c before) := by
  cases hop : calls c with
  | createForDevice device =>
      exact (createForDevice_spec hop hi₁).bind (fun _ => .ret (fun _ _ h => h))
  | assign id technician => exact (assign_spec hop).bind (fun _ => .ret (fun _ _ h => h))
  | acceptByDevice id device =>
      exact (acceptByDevice_spec hop).bind (fun _ => .ret (fun _ _ h => h))
  | rejectByDevice id device =>
      exact (rejectByDevice_spec hop).bind (fun _ => .ret (fun _ _ h => h))
  | cancelByDevice id device =>
      exact (cancelByDevice_spec hop).bind (fun _ => .ret (fun _ _ h => h))
  | create id user => exact (create_spec hop).bind (fun _ => .ret (fun _ _ h => h))
  | activateByTechnician id user =>
      exact ((activateByTechnician_spec hop).conseq (fun _ _ h => h) (fun _ _ _ h => h.1)
        (fun _ _ _ h => h.1)).bind (fun _ => .ret (fun _ _ h => h))
  | closeByTechnician id user =>
      exact (closeByTechnician_spec hop).bind (fun _ => .ret (fun _ _ h => h))
  | closeByDevice id device =>
      exact (closeByDevice_spec hop).bind (fun _ => .ret (fun _ _ h => h))

/-- The entry of a call: nothing came before it, and everything follows it. -/
theorem enter_then {α : Type} {Q : α → World → Prop} {E : HttpException → World → Prop}
    {k : Unit → Service α}
    (hk : ∀ w₀, Inv calls throws w₀ →
      (lifecycle calls throws).Triple (exec throws) c (Begun c w₀.log w₀) (k ()) Q E) :
    (lifecycle calls throws).Triple (exec throws) c (At c Progress.start .free)
      ((ask .enter).bind k) Q E := by
  refine .op (fun _ w => ∃ w₀, Inv calls throws w₀ ∧ Begun c w₀.log w₀ w)
    (fun _ _ _ => trivial) (fun w hi ha env r w' hx => ?_)
    (fun _ => .exists (fun w₀ => .pure (fun hi₀ => hk w₀ hi₀)))
  simp only [exec] at hx
  cases hx
  have hok : EntryOk calls throws w.log ⟨c, w.clock, .entered⟩ :=
    ⟨fun e he => hi.times e he, by rw [ha.progress]; rfl, ha.progress⟩
  -- The call has not begun before, so this is its first entry.
  rcases ha.recorded hi (fun ws hc => by simp only [reduceCtorEq] at hc) hok with
    ⟨hi', hg, ha', hsaw⟩
  exact ⟨hi', hg, w, hi, ha', hsaw⟩

/-- The return of a call. It holds nothing any more. -/
theorem leave_then {α : Type} {Q : α → World → Prop} {E : HttpException → World → Prop}
    {p : Progress} {K : World → Prop} {k : Unit → Service α} (hp : p.Open)
    (hK : (lifecycle calls throws).Persistent K)
    (hk : (lifecycle calls throws).Triple (exec throws) c
      (fun w => At c p.gone .free w ∧ K w) (k ()) Q E) :
    (lifecycle calls throws).Triple (exec throws) c (fun w => At c p .free w ∧ K w)
      ((ask .leave).bind k) Q E := by
  refine ask_then (fun _ _ => p.gone) (fun _ _ => True) (fun _ w₀ => Saw c w₀) hK
    (fun _ _ _ _ => trivial) (fun w hi ha _ env r w' hx => ?_)
    (fun _ _ _ _ _ _ => hk.weaken (fun _ _ h => ⟨h.1, h.2.2⟩))
  simp only [exec] at hx
  cases hx
  rcases ha.recorded hi (fun ws hc => by simp only [reduceCtorEq] at hc)
    (entryOk_ran .left hi ha.progress hp.1 hp.2 (Nat.le_refl _) (.inr (.inr rfl))) with
    ⟨hi', hg, ha', hsaw⟩
  exact ⟨hi', hg, ha', hsaw, trivial⟩

/-- An answer that was right stays right. -/
theorem Answers.persistent {op : Operation} {ws : Writes} {r : Response} :
    (lifecycle calls throws).Persistent (fun w => Answers w.tables op ws r) :=
  fun _ _ _ hi hi' hg h => h.grows (hg.grows hi hi')

/-- A call, from before it was made to after it has returned, with what more
    its method is known to end in. -/
theorem handle_ends {G : Response → World → Prop} {B : HttpException → World → Prop}
    (hG : ∀ r, (lifecycle calls throws).Persistent (G r))
    (hB : ∀ e, (lifecycle calls throws).Persistent (B e))
    (hbody : ∀ before w₁, Inv calls throws w₁ →
      (lifecycle calls throws).Triple (exec throws) c (Begun c before w₁) (calls c).body
        (fun r w => Done calls throws c before r w ∧ G r w)
        (fun e w => Thrown calls throws c before e w ∧ B e w)) :
    (lifecycle calls throws).Triple (exec throws) c (At c Progress.start .free)
      (handle (calls c)) (fun r w => Returned calls throws c r w ∧ G r w)
      (fun e w => Raised calls throws c e w ∧ B e w) := by
  refine enter_then (fun w₁ hi₁ => ?_)
  refine ((hbody w₁.log w₁ hi₁).onError (fun e => ?_)).bind (fun r => ?_)
  · -- The error is thrown again after the return is marked.
    intro w hi hw
    rcases hw with ⟨⟨a, n, ha, hr⟩ | ⟨he, hl, ht, a, ws, em, rest, ha, hs⟩, hb⟩
    · have hfail : (lifecycle calls throws).Triple (exec throws) c
          (fun w => At c (working w₁.log a n) .free w ∧ (RefusedWith calls c e w ∧ B e w))
          ((ask .leave).bind (fun _ => .throw e))
          (fun r w => Done calls throws c w₁.log r w ∧ G r w)
          (fun e w => Raised calls throws c e w ∧ B e w) :=
        leave_then working_open (RefusedWith.persistent.and (hB e))
          (.throw (fun _ _ hw' => ⟨.inl ⟨_, a, n, hw'.1, hw'.2.1⟩, hw'.2.2⟩))
      exact hfail w hi ⟨ha, hr, hb⟩
    · have hleak : (lifecycle calls throws).Triple (exec throws) c
          (fun w => At c (announcing w₁.log a ws [(em, true)]) .free w ∧ B e w)
          ((ask .leave).bind (fun _ => .throw e))
          (fun r w => Done calls throws c w₁.log r w ∧ G r w)
          (fun e w => Raised calls throws c e w ∧ B e w) :=
        leave_then announcing_open (hB e)
          (.throw (fun _ _ hw' => ⟨.inr ⟨he, hl, ht, _, a, ws, em, rest, hw'.1, hs⟩, hw'.2⟩))
      exact hleak w hi ⟨ha, hb⟩
  · intro w hi hw
    rcases hw with ⟨⟨hquiet, a, ws, ha, hr⟩, hg⟩
    have hdone : (lifecycle calls throws).Triple (exec throws) c
        (fun w => At c (announcing w₁.log a ws (attempts calls throws c ws)) .free w ∧
          (Answers w.tables (calls c) ws r ∧ G r w))
        ((ask .leave).bind (fun _ => .ret r)) (fun r w => Returned calls throws c r w ∧ G r w)
        (fun e w => Raised calls throws c e w ∧ B e w) :=
      leave_then announcing_open (Answers.persistent.and (hG r))
        (.ret (fun _ _ hw' => ⟨⟨hquiet, _, a, ws, hw'.1, hw'.2.1⟩, hw'.2.2⟩))
    exact hdone w hi ⟨ha, hr, hg⟩

/-- A call, with nothing more said of its method. -/
theorem handle_spec :
    (lifecycle calls throws).Triple (exec throws) c (At c Progress.start .free)
      (handle (calls c)) (Returned calls throws c) (Raised calls throws c) :=
  (handle_ends (G := fun _ _ => True) (B := fun _ _ => True) (fun _ _ _ _ _ _ _ h => h)
    (fun _ _ _ _ _ _ _ h => h) (fun _ _ hi₁ => (body_spec hi₁).conseq (fun _ _ h => h)
      (fun _ _ _ h => ⟨h, trivial⟩) (fun _ _ _ h => ⟨h, trivial⟩))).conseq (fun _ _ h => h)
    (fun _ _ _ h => h.1) (fun _ _ _ h => h.1)

/-! ## Every reachable system -/

/-- Nothing is there, and nothing has happened. -/
theorem init_inv (devices : Uuid → Device) (users : Uuid → User) (clock : Timestamp) :
    Inv calls throws (World.init devices users clock) where
  tables := rfl
  history := trivial
  consistent := consistent_empty
  past := fun l hl => by
    rw [World.init, List.suffix_nil] at hl
    rw [hl]
    exact consistent_empty
  requestsDistinct := by
    intro i _ k k' _ v hv
    simp only [World.init, Table.init, Row.versions, Row.empty, Option.toList_none,
      List.append_nil, List.not_mem_nil] at hv
  sessionsDistinct := by
    intro i _ k k' _ v hv
    simp only [World.init, Table.init, Row.versions, Row.empty, Option.toList_none,
      List.append_nil, List.not_mem_nil] at hv
  times := fun e he => by simp only [World.init, List.not_mem_nil] at he
  stamped := fun k r hr => by
    simp only [World.tables, World.init, Table.committed, Table.init, Row.empty,
      reduceCtorEq] at hr

/-- No call has begun. -/
theorem init_at (devices : Uuid → Device) (users : Uuid → User) (clock : Timestamp) :
    At c Progress.start .free (World.init devices users clock) where
  progress := rfl
  requests := fun k ⟨p, hp⟩ => by
    simp only [World.init, Table.init, Row.empty, reduceCtorEq] at hp
  sessions := fun k ⟨p, hp⟩ => by
    simp only [World.init, Table.init, Row.empty, reduceCtorEq] at hp
  alone := fun h => by simp only [Grip.free, Bool.false_eq_true] at h

/-- The system that is started keeps to the rules. -/
theorem boot_sound (devices : Uuid → Device) (users : Uuid → User) (clock : Timestamp) :
    (lifecycle calls throws).Sound (exec throws) (Returned calls throws) (Raised calls throws)
      (boot calls devices users clock) := by
  refine .start (init_inv devices users clock) (fun c w hr hi => ?_)
  exact handle_spec w hi (hr.keeps At.stable (init_inv devices users clock)
    (init_at devices users clock)).1

/-- Every reachable system keeps to the rules, and so does what follows it. -/
theorem Reachable.sound {sys : Calls} (h : Reachable calls throws sys) :
    (lifecycle calls throws).Sound (exec throws) (Returned calls throws) (Raised calls throws)
      sys := by
  rcases h with ⟨devices, users, clock, hrun⟩
  exact (boot_sound devices users clock).run (fun _ _ => Returned.stable)
    (fun _ _ => Raised.stable) hrun

/-- The invariant holds of every reachable system. -/
theorem Reachable.inv {sys : Calls} (h : Reachable calls throws sys) :
    Inv calls throws sys.shared := h.sound.inv

/-- How a call that is over has ended. -/
theorem Reachable.returned {sys : Calls} (h : Reachable calls throws sys) {r : Response}
    (hc : sys.threads c = .ret r) : Returned calls throws c r sys.shared := by
  have hsafe := h.sound.safe c
  rw [hc] at hsafe
  exact hsafe

/-- How a call that has failed has ended. -/
theorem Reachable.raised {sys : Calls} (h : Reachable calls throws sys) {e : HttpException}
    (hc : sys.threads c = .throw e) : Raised calls throws c e sys.shared := by
  have hsafe := h.sound.safe c
  rw [hc] at hsafe
  exact hsafe

/-- What more the method of a call is known to end in holds of the call. -/
theorem Reachable.ends {sys : Calls} (h : Reachable calls throws sys)
    {G : Response → World → Prop} {B : HttpException → World → Prop}
    (hG : ∀ r, (lifecycle calls throws).Persistent (G r))
    (hB : ∀ e, (lifecycle calls throws).Persistent (B e))
    (hbody : ∀ before w₁, Inv calls throws w₁ →
      (lifecycle calls throws).Triple (exec throws) c (Begun c before w₁) (calls c).body
        (fun r w => Done calls throws c before r w ∧ G r w)
        (fun e w => Thrown calls throws c before e w ∧ B e w)) :
    (∀ r, sys.threads c = .ret r → G r sys.shared) ∧
      ∀ e, sys.threads c = .throw e → B e sys.shared := by
  -- The one call ends in more, the others as always.
  have hsound : (lifecycle calls throws).Sound (exec throws)
      (fun d r w => Returned calls throws d r w ∧ (d = c → G r w))
      (fun d e w => Raised calls throws d e w ∧ (d = c → B e w)) sys := by
    rcases h with ⟨devices, users, clock, hrun⟩
    refine Rules.Sound.run (fun d r => Returned.stable.and ?_) (fun d e => Raised.stable.and ?_)
      (.start (init_inv devices users clock) (fun d w hr hi => ?_)) hrun
    · exact fun u w w' _ hi hi' hg hk hd => hG r u w w' hi hi' hg (hk hd)
    · exact fun u w w' _ hi hi' hg hk hd => hB e u w w' hi hi' hg (hk hd)
    · have hat := (hr.keeps At.stable (init_inv devices users clock)
        (init_at devices users clock)).1
      by_cases hd : d = c
      · subst hd
        exact (handle_ends hG hB hbody w hi hat).conseq hi (fun _ _ _ h => ⟨h.1, fun _ => h.2⟩)
          (fun _ _ _ h => ⟨h.1, fun _ => h.2⟩)
      · exact (handle_spec w hi hat).conseq hi (fun _ _ _ h => ⟨h, fun hc => absurd hc hd⟩)
          (fun _ _ _ h => ⟨h, fun hc => absurd hc hd⟩)
  constructor
  · intro r hr
    have hsafe := hsound.safe c
    rw [hr] at hsafe
    exact hsafe.2 rfl
  · intro e he
    have hsafe := hsound.safe c
    rw [he] at hsafe
    exact hsafe.2 rfl

/-! ## Schedules -/

/-- A schedule that can be followed reaches its end. -/
theorem reachable_of_follow {devices : Uuid → Device} {users : Uuid → User} {clock : Timestamp}
    {ls : List (CallId × Env)} {p : Calls → Bool}
    (h : ((follow (exec throws) (boot calls devices users clock) ls).any p) = true) :
    ∃ sys, Reachable calls throws sys ∧ p sys = true := by
  rw [Option.any_eq_true] at h
  rcases h with ⟨sys, hsys, hp⟩
  exact ⟨sys, ⟨devices, users, clock, run_of_follow ls _ sys hsys⟩, hp⟩

/-- A device. -/
def tablet : Device :=
  { id := 1, publicId := "482913756", name := none, manufacturer := none, model := none
    androidVersion := none, appVersion := none, isActive := true }

/-- A technician. -/
def agent : User := { id := 2, fullName := "Ana" }

/-- A request for help, taken, accepted, and turned into a session that is
    used and closed; and a cancellation that comes too late. -/
def assistance : CallId → Operation
  | 0 => .createForDevice tablet
  | 1 => .assign 10 agent
  | 2 => .acceptByDevice 10 tablet
  | 3 => .create 10 agent
  | 4 => .activateByTechnician 20 agent
  | 5 => .closeByTechnician 20 agent
  | _ => .cancelByDevice 10 tablet

/-- Nothing throws. -/
def quiet : CallId → Emitter → Bool := fun _ _ => false

/-- A call takes `n` turns in a row, with everybody online. -/
def turns (c : CallId) (n : Nat) (newId : Uuid) : List (CallId × Env) :=
  List.replicate n (c, { tick := 1, online := fun _ => true, newId, createdAt := 0 })

/-- The calls up to the opening of the session. -/
def opening : List (CallId × Env) := turns 0 3 10 ++ turns 1 7 0 ++ turns 2 7 0 ++ turns 3 13 20

/-- The two tables agree in every reachable state, whatever the interleaving of
    the calls that led there. All four parts are read off the consistency of the
    rows, which the invariant keeps. -/
theorem cross_table_consistency {sys : Calls} (h : Reachable calls throws sys) :
    (∀ k s, sys.shared.tables.sessions k = some s → s.status ≠ .closed →
      ∃ r, sys.shared.tables.requests s.supportRequestId = some r ∧ r.status = .accepted) ∧
    (∀ k r, sys.shared.tables.requests k = some r → (r.status = .completed ↔
      ∃ j s, sys.shared.tables.sessions j = some s ∧ s.supportRequestId = k ∧
        s.status = .closed)) ∧
    (∀ k r, sys.shared.tables.requests k = some r →
      r.status ∈ [.waiting, .assigned, .rejected, .cancelled] →
      ∀ j s, sys.shared.tables.sessions j = some s → s.supportRequestId ≠ k) ∧
    (∀ k s, sys.shared.tables.sessions k = some s →
      ∃ r, sys.shared.tables.requests s.supportRequestId = some r ∧
        s.deviceId = r.deviceId ∧ some s.technicianId = r.technicianId) := by
  have hc := h.inv.consistent
  refine ⟨fun k s hs hl => ?_, fun k r hr => ⟨hc.completed k r hr, ?_⟩, fun k r hr hst => ?_,
    fun k s hs => ?_⟩
  · rcases hc.owned k s hs with ⟨r, hr, _, _, hst⟩
    rw [if_pos (isLive_iff.mpr hl)] at hst
    exact ⟨r, hr, hst⟩
  -- A closed session has a completed request, since it is not live.
  · rintro ⟨j, s, hs, rfl, hclosed⟩
    rcases hc.owned j s hs with ⟨r', hr', _, _, hst⟩
    rw [hr, Option.some.injEq] at hr'
    subst hr'
    rw [if_neg (fun hl => isLive_iff.mp hl hclosed)] at hst
    exact hst
  · refine fun j s hs => hc.no_session hr (fun hac => ?_) (fun hco => ?_) hs
    · rw [hac] at hst
      simp only [List.mem_cons, reduceCtorEq, List.not_mem_nil, or_self] at hst
    · rw [hco] at hst
      simp only [List.mem_cons, reduceCtorEq, List.not_mem_nil, or_self] at hst
  · rcases hc.owned k s hs with ⟨r, hr, hd, hu, _⟩
    exact ⟨r, hr, hd.symm, hu.symm⟩

/-- The session just opened belongs to an accepted request. -/
theorem cross_table_consistency_opening : ∃ sys, Reachable assistance quiet sys ∧
    ∃ r, sys.shared.tables.requests 10 = some r ∧ r.status = .accepted := by
  have hrun : ((follow (exec quiet) (boot assistance (fun _ => tablet) (fun _ => agent) 0)
      opening).any (fun sys => (sys.shared.tables.sessions 20).any
        (fun s => decide (s.status = .connecting ∧ s.supportRequestId = 10)))) = true := by
    decide +kernel
  rcases reachable_of_follow hrun with ⟨sys, hsys, hp⟩
  rw [Option.any_eq_true] at hp
  rcases hp with ⟨s, hs, hst⟩
  rw [decide_eq_true_eq] at hst
  rcases (cross_table_consistency hsys).1 20 s hs (by rw [hst.1]; decide) with ⟨r, hr, hacc⟩
  rw [hst.2] at hr
  exact ⟨sys, hsys, r, hr, hacc⟩

end RemoteControl
