import RemoteControl.Theory.Runs

/-!
# Rows Only Move Forward

What happens to a row over a run. One commit leaves a row alone, moves it
along one arrow of its lifecycle, or creates it in the first status; so a run
takes a row along a path of such moves, and a row that appears during a run
has come along a path from the first status. A move never changes a filled
column, and the columns that are filled are at every moment those the status
calls for.

The commits of a run are found in its history, so the statement about single
commits is one about the entries of the history (`Inv.commit`).

A path of moves is the reflexive and transitive closure of the arrows, from
Mathlib, so that runs compose as the paths do (`Evolves.trans`), and a
property that each arrow has is a property of every path.

## Main definitions

* `Evolves`: What a run does to the rows.

## Theorems

* `Inv.commit`: The commits in a history.
* `Inv.since_induction`: Induction over what has happened since a moment.
* `Explains.evolves`, `Reachable.evolves`: One commit, and a run.
* `lifecycle_monotone`: The lifecycle of every row.
* `Explains.new_request`, `Explains.new_session`: A new row begins at the
  first status.
* `Inv.grows_between`, `Inv.grows_since`: Rows only grow, along the history.
* `Explains.written`, `Inv.written`: What a commit writes is committed then.
-/

namespace RemoteControl

open Concurrency Machine

variable {calls : CallId → Operation} {throws : CallId → Emitter → Bool} {c : CallId}

/-! ## The commits in a history -/

/-- An entry was in order, and what came before it is a history. -/
theorem History.split {l₁ l₂ : List Entry} {e : Entry}
    (h : History calls throws (l₁ ++ e :: l₂)) :
    EntryOk calls throws l₂ e ∧ History calls throws l₂ := by
  induction l₁ with
  | nil => exact h
  | cons a l ih => exact ih h.2

/-- Every commit of a history was explained by the rows before it. -/
theorem Inv.commit {w : World} (h : Inv calls throws w) {e : Entry} {l : List Entry} {ws : Writes}
    (hs : e :: l <:+ w.log) (he : e.event = .committed ws) :
    Consistent (replay l) ∧ MayCommit (calls e.call) l (progress e.call l) e.time ws := by
  rcases hs with ⟨l₁, hlog⟩
  have hhist := h.history
  rw [← hlog] at hhist
  have hok := hhist.split.1.event
  simp only [he] at hok
  refine ⟨h.past l ⟨l₁ ++ [e], ?_⟩, hok⟩
  rw [← hlog, List.append_assoc, List.singleton_append]

/-- The rows a commit was explained by are those that stood before it. -/
theorem Inv.explained {w : World} (h : Inv calls throws w) {e : Entry} {l : List Entry}
    {ws : Writes} (hs : e :: l <:+ w.log) (he : e.event = .committed ws) :
    Consistent (replay l) ∧ ∃ t, Explains (replay l) t (calls e.call) ws := by
  rcases h.commit hs he with ⟨hcons, _, _, _, _, t, _, _, _, hx⟩
  exact ⟨hcons, t, hx⟩

/-- An entry that commits nothing leaves the rows. -/
theorem replay_note {l : List Entry} {e : Entry} (h : ∀ ws, e.event ≠ .committed ws) :
    replay (e :: l) = replay l := by
  cases he : e.event with
  | committed ws => exact absurd he (h ws)
  | _ => simp only [replay, he]

/-- Induction over what has happened since a moment of the past: an entry that
    commits nothing leaves the rows alone, and one that commits is explained
    by them. -/
theorem Inv.since_induction {w : World} (h : Inv calls throws w) {P : List Entry → Prop}
    {l : List Entry} (hstart : P l)
    (hnote : ∀ e l', l <:+ l' → e :: l' <:+ w.log → replay (e :: l') = replay l' → P l' →
      P (e :: l'))
    (hcommit : ∀ e l' ws t, l <:+ l' → e :: l' <:+ w.log → e.event = .committed ws →
      replay (e :: l') = (replay l').apply ws → Consistent (replay l') →
      Explains (replay l') t (calls e.call) ws → P l' → P (e :: l'))
    {l' : List Entry} (hl : l <:+ l') (hl' : l' <:+ w.log) : P l' := by
  induction l' with
  | nil =>
      rw [List.suffix_nil] at hl
      rw [← hl]
      exact hstart
  | cons e l' ih =>
      rw [List.suffix_cons_iff] at hl
      rcases hl with rfl | hl
      · exact hstart
      · have hrest := ih hl ((List.suffix_cons e l').trans hl')
        cases he : e.event with
        | committed ws =>
            rcases h.explained hl' he with ⟨hcons, t, hx⟩
            refine hcommit e l' ws t hl hl' he ?_ hcons hx hrest
            simp only [replay, he]
        | _ =>
            refine hnote e l' hl hl' (replay_note (fun ws hc => ?_)) hrest
            rw [he] at hc
            simp only [reduceCtorEq] at hc

/-- Induction over the whole past of a state. -/
theorem Inv.past_induction {w : World} (h : Inv calls throws w) {P : List Entry → Prop}
    (hnil : P [])
    (hnote : ∀ e l, e :: l <:+ w.log → replay (e :: l) = replay l → P l → P (e :: l))
    (hcommit : ∀ e l ws t, e :: l <:+ w.log → e.event = .committed ws →
      replay (e :: l) = (replay l).apply ws → Consistent (replay l) →
      Explains (replay l) t (calls e.call) ws → P l → P (e :: l))
    {l : List Entry} (hl : l <:+ w.log) : P l :=
  h.since_induction hnil (fun e l _ => hnote e l) (fun e l ws t _ => hcommit e l ws t)
    List.nil_suffix hl

/-! ## New rows -/

/-- A request that a commit adds is waiting: the other commits write over a row
    that is there. -/
theorem Explains.new_request {T : Tables} {t : Timestamp} {op : Operation} {ws : Writes}
    (hx : Explains T t op ws) : ∀ w ∈ ws.requests, w.old = none → w.new.status = .waiting := by
  have hupdate : ∀ {k : Uuid} {r row : SupportRequest}, T.requests k = some r →
      ∀ w ∈ (requestWrites T.requests k row).requests, w.old = none →
        w.new.status = .waiting := by
    intro k r row hr w hw hold
    rw [requestWrites, List.mem_singleton] at hw
    subst hw
    simp only [hr, reduceCtorEq] at hold
  cases hx with
  | created device id createdAt hactive hfresh hfree =>
      intro w hw _
      rw [requestWrites, List.mem_singleton] at hw
      subst hw
      rfl
  | assigned id technician r hr hs => exact hupdate hr
  | accepted id device r hr hd hs => exact hupdate hr
  | rejected id device r hr hd hs => exact hupdate hr
  | cancelled id device r hr hd hs hnone ht => exact hupdate hr
  | opened id user r sid createdAt hr hu hs hfresh hfree =>
      intro w hw
      simp only [sessionWrites, List.not_mem_nil] at hw
  | activated id user s hs hu hst =>
      intro w hw
      simp only [sessionWrites, List.not_mem_nil] at hw
  | repeated id user s hs hu hst =>
      intro w hw
      simp only [List.not_mem_nil] at hw
  | closedByTechnician id user s r hs hu hl hr hst ht => exact hupdate hr
  | closedByDevice id device s r hs hd hl hr hst ht => exact hupdate hr

/-- A session that a commit adds is connecting. -/
theorem Explains.new_session {T : Tables} {t : Timestamp} {op : Operation} {ws : Writes}
    (hx : Explains T t op ws) :
    ∀ w ∈ ws.sessions, w.old = none → w.new.status = .connecting := by
  have hupdate : ∀ {k : Uuid} {s row : RemoteSession}, T.sessions k = some s →
      ∀ w ∈ (sessionWrites T.sessions k row).sessions, w.old = none →
        w.new.status = .connecting := by
    intro k s row hs w hw hold
    rw [sessionWrites, List.mem_singleton] at hw
    subst hw
    simp only [hs, reduceCtorEq] at hold
  cases hx with
  | opened id user r sid createdAt hr hu hs hfresh hfree =>
      intro w hw _
      rw [sessionWrites, List.mem_singleton] at hw
      subst hw
      rfl
  | activated id user s hs hu hst => exact hupdate hs
  | closedByTechnician id user s r hs hu hl hr hst ht => exact hupdate hs
  | closedByDevice id device s r hs hd hl hr hst ht => exact hupdate hs
  | _ =>
      intro w hw
      simp only [requestWrites, List.not_mem_nil] at hw

/-! ## Paths -/

/-- Rows stay and move along their lifecycle; the rows that are new have come
    along it from its beginning. -/
structure Evolves (T T' : Tables) : Prop where
  requests : ∀ k r, T.requests k = some r →
    ∃ r', T'.requests k = some r' ∧ Relation.ReflTransGen RequestMove r r'
  sessions : ∀ k s, T.sessions k = some s →
    ∃ s', T'.sessions k = some s' ∧ Relation.ReflTransGen SessionMove s s'
  newRequests : ∀ k r', T'.requests k = some r' → T.requests k = none →
    ∃ r, r.status = .waiting ∧ Relation.ReflTransGen RequestMove r r'
  newSessions : ∀ k s', T'.sessions k = some s' → T.sessions k = none →
    ∃ s, s.status = .connecting ∧ Relation.ReflTransGen SessionMove s s'

/-- Nothing has to happen. -/
theorem Evolves.refl (T : Tables) : Evolves T T where
  requests := fun _ r h => ⟨r, h, .refl⟩
  sessions := fun _ s h => ⟨s, h, .refl⟩
  newRequests := fun _ _ h hn => by
    rw [h] at hn
    simp only [reduceCtorEq] at hn
  newSessions := fun _ _ h hn => by
    rw [h] at hn
    simp only [reduceCtorEq] at hn

/-- What happens first and then goes on. -/
theorem Evolves.trans {T₁ T₂ T₃ : Tables} (h : Evolves T₁ T₂) (h' : Evolves T₂ T₃) :
    Evolves T₁ T₃ where
  requests := by
    intro k r hr
    rcases h.requests k r hr with ⟨r₂, hr₂, hp⟩
    rcases h'.requests k r₂ hr₂ with ⟨r₃, hr₃, hp'⟩
    exact ⟨r₃, hr₃, hp.trans hp'⟩
  sessions := by
    intro k s hs
    rcases h.sessions k s hs with ⟨s₂, hs₂, hp⟩
    rcases h'.sessions k s₂ hs₂ with ⟨s₃, hs₃, hp'⟩
    exact ⟨s₃, hs₃, hp.trans hp'⟩
  newRequests := by
    intro k r₃ hr₃ hn
    -- The row came in the second part, or in the first and went on in the second.
    cases hr₂ : T₂.requests k with
    | none => exact h'.newRequests k r₃ hr₃ hr₂
    | some r₂ =>
        rcases h.newRequests k r₂ hr₂ hn with ⟨r₀, hr₀, hp⟩
        rcases h'.requests k r₂ hr₂ with ⟨r, hr, hp'⟩
        rw [hr₃, Option.some.injEq] at hr
        subst hr
        exact ⟨r₀, hr₀, hp.trans hp'⟩
  newSessions := by
    intro k s₃ hs₃ hn
    cases hs₂ : T₂.sessions k with
    | none => exact h'.newSessions k s₃ hs₃ hs₂
    | some s₂ =>
        rcases h.newSessions k s₂ hs₂ hn with ⟨s₀, hs₀, hp⟩
        rcases h'.sessions k s₂ hs₂ with ⟨s, hs, hp'⟩
        rw [hs₃, Option.some.injEq] at hs
        subst hs
        exact ⟨s₀, hs₀, hp.trans hp'⟩

/-- One commit takes every row at most one move on. -/
theorem Explains.evolves {T : Tables} {t : Timestamp} {op : Operation} {ws : Writes}
    (hx : Explains T t op ws) (h : Consistent T) : Evolves T (T.apply ws) where
  requests := by
    intro k r hr
    rcases hx.request_after h hr with ⟨r', hr', rfl | hm⟩
    · exact ⟨r', hr', .refl⟩
    · exact ⟨r', hr', .single hm⟩
  sessions := by
    intro k s hs
    rcases hx.session_after h hs with ⟨s', hs', rfl | hm⟩
    · exact ⟨s', hs', .refl⟩
    · exact ⟨s', hs', .single hm⟩
  newRequests := by
    intro k r' hr' hn
    -- The commit has written this row, and there was none before.
    rcases applyWrites_cases ws.requests T.requests k with heq | ⟨w, hw, hk, heq⟩
    · rw [apply_requests, heq, hn] at hr'
      simp only [reduceCtorEq] at hr'
    · rw [apply_requests, heq, Option.some.injEq] at hr'
      subst hr'
      have hold := (hx.requestMove h w hw).1
      rw [hk, hn] at hold
      exact ⟨w.new, hx.new_request w hw hold, .refl⟩
  newSessions := by
    intro k s' hs' hn
    rcases applyWrites_cases ws.sessions T.sessions k with heq | ⟨w, hw, hk, heq⟩
    · rw [apply_sessions, heq, hn] at hs'
      simp only [reduceCtorEq] at hs'
    · rw [apply_sessions, heq, Option.some.injEq] at hs'
      subst hs'
      have hold := (hx.sessionMove h w hw).1
      rw [hk, hn] at hold
      exact ⟨w.new, hx.new_session w hw hold, .refl⟩

/-- A step of the system commits nothing, or one commit that is explained. -/
theorem Guar.evolves {w w' : World} (h : Inv calls throws w) (h' : Inv calls throws w')
    (hg : Guar c w w') : Evolves w.tables w'.tables := by
  rcases hg.tables h h' with heq | ⟨t, ws, hx, heq, _⟩
  · rw [heq]
    exact .refl _
  · rw [heq]
    exact hx.evolves h.consistent

/-- From one part of the history to a longer one, the rows only grow. -/
theorem Inv.grows_between {w : World} (h : Inv calls throws w) {l l' : List Entry}
    (hl : l <:+ l') (hl' : l' <:+ w.log) : Grows (replay l) (replay l') := by
  refine h.since_induction (P := fun l' => Grows (replay l) (replay l')) (.refl _)
    (fun e l' _ _ hsame hgrows => ?_) (fun e l' ws t _ _ _ hafter hcons hx hgrows => ?_) hl hl'
  · rw [hsame]
    exact hgrows
  · rw [hafter]
    exact hgrows.trans (hx.grows hcons)

/-- The rows of an earlier part of the history have only grown since. -/
theorem Inv.grows_since {w : World} (h : Inv calls throws w) {l : List Entry}
    (hl : l <:+ w.log) : Grows (replay l) w.tables := by
  rw [h.tables]
  exact h.grows_between hl List.suffix_rfl

/-- What a commit writes is what is then committed. -/
theorem Explains.written {T : Tables} {t : Timestamp} {op : Operation} {ws : Writes}
    (hx : Explains T t op ws) :
    (∀ w ∈ ws.requests, (T.apply ws).requests w.key = some w.new) ∧
    (∀ w ∈ ws.sessions, (T.apply ws).sessions w.key = some w.new) := by
  -- With one write at most there is no other to go over it.
  have hone : ∀ {V : Type} {ws : List (Write Uuid V)} {f : Uuid → Option V},
      ws.length ≤ 1 → ∀ w ∈ ws, applyWrites ws f w.key = some w.new := by
    intro V ws f hlen w hw
    match ws, hlen, hw with
    | [w'], _, hw =>
        rw [List.mem_singleton] at hw
        rw [hw, applyWrites_single, if_pos rfl]
  have hlen : ws.requests.length ≤ 1 ∧ ws.sessions.length ≤ 1 := by
    cases hx <;> simp only [requestWrites, sessionWrites, closureWrites, List.length_cons,
      List.length_nil, Nat.zero_add, Nat.le_refl, Nat.zero_le, and_self]
  exact ⟨hone hlen.1, hone hlen.2⟩

/-- What a commit of the history has written was committed right after it. -/
theorem Inv.written {w : World} (h : Inv calls throws w) {e : Entry} {l : List Entry}
    {ws : Writes} (hs : e :: l <:+ w.log) (he : e.event = .committed ws) :
    (∀ x ∈ ws.requests, (replay (e :: l)).requests x.key = some x.new) ∧
    ∀ x ∈ ws.sessions, (replay (e :: l)).sessions x.key = some x.new := by
  rcases h.explained hs he with ⟨_, t, hx⟩
  simp only [replay, he]
  exact hx.written

/-- A path of moves keeps the columns that are fixed. -/
theorem keeps_of_requestMoves {r r' : SupportRequest}
    (h : Relation.ReflTransGen RequestMove r r') : RequestKeeps r r' := by
  induction h with
  | refl => exact .refl r
  | tail _ hm ih => exact ih.trans hm.toRequestKeeps

/-- Likewise for the sessions. -/
theorem keeps_of_sessionMoves {s s' : RemoteSession}
    (h : Relation.ReflTransGen SessionMove s s') : SessionKeeps s s' := by
  induction h with
  | refl => exact .refl s
  | tail _ hm ih => exact ih.trans hm.toSessionKeeps

/-! ## Runs -/

section Runs

variable {ok : Calls → CallId → Env → Prop} {a b : Calls}

/-- A system that can be reached, and goes on, is reached. -/
theorem Reachable.run (ha : Reachable calls throws a) (h : Run (exec throws) ok a b) :
    Reachable calls throws b := by
  rcases ha with ⟨devices, users, clock, hrun⟩
  exact ⟨devices, users, clock, hrun.trans (h.mono (fun _ _ _ _ => trivial))⟩

/-- A run takes every row along its lifecycle. -/
theorem Reachable.evolves (ha : Reachable calls throws a) (h : Run (exec throws) ok a b) :
    Evolves a.shared.tables b.shared.tables :=
  ha.sound.relates (fun _ _ => Returned.stable) (fun _ _ => Raised.stable)
    (fun w w' => Evolves w.tables w'.tables) (fun w => .refl w.tables)
    (fun _ _ _ h h' => h.trans h') (fun _ _ _ hi hi' hg => hg.evolves hi hi') h

/-- The lifecycle of every row, over every run. A row that is there stays and
    follows the arrows of its status; a row that is new began at the first
    status; the filled columns are those the status calls for, and keep their
    values. Commit by commit, a written row is new or one arrow on. -/
theorem lifecycle_monotone (ha : Reachable calls throws a) (h : Run (exec throws) ok a b) :
    (∀ k r, a.shared.tables.requests k = some r → ∃ r',
      b.shared.tables.requests k = some r' ∧ RequestKeeps r r' ∧
        Relation.ReflTransGen RequestMove r r') ∧
    (∀ k s, a.shared.tables.sessions k = some s → ∃ s',
      b.shared.tables.sessions k = some s' ∧ SessionKeeps s s' ∧
        Relation.ReflTransGen SessionMove s s') ∧
    (∀ k r, b.shared.tables.requests k = some r → r.WellFormed ∧
      (a.shared.tables.requests k = none →
        ∃ r₀, r₀.status = .waiting ∧ Relation.ReflTransGen RequestMove r₀ r)) ∧
    (∀ k s, b.shared.tables.sessions k = some s → s.WellFormed ∧
      (a.shared.tables.sessions k = none →
        ∃ s₀, s₀.status = .connecting ∧ Relation.ReflTransGen SessionMove s₀ s)) ∧
    (∀ l₁ e l₂ ws, b.shared.log = l₁ ++ e :: l₂ → e.event = .committed ws →
      (∀ w ∈ ws.requests, w.old = (replay l₂).requests w.key ∧
        (w.old = none → w.new.status = .waiting) ∧ ∀ r, w.old = some r → RequestMove r w.new) ∧
      (∀ w ∈ ws.sessions, w.old = (replay l₂).sessions w.key ∧
        (w.old = none → w.new.status = .connecting) ∧
        ∀ s, w.old = some s → SessionMove s w.new)) := by
  have hev := ha.evolves h
  have hb := (ha.run h).inv
  refine ⟨fun k r hr => ?_, fun k s hs => ?_, fun k r hr => ?_, fun k s hs => ?_,
    fun l₁ e l₂ ws hlog he => ?_⟩
  · -- A request that was there.
    rcases hev.requests k r hr with ⟨r', hr', hp⟩
    exact ⟨r', hr', keeps_of_requestMoves hp, hp⟩
  · -- A session that was there.
    rcases hev.sessions k s hs with ⟨s', hs', hp⟩
    exact ⟨s', hs', keeps_of_sessionMoves hp, hp⟩
  · exact ⟨hb.consistent.requestWellFormed k r hr, hev.newRequests k r hr⟩
  · exact ⟨hb.consistent.sessionWellFormed k s hs, hev.newSessions k s hs⟩
  · -- A commit of the history, and the rows before it.
    rcases hb.explained ⟨l₁, hlog.symm⟩ he with ⟨hc, t, hx⟩
    refine ⟨fun w hw => ?_, fun w hw => ?_⟩
    · rcases hx.requestMove hc w hw with ⟨hold, hm⟩
      exact ⟨hold, hx.new_request w hw, hm⟩
    · rcases hx.sessionMove hc w hw with ⟨hold, hm⟩
      exact ⟨hold, hx.new_session w hw, hm⟩

end Runs

/-- From the opening of the session to its closure: the request is completed
    with everything it had, and the session has come along its arrows. -/
theorem lifecycle_monotone_closing : ∃ a b, Reachable assistance quiet a ∧
    Run (exec quiet) anyTurn a b ∧ ∃ r r', a.shared.tables.requests 10 = some r ∧
      b.shared.tables.requests 10 = some r' ∧ r.status = .accepted ∧ r'.status = .completed ∧
      RequestKeeps r r' := by
  have hrun : ((follow (exec quiet) (boot assistance (fun _ => tablet) (fun _ => agent) 0)
      opening).any (fun a => (a.shared.tables.requests 10).any
        (fun r => decide (r.status = .accepted)) &&
        (follow (exec quiet) a (turns 4 11 0 ++ turns 5 11 0)).any (fun b =>
          (b.shared.tables.requests 10).any (fun r => decide (r.status = .completed))))) =
      true := by
    decide +kernel
  rcases reachable_of_follow hrun with ⟨a, ha, hp⟩
  rw [Bool.and_eq_true, Option.any_eq_true, Option.any_eq_true] at hp
  rcases hp with ⟨⟨r, hr, hst⟩, b, hb, hst'⟩
  rw [Option.any_eq_true] at hst'
  rcases hst' with ⟨r', hr', hst'⟩
  have hab := run_of_follow _ a b hb
  rcases (lifecycle_monotone ha hab).1 10 r hr with ⟨r'', hr'', hkeep, _⟩
  rw [hr', Option.some.injEq] at hr''
  subst hr''
  exact ⟨a, b, ha, hab, r, r', hr, hr', of_decide_eq_true hst, of_decide_eq_true hst', hkeep⟩

end RemoteControl
