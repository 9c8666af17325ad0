import RemoteControl.Theory.OwnTraces

/-!
# The Traces of Activations and Closures

What an activation or a closure does, read off its own entries. It reads the
clock once, it reads the session without a lock once at most, and the times it
writes are what the clock said. When a closure returns, it answers with the
row it has read, in which the columns of the closure are filled in.

None of this depends on what the other calls do. What the row has become
meanwhile does, and is not said here.

The trace of a call is kept as the list of what it has read (`Reads`): the
entries at which it found the session, and those at which it was told the
time. Every operation either adds to one of the two or leaves both as they are
(`Reads.other`), and most programs consist of the second kind alone
(`plain_along`). So a program is followed by saying where it reads, and the
order that the source keeps, session before clock and clock before write, is
the order in which the two lists fill.

## Main definitions

* `Op.isNow`, `Op.isFind`, `readings`: The entries at which something is read.
* `InOrder`: What an activation or a closure may do next.
* `AnswersWithRead`: The answer of a closure.

## Theorems

* `close_along`: The closure, whoever asks for it.
* `handle_along`: The calls that change a session.
* `Reachable.changes_traced`: So they do in every run.
-/

namespace RemoteControl

open Concurrency

variable {calls : CallId → Operation} {throws : CallId → Emitter → Bool} {c : CallId}

/-! ## Readings -/

/-- The clock is read. -/
def Op.isNow : Op → Bool
  | .now => true
  | _ => false

/-- The session is read, without a lock. -/
def Op.isFind : Op → Bool
  | .findSession _ _ => true
  | _ => false

/-- The entry says that such an operation has run. -/
def Event.hasRun (P : Op → Bool) : Event → Bool
  | .ran o => P o
  | _ => false

/-- The marks of such operations. -/
def readings (P : Op → Bool) (tr : List (List Entry)) : List (List Entry) :=
  tr.filter (fun m => m.head?.any (fun e => e.event.hasRun P))

/-- A mark is a reading exactly if its newest entry says so. -/
theorem mem_readings {P : Op → Bool} {tr : List (List Entry)} {m : List Entry} :
    m ∈ readings P tr ↔ m ∈ tr ∧ ∃ e l o, m = e :: l ∧ e.event = .ran o ∧ P o = true := by
  rw [readings, List.mem_filter]
  refine and_congr_right (fun _ => ⟨fun h => ?_, ?_⟩)
  · rw [Option.any_eq_true] at h
    rcases h with ⟨e, he, hrun⟩
    cases m with
    | nil => simp only [List.head?_nil, reduceCtorEq] at he
    | cons e' l =>
        rw [List.head?_cons, Option.some.injEq] at he
        subst he
        cases hev : e'.event with
        | ran o =>
            rw [hev] at hrun
            exact ⟨e', l, o, rfl, hev, hrun⟩
        | _ =>
            rw [hev] at hrun
            simp only [Event.hasRun, Bool.false_eq_true] at hrun
  · rintro ⟨e, l, o, rfl, he, hP⟩
    rw [List.head?_cons, Option.any_some, he]
    exact hP

/-- What an operation leaves is an entry of its call, on top of the history that
    its state was recorded in. If the entry says which operation has run, it is
    this one. -/
theorem Leaves.entry {o : Op} {r : Resp o} {m : List Entry} (h : Leaves throws c o r m) :
    ∃ e l, m = e :: l ∧ e.call = c ∧ ∀ o', e.event = .ran o' → o' = o := by
  rcases h with ⟨env, w, w', _, hx, rfl⟩
  rcases exec_records hx with ⟨ev, hrec⟩
  exact ⟨_, _, hrec.log, rfl, hrec.ran⟩

/-- Another operation adds no reading. -/
theorem readings_other {P : Op → Bool} {o : Op} {r : Resp o} {m : List Entry}
    {tr : List (List Entry)} (h : Leaves throws c o r m) (ho : P o = false) :
    readings P (m :: tr) = readings P tr := by
  rcases h.entry with ⟨e, l, rfl, _, hran⟩
  rw [readings, List.filter_cons_of_neg]
  · rfl
  · rw [List.head?_cons, Option.any_some]
    -- The entry may have another form; if it names an operation, it names this one.
    cases hev : e.event with
    | ran o' =>
        rw [hran o' hev, Event.hasRun, ho]
        exact Bool.false_ne_true
    | _ => exact Bool.false_ne_true

/-- The clock is read. -/
theorem Leaves.now {t : Timestamp} {m : List Entry} (h : Leaves throws c .now t m) :
    ∃ l, m = ⟨c, t, .ran .now⟩ :: l := by
  rcases h with ⟨env, w, w', _, hx, rfl⟩
  cases hx
  exact ⟨w.log, rfl⟩

/-- A session is read: the row is the one the history leads to. -/
theorem Leaves.findSession {id : Uuid} {owner : Owner} {found : Option LoadedRemoteSession}
    {m : List Entry} (h : Leaves throws c (.findSession id owner) found m) :
    ∃ e l, m = e :: l ∧ e.call = c ∧ e.event = .ran (.findSession id owner) ∧
      ∀ s, found = some s → (replay l).sessions id = some s.toRemoteSession := by
  rcases h with ⟨env, w, w', hw, hx, rfl⟩
  cases hx
  refine ⟨_, w.log, rfl, rfl, rfl, fun s hs => ?_⟩
  rcases Option.map_eq_some_iff.mp hs with ⟨row, hrow, rfl⟩
  have hview := (Table.select_eq_some.mp hrow).1
  rw [Table.auto_view] at hview
  rw [← hw.tables]
  exact hview

/-- What the call has read so far: the session, and the clock. -/
structure Reads (found told : List (List Entry)) (tr : List (List Entry)) : Prop where
  found : readings Op.isFind tr = found
  told : readings Op.isNow tr = told

/-- An operation that reads neither leaves what was read. -/
theorem Reads.other {found told tr : List (List Entry)} {o : Op} {r : Resp o} {m : List Entry}
    (h : Reads found told tr) (hm : Leaves throws c o r m) (hfind : o.isFind = false)
    (hnow : o.isNow = false) : Reads found told (m :: tr) :=
  ⟨(readings_other hm hfind).trans h.found, (readings_other hm hnow).trans h.told⟩

/-- The clock adds a time. -/
theorem Reads.tell {found told tr : List (List Entry)} {t : Timestamp} {m : List Entry}
    (h : Reads found told tr) (hm : Leaves throws c .now t m) :
    Reads found (m :: told) (m :: tr) := by
  refine ⟨(readings_other hm rfl).trans h.found, ?_⟩
  rcases hm.now with ⟨l, rfl⟩
  rw [← h.told]
  rfl

/-- The read of the session adds the row that it has found. -/
theorem Reads.find {found told tr : List (List Entry)} {id : Uuid} {owner : Owner}
    {r : Option LoadedRemoteSession} {m : List Entry} (h : Reads found told tr)
    (hm : Leaves throws c (.findSession id owner) r m) :
    Reads (m :: found) told (m :: tr) := by
  refine ⟨?_, (readings_other hm rfl).trans h.told⟩
  rcases hm.findSession with ⟨e, l, rfl, _, he, _⟩
  rw [← h.found]
  simp only [readings, List.filter_cons, List.head?_cons, Option.any_some, he]
  rfl

/-! ## What may come next -/

/-- What an activation or a closure at this time writes to its session. -/
def RemoteSessionChanges.At (changes : RemoteSessionChanges) (t : Timestamp) : Prop :=
  changes = activation t ∨ ∃ endedBy, changes = closure t endedBy

/-- The session is read once, before anything is committed, and so is the clock.
    The session is updated with the time of the clock. Only an update of a session
    is bound to a time; when it is done, one reading of the clock is all there is. -/
def InOrder (tr : List (List Entry)) : Op → Prop
  | .now => readings Op.isNow tr = []
  | .findSession _ _ => readings Op.isFind tr = [] ∧
      ∀ e l ws, e :: l ∈ tr → e.event ≠ .committed ws
  | .updateSession _ _ changes => ∃ e l, readings Op.isNow tr = [e :: l] ∧ changes.At e.time
  | .insertSession _ => False
  | _ => True

/-- The operation reads neither the session nor the clock, nor does it write
    a session. -/
def Op.IsPlain : Op → Prop
  | .now => False
  | .findSession _ _ => False
  | .updateSession _ _ _ => False
  | .insertSession _ => False
  | _ => True

/-- A plain operation reads nothing. -/
theorem Op.IsPlain.reads {o : Op} (h : o.IsPlain) : o.isFind = false ∧ o.isNow = false := by
  cases o <;> first | exact ⟨rfl, rfl⟩ | exact h.elim

/-- A plain operation may stand anywhere. -/
theorem Op.IsPlain.inOrder {o : Op} (h : o.IsPlain) (tr : List (List Entry)) : InOrder tr o := by
  cases o <;> trivial

/-! ## The programs -/

section Programs

variable {α : Type} {found told tr : List (List Entry)}

/-- A program of plain operations is in order, and reads nothing. -/
theorem plain_along {p : Service α} (hp : p.Uses Op.IsPlain) (h : Reads found told tr) :
    p.Along (Leaves throws c) InOrder (fun tr _ => Reads found told tr)
      (fun tr _ => Reads found told tr) tr :=
  .uses hp (fun _ _ _ _ ho hm h => h.other hm ho.reads.1 ho.reads.2)
    (fun _ tr ho _ => ho.inOrder tr) h

/-- A transaction adds its three statements around its body: it begins, and
    commits or rolls back, whatever the body reads. -/
theorem transaction_along {ok : List (List Entry) → Op → Prop} {body : Service α}
    {Q : List (List Entry) → α → Prop} {E : List (List Entry) → HttpException → Prop}
    (hok : ∀ tr, ok tr .begin ∧ ok tr .commit ∧ ok tr .rollback)
    (hbody : ∀ r m, Leaves throws c .begin r m → body.Along (Leaves throws c) ok Q E (m :: tr))
    (hQ : ∀ tr a r m, Q tr a → Leaves throws c .commit r m → Q (m :: tr) a)
    (hE : ∀ tr e r m, E tr e → Leaves throws c .rollback r m → E (m :: tr) e) :
    (transaction body).Along (Leaves throws c) ok Q E tr := by
  -- The body runs after the first of them.
  have hbegin : (statement .begin).Along (Leaves throws c) ok
      (fun tr' _ => ∃ r m, Leaves throws c .begin r m ∧ tr' = m :: tr) E tr :=
    ⟨(hok tr).1, fun r m hm => ⟨r, m, hm, rfl⟩⟩
  refine hbegin.bind (fun tr' _ h => ?_)
  rcases h with ⟨r, m, hm, rfl⟩
  refine .bind (.onError (hbody r m hm) (fun tr e he => ?_)) (fun tr a ha => ?_)
  · exact ⟨(hok tr).2.2, fun r m hm => hE tr e r m he hm⟩
  · exact ⟨(hok tr).2.1, fun r m hm => hQ tr a r m ha hm⟩

/-! ### Closures -/

/-- The body of a closure writes the session with the time that it was given, and
    completes the request only if there was a session to close. -/
theorem closeBoth_along (s : LoadedRemoteSession) (endedBy : RemoteSessionEndedBy) {e : Entry}
    {l : List Entry} (h : Reads found [e :: l] tr) :
    (RemoteSessionsService.closeBoth s e.time endedBy).Along (Leaves throws c) InOrder
      (fun tr _ => Reads found [e :: l] tr) (fun tr _ => Reads found [e :: l] tr) tr := by
  refine ⟨⟨e, l, h.told, .inr ⟨endedBy, rfl⟩⟩, fun closed m hm => ?_⟩
  -- What comes after the update is plain, on either branch.
  refine plain_along ?_ (h.other hm rfl rfl)
  cases closed with
  | false => trivial
  | true =>
      refine ⟨trivial, fun completed => ?_⟩
      cases completed <;> trivial

/-- A closure reads the clock, and fills in the columns of the row it was given.
    The time is read before the transaction begins, so it is not the time of the
    commit. -/
theorem close_along (s : LoadedRemoteSession) (endedBy : RemoteSessionEndedBy)
    (h : Reads found [] tr) :
    (RemoteSessionsService.close s endedBy).Along (Leaves throws c) InOrder
      (fun tr closed => ∃ t m, Reads found [m] tr ∧
        closed = { s with status := .closed, endedAt := some t, endedBy := some endedBy })
      (fun _ _ => True) tr := by
  refine ⟨h.told, fun t m hm => ?_⟩
  have htold := h.tell hm
  rcases hm.now with ⟨l, rfl⟩
  have htransaction : (transaction (RemoteSessionsService.closeBoth s t endedBy)).Along
      (Leaves throws c) InOrder (fun tr _ => Reads found [⟨c, t, .ran .now⟩ :: l] tr)
      (fun tr _ => Reads found [⟨c, t, .ran .now⟩ :: l] tr) ((⟨c, t, .ran .now⟩ :: l) :: tr) :=
    transaction_along (fun _ => ⟨trivial, trivial, trivial⟩)
      (fun _ _ hb => closeBoth_along (e := ⟨c, t, .ran .now⟩) s endedBy
        (htold.other hb rfl rfl)) (fun _ _ _ _ hr hm => hr.other hm rfl rfl)
      (fun _ _ _ _ hr hm => hr.other hm rfl rfl)
  exact (htransaction.conseq (fun _ _ hr => hr) (fun _ _ _ => trivial)).bind
    (fun tr _ hr => ⟨t, _, hr, rfl⟩)

/-- The response shows the row that was read, with the columns of the closure
    filled in. -/
def AnswersWithRead (id : Uuid) (endedBy : RemoteSessionEndedBy) (tr : List (List Entry))
    (dto : RemoteSessionResponseDto) : Prop :=
  ∃ (e : Entry) (l : List Entry) (owner : Owner) (s : LoadedRemoteSession) (t : Timestamp)
    (online : Bool), readings Op.isFind tr = [e :: l] ∧
    e.event = .ran (.findSession id owner) ∧ (replay l).sessions id = some s.toRemoteSession ∧
    dto = RemoteSessionResponseDto.fromEntity
      { s with status := .closed, endedAt := some t, endedBy := some endedBy } online

/-- A closure from either end: it reads the row, closes it, and tells the other
    end. The three parts read one after the other: the row, then the clock, then
    nothing. -/
theorem closing_along (id : Uuid) (owner : Owner) (endedBy : RemoteSessionEndedBy)
    (notify : LoadedRemoteSession → Service Unit) (hnotify : ∀ s, (notify s).Uses Op.IsPlain)
    (h : Reads [] [] tr) (hnew : ∀ e l ws, e :: l ∈ tr → e.event ≠ .committed ws) :
    Prog.Along (Leaves throws c) InOrder (fun tr dto => AnswersWithRead id endedBy tr dto)
      (fun _ _ => True)
      ((RemoteSessionsService.findOwnedOrFail id owner).bind (fun s =>
        (RemoteSessionsService.close s endedBy).bind (fun closed =>
          (notify closed).bind (fun _ => RemoteSessionsService.toResponse closed)))) tr := by
  -- The row: the call goes on only if it has found one.
  refine .bind (Q := fun tr s => ∃ e l, Reads [e :: l] [] tr ∧
    e.event = .ran (.findSession id owner) ∧ (replay l).sessions id = some s.toRemoteSession) ?_
    (fun tr s hs => ?_)
  · refine ⟨⟨h.found, hnew⟩, fun r m hm => ?_⟩
    have hfound := h.find hm
    rcases hm.findSession with ⟨e, l, rfl, _, hran, hrow⟩
    rcases (r : Option LoadedRemoteSession) with _ | s
    · trivial
    · exact ⟨e, l, hfound, hran, hrow s rfl⟩
  rcases hs with ⟨e, l, hreads, hran, hrow⟩
  -- The closure, whose result is the row with three columns filled in.
  refine (close_along s endedBy hreads).bind (fun tr closed hclosed => ?_)
  rcases hclosed with ⟨t, m, hreads', rfl⟩
  -- What is told to the other end reads nothing.
  refine ((plain_along (hnotify _) hreads').conseq (fun _ _ hr => hr)
    (fun _ _ _ => trivial)).bind (fun tr _ hr => ?_)
  refine ⟨trivial, fun online m' hm' => ?_⟩
  exact ⟨e, l, owner, s, t, online, (hr.other hm' rfl rfl).found, hran, hrow, rfl⟩

/-! ### Activations -/

/-- Whatever has been read, a plain program is in order. -/
theorem idle_along {p : Service α} (hp : p.Uses Op.IsPlain) :
    p.Along (Leaves throws c) InOrder (fun _ _ => True) (fun _ _ => True) tr :=
  .uses (K := fun _ => True) hp (fun _ _ _ _ _ _ _ => trivial) (fun _ tr ho _ => ho.inOrder tr)
    trivial

/-- To throw is no operation. -/
theorem throwIf_plain (reason : Bool) (e : HttpException) : (throwIf reason e).Uses Op.IsPlain := by
  cases reason <;> trivial

/-- The device and the technician of a session are read along with it. -/
theorem withRelations_plain (s : RemoteSession) (user : User) :
    (RemoteSessionsService.withRelations s user).Uses Op.IsPlain := ⟨trivial, fun _ => trivial⟩

/-- An activation reads the clock only if it is going to use it. On the branch of
    a session that is active already the clock is not read, and nothing is
    written. -/
theorem activateLocked_along (id : Uuid) (user : User) (h : Reads found [] tr) :
    (RemoteSessionsService.activateLocked id user).Along (Leaves throws c) InOrder
      (fun _ _ => True) (fun _ _ => True) tr := by
  refine .bind (Q := fun tr _ => Reads found [] tr) ?_ (fun tr locked hr => ?_)
  · refine ⟨trivial, fun r m hm => ?_⟩
    have hr := h.other hm rfl rfl
    rcases (r : Option RemoteSession) with _ | s
    · trivial
    · exact hr
  refine ((plain_along (throwIf_plain _ _) hr).conseq (fun _ _ hr => hr)
    (fun _ _ _ => trivial)).bind (fun tr _ hr => ?_)
  -- Activated before, or to be activated now.
  split
  · exact idle_along (.bind (withRelations_plain _ _) (fun _ => trivial))
  · refine ⟨hr.told, fun t m hm => ?_⟩
    have htold := hr.tell hm
    rcases hm.now with ⟨l, rfl⟩
    refine ⟨⟨_, l, htold.told, .inl rfl⟩, fun activated m' hm' => ?_⟩
    exact idle_along (p := (throwIf (!activated) (RemoteSessionsService.alreadyClosed id)).bind _)
      (.bind (throwIf_plain _ _) (fun _ => .bind (withRelations_plain _ _) (fun _ => trivial)))

/-- An emission is plain, whether or not it throws. -/
theorem emit_plain (e : Emission) : (emit e).Uses Op.IsPlain :=
  ⟨trivial, fun threw => throwIf_plain threw _⟩

/-- Errors are logged, which is no operation. -/
theorem logErrors_plain {body : Service Unit} (h : body.Uses Op.IsPlain) :
    (logErrors body).Uses Op.IsPlain := .onError h (fun _ => trivial)

/-- An activation is in order: its one update is in its transaction, and what it
    tells the two ends reads nothing. -/
theorem activate_along (id : Uuid) (user : User) (h : Reads [] [] tr) :
    (RemoteSessionsService.activateByTechnician id user).Along (Leaves throws c) InOrder
      (fun _ _ => True) (fun _ _ => True) tr := by
  have htransaction : (transaction (RemoteSessionsService.activateLocked id user)).Along
      (Leaves throws c) InOrder (fun _ _ => True) (fun _ _ => True) tr :=
    transaction_along (fun _ => ⟨trivial, trivial, trivial⟩)
      (fun _ _ hb => activateLocked_along id user (h.other hb rfl rfl))
      (fun _ _ _ _ _ _ => trivial) (fun _ _ _ _ _ _ => trivial)
  refine htransaction.bind (fun tr result _ => idle_along ?_)
  rcases result with ⟨s, activated⟩
  cases activated with
  | false => exact ⟨trivial, fun _ => trivial⟩
  | true =>
      exact .bind (.bind (logErrors_plain (emit_plain _)) (fun _ => logErrors_plain (emit_plain _)))
        (fun _ => ⟨trivial, fun _ => trivial⟩)

/-! ### Whole calls -/

/-- The calls that change a session. -/
def Operation.ChangesSession : Operation → Prop
  | .activateByTechnician _ _ => True
  | .closeByTechnician _ _ => True
  | .closeByDevice _ _ => True
  | _ => False

/-- The answer of a call that changes a session. -/
def AnswersInOrder (op : Operation) (tr : List (List Entry)) (r : Response) : Prop :=
  match op with
  | .closeByTechnician id _ => ∃ dto, r = .remoteSession dto ∧ AnswersWithRead id .technician tr dto
  | .closeByDevice id _ => ∃ dto, r = .remoteSession dto ∧ AnswersWithRead id .device tr dto
  | _ => True

/-- The calls that change a session are in order, each by what it consists of. -/
theorem body_along {op : Operation} (hop : op.ChangesSession) (h : Reads [] [] tr)
    (hnew : ∀ e l ws, e :: l ∈ tr → e.event ≠ .committed ws) :
    op.body.Along (Leaves throws c) InOrder (AnswersInOrder op) (fun _ _ => True) tr := by
  cases op with
  | activateByTechnician id user =>
      exact (activate_along id user h).bind (fun _ _ _ => trivial)
  | closeByTechnician id user =>
      refine Prog.Along.bind (closing_along id (.technician user.id) .technician
        RemoteSessionsService.notifyDeviceClosed (fun _ => emit_plain _) h hnew)
        (fun tr dto hdto => ⟨dto, rfl, hdto⟩)
  | closeByDevice id device =>
      refine Prog.Along.bind (closing_along id (.device device.id) .device
        RemoteSessionsService.notifyTechnicianClosed (fun _ => logErrors_plain (emit_plain _)) h
        hnew) (fun tr dto hdto => ⟨dto, rfl, hdto⟩)
  | _ => exact hop.elim

/-- To leave adds no reading, so the answer is still that of what was read. -/
theorem AnswersInOrder.leave {op : Operation} {r : Response} {m : List Entry}
    (h : AnswersInOrder op tr r) (hm : Leaves throws c .leave () m) :
    AnswersInOrder op (m :: tr) r := by
  have hread : ∀ {id endedBy dto}, AnswersWithRead id endedBy tr dto →
      AnswersWithRead id endedBy (m :: tr) dto := by
    rintro id endedBy dto ⟨e, l, owner, s, t, online, hfind, hrest⟩
    exact ⟨e, l, owner, s, t, online, (readings_other hm rfl).trans hfind, hrest⟩
  cases op with
  | closeByTechnician id user =>
      rcases h with ⟨dto, hr, hdto⟩
      exact ⟨dto, hr, hread hdto⟩
  | closeByDevice id device =>
      rcases h with ⟨dto, hr, hdto⟩
      exact ⟨dto, hr, hread hdto⟩
  | _ => trivial

/-- A call that changes a session, from its beginning to its return. Before the
    body there is one entry, which reads nothing and commits nothing. -/
theorem handle_along {op : Operation} (hop : op.ChangesSession) :
    (handle op).Along (Leaves throws c) InOrder (AnswersInOrder op) (fun _ _ => True) [] := by
  have henter : (ask .enter).Along (Leaves throws c) InOrder (fun tr _ => Reads [] [] tr ∧
      ∀ e l ws, e :: l ∈ tr → e.event ≠ .committed ws) (fun _ _ => True) [] := by
    refine ⟨trivial, fun _ m hm => ⟨Reads.other ⟨rfl, rfl⟩ hm rfl rfl, fun e l ws hmem => ?_⟩⟩
    rcases hm with ⟨env, w, w', _, hx, rfl⟩
    cases hx
    have heq := List.mem_singleton.mp hmem
    simp only [World.record, List.cons.injEq] at heq
    rw [heq.1]
    simp only [ne_eq, reduceCtorEq, not_false_eq_true]
  refine henter.bind (fun tr _ h => ?_)
  refine .bind (.onError (body_along hop h.1 h.2) (fun tr e _ => ?_)) (fun tr r hr => ?_)
  · exact ⟨trivial, fun _ _ _ => trivial⟩
  · exact ⟨trivial, fun _ m' hm' => hr.leave hm'⟩

end Programs

/-- In every reachable system, the calls that change a session are where their
    traces lead to. Nothing is said of the other calls. -/
theorem Reachable.changes_traced {sys : Calls} (h : Reachable calls throws sys) :
    Traced Recorded (Leaves throws) (fun c w => marks c w.log)
      (fun c tr o => (calls c).ChangesSession → InOrder tr o)
      (fun c tr r => (calls c).ChangesSession → AnswersInOrder (calls c) tr r)
      (fun _ _ _ => True) sys := by
  refine h.traced (fun c => ?_)
  by_cases hop : (calls c).ChangesSession
  · exact ((handle_along hop).mono (fun _ _ ho _ => ho)).conseq (fun _ _ hr _ => hr)
      (fun _ _ _ => trivial)
  · exact ((Prog.along_trivial _ _).mono (fun _ _ _ hc => absurd hc hop)).conseq
      (fun _ _ _ hc => absurd hc hop) (fun _ _ _ => trivial)

end RemoteControl
