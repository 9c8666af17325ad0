import RemoteControl.Theory.Logins
import RemoteControl.Theory.TechnicianTraces

/-!
# Users and Sockets over Time

What a history of the technicians' calls says of its states. Every operation
could happen in the state it happened in, and was answered as that state has
it (`Fits`), so these are facts about histories alone.

A row is never deleted. It is changed by the operations that say so
(`changed`), and a new one has a new identifier. A socket stores what was
stored on it, is never again what it was before it was connected or gone, and
is in a room from when it entered until it is gone.

Each kind of fact comes as a pair. An `_effect` lemma says what one operation
makes of the rows, of a socket or of a room, for every operation at once; the
lemmas below it are what the later modules use, that a row stays, that an
identity is stored for good, that a socket that is gone is gone. So the case
split over the operations is made once for each of the three.

## Main definitions

* `Fits`: The entry is what the history before it allows.
* `changed`: What an operation makes of a row.
* `WellFormed`: What every state of a run satisfies.
* `History`: The histories of runs.

## Theorems

* `recorded`: The history of a run.
* `mem_rows_effect`: The rows after an operation.
* `mem_rooms_effect`: The rooms after an operation.
-/

namespace RemoteControl.Technicians

open Concurrency Encoding Accounts

variable {host : Host} {jwt : Jwt} {calls : CallId → Operation} {sys : Calls}

/-! ## Histories -/

/-- The operation could happen, was not earlier than those before it, and was
    answered as their state has it. -/
structure Fits (host : Host) (jwt : Jwt) (l : List Entry) (e : Entry) : Prop where
  enabled : enabled (replay l) e.op = true
  later : ∀ d ∈ l, d.time ≤ e.time
  answered : ∃ env, e.resp = answer host jwt env e.time (replay l) e.op

/-- The history of a run accounts for its state. -/
theorem recorded (h : Reachable host jwt calls sys) :
    sys.shared.state = replay sys.shared.log ∧ Fitting (Fits host jwt) sys.shared.log := by
  -- The state is what the history has led to, and the clock is not behind it.
  let I : World → Prop := fun w => w.state = replay w.log ∧ ∀ d ∈ w.log, d.time ≤ w.clock
  have hop : ∀ c env o (w : World) r w', exec host jwt c env o w = some (r, w') → I w →
      I w' ∧ ∃ e, Fits host jwt w.log e ∧ w'.log = e :: w.log := by
    rintro c env o w r w' hx ⟨hstate, htimes⟩
    rcases exec_eq_some hx with ⟨he, hr, rfl⟩
    rw [hstate] at he hr
    refine ⟨⟨congrArg (effect · o r) hstate, fun d hd => ?_⟩, _, ⟨he, ?_, env, hr⟩, rfl⟩
    · rcases List.mem_cons.mp hd with rfl | hd
      · exact Nat.le_refl _
      · exact Nat.le_trans (htimes d hd) (Nat.le_add_right _ _)
    · exact fun d hd => Nat.le_trans (htimes d hd) (Nat.le_add_right _ _)
  have hrun := fitting_of_run hop h ⟨rfl, fun d hd => absurd hd List.not_mem_nil⟩ rfl
  exact ⟨hrun.1.1, hrun.2⟩

/-! ## Rows -/

/-- Who is found under an identifier is the one row that has it. -/
theorem findById_eq_some {t : UserTable} {id : Uuid} {u : Accounts.User} :
    findById t id = some u ↔ u ∈ t.rows ∧ u.id = id := by
  constructor
  · intro h
    have hid := List.find?_some h
    rw [decide_eq_true_eq] at hid
    exact ⟨List.mem_of_find?_eq_some h, hid⟩
  · rintro ⟨hu, rfl⟩
    cases hfound : findById t u.id with
    | none =>
        have hnone := List.find?_eq_none.mp hfound u hu
        simp only [decide_true, not_true_eq_false] at hnone
    | some v =>
        have hv := List.find?_some hfound
        rw [decide_eq_true_eq] at hv
        -- The identifier is unique among the rows.
        rw [t.eq_of_id (List.mem_of_find?_eq_some hfound) hu hv]

/-- What an operation makes of a row that is there. -/
def changed (o : Op) (u : Accounts.User) : Accounts.User :=
  match o with
  | .setPassword id password => if u.id = id then { u with password } else u
  | .setActive id isActive => if u.id = id then { u with isActive } else u
  | .setRoles id roles => if u.id = id then { u with roles } else u
  | _ => u

/-- A change keeps the identifier of its row. -/
theorem changed_id (o : Op) (u : Accounts.User) : (changed o u).id = u.id := by
  unfold changed
  split
  all_goals first | rfl | (split <;> rfl)

/-- The row that an operation has inserted. -/
def inserted (o : Op) (r : Resp o) : Option Accounts.User :=
  match o, r with
  | .save _, (r : Except DriverError Accounts.User) => r.toOption
  | _, _ => none

/-- Only a `save` that was answered with a row inserts one. -/
theorem inserted_eq_some {o : Op} {r : Resp o} {u : Accounts.User} (h : inserted o r = some u) :
    ∃ draft, (⟨o, r⟩ : Step) = ⟨.save draft, .ok u⟩ := by
  unfold inserted at h
  split at h
  · rename_i draft r'
    cases r' with
    | error error => cases h
    | ok v =>
        cases h
        exact ⟨draft, rfl⟩
  · cases h

/-- A row that was saved is as it was to be, in the form of the hook, and new. -/
theorem saved_eq_ok {s : State} {draft : UserDraft} {id : Uuid} {now : Timestamp}
    {u : Accounts.User} (h : saved host s draft id now = .ok u) :
    u = (draft.toRow id now).checkFieldsBeforeInsert host ∧
      (insertRow s.users u).rows = s.users.rows ++ [u] ∧ ∀ v ∈ s.users.rows, v.id ≠ u.id := by
  unfold saved at h
  split at h
  · rename_i t ht
    cases h
    refine ⟨rfl, ?_, (UserTable.save_ok ht).2⟩
    have hinsert : s.users.insert ((draft.toRow id now).checkFieldsBeforeInsert host) = .ok t := ht
    simp only [insertRow, hinsert]
    exact (UserTable.save_ok ht).1
  · cases h

/-- The rows after an operation: those before, as it has changed them, and the one
    it has inserted. The three updates change the rows they select and keep their
    number; `save` adds one; the other operations leave the table as it is. -/
theorem mem_rows_effect {l : List Entry} {e : Entry} (hfits : Fits host jwt l e)
    {u : Accounts.User} : u ∈ (replay (e :: l)).users.rows ↔
      (∃ v ∈ (replay l).users.rows, u = changed e.op v) ∨ inserted e.op e.resp = some u := by
  rcases e with ⟨c, t, o, r⟩
  -- An operation that changes no row and inserts none.
  have hsame : ∀ {f : Accounts.User → Accounts.User}, (∀ v, f v = v) →
      (u ∈ (replay l).users.rows ↔ (∃ v ∈ (replay l).users.rows, u = f v) ∨ none = some u) := by
    intro f hf
    constructor
    · exact fun hu => .inl ⟨u, hu, (hf u).symm⟩
    · rintro (⟨v, hv, rfl⟩ | h)
      · rwa [hf v]
      · cases h
  -- An operation that maps the rows.
  have hupdate : ∀ (t : UserTable) (f : Accounts.User → Accounts.User),
      (u ∈ t.rows.map f ↔ (∃ v ∈ t.rows, u = f v) ∨ none = some u) := by
    intro t f
    rw [List.mem_map]
    constructor
    · rintro ⟨v, hv, rfl⟩
      exact .inl ⟨v, hv, rfl⟩
    · rintro (⟨v, hv, rfl⟩ | h)
      · exact ⟨v, hv, rfl⟩
      · cases h
  cases o
  case save draft =>
    rcases hfits.answered with ⟨env, hr⟩
    cases hrow : (show Except DriverError Accounts.User from r) with
    | error error =>
        change r = Except.error error at hrow
        subst hrow
        exact hsame (fun _ => rfl)
    | ok row =>
        change r = Except.ok row at hrow
        subst hrow
        -- The row was inserted as it was answered.
        have hrows := (saved_eq_ok (hr.symm : saved host _ draft env.newId t = .ok row)).2.1
        change u ∈ (insertRow (replay l).users row).rows ↔
          (∃ v ∈ (replay l).users.rows, u = v) ∨ some row = some u
        rw [hrows, List.mem_append, List.mem_singleton, Option.some.injEq]
        exact or_congr (by simp only [exists_eq_right']) eq_comm
  case setPassword id password => exact hupdate _ _
  case setActive id isActive => exact hupdate _ _
  case setRoles id roles => exact hupdate _ _
  case setTechnician socket context =>
    simp only [replay, effect]
    split
    · exact hsame (fun _ => rfl)
    · exact hsame (fun _ => rfl)
  case next socket =>
    simp only [replay, effect]
    split
    · exact hsame (fun _ => rfl)
    · split
      · exact hsame (fun _ => rfl)
      · exact hsame (fun _ => rfl)
  case refuse | disconnect =>
    simp only [replay, effect, State.close]
    split
    · exact hsame (fun _ => rfl)
    · exact hsame (fun _ => rfl)
  case joinRoom socket room =>
    simp only [replay, effect, State.join]
    split
    · exact hsame (fun _ => rfl)
    · exact hsame (fun _ => rfl)
  all_goals exact hsame (fun _ => rfl)

/-- A row that was inserted is what was to be saved, and new. -/
theorem inserted_new {l : List Entry} {e : Entry} (hfits : Fits host jwt l e) {u : Accounts.User}
    (h : inserted e.op e.resp = some u) : ∃ draft id, e.op = .save draft ∧
      u = (draft.toRow id e.time).checkFieldsBeforeInsert host ∧
      ∀ v ∈ (replay l).users.rows, v.id ≠ u.id := by
  rcases e with ⟨c, t, o, r⟩
  rcases inserted_eq_some h with ⟨draft, heq⟩
  cases heq
  rcases hfits.answered with ⟨env, hr⟩
  rcases saved_eq_ok (hr.symm : saved host _ draft env.newId t = .ok u) with ⟨hu, _, hnew⟩
  exact ⟨draft, env.newId, rfl, hu, hnew⟩

/-- Who was found before is found after the operation, as it has changed the row. -/
theorem findById_changed {l : List Entry} {e : Entry} (hfits : Fits host jwt l e) {id : Uuid}
    {v : Accounts.User} (h : findById (replay l).users id = some v) :
    findById (replay (e :: l)).users id = some (changed e.op v) := by
  rcases findById_eq_some.mp h with ⟨hv, hid⟩
  exact findById_eq_some.mpr ⟨(mem_rows_effect hfits).mpr (.inl ⟨v, hv, rfl⟩),
    (changed_id e.op v).trans hid⟩

/-- A user that was read was in the table then. -/
theorem read_row {l : List Entry} {c : CallId} {t : Timestamp} {id : Uuid} {user : SelectedUser}
    (hfits : Fits host jwt l ⟨c, t, .findOneBy id, some user⟩) :
    user.id = id ∧ ∃ row, findById (replay l).users id = some row ∧ user = .ofRow row := by
  rcases hfits.answered with ⟨env, hr⟩
  rcases Option.map_eq_some_iff.mp (hr.symm : (findById (replay l).users id).map _ = some user) with
    ⟨row, hrow, rfl⟩
  exact ⟨(findById_eq_some.mp hrow).2, row, hrow, rfl⟩

/-! ## Sockets -/

/-- The phase of a socket that is there. -/
theorem isIn_iff {s : State} {id : SocketId} {phase : Phase} :
    s.isIn id phase = true ↔ ∃ a, s.sockets id = some a ∧ a.phase = phase := by
  simp only [State.isIn, Option.any_eq_true, decide_eq_true_eq]

/-- Only this socket is another. -/
theorem sockets_setSocket {s : State} {id id' : SocketId} {a : Socket} :
    (s.setSocket id a).sockets id' = if id' = id then some a else s.sockets id' := by
  simp only [State.setSocket, Function.update_apply]

/-- What an operation makes of a socket that is there. -/
def Socket.after (o : Op) (id : SocketId) (a : Socket) : Socket :=
  match o with
  | .setTechnician socket context =>
      if id = socket then { a with technician := some context } else a
  | .next socket =>
    if id = socket ∧ a.phase = .connecting then { a with phase := .connected } else a
  | .refuse socket => if id = socket then { a with phase := .closed } else a
  | .disconnect socket => if id = socket then { a with phase := .closed } else a
  | _ => a

/-- The sockets after an operation: those before, and one that has come in. Either
    the socket has just come in, or it is what the operation makes of the one that
    was there. Where there was none there is none. -/
theorem sockets_effect {s : State} {o : Op} {r : Resp o} (id : SocketId) :
    (effect s o r).sockets id = if o = .open id then some ⟨none, .connecting⟩
      else (s.sockets id).map (Socket.after o id) := by
  -- An operation that leaves each socket as it is.
  have hmap : ∀ {f : Socket → Socket}, (∀ a, f a = a) → s.sockets id = (s.sockets id).map f := by
    intro f hf
    rw [show f = fun a => a from funext hf, Option.map_id']
  -- An operation that closes one: that one if it is there, and no other.
  have hclose : ∀ socket, (s.close socket).sockets id = (s.sockets id).map
      (fun a => if id = socket then { a with phase := .closed } else a) := by
    intro socket
    unfold State.close
    cases hs : s.sockets socket with
    | none =>
        refine Option.ext (fun a => ?_)
        by_cases hid : id = socket
        · subst hid
          simp only [hs, Option.map_none]
        · simp only [hid, if_false, Option.map_id']
    | some a =>
        simp only [sockets_setSocket]
        by_cases hid : id = socket
        · subst hid
          simp only [hs, if_true, Option.map_some]
        · simp only [hid, if_false, Option.map_id']
  cases o
  case «open» socket =>
    simp only [effect, sockets_setSocket, Op.open.injEq]
    by_cases hid : id = socket
    · rw [if_pos hid, if_pos hid.symm]
    · rw [if_neg hid, if_neg (fun h => hid h.symm)]
      exact hmap (fun _ => rfl)
  case setTechnician socket context =>
    simp only [effect, reduceCtorEq, if_false]
    cases hs : s.sockets socket with
    | none =>
        by_cases hid : id = socket
        · subst hid
          simp only [hs, Option.map_none]
        · exact hmap (fun a => by simp only [Socket.after, if_neg hid])
    | some a =>
        simp only [sockets_setSocket]
        by_cases hid : id = socket
        · subst hid
          simp only [hs, if_true, Option.map_some, Socket.after]
        · rw [if_neg hid]
          exact hmap (fun a => by simp only [Socket.after, if_neg hid])
  case next socket =>
    simp only [effect, reduceCtorEq, if_false]
    cases hs : s.sockets socket with
    | none =>
        by_cases hid : id = socket
        · subst hid
          simp only [hs, Option.map_none]
        · exact hmap (fun a => by simp only [Socket.after, hid, false_and, if_false])
    | some a =>
        by_cases hid : id = socket
        · subst hid
          by_cases hp : a.phase = .connecting
          · simp only [hp, if_true, sockets_setSocket, hs, Option.map_some, Socket.after, and_self]
          · simp only [hp, if_false, hs, Option.map_some, Socket.after, and_false]
        · refine Eq.trans ?_ (hmap (fun a => by
            simp only [Socket.after, hid, false_and, if_false]))
          by_cases hp : a.phase = .connecting
          · simp only [hp, if_true, sockets_setSocket, if_neg hid]
          · simp only [hp, if_false]
  case refuse socket =>
    simp only [reduceCtorEq, if_false]
    exact hclose socket
  case disconnect socket =>
    simp only [reduceCtorEq, if_false]
    exact hclose socket
  case joinRoom socket room =>
    simp only [effect, State.join, reduceCtorEq, if_false]
    split
    · exact hmap (fun _ => rfl)
    · exact hmap (fun _ => rfl)
  case save draft =>
    simp only [effect, reduceCtorEq, if_false]
    split
    · exact hmap (fun _ => rfl)
    · exact hmap (fun _ => rfl)
  all_goals
    simp only [effect, reduceCtorEq, if_false]
    exact hmap (fun _ => rfl)

/-- The identity of a socket is what was stored on it. Only `setTechnician` stores
    one, and no operation takes one away. -/
theorem technician_after (o : Op) (id : SocketId) (a : Socket) :
    (∃ c, o = .setTechnician id c ∧ (Socket.after o id a).technician = some c) ∨
    ((∀ c, o ≠ .setTechnician id c) ∧ (Socket.after o id a).technician = a.technician) := by
  cases o
  case setTechnician socket context =>
    simp only [Socket.after, Op.setTechnician.injEq, not_and, ne_eq]
    by_cases hid : id = socket
    · exact .inl ⟨context, ⟨hid.symm, rfl⟩, by rw [if_pos hid]⟩
    · exact .inr ⟨fun _ hs => absurd hs.symm hid, by rw [if_neg hid]⟩
  case next socket =>
    refine .inr ⟨by simp only [ne_eq, reduceCtorEq, not_false_eq_true, implies_true], ?_⟩
    simp only [Socket.after]
    split <;> rfl
  case refuse socket =>
    refine .inr ⟨by simp only [ne_eq, reduceCtorEq, not_false_eq_true, implies_true], ?_⟩
    simp only [Socket.after]
    split <;> rfl
  case disconnect socket =>
    refine .inr ⟨by simp only [ne_eq, reduceCtorEq, not_false_eq_true, implies_true], ?_⟩
    simp only [Socket.after]
    split <;> rfl
  all_goals
    exact .inr ⟨by simp only [ne_eq, reduceCtorEq, not_false_eq_true, implies_true], rfl⟩

/-- The socket goes, or is turned away. -/
def Op.Closes (o : Op) (id : SocketId) : Prop := o = .refuse id ∨ o = .disconnect id

/-- A socket is closed by what closes it, and connected when it is let in. The
    three cases exclude each other, by what the operation is and where the socket
    was. -/
theorem phase_after (o : Op) (id : SocketId) (a : Socket) :
    (o.Closes id ∧ (Socket.after o id a).phase = .closed) ∨
    (¬ o.Closes id ∧ o = .next id ∧ a.phase = .connecting ∧
      (Socket.after o id a).phase = .connected) ∨
    (¬ o.Closes id ∧ (o = .next id → a.phase ≠ .connecting) ∧
      (Socket.after o id a).phase = a.phase) := by
  cases o
  case setTechnician socket context =>
    refine .inr (.inr ⟨by simp only [Op.Closes, reduceCtorEq, or_self, not_false_eq_true],
      by simp only [reduceCtorEq, false_implies], ?_⟩)
    simp only [Socket.after]
    split <;> rfl
  case next socket =>
    simp only [Op.Closes, reduceCtorEq, or_self, false_and, not_false_eq_true, true_and, false_or,
      Op.next.injEq, Socket.after]
    by_cases hid : id = socket
    · by_cases hp : a.phase = .connecting
      · exact .inl ⟨hid.symm, hp, by rw [if_pos ⟨hid, hp⟩]⟩
      · exact .inr ⟨fun _ => hp, by rw [if_neg (fun h => hp h.2)]⟩
    · exact .inr ⟨fun h => absurd h.symm hid, by rw [if_neg (fun h => hid h.1)]⟩
  case refuse socket =>
    simp only [Op.Closes, reduceCtorEq, or_false, false_and, and_false, false_or, Op.refuse.injEq,
      Socket.after, false_implies, true_and]
    by_cases hid : id = socket
    · exact .inl ⟨hid.symm, by rw [if_pos hid]⟩
    · exact .inr ⟨fun h => hid h.symm, by rw [if_neg hid]⟩
  case disconnect socket =>
    simp only [Op.Closes, reduceCtorEq, false_or, false_and, and_false, Op.disconnect.injEq,
      Socket.after, false_implies, true_and]
    by_cases hid : id = socket
    · exact .inl ⟨hid.symm, by rw [if_pos hid]⟩
    · exact .inr ⟨fun h => hid h.symm, by rw [if_neg hid]⟩
  all_goals
    exact .inr (.inr ⟨by simp only [Op.Closes, reduceCtorEq, or_self, not_false_eq_true],
      by simp only [reduceCtorEq, false_implies], rfl⟩)

/-- A socket that is there was there before, or has just come in. -/
theorem socket_before {s : State} {o : Op} {r : Resp o} {id : SocketId} {a : Socket}
    (h : (effect s o r).sockets id = some a) : (o = .open id ∧ a = ⟨none, .connecting⟩) ∨
      ∃ b, s.sockets id = some b ∧ a = Socket.after o id b := by
  rw [sockets_effect] at h
  split at h
  · rename_i hopen
    exact .inl ⟨hopen, (Option.some.inj h).symm⟩
  · rcases Option.map_eq_some_iff.mp h with ⟨b, hb, rfl⟩
    exact .inr ⟨b, hb, rfl⟩

/-- A socket that is there is not opened again. -/
theorem socket_stays {s : State} {o : Op} {r : Resp o} {id : SocketId} {a : Socket}
    (he : enabled s o = true) (h : s.sockets id = some a) :
    (effect s o r).sockets id = some (Socket.after o id a) := by
  have hopen : o ≠ .open id := by
    rintro rfl
    simp only [enabled, h, Option.isNone_some, Bool.false_and, Bool.false_eq_true] at he
  rw [sockets_effect, if_neg hopen, h, Option.map_some]

/-- What was stored on a socket before, or is stored now. -/
theorem technician_effect {s : State} {o : Op} {r : Resp o} {id : SocketId}
    {context : TechnicianSocketContext} (h : (effect s o r).technician id = some context) :
    s.technician id = some context ∨ o = .setTechnician id context := by
  rcases Option.bind_eq_some_iff.mp h with ⟨a, ha, hcontext⟩
  rcases socket_before ha with ⟨_, rfl⟩ | ⟨b, hb, rfl⟩
  · cases hcontext
  · rcases technician_after o id b with ⟨c, ho, hc⟩ | ⟨_, hsame⟩
    · rw [hc, Option.some.injEq] at hcontext
      exact .inr (by rw [ho, hcontext])
    · exact .inl (Option.bind_eq_some_iff.mpr ⟨b, hb, hsame.symm.trans hcontext⟩)

/-- What is stored on a socket stays there, unless something else is. -/
theorem technician_stays {s : State} {o : Op} {r : Resp o} {id : SocketId}
    {context : TechnicianSocketContext} (he : enabled s o = true)
    (h : s.technician id = some context) (ho : ∀ c, o ≠ .setTechnician id c) :
    (effect s o r).technician id = some context := by
  rcases Option.bind_eq_some_iff.mp h with ⟨a, ha, hcontext⟩
  rcases technician_after o id a with ⟨c, hset, _⟩ | ⟨_, hsame⟩
  · exact absurd hset (ho c)
  · exact Option.bind_eq_some_iff.mpr ⟨_, socket_stays he ha, hsame.trans hcontext⟩

/-- Whoever is connected was so before or was just let in, and is not gone. Going
    through the three cases of its phase, only two end connected. -/
theorem connected_effect {s : State} {o : Op} {r : Resp o} {id : SocketId}
    (h : (effect s o r).isIn id .connected = true) : ¬ o.Closes id ∧
      (s.isIn id .connected = true ∨ (o = .next id ∧ s.isIn id .connecting = true)) := by
  rcases isIn_iff.mp h with ⟨a, ha, hphase⟩
  rcases socket_before ha with ⟨_, rfl⟩ | ⟨b, hb, rfl⟩
  · cases hphase
  · rcases phase_after o id b with ⟨_, hclosed⟩ | ⟨hno, hnext, hconnecting, _⟩ | ⟨hno, _, hsame⟩
    · rw [hclosed] at hphase
      cases hphase
    · exact ⟨hno, .inr ⟨hnext, isIn_iff.mpr ⟨b, hb, hconnecting⟩⟩⟩
    · exact ⟨hno, .inl (isIn_iff.mpr ⟨b, hb, hsame.symm.trans hphase⟩)⟩

/-- Whoever is connected stays so until it is gone. -/
theorem connected_stays {s : State} {o : Op} {r : Resp o} {id : SocketId}
    (he : enabled s o = true) (h : s.isIn id .connected = true) (hno : ¬ o.Closes id) :
    (effect s o r).isIn id .connected = true := by
  rcases isIn_iff.mp h with ⟨a, ha, hphase⟩
  refine isIn_iff.mpr ⟨_, socket_stays he ha, ?_⟩
  rcases phase_after o id a with ⟨hcloses, _⟩ | ⟨_, _, _, hconnected⟩ | ⟨_, _, hsame⟩
  · exact absurd hcloses hno
  · exact hconnected
  · exact hsame.trans hphase

/-- Whoever is gone stays so. -/
theorem closed_stays {s : State} {o : Op} {r : Resp o} {id : SocketId} (he : enabled s o = true)
    (h : s.isIn id .closed = true) : (effect s o r).isIn id .closed = true := by
  rcases isIn_iff.mp h with ⟨a, ha, hphase⟩
  refine isIn_iff.mpr ⟨_, socket_stays he ha, ?_⟩
  rcases phase_after o id a with ⟨_, hclosed⟩ | ⟨_, _, hconnecting, _⟩ | ⟨_, _, hsame⟩
  · exact hclosed
  · rw [hconnecting] at hphase
    cases hphase
  · exact hsame.trans hphase

/-! ## Rooms -/

/-- A member of a room is a connected socket, and is in it once. -/
structure WellFormed (s : State) : Prop where
  members : ∀ room id, id ∈ s.rooms room → s.isIn id .connected = true
  nodup : ∀ room, (s.rooms room).Nodup

/-- Who is in a room after a socket has gone. -/
theorem mem_close {s : State} (hw : WellFormed s) {socket id : SocketId} {room : String} :
    id ∈ (s.close socket).rooms room ↔ id ∈ s.rooms room ∧ ¬ socket = id := by
  unfold State.close
  cases hs : s.sockets socket with
  | none =>
      -- Nobody is in a room who is not there.
      refine ⟨fun h => ⟨h, ?_⟩, fun h => h.1⟩
      rintro rfl
      rcases isIn_iff.mp (hw.members room socket h) with ⟨a, ha, _⟩
      rw [hs] at ha
      cases ha
  | some a =>
      simp only [List.mem_filter, decide_eq_true_eq, ne_eq, @eq_comm _ id]

/-- Who is in a room after a socket was to enter one. It enters only if it is
    connected, and only if it is not in it. -/
theorem mem_join {s : State} {socket id : SocketId} {room room' : String} :
    id ∈ (s.join socket room').rooms room ↔ id ∈ s.rooms room ∨
      ((socket = id ∧ room' = room) ∧ s.isIn id .connected = true) := by
  unfold State.join
  split
  · rename_i hjoin
    by_cases hroom : room = room'
    · subst hroom
      simp only [Function.update_self, List.mem_append, List.mem_singleton, and_true]
      refine or_congr_right ⟨?_, fun h => h.1.symm⟩
      rintro rfl
      exact ⟨rfl, hjoin.1⟩
    · simp only [Function.update_of_ne hroom]
      refine ⟨.inl, ?_⟩
      rintro (h | ⟨⟨_, heq⟩, _⟩)
      · exact h
      · exact absurd heq.symm hroom
  · rename_i hno
    -- A socket that is in the room already, or is not connected, is not added.
    refine ⟨.inl, ?_⟩
    rintro (h | ⟨⟨rfl, rfl⟩, hconnected⟩)
    · exact h
    · exact Classical.byContradiction (fun hout => hno ⟨hconnected, hout⟩)

/-- Who goes leaves nobody twice. -/
theorem nodup_close {s : State} {socket : SocketId} {room : String} (h : (s.rooms room).Nodup) :
    ((s.close socket).rooms room).Nodup := by
  unfold State.close
  split
  · exact h
  · exact h.filter _

/-- Whoever enters was not in the room. -/
theorem nodup_join {s : State} {socket : SocketId} {room room' : String}
    (h : (s.rooms room).Nodup) : ((s.join socket room').rooms room).Nodup := by
  unfold State.join
  split
  · rename_i hjoin
    by_cases hroom : room = room'
    · subst hroom
      simp only [Function.update_self, ← List.concat_eq_append]
      exact List.Nodup.concat hjoin.2 h
    · simp only [Function.update_of_ne hroom]
      exact h
  · exact h

/-- Who is in a room after an operation: whoever was in it and is not gone, and a
    connected socket that has entered it. Only four operations concern a room at
    all; the others give it back as it was. -/
theorem mem_rooms_effect {s : State} {o : Op} {r : Resp o} (hw : WellFormed s)
    (room : String) (id : SocketId) : id ∈ (effect s o r).rooms room ↔
      (id ∈ s.rooms room ∧ ¬ o.Closes id) ∨
      (o = .joinRoom id room ∧ s.isIn id .connected = true) := by
  cases o
  case refuse socket =>
    simp only [Op.Closes, Op.refuse.injEq, reduceCtorEq, or_false, false_and]
    exact mem_close hw
  case disconnect socket =>
    simp only [Op.Closes, Op.disconnect.injEq, reduceCtorEq, false_or, false_and, or_false]
    exact mem_close hw
  case joinRoom socket room' =>
    simp only [Op.Closes, reduceCtorEq, or_self, not_false_eq_true, and_true,
      Op.joinRoom.injEq]
    exact mem_join
  case setTechnician socket context =>
    simp only [Op.Closes, reduceCtorEq, or_self, not_false_eq_true, and_true, false_and, or_false,
      effect]
    split <;> rfl
  case next socket =>
    simp only [Op.Closes, reduceCtorEq, or_self, not_false_eq_true, and_true, false_and, or_false,
      effect]
    split
    · rfl
    · split <;> rfl
  case save draft =>
    simp only [Op.Closes, reduceCtorEq, or_self, not_false_eq_true, and_true, false_and, or_false,
      effect]
    split <;> rfl
  all_goals
    simp only [Op.Closes, reduceCtorEq, or_self, not_false_eq_true, and_true, false_and, or_false]
    rfl

/-- Nobody is in a room twice, whatever the operation. -/
theorem nodup_effect {s : State} {o : Op} {r : Resp o} (hw : WellFormed s) (room : String) :
    ((effect s o r).rooms room).Nodup := by
  cases o
  case refuse socket => exact nodup_close (hw.nodup room)
  case disconnect socket => exact nodup_close (hw.nodup room)
  case joinRoom socket room' => exact nodup_join (hw.nodup room)
  case setTechnician socket context =>
    simp only [effect]
    split <;> exact hw.nodup room
  case next socket =>
    simp only [effect]
    split
    · exact hw.nodup room
    · split <;> exact hw.nodup room
  case save draft =>
    simp only [effect]
    split <;> exact hw.nodup room
  all_goals exact hw.nodup room

/-- Nobody is in a room at boot. -/
theorem init_wellFormed : WellFormed State.init :=
  ⟨fun _ _ h => absurd h List.not_mem_nil, fun _ => List.nodup_nil⟩

/-- An operation keeps it: whoever stays in a room stays connected, and whoever
    enters one is. -/
theorem WellFormed.effect {s : State} {o : Op} {r : Resp o} (hw : WellFormed s)
    (he : enabled s o = true) : WellFormed (effect s o r) := by
  refine ⟨fun room id hid => ?_, nodup_effect hw⟩
  rcases (mem_rooms_effect hw room id).mp hid with ⟨hold, hno⟩ | ⟨rfl, hconnected⟩
  · exact connected_stays he (hw.members room id hold) hno
  · refine connected_stays he hconnected ?_
    simp only [Op.Closes, reduceCtorEq, or_self, not_false_eq_true]

/-- Every state of a history is well formed. -/
theorem wellFormed {l : List Entry} (h : Fitting (Fits host jwt) l) : WellFormed (replay l) := by
  induction l with
  | nil => exact init_wellFormed
  | cons e l ih =>
      exact (ih (h.suffix (List.suffix_cons e l))).effect (h e l List.suffix_rfl).enabled

/-! ## Histories of runs -/

/-- A history that accounts for its states, and keeps to the order of the
    handlers. -/
structure History (host : Host) (jwt : Jwt) (calls : CallId → Operation) (l : List Entry) :
    Prop where
  fits : Fitting (Fits host jwt) l
  orderly : ∀ e l', e :: l' <:+ l → InOrder host (calls e.call) (own e.call l') e.op

/-- The history of a run. -/
theorem Reachable.history (h : Reachable host jwt calls sys) :
    History host jwt calls sys.shared.log := ⟨(recorded h).2, fun _ _ he => orderly h he⟩

/-- What an earlier point of a history says. -/
theorem History.suffix {l l' : List Entry} (h : History host jwt calls l) (hs : l' <:+ l) :
    History host jwt calls l' := ⟨h.fits.suffix hs, fun e k he => h.orderly e k (he.trans hs)⟩

/-- An operation of a history could happen where it did. -/
theorem History.enabled {l k : List Entry} {e : Entry} (h : History host jwt calls l)
    (he : e :: k <:+ l) : enabled (replay k) e.op = true := (h.fits e k he).enabled

/-! ## An office -/

/-- Tokens that anyone could write: how often they say so is who they are for,
    and since when. -/
def unaryJwt : Jwt :=
  { sign := fun id iat => String.ofList (List.replicate id 'u' ++ List.replicate iat 't')
    verify := fun token now =>
      let id := token.toList.count 'u'
      let iat := token.toList.count 't'
      if token = String.ofList (List.replicate id 'u' ++ List.replicate iat 't') ∧
        Unexpired iat now then some id else none }

/-- What is verified is what was signed, as long as it has not expired. -/
theorem unaryJwt_verify (id : Uuid) (iat now : Timestamp) :
    unaryJwt.verify (unaryJwt.sign id iat) now = if Unexpired iat now then some id else none := by
  -- The two letters are counted apart, so either number can be read back.
  have hid : (List.replicate id 'u' ++ List.replicate iat 't').count 'u' = id := by
    simp [List.count_append, List.count_replicate]
  have hiat : (List.replicate id 'u' ++ List.replicate iat 't').count 't' = iat := by
    simp [List.count_append, List.count_replicate]
  simp only [unaryJwt, String.toList_ofList, hid, hiat, true_and]

/-- What it verifies of a signed token is whom it was signed for. -/
theorem unaryJwt_verifiesSigned : unaryJwt.VerifiesSigned := by
  intro id id' iat now h
  rw [unaryJwt_verify] at h
  split at h
  · exact ⟨(Option.some.inj h).symm, ‹_›⟩
  · cases h

/-- Ana is the first administrator, and gives Leo an account, who connects and
    is told of a session. Then Leo is made inactive. -/
def office : CallId → Operation
  | 0 => .bootstrapAdmin ⟨"ana@example.com", "Secreta1", "Ana"⟩
  | 1 => .login ⟨"ana@example.com", "Secreta1"⟩
  | 2 => .register (some "u") ⟨"leo@example.com", "Secreta2", "Leo", some [.tecnico]⟩
  | 3 => .login ⟨"leo@example.com", "Secreta2"⟩
  | 4 => .afterInit
  | 5 => .connect 0 [("token", .string "uu")]
  | 6 => .emitToTechnician 2 (.remoteSessionActive 7)
  | 7 => .checkStatus (some "uu")
  | 8 => .setActive 2 false
  | _ => .request [.tecnico] (some "uu")

/-- The turns of one call after the other. -/
def oneAfterTheOther : List (CallId × Env) :=
  [(0, 7), (1, 3), (2, 7), (3, 3), (4, 1), (5, 8), (6, 1), (7, 5), (8, 1)].flatMap
    (fun (c, turns) => List.replicate turns (c, { tick := 0, newId := c / 2 + 1, salt := 0 }))

end RemoteControl.Technicians
