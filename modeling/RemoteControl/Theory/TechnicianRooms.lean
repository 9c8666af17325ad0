import RemoteControl.Theory.TechnicianHistory

/-!
# Who Hears the Events

The sockets that are in the room of a technician, and with it the sockets that
hear what is sent to that technician. A socket stores the user whose token it
has shown, for good (`stored_iff`), and is in the rooms that were chosen for
it from when it entered them until it is gone (`mem_rooms_iff`). So whoever
hears an event for a technician has shown a token of that technician, who was
active and had one of the roles at that moment, and every socket of the
technician that has come through its connection does hear it.

The two equivalences carry the result. `stored_iff` says that what is on a
socket is what the middleware has put there, and `mem_rooms_iff` that who is
in a room has entered it and is still connected. Between them lies the handler
of the connection: the room it enters is read off the socket (`context_read`),
so a socket enters the room of the user whose row its own call has read
(`room_entered`).

## Main definitions

* `LetIn`: The middleware has let the socket in.
* `HasShown`: Whose token the socket has shown, and who was found under it.
* `Settled`: The connection of the socket has gone through.
* `Addressed`: Whom an event is for.

## Theorems

* `stored_iff`, `mem_rooms_iff`: What is stored on a socket, and where it is.
* `heard_exactly`: Who hears an event.
-/

namespace RemoteControl.Technicians

open Concurrency Encoding Accounts

variable {host : Host} {jwt : Jwt} {calls : CallId → Operation} {sys : Calls}
  {l : List Entry} {s : SocketId}

/-! ## Rooms of technicians -/

/-- Two technicians have two rooms. An identifier is written in decimal digits,
    and those determine it. -/
theorem technicianRoom_inj {id id' : Uuid} (h : technicianRoom id = technicianRoom id') :
    id = id' := by
  have hdigits : Nat.toDigits 10 id = Nat.toDigits 10 id' := by
    rw [← Nat.toList_repr, ← Nat.toList_repr]
    exact congrArg String.toList ((String.append_right_inj _).mp h)
  rw [← Nat.ofDigitChars_toDigits (n := id) (by decide) (le_refl 10), hdigits,
    Nat.ofDigitChars_toDigits (by decide) (le_refl 10)]

/-- The room of a technician is not that of all. They differ in the eleventh
    character. -/
theorem technicianRoom_ne (id : Uuid) : technicianRoom id ≠ allTechniciansRoom := by
  intro h
  -- The one has a colon there, the other the letter of the plural.
  have hchar := congrArg (fun room => room.toList[10]?) h
  simp only [technicianRoom, allTechniciansRoom, String.toList_append] at hchar
  rw [List.getElem?_append_left (by decide)] at hchar
  exact absurd hchar (by decide)

/-! ## Connections -/

/-- A socket that has come in is there. -/
theorem there_of_open (h : History host jwt calls l) {e : Entry} {k : List Entry}
    (he : e :: k <:+ l) (ho : e.op = .open s) : ∃ a, (replay l).sockets s = some a := by
  have hsince : Since (fun k => ∃ a, (replay k).sockets s = some a) (e :: k) l := by
    refine Since.of_kept ⟨⟨none, .connecting⟩, ?_⟩ he (fun d k' _ hd hk' => ?_)
    · rw [replay, sockets_effect, if_pos ho]
    · rcases hk' with ⟨a, ha⟩
      exact ⟨_, socket_stays (h.enabled hd) ha⟩
  exact hsince l he List.suffix_rfl

/-- A socket comes in once. -/
theorem open_once (h : History host jwt calls l) {e e' : Entry} {k k' : List Entry}
    (he : e :: k <:+ l) (he' : e' :: k' <:+ l) (ho : e.op = .open s) (ho' : e'.op = .open s) :
    e :: k = e' :: k' := by
  -- A socket that comes in is not there before.
  have hnew : ∀ {d d' : Entry} {kd kd' : List Entry}, d :: kd <:+ l → d.op = .open s →
      d' :: kd' <:+ kd → d'.op = .open s → False := by
    intro d d' kd kd' hd hop hd' hop'
    have hopen := h.enabled hd
    rcases there_of_open (h.suffix ((List.suffix_cons d kd).trans hd)) hd' hop' with ⟨a, ha⟩
    simp only [hop, enabled, ha, Option.isNone_some, Bool.false_and, Bool.false_eq_true] at hopen
  rcases suffix_trichotomy he he' with hs | hs | heq
  · exact (hnew he' ho' hs ho).elim
  · exact (hnew he ho hs ho').elim
  · exact heq

/-- So one call has brought it in. -/
theorem same_call (h : History host jwt calls l) {c d : CallId}
    (hc : (⟨.open s, ()⟩ : Step) ∈ own c l) (hd : (⟨.open s, ()⟩ : Step) ∈ own d l) : c = d := by
  rcases did_at hc with ⟨t, k, hk⟩
  rcases did_at hd with ⟨t', k', hk'⟩
  exact congrArg Entry.call (List.cons.inj (open_once h hk hk' rfl rfl)).1

/-- A socket that was identified has come in. -/
theorem mem_identified {i : Identification} : (⟨.open s, ()⟩ : Step) ∈ identified s i :=
  List.mem_append_right _ (List.mem_singleton_self _)

/-- It has come in, and its token was verified and its user read. -/
theorem length_identified (i : Identification) : (identified s i).length = 3 := rfl

/-- The middleware has let the socket in, as this user. -/
def LetIn (calls : CallId → Operation) (l : List Entry) (s : SocketId) (i : Identification) :
    Prop :=
  ∃ c, Presents (calls c) s i ∧ admitted s i <:+ own c l

/-- Who was let in before was let in. -/
theorem LetIn.mono {i : Identification} {l' : List Entry} (h : LetIn calls l' s i)
    (hs : l' <:+ l) : LetIn calls l s i := by
  rcases h with ⟨c, hpresents, hin⟩
  exact ⟨c, hpresents, hin.trans (own_suffix hs)⟩

/-- It is let in as one user. -/
theorem LetIn.unique {i j : Identification} (h : History host jwt calls l)
    (hi : LetIn calls l s i) (hj : LetIn calls l s j) : i = j := by
  rcases hi with ⟨c, _, hi⟩
  rcases hj with ⟨d, _, hj⟩
  have hcall := same_call h (hi.subset (List.mem_cons_of_mem _ mem_identified))
    (hj.subset (List.mem_cons_of_mem _ mem_identified))
  subst hcall
  -- The steps of one call, up to the same one, are the same.
  have heq : admitted s i = admitted s j :=
    (List.suffix_of_suffix_length_le hi hj le_rfl).eq_of_length rfl
  rcases i with ⟨token, id, user, _⟩
  rcases j with ⟨token', id', user', _⟩
  simp only [admitted, identified, Identification.steps, List.cons_append, List.nil_append,
    List.cons.injEq] at heq
  rcases heq with ⟨_, hfind, hverify, _⟩
  cases hfind
  cases hverify
  rfl

/-- Where the socket was let in. -/
theorem LetIn.at {i : Identification} (h : LetIn calls l s i) : ∃ c t k, Presents (calls c) s i ∧
    (⟨c, t, .setTechnician s i.context, ()⟩ : Entry) :: k <:+ l ∧ own c k = identified s i := by
  rcases h with ⟨c, hpresents, newer, hnewer⟩
  rcases steps_at hnewer.symm with ⟨k, hk, hown⟩
  rcases step_at hown with ⟨t, k', hk', hrest⟩
  exact ⟨c, t, k', hpresents, hk'.trans hk, hrest⟩

/-- Where the identity is stored, the socket was let in. -/
theorem letIn_of_entry {i : Identification} {c : CallId} {t : Timestamp} {k : List Entry}
    (hpresents : Presents (calls c) s i) (hown : own c k = identified s i)
    (he : (⟨c, t, .setTechnician s i.context, ()⟩ : Entry) :: k <:+ l) : LetIn calls l s i := by
  refine ⟨c, hpresents, ?_⟩
  have hadmitted :
      own c ((⟨c, t, .setTechnician s i.context, ()⟩ : Entry) :: k) = admitted s i := by
    rw [own_self (e := ⟨c, t, .setTechnician s i.context, ()⟩) rfl, hown]
    rfl
  rw [← hadmitted]
  exact own_suffix he

/-- What is stored on a socket is the user it was let in as. -/
theorem stored_iff (h : History host jwt calls l) {context : TechnicianSocketContext} :
    (replay l).technician s = some context ↔ ∃ i, LetIn calls l s i ∧ context = i.context := by
  constructor
  · intro hstored
    rcases arose (P := fun k => (replay k).technician s = some context)
      (fun hnil => by cases hnil) hstored with ⟨⟨c, t, o, r⟩, k, he, hnot, hsince⟩
    rcases technician_effect (hsince _ List.suffix_rfl he) with hold | hset
    · exact absurd hold hnot
    · cases hset
      rcases h.orderly _ k he with ⟨i, hpresents, rfl, hown⟩
      exact ⟨i, letIn_of_entry hpresents hown he, rfl⟩
  · rintro ⟨i, hi, rfl⟩
    rcases hi.at with ⟨c, t, k, hpresents, hk, hown⟩
    have hbefore : History host jwt calls k := h.suffix ((List.suffix_cons _ k).trans hk)
    have hstored : Since (fun k => (replay k).technician s = some i.context)
        (⟨c, t, .setTechnician s i.context, ()⟩ :: k) l := by
      refine Since.of_kept ?_ hk (fun e k₂ hs he hk₂ => ?_)
      · rcases did_at (c := c) (hown ▸ mem_identified) with ⟨_, _, hopen⟩
        rcases there_of_open hbefore hopen rfl with ⟨a, ha⟩
        refine Option.bind_eq_some_iff.mpr ⟨_, socket_stays (h.enabled hk) ha, ?_⟩
        simp only [Socket.after, if_true]
      · -- It is not let in again.
        refine technician_stays (h.enabled he) hk₂ (fun context hset => ?_)
        have horder := h.orderly e k₂ he
        rw [hset] at horder
        rcases horder with ⟨j, _, _, hj⟩
        rcases letIn_of_entry hpresents hown hs with ⟨d, _, hd⟩
        have hsame : d = e.call := same_call (h.suffix ((List.suffix_cons e k₂).trans he))
          (hd.subset (List.mem_cons_of_mem _ mem_identified)) (hj ▸ mem_identified)
        rw [hsame, hj] at hd
        exact absurd hd.length_le
          (by simp only [admitted, List.length_cons, length_identified]; omega)
    exact hstored l hk List.suffix_rfl

/-! ## Phases -/

/-- A socket is in one phase. -/
theorem isIn_unique {st : State} {p q : Phase} (hp : st.isIn s p = true) (hq : st.isIn s q = true) :
    p = q := by
  rcases isIn_iff.mp hp with ⟨a, ha, rfl⟩
  rcases isIn_iff.mp hq with ⟨b, hb, rfl⟩
  rw [ha, Option.some.injEq] at hb
  rw [hb]

/-- The answer with which the middleware lets a socket go on. -/
theorem next_answer {c : CallId} {t : Timestamp} {b : Bool} {k : List Entry}
    (h : History host jwt calls l) (he : (⟨c, t, .next s, b⟩ : Entry) :: k <:+ l) :
    (replay k).isIn s .connecting = b := by
  rcases (h.fits _ k he).answered with ⟨env, hr⟩
  exact hr.symm

/-- Who has been let in is connected, or gone. It was connected when it was let
    in, and from then on it is so until it is closed. -/
theorem past_connecting (h : History host jwt calls l) {c : CallId}
    (hc : (⟨.next s, true⟩ : Step) ∈ own c l) :
    (replay l).isIn s .connected = true ∨ (replay l).isIn s .closed = true := by
  rcases did_at hc with ⟨t, k, hk⟩
  have hsince : Since (fun k => (replay k).isIn s .connected = true ∨
      (replay k).isIn s .closed = true) ((⟨c, t, .next s, true⟩ : Entry) :: k) l := by
    refine Since.of_kept (.inl ?_) hk (fun e k' _ he hk' => ?_)
    · -- The answer says that it was connecting; now it is connected.
      rcases isIn_iff.mp (next_answer h hk) with ⟨a, ha, hphase⟩
      refine isIn_iff.mpr ⟨_, socket_stays (h.enabled hk) ha, ?_⟩
      simp only [Socket.after, hphase, and_self, if_true]
    · -- Whatever happens next closes it or leaves it as it is.
      rcases hk' with hconnected | hclosed
      · by_cases hcloses : e.op.Closes s
        · rcases isIn_iff.mp hconnected with ⟨a, ha, _⟩
          refine .inr (isIn_iff.mpr ⟨_, socket_stays (h.enabled he) ha, ?_⟩)
          rcases phase_after e.op s a with ⟨_, hp⟩ | ⟨hno, _⟩ | ⟨hno, _⟩
          · exact hp
          · exact absurd hcloses hno
          · exact absurd hcloses hno
        · exact .inl (connected_stays (h.enabled he) hconnected hcloses)
      · exact .inr (closed_stays (h.enabled he) hclosed)
  exact hsince l hk List.suffix_rfl

/-- Who is connected was let in. Going back, it became connected at an entry
    before which it was not, and that entry is the answer of the middleware. -/
theorem next_of_connected (h : History host jwt calls l)
    (hs : (replay l).isIn s .connected = true) : ∃ c t k i, Presents (calls c) s i ∧
      (⟨c, t, .next s, true⟩ : Entry) :: k <:+ l ∧ own c k = admitted s i := by
  rcases arose (P := fun k => (replay k).isIn s .connected = true)
    (fun hnil => by cases hnil) hs with ⟨⟨c, t, o, r⟩, k, he, hnot, hsince⟩
  rcases (connected_effect (hsince _ List.suffix_rfl he)).2 with hold | ⟨hnext, hconnecting⟩
  · exact absurd hold hnot
  · cases hnext
    rcases h.orderly _ k he with ⟨i, hpresents, hown⟩
    have hr : r = true := (next_answer h he).symm.trans hconnecting
    rw [hr] at he
    exact ⟨c, t, k, i, hpresents, he, hown⟩

/-! ## Members -/

/-- What a socket is found to store when it enters its rooms is what it was let in
    with. It was read off the socket by the call that had been let in, and a
    socket is let in as one user. -/
theorem context_read (h : History host jwt calls l) {c : CallId} {i : Identification}
    (hpresents : Presents (calls c) s i) {context : TechnicianSocketContext}
    (hin : connected s i (some context) <:+ own c l) : context = i.context := by
  rcases hin with ⟨newer, hnewer⟩
  rcases steps_at hnewer.symm with ⟨k, hk, hown⟩
  rcases step_at hown with ⟨t, k', hk', hrest⟩
  have hbefore : History host jwt calls k' :=
    h.suffix (((List.suffix_cons _ k').trans hk').trans hk)
  rcases (h.fits _ k' (hk'.trans hk)).answered with ⟨env, hr⟩
  rcases (stored_iff hbefore).mp hr.symm with ⟨j, hj, rfl⟩
  have hi : LetIn calls k' s i := ⟨c, hpresents, hrest ▸ List.suffix_cons _ _⟩
  rw [hi.unique hbefore hj]

/-- The rooms that are entered are those of the user the socket was let in as. The
    order of the handler says what the call had done, and what it read off the
    socket is the user it was let in as. -/
theorem room_entered (h : History host jwt calls l) {e : Entry} {k : List Entry} {room : String}
    (he : e :: k <:+ l) (hop : e.op = .joinRoom s room) :
    ∃ i, LetIn calls k s i ∧ (⟨.next s, true⟩ : Step) ∈ own e.call k ∧
      (room = technicianRoom i.user.id ∨ (room = allTechniciansRoom ∧
        (⟨.joinRoom s (technicianRoom i.user.id), ()⟩ : Step) ∈ own e.call k)) := by
  have hbefore : History host jwt calls k := h.suffix ((List.suffix_cons e k).trans he)
  have horder := h.orderly e k he
  rw [hop] at horder
  rcases horder with ⟨i, context, hpresents, hrooms⟩
  have hin : connected s i (some context) <:+ own e.call k := by
    rcases hrooms with ⟨_, hown⟩ | ⟨_, hown⟩
    · rw [hown]
    · rw [hown]
      exact List.suffix_cons _ _
  rw [context_read hbefore hpresents hin] at hrooms
  refine ⟨i, ⟨e.call, hpresents, ?_⟩, hin.subset ?_, ?_⟩
  · exact ((List.suffix_cons _ _).trans (List.suffix_cons _ _)).trans hin
  · exact List.mem_cons_of_mem _ List.mem_cons_self
  · rcases hrooms with ⟨hroom, _⟩ | ⟨hroom, hown⟩
    · exact .inl hroom
    · exact .inr ⟨hroom, hown ▸ List.mem_cons_self⟩

/-- The members of a room are the connected sockets that have entered it. -/
theorem mem_rooms_iff (h : History host jwt calls l) {room : String} :
    s ∈ (replay l).rooms room ↔ (replay l).isIn s .connected = true ∧
      ∃ e ∈ l, e.op = .joinRoom s room := by
  induction l with
  | nil =>
      simp only [replay, State.init, List.not_mem_nil, false_and, exists_false, and_false]
  | cons e l ih =>
      have hbefore : History host jwt calls l := h.suffix (List.suffix_cons e l)
      have henabled := h.enabled (List.suffix_refl (e :: l))
      rw [replay, mem_rooms_effect (wellFormed hbefore.fits) room s, ih hbefore]
      constructor
      · rintro (⟨⟨hconnected, d, hd, hjoin⟩, hno⟩ | ⟨hjoin, hconnected⟩)
        · exact ⟨connected_stays henabled hconnected hno, d, List.mem_cons_of_mem e hd, hjoin⟩
        · refine ⟨connected_stays henabled hconnected ?_, e, List.mem_cons_self, hjoin⟩
          simp only [hjoin, Op.Closes, reduceCtorEq, or_self, not_false_eq_true]
      · rintro ⟨hafter, d, hd, hjoin⟩
        rcases connected_effect hafter with ⟨hno, hconnected | ⟨hnext, hconnecting⟩⟩
        · rcases List.mem_cons.mp hd with rfl | hd
          · exact .inr ⟨hjoin, hconnected⟩
          · exact .inl ⟨⟨hconnected, d, hd, hjoin⟩, hno⟩
        · -- Nobody has entered a room before being connected.
          rcases List.mem_cons.mp hd with rfl | hd
          · rw [hjoin] at hnext
            cases hnext
          · rcases exists_suffix hd with ⟨k, hk⟩
            rcases room_entered hbefore hk hjoin with ⟨_, _, hlet, _⟩
            have hpast := past_connecting hbefore
              ((own_suffix ((List.suffix_cons d k).trans hk)).subset hlet)
            rcases hpast with hp | hp
            · cases isIn_unique hp hconnecting
            · cases isIn_unique hp hconnecting

/-! ## Who hears an event -/

/-- The call that connects the socket has verified a token of its handshake as
    that of this user, after the socket came in. Then it has read the row of
    the user, and the row was that of an active administrator or technician. -/
structure Verified (jwt : Jwt) (l : List Entry) (c : CallId) (s : SocketId) (token : String)
    (userId : Uuid) (row : Accounts.User) : Prop where
  steps : ∃ t₀ k₀ t₁ k₁ t₂ k₂,
    (⟨c, t₂, .findOneBy userId, some (SelectedUser.ofRow row)⟩ : Entry) :: k₂ <:+ l ∧
    findById (replay k₂).users userId = some row ∧
    (⟨c, t₁, .verify token, some userId⟩ : Entry) :: k₁ <:+ k₂ ∧
    jwt.verify token t₁ = some userId ∧ (⟨c, t₀, .open s, ()⟩ : Entry) :: k₀ <:+ k₁
  active : row.isActive = true
  role : ∃ role ∈ TechniciansGateway.technicianSocketRoles, role ∈ row.roles

/-- The socket has shown a token of this user in its handshake, and the call that
    connects it has verified the token and read the row of the user. -/
def HasShown (jwt : Jwt) (calls : CallId → Operation) (l : List Entry) (s : SocketId)
    (userId : Uuid) : Prop :=
  ∃ c auth token row, calls c = .connect s auth ∧
    TechniciansGateway.extractToken auth = some token ∧ Verified jwt l c s token userId row

/-- The connection of the socket has gone through, as that of this user. -/
def Settled (calls : CallId → Operation) (l : List Entry) (s : SocketId) (userId : Uuid) : Prop :=
  ∃ c i, Presents (calls c) s i ∧ userId = i.user.id ∧
    (⟨.joinRoom s (technicianRoom userId), ()⟩ : Step) ∈ own c l ∧
    (⟨.joinRoom s allTechniciansRoom, ()⟩ : Step) ∈ own c l

/-- Whom the event is for. -/
def Addressed (op : Operation) (userId : Uuid) (message : Message) : Prop :=
  op = .emitToTechnician userId message ∨ op = .emitToAllTechnicians message

theorem LetIn.hasShown (h : History host jwt calls l) {i : Identification}
    (hi : LetIn calls l s i) : HasShown jwt calls l s i.user.id := by
  rcases hi.at with ⟨c, t, k, ⟨auth, hc, htoken, htechnician⟩, hk, hown⟩
  have hkl : k <:+ l := (List.suffix_cons _ k).trans hk
  -- The steps of the identification, the newest first.
  rcases step_at hown with ⟨tr, kr, hr, hrest⟩
  rcases step_at hrest with ⟨tv, kv, hv, hrest'⟩
  rcases step_at hrest' with ⟨t₀, ko, ho, _⟩
  rcases read_row (h.fits _ kr (hr.trans hkl)) with ⟨hid, row, hrow, huser⟩
  rcases (h.fits _ kv ((hv.trans ((List.suffix_cons _ kr).trans hr)).trans hkl)).answered with
    ⟨_, hverify⟩
  refine ⟨c, auth, i.token, row, hc, htoken,
    ⟨t₀, ko, tv, kv, tr, kr, ?_, ?_, ?_, ?_, ho⟩, ?_, ?_⟩
  · rw [hid, ← huser]
    exact hr.trans hkl
  · rw [hid]
    exact hrow
  · rw [hid]
    exact hv
  · rw [hid]
    exact hverify.symm
  · have hactive := i.active
    rw [huser] at hactive
    exact hactive
  · rw [huser] at htechnician
    simp only [TechniciansGateway.isTechnician, List.any_eq_true, decide_eq_true_eq] at htechnician
    rcases htechnician with ⟨role, hrole, hin⟩
    exact ⟨role, hin, hrole⟩

/-- An event goes into the room of whom it is for. -/
theorem room_of_event (h : History host jwt calls l) {e : Entry} {k : List Entry} {room : String}
    {message : Message} (he : e :: k <:+ l) (hop : e.op = .emit room message) (userId : Uuid) :
    Addressed (calls e.call) userId message ↔
      (room = technicianRoom userId ∨ room = allTechniciansRoom) := by
  have horder := h.orderly e k he
  rw [hop] at horder
  rcases horder with ⟨id, hc, rfl⟩ | ⟨hc, rfl⟩
  · simp only [Addressed, hc, Operation.emitToTechnician.injEq, and_true, reduceCtorEq, or_false,
      technicianRoom_ne]
    exact ⟨fun heq => by rw [heq], technicianRoom_inj⟩
  · simp only [Addressed, hc, reduceCtorEq, or_true]

/-- A connection begins with the socket coming in. -/
theorem Connection.opens {op : Operation} {auth : List (String × Json)} {tr : List Step}
    (h : Connection op s auth tr) : (⟨.open s, ()⟩ : Step) ∈ tr := by
  cases h with
  | refused tr hrejected => cases hrejected <;> simp only [List.mem_cons, true_or, or_true]
  | gone i _ => exact List.mem_append_right [_, _, _, _] (List.mem_singleton_self _)
  | stranger i _ => exact List.mem_append_right [_, _, _, _, _, _] (List.mem_singleton_self _)
  | joined i _ context =>
      exact List.mem_append_right [_, _, _, _, _, _, _] (List.mem_singleton_self _)

/-- A connection that is over has gone through, if the socket is connected. The
    call that connects a socket is the only one that lets it in, so it went the
    way of the handler on which the socket was let in and then found. -/
theorem settled_of_over (h : Reachable host jwt calls sys) {c : CallId}
    {auth : List (String × Json)} {reply : Reply} (hc : calls c = .connect s auth)
    (hret : sys.threads c = .ret reply)
    (hconnected : (replay sys.shared.log).isIn s .connected = true) :
    ∃ userId, Settled calls sys.shared.log s userId := by
  have hhistory := h.history
  have hend := returned h hret
  rw [hc] at hend
  change Connection _ s auth _ at hend
  rcases next_of_connected hhistory hconnected with ⟨d, t, k, j, _, hnext, hown⟩
  -- The call that has let the socket in is this one.
  have hsame : d = c := by
    refine same_call hhistory ?_ hend.opens
    refine (own_suffix ((List.suffix_cons _ k).trans hnext)).subset ?_
    rw [hown]
    exact List.mem_cons_of_mem _ mem_identified
  subst hsame
  -- The socket was let in, which rules out the ways on which it was not.
  have hlet : (⟨.next s, true⟩ : Step) ∈ own d sys.shared.log := did_of_mem (mem_of_suffix hnext)
  generalize htr : own d sys.shared.log = tr at hend
  cases hend with
  | refused tr' hrejected =>
      have hop : Op.next s ∈ (own d sys.shared.log).map Sigma.fst := List.mem_map_of_mem hlet
      rw [htr] at hop
      cases hrejected <;>
        simp only [List.map_cons, List.map_nil, List.mem_cons, reduceCtorEq, List.not_mem_nil,
          or_self] at hop
  | gone i _ =>
      rw [htr] at hlet
      rcases List.mem_cons.mp hlet with heq | hlet
      · cases heq
      · have hop : Op.next s ∈ (admitted s i).map Sigma.fst := List.mem_map_of_mem hlet
        simp only [admitted, identified, Identification.steps, List.cons_append, List.nil_append,
          List.map_cons, List.map_nil, List.mem_cons, reduceCtorEq, List.not_mem_nil,
          or_self] at hop
  | stranger i hpresents =>
      -- Something is stored on a socket that was let in.
      rcases step_at htr with ⟨_, k₁, hk₁, hrest⟩
      rcases step_at hrest with ⟨_, k₂, hk₂, hrest'⟩
      have hbefore : k₂ <:+ sys.shared.log :=
        (((List.suffix_cons _ k₂).trans hk₂).trans (List.suffix_cons _ k₁)).trans hk₁
      have hi : LetIn calls k₂ s i := ⟨d, hc ▸ hpresents, hrest' ▸ List.suffix_cons _ _⟩
      have hstored := (stored_iff (hhistory.suffix hbefore)).mpr ⟨i, hi, rfl⟩
      rcases (hhistory.fits _ k₂ (hk₂.trans ((List.suffix_cons _ k₁).trans hk₁))).answered with
        ⟨_, hnone⟩
      cases hnone.trans hstored
  | joined i hpresents context =>
      have hin : connected s i (some context) <:+ own d sys.shared.log :=
        htr ▸ (List.suffix_cons _ _).trans (List.suffix_cons _ _)
      have hcontext := context_read hhistory (hc ▸ hpresents) hin
      subst hcontext
      exact ⟨i.user.id, d, i, hc ▸ hpresents, rfl,
        htr ▸ List.mem_cons_of_mem _ List.mem_cons_self, htr ▸ List.mem_cons_self⟩

/-- Whoever hears an event has shown a token of somebody it is for, who was an
    active administrator or technician then, and is still connected. And every
    socket hears it that belongs to somebody it is for, is connected, and has gone
    through its connection, which every connected socket has whose connection is
    over. In the one direction a member of the room has entered it, and what it
    entered is the room of the user it has shown; in the other it has entered both
    rooms, and whoever is connected is still in them. -/
theorem heard_exactly (h : Reachable host jwt calls sys) :
    (∀ e k room message, e :: k <:+ sys.shared.log → e.op = .emit room message →
      (∀ s ∈ (replay k).rooms room, (replay k).isIn s .connected = true ∧
        ∃ userId, Addressed (calls e.call) userId message ∧ HasShown jwt calls k s userId) ∧
      ∀ s userId, Settled calls k s userId → (replay k).isIn s .connected = true →
        Addressed (calls e.call) userId message → s ∈ (replay k).rooms room) ∧
    ∀ c s auth reply, calls c = .connect s auth → sys.threads c = .ret reply →
      sys.shared.state.isIn s .connected = true →
      ∃ userId, Settled calls sys.shared.log s userId := by
  refine ⟨fun e k room message he hop => ⟨fun s hs => ?_, fun s userId hsettled hs hfor => ?_⟩,
    fun c s auth reply hc hret hs => ?_⟩
  · -- A socket that is in the room.
    have hbefore : History host jwt calls k := h.history.suffix ((List.suffix_cons e k).trans he)
    rcases (mem_rooms_iff hbefore).mp hs with ⟨hconnected, d, hd, hjoin⟩
    rcases exists_suffix hd with ⟨kd, hkd⟩
    rcases room_entered hbefore hkd hjoin with ⟨i, hi, _, hrooms⟩
    have hin : LetIn calls k s i := hi.mono ((List.suffix_cons d kd).trans hkd)
    refine ⟨hconnected, i.user.id, (room_of_event h.history he hop _).mpr ?_, hin.hasShown hbefore⟩
    exact hrooms.imp id And.left
  · -- A socket that has gone through its connection.
    have hbefore : History host jwt calls k := h.history.suffix ((List.suffix_cons e k).trans he)
    rcases hsettled with ⟨c, i, _, _, hpersonal, hall⟩
    refine (mem_rooms_iff hbefore).mpr ⟨hs, ?_⟩
    rcases (room_of_event h.history he hop userId).mp hfor with rfl | rfl
    · rcases did_at hpersonal with ⟨t, kj, hkj⟩
      exact ⟨_, mem_of_suffix hkj, rfl⟩
    · rcases did_at hall with ⟨t, kj, hkj⟩
      exact ⟨_, mem_of_suffix hkj, rfl⟩
  · -- A connection that is over.
    rw [(recorded h).1] at hs
    exact settled_of_over h hc hret hs

/-- In the office Leo hears of his session, and has shown his token. -/
theorem heard_exactly_office : ∃ sys e k, Reachable plainHost unaryJwt office sys ∧
    e :: k <:+ sys.shared.log ∧ e.op = .emit (technicianRoom 2) (.remoteSessionActive 7) ∧
    0 ∈ (replay k).rooms (technicianRoom 2) ∧ HasShown unaryJwt office k 0 2 := by
  have hrun : ((follow (exec plainHost unaryJwt) (boot plainHost office)
      (oneAfterTheOther.take 30)).any (fun sys => sys.shared.log.head?.any (fun e =>
        decide (e.call = 6 ∧ e.op = .emit (technicianRoom 2) (.remoteSessionActive 7) ∧
          0 ∈ (replay sys.shared.log.tail).rooms (technicianRoom 2))))) = true := by
    decide +kernel
  rw [Option.any_eq_true] at hrun
  rcases hrun with ⟨sys, hfollow, hrun⟩
  rw [Option.any_eq_true] at hrun
  rcases hrun with ⟨e, he, hp⟩
  rw [decide_eq_true_eq] at hp
  rcases hp with ⟨hcall, hop, hmember⟩
  have hreach : Reachable plainHost unaryJwt office sys := run_of_follow _ _ _ hfollow
  have hlog : e :: sys.shared.log.tail <:+ sys.shared.log := by
    rw [List.eq_cons_of_mem_head? he]
    exact List.suffix_rfl
  rcases ((heard_exactly hreach).1 e _ _ _ hlog hop).1 0 hmember with ⟨_, userId, hfor, hshown⟩
  have hc : office e.call = .emitToTechnician 2 (.remoteSessionActive 7) := by rw [hcall]; rfl
  rcases hfor with hfor | hfor
  · cases hc.symm.trans hfor
    exact ⟨sys, e, _, hreach, hlog, hop, hmember, hshown⟩
  · cases hc.symm.trans hfor

end RemoteControl.Technicians
