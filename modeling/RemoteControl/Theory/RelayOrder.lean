import RemoteControl.Theory.Confidentiality
import RemoteControl.Theory.SignalingAlone
import Mathlib.Algebra.Ring.Rat
import Mathlib.Data.Int.Cast.Basic

/-!
# The Order of What is Relayed

Every message is relayed by a handler of its own, which waits for the database
before it emits. So a message that came later may be emitted first, when its
query is answered first (`relay_reordered`). What the code keeps to is the
order in which the handlers finish: a message is acknowledged right after its
emission, without a wait in between, so the acknowledgements are in the order
of the emissions. A message that comes in when the one before was acknowledged
is emitted after it.

A message that was acknowledged as delivered was emitted once, and what was
emitted holds the fields of its payload as they came (`Carries`).

Everything is read off the history of the messages. A message that was to be
relayed has, right before its acknowledgement, exactly the entries of its
handler in their order (`acknowledged_at`), so its emission is the entry
before and there is no other one (`emits_once`). For the order of two messages
it is then enough that an entry of the one lies before an entry of the other
in the history (`emission_before_ack`): the emission of the first is before
its acknowledgement, and that of the second is after it was received.

## Main definitions

* `IsRelay`: A message of a socket that is to be relayed.
* `Carries`: What is relayed of a payload.
* `InOrderOfReceipt`: The order the messages came in.
* `RelayOrder`: What holds of the accepted messages of a socket.

## Theorems

* `emits_once`: A message emits once.
* `relay_order`: The relay keeps the order in which messages are acknowledged.
* `relay_reordered`: It does not keep the order in which they came.
-/

namespace RemoteControl.Signaling

open Concurrency Encoding

/-- The message comes from this socket and is to be relayed. -/
def IsRelay (op : Operation) (socket : SocketId) : Prop :=
  ∃ payload, op = .offer socket payload ∨ op = .answer socket payload ∨
    op = .iceCandidate socket payload

/-- A field that may be left out, as it is relayed. -/
def orNull {α : Type} (value : α → Json) : Option α → Json
  | none => .null
  | some a => value a

/-- The event and what is relayed under it: the fields of the payload, and null
    where one was left out. -/
def Carries (op : Operation) (sender : SignalingParticipant) (event : String) : Payload → Prop
  | .peerJoined _ => False
  | .sdp p => p.sender = sender ∧ ∃ socket fields,
    (op = .offer socket (.object fields) ∧ event = webrtcOfferEvent ∨
      op = .answer socket (.object fields) ∧ event = webrtcAnswerEvent) ∧
    field fields "remoteSessionId" = .string p.remoteSessionId ∧
    field fields "sdp" = .string p.sdp
  | .iceCandidate p => p.sender = sender ∧ ∃ socket fields,
    op = .iceCandidate socket (.object fields) ∧ event = webrtcIceCandidateEvent ∧
    field fields "remoteSessionId" = .string p.remoteSessionId ∧
    field fields "candidate" = .string p.candidate ∧
    field fields "sdpMid" = orNull .string p.sdpMid ∧
    field fields "sdpMLineIndex" = orNull (fun n : Nat => .number n) p.sdpMLineIndex

/-- The message was acknowledged as delivered. -/
def Acknowledges (m : MessageId) (e : Entry) : Prop :=
  ∃ id, e = entry m (.ack (.relay (.delivered id))) ()

/-- The entry is an emission of the message. -/
def Emits (m : MessageId) (e : Entry) : Prop := e.message = m ∧ e.op.isEmission = true

section Order

variable (messages : MessageId → Operation) (l : List Entry) (socket : SocketId)

/-- The accepted messages of the socket are emitted in the order they came. -/
def InOrderOfReceipt : Prop :=
  ∀ m m', IsRelay (messages m) socket → IsRelay (messages m') socket →
    (∃ e ∈ l, Acknowledges m e) → (∃ e ∈ l, Acknowledges m' e) →
    Before l (entry m (.receive socket) ()) (entry m' (.receive socket) ()) →
    ∀ e ∈ l, ∀ e' ∈ l, Emits m e → Emits m' e' → Before l e e'

/-- What holds of the accepted messages of the socket. -/
structure RelayOrder : Prop where
  once : ∀ m id, IsRelay (messages m) socket →
    entry m (.ack (.relay (.delivered id))) () ∈ l → ∃ a event relayed,
      (replay l).sockets socket = some a ∧ Carries (messages m) a.participant event relayed ∧
      relayed.remoteSessionId = id ∧ emissions (own m l) =
        [.emit (peerOf a.participant) (remoteSessionRoom id) event relayed]
  acknowledged : ∀ m m' a a' e e', IsRelay (messages m) socket → IsRelay (messages m') socket →
    Acknowledges m a → Acknowledges m' a' → Before l a a' →
    e ∈ l → e' ∈ l → Emits m e → Emits m' e' → Before l e e'
  received : ∀ m m' a e e', IsRelay (messages m) socket → IsRelay (messages m') socket →
    Acknowledges m a → Before l a (entry m' (.receive socket) ()) →
    e ∈ l → e' ∈ l → Emits m e → Emits m' e' → Before l e e'

end Order

/-! ## The fields -/

variable {v : Validator} {messages : MessageId → Operation} {P : Env → Prop} {l l' : List Entry}
  {m : MessageId} {tr : List Entry} {op : Operation} {socket : SocketId}

/-- A field that is copied is found among the copies as it was written. -/
theorem field_filter {skipped : String → Bool} {name : String} (h : skipped name = false)
    (fields : List (String × Json)) :
    field (fields.filter (fun f => !skipped f.1)) name = field fields name := by
  unfold field
  congr 1
  induction fields with
  | nil => rfl
  | cons f fields ih =>
      by_cases hf : skipped f.1 = true
      · -- A field that is skipped has another name.
        have hname : (name == f.1) = false := by
          rw [beq_eq_false_iff_ne]
          rintro rfl
          rw [h] at hf
          cases hf
        rw [List.filter_cons_of_neg (by simp [hf]), ih, List.lookup_cons, hname]
      · rw [List.filter_cons_of_pos (by simp [hf]), List.lookup_cons, List.lookup_cons, ih]

/-- The fields that pass are those of an object. A field whose name is declared
    holds what it held there. -/
theorem whitelisted_eq_some {names : List String} {payload : Json}
    {copied : List (String × Json)} (h : whitelisted v names payload = some copied) :
    ∃ fields, payload = .object fields ∧
      ∀ name ∈ declaredNames, field copied name = field fields name := by
  rcases Option.filter_eq_some_iff.mp h with ⟨hcopied, _⟩
  simp only [plainToInstance, Option.map_eq_some_iff] at hcopied
  rcases hcopied with ⟨fields, hfields, rfl⟩
  refine ⟨fields, ?_, fun name hname => field_filter (v.notSkipped name hname) fields⟩
  cases payload with
  | object fields' =>
      rw [Json.fields, Option.some.injEq] at hfields
      rw [hfields]
  | _ => cases hfields

/-- Only a string is read as one. -/
theorem asString_eq_some {value : Json} {s : String} (h : value.asString = some s) :
    value = .string s := by
  cases value with
  | string s' =>
      rw [Json.asString, Option.some.injEq] at h
      rw [h]
  | _ => cases h

/-- A field that is checked to be an identifier is relayed as it was written. -/
theorem uuid_eq_some {value : Json} {s : String} (h : v.uuid value = some s) :
    value = .string s :=
  asString_eq_some (Option.filter_eq_some_iff.mp h).1

/-- A field that is checked to be a text is relayed as it was written. -/
theorem text_eq_some {least greatest : Nat} {value : Json} {s : String}
    (h : v.text least greatest value = some s) : value = .string s :=
  asString_eq_some (Option.filter_eq_some_iff.mp h).1

/-- A number that is checked to be a natural one is relayed as it was written. A
    JSON number is rational, so this is where it matters that the check asks for a
    whole one. -/
theorem asIntWithin_eq_some {greatest : Nat} {value : Json} {n : Nat}
    (h : Json.asIntWithin 0 greatest value = some n) : value = .number n := by
  cases value with
  | number q =>
      simp only [Json.asIntWithin, Option.ite_none_right_eq_some, Option.some.injEq] at h
      rcases h with ⟨⟨hden, hleast, _⟩, rfl⟩
      -- A number with denominator one is its numerator.
      have hnum : ((q.num.toNat : ℕ) : ℚ) = q := by
        rw [← Int.cast_natCast, Int.toNat_of_nonneg (by omega)]
        exact Rat.coe_int_num_of_den_eq_one hden
      rw [hnum]
  | _ => cases h

/-- A field that may be left out is relayed as it was written, or as null. A field
    that is written as null counts as left out. -/
theorem isOptional_eq_some {α : Type} {check : Json → Option α} {json : α → Json} {value : Json}
    {a : Option α} (hcheck : ∀ {value a}, check value = some a → value = json a)
    (h : isOptional check value = some a) : value = orNull json a := by
  cases value
  case null =>
    rw [isOptional, Option.some.injEq] at h
    rw [← h, orNull]
  all_goals
    simp only [isOptional, Option.map_eq_some_iff] at h
    rcases h with ⟨b, hb, rfl⟩
    exact hcheck hb

/-- What an offer or an answer that was accepted held: both its fields, as
    strings. -/
theorem sdp_eq_some {payload : Json} {dto : WebrtcSdpDto}
    (h : (whitelisted v WebrtcSdpDto.names payload).bind (WebrtcSdpDto.ofFields v) = some dto) :
    ∃ fields, payload = .object fields ∧
      field fields "remoteSessionId" = .string dto.remoteSessionId ∧
      field fields "sdp" = .string dto.sdp := by
  rcases Option.bind_eq_some_iff.mp h with ⟨copied, hcopied, hchecked⟩
  rcases whitelisted_eq_some hcopied with ⟨fields, hobject, hsame⟩
  simp only [WebrtcSdpDto.ofFields, Option.bind_eq_bind, Option.bind_eq_some_iff, Option.pure_def,
    Option.some.injEq, hsame "remoteSessionId" (by decide), hsame "sdp" (by decide)] at hchecked
  rcases hchecked with ⟨id, hid, sdp, hsdp, rfl⟩
  exact ⟨fields, hobject, uuid_eq_some hid, text_eq_some hsdp⟩

/-- What is relayed carries the fields of the payload. Each of the three is
    accepted by its own class of fields, and each field that passes its check is
    the one that came. -/
theorem carries_of_relayOf {event : String} {relayed : SignalingParticipant → Payload}
    (h : relayOf v op = some (socket, event, relayed)) (p : SignalingParticipant) :
    Carries op p event (relayed p) := by
  cases op
  case offer =>
    simp only [relayOf, Option.map_eq_some_iff, Prod.mk.injEq] at h
    rcases h with ⟨dto, hdto, rfl, rfl, rfl⟩
    rcases sdp_eq_some hdto with ⟨fields, rfl, hid, hsdp⟩
    exact ⟨rfl, _, fields, .inl ⟨rfl, rfl⟩, hid, hsdp⟩
  case answer =>
    simp only [relayOf, Option.map_eq_some_iff, Prod.mk.injEq] at h
    rcases h with ⟨dto, hdto, rfl, rfl, rfl⟩
    rcases sdp_eq_some hdto with ⟨fields, rfl, hid, hsdp⟩
    exact ⟨rfl, _, fields, .inr ⟨rfl, rfl⟩, hid, hsdp⟩
  case iceCandidate =>
    simp only [relayOf, Option.map_eq_some_iff, Prod.mk.injEq] at h
    rcases h with ⟨dto, hdto, rfl, rfl, rfl⟩
    rcases Option.bind_eq_some_iff.mp hdto with ⟨copied, hcopied, hchecked⟩
    rcases whitelisted_eq_some hcopied with ⟨fields, rfl, hsame⟩
    simp only [WebrtcIceCandidateDto.ofFields, Option.bind_eq_bind, Option.bind_eq_some_iff,
      Option.pure_def, Option.some.injEq, hsame "remoteSessionId" (by decide),
      hsame "candidate" (by decide), hsame "sdpMid" (by decide),
      hsame "sdpMLineIndex" (by decide)] at hchecked
    rcases hchecked with ⟨id, hid, candidate, hcandidate, sdpMid, hsdpMid, sdpMLineIndex,
      hsdpMLineIndex, rfl⟩
    exact ⟨rfl, _, fields, rfl, rfl, uuid_eq_some hid, text_eq_some hcandidate,
      isOptional_eq_some text_eq_some hsdpMid, isOptional_eq_some asIntWithin_eq_some
      hsdpMLineIndex⟩
  all_goals cases h

/-! ## Emissions -/

/-- A quiet entry is no emission. -/
theorem emission_loud {d : Entry} (h : d.op.isQuiet = true) : d.op.isEmission = false := by
  cases hop : d.op
  case emit =>
    rw [hop] at h
    cases h
  all_goals rfl

/-- Before a message emits, it has neither emitted anything nor was it answered.
    The emission is either the announcement of a join, whose handler is silent up
    to there, or the one of a relay, which has only been received and has asked
    the database. -/
theorem unspoken_before {d : Entry} {ld : List Entry} (ho : Orderly v messages l)
    (hd : d :: ld <:+ l) (hop : d.op.isEmission = true) :
    ∀ d' ∈ own d.message ld, d'.op.isEmission = false ∧ ∀ r, d'.op ≠ .ack r := by
  have hin := ho d ld hd
  -- Only one kind of operation emits.
  have hemit : ∃ p room event payload, d.op = .emit p room event payload := by
    cases hd' : d.op
    case emit p room event payload => exact ⟨p, room, event, payload, rfl⟩
    all_goals
      rw [hd'] at hop
      cases hop
  rcases hemit with ⟨p, room, event, payload, hemit⟩
  rw [hemit] at hin
  intro d' hd'
  rcases hin with hannounce | hrelay
  · -- The announcement: before it the message was silent, and it asks for the room
    -- first.
    rcases hannounce with ⟨_, _, _, identity, _, before, _, _, hsettled, htr, _⟩
    rw [htr] at hd'
    rcases List.mem_cons.mp hd' with rfl | hd'
    · exact ⟨rfl, fun _ => Op.noConfusion⟩
    · rcases hsettled.unspoken hd' with ⟨hsilent, hanswer⟩
      refine ⟨?_, hanswer⟩
      cases hop' : d'.op
      case emit => exact absurd hop' (hsilent _ _ _ _)
      all_goals rfl
  · -- The relay: the entries before are those of its clearance, all of them quiet.
    rcases hrelay with ⟨_, _, _, _, _, hcleared, _⟩
    have hsilent : Silent (own d.message ld) := by
      rw [hcleared]
      exact .cons rfl (.cons rfl (.cons rfl received_silent))
    have hquiet := hsilent d' hd'
    refine ⟨emission_loud hquiet, fun r hack => ?_⟩
    rw [hack] at hquiet
    cases hquiet

/-- A message emits once. -/
theorem emits_once {e e' : Entry} {l₁ l₂ : List Entry} (ho : Orderly v messages l)
    (h₁ : e :: l₁ <:+ l) (h₂ : e' :: l₂ <:+ l) (he : Emits m e) (he' : Emits m e') :
    e :: l₁ = e' :: l₂ := by
  have hm : e.message = e'.message := he.1.trans he'.1.symm
  refine marksOf_unique (K := fun d => d.op.isEmission = true) ?_ h₁ h₂ he.2 he'.2 hm
  intro d ld hd hop d' hd' hop'
  rw [((unspoken_before ho hd hop) d' hd').1] at hop'
  cases hop'

/-- What a message that was to be relayed has done right before it was
    answered. -/
theorem acknowledged_at {la : List Entry} {r : Response} (ho : Orderly v messages l)
    (hm : IsRelay (messages m) socket) (hla : entry m (.ack r) () :: la <:+ l) :
    MayAcknowledge v (messages m) m (own m la) socket r := by
  have hanswer : MayAnswer v (messages m) m (own m la) r := ho _ la hla
  rcases hm with ⟨payload, hop | hop | hop⟩
  all_goals
    rw [hop] at hanswer ⊢
    exact hanswer

/-- What a message that is acknowledged as delivered has done: its clearance, and
    the emission right after it. -/
theorem delivered_at {la : List Entry} {id : String} (ho : Orderly v messages l)
    (hm : IsRelay (messages m) socket)
    (hla : entry m (.ack (.relay (.delivered id))) () :: la <:+ l) :
    Delivered v (messages m) m (own m la) id := by
  rcases acknowledged_at ho hm hla with ⟨id', hid, hdelivered⟩ | ⟨error, herror, _⟩
  · cases hid
    exact hdelivered
  · cases herror

/-- The emission of an accepted message is before its acknowledgement. -/
theorem emitted_before {la : List Entry} {id : String} (ho : Orderly v messages l)
    (hm : IsRelay (messages m) socket)
    (hla : entry m (.ack (.relay (.delivered id))) () :: la <:+ l) :
    ∃ g lg, g :: lg <:+ la ∧ Emits m g := by
  rcases delivered_at ho hm hla with ⟨_, _, _, _, _, before, _, _, _, htr⟩
  rcases marksOf_cons htr with ⟨lg, hlg, _⟩
  exact ⟨_, lg, hlg, rfl, rfl⟩

/-- An emission is before every acknowledgement of its message. The
    acknowledgement has an emission before it, and a message has only one. -/
theorem emission_before_ack {e a : Entry} {older : List Entry} (ho : Orderly v messages l)
    (hm : IsRelay (messages m) socket) (hacks : Acknowledges m a) (holder : older <:+ l)
    (ha : a ∈ older) (he : e ∈ l) (hemits : Emits m e) : e ∈ older := by
  rcases hacks with ⟨id, rfl⟩
  rcases exists_suffix ha with ⟨la, hla⟩
  rcases exists_suffix he with ⟨le, hle⟩
  rcases emitted_before ho hm (hla.trans holder) with ⟨g, lg, hg, hgemits⟩
  have hbefore : la <:+ older := (List.suffix_cons _ la).trans hla
  have hsame := emits_once ho hle ((hg.trans hbefore).trans holder) hemits hgemits
  rw [List.cons.injEq] at hsame
  rw [hsame.1]
  exact hbefore.subset (mem_of_suffix hg)

/-- The emissions of a history, part by part. -/
theorem emissions_append {newer older : List Entry} :
    emissions (newer ++ older) = emissions newer ++ emissions older := by
  simp only [emissions, List.map_append, List.filter_append]

/-- A history without an emission emits nothing. -/
theorem emissions_eq_nil {es : List Entry} (h : ∀ d ∈ es, d.op.isEmission = false) :
    emissions es = [] := by
  refine List.filter_eq_nil_iff.mpr (fun o ho => ?_)
  rcases List.mem_map.mp ho with ⟨d, hd, rfl⟩
  rw [h d hd]
  exact Bool.false_ne_true

/-- All that a message has emitted is what it has emitted once. -/
theorem emissions_own {g : Entry} {newer before : List Entry} (ho : Orderly v messages l)
    (htr : own m l = newer ++ g :: before) (hg : g.op.isEmission = true) :
    emissions (own m l) = [g.op] := by
  have hbefore : ∀ d ∈ before, d.op.isEmission = false := by
    rcases marksOf_at htr with ⟨lg, hlg, hmarks⟩
    have hgm : g.message = m := (mem_marksOf.mp (htr ▸ List.mem_append_right newer
      List.mem_cons_self : g ∈ own m l)).2
    intro d hd
    rw [← hmarks, ← hgm] at hd
    exact ((unspoken_before ho hlg hg) d hd).1
  have hnewer : ∀ d ∈ newer, d.op.isEmission = false := by
    intro d hd
    by_contra hloud
    rw [Bool.not_eq_false] at hloud
    rcases List.append_of_mem hd with ⟨n₁, n₂, rfl⟩
    rw [List.append_assoc, List.cons_append] at htr
    rcases marksOf_at htr with ⟨ld, hld, hmarks⟩
    have hdm : d.message = m := (mem_marksOf.mp (htr ▸ List.mem_append_right n₁
      List.mem_cons_self : d ∈ own m l)).2
    -- It would have emitted before this one.
    have hmem : g ∈ own d.message ld := by
      rw [own, hdm, hmarks]
      exact List.mem_append_right n₂ List.mem_cons_self
    rw [((unspoken_before ho hld hloud) g hmem).1] at hg
    cases hg
  rw [htr, emissions_append, emissions_eq_nil hnewer, List.nil_append]
  have hnone := emissions_eq_nil hbefore
  simp only [emissions] at hnone ⊢
  rw [List.map_cons, List.filter_cons_of_pos hg, hnone]

/-- What a message relays, it relays for the socket that it came from. -/
theorem relay_socket {socket' : SocketId} {event : String}
    {relayed : SignalingParticipant → Payload} (hm : IsRelay op socket)
    (h : relayOf v op = some (socket', event, relayed)) : socket' = socket := by
  rcases hm with ⟨payload, rfl | rfl | rfl⟩
  all_goals
    simp only [relayOf, Option.map_eq_some_iff, Prod.mk.injEq] at h
    rcases h with ⟨_, _, rfl, _⟩
    rfl

/-- An accepted message was emitted once, to the peer's room, with its fields. The
    participant is that of the socket, which keeps its identity from the message
    on. -/
theorem delivered_once {id : String} (ha : Answered P l) (ho : Orderly v messages l)
    (hm : IsRelay (messages m) socket) (hack : entry m (.ack (.relay (.delivered id))) () ∈ l) :
    ∃ a event relayed, (replay l).sockets socket = some a ∧
      Carries (messages m) a.participant event relayed ∧ relayed.remoteSessionId = id ∧
      emissions (own m l) =
        [.emit (peerOf a.participant) (remoteSessionRoom id) event relayed] := by
  rcases exists_suffix hack with ⟨la, hla⟩
  have hbefore : la <:+ l := (List.suffix_cons _ la).trans hla
  rcases delivered_at ho hm hla with ⟨socket', event, relayed, identity, row, before, hrelay, hid,
    hcleared, htr⟩
  -- The handler works for the socket of the message.
  have hsocket := relay_socket hm hrelay
  subst hsocket
  have hsuffix : own m la <:+ own m l := marksOf_suffix hbefore
  rcases hsuffix with ⟨newer, hnewer⟩
  have hown : own m l = newer ++ entry m (.emit (peerOf identity.participant)
      (remoteSessionRoom id) event (relayed identity.participant)) () :: before := by
    rw [← htr]
    exact hnewer.symm
  have hemitted := emissions_own ho hown rfl
  rw [hcleared] at htr
  have hlast : own m la = [entry m (.emit (peerOf identity.participant) (remoteSessionRoom id) event
      (relayed identity.participant)) (), entry m (.isBound (peerOf identity.participant)) true,
      entry m (.findJoinable id identity) (some row),
      entry m (.remoteSessionId socket') (some id)] ++ received m socket' identity := htr
  -- The message was received while the socket had this identity, and the socket has it
  -- still.
  rcases marksOf_append hlast with ⟨lo, hlo, hreceived⟩
  rcases received_at (ha.suffix (hlo.trans hbefore)) hreceived with ⟨_, a, _, _, hs, hp, _⟩
  rcases (ha.later (hlo.trans hbefore)).sockets _ a hs with ⟨b, hb, hbp, _⟩
  have hside : b.participant = identity.participant := hbp.trans hp
  refine ⟨b, event, relayed b.participant, hb, carries_of_relayOf hrelay _, ?_, ?_⟩
  · rw [hside]
    exact hid
  · rw [hside]
    exact hemitted

/-! ## The order -/

/-- An accepted message was acknowledged right after its emission. -/
theorem acknowledged_order {m' : MessageId} {a a' e e' : Entry} (ho : Orderly v messages l)
    (hb : Contiguous Leaves InSegment l) (hm : IsRelay (messages m) socket)
    (ha : Acknowledges m a) (ha' : Acknowledges m' a') (hbefore : Before l a a') (he : e ∈ l)
    (he' : e' ∈ l) (hemits : Emits m e) (hemits' : Emits m' e') : Before l e e' := by
  rcases hbefore with ⟨la', hla', hin⟩
  rcases ha' with ⟨id', rfl⟩
  have hlast : la' <:+ l := (List.suffix_cons _ la').trans hla'
  rcases Contiguous.inSegment hb hla' with ⟨seg, older, hseg, hsegment⟩
  rcases hsegment with ⟨p, event, payload, seg', rfl⟩
  rw [List.cons_append] at hseg
  rcases exists_suffix he' with ⟨le', hle'⟩
  have hsuffix :
      entry m' (.emit p (remoteSessionRoom id') event payload) () :: (seg' ++ older) <:+ l :=
    hseg ▸ hlast
  have hsame := emits_once ho hle' hsuffix hemits' ⟨rfl, rfl⟩
  rw [List.cons.injEq] at hsame
  refine ⟨le', hle', ?_⟩
  -- What was acknowledged before the emission was emitted before it.
  have hacknowledged : a ∈ le' := by
    rw [hseg] at hin
    rcases List.mem_cons.mp hin with heq | hin
    · rcases ha with ⟨id, hack⟩
      have hop := congrArg Entry.op (heq.symm.trans hack)
      cases hop
    · rw [hsame.2]
      exact hin
  exact emission_before_ack ho hm ha ((List.suffix_cons e' le').trans hle') hacknowledged he hemits

/-- A message that came in after another was acknowledged is emitted after it. The
    second had not come in when the first was acknowledged, so all it has emitted
    is later. -/
theorem received_order {m' : MessageId} {a e e' : Entry} (ho : Orderly v messages l)
    (hm : IsRelay (messages m) socket) (ha : Acknowledges m a)
    (hbefore : Before l a (entry m' (.receive socket) ())) (he : e ∈ l) (he' : e' ∈ l)
    (hemits : Emits m e) (hemits' : Emits m' e') : Before l e e' := by
  rcases hbefore with ⟨lr, hlr, hin⟩
  rcases exists_suffix he' with ⟨le', hle'⟩
  have hlast : lr <:+ l := (List.suffix_cons _ lr).trans hlr
  refine ⟨le', hle', ?_⟩
  have hreceived := after_receive ho hlr hle' hemits'.1 (fun s hop => by
    rw [Emits, hop] at hemits'
    exact Bool.false_ne_true hemits'.2)
  have hemitted := emission_before_ack ho hm ha hlast hin he hemits
  exact ((List.suffix_cons _ lr).trans hreceived).subset hemitted

/-- The relay keeps the order in which the messages are acknowledged, and so
    the order of those that come one after the other. -/
theorem relay_order {sys : Messages} (h : Reachable v messages sys) (socket : SocketId) :
    RelayOrder messages sys.shared.log socket where
  once := fun _ _ hm hack => delivered_once h.recorded.answered (orderly h) hm hack
  acknowledged := fun _ _ _ _ _ _ hm _ ha ha' hbefore he he' hemits hemits' =>
    acknowledged_order (orderly h) (contiguous h) hm ha ha' hbefore he he' hemits hemits'
  received := fun _ _ _ _ _ hm _ ha hbefore he he' hemits hemits' =>
    received_order (orderly h) hm ha hbefore he he' hemits hemits'

/-! ## Two messages that overlap -/

/-- The entry at this place of the history. -/
def stands (l : List Entry) (n : Nat) (m : MessageId) (o : Op) : Bool :=
  (l.drop n).head?.any (fun d => decide (d.message = m) && decide (d.op = o))

/-- What the check finds at a place is an entry of the history, with the older
    ones behind it. -/
theorem stands_sound {n : Nat} {o : Op} (h : stands l n m o = true) :
    ∃ r, entry m o r :: l.drop (n + 1) <:+ l := by
  rcases (Option.any_eq_true ..).mp h with ⟨d, hd, hboth⟩
  simp only [Bool.and_eq_true, decide_eq_true_eq] at hboth
  rcases List.head?_eq_some_iff.mp hd with ⟨lt, hlt⟩
  have hrest : l.drop (n + 1) = lt := by
    rw [← List.drop_drop, hlt, List.drop_succ_cons, List.drop_zero]
  rcases d with ⟨m', o', r⟩
  rcases hboth with ⟨rfl, rfl⟩
  refine ⟨r, ?_⟩
  rw [hrest]
  exact hlt ▸ List.drop_suffix n l

/-- The payload of a candidate without the two optional fields. -/
def candidatePayload : Json :=
  .object [("remoteSessionId", .string sessionId), ("candidate", .string "candidate:1")]

/-- The technician sends an offer and then a candidate. -/
def negotiating : MessageId → Operation
  | 9 => .offer 20 offerPayload
  | 10 => .iceCandidate 20 candidatePayload
  | m => reload m

/-- The offer waits for the database while the candidate is relayed. -/
def overtaking : List (MessageId × Env) :=
  meeting ++ taking 9 1 ++ taking 10 4 ++ taking 9 3

/-- In the run in which the candidate overtakes the offer, it was emitted once and
    with its fields. -/
theorem relay_order_candidate : ∃ sys, Reachable lenient negotiating sys ∧ ∃ a event relayed,
    sys.shared.state.sockets 20 = some a ∧
    Carries (.iceCandidate 20 candidatePayload) a.participant event relayed ∧
    emissions (own 10 sys.shared.log) =
      [.emit (peerOf a.participant) (remoteSessionRoom sessionId) event relayed] := by
  have hrun : ((follow exec (boot lenient negotiating) overtaking).any (fun sys =>
      stands sys.shared.log 5 10 (.ack (.relay (.delivered sessionId))))) = true := by
    decide +kernel
  rcases reachable_of_taking hrun with ⟨sys, hsys, hp⟩
  rcases stands_sound hp with ⟨_, hack⟩
  rcases (relay_order hsys 20).once 10 sessionId ⟨candidatePayload, .inr (.inr rfl)⟩
    (mem_of_suffix hack) with ⟨a, event, relayed, hs, hcarries, _, hemitted⟩
  rw [← hsys.recorded.state] at hs
  exact ⟨sys, hsys, a, event, relayed, hs, hcarries, hemitted⟩

/-- The candidate came later and is emitted first. -/
theorem relay_reordered : ∃ sys, Reachable lenient negotiating sys ∧
    20 ∈ sys.shared.state.rooms .technician (remoteSessionRoom sessionId) ∧
    ¬ InOrderOfReceipt negotiating sys.shared.log 20 := by
  have hrun : ((follow exec (boot lenient negotiating) overtaking).any (fun sys =>
      decide (20 ∈ sys.shared.state.rooms .technician (remoteSessionRoom sessionId)) &&
      stands sys.shared.log 0 9 (.ack (.relay (.delivered sessionId))) &&
      stands sys.shared.log 1 9 (.emit .device (remoteSessionRoom sessionId) webrtcOfferEvent
        (.sdp ⟨sessionId, .technician, "v=0"⟩)) &&
      stands sys.shared.log 5 10 (.ack (.relay (.delivered sessionId))) &&
      stands sys.shared.log 6 10 (.emit .device (remoteSessionRoom sessionId)
        webrtcIceCandidateEvent
          (.iceCandidate ⟨sessionId, .technician, "candidate:1", none, none⟩)) &&
      stands sys.shared.log 11 10 (.receive 20) &&
      stands (sys.shared.log.drop 12) 1 9 (.receive 20) &&
      (sys.shared.log.drop 7).all (fun d =>
        decide (d.message ≠ 9) || !d.op.isEmission))) = true := by
    decide +kernel
  rcases reachable_of_taking hrun with ⟨sys, hsys, hp⟩
  simp only [Bool.and_eq_true, decide_eq_true_eq] at hp
  rcases hp with ⟨⟨⟨⟨⟨⟨⟨hin, hack⟩, hemit⟩, hack'⟩, hemit'⟩, hcame'⟩, hcame⟩, hnone⟩
  rcases stands_sound hack with ⟨_, hack⟩
  rcases stands_sound hemit with ⟨_, hemit⟩
  rcases stands_sound hack' with ⟨_, hack'⟩
  rcases stands_sound hemit' with ⟨_, hemit'⟩
  rcases stands_sound hcame' with ⟨_, hcame'⟩
  rcases stands_sound hcame with ⟨_, hcame⟩
  -- In the order of receipt, the emission of the offer would be older than that of the
  -- candidate.
  refine ⟨sys, hsys, hin, fun hordered => ?_⟩
  rcases hordered 9 10 ⟨offerPayload, .inl rfl⟩ ⟨candidatePayload, .inr (.inr rfl)⟩
    ⟨_, mem_of_suffix hack, sessionId, rfl⟩ ⟨_, mem_of_suffix hack', sessionId, rfl⟩
    ⟨_, hcame', mem_of_suffix hcame⟩ _ (mem_of_suffix hemit) _ (mem_of_suffix hemit')
    ⟨rfl, rfl⟩ ⟨rfl, rfl⟩ with
    ⟨older, holder, hmem⟩
  -- That of the candidate is here, and older than it the offer has emitted nothing.
  have hsame := emits_once (orderly hsys) holder hemit' ⟨rfl, rfl⟩ ⟨rfl, rfl⟩
  rw [List.cons.injEq] at hsame
  rw [hsame.2] at hmem
  have hbad := (List.all_eq_true.mp hnone) _ hmem
  cases hbad

end RemoteControl.Signaling
