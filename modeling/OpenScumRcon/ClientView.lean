import OpenScumRcon.RequestLimit
import OpenScumRcon.ResponsePackets
import OpenScumRcon.SendableRuns

/-!
# What a client receives

A client reads the packets of the bytes that it receives. They are the reply to its first packet
and then, for each of the answers in order, the packets of the answer. A client that gives each of
its requests an id of its own, and collects the payloads of the packets with an id, has the text
of the answer to the request.
-/

namespace OpenScumRcon

open Protocol

/-! ### The packets of a prefix -/

theorem packetsOf_frame_append {frame : Bytes} {packet : Packet} (h : IsFrame frame packet)
    (rest : Bytes) :
  packetsOf (frame ++ rest) = packet :: packetsOf rest
  := packetsOf_of_some (nextFrame_frame h rest)

theorem Frames.append {used used' : Bytes} {packets packets' : List Packet}
    (h : Frames used packets) (h' : Frames used' packets') :
  Frames (used ++ used') (packets ++ packets')
  := by
  induction h with
  | nil => apply h'
  | cons hframe _ ih =>
      rw [List.append_assoc, List.cons_append]
      apply Frames.cons hframe ih

theorem Frames.packetsOf_append {used : Bytes} {packets : List Packet} (h : Frames used packets)
    (rest : Bytes) :
  packetsOf (used ++ rest) = packets ++ packetsOf rest
  := by
  induction h with
  | nil => rfl
  | cons hframe _ ih =>
      rw [List.append_assoc, packetsOf_frame_append hframe, ih, List.cons_append]

/-- Whoever has not received all yet has not received other packets. -/
theorem packetsOf_isPrefix {received stream : Bytes} (h : received <+: stream) :
  packetsOf received <+: packetsOf stream
  := by
  obtain ⟨rest, rfl⟩ := h
  obtain ⟨used, left, hreceived, hused, -⟩ := exists_frames received
  have happend := hused.packetsOf_append (left ++ rest)
  rw [← List.append_assoc, ← hreceived] at happend
  rw [happend]
  apply List.prefix_append

theorem Frames.packetsOf_eq {stream : Bytes} {packets : List Packet} (h : Frames stream packets) :
  packetsOf stream = packets
  := by
  have happend := h.packetsOf_append []
  have hempty : packetsOf [] = [] := packetsOf_of_none rfl
  rw [List.append_nil, hempty, List.append_nil] at happend
  apply happend

/-! ### The packets of an answer -/

/-- The reply to the first packet of a client, with the id of the request, or `-1`. -/
def authPacket (requestId : Int32) : Packet where
  requestId
  type := serverdataAuthResponse
  payload := []

def answerPackets (a : Answer) : List Packet :=
  (responsePayloads a.text).map fun payload =>
    { requestId := a.packet.requestId, type := serverdataResponseValue, payload }

/-- What a client puts together for an id. -/
def textFor (requestId : Int32) (packets : List Packet) : Bytes :=
  (packets.filter fun packet =>
    packet.requestId = requestId && packet.type = serverdataResponseValue).flatMap Packet.payload

theorem frames_authPacket (requestId : Int32) :
  Frames (encodePacket requestId serverdataAuthResponse []) [authPacket requestId]
  := by
  have hframe : IsFrame (encodePacket requestId serverdataAuthResponse [])
      (authPacket requestId) := by
    have hnul : Byte.nul ∉ (authPacket requestId).payload := by
      simp [authPacket]
    apply isFrame_encodePacket hnul (Nat.zero_le _)
  rw [← List.append_nil (encodePacket _ _ _)]
  apply Frames.cons hframe Frames.nil

/-- No payload of a text without NUL has a NUL in it. -/
theorem nul_not_mem_responsePayloads {text payload : Bytes} (htext : Byte.nul ∉ text)
    (h : payload ∈ responsePayloads text) :
  Byte.nul ∉ payload
  := by
  intro hnul
  apply htext
  rw [← flatten_responsePayloads text]
  apply List.mem_flatten.mpr
  use payload, h

/-- The packets of an answer are whole frames. -/
theorem frames_answerPackets {a : Answer} (h : Byte.nul ∉ a.text) :
  Frames (encodeResponse a.packet.requestId a.text).flatten (answerPackets a)
  := by
  have hpayloads : ∀ payloads : List Bytes, (∀ payload ∈ payloads,
      Byte.nul ∉ payload ∧ payload.length ≤ maxResponseChunk) →
      Frames (payloads.map (encodePacket a.packet.requestId serverdataResponseValue)).flatten
        (payloads.map fun payload =>
          { requestId := a.packet.requestId, type := serverdataResponseValue, payload }) := by
    intro payloads hpayloads
    induction payloads with
    | nil => apply Frames.nil
    | cons payload payloads ih =>
        rw [List.forall_mem_cons] at hpayloads
        obtain ⟨⟨hnul, hlength⟩, hrest⟩ := hpayloads
        have hmax : payload.length ≤ maxFramedText := Nat.le_trans hlength (by decide)
        apply Frames.cons _ (ih hrest)
        have hframe := @isFrame_encodePacket
          ⟨a.packet.requestId, serverdataResponseValue, payload⟩ hnul hmax
        apply hframe
  rw [encodeResponse_eq]
  apply hpayloads
  intro payload hpayload
  use nul_not_mem_responsePayloads h hpayload
  apply length_le_of_mem_responsePayloads hpayload

/-- The packets of the answers one behind the other are whole frames. -/
theorem frames_answers {answers : List Answer} (h : ∀ a ∈ answers, Byte.nul ∉ a.text) :
  Frames (answers.flatMap fun a => (encodeResponse a.packet.requestId a.text).flatten)
    (answers.flatMap answerPackets)
  := by
  induction answers with
  | nil => apply Frames.nil
  | cons a answers ih =>
      rw [List.forall_mem_cons] at h
      rw [List.flatMap_cons, List.flatMap_cons]
      apply (frames_answerPackets h.1).append (ih h.2)

/-! ### Putting the packets together -/

theorem textFor_cons_authPacket (requestId id : Int32) (packets : List Packet) :
  textFor requestId (authPacket id :: packets) = textFor requestId packets
  := by
  have htype : serverdataAuthResponse ≠ serverdataResponseValue := by decide
  rw [textFor, List.filter_cons_of_neg]
  · rfl
  · simp [authPacket, htype]

theorem textFor_append (requestId : Int32) (packets packets' : List Packet) :
  textFor requestId (packets ++ packets') = textFor requestId packets ++ textFor requestId packets'
  := by
  rw [textFor, List.filter_append, List.flatMap_append]
  rfl

theorem textFor_answerPackets (a : Answer) :
  textFor a.packet.requestId (answerPackets a) = a.text
  := by
  have hall : ∀ packet ∈ answerPackets a, (packet.requestId = a.packet.requestId &&
      packet.type = serverdataResponseValue : Bool) = true := by
    intro packet hpacket
    obtain ⟨payload, -, rfl⟩ := List.mem_map.mp hpacket
    simp
  rw [textFor, List.filter_eq_self.mpr hall, answerPackets, List.flatMap_map]
  apply Eq.trans List.flatMap_id' (flatten_responsePayloads a.text)

theorem textFor_answerPackets_of_ne {requestId : Int32} {a : Answer}
    (h : a.packet.requestId ≠ requestId) :
  textFor requestId (answerPackets a) = []
  := by
  have hnone : ∀ packet ∈ answerPackets a, ¬ (packet.requestId = requestId &&
      packet.type = serverdataResponseValue : Bool) = true := by
    intro packet hpacket
    obtain ⟨payload, -, rfl⟩ := List.mem_map.mp hpacket
    simp [h]
  rw [textFor, List.filter_eq_nil_iff.mpr hnone, List.flatMap_nil]

/-- There are no packets with an id that no request has. -/
theorem textFor_answers_of_ne {requestId : Int32} {answers : List Answer}
    (h : ∀ a ∈ answers, a.packet.requestId ≠ requestId) :
  textFor requestId (answers.flatMap answerPackets) = []
  := by
  induction answers with
  | nil => rfl
  | cons a answers ih =>
      rw [List.forall_mem_cons] at h
      rw [List.flatMap_cons, textFor_append, textFor_answerPackets_of_ne h.1, ih h.2,
        List.append_nil]

/-- Some of the packets have some of the text. -/
theorem textFor_isPrefix {packets packets' : List Packet} (h : packets <+: packets')
    (requestId : Int32) :
  textFor requestId packets <+: textFor requestId packets'
  := by
  obtain ⟨rest, rfl⟩ := h
  rw [textFor_append]
  apply List.prefix_append

/-- Among answers to requests with ids of their own, the packets with an id are those of the
answer to this request. -/
theorem textFor_answers {answers : List Answer}
    (hnodup : (answers.map fun a => a.packet.requestId).Nodup) {a : Answer} (ha : a ∈ answers) :
  textFor a.packet.requestId (answers.flatMap answerPackets) = a.text
  := by
  obtain ⟨front, back, rfl⟩ := List.append_of_mem ha
  rw [List.map_append, List.map_cons, List.nodup_middle, List.nodup_cons] at hnodup
  have hne : ∀ b ∈ front ++ back, b.packet.requestId ≠ a.packet.requestId := by
    intro b hb heq
    apply hnodup.1
    rw [← heq, ← List.map_append]
    apply List.mem_map_of_mem (f := fun b : Answer => b.packet.requestId) hb
  rw [List.forall_mem_append] at hne
  rw [List.flatMap_append, List.flatMap_cons, textFor_append, textFor_append,
    textFor_answerPackets, textFor_answers_of_ne hne.1, textFor_answers_of_ne hne.2,
    List.nil_append, List.append_nil]

/-- What a client puts together when the last answer has reached it in part: the answers in front of
it, and a beginning of it. -/
theorem textFor_received {front : List Answer} {last : Answer} {more : List Packet}
    (hnodup : ((front ++ [last]).map fun a => a.packet.requestId).Nodup)
    (hmore : more <+: answerPackets last) (id : Int32) :
  (∀ a ∈ front, textFor a.packet.requestId
      (authPacket id :: (front.flatMap answerPackets ++ more)) = a.text) ∧
    textFor last.packet.requestId (authPacket id :: (front.flatMap answerPackets ++ more))
      <+: last.text
  := by
  rw [List.map_append, List.nodup_append] at hnodup
  obtain ⟨hfront, -, hapart⟩ := hnodup
  have hne : ∀ a ∈ front, a.packet.requestId ≠ last.packet.requestId := by
    intro a ha
    apply hapart _ (List.mem_map_of_mem (f := fun a : Answer => a.packet.requestId) ha)
    apply List.mem_singleton_self
  constructor
  · intro a ha
    have hnone : textFor a.packet.requestId more = [] := by
      apply List.prefix_nil.mp
      rw [← textFor_answerPackets_of_ne (hne a ha).symm]
      apply textFor_isPrefix hmore
    rw [textFor_cons_authPacket, textFor_append, textFor_answers hfront ha, hnone, List.append_nil]
  · rw [textFor_cons_authPacket, textFor_append, textFor_answers_of_ne hne, List.nil_append]
    have hprefix := textFor_isPrefix hmore last.packet.requestId
    rw [textFor_answerPackets] at hprefix
    apply hprefix

/-! ### Connections -/

namespace Connection

/-- The client has authenticated, and the handler is in the command loop. -/
def isOpen (C : Connection) : Bool :=
  match C.phase with
  | .authenticating => false
  | .closed => false
  | _ => true

variable {C : Connection} {password : Bytes} {commands : List (Packet × ℕ)}

/-- What stands on the wire of an open connection. -/
theorem Inv.serving (h : C.Inv password commands) (hopen : C.isOpen = true) :
  ∃ auth rest, Authenticates password C.stream auth rest ∧
    C.sock.wire = authReply auth ++ C.sent
  := by
  have hserving : ∀ {unqueued unanswered}, C.Serving password commands unqueued unanswered →
      ∃ auth rest, Authenticates password C.stream auth rest ∧
        C.sock.wire = authReply auth ++ C.sent := by
    rintro unqueued unanswered ⟨auth, read, hsession, hwire⟩
    exact ⟨auth, _, hsession.authenticates, hwire⟩
  rw [Inv] at h
  rw [isOpen] at hopen
  split at h
  · next hphase =>
      rw [hphase] at hopen
      cases hopen
  · apply hserving h
  · apply hserving h
  · apply hserving h
  · apply hserving h
  · next hphase =>
      rw [hphase] at hopen
      cases hopen

/-- The bytes sent for the answers are the frames of their packets. -/
theorem frames_sent (hanswers : ∀ a ∈ C.answers, Sendable a.text) :
  Frames C.sent (C.answers.flatMap answerPackets)
  := by
  apply frames_answers
  intro a ha
  apply (hanswers a ha).nul

/-- The client has received packets of the answers, behind one for its first packet. -/
theorem Inv.isPrefix_packets (h : C.Inv password commands)
    (hanswers : ∀ a ∈ C.answers, Sendable a.text) :
  ∃ replies, (replies = [] ∨ ∃ id, replies = [authPacket id]) ∧
    packetsOf C.sock.wire <+: replies ++ C.answers.flatMap answerPackets
  := by
  obtain ⟨reply, rfl | ⟨id, rfl⟩, hwire⟩ := h.isPrefix_wire
  · use [], .inl rfl
    rw [List.nil_append] at hwire ⊢
    rw [← (frames_sent hanswers).packetsOf_eq]
    apply packetsOf_isPrefix hwire
  · use [authPacket id], .inr ⟨id, rfl⟩
    rw [← ((frames_authPacket id).append (frames_sent hanswers)).packetsOf_eq]
    apply packetsOf_isPrefix hwire

/-- Once it has been answered, the client has authenticated, and has been sent all answers but the
last, also when the connection has been closed. -/
theorem Inv.isPrefix_of_concat (h : C.Inv password commands) {front : List Answer} {last : Answer}
    (hanswers : C.answers = front ++ [last]) :
  ∃ auth rest, Authenticates password C.stream auth rest ∧
    authReply auth ++ C.sentBeforeLast <+: C.sock.wire ∧ C.sock.wire <+: authReply auth ++ C.sent
  := by
  cases hopen : C.isOpen with
  | true =>
      obtain ⟨auth, rest, hauth, hwire⟩ := h.serving hopen
      use auth, rest, hauth
      rw [hwire]
      constructor
      · apply (List.prefix_append_right_inj _).mpr C.sentBeforeLast_isPrefix
      · apply List.prefix_rfl
  | false =>
      have hne : C.answers ≠ [] := by
        rw [hanswers]
        simp
      rw [Inv] at h
      rw [isOpen] at hopen
      split at h
      · obtain ⟨-, -, hnil, -⟩ := h
        cases hne hnil
      · next hphase =>
          rw [hphase] at hopen
          cases hopen
      · next hphase =>
          rw [hphase] at hopen
          cases hopen
      · next hphase =>
          rw [hphase] at hopen
          cases hopen
      · next hphase =>
          rw [hphase] at hopen
          cases hopen
      · rcases h with ⟨-, hnil, -⟩ | ⟨auth, read, rest, hsession, hwire⟩
        · cases hne hnil
        · exact ⟨auth, _, hsession.authenticates, hwire⟩

/-- Behind the reply to its first packet, the client has received the packets of all answers but the
last, and the first packets of the last. -/
theorem Inv.packetsOf_of_concat (h : C.Inv password commands) {front : List Answer} {last : Answer}
    (hlast : C.answers = front ++ [last]) (hanswers : ∀ a ∈ C.answers, Sendable a.text) :
  ∃ auth rest more, Authenticates password C.stream auth rest ∧
    packetsOf C.sock.wire = authPacket auth.requestId :: (front.flatMap answerPackets ++ more) ∧
    more <+: answerPackets last
  := by
  obtain ⟨auth, rest, hauth, hbefore, hwire⟩ := h.isPrefix_of_concat hlast
  have hsent := (frames_authPacket auth.requestId).append (frames_sent hanswers)
  have hsentBefore := (frames_authPacket auth.requestId).append
    (frames_answers fun a (ha : a ∈ front) => (hanswers a (by simp [hlast, ha])).nul)
  rw [sentBeforeLast, hlast, List.dropLast_concat] at hbefore
  have hall := packetsOf_isPrefix hwire
  have hfirst := packetsOf_isPrefix hbefore
  rw [show packetsOf (authReply auth ++ C.sent) = _ from hsent.packetsOf_eq, hlast,
    List.flatMap_append, List.flatMap_singleton, ← List.append_assoc] at hall
  rw [show packetsOf (authReply auth ++ _) = _ from hsentBefore.packetsOf_eq] at hfirst
  obtain ⟨more, hmore⟩ := hfirst
  rw [← hmore] at hall
  exact ⟨auth, rest, more, hauth, hmore.symm, (List.prefix_append_right_inj _).mp hall⟩

/-- While the connection is open the client has received the packets of all answers. -/
theorem Inv.packetsOf_wire (h : C.Inv password commands) (hopen : C.isOpen = true)
    (hanswers : ∀ a ∈ C.answers, Sendable a.text) :
  ∃ auth rest, Authenticates password C.stream auth rest ∧
    packetsOf C.sock.wire = authPacket auth.requestId :: C.answers.flatMap answerPackets
  := by
  obtain ⟨auth, rest, hauth, hwire⟩ := h.serving hopen
  use auth, rest, hauth
  rw [hwire]
  apply ((frames_authPacket auth.requestId).append (frames_sent hanswers)).packetsOf_eq

end Connection

/-- In every run in which the game prints what the code takes over, and for every connection:

the packets that the client has received are the reply to its first packet and, in order, the
packets of the answers, and each has a payload of at most 4086 bytes of UTF-8 without NUL. While the
client is served, these are all packets of the answers. When the connection has been closed, only
packets of the last answer may be missing, at its end;

and if its requests have ids of their own, what the client puts together for the id of a request is
the response to the command that is the payload of this request, or says that the command has timed
out, or it is the beginning of that, when this is the last answer of a closed connection. -/
theorem System.client_view {ι : Type} [DecidableEq ι] (password : Bytes) (engine : Engine)
    (r : Reflection) (d : Resolved) (m : ModState Game) (actions : List (Action ι Game))
    (hactions : Transition.Along (System.step (nativeMod password engine r d))
      System.PrintsCommands { mod := m } actions) (c : ℕ) :
  let s := System.run (nativeMod password engine r d) m actions
  let C := s.connections c
  let received := packetsOf C.sock.wire
  (∃ replies, (replies = [] ∨ ∃ id, replies = [authPacket id]) ∧
    received <+: replies ++ C.answers.flatMap answerPackets) ∧
  (∀ packet ∈ received, packet.payload.length ≤ 4086 ∧ Sendable packet.payload) ∧
  (C.isOpen = true → ∃ auth rest, Authenticates password C.stream auth rest ∧
    received = authPacket auth.requestId :: C.answers.flatMap answerPackets) ∧
  (∀ front last, C.answers = front ++ [last] → ∃ auth rest more,
    Authenticates password C.stream auth rest ∧
    received = authPacket auth.requestId :: (front.flatMap answerPackets ++ more) ∧
    more <+: answerPackets last) ∧
  ((C.answers.map fun a => a.packet.requestId).Nodup → ∀ a ∈ C.answers, ∃ text,
    (text = commandTimedOut ∨ ∃ item, (item, .packet c a.packet) ∈ s.exchange.enqueued ∧
      item.commandText = a.packet.payload ∧ (item, text) ∈ s.exchange.dispatched) ∧
    textFor a.packet.requestId received <+: text ∧
    (C.isOpen = true ∨ a ∈ C.answers.dropLast → textFor a.packet.requestId received = text))
  := by
  intro s C received
  have hinv : s.Inv password := System.inv_run (nativeMod password engine r d) m actions
  have hanswers : ∀ a ∈ C.answers, Sendable a.text :=
    (System.sendable_run password engine r d m hactions).2 c
  have hconnection := hinv.connection c
  have hpackets := hconnection.isPrefix_packets hanswers
  refine ⟨hpackets, ?_, ?_, ?_, ?_⟩
  · obtain ⟨replies, hreplies, hsub⟩ := hpackets
    intro packet hpacket
    rcases List.mem_append.mp (hsub.subset hpacket) with hreply | hanswer
    · obtain rfl | ⟨id, rfl⟩ := hreplies
      · cases hreply
      · rw [List.mem_singleton.mp hreply]
        exact ⟨Nat.zero_le _, sendable_nil⟩
    · obtain ⟨a, ha, hpacket⟩ := List.mem_flatMap.mp hanswer
      obtain ⟨payload, hpayload, rfl⟩ := List.mem_map.mp hpacket
      use length_le_of_mem_responsePayloads hpayload
      use valid_of_mem_responsePayloads (hanswers a ha).valid hpayload
      apply nul_not_mem_responsePayloads (hanswers a ha).nul hpayload
  · intro hopen
    apply hconnection.packetsOf_wire hopen hanswers
  · intro front last hlast
    apply hconnection.packetsOf_of_concat hlast hanswers
  · intro hnodup a ha
    use a.text
    constructor
    · obtain ⟨item, he, -, hpayload, htimeout | hdispatched⟩ := hinv.answer ha
      · left
        apply htimeout
      · right
        use item
    · obtain ⟨front, last, hlast⟩ := C.answers.eq_nil_or_concat'.resolve_left (List.ne_nil_of_mem ha)
      obtain ⟨auth, rest, more, -, hreceived, hmore⟩ :=
        hconnection.packetsOf_of_concat hlast hanswers
      have hnodup' := hnodup
      rw [hlast] at hnodup'
      obtain ⟨hfront, hbeginning⟩ := textFor_received hnodup' hmore auth.requestId
      have heq : textFor a.packet.requestId received = textFor a.packet.requestId
          (authPacket auth.requestId :: (front.flatMap answerPackets ++ more)) := by
        rw [← hreceived]
      rw [heq]
      constructor
      · rw [hlast, List.mem_append, List.mem_singleton] at ha
        rcases ha with ha | rfl
        · rw [hfront a ha]
        · apply hbeginning
      · rintro (hopen | hbefore)
        · obtain ⟨auth', rest', -, hall⟩ := hconnection.packetsOf_wire hopen hanswers
          rw [← hreceived, hall, textFor_cons_authPacket]
          apply textFor_answers hnodup ha
        · rw [hlast, List.dropLast_concat] at hbefore
          apply hfront a hbefore

/-- The system after the client has been sent the answer to its command. -/
def afterAnswer : System Unit Game :=
  System.run (nativeMod (ascii "secret") (NativeRequest.spawn (some true)).engine nullReflection {})
    { game := { world := NativeRequest.oneCommand }, dispatch := { initialized := true } }
    (executingClient ++ [.ready (), .advance ()])

/-- A client that runs one command and reads the reply. -/
theorem System.client_view_executingClient :
  ((afterAnswer.connections 0).answers.map fun a => a.packet.requestId) = [7] ∧
  ∃ item response, (item, response) ∈ afterAnswer.exchange.dispatched ∧
    textFor 7 (packetsOf (afterAnswer.connections 0).sock.wire) = response
  := by
  have hids : ((afterAnswer.connections 0).answers.map fun a => a.packet.requestId) = [7] := by
    decide +kernel
  have hopen : (afterAnswer.connections 0).isOpen = true := by
    decide +kernel
  have htexts : ∀ a ∈ (afterAnswer.connections 0).answers, a.text ≠ commandTimedOut := by
    decide +kernel
  have hnodup : ((afterAnswer.connections 0).answers.map fun a => a.packet.requestId).Nodup := by
    rw [hids]
    decide
  have hprintable : NativeRequest.oneCommand.Printable := by
    constructor
    · intro function connection value hvalue
      cases hvalue
    · intro pawn l hl
      cases hl
  have hactions : Transition.Along (System.step (nativeMod (ascii "secret")
      (NativeRequest.spawn (some true)).engine nullReflection {})) System.PrintsCommands
      { mod := { game := { world := NativeRequest.oneCommand }, dispatch := { initialized := true } } }
      (executingClient ++ [.ready (), .advance ()]) := by
    rw [executingClient]
    refine ⟨trivial, trivial, trivial, trivial, trivial, ?_, trivial, trivial, trivial⟩
    simp only [System.PrintsCommands, System.step_mod, ne_eq, reduceCtorEq, not_false_eq_true,
      implies_true, false_implies]
    apply hprintable
  obtain ⟨-, -, hserved, -, hcollected⟩ := System.client_view (ascii "secret")
    (NativeRequest.spawn (some true)).engine nullReflection {}
    { game := { world := NativeRequest.oneCommand }, dispatch := { initialized := true } }
    (executingClient ++ [.ready (), .advance ()]) hactions 0
  obtain ⟨auth, rest, -, hreceived⟩ := hserved hopen
  use hids
  have hmem : (7 : Int32) ∈ (afterAnswer.connections 0).answers.map fun a => a.packet.requestId := by
    rw [hids]
    apply List.mem_cons_self
  obtain ⟨a, ha, hid⟩ := List.mem_map.mp hmem
  obtain ⟨text, hsource, -, hwhole⟩ := hcollected hnodup a ha
  have htext : textFor a.packet.requestId (packetsOf (afterAnswer.connections 0).sock.wire) = text :=
    hwhole (.inl hopen)
  rw [← hid, htext]
  rcases hsource with rfl | ⟨item, -, -, hdispatched⟩
  · have hanswer := textFor_answers hnodup ha
    rw [← textFor_cons_authPacket _ auth.requestId] at hanswer
    cases htexts a ha (hanswer.symm.trans ((congrArg _ hreceived.symm).trans htext))
  · exact ⟨item, text, hdispatched, rfl⟩

end OpenScumRcon
