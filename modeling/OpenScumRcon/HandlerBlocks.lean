import Mathlib.Data.List.Infix
import OpenScumRcon.HandlerCalls

/-!
# What is left of a block

Between two accesses to the command queue a handler works only on its socket. Such a block is one
step of a connection and many calls of Winsock. `Handler.finish` runs the handler from any point of
a block to the end of it. A call does not change where the block ends, and from the beginning of the
block it ends where `Connection.advance` does.
-/

namespace OpenScumRcon

open Protocol

/-! ### Loops from the middle -/

/-- What is still to be sent is sent in the same way as something new. -/
theorem sendAll_drop (sock : Socket) (data : Bytes) (sent : ℕ) :
  sendAll sock (data.drop sent) = sendAll.loop sock data sent
  := by
  have hloop : ∀ n sent' sock, data.length - (sent + sent') = n →
      sendAll.loop sock (data.drop sent) sent' = sendAll.loop sock data (sent + sent') := by
    intro n
    induction n using Nat.strongRecOn with
    | ind n ih =>
        intro sent' sock hn
        by_cases hlt : sent + sent' < data.length
        · have hlt' : sent' < (data.drop sent).length := by
            rw [List.length_drop]
            omega
          rw [sendAll.loop_of_lt sock hlt, sendAll.loop_of_lt sock hlt', List.drop_drop]
          cases hsend : sock.send (data.drop (sent + sent')) with
          | mk accepted sock' =>
              cases accepted with
              | none => rfl
              | some k =>
                  have hpos := Socket.send_pos (by rw [List.length_drop]; omega) hsend
                  dsimp only
                  rw [ih _ _ (sent' + k) sock' rfl, Nat.add_assoc]
                  omega
        · have hle : (data.drop sent).length ≤ sent' := by
            rw [List.length_drop]
            omega
          rw [sendAll.loop_of_le sock (Nat.le_of_not_lt hlt), sendAll.loop_of_le sock hle]
  apply hloop _ 0 sock rfl

theorem sendAll_nil (sock : Socket) :
  sendAll sock [] = (true, sock)
  := sendAll.loop_of_le sock (Nat.zero_le _)

/-- One call of `send`, and then the rest. -/
theorem sendAll_of_ne_nil (sock : Socket) {rest : Bytes} (h : rest ≠ []) :
  sendAll sock rest =
    match sock.send rest with
    | (none, sock) => (false, sock)
    | (some accepted, sock) => sendAll sock (rest.drop accepted)
  := by
  rw [sendAll, sendAll.loop_of_lt sock (List.length_pos_iff.mpr h), List.drop_zero]
  cases sock.send rest with
  | mk accepted sock' =>
      cases accepted with
      | none => rfl
      | some accepted =>
          dsimp only
          rw [Nat.zero_add, sendAll_drop]

/-! ### Receiving -/

namespace Reader

/-- The reader is in front of a call of `recv`. -/
def Proper : Reader → Prop
  | .sizing buffer => buffer.length < 4
  | .reading size buffer => buffer.length < size

/-- The body of a packet, with some of its bytes in the buffer. -/
def finishBody (sock : Socket) (size : ℕ) (buffer : Bytes) : Option Packet × Socket :=
  match recvExact.loop sock size buffer with
  | (none, sock) => (none, sock)
  | (some body, sock) =>
      match decodePacketBody body {} with
      | (true, packet) => (some packet, sock)
      | (false, _) => (none, sock)

/-- The reader receives the rest of the packet. -/
def finish (sock : Socket) : Reader → Option Packet × Socket
  | .sizing buffer =>
      match recvExact.loop sock 4 buffer with
      | (none, sock) => (none, sock)
      | (some sizeBuf, sock) =>
          let size := int32OfBytes sizeBuf
          if size.toInt ≤ 0 ∨ 8192 < size.toInt then (none, sock)
          else finishBody sock size.toInt.toNat []
  | .reading size buffer => finishBody sock size buffer

theorem finish_start (sock : Socket) :
  Reader.start.finish sock = recvPacket sock
  := rfl

theorem wanted_pos {reader : Reader} (h : reader.Proper) :
  0 < reader.wanted
  := by
  cases reader with
  | sizing buffer => exact Nat.sub_pos_of_lt h
  | reading size buffer => exact Nat.sub_pos_of_lt h

/-- A chunk that does not end the reader leaves a proper one. -/
theorem proper_feed {reader reader' : Reader} {chunk : Bytes} (h : reader.feed chunk = .inl reader') :
  reader'.Proper
  := by
  cases reader with
  | sizing buffer =>
      rw [feed] at h
      split at h
      · cases h
      dsimp only at h
      split at h
      · next hshort =>
          obtain rfl := Sum.inl.inj h
          apply hshort
      split at h
      · cases h
      · next hrange =>
          obtain rfl := Sum.inl.inj h
          rw [Proper, List.length_nil]
          omega
  | reading size buffer =>
      rw [feed] at h
      split at h
      · cases h
      dsimp only at h
      split at h
      · next hshort =>
          obtain rfl := Sum.inl.inj h
          apply hshort
      · split at h <;> cases h

/-- A call of `recv` does not change what the reader receives in the end. -/
theorem finish_feed (sock : Socket) {reader : Reader} (h : reader.Proper) :
  reader.finish sock =
    match reader.feed ((sock.recv reader.wanted).1.getD []) with
    | .inl reader' => reader'.finish (sock.recv reader.wanted).2
    | .inr packet => (packet, (sock.recv reader.wanted).2)
  := by
  cases hrecv : sock.recv reader.wanted with
  | mk received sock' =>
      cases received with
      | none =>
          dsimp only
          rw [Option.getD_none, feed_nil]
          cases reader with
          | sizing buffer =>
              rw [finish, recvExact.loop_of_lt sock h]
              rw [wanted] at hrecv
              rw [hrecv]
          | reading size buffer =>
              rw [finish, finishBody, recvExact.loop_of_lt sock h]
              rw [wanted] at hrecv
              rw [hrecv]
      | some chunk =>
          have hne : chunk ≠ [] :=
            List.ne_nil_of_length_pos (Socket.length_recv_pos (wanted_pos h) hrecv)
          dsimp only
          rw [Option.getD_some]
          cases reader with
          | sizing buffer =>
              rw [wanted] at hrecv
              rw [finish, recvExact.loop_of_lt sock h, hrecv, feed, if_neg hne]
              dsimp only
              by_cases hlt : (buffer ++ chunk).length < 4
              · rw [if_pos hlt]
                rfl
              · rw [if_neg hlt, recvExact.loop_of_le sock' (Nat.le_of_not_lt hlt)]
                dsimp only
                split <;> rfl
          | reading size buffer =>
              rw [wanted] at hrecv
              rw [finish, finishBody, recvExact.loop_of_lt sock h, hrecv, feed, if_neg hne]
              dsimp only
              by_cases hlt : (buffer ++ chunk).length < size
              · rw [if_pos hlt]
                rfl
              · rw [if_neg hlt, recvExact.loop_of_le sock' (Nat.le_of_not_lt hlt)]
                dsimp only
                cases decodePacketBody (buffer ++ chunk) {} with
                | mk ok packet => cases ok <;> rfl

end Reader

/-! ### The handler -/

namespace Handler

/-- The handler is in front of a call, with something to receive or to send. -/
def Proper : Handler → Prop
  | .readAuth reader => reader.Proper
  | .sendRefusal rest => rest ≠ []
  | .sendAuth rest => rest ≠ []
  | .readCommand reader => reader.Proper
  | .sendResponse rest packets => rest ≠ [] ∧ ∀ packet ∈ packets, packet ≠ []
  | .awaiting _ => False
  | .closing => False

/-- What the call of the handler returns on a socket. -/
def outcome (sock : Socket) (handler : Handler) : Outcome × Socket :=
  match handler.reader with
  | some reader =>
      match sock.recv reader.wanted with
      | (chunk, sock) => ({ chunk := chunk.getD [] }, sock)
  | none =>
      match handler.unsent with
      | some rest =>
          match sock.send rest with
          | (accepted, sock) => ({ accepted := accepted.getD 0 }, sock)
      | none => ({}, sock)

/-- The handler makes one call. -/
def turn (password : Bytes) (x : Handler × Socket) : Handler × Socket :=
  (x.1.step password (x.1.outcome x.2).1, (x.1.outcome x.2).2)

/-- The handler goes on to the end of the block it is in. -/
def finish (password : Bytes) (x : Handler × Socket) : Handler × Socket :=
  match x with
  | (.readAuth reader, sock) =>
      match reader.finish sock with
      | (packet, sock) =>
          match behindAuth password packet with
          | .sendRefusal rest => (.closing, (sendAll sock rest).2)
          | .sendAuth rest => (behindReply (sendAll sock rest).1, (sendAll sock rest).2)
          | handler => (handler, sock)
  | (.sendRefusal rest, sock) => (.closing, (sendAll sock rest).2)
  | (.sendAuth rest, sock) => (behindReply (sendAll sock rest).1, (sendAll sock rest).2)
  | (.readCommand reader, sock) =>
      match reader.finish sock with
      | (packet, sock) => (behindCommand packet, sock)
  | (.sendResponse rest packets, sock) =>
      (behindReply (sendPackets sock (rest :: packets)).1, (sendPackets sock (rest :: packets)).2)
  | (.awaiting packet, sock) => (.awaiting packet, sock)
  | (.closing, sock) => (.closing, sock)

theorem proper_sendNext {packets : List Bytes} (hne : packets ≠ [])
    (h : ∀ packet ∈ packets, packet ≠ []) :
  (sendNext packets).Proper
  := by
  obtain ⟨packet, packets, rfl⟩ := List.exists_cons_of_ne_nil hne
  rw [List.forall_mem_cons] at h
  apply h

/-- The call of a handler that receives a packet. -/
theorem turn_receives {password : Bytes} {wrap : Reader → Handler} {behind : Option Packet → Handler}
    (h : Receives password wrap behind) (sock : Socket) (reader : Reader) :
  turn password (wrap reader, sock)
    = ((reader.feed ((sock.recv reader.wanted).1.getD [])).elim wrap behind,
      (sock.recv reader.wanted).2)
  := by
  rw [turn, outcome, h.reader]
  dsimp only
  rw [h.step]
  cases hrecv : sock.recv reader.wanted with
  | mk received sock' =>
      cases received with
      | none =>
          dsimp only
          rw [Option.getD_none, List.take_nil]
      | some chunk =>
          dsimp only
          rw [Option.getD_some, List.take_of_length_le (Socket.length_recv_le hrecv)]

/-- The call of a handler that sends some bytes. -/
theorem turn_sends {password : Bytes} {wrap : Bytes → Handler} {behind : Bool → Handler}
    (h : Sends password wrap behind) (hreader : ∀ rest, (wrap rest).reader = none) (sock : Socket)
    {rest : Bytes} (hrest : rest ≠ []) :
  turn password (wrap rest, sock) =
    match sock.send rest with
    | (none, sock) => (behind false, sock)
    | (some accepted, sock) =>
        if rest.drop accepted = [] then (behind true, sock) else (wrap (rest.drop accepted), sock)
  := by
  rw [turn, outcome, hreader, h.unsent]
  dsimp only
  rw [h.step]
  cases hsend : sock.send rest with
  | mk accepted sock' =>
      cases accepted with
      | none => rw [Option.getD_none, if_pos rfl]
      | some accepted =>
          have hpos := Socket.send_pos (List.length_pos_iff.mpr hrest) hsend
          dsimp only
          rw [Option.getD_some, if_neg (Nat.ne_of_gt hpos)]
          split <;> rfl

/-- A call leads to the end of the block, or to a point from which the block ends as before. -/
inductive Finishes (password : Bytes) (x : Handler × Socket) : Handler × Socket → Prop where
  | done : Finishes password x (finish password x)
  | more {y : Handler × Socket} (hproper : y.1.Proper) (h : finish password y = finish password x) :
      Finishes password x y

/-- Behind the first packet the handler closes or has a reply to send. -/
theorem behindAuth_cases (password : Bytes) (packet : Option Packet) :
  behindAuth password packet = .closing ∨
    ∃ rest, rest ≠ [] ∧ (behindAuth password packet = .sendRefusal rest ∨
      behindAuth password packet = .sendAuth rest)
  := by
  cases packet with
  | none => exact .inl rfl
  | some authPacket =>
      rw [behindAuth]
      split
      · exact .inl rfl
      right
      split
      · exact ⟨_, encodePacket_ne_nil _ _ _, .inl rfl⟩
      · exact ⟨_, encodePacket_ne_nil _ _ _, .inr rfl⟩

/-- Turns of reading the first packet do what the blocking read does. -/
theorem finishes_readAuth (password : Bytes) (sock : Socket) {reader : Reader} (h : reader.Proper) :
  Finishes password (.readAuth reader, sock) (turn password (.readAuth reader, sock))
  := by
  have hfinish := Reader.finish_feed sock h
  rw [turn_receives (receives_readAuth password)]
  cases hfeed : reader.feed ((sock.recv reader.wanted).1.getD []) with
  | inl reader' =>
      rw [hfeed] at hfinish
      apply Finishes.more
      · apply Reader.proper_feed hfeed
      · rw [Sum.elim_inl, finish, finish, hfinish]
  | inr packet =>
      rw [hfeed] at hfinish
      rw [Sum.elim_inr]
      rcases behindAuth_cases password packet with hbehind | ⟨rest, hrest, hbehind | hbehind⟩
      · have hdone := @Finishes.done password (.readAuth reader, sock)
        rw [finish, hfinish] at hdone
        dsimp only at hdone
        rw [hbehind] at hdone ⊢
        apply hdone
      · apply Finishes.more
        · rw [hbehind]
          apply hrest
        · rw [hbehind, finish, finish, hfinish]
          dsimp only
          rw [hbehind]
      · apply Finishes.more
        · rw [hbehind]
          apply hrest
        · rw [hbehind, finish, finish, hfinish]
          dsimp only
          rw [hbehind]

/-- Turns of reading a command do what the blocking read does. -/
theorem finishes_readCommand (password : Bytes) (sock : Socket) {reader : Reader}
    (h : reader.Proper) :
  Finishes password (.readCommand reader, sock) (turn password (.readCommand reader, sock))
  := by
  have hfinish := Reader.finish_feed sock h
  rw [turn_receives (receives_readCommand password)]
  cases hfeed : reader.feed ((sock.recv reader.wanted).1.getD []) with
  | inl reader' =>
      rw [hfeed] at hfinish
      apply Finishes.more
      · apply Reader.proper_feed hfeed
      · rw [Sum.elim_inl, finish, finish, hfinish]
  | inr packet =>
      rw [hfeed] at hfinish
      have hdone := @Finishes.done password (.readCommand reader, sock)
      rw [finish, hfinish] at hdone
      apply hdone

/-- A handler that sends some bytes, and whose block ends with them. -/
theorem finishes_sends {password : Bytes} {wrap : Bytes → Handler} {behind : Bool → Handler}
    (h : Sends password wrap behind) (hreader : ∀ rest, (wrap rest).reader = none)
    (hproper : ∀ rest, rest ≠ [] → (wrap rest).Proper)
    (hfinish : ∀ rest sock, finish password (wrap rest, sock)
      = (behind (sendAll sock rest).1, (sendAll sock rest).2))
    (sock : Socket) {rest : Bytes} (hrest : rest ≠ []) :
  Finishes password (wrap rest, sock) (turn password (wrap rest, sock))
  := by
  have hsendAll := sendAll_of_ne_nil sock hrest
  have hdone := @Finishes.done password (wrap rest, sock)
  rw [turn_sends h hreader sock hrest]
  cases hsend : sock.send rest with
  | mk accepted sock' =>
      rw [hsend] at hsendAll
      cases accepted with
      | none =>
          rw [hfinish, hsendAll] at hdone
          apply hdone
      | some accepted =>
          dsimp only at hsendAll ⊢
          split
          · next hall =>
              rw [hall, sendAll_nil] at hsendAll
              rw [hfinish, hsendAll] at hdone
              apply hdone
          · next hmore =>
              apply Finishes.more (hproper _ hmore)
              rw [hfinish, hfinish, hsendAll]

/-- Turns of sending the response do what the blocking sends do. -/
theorem finishes_sendResponse (password : Bytes) (sock : Socket) {rest : Bytes}
    {packets : List Bytes} (hrest : rest ≠ []) (hpackets : ∀ packet ∈ packets, packet ≠ []) :
  Finishes password (.sendResponse rest packets, sock)
    (turn password (.sendResponse rest packets, sock))
  := by
  have hsendAll := sendAll_of_ne_nil sock hrest
  have hdone := @Finishes.done password (.sendResponse rest packets, sock)
  rw [turn_sends (sends_response password packets)
    (fun _ => rfl) sock hrest]
  cases hsend : sock.send rest with
  | mk accepted sock' =>
      rw [hsend] at hsendAll
      cases accepted with
      | none =>
          rw [finish, sendPackets, hsendAll] at hdone
          apply hdone
      | some accepted =>
          dsimp only at hsendAll ⊢
          split
          · next hall =>
              rw [hall, sendAll_nil] at hsendAll
              cases packets with
              | nil =>
                  rw [finish, sendPackets, hsendAll] at hdone
                  apply hdone
              | cons packet packets =>
                  rw [List.forall_mem_cons] at hpackets
                  apply Finishes.more
                  · apply hpackets
                  · have hsendPackets : sendPackets sock (rest :: packet :: packets)
                        = sendPackets sock' (packet :: packets) := by
                      rw [sendPackets, hsendAll]
                    rw [behindPacket, if_pos rfl, sendNext, finish, finish, hsendPackets]
          · next hmore =>
              apply Finishes.more
              · exact ⟨hmore, hpackets⟩
              · have hsendPackets : sendPackets sock (rest :: packets)
                    = sendPackets sock' (rest.drop accepted :: packets) := by
                  rw [sendPackets, hsendAll, sendPackets]
                rw [finish, finish, hsendPackets]

/-- A call leads on in the block of its handler. -/
theorem finishes_turn {password : Bytes} {x : Handler × Socket} (h : x.1.Proper) :
  Finishes password x (turn password x)
  := by
  obtain ⟨handler, sock⟩ := x
  cases handler with
  | readAuth reader => apply finishes_readAuth password sock h
  | sendRefusal rest =>
      apply finishes_sends (sends_refusal password) (fun _ => rfl) (fun _ hrest => hrest)
        (fun _ _ => rfl) sock h
  | sendAuth rest =>
      apply finishes_sends (sends_auth password) (fun _ => rfl) (fun _ hrest => hrest)
        (fun _ _ => rfl) sock h
  | readCommand reader => apply finishes_readCommand password sock h
  | sendResponse rest packets => apply finishes_sendResponse password sock h.1 h.2
  | awaiting packet => cases h
  | closing => cases h

/-! ### The blocks of a connection -/

end Handler

/-- The handler works only on its socket. -/
def Phase.Works : Phase → Prop
  | .authenticating => True
  | .receiving => True
  | .replying _ _ _ => True
  | _ => False

namespace Handler

/-- A phase of the coarse connection is a proper state of the handler. -/
theorem proper_ofPhase {phase : Phase} (h : phase.Works) :
  (ofPhase phase).Proper
  := by
  cases phase with
  | authenticating => simp [ofPhase, Proper, Reader.start, Reader.Proper]
  | receiving => simp [ofPhase, Proper, Reader.start, Reader.Proper]
  | replying packet future text =>
      apply proper_sendNext (encodeResponse_ne_nil _ _)
      intro packet hpacket
      apply ne_nil_of_mem_encodeResponse hpacket
  | enqueuing packet => cases h
  | waiting packet future => cases h
  | closed => cases h

/-- From the beginning of a block the handler comes where the connection gets in one step. -/
theorem finish_ofPhase (password : Bytes) {C : Connection} (h : C.phase.Works) :
  finish password (ofPhase C.phase, C.sock)
    = (ofPhase (C.advance password).phase, (C.advance password).sock)
  := by
  rw [Connection.advance]
  cases hphase : C.phase with
  | authenticating =>
      rw [ofPhase, finish, Reader.finish_start, authenticate]
      cases recvPacket C.sock with
      | mk packet sock =>
          cases packet with
          | none => rfl
          | some authPacket =>
              dsimp only
              rw [behindAuth]
              by_cases htype : authPacket.type ≠ serverdataAuth
              · rw [if_pos htype, if_pos htype]
                rfl
              rw [if_neg htype, if_neg htype]
              by_cases hpayload : authPacket.payload ≠ password
              · rw [if_pos hpayload, if_pos hpayload]
                rfl
              rw [if_neg hpayload, if_neg hpayload]
              dsimp only
              rw [authReply]
              cases sendAll sock (encodePacket authPacket.requestId serverdataAuthResponse []) with
              | mk ok sock' => cases ok <;> rfl
  | receiving =>
      rw [ofPhase, finish, Reader.finish_start]
      cases recvPacket C.sock with
      | mk packet sock =>
          cases packet with
          | none => rfl
          | some commandPacket =>
              dsimp only
              rw [behindCommand]
              split <;> rfl
  | replying packet future text =>
      obtain ⟨first, packets, hencode⟩ :=
        List.exists_cons_of_ne_nil (encodeResponse_ne_nil packet.requestId text)
      dsimp only
      rw [ofPhase, hencode, sendNext, finish]
      cases sendPackets C.sock (first :: packets) with
      | mk ok sock => cases ok <;> rfl
  | enqueuing packet =>
      rw [hphase] at h
      cases h
  | waiting packet future =>
      rw [hphase] at h
      cases h
  | closed =>
      rw [hphase] at h
      cases h

end Handler

/-! ### The wire -/

theorem Socket.wire_recv (sock : Socket) (len : ℕ) :
  (sock.recv len).2.wire = sock.wire
  := by
  rw [recv]
  split <;> rfl

theorem Socket.wire_send (sock : Socket) (data : Bytes) :
  sock.wire <+: (sock.send data).2.wire
  := by
  rw [send]
  cases sock.acceptances 0 with
  | none => apply List.prefix_rfl
  | some k => apply List.prefix_append

theorem wire_recvExact_loop (sock : Socket) (size : ℕ) (buffer : Bytes) :
  (recvExact.loop sock size buffer).2.wire = sock.wire
  := by
  by_cases hle : buffer.length ≤ size
  · obtain ⟨fragments, hloop⟩ := recvExact.loop_eq sock size buffer hle
    rw [hloop]
    split <;> rfl
  · rw [recvExact.loop_of_le sock (by omega)]

theorem wire_sendAll (sock : Socket) (data : Bytes) :
  sock.wire <+: (sendAll sock data).2.wire
  := by
  obtain ⟨ok, more, acceptances, hsend, -⟩ := sendAll_eq sock data
  rw [hsend]
  apply List.prefix_append

theorem wire_sendPackets (sock : Socket) (packets : List Bytes) :
  sock.wire <+: (sendPackets sock packets).2.wire
  := by
  obtain ⟨ok, more, acceptances, hsend, -⟩ := sendPackets_eq sock packets
  rw [hsend]
  apply List.prefix_append

namespace Reader

theorem wire_finishBody (sock : Socket) (size : ℕ) (buffer : Bytes) :
  (finishBody sock size buffer).2.wire = sock.wire
  := by
  have hloop := wire_recvExact_loop sock size buffer
  rw [finishBody]
  cases hreceived : recvExact.loop sock size buffer with
  | mk received sock' =>
      rw [hreceived] at hloop
      cases received with
      | none => apply hloop
      | some body =>
          dsimp only
          cases decodePacketBody body {} with
          | mk ok packet => cases ok <;> apply hloop

/-- Reading a packet to its end writes nothing. -/
theorem wire_finish (sock : Socket) (reader : Reader) :
  (reader.finish sock).2.wire = sock.wire
  := by
  cases reader with
  | sizing buffer =>
      have hloop := wire_recvExact_loop sock 4 buffer
      rw [finish]
      cases hreceived : recvExact.loop sock 4 buffer with
      | mk received sock' =>
          rw [hreceived] at hloop
          cases received with
          | none => apply hloop
          | some sizeBuf =>
              dsimp only
              split
              · apply hloop
              · rw [wire_finishBody]
                apply hloop
  | reading size buffer => apply wire_finishBody

end Reader

namespace Handler

/-- A call puts bytes behind what is on the wire. -/
theorem wire_outcome (sock : Socket) (handler : Handler) :
  sock.wire <+: (handler.outcome sock).2.wire
  := by
  rw [outcome]
  split
  · next reader _ =>
      rw [← sock.wire_recv reader.wanted]
  split
  · next rest _ => apply sock.wire_send rest
  · apply List.prefix_rfl

/-- So does the rest of the block. -/
theorem wire_finish (password : Bytes) (x : Handler × Socket) :
  x.2.wire <+: (finish password x).2.wire
  := by
  obtain ⟨handler, sock⟩ := x
  cases handler with
  | readAuth reader =>
      have hreader := reader.wire_finish sock
      rw [finish]
      cases hfinish : reader.finish sock with
      | mk packet sock' =>
          rw [hfinish] at hreader
          dsimp only at hreader ⊢
          rw [← hreader]
          rcases behindAuth_cases password packet with hbehind | ⟨rest, -, hbehind | hbehind⟩
          · rw [hbehind]
          · rw [hbehind]
            apply wire_sendAll
          · rw [hbehind]
            apply wire_sendAll
  | sendRefusal rest => apply wire_sendAll
  | sendAuth rest => apply wire_sendAll
  | readCommand reader =>
      have hreader := reader.wire_finish sock
      rw [finish, ← hreader]
  | sendResponse rest packets => apply wire_sendPackets
  | awaiting packet => apply List.prefix_rfl
  | closing => apply List.prefix_rfl

end Handler

end OpenScumRcon
