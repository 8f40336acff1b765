import OpenScumRcon.System

/-!
# The request limit

A request may have up to 8192 bytes, and a frame a body of up to 8192 bytes. The body of a
request has ten bytes more than its text, so the longest texts within the limit of the parser
never reach it: their frames are refused, and the connection is closed.
-/

namespace OpenScumRcon

open Protocol

/-- The longest text that fits in the body of a frame. -/
def maxFramedText : ℕ := 8182

/-- A packet whose body fits in a frame is one. -/
theorem isFrame_encodePacket {packet : Packet} (hnul : Byte.nul ∉ packet.payload)
    (hlength : packet.payload.length ≤ maxFramedText) :
  IsFrame (encodePacket packet.requestId packet.type packet.payload) packet
  := by
  have hmax : maxFramedText = 8182 := rfl
  have hsize := toInt_ofNat_of_lt (n := packet.payload.length + 10) (by omega)
  use Int32.ofNat (packet.payload.length + 10), packetBody packet
  rw [hsize, length_packetBody]
  refine ⟨encodePacket_eq _ _ _, by omega, by omega, rfl, ?_⟩
  apply decodePacketBody_packetBody hnul

/-- A stream that starts with a packet whose body is too long starts with no frame. -/
theorem nextFrame_encodePacket_of_lt (packet : Packet) (rest : Bytes)
    (hlt : maxFramedText < packet.payload.length) (hle : packet.payload.length ≤ 8192) :
  nextFrame (encodePacket packet.requestId packet.type packet.payload ++ rest) = none
  := by
  have hmax : maxFramedText = 8182 := rfl
  have hsize := toInt_ofNat_of_lt (n := packet.payload.length + 10) (by omega)
  have hlength := length_encodePacket packet.requestId packet.type packet.payload
  rw [nextFrame, List.take_append_of_le_length (by omega), take_encodePacket,
    int32OfBytes_int32Bytes, hsize, if_pos]
  omega

/-- The handler at the top of the command loop receives the packet and enqueues its payload:
behind the commands that are pending stands one with this text, under the authority of the
transport. -/
def Delivers (password : Bytes) (c : ℕ) (C : Connection) (x : Exchange Origin)
    (packet : Packet) : Prop :=
  (recvPacket C.sock).1 = some packet ∧
  ∃ future, (((C.advance password).enqueue c x).2).queue.pending = x.queue.pending ++
    [{ commandText := packet.payload, response := future, authority := .authenticatedRcon }]

section

variable {password : Bytes} {c : ℕ} {C : Connection} {x : Exchange Origin} {packet : Packet}
  {rest : Bytes}

theorem delivers_of_le (hphase : C.phase = .receiving)
    (hincoming : C.sock.incoming
      = encodePacket packet.requestId packet.type packet.payload ++ rest)
    (htype : packet.type = serverdataExeccommand) (hnul : Byte.nul ∉ packet.payload)
    (hle : packet.payload.length ≤ maxFramedText) :
  Delivers password c C x packet
  := by
  have hsome := nextFrame_frame (isFrame_encodePacket hnul hle) rest
  rw [← hincoming] at hsome
  obtain ⟨fragments, hrecv⟩ := recvPacket_of_some hsome
  constructor
  · rw [hrecv]
  · use x.promises.count
    rw [Connection.advance, hphase, hrecv]
    dsimp only
    rw [if_neg (not_not.mpr htype), Connection.enqueue]
    rfl

/-- A text above it, though within the documented limit, closes the connection. -/
theorem closed_of_lt (password : Bytes) (packet : Packet) (hphase : C.phase = .receiving)
    (hincoming : C.sock.incoming
      = encodePacket packet.requestId packet.type packet.payload ++ rest)
    (hlt : maxFramedText < packet.payload.length) (hle : packet.payload.length ≤ 8192) :
  (recvPacket C.sock).1 = none ∧ (C.advance password).phase = .closed
  := by
  have hnone := nextFrame_encodePacket_of_lt packet rest hlt hle
  rw [← hincoming] at hnone
  have hrecv := recvPacket_of_none hnone
  use hrecv
  rw [Connection.advance, hphase]
  dsimp only
  generalize recvPacket C.sock = received at hrecv
  obtain ⟨packet, sock⟩ := received
  obtain rfl : packet = none := hrecv
  rfl

end

/-- A request within the limit of the parser is delivered exactly when its text fits in a
frame. When it does not fit, the connection is closed. -/
theorem delivers_iff (password : Bytes) (c : ℕ) (x : Exchange Origin) {C : Connection}
    (hphase : C.phase = .receiving) {requestId : Int32} {text rest : Bytes}
    (hincoming : C.sock.incoming = encodePacket requestId serverdataExeccommand text ++ rest)
    (hnul : Byte.nul ∉ text) (hlength : text.length ≤ 8192) :
  (Delivers password c C x ⟨requestId, serverdataExeccommand, text⟩
    ↔ text.length ≤ maxFramedText) ∧
  (maxFramedText < text.length → (C.advance password).phase = .closed)
  := by
  generalize hpacket : (⟨requestId, serverdataExeccommand, text⟩ : Packet) = packet
  have hstream : C.sock.incoming
      = encodePacket packet.requestId packet.type packet.payload ++ rest := by
    rw [← hpacket]
    apply hincoming
  have htext : packet.payload = text := by
    rw [← hpacket]
  rw [← htext] at hnul hlength ⊢
  constructor
  · constructor
    · rintro ⟨hrecv, -⟩
      by_contra hlt
      obtain ⟨hnone, -⟩ :=
        closed_of_lt password packet hphase hstream (Nat.lt_of_not_le hlt) hlength
      rw [hnone] at hrecv
      cases hrecv
    · apply delivers_of_le hphase hstream _ hnul
      rw [← hpacket]
  · intro hlt
    apply (closed_of_lt password packet hphase hstream hlt hlength).2

/-- A connection at the top of the command loop, with a request that is still to be read. -/
def requesting (requestId : Int32) (text : Bytes) : Connection where
  sock := { incoming := encodePacket requestId serverdataExeccommand text }
  phase := .receiving

theorem delivers_listPlayers :
  Delivers [] 0 (requesting 7 (ascii "ListPlayers")) {}
    ⟨7, serverdataExeccommand, ascii "ListPlayers"⟩
  := by
  have hincoming : (requesting 7 (ascii "ListPlayers")).sock.incoming
      = encodePacket 7 serverdataExeccommand (ascii "ListPlayers") ++ [] := by
    rw [List.append_nil]
    rfl
  apply (delivers_iff [] 0 {} rfl hincoming (by decide) (by decide)).1.mpr
  decide

/-- The shortest text within the limit of the parser that does not fit in a frame. -/
theorem not_delivers_8183 :
  (List.replicate 8183 Byte.lowerA).length ≤ 8192 ∧
  Byte.nul ∉ List.replicate 8183 Byte.lowerA ∧
  ¬ Delivers [] 0 (requesting 7 (List.replicate 8183 Byte.lowerA)) {}
    ⟨7, serverdataExeccommand, List.replicate 8183 Byte.lowerA⟩ ∧
  ((requesting 7 (List.replicate 8183 Byte.lowerA)).advance []).phase = .closed
  := by
  have hlength : (List.replicate 8183 Byte.lowerA).length = 8183 := List.length_replicate
  have hincoming : (requesting 7 (List.replicate 8183 Byte.lowerA)).sock.incoming
      = encodePacket 7 serverdataExeccommand (List.replicate 8183 Byte.lowerA) ++ [] := by
    rw [List.append_nil]
    rfl
  have hlt : maxFramedText < (List.replicate 8183 Byte.lowerA).length := by
    rw [hlength]
    decide
  have hle : (List.replicate 8183 Byte.lowerA).length ≤ 8192 := by
    rw [hlength]
    decide
  obtain ⟨hnone, hclosed⟩ := closed_of_lt []
    ⟨7, serverdataExeccommand, List.replicate 8183 Byte.lowerA⟩ rfl hincoming hlt hle
  refine ⟨hle, ?_, ?_, hclosed⟩
  · rw [List.mem_replicate]
    decide
  · rintro ⟨hrecv, -⟩
    rw [hnone] at hrecv
    cases hrecv

end OpenScumRcon
