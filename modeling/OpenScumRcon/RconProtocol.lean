import OpenScumRcon.ResponseBuffer
import OpenScumRcon.Library.Chunks

/-!
# The Source RCON wire protocol

A packet on the wire is

    <size:int32><request_id:int32><type:int32><payload><NUL><NUL>

where `size` is the length of everything after it, called the body. `encodePacket` writes
a packet, `decodePacketBody` reads a body, and `encodeResponse` splits a response into
packets small enough for the protocol.

The bodies `decodePacketBody` accepts are exactly the bodies `encodePacket` writes for
payloads without NUL bytes. The payloads of the packets of a response are the chunks of its
text, cut by `responseCutter`.
-/

namespace OpenScumRcon

namespace Protocol

def serverdataResponseValue : Int32 := 0
def serverdataExeccommand : Int32 := 2
def serverdataAuthResponse : Int32 := 2
def serverdataAuth : Int32 := 3

/-- The greatest payload of a response packet. -/
def maxResponseChunk : ℕ := 4086

structure Packet where
  requestId : Int32 := 0
  type : Int32 := 0
  payload : Bytes := []
  deriving DecidableEq

/-- Serializes a packet, its size prefix included. -/
def encodePacket (requestId type : Int32) (payload : Bytes) : Bytes :=
  let bodySize := 8 + payload.length + 2
  let size := Int32.ofNat bodySize
  int32Bytes size ++ int32Bytes requestId ++ int32Bytes type ++ payload
    ++ [Byte.nul, Byte.nul]

/-- Parses a body into the output packet. A body that is too short, lacks a terminator or
has a NUL byte in its payload is rejected, and the output packet stays as it was. -/
def decodePacketBody (body : Bytes) (out : Packet) : Bool × Packet :=
  if body.length < 10 ∨ body[body.length - 1]? ≠ some Byte.nul ∨
      body[body.length - 2]? ≠ some Byte.nul ∨
      Byte.nul ∈ (body.drop 8).take (body.length - 10) then
    (false, out)
  else
    (true, { requestId := int32OfBytes (body.take 4)
             type := int32OfBytes ((body.drop 4).take 4)
             payload := (body.drop 8).take (body.length - 10) })

/-- The length of the chunk of `text` at `offset`. When the UTF-8 prefix is empty, as it
can be in malformed text, the chunk is cut at the limit. -/
def encodeResponse.chunkLen (text : Bytes) (offset : ℕ) : ℕ :=
  let chunkLen := utf8PrefixSize (text.drop offset) maxResponseChunk
  if chunkLen = 0 then min maxResponseChunk (text.length - offset) else chunkLen

/-- Every chunk of the loop takes a byte at least. -/
theorem encodeResponse.chunkLen_pos {text : Bytes} {offset : ℕ} (h : offset < text.length) :
  0 < chunkLen text offset
  := by
  unfold chunkLen
  dsimp only
  split
  · apply Nat.lt_min.mpr
    constructor
    · decide
    · omega
  · omega

/-- The packets of what is left of `text` from `offset` on. -/
def encodeResponse.loop (requestId : Int32) (text : Bytes) (offset : ℕ) : List Bytes :=
  if _h : offset < text.length then
    let chunkLen := encodeResponse.chunkLen text offset
    encodePacket requestId serverdataResponseValue ((text.drop offset).take chunkLen)
      :: loop requestId text (offset + chunkLen)
  else []
termination_by text.length - offset
decreasing_by
  have hpos := encodeResponse.chunkLen_pos _h
  omega

/-- Splits `text` into one or more response packets. -/
def encodeResponse (requestId : Int32) (text : Bytes) : List Bytes :=
  if text = [] then [encodePacket requestId serverdataResponseValue []]
  else encodeResponse.loop requestId text 0

/-! ### The body of a packet -/

/-- What `encodePacket` writes after the size prefix. -/
def packetBody (packet : Packet) : Bytes :=
  int32Bytes packet.requestId ++ int32Bytes packet.type ++ packet.payload
    ++ [Byte.nul, Byte.nul]

theorem length_packetBody (packet : Packet) :
  (packetBody packet).length = packet.payload.length + 10
  := by
  simp only [packetBody, List.length_append, length_int32Bytes, List.length_cons,
    List.length_nil]
  omega

/-- A packet is its size field and its body. -/
theorem encodePacket_eq (requestId type : Int32) (payload : Bytes) :
  encodePacket requestId type payload
    = int32Bytes (Int32.ofNat (payload.length + 10)) ++ packetBody ⟨requestId, type, payload⟩
  := by
  have hsize : 8 + payload.length + 2 = payload.length + 10 := by omega
  simp only [encodePacket, packetBody, hsize, List.append_assoc]

theorem length_encodePacket (requestId type : Int32) (payload : Bytes) :
  (encodePacket requestId type payload).length = payload.length + 14
  := by
  rw [encodePacket_eq, List.length_append, length_int32Bytes, length_packetBody]
  dsimp only
  omega

/-- The first four bytes of a packet are its size field. -/
theorem take_encodePacket (requestId type : Int32) (payload : Bytes) :
  (encodePacket requestId type payload).take 4
    = int32Bytes (Int32.ofNat (payload.length + 10))
  := by
  rw [encodePacket_eq]
  apply List.take_left' (length_int32Bytes _)

/-- What follows the size field is the body. -/
theorem drop_encodePacket (requestId type : Int32) (payload : Bytes) :
  (encodePacket requestId type payload).drop 4 = packetBody ⟨requestId, type, payload⟩
  := by
  rw [encodePacket_eq]
  apply List.drop_left' (length_int32Bytes _)

/-- The size prefix is the little-endian length of the body. -/
theorem int32Bytes_ofNat {n : ℕ} (h : n < 2 ^ 31) :
  int32Bytes (Int32.ofNat n) = LittleEndian.encode 4 n
  := by
  have hnat : (Int32.ofNat n).toUInt32.toNat = n := by
    apply UInt32.toNat_ofNat_of_lt'
    apply Nat.lt_trans h
    decide
  rw [int32Bytes, hnat]

/-! ### Decoding a body -/

theorem payload_packetBody (packet : Packet) :
  ((packetBody packet).drop 8).take ((packetBody packet).length - 10) = packet.payload
  := by
  have hheader : (int32Bytes packet.requestId ++ int32Bytes packet.type).length = 8 := by
    simp
  rw [length_packetBody, Nat.add_sub_cancel, packetBody, List.append_assoc,
    List.drop_left' hheader, List.take_left]

/-- Both terminators of a body are NUL. -/
theorem packetBody_terminators (packet : Packet) :
  (packetBody packet)[(packetBody packet).length - 1]? = some Byte.nul ∧
    (packetBody packet)[(packetBody packet).length - 2]? = some Byte.nul
  := by
  have hlen := length_packetBody packet
  rw [packetBody, List.length_append] at hlen ⊢
  constructor
  · rw [List.getElem?_append_right (by simp)]
    simp
  · rw [List.getElem?_append_right (by simp)]
    simp

/-- A list of at least two bytes whose last two are NUL ends in the terminators. -/
theorem drop_eq_terminators {body : Bytes} (hlen : 2 ≤ body.length)
    (hlast : body[body.length - 1]? = some Byte.nul)
    (hlast' : body[body.length - 2]? = some Byte.nul) :
  body.drop (body.length - 2) = [Byte.nul, Byte.nul]
  := by
  have h2 : body.length - 2 < body.length := by omega
  have h1 : body.length - 1 < body.length := by omega
  have hsucc : body.length - 2 + 1 = body.length - 1 := by omega
  have hend : body.length - 1 + 1 = body.length := by omega
  rw [List.getElem?_eq_getElem h1] at hlast
  rw [List.getElem?_eq_getElem h2] at hlast'
  rw [List.drop_eq_getElem_cons h2, hsucc, List.drop_eq_getElem_cons h1, hend,
    List.drop_length, Option.some.inj hlast, Option.some.inj hlast']

/-- A body is decoded to a packet exactly when it is the body of that packet and the
payload has no NUL byte. -/
theorem decodePacketBody_eq_true_iff {body : Bytes} {out packet : Packet} :
  decodePacketBody body out = (true, packet)
    ↔ body = packetBody packet ∧ Byte.nul ∉ packet.payload
  := by
  constructor
  · intro h
    unfold decodePacketBody at h
    split at h
    · cases h
    · next hcond =>
        simp only [not_or, Nat.not_lt, ne_eq, not_not] at hcond
        obtain ⟨hlen, hlast, hlast', hnul⟩ := hcond
        obtain rfl := (Prod.mk.inj h).2
        refine ⟨?_, hnul⟩
        have hid : (body.take 4).length = 4 := by
          rw [List.length_take]
          omega
        have htype : ((body.drop 4).take 4).length = 4 := by
          rw [List.length_take, List.length_drop]
          omega
        have hend : 8 + (body.length - 10) = body.length - 2 := by omega
        have hrest : (body.drop 8).drop (body.length - 10) = [Byte.nul, Byte.nul] := by
          rw [List.drop_drop, hend]
          apply drop_eq_terminators (by omega) hlast hlast'
        calc body
            = body.take 4 ++ ((body.drop 4).take 4
                ++ ((body.drop 8).take (body.length - 10)
                  ++ (body.drop 8).drop (body.length - 10))) := by
              rw [List.take_append_drop, ← List.drop_drop (i := 4) (j := 4),
                List.take_append_drop, List.take_append_drop]
          _ = _ := by
              rw [hrest, packetBody, int32Bytes_int32OfBytes hid,
                int32Bytes_int32OfBytes htype, List.append_assoc, List.append_assoc]
  · rintro ⟨rfl, hnul⟩
    obtain ⟨hlast, hlast'⟩ := packetBody_terminators packet
    have hid : (packetBody packet).take 4 = int32Bytes packet.requestId := by
      rw [packetBody, List.append_assoc, List.append_assoc]
      apply List.take_left' (length_int32Bytes _)
    have htype : ((packetBody packet).drop 4).take 4 = int32Bytes packet.type := by
      rw [packetBody, List.append_assoc, List.append_assoc,
        List.drop_left' (length_int32Bytes _)]
      apply List.take_left' (length_int32Bytes _)
    have hlen : ¬ (packetBody packet).length < 10 := by
      rw [length_packetBody]
      omega
    rw [decodePacketBody, if_neg]
    · rw [hid, htype, payload_packetBody, int32OfBytes_int32Bytes, int32OfBytes_int32Bytes]
    · rw [payload_packetBody]
      simp only [hlast, hlast', hnul, hlen, ne_eq, not_true_eq_false, or_self,
        not_false_eq_true]

theorem decodePacketBody_packetBody {packet : Packet} (h : Byte.nul ∉ packet.payload)
    (out : Packet) :
  decodePacketBody (packetBody packet) out = (true, packet)
  := decodePacketBody_eq_true_iff.mpr ⟨rfl, h⟩

/-- A rejected body leaves the output packet as it was. -/
theorem decodePacketBody_of_false {body : Bytes} {out : Packet}
    (h : (decodePacketBody body out).1 = false) :
  (decodePacketBody body out).2 = out
  := by
  unfold decodePacketBody at h ⊢
  split
  · rfl
  · next hcond =>
      rw [if_neg hcond] at h
      cases h

theorem packetBody_injective :
  Function.Injective packetBody
  := by
  intro p q h
  unfold packetBody at h
  simp only [List.append_assoc] at h
  obtain ⟨hid, h⟩ := List.append_inj h (by simp)
  obtain ⟨htype, h⟩ := List.append_inj h (by simp)
  have hpayload := List.append_cancel_right h
  obtain ⟨id, type, payload⟩ := p
  obtain rfl := int32Bytes_injective hid
  obtain rfl := int32Bytes_injective htype
  obtain rfl := hpayload
  rfl

/-- The size prefix of an encoded packet is the little-endian length of the body behind it,
and the body decodes to the packet exactly when the payload has no NUL byte. An accepted
body is the body of the packet it decodes to, and a rejected one leaves the output packet
as it was. -/
theorem packet_codec :
  (∀ (requestId type : Int32) (payload : Bytes) (out : Packet), payload.length + 10 < 2 ^ 31 →
    let packet := encodePacket requestId type payload
    packet.take 4 = LittleEndian.encode 4 (packet.drop 4).length ∧
    ((decodePacketBody (packet.drop 4) out).1 = true ↔ Byte.nul ∉ payload) ∧
    (Byte.nul ∉ payload →
      decodePacketBody (packet.drop 4) out = (true, ⟨requestId, type, payload⟩))) ∧
  (∀ (body : Bytes) (out : Packet) (requestId type : Int32) (payload : Bytes),
    decodePacketBody body out = (true, ⟨requestId, type, payload⟩) →
      (encodePacket requestId type payload).drop 4 = body) ∧
  (∀ (body : Bytes) (out : Packet),
    (decodePacketBody body out).1 = false → (decodePacketBody body out).2 = out)
  := by
  and_intros
  · intro requestId type payload out hsize
    dsimp only
    rw [take_encodePacket, drop_encodePacket, length_packetBody]
    refine ⟨int32Bytes_ofNat hsize, ?_, ?_⟩
    · constructor
      · intro hok
        obtain ⟨hbody, hnul⟩ := decodePacketBody_eq_true_iff.mp (Prod.ext hok rfl)
        rw [← packetBody_injective hbody] at hnul
        apply hnul
      · intro hnul
        rw [decodePacketBody_packetBody hnul]
    · intro hnul
      apply decodePacketBody_packetBody hnul
  · intro body out requestId type payload h
    rw [drop_encodePacket]
    symm
    apply (decodePacketBody_eq_true_iff.mp h).1
  · intro body out h
    apply decodePacketBody_of_false h

end Protocol

end OpenScumRcon
