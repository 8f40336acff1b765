import OpenScumRcon.RconProtocol

/-!
# The packets of a response

The payloads of the packets of a response are the chunks `responseCutter` cuts its text
into. Whatever the bytes of the text, they are small enough, none is lost or repeated, and
a client that decodes the packets and concatenates the payloads gets the text back. When
the text is valid UTF-8 so is every payload, and every payload but the last is within three
bytes of the limit.
-/

namespace OpenScumRcon

namespace Protocol

open Utf8

/-! ### The fields of a packet on the wire -/

def wireSize (packet : Bytes) : Int32 :=
  int32OfBytes (packet.take 4)

def wireRequestId (packet : Bytes) : Int32 :=
  int32OfBytes ((packet.drop 4).take 4)

def wireType (packet : Bytes) : Int32 :=
  int32OfBytes ((packet.drop 8).take 4)

def wirePayload (packet : Bytes) : Bytes :=
  (packet.drop 12).take (packet.length - 14)

/-- The size field a client reads. -/
theorem wireSize_encodePacket (requestId type : Int32) (payload : Bytes) :
  wireSize (encodePacket requestId type payload) = Int32.ofNat (payload.length + 10)
  := by
  rw [wireSize, take_encodePacket, int32OfBytes_int32Bytes]

/-- The request id a client reads. -/
theorem wireRequestId_encodePacket (requestId type : Int32) (payload : Bytes) :
  wireRequestId (encodePacket requestId type payload) = requestId
  := by
  rw [wireRequestId, drop_encodePacket, packetBody, List.append_assoc, List.append_assoc,
    List.take_left' (length_int32Bytes _), int32OfBytes_int32Bytes]

/-- The type a client reads. -/
theorem wireType_encodePacket (requestId type : Int32) (payload : Bytes) :
  wireType (encodePacket requestId type payload) = type
  := by
  rw [wireType, ← List.drop_drop (i := 4) (j := 4), drop_encodePacket, packetBody,
    List.append_assoc, List.append_assoc, List.drop_left' (length_int32Bytes _),
    List.take_left' (length_int32Bytes _), int32OfBytes_int32Bytes]

/-- The payload a client reads. -/
@[simp]
theorem wirePayload_encodePacket (requestId type : Int32) (payload : Bytes) :
  wirePayload (encodePacket requestId type payload) = payload
  := by
  have hlen : payload.length + 14 - 14 = payload.length + 10 - 10 := by omega
  rw [wirePayload, length_encodePacket, hlen, ← List.drop_drop (i := 8) (j := 4),
    drop_encodePacket, ← length_packetBody ⟨requestId, type, payload⟩]
  apply payload_packetBody

/-! ### Responses are cut into chunks -/

theorem encodeResponse.chunkLen_drop (text : Bytes) (offset : ℕ) :
  chunkLen text offset = chunkLen (text.drop offset) 0
  := by
  simp only [chunkLen, List.drop_zero, List.length_drop, Nat.sub_zero]

/-- Cuts the next payload off what is left of a response. -/
def responseCutter : Cutter Byte where
  cut text := encodeResponse.chunkLen text 0
  cut_pos h := encodeResponse.chunkLen_pos (List.length_pos_iff.mpr h)

theorem responseCutter_cut_le (text : Bytes) :
  responseCutter.cut text ≤ maxResponseChunk
  := by
  unfold responseCutter encodeResponse.chunkLen
  dsimp only
  split
  · apply Nat.min_le_left
  · apply utf8PrefixSize_le_limit

/-- The payloads of the packets of a response. An empty response has one packet. -/
def responsePayloads (text : Bytes) : List Bytes :=
  if text = [] then [[]] else responseCutter.chunks text

/-- The loop's packets carry the chunks of what is left, by induction on its length. -/
theorem encodeResponse.loop_eq (requestId : Int32) (text : Bytes) (offset : ℕ) :
  loop requestId text offset
    = (responseCutter.chunks (text.drop offset)).map
        (encodePacket requestId serverdataResponseValue)
  := by
  induction offset using loop.induct text with
  | case1 offset h _ ih =>
      have hne : text.drop offset ≠ [] := by
        rw [ne_eq, List.drop_eq_nil_iff]
        omega
      have hcut : responseCutter.cut (text.drop offset) = chunkLen text offset := by
        symm
        apply chunkLen_drop
      change loop requestId text (offset + chunkLen text offset) = _ at ih
      rw [loop, dif_pos h]
      dsimp only
      rw [ih, responseCutter.chunks_of_ne_nil hne, hcut, List.map_cons, List.drop_drop]
  | case2 offset h =>
      rw [loop, dif_neg h, List.drop_eq_nil_of_le (Nat.le_of_not_lt h), Cutter.chunks_nil,
        List.map_nil]

/-- The packets of a response carry its payloads, in order. -/
theorem encodeResponse_eq (requestId : Int32) (text : Bytes) :
  encodeResponse requestId text
    = (responsePayloads text).map (encodePacket requestId serverdataResponseValue)
  := by
  unfold encodeResponse responsePayloads
  split
  · rfl
  · rw [encodeResponse.loop_eq, List.drop_zero]

/-- The payloads a client reads. -/
theorem map_wirePayload_encodeResponse (requestId : Int32) (text : Bytes) :
  (encodeResponse requestId text).map wirePayload = responsePayloads text
  := by
  rw [encodeResponse_eq, List.map_map]
  conv_rhs => rw [← List.map_id (responsePayloads text)]
  apply List.map_congr_left
  intro payload _
  apply wirePayload_encodePacket

theorem flatten_responsePayloads (text : Bytes) :
  (responsePayloads text).flatten = text
  := by
  unfold responsePayloads
  split
  · next h =>
      rw [h]
      rfl
  · apply Cutter.flatten_chunks

theorem responsePayloads_ne_nil (text : Bytes) :
  responsePayloads text ≠ []
  := by
  unfold responsePayloads
  split
  · apply List.cons_ne_nil
  · next h => apply Cutter.chunks_ne_nil _ h

theorem encodeResponse_ne_nil (requestId : Int32) (text : Bytes) :
  encodeResponse requestId text ≠ []
  := by
  rw [encodeResponse_eq, ne_eq, List.map_eq_nil_iff]
  apply responsePayloads_ne_nil

/-- Every payload is within the protocol's limit. -/
theorem length_le_of_mem_responsePayloads {text payload : Bytes}
    (h : payload ∈ responsePayloads text) :
  payload.length ≤ maxResponseChunk
  := by
  unfold responsePayloads at h
  split at h
  · rw [List.mem_singleton.mp h]
    apply Nat.zero_le
  · apply responseCutter.forall_chunks (P := fun _ => True) _ trivial payload h
    intro l _ _
    refine ⟨?_, trivial⟩
    rw [List.length_take]
    apply Nat.le_trans (Nat.min_le_left _ _) (responseCutter_cut_le l)

theorem ne_nil_of_mem_responsePayloads {text payload : Bytes} (htext : text ≠ [])
    (h : payload ∈ responsePayloads text) :
  payload ≠ []
  := by
  rw [responsePayloads, if_neg htext] at h
  apply Cutter.ne_nil_of_mem_chunks _ h

/-! ### What a client receives -/

/-- A client that decodes the packets one after the other and concatenates their
payloads. -/
def collectResponse : List Bytes → Option Bytes
  | [] => some []
  | packet :: packets =>
      match decodePacketBody (packet.drop 4) {}, collectResponse packets with
      | (true, decoded), some text => some (decoded.payload ++ text)
      | _, _ => none

/-- A client that decodes and joins the packets has the text. -/
theorem collectResponse_map {requestId type : Int32} {payloads : List Bytes}
    (h : ∀ payload ∈ payloads, Byte.nul ∉ payload) :
  collectResponse (payloads.map (encodePacket requestId type)) = some payloads.flatten
  := by
  induction payloads with
  | nil => rfl
  | cons payload payloads ih =>
      have hpayload := h payload List.mem_cons_self
      have hrest := ih (fun p hp => h p (List.mem_cons_of_mem _ hp))
      rw [List.map_cons, collectResponse, drop_encodePacket,
        @decodePacketBody_packetBody ⟨requestId, type, payload⟩ hpayload, hrest]
      rfl

/-- A response is split without loss: whatever its bytes, there is a packet, every packet
has the type of a response, the given request id, and a size prefix that is its length
minus four and at most 4096, and the payloads in order are the text. A client recovers a
text without NUL bytes. -/
theorem encodeResponse_lossless (requestId : Int32) (text : Bytes) :
  encodeResponse requestId text ≠ [] ∧
  (∀ packet ∈ encodeResponse requestId text,
    wireType packet = serverdataResponseValue ∧
    wireRequestId packet = requestId ∧
    (wireSize packet).toInt + 4 = packet.length ∧
    (wireSize packet).toInt ≤ 4096 ∧
    (wirePayload packet).length ≤ 4086 ∧
    (text ≠ [] → wirePayload packet ≠ [])) ∧
  ((encodeResponse requestId text).map wirePayload).flatten = text ∧
  (Byte.nul ∉ text → collectResponse (encodeResponse requestId text) = some text)
  := by
  and_intros
  · apply encodeResponse_ne_nil
  · intro packet hpacket
    rw [encodeResponse_eq] at hpacket
    obtain ⟨payload, hpayload, rfl⟩ := List.mem_map.mp hpacket
    have hlen : payload.length ≤ 4086 := length_le_of_mem_responsePayloads hpayload
    have hsize : (wireSize (encodePacket requestId serverdataResponseValue payload)).toInt
        = (payload.length + 10 : ℕ) := by
      rw [wireSize_encodePacket]
      apply toInt_ofNat_of_lt
      omega
    rw [hsize, wireType_encodePacket, wireRequestId_encodePacket, wirePayload_encodePacket,
      length_encodePacket]
    use rfl, rfl, by omega, by omega, hlen
    intro htext
    apply ne_nil_of_mem_responsePayloads htext hpayload
  · rw [map_wirePayload_encodeResponse, flatten_responsePayloads]
  · intro hnul
    rw [encodeResponse_eq, collectResponse_map, flatten_responsePayloads]
    intro payload hpayload hmem
    apply hnul
    rw [← flatten_responsePayloads text]
    apply List.mem_flatten.mpr
    use payload, hpayload

/-! ### Responses in UTF-8 -/

/-- The first chunk of a valid text is cut at a boundary of it. -/
theorem responseCutter_cut_of_valid {text : Bytes} (h : Valid text) (hne : text ≠ []) :
  utf8PrefixSize text maxResponseChunk ≠ 0 ∧
    responseCutter.cut text = utf8PrefixSize text maxResponseChunk
  := by
  have hpos : utf8PrefixSize text maxResponseChunk ≠ 0 := by
    by_cases hlen : text.length ≤ maxResponseChunk
    · rw [utf8PrefixSize_of_length_le hlen]
      apply Nat.ne_of_gt (List.length_pos_iff.mpr hne)
    · have hcut := limit_le_utf8PrefixSize h (Nat.le_of_not_le hlen)
      have hmax : maxResponseChunk = 4086 := rfl
      omega
  use hpos
  unfold responseCutter encodeResponse.chunkLen
  dsimp only
  rw [List.drop_zero, if_neg hpos]

/-- A chunk ends at a character boundary. -/
theorem valid_cut {text : Bytes} (h : Valid text) (hne : text ≠ []) :
  Valid (text.take (responseCutter.cut text)) ∧ Valid (text.drop (responseCutter.cut text))
  := by
  rw [(responseCutter_cut_of_valid h hne).2]
  apply h.split
  apply utf8PrefixSize_isBoundary_of_valid h

/-- Every payload of a valid text is valid, chunk by chunk. -/
theorem valid_of_mem_responsePayloads {text payload : Bytes} (h : Valid text)
    (hpayload : payload ∈ responsePayloads text) :
  Valid payload
  := by
  unfold responsePayloads at hpayload
  split at hpayload
  · rw [List.mem_singleton.mp hpayload]
    exact .nil
  · apply responseCutter.forall_chunks (P := Valid) _ h payload hpayload
    intro l hl hvalid
    apply valid_cut hvalid hl

/-- What is left of a valid text behind some of its payloads is valid. -/
theorem valid_drop_payloads {text : Bytes} (h : Valid text) {front back : List Bytes}
    (hsplit : responseCutter.chunks text = front ++ back) :
  Valid (text.drop front.flatten.length)
  := by
  have htext : text = front.flatten ++ back.flatten := by
    rw [← List.flatten_append, ← hsplit, Cutter.flatten_chunks]
  rw [htext, List.drop_left]
  have hback : ∀ chunk ∈ back, Valid chunk := by
    intro chunk hchunk
    apply responseCutter.forall_chunks (P := Valid) _ h chunk
    · rw [hsplit]
      apply List.mem_append_right _ hchunk
    · intro l hl hvalid
      apply valid_cut hvalid hl
  clear hsplit htext
  induction back with
  | nil => exact .nil
  | cons chunk back ih =>
      rw [List.flatten_cons]
      apply (hback chunk List.mem_cons_self).append
      apply ih
      intro c hc
      apply hback c (List.mem_cons_of_mem _ hc)

/-- A valid text is split without cutting a code point: every payload is valid UTF-8, the
UTF-8 prefix is not empty at any offset the loop reaches, and every payload but the last
has at least 4083 bytes. -/
theorem encodeResponse_utf8 (requestId : Int32) (text : Bytes) (h : Valid text) :
  (∀ packet ∈ encodeResponse requestId text, Valid (wirePayload packet)) ∧
  (∀ front packet back, encodeResponse requestId text = front ++ packet :: back → text ≠ [] →
    utf8PrefixSize (text.drop (front.map wirePayload).flatten.length) maxResponseChunk ≠ 0) ∧
  (∀ packet ∈ (encodeResponse requestId text).dropLast, 4083 ≤ (wirePayload packet).length)
  := by
  and_intros
  · intro packet hpacket
    rw [encodeResponse_eq] at hpacket
    obtain ⟨payload, hpayload, rfl⟩ := List.mem_map.mp hpacket
    rw [wirePayload_encodePacket]
    apply valid_of_mem_responsePayloads h hpayload
  · intro front packet back hsplit htext
    have hpayloads := map_wirePayload_encodeResponse requestId text
    rw [hsplit, List.map_append, List.map_cons, responsePayloads, if_neg htext] at hpayloads
    have hvalid := valid_drop_payloads h hpayloads.symm
    have hrest := responseCutter.chunks_drop_of_append hpayloads.symm
    refine (responseCutter_cut_of_valid hvalid ?_).1
    intro hnil
    rw [hnil, Cutter.chunks_nil] at hrest
    cases hrest
  · intro packet hpacket
    rw [encodeResponse_eq, ← List.map_dropLast] at hpacket
    obtain ⟨payload, hpayload, rfl⟩ := List.mem_map.mp hpacket
    rw [wirePayload_encodePacket]
    unfold responsePayloads at hpayload
    split at hpayload
    · simp at hpayload
    · apply responseCutter.forall_dropLast_chunks (P := Valid) _ _ h payload hpayload
      · intro l hl hlt
        have hne : l ≠ [] := by
          rintro rfl
          simp at hlt
        rw [(responseCutter_cut_of_valid hl hne).2] at hlt ⊢
        have hlen : maxResponseChunk ≤ l.length := by
          by_contra hshort
          rw [utf8PrefixSize_of_length_le (by omega)] at hlt
          omega
        have hcut := limit_le_utf8PrefixSize hl hlen
        have hmax : maxResponseChunk = 4086 := rfl
        rw [List.length_take]
        omega
      · intro l hne hl
        apply (valid_cut hl hne).2

/-- A character that straddles the end of the first chunk. -/
theorem encodeResponse_utf8_straddling :
  (∀ packet ∈ encodeResponse 42 ((List.replicate 4085 'a' ++ ['😀']).flatMap
      String.utf8EncodeChar), Valid (wirePayload packet)) ∧
  (∀ packet ∈ (encodeResponse 42 ((List.replicate 4085 'a' ++ ['😀']).flatMap
      String.utf8EncodeChar)).dropLast, 4083 ≤ (wirePayload packet).length)
  := by
  obtain ⟨hvalid, -, hlength⟩ := encodeResponse_utf8 42 _ (Valid.flatMap_encodeChar
    (List.replicate 4085 'a' ++ ['😀']))
  exact ⟨hvalid, hlength⟩

end Protocol

end OpenScumRcon
