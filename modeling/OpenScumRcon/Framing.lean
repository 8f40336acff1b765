import OpenScumRcon.Socket
import Mathlib.Data.Int.Notation

/-!
# Framing

A frame is a size prefix and a body of that size which decodes to a packet. The packets of
a stream are those of the longest prefix of it that is made of frames. They are what
`recvPacket` receives, one after the other until it fails, however the stream is cut into
fragments.
-/

namespace OpenScumRcon

open Protocol

/-! ### Frames -/

/-- A frame of `packet`: a size between 1 and 8192 and a body of that size that decodes to
`packet`. -/
def IsFrame (frame : Bytes) (packet : Packet) : Prop :=
  ∃ (size : Int32) (body : Bytes), frame = int32Bytes size ++ body ∧
    0 < size.toInt ∧ size.toInt ≤ 8192 ∧ (body.length : ℤ) = size.toInt ∧
    decodePacketBody body {} = (true, packet)

/-- Concatenations of frames, with their packets. -/
inductive Frames : Bytes → List Packet → Prop where
  | nil : Frames [] []
  | cons {frame rest : Bytes} {packet : Packet} {packets : List Packet} :
      IsFrame frame packet → Frames rest packets → Frames (frame ++ rest) (packet :: packets)

/-- The packet of the frame a stream starts with, and what is left of the stream. -/
def nextFrame (stream : Bytes) : Option (Packet × Bytes) :=
  let size := (int32OfBytes (stream.take 4)).toInt
  if stream.length < 4 ∨ size ≤ 0 ∨ 8192 < size ∨ (stream.length : ℤ) < 4 + size then none
  else
    match decodePacketBody ((stream.drop 4).take size.toNat) {} with
    | (true, packet) => some (packet, (stream.drop 4).drop size.toNat)
    | (false, _) => none

/-- The next frame of a stream that begins with one. -/
theorem nextFrame_frame {frame : Bytes} {packet : Packet} (h : IsFrame frame packet)
    (rest : Bytes) :
  nextFrame (frame ++ rest) = some (packet, rest)
  := by
  obtain ⟨size, body, rfl, hpos, hle, hlen, hdecode⟩ := h
  have hsize : (int32Bytes size ++ body ++ rest).take 4 = int32Bytes size := by
    rw [List.append_assoc]
    apply List.take_left' (length_int32Bytes size)
  have hdrop : (int32Bytes size ++ body ++ rest).drop 4 = body ++ rest := by
    rw [List.append_assoc]
    apply List.drop_left' (length_int32Bytes size)
  have hbody : body.length = size.toInt.toNat := by omega
  unfold nextFrame
  rw [hsize, hdrop, int32OfBytes_int32Bytes]
  dsimp only
  rw [if_neg, ← hbody, List.take_left, List.drop_left, hdecode]
  simp only [List.length_append, length_int32Bytes, not_or]
  omega

/-- What is taken off the stream is a frame. -/
theorem exists_frame_of_nextFrame {stream rest : Bytes} {packet : Packet}
    (h : nextFrame stream = some (packet, rest)) :
  ∃ frame, stream = frame ++ rest ∧ IsFrame frame packet
  := by
  unfold nextFrame at h
  dsimp only at h
  split at h
  · cases h
  · next hcond =>
      simp only [not_or, Int.not_le, Int.not_lt, Nat.not_lt] at hcond
      obtain ⟨hfour, hpos, hle, hlen⟩ := hcond
      split at h
      · next packet' hdecode =>
          obtain ⟨rfl, rfl⟩ := Prod.mk.inj (Option.some.inj h)
          have htake : (stream.take 4).length = 4 := by
            rw [List.length_take]
            omega
          generalize hsize : int32OfBytes (stream.take 4) = size at *
          use stream.take 4 ++ (stream.drop 4).take size.toInt.toNat
          constructor
          · rw [List.append_assoc, List.take_append_drop, List.take_append_drop]
          · use size, (stream.drop 4).take size.toInt.toNat
            refine ⟨?_, hpos, hle, ?_, hdecode⟩
            · rw [← hsize, int32Bytes_int32OfBytes htake]
            · rw [List.length_take, List.length_drop]
              omega
      · cases h

theorem IsFrame.length_pos {frame : Bytes} {packet : Packet} (h : IsFrame frame packet) :
  0 < frame.length
  := by
  obtain ⟨size, body, rfl, -⟩ := h
  rw [List.length_append, length_int32Bytes]
  omega

theorem length_lt_of_nextFrame {stream rest : Bytes} {packet : Packet}
    (h : nextFrame stream = some (packet, rest)) :
  rest.length < stream.length
  := by
  obtain ⟨frame, rfl, hframe⟩ := exists_frame_of_nextFrame h
  have hpos := hframe.length_pos
  rw [List.length_append]
  omega

/-! ### The packets of a stream -/

/-- The packets of the frames a stream starts with, up to the first that is none. -/
def packetsOf (stream : Bytes) : List Packet :=
  match _h : nextFrame stream with
  | some (packet, rest) => packet :: packetsOf rest
  | none => []
termination_by stream.length
decreasing_by
  apply length_lt_of_nextFrame _h

theorem packetsOf_of_some {stream rest : Bytes} {packet : Packet}
    (h : nextFrame stream = some (packet, rest)) :
  packetsOf stream = packet :: packetsOf rest
  := by
  rw [packetsOf]
  split
  · next h' =>
      rw [h] at h'
      obtain ⟨rfl, rfl⟩ := Prod.mk.inj (Option.some.inj h')
      rfl
  · next h' =>
      rw [h] at h'
      cases h'

theorem packetsOf_of_none {stream : Bytes} (h : nextFrame stream = none) :
  packetsOf stream = []
  := by
  rw [packetsOf]
  split
  · next h' =>
      rw [h] at h'
      cases h'
  · rfl

/-- A stream is the frames of its packets and a rest that starts with no frame. -/
theorem exists_frames (stream : Bytes) :
  ∃ used rest, stream = used ++ rest ∧ Frames used (packetsOf stream) ∧ nextFrame rest = none
  := by
  induction hn : stream.length using Nat.strongRecOn generalizing stream with
  | ind n ih =>
      cases hnext : nextFrame stream with
      | none =>
          rw [packetsOf_of_none hnext]
          use [], stream
          exact ⟨rfl, .nil, hnext⟩
      | some next =>
          obtain ⟨packet, rest⟩ := next
          have hlt := length_lt_of_nextFrame hnext
          obtain ⟨used, rest', hrest, hused, hend⟩ := ih rest.length (by omega) rest rfl
          obtain ⟨frame, hframe, hisFrame⟩ := exists_frame_of_nextFrame hnext
          use frame ++ used, rest'
          rw [packetsOf_of_some hnext]
          refine ⟨?_, .cons hisFrame hused, hend⟩
          rw [hframe, hrest, List.append_assoc]

/-- No prefix of a stream that is made of frames is longer than one behind which no frame
starts. -/
theorem Frames.length_le {used used' rest rest' : Bytes} {packets packets' : List Packet}
    (h : Frames used packets) (h' : Frames used' packets')
    (hrest : nextFrame rest = none) (heq : used ++ rest = used' ++ rest') :
  used'.length ≤ used.length
  := by
  induction h' generalizing used packets with
  | nil => apply Nat.zero_le _
  | @cons frame' tail' packet' packets' hframe' _ ih =>
      have hnext' := nextFrame_frame hframe' (tail' ++ rest')
      rw [← List.append_assoc, ← heq] at hnext'
      cases h with
      | nil =>
          rw [List.nil_append, hrest] at hnext'
          cases hnext'
      | @cons frame tail packet packets hframe htail =>
          have hnext := nextFrame_frame hframe (tail ++ rest)
          rw [List.append_assoc] at hnext' heq
          rw [hnext] at hnext'
          have htails : tail ++ rest = tail' ++ rest' := (Prod.mk.inj (Option.some.inj hnext')).2
          rw [htails, List.append_assoc] at heq
          have hframes : frame = frame' := List.append_cancel_right heq
          have hle := ih htail htails
          rw [hframes, List.length_append, List.length_append]
          omega

/-! ### Receiving packets -/

/-- `recvPacket` receives the packet of the next frame, whatever the fragments, and leaves
what is behind the frame. It fails when no frame comes next, and never writes. -/
theorem recvPacket_eq (sock : Socket) :
  ∃ fragments,
    match nextFrame sock.incoming with
    | some (packet, rest) =>
        recvPacket sock = (some packet, { sock with incoming := rest, fragments })
    | none => ∃ rest, recvPacket sock = (none, { sock with incoming := rest, fragments })
  := by
  obtain ⟨fragments, hsize⟩ := recvExact_eq sock 4
  unfold recvPacket nextFrame
  by_cases hfour : sock.incoming.length < 4
  · use fragments
    rw [hsize, if_neg (Nat.not_le.mpr hfour), if_pos (.inl hfour)]
    use []
  · rw [hsize, if_pos (Nat.le_of_not_lt hfour)]
    dsimp only
    generalize int32OfBytes (sock.incoming.take 4) = size
    by_cases hbounds : size.toInt ≤ 0 ∨ 8192 < size.toInt
    · use fragments
      rw [if_pos hbounds, if_pos (by omega)]
      use sock.incoming.drop 4
    · obtain ⟨fragments', hbody⟩ := recvExact_eq
        { sock with incoming := sock.incoming.drop 4, fragments } size.toInt.toNat
      use fragments'
      rw [if_neg hbounds, hbody]
      dsimp only
      rw [List.length_drop]
      by_cases hlen : (sock.incoming.length : ℤ) < 4 + size.toInt
      · rw [if_pos (by omega), if_neg (by omega)]
        use []
      · rw [if_neg (by omega), if_pos (by omega)]
        dsimp only
        generalize decodePacketBody ((sock.incoming.drop 4).take size.toInt.toNat) {} = decoded
        obtain ⟨ok, packet⟩ := decoded
        cases ok with
        | false => use (sock.incoming.drop 4).drop size.toInt.toNat
        | true => rfl

/-- The receiver takes the next frame, whatever the fragments are. -/
theorem recvPacket_of_some {sock : Socket} {packet : Packet} {rest : Bytes}
    (h : nextFrame sock.incoming = some (packet, rest)) :
  ∃ fragments, recvPacket sock = (some packet, { sock with incoming := rest, fragments })
  := by
  obtain ⟨fragments, heq⟩ := recvPacket_eq sock
  rw [h] at heq
  use fragments

theorem recvPacket_of_none {sock : Socket} (h : nextFrame sock.incoming = none) :
  (recvPacket sock).1 = none
  := by
  obtain ⟨fragments, heq⟩ := recvPacket_eq sock
  rw [h] at heq
  obtain ⟨rest, heq⟩ := heq
  rw [heq]

/-- A received packet is the first of the stream, and the others are those of what is
left. -/
theorem packetsOf_of_recvPacket {sock sock' : Socket} {packet : Packet}
    (h : recvPacket sock = (some packet, sock')) :
  packetsOf sock.incoming = packet :: packetsOf sock'.incoming ∧
    sock'.incoming.length < sock.incoming.length ∧ sock'.wire = sock.wire
  := by
  cases hnext : nextFrame sock.incoming with
  | none =>
      have hnone := recvPacket_of_none hnext
      rw [h] at hnone
      cases hnone
  | some next =>
      obtain ⟨packet', rest⟩ := next
      obtain ⟨fragments, heq⟩ := recvPacket_of_some hnext
      rw [h] at heq
      obtain ⟨hpacket, rfl⟩ := Prod.mk.inj heq
      obtain rfl := Option.some.inj hpacket
      exact ⟨packetsOf_of_some hnext, length_lt_of_nextFrame hnext, rfl⟩

/-- Calling `recvPacket` until its first failure. -/
def recvPackets (sock : Socket) : List Packet :=
  match _h : recvPacket sock with
  | (some packet, sock') => packet :: recvPackets sock'
  | (none, _) => []
termination_by sock.incoming.length
decreasing_by
  apply (packetsOf_of_recvPacket _h).2.1

/-- The receiver called until it fails gives the packets of the stream. -/
theorem recvPackets_eq (sock : Socket) :
  recvPackets sock = packetsOf sock.incoming
  := by
  induction sock using recvPackets.induct with
  | case1 sock packet sock' h ih =>
      rw [recvPackets, (packetsOf_of_recvPacket h).1, ← ih]
      split
      · next h' =>
          rw [h] at h'
          obtain ⟨hpacket, rfl⟩ := Prod.mk.inj h'
          rw [Option.some.inj hpacket]
      · next h' =>
          rw [h] at h'
          cases h'
  | case2 sock sock' h =>
      have hnext : nextFrame sock.incoming = none := by
        cases hnext : nextFrame sock.incoming with
        | none => rfl
        | some next =>
            obtain ⟨fragments, heq⟩ := recvPacket_of_some hnext
            rw [h] at heq
            cases heq
      rw [recvPackets, packetsOf_of_none hnext]
      split
      · next h' =>
          rw [h] at h'
          cases h'
      · rfl

/-- Framing does not depend on how the network fragments the streams. The packets received
until the first failure are the same for all fragments of a stream: they are those of its
longest prefix made of frames, and behind that prefix `recvPacket` fails. What a response
puts on the wire is a prefix of its packets, and all of them exactly when every `sendAll`
succeeds. -/
theorem framing_fragmentation_independent (sock : Socket) (fragments : ℕ → ℕ)
    (requestId : Int32) (text : Bytes) :
  recvPackets { sock with fragments } = recvPackets sock ∧
  (∃ used rest, sock.incoming = used ++ rest ∧ Frames used (recvPackets sock) ∧
    (∀ used' packets', used' <+: sock.incoming → Frames used' packets' →
      used'.length ≤ used.length) ∧
    ∀ sock' : Socket, sock'.incoming = rest → (recvPacket sock').1 = none) ∧
  ∃ sent, (sendPackets sock (encodeResponse requestId text)).2.wire = sock.wire ++ sent ∧
    sent <+: (encodeResponse requestId text).flatten ∧
    (sent = (encodeResponse requestId text).flatten
      ↔ (sendPackets sock (encodeResponse requestId text)).1 = true)
  := by
  and_intros
  · rw [recvPackets_eq, recvPackets_eq]
  · obtain ⟨used, rest, hstream, hframes, hrest⟩ := exists_frames sock.incoming
    use used, rest, hstream
    rw [recvPackets_eq]
    refine ⟨hframes, ?_, ?_⟩
    · rintro used' packets' ⟨rest', hstream'⟩ hframes'
      rw [hstream] at hstream'
      apply hframes.length_le hframes' hrest hstream'.symm
    · intro sock' hsock'
      apply recvPacket_of_none
      rw [hsock', hrest]
  · obtain ⟨ok, sent, acceptances, hsend, hprefix, hiff⟩ :=
      sendPackets_eq sock (encodeResponse requestId text)
    use sent
    rw [hsend]
    exact ⟨rfl, hprefix, hiff⟩

end OpenScumRcon
