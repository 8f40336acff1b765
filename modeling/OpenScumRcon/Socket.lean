import OpenScumRcon.ResponsePackets

/-!
# Sockets and the packet reader

A connected socket is what the client still sends before the connection ends, what the
server has put on the wire, and how the network cuts both into pieces. `recv` returns
between one byte and the number asked for, as many as the next fragment holds, and fails
when the client sends nothing more. `send` accepts between one byte and the number
offered, or fails.

`recvExact`, `sendAll` and `recvPacket` are the functions of the server over such a socket.
What they return and how many bytes they take or leave does not depend on the fragments.
-/

namespace OpenScumRcon

open Protocol

/-- A connected socket. The `i`-th call of `recv` from now on returns at most
`fragments i + 1` bytes, the `i`-th call of `send` fails or accepts at most one byte more
than `acceptances i`. -/
structure Socket where
  incoming : Bytes
  fragments : ℕ → ℕ := fun _ => 0
  wire : Bytes := []
  acceptances : ℕ → Option ℕ := fun _ => some 0

/-- Winsock `recv` with room for `len` bytes. No result stands for a return value that is
not positive: the connection has been closed or has failed. -/
def Socket.recv (sock : Socket) (len : ℕ) : Option Bytes × Socket :=
  if sock.incoming = [] then (none, sock)
  else
    let n := min len (sock.fragments 0 + 1)
    (some (sock.incoming.take n),
      { sock with incoming := sock.incoming.drop n
                  fragments := fun i => sock.fragments (i + 1) })

/-- Winsock `send`, offering `data`. No result stands for a return value that is not
positive. -/
def Socket.send (sock : Socket) (data : Bytes) : Option ℕ × Socket :=
  let rest := { sock with acceptances := fun i => sock.acceptances (i + 1) }
  match sock.acceptances 0 with
  | none => (none, rest)
  | some k =>
      let n := min data.length (k + 1)
      (some n, { rest with wire := sock.wire ++ data.take n })

/-- A successful `recv` gives a byte at least. -/
theorem Socket.length_recv_pos {sock sock' : Socket} {len : ℕ} {chunk : Bytes} (hlen : 0 < len)
    (h : sock.recv len = (some chunk, sock')) :
  0 < chunk.length
  := by
  unfold recv at h
  split at h
  · cases h
  · next hne =>
      obtain ⟨hchunk, -⟩ := Prod.mk.inj h
      have hin := List.length_pos_iff.mpr hne
      rw [← Option.some.inj hchunk, List.length_take]
      omega

/-- A fragment has at most as many bytes as there is room for. -/
theorem Socket.length_recv_le {sock sock' : Socket} {len : ℕ} {chunk : Bytes}
    (h : sock.recv len = (some chunk, sock')) :
  chunk.length ≤ len
  := by
  unfold recv at h
  split at h
  · cases h
  · obtain ⟨hchunk, -⟩ := Prod.mk.inj h
    rw [← Option.some.inj hchunk, List.length_take]
    omega

/-- A successful `send` takes a byte at least. -/
theorem Socket.send_pos {sock sock' : Socket} {data : Bytes} {n : ℕ} (hdata : 0 < data.length)
    (h : sock.send data = (some n, sock')) :
  0 < n
  := by
  unfold send at h
  split at h
  · cases h
  · obtain ⟨hn, -⟩ := Prod.mk.inj h
    rw [← Option.some.inj hn]
    omega

/-- The loop of `recvExact`, with the bytes received so far in `buffer`. -/
def recvExact.loop (sock : Socket) (size : ℕ) (buffer : Bytes) : Option Bytes × Socket :=
  if _h : buffer.length < size then
    match _hr : sock.recv (size - buffer.length) with
    | (none, sock') => (none, sock')
    | (some chunk, sock') => loop sock' size (buffer ++ chunk)
  else (some buffer, sock)
termination_by size - buffer.length
decreasing_by
  have hpos := Socket.length_recv_pos (by omega) _hr
  rw [List.length_append]
  omega

/-- Receives exactly `size` bytes, or fails. -/
def recvExact (sock : Socket) (size : ℕ) : Option Bytes × Socket :=
  recvExact.loop sock size []

/-- The loop of `sendAll`, with the first `sent` bytes of `data` already sent. -/
def sendAll.loop (sock : Socket) (data : Bytes) (sent : ℕ) : Bool × Socket :=
  if _h : sent < data.length then
    match _hs : sock.send (data.drop sent) with
    | (none, sock') => (false, sock')
    | (some n, sock') => loop sock' data (sent + n)
  else (true, sock)
termination_by data.length - sent
decreasing_by
  have hpos := Socket.send_pos (by rw [List.length_drop]; omega) _hs
  omega

/-- Sends all of `data`, or fails after a part of it. -/
def sendAll (sock : Socket) (data : Bytes) : Bool × Socket :=
  sendAll.loop sock data 0

/-- Receives a packet: its size, then its body. A size that is not positive or above 8192
is refused before anything else is read. -/
def recvPacket (sock : Socket) : Option Packet × Socket :=
  match recvExact sock 4 with
  | (none, sock) => (none, sock)
  | (some sizeBuf, sock) =>
      let size := int32OfBytes sizeBuf
      if size.toInt ≤ 0 ∨ 8192 < size.toInt then (none, sock)
      else
        match recvExact sock size.toInt.toNat with
        | (none, sock) => (none, sock)
        | (some body, sock) =>
            match decodePacketBody body {} with
            | (true, packet) => (some packet, sock)
            | (false, _) => (none, sock)

/-- The loop of `handle_connection` that sends the packets of a response, up to the first
that fails. -/
def sendPackets (sock : Socket) : List Bytes → Bool × Socket
  | [] => (true, sock)
  | packet :: packets =>
      match sendAll sock packet with
      | (true, sock') => sendPackets sock' packets
      | (false, sock') => (false, sock')

/-! ### What the loops transfer -/

theorem recvExact.loop_of_lt (sock : Socket) {size : ℕ} {buffer : Bytes}
    (h : buffer.length < size) :
  loop sock size buffer =
    match sock.recv (size - buffer.length) with
    | (none, sock') => (none, sock')
    | (some chunk, sock') => loop sock' size (buffer ++ chunk)
  := by
  rw [loop, dif_pos h]
  split
  · next hr => rw [hr]
  · next hr => rw [hr]

theorem recvExact.loop_of_le (sock : Socket) {size : ℕ} {buffer : Bytes}
    (h : size ≤ buffer.length) :
  loop sock size buffer = (some buffer, sock)
  := by
  rw [loop, dif_neg (Nat.not_lt.mpr h)]

/-- The result of asking for what is missing of `size` bytes, whatever the fragments: the
next bytes of the stream when it has as many, and otherwise a failure. -/
theorem recvExact.loop_eq (sock : Socket) (size : ℕ) (buffer : Bytes)
    (hsize : buffer.length ≤ size) :
  ∃ fragments, loop sock size buffer =
    if size - buffer.length ≤ sock.incoming.length then
      (some (buffer ++ sock.incoming.take (size - buffer.length)),
        { sock with incoming := sock.incoming.drop (size - buffer.length), fragments })
    else (none, { sock with incoming := [], fragments })
  := by
  induction hn : size - buffer.length using Nat.strongRecOn generalizing sock buffer with
  | ind n ih =>
      by_cases hlt : buffer.length < size
      · rw [loop_of_lt sock hlt, Socket.recv]
        by_cases hin : sock.incoming = []
        · have hshort : ¬ n ≤ sock.incoming.length := by
            rw [hin, List.length_nil]
            omega
          use sock.fragments
          rw [if_pos hin, if_neg hshort, ← hin]
        · rw [if_neg hin]
          -- one fragment of `k` bytes arrives, the rest of the loop receives what is left
          dsimp only
          generalize hk : min (size - buffer.length) (sock.fragments 0 + 1) = k
          have hkpos : 0 < k := by omega
          have hinpos := List.length_pos_iff.mpr hin
          have hlen : (buffer ++ sock.incoming.take k).length
              = buffer.length + min k sock.incoming.length := by
            rw [List.length_append, List.length_take]
          obtain ⟨fragments, hloop⟩ := ih (n - min k sock.incoming.length) (by omega)
            { sock with incoming := sock.incoming.drop k
                        fragments := fun i => sock.fragments (i + 1) }
            (buffer ++ sock.incoming.take k) (by omega) (by omega)
          use fragments
          rw [hloop]
          dsimp only
          rw [List.length_drop]
          by_cases hle : n ≤ sock.incoming.length
          · have hmin : min k sock.incoming.length = k := by omega
            have hsum : k + (n - k) = n := by omega
            rw [if_pos hle, hmin, if_pos (by omega), List.drop_drop, hsum, List.append_assoc,
              ← List.take_add, hsum]
          · rw [if_neg hle, if_neg (by omega)]
      · have hn0 : n = 0 := by omega
        use sock.fragments
        rw [loop_of_le sock (Nat.le_of_not_lt hlt), hn0, if_pos (Nat.zero_le _),
          List.take_zero, List.drop_zero, List.append_nil]

/-- `recvExact` takes the next `size` bytes of the stream when it has as many, and fails
otherwise. It writes nothing. -/
theorem recvExact_eq (sock : Socket) (size : ℕ) :
  ∃ fragments, recvExact sock size =
    if size ≤ sock.incoming.length then
      (some (sock.incoming.take size),
        { sock with incoming := sock.incoming.drop size, fragments })
    else (none, { sock with incoming := [], fragments })
  := recvExact.loop_eq sock size [] (Nat.zero_le size)

theorem sendAll.loop_of_lt (sock : Socket) {data : Bytes} {sent : ℕ}
    (h : sent < data.length) :
  loop sock data sent =
    match sock.send (data.drop sent) with
    | (none, sock') => (false, sock')
    | (some n, sock') => loop sock' data (sent + n)
  := by
  rw [loop, dif_pos h]
  split
  · next hs => rw [hs]
  · next hs => rw [hs]

theorem sendAll.loop_of_le (sock : Socket) {data : Bytes} {sent : ℕ}
    (h : data.length ≤ sent) :
  loop sock data sent = (true, sock)
  := by
  rw [loop, dif_neg (Nat.not_lt.mpr h)]

/-- However the bytes are accepted, the loop puts a prefix of what is not sent yet on the
wire, and all of it exactly when it succeeds. -/
theorem sendAll.loop_eq (sock : Socket) (data : Bytes) (sent : ℕ) :
  ∃ (ok : Bool) (more : Bytes) (acceptances : ℕ → Option ℕ),
    loop sock data sent = (ok, { sock with wire := sock.wire ++ more, acceptances }) ∧
    more <+: data.drop sent ∧ (more = data.drop sent ↔ ok = true)
  := by
  induction hn : data.length - sent using Nat.strongRecOn generalizing sock sent with
  | ind n ih =>
      by_cases hlt : sent < data.length
      · rw [loop_of_lt sock hlt, Socket.send]
        cases hacc : sock.acceptances 0 with
        | none =>
            use false, [], fun i => sock.acceptances (i + 1)
            refine ⟨?_, List.nil_prefix, ?_⟩
            · rw [List.append_nil]
            · constructor
              · intro hnil
                have hdrop := List.drop_eq_nil_iff.mp hnil.symm
                omega
              · intro hfalse
                cases hfalse
        | some a =>
            dsimp only
            generalize hk : min (data.drop sent).length (a + 1) = k
            rw [List.length_drop] at hk
            obtain ⟨ok, more, acceptances, hloop, hprefix, hiff⟩ := ih (n - k) (by omega)
              { sock with wire := sock.wire ++ (data.drop sent).take k
                          acceptances := fun i => sock.acceptances (i + 1) }
              (sent + k) (by omega)
            have hdrop : data.drop sent = (data.drop sent).take k ++ data.drop (sent + k) := by
              rw [← List.drop_drop, List.take_append_drop]
            use ok, (data.drop sent).take k ++ more, acceptances
            and_intros
            · rw [hloop, List.append_assoc]
            · conv_rhs => rw [hdrop]
              apply (List.prefix_append_right_inj _).mpr hprefix
            · rw [← hiff]
              conv_lhs => rhs; rw [hdrop]
              apply List.append_right_inj
      · use true, [], sock.acceptances
        have hle := Nat.le_of_not_lt hlt
        rw [loop_of_le sock hle, List.append_nil, List.drop_eq_nil_of_le hle]
        simp

/-- `sendAll` puts a prefix of `data` on the wire, and all of it exactly when it succeeds.
It takes nothing from the stream of the client. -/
theorem sendAll_eq (sock : Socket) (data : Bytes) :
  ∃ (ok : Bool) (more : Bytes) (acceptances : ℕ → Option ℕ),
    sendAll sock data = (ok, { sock with wire := sock.wire ++ more, acceptances }) ∧
    more <+: data ∧ (more = data ↔ ok = true)
  := sendAll.loop_eq sock data 0

/-- The packets of a response reach the wire in order up to some byte, and whole exactly
when every `sendAll` succeeded. -/
theorem sendPackets_eq (sock : Socket) (packets : List Bytes) :
  ∃ (ok : Bool) (more : Bytes) (acceptances : ℕ → Option ℕ),
    sendPackets sock packets = (ok, { sock with wire := sock.wire ++ more, acceptances }) ∧
    more <+: packets.flatten ∧ (more = packets.flatten ↔ ok = true)
  := by
  induction packets generalizing sock with
  | nil =>
      use true, [], sock.acceptances
      simp [sendPackets]
  | cons packet packets ih =>
      obtain ⟨ok, more, acceptances, hsend, hprefix, hiff⟩ := sendAll_eq sock packet
      rw [sendPackets, hsend, List.flatten_cons]
      cases ok with
      | false =>
          use false, more, acceptances
          use rfl, hprefix.trans (List.prefix_append _ _)
          constructor
          · -- a whole response would hold this packet whole
            intro hall
            apply hiff.mp
            apply hprefix.eq_of_length_le
            rw [hall, List.length_append]
            apply Nat.le_add_right
          · intro hfalse
            cases hfalse
      | true =>
          obtain rfl := hiff.mpr rfl
          obtain ⟨ok, rest, acceptances', hrest, hprefix', hiff'⟩ := ih
            { sock with wire := sock.wire ++ more, acceptances }
          use ok, more ++ rest, acceptances'
          and_intros
          · dsimp only
            rw [hrest, List.append_assoc]
          · apply (List.prefix_append_right_inj _).mpr hprefix'
          · rw [← hiff']
            apply List.append_right_inj

end OpenScumRcon
