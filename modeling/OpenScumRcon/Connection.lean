import OpenScumRcon.Framing

/-!
# Connections

`handle_connection` is a state machine: it authenticates the client, and then receives a
command, waits for its response and sends it, until receiving or sending fails. The phase of
a connection is where its handler stands. `Connection.advance` runs the handler from the
phases in which it only works on the socket; the steps through the command queue are made by
the system.

`Connection.Inv` says what a connection has received, enqueued, answered and sent in every
phase.
-/

namespace OpenScumRcon

open Protocol

/-- Where the handler of a connection stands. -/
inductive Phase where
  /-- In front of the packet that authenticates the client. -/
  | authenticating
  /-- At the top of the command loop. -/
  | receiving
  /-- A command packet has been received. -/
  | enqueuing (packet : Packet)
  /-- Its command has been enqueued, and the handler waits for the future. -/
  | waiting (packet : Packet) (future : ℕ)
  /-- The response text is known. -/
  | replying (packet : Packet) (future : ℕ) (text : Bytes)
  /-- The socket has been closed. -/
  | closed

/-- A response handed over for sending, with the command packet and the future it is for. -/
structure Answer where
  packet : Packet
  future : ℕ
  text : Bytes

/-- A connection. The bytes the client sends in all and the answers are its history. -/
structure Connection where
  stream : Bytes := []
  sock : Socket
  phase : Phase := .closed
  answers : List Answer := []

/-- What a wait of 25 seconds without a response is answered with. -/
def commandTimedOut : Bytes :=
  ascii "error: command timed out"

/-! ### The handler -/

/-- The part of `handle_connection` in front of the command loop. It tells whether the loop
is entered. -/
def authenticate (password : Bytes) (sock : Socket) : Bool × Socket :=
  match recvPacket sock with
  | (none, sock) => (false, sock)
  | (some authPacket, sock) =>
      if authPacket.type ≠ serverdataAuth then (false, sock)
      else if authPacket.payload ≠ password then
        (false, (sendAll sock (encodePacket (-1) serverdataAuthResponse [])).2)
      else sendAll sock (encodePacket authPacket.requestId serverdataAuthResponse [])

namespace Connection

/-- A connection that has been accepted. -/
def accepted (sock : Socket) : Connection where
  stream := sock.incoming
  sock := { sock with wire := [] }
  phase := .authenticating

/-- The handler runs on, where it only works on the socket. -/
def advance (password : Bytes) (C : Connection) : Connection :=
  match C.phase with
  | .authenticating =>
      match authenticate password C.sock with
      | (true, sock) => { C with sock, phase := .receiving }
      | (false, sock) => { C with sock, phase := .closed }
  | .receiving =>
      match recvPacket C.sock with
      | (none, sock) => { C with sock, phase := .closed }
      | (some commandPacket, sock) =>
          if commandPacket.type ≠ serverdataExeccommand then { C with sock }
          else { C with sock, phase := .enqueuing commandPacket }
  | .replying packet future text =>
      let answers := C.answers ++ [{ packet, future, text }]
      match sendPackets C.sock (encodeResponse packet.requestId text) with
      | (true, sock) => { C with sock, answers, phase := .receiving }
      | (false, sock) => { C with sock, answers, phase := .closed }
  | .enqueuing _ => C
  | .waiting _ _ => C
  | .closed => C

end Connection

/-! ### Authentication -/

/-- The client of a stream authenticates: its first packet carries the password. -/
structure Authenticates (password stream : Bytes) (auth : Packet) (rest : List Packet) :
    Prop where
  packets : packetsOf stream = auth :: rest
  type : auth.type = serverdataAuth
  payload : auth.payload = password

/-- The reply to the packet that authenticates the client. -/
def authReply (auth : Packet) : Bytes :=
  encodePacket auth.requestId serverdataAuthResponse []

theorem recvPacket_eq_none_or (sock : Socket) :
  (∃ sock', recvPacket sock = (none, sock') ∧ sock'.wire = sock.wire) ∨
  (∃ packet sock', recvPacket sock = (some packet, sock') ∧
    packetsOf sock.incoming = packet :: packetsOf sock'.incoming ∧ sock'.wire = sock.wire)
  := by
  obtain ⟨fragments, heq⟩ := recvPacket_eq sock
  cases hnext : nextFrame sock.incoming with
  | none =>
      rw [hnext] at heq
      obtain ⟨rest, heq⟩ := heq
      left
      use { sock with incoming := rest, fragments }
  | some next =>
      rw [hnext] at heq
      right
      use next.1, { sock with incoming := next.2, fragments }
      refine ⟨heq, ?_, rfl⟩
      apply packetsOf_of_some hnext

/-- The command loop is entered exactly after the reply to a packet that authenticates the
client. -/
theorem authenticate_of_true {password : Bytes} {sock sock' : Socket}
    (h : authenticate password sock = (true, sock')) :
  ∃ auth, Authenticates password sock.incoming auth (packetsOf sock'.incoming) ∧
    sock'.wire = sock.wire ++ authReply auth
  := by
  rw [authenticate] at h
  rcases recvPacket_eq_none_or sock with ⟨sock₁, hrecv, -⟩ | ⟨auth, sock₁, hrecv, hpackets, hwire⟩
  · rw [hrecv] at h
    cases h
  rw [hrecv] at h
  dsimp only at h
  split at h
  · cases h
  next htype =>
  split at h
  · cases h
  next hpayload =>
  obtain ⟨ok, more, acceptances, hsend, -, hiff⟩ := sendAll_eq sock₁ (authReply auth)
  rw [← authReply, hsend] at h
  obtain ⟨rfl, rfl⟩ := Prod.mk.inj h
  use auth
  constructor
  · exact ⟨hpackets, not_not.mp htype, not_not.mp hpayload⟩
  · rw [hiff.mpr rfl, hwire]

/-- When the loop is not entered, at most a reply to the first packet has been sent. -/
theorem authenticate_of_false {password : Bytes} {sock sock' : Socket}
    (h : authenticate password sock = (false, sock')) :
  ∃ reply sent, (reply = [] ∨ ∃ id, reply = encodePacket id serverdataAuthResponse []) ∧
    sent <+: reply ∧ sock'.wire = sock.wire ++ sent
  := by
  rw [authenticate] at h
  rcases recvPacket_eq_none_or sock with ⟨sock₁, hrecv, hwire⟩ | ⟨auth, sock₁, hrecv, -, hwire⟩
  · rw [hrecv] at h
    obtain ⟨-, rfl⟩ := Prod.mk.inj h
    use [], []
    simp [hwire]
  rw [hrecv] at h
  dsimp only at h
  split at h
  · obtain ⟨-, rfl⟩ := Prod.mk.inj h
    use [], []
    simp [hwire]
  split at h
  · obtain ⟨ok, more, acceptances, hsend, hprefix, -⟩ :=
      sendAll_eq sock₁ (encodePacket (-1) serverdataAuthResponse [])
    rw [hsend] at h
    obtain ⟨-, rfl⟩ := Prod.mk.inj h
    use encodePacket (-1) serverdataAuthResponse [], more
    exact ⟨.inr ⟨-1, rfl⟩, hprefix, by rw [hwire]⟩
  · obtain ⟨ok, more, acceptances, hsend, hprefix, -⟩ := sendAll_eq sock₁ (authReply auth)
    rw [← authReply, hsend] at h
    obtain ⟨-, rfl⟩ := Prod.mk.inj h
    use authReply auth, more
    exact ⟨.inr ⟨auth.requestId, rfl⟩, hprefix, by rw [hwire]⟩

/-! ### Sessions -/

/-- A packet whose payload is enqueued. -/
def isCommand (packet : Packet) : Bool :=
  packet.type == serverdataExeccommand

/-- What is sent in front of the answers: the reply to the first packet, or nothing. -/
def IsAuthReply (reply : Bytes) : Prop :=
  reply = [] ∨ ∃ id, reply = encodePacket id serverdataAuthResponse []

namespace Connection

/-- The packets of the answers. -/
def sent (C : Connection) : Bytes :=
  C.answers.flatMap (fun a => (encodeResponse a.packet.requestId a.text).flatten)

/-- The packets of the answers in front of the last one. -/
def sentBeforeLast (C : Connection) : Bytes :=
  C.answers.dropLast.flatMap (fun a => (encodeResponse a.packet.requestId a.text).flatten)

/-- The session of an authenticated client. The packets behind the first are those that have
been read and the rest. The commands enqueued so far are those read, up to the unqueued
ones, and the answers are to the commands, up to the unanswered ones. -/
structure Session (C : Connection) (password : Bytes) (commands : List (Packet × ℕ))
    (auth : Packet) (read rest unqueued : List Packet) (unanswered : List (Packet × ℕ)) :
    Prop where
  authenticates : Authenticates password C.stream auth (read ++ rest)
  commands_eq : read.filter isCommand = commands.map Prod.fst ++ unqueued
  answers_eq : commands = C.answers.map (fun a => (a.packet, a.future)) ++ unanswered

/-- An open session: the rest of the packets is still to be received, and everything else has
been sent. -/
def Serving (C : Connection) (password : Bytes) (commands : List (Packet × ℕ))
    (unqueued : List Packet) (unanswered : List (Packet × ℕ)) : Prop :=
  ∃ auth read,
    C.Session password commands auth read (packetsOf C.sock.incoming) unqueued unanswered ∧
    C.sock.wire = authReply auth ++ C.sent

/-- A closed connection: the client was refused, or its session has ended, perhaps in the
middle of the last answer. -/
def Ended (C : Connection) (password : Bytes) (commands : List (Packet × ℕ)) : Prop :=
  (commands = [] ∧ C.answers = [] ∧ ∃ reply, IsAuthReply reply ∧ C.sock.wire <+: reply)
  ∨ ∃ auth read rest, C.Session password commands auth read rest [] [] ∧
    authReply auth ++ C.sentBeforeLast <+: C.sock.wire ∧ C.sock.wire <+: authReply auth ++ C.sent

/-- The invariant of a connection with the commands it has enqueued. -/
def Inv (C : Connection) (password : Bytes) (commands : List (Packet × ℕ)) : Prop :=
  match C.phase with
  | .authenticating =>
      C.sock.incoming = C.stream ∧ C.sock.wire = [] ∧ C.answers = [] ∧ commands = []
  | .receiving => C.Serving password commands [] []
  | .enqueuing packet => C.Serving password commands [packet] []
  | .waiting packet future => C.Serving password commands [] [(packet, future)]
  | .replying packet future _ => C.Serving password commands [] [(packet, future)]
  | .closed => C.Ended password commands

variable {C : Connection} {password : Bytes} {commands : List (Packet × ℕ)}

theorem sentBeforeLast_isPrefix (C : Connection) :
  C.sentBeforeLast <+: C.sent
  := by
  obtain ⟨back, hback⟩ := C.answers.dropLast_prefix
  have hsent : C.sent = (C.answers.dropLast ++ back).flatMap
      (fun a => (encodeResponse a.packet.requestId a.text).flatten) := by
    rw [hback]
    rfl
  rw [hsent, List.flatMap_append]
  apply List.prefix_append

theorem inv_accepted (sock : Socket) (password : Bytes) :
  (accepted sock).Inv password []
  := ⟨rfl, rfl, rfl, rfl⟩

/-- The step out of the phase `authenticating`. -/
theorem Inv.advance_authenticating (hphase : C.phase = .authenticating)
    (h : C.Inv password commands) :
  (C.advance password).Inv password commands
  := by
  rw [Inv, hphase] at h
  obtain ⟨hincoming, hwire, hanswers, rfl⟩ := h
  rw [advance, hphase]
  dsimp only
  rcases hauth : authenticate password C.sock with ⟨ok, sock⟩
  cases ok with
  | true =>
      obtain ⟨auth, hauthenticates, hsent⟩ := authenticate_of_true hauth
      rw [hincoming] at hauthenticates
      use auth, []
      refine ⟨⟨hauthenticates, rfl, ?_⟩, ?_⟩
      · rw [hanswers]
        rfl
      · rw [hsent, hwire, sent, hanswers]
        simp
  | false =>
      obtain ⟨reply, sent, hreply, hprefix, hsent⟩ := authenticate_of_false hauth
      left
      use rfl, hanswers, reply, hreply
      rw [hsent, hwire]
      apply hprefix

/-- The step at the top of the command loop. -/
theorem Inv.advance_receiving (hphase : C.phase = .receiving) (h : C.Inv password commands) :
  (C.advance password).Inv password commands
  := by
  rw [Inv, hphase] at h
  obtain ⟨auth, read, hsession, hwire⟩ := h
  obtain ⟨hauth, hcommands, hanswers⟩ := hsession
  rw [advance, hphase]
  dsimp only
  rcases recvPacket_eq_none_or C.sock
    with ⟨sock, hrecv, hsock⟩ | ⟨packet, sock, hrecv, hpackets, hsock⟩
  · rw [hrecv]
    right
    use auth, read, packetsOf C.sock.incoming, ⟨hauth, hcommands, hanswers⟩
    have hsame : sock.wire = authReply auth ++ C.sent := hsock.trans hwire
    dsimp only
    rw [hsame]
    constructor
    · apply (List.prefix_append_right_inj _).mpr C.sentBeforeLast_isPrefix
    · apply List.prefix_rfl
  · rw [hrecv]
    dsimp only
    rw [hpackets, ← List.singleton_append, ← List.append_assoc] at hauth
    split
    · next hother =>
        use auth, read ++ [packet]
        refine ⟨⟨hauth, ?_, hanswers⟩, ?_⟩
        · have hnot : isCommand packet = false := by
            simpa [isCommand] using hother
          rw [List.filter_append, hcommands]
          simp [hnot]
        · rw [hsock, hwire]
          rfl
    · next hcommand =>
        use auth, read ++ [packet]
        refine ⟨⟨hauth, ?_, hanswers⟩, ?_⟩
        · have his : isCommand packet = true := by
            simpa [isCommand] using hcommand
          rw [List.filter_append, hcommands]
          simp [his]
        · rw [hsock, hwire]
          rfl

/-- The step that sends an answer. -/
theorem Inv.advance_replying {packet : Packet} {future : ℕ} {text : Bytes}
    (hphase : C.phase = .replying packet future text) (h : C.Inv password commands) :
  (C.advance password).Inv password commands
  := by
  rw [Inv, hphase] at h
  obtain ⟨auth, read, ⟨hauth, hcommands, hanswers⟩, hwire⟩ := h
  obtain ⟨ok, more, acceptances, hsend, hprefix, hiff⟩ :=
    sendPackets_eq C.sock (encodeResponse packet.requestId text)
  have hall : commands = (C.answers ++ [(⟨packet, future, text⟩ : Answer)]).map
      (fun a => (a.packet, a.future)) ++ [] := by
    rw [List.append_nil, List.map_append]
    apply hanswers
  rw [advance, hphase]
  dsimp only
  rw [hsend]
  cases ok with
  | true =>
      use auth, read
      use ⟨hauth, hcommands, hall⟩
      rw [hiff.mpr rfl, hwire, sent, sent, List.flatMap_append, List.append_assoc]
      simp
  | false =>
      right
      use auth, read, packetsOf C.sock.incoming, ⟨hauth, hcommands, hall⟩
      dsimp only
      constructor
      · rw [sentBeforeLast, List.dropLast_concat, hwire]
        apply List.prefix_append
      · rw [hwire, sent, sent, List.flatMap_append, ← List.append_assoc]
        apply (List.prefix_append_right_inj _).mpr
        simpa using hprefix

/-- The handler keeps the invariant. -/
theorem Inv.advance (h : C.Inv password commands) :
  (C.advance password).Inv password commands
  := by
  cases hphase : C.phase with
  | authenticating => apply h.advance_authenticating hphase
  | receiving => apply h.advance_receiving hphase
  | replying packet future text => apply h.advance_replying hphase
  | enqueuing packet =>
      rw [Connection.advance, hphase]
      apply h
  | waiting packet future =>
      rw [Connection.advance, hphase]
      apply h
  | closed =>
      rw [Connection.advance, hphase]
      apply h

/-- The command of the received packet has been enqueued. -/
theorem Inv.enqueue {packet : Packet} (hphase : C.phase = .enqueuing packet)
    (h : C.Inv password commands) (future : ℕ) :
  { C with phase := .waiting packet future }.Inv password (commands ++ [(packet, future)])
  := by
  rw [Inv, hphase] at h
  obtain ⟨auth, read, ⟨hauth, hcommands, hanswers⟩, hwire⟩ := h
  use auth, read
  refine ⟨⟨hauth, ?_, ?_⟩, hwire⟩
  · rw [hcommands, List.map_append, List.append_nil]
    rfl
  · rw [List.append_nil] at hanswers
    rw [hanswers]

/-- The response text is known. -/
theorem Inv.reply {packet : Packet} {future : ℕ} (hphase : C.phase = .waiting packet future)
    (h : C.Inv password commands) (text : Bytes) :
  { C with phase := .replying packet future text }.Inv password commands
  := by
  rw [Inv, hphase] at h
  obtain ⟨auth, read, ⟨hauth, hcommands, hanswers⟩, hwire⟩ := h
  exact ⟨auth, read, ⟨hauth, hcommands, hanswers⟩, hwire⟩

/-! ### Consequences -/

/-- The command a handler waits for has been enqueued. -/
theorem Inv.mem_commands {packet : Packet} {future : ℕ}
    (hphase : C.phase = .waiting packet future) (h : C.Inv password commands) :
  (packet, future) ∈ commands
  := by
  rw [Inv, hphase] at h
  obtain ⟨auth, read, ⟨-, -, hanswers⟩, -⟩ := h
  rw [hanswers]
  simp

/-- In every phase the client has been refused, or not yet been answered, or there is its
session. -/
theorem Inv.refused_or_session (h : C.Inv password commands) :
  (commands = [] ∧ C.answers = [] ∧ ∃ reply, IsAuthReply reply ∧ C.sock.wire <+: reply) ∨
  (∃ auth read rest unqueued unanswered,
    C.Session password commands auth read rest unqueued unanswered ∧
    C.sock.wire <+: authReply auth ++ C.sent)
  := by
  have hserving : ∀ {unqueued unanswered}, C.Serving password commands unqueued unanswered →
      ∃ auth read rest unqueued unanswered,
        C.Session password commands auth read rest unqueued unanswered ∧
        C.sock.wire <+: authReply auth ++ C.sent := by
    rintro unqueued unanswered ⟨auth, read, hsession, hwire⟩
    use auth, read, packetsOf C.sock.incoming, unqueued, unanswered, hsession, []
    rw [List.append_nil, hwire]
  rw [Inv] at h
  split at h
  · obtain ⟨-, hwire, hanswers, hcommands⟩ := h
    left
    use hcommands, hanswers, [], .inl rfl, []
    rw [List.append_nil, hwire]
  · right
    apply hserving h
  · right
    apply hserving h
  · right
    apply hserving h
  · right
    apply hserving h
  · rcases h with hrefused | ⟨auth, read, rest, hsession, -, hwire⟩
    · left
      apply hrefused
    · right
      use auth, read, rest, [], []

/-- Commands are enqueued only for a client that authenticates: they are command packets it
sends behind the first packet, each at most once and in order. -/
theorem Inv.commands_cases (h : C.Inv password commands) :
  commands = [] ∨ ∃ auth rest, Authenticates password C.stream auth rest ∧
    commands.map Prod.fst <+: rest.filter isCommand
  := by
  rcases h.refused_or_session
    with ⟨hcommands, -⟩ | ⟨auth, read, rest, unqueued, unanswered, hsession, -⟩
  · left
    apply hcommands
  · right
    use auth, read ++ rest, hsession.authenticates
    rw [List.filter_append, hsession.commands_eq, List.append_assoc]
    apply List.prefix_append

/-- The answers are to the first commands, in order. -/
theorem Inv.isPrefix_answers (h : C.Inv password commands) :
  C.answers.map (fun a => (a.packet, a.future)) <+: commands
  := by
  rcases h.refused_or_session
    with ⟨-, hanswers, -⟩ | ⟨auth, read, rest, unqueued, unanswered, hsession, -⟩
  · rw [hanswers]
    apply List.nil_prefix
  · rw [hsession.answers_eq]
    apply List.prefix_append

/-- What is on the wire are the packets of the answers, behind the reply to the first packet
and perhaps up to the middle of the last. -/
theorem Inv.isPrefix_wire (h : C.Inv password commands) :
  ∃ reply, IsAuthReply reply ∧ C.sock.wire <+: reply ++ C.sent
  := by
  rcases h.refused_or_session
    with ⟨-, hanswers, reply, hreply, hwire⟩ | ⟨auth, read, rest, unqueued, unanswered, -, hwire⟩
  · use reply, hreply
    rw [sent, hanswers, List.flatMap_nil, List.append_nil]
    apply hwire
  · use authReply auth, .inr ⟨auth.requestId, rfl⟩

end Connection

end OpenScumRcon
