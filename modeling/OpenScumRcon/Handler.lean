import OpenScumRcon.Connection

/-!
# The connection handler, call by call

`Handler` is the point a handler has come to in `handle_connection`, and `Handler.step` takes
it through one call of Winsock, or through the wait for a response, to the next one. What the
call returns is the `Outcome`, which is chosen outside. The bytes a reader has collected
and the bytes still to be sent are those of `recvPacket` and `sendAll`.
-/

namespace OpenScumRcon

open Protocol

/-- What a call returns. -/
structure Outcome where
  /-- The call succeeds: `WSAStartup`, `socket`, `bind`, `listen` or `accept`. -/
  ok : Bool := false
  /-- What `recv` receives. It is empty when the return value is not positive. -/
  chunk : Bytes := []
  /-- How many bytes `send` accepts. It is zero when the return value is not positive. -/
  accepted : ℕ := 0
  /-- The response, if it is there in time. -/
  response : Option Bytes := none

/-- The calls that use a socket. -/
inductive Operation where
  | setsockopt
  | bind
  | listen
  | accept
  | recv
  | send
  deriving DecidableEq

/-! ### Receiving a packet -/

/-- How far `recvPacket` has come, with the bytes of its size or of its body so far. -/
inductive Reader where
  | sizing (buffer : Bytes)
  | reading (size : ℕ) (buffer : Bytes)
  deriving DecidableEq

namespace Reader

/-- A reader in front of a packet. -/
def start : Reader :=
  .sizing []

/-- How many bytes the next call of `recv` asks for. -/
def wanted : Reader → ℕ
  | .sizing buffer => 4 - buffer.length
  | .reading size buffer => size - buffer.length

/-- The reader after a call of `recv`: it goes on, or it has received a packet or failed. -/
def feed (chunk : Bytes) : Reader → Reader ⊕ Option Packet
  | .sizing buffer =>
      if chunk = [] then .inr none
      else
        let buffer := buffer ++ chunk
        if buffer.length < 4 then .inl (.sizing buffer)
        else
          let size := int32OfBytes buffer
          if size.toInt ≤ 0 ∨ 8192 < size.toInt then .inr none
          else .inl (.reading size.toInt.toNat [])
  | .reading size buffer =>
      if chunk = [] then .inr none
      else
        let buffer := buffer ++ chunk
        if buffer.length < size then .inl (.reading size buffer)
        else
          match decodePacketBody buffer {} with
          | (true, packet) => .inr (some packet)
          | (false, _) => .inr none

theorem feed_nil (reader : Reader) :
  reader.feed [] = .inr none
  := by
  cases reader <;> rfl

end Reader

/-! ### Handling a connection -/

/-- Where a handler stands. -/
inductive Handler where
  /-- It receives the packet that authenticates the client. -/
  | readAuth (reader : Reader)
  /-- It sends the rest of the reply to a wrong password. -/
  | sendRefusal (rest : Bytes)
  /-- It sends the rest of the reply to the right password. -/
  | sendAuth (rest : Bytes)
  | readCommand (reader : Reader)
  /-- It has enqueued the command and waits for the response. -/
  | awaiting (packet : Packet)
  /-- It sends the rest of a packet of the response, and then the other ones. -/
  | sendResponse (rest : Bytes) (packets : List Bytes)
  /-- It comes to one of its calls of `closesocket`. -/
  | closing
  deriving DecidableEq

namespace Handler

/-- The call the handler is in. -/
def call : Handler → Option Operation
  | .readAuth _ => some .recv
  | .sendRefusal _ => some .send
  | .sendAuth _ => some .send
  | .readCommand _ => some .recv
  | .awaiting _ => none
  | .sendResponse _ _ => some .send
  | .closing => none

/-- The loop over the packets of a response. -/
def sendNext : List Bytes → Handler
  | [] => .readCommand .start
  | packet :: packets => .sendResponse packet packets

def step (password : Bytes) (outcome : Outcome) : Handler → Handler
  | .readAuth reader =>
      match reader.feed (outcome.chunk.take reader.wanted) with
      | .inl reader => .readAuth reader
      | .inr none => .closing
      | .inr (some authPacket) =>
          if authPacket.type ≠ serverdataAuth then .closing
          else if authPacket.payload ≠ password then
            .sendRefusal (encodePacket (-1) serverdataAuthResponse [])
          else .sendAuth (encodePacket authPacket.requestId serverdataAuthResponse [])
  | .sendRefusal rest =>
      if outcome.accepted = 0 ∨ rest.drop outcome.accepted = [] then .closing
      else .sendRefusal (rest.drop outcome.accepted)
  | .sendAuth rest =>
      if outcome.accepted = 0 then .closing
      else if rest.drop outcome.accepted = [] then .readCommand .start
      else .sendAuth (rest.drop outcome.accepted)
  | .readCommand reader =>
      match reader.feed (outcome.chunk.take reader.wanted) with
      | .inl reader => .readCommand reader
      | .inr none => .closing
      | .inr (some commandPacket) =>
          if commandPacket.type ≠ serverdataExeccommand then .readCommand .start
          else .awaiting commandPacket
  | .awaiting packet =>
      sendNext (encodeResponse packet.requestId (outcome.response.getD commandTimedOut))
  | .sendResponse rest packets =>
      if outcome.accepted = 0 then .closing
      else if rest.drop outcome.accepted = [] then sendNext packets
      else .sendResponse (rest.drop outcome.accepted) packets
  | .closing => .closing

/-- A handler that is in no call waits for a response or is about to close the socket. -/
theorem call_eq_none {handler : Handler} (h : handler.call = none) :
  (∃ packet, handler = .awaiting packet) ∨ handler = .closing
  := by
  cases handler with
  | awaiting packet =>
      left
      use packet
  | closing =>
      right
      rfl
  | _ => cases h

/-- When the call fails, the handler comes to closing the socket. -/
theorem step_of_failure {handler : Handler} (password : Bytes) (h : handler.call ≠ none) :
  handler.step password {} = .closing
  := by
  cases handler with
  | readAuth reader => rw [step, List.take_nil, Reader.feed_nil]
  | readCommand reader => rw [step, List.take_nil, Reader.feed_nil]
  | sendRefusal rest => rw [step, if_pos (.inl rfl)]
  | sendAuth rest => rw [step, if_pos rfl]
  | sendResponse rest packets => rw [step, if_pos rfl]
  | awaiting packet => cases h rfl
  | closing => cases h rfl

/-- Behind the wait the handler sends the response. -/
theorem call_sendNext {packets : List Bytes} (h : packets ≠ []) :
  (sendNext packets).call = some .send
  := by
  obtain ⟨packet, packets, rfl⟩ := List.exists_cons_of_ne_nil h
  rfl

end Handler

end OpenScumRcon
