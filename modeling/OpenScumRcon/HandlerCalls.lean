import OpenScumRcon.Handler

/-!
# The handler on a socket

What the calls of a handler have in common: those with which it receives a packet, wherever it goes
with the packet, and those with which it sends some bytes, wherever it goes from there.
-/

namespace OpenScumRcon

open Protocol

namespace Handler

/-- The reader of a handler that receives a packet. -/
def reader : Handler → Option Reader
  | .readAuth reader => some reader
  | .readCommand reader => some reader
  | _ => none

/-- The bytes that a handler is still to send. -/
def unsent : Handler → Option Bytes
  | .sendRefusal rest => some rest
  | .sendAuth rest => some rest
  | .sendResponse rest _ => some rest
  | _ => none

/-- The handler of a phase stands where the phase begins. -/
def ofPhase : Phase → Handler
  | .authenticating => .readAuth .start
  | .receiving => .readCommand .start
  | .enqueuing packet => .awaiting packet
  | .waiting packet _ => .awaiting packet
  | .replying packet _ text => sendNext (encodeResponse packet.requestId text)
  | .closed => .closing

/-! ### Receiving -/

/-- Where the handler goes with the packet that authenticates the client. -/
def behindAuth (password : Bytes) : Option Packet → Handler
  | none => .closing
  | some authPacket =>
      if authPacket.type ≠ serverdataAuth then .closing
      else if authPacket.payload ≠ password then
        .sendRefusal (encodePacket (-1) serverdataAuthResponse [])
      else .sendAuth (authReply authPacket)

/-- Where the handler goes with a packet of the command loop. -/
def behindCommand : Option Packet → Handler
  | none => .closing
  | some commandPacket =>
      if commandPacket.type ≠ serverdataExeccommand then .readCommand .start
      else .awaiting commandPacket

/-- A handler that receives a packet and goes on with it. -/
structure Receives (password : Bytes) (wrap : Reader → Handler) (behind : Option Packet → Handler) :
    Prop where
  reader : ∀ reader, (wrap reader).reader = some reader
  step : ∀ reader chunk, (wrap reader).step password { chunk }
    = (reader.feed (chunk.take reader.wanted)).elim wrap behind

/-- The first packet is read call by call. -/
theorem receives_readAuth (password : Bytes) :
  Receives password .readAuth (behindAuth password)
  := by
  constructor
  · intro reader
    rfl
  · intro reader chunk
    rw [step]
    cases reader.feed (chunk.take reader.wanted) with
    | inl reader => rfl
    | inr packet => cases packet <;> rfl

theorem receives_readCommand (password : Bytes) :
  Receives password .readCommand behindCommand
  := by
  constructor
  · intro reader
    rfl
  · intro reader chunk
    rw [step]
    cases reader.feed (chunk.take reader.wanted) with
    | inl reader => rfl
    | inr packet => cases packet <;> rfl

/-! ### Sending -/

/-- A handler that sends some bytes, and where it goes when it has sent them or failed. -/
structure Sends (password : Bytes) (wrap : Bytes → Handler) (behind : Bool → Handler) : Prop where
  unsent : ∀ rest, (wrap rest).unsent = some rest
  step : ∀ rest accepted, (wrap rest).step password { accepted }
    = if accepted = 0 then behind false
      else if rest.drop accepted = [] then behind true
      else wrap (rest.drop accepted)

/-- Where the handler goes from the reply to the right password. -/
def behindReply (ok : Bool) : Handler :=
  if ok then .readCommand .start else .closing

def behindPacket (packets : List Bytes) (ok : Bool) : Handler :=
  if ok then sendNext packets else .closing

/-- Whether the reply to a wrong password has been sent makes no difference. -/
theorem sends_refusal (password : Bytes) :
  Sends password .sendRefusal fun _ => .closing
  := by
  constructor
  · intro rest
    rfl
  · intro rest accepted
    rw [step]
    dsimp only
    by_cases hfailed : accepted = 0
    · rw [if_pos (.inl hfailed), if_pos hfailed]
    · rw [if_neg hfailed]
      simp only [hfailed, false_or]

theorem sends_auth (password : Bytes) :
  Sends password .sendAuth behindReply
  := by
  constructor
  · intro rest
    rfl
  · intro rest accepted
    rfl

/-- A packet of the response is sent call by call, and then the next one. -/
theorem sends_response (password : Bytes) (packets : List Bytes) :
  Sends password (.sendResponse · packets) (behindPacket packets)
  := by
  constructor
  · intro rest
    rfl
  · intro rest accepted
    rfl

/-- There is always something to send. -/
theorem encodePacket_ne_nil (requestId type : Int32) (payload : Bytes) :
  encodePacket requestId type payload ≠ []
  := by
  apply List.ne_nil_of_length_pos
  rw [length_encodePacket]
  omega

/-- No packet of a response is empty. -/
theorem ne_nil_of_mem_encodeResponse {requestId : Int32} {text packet : Bytes}
    (h : packet ∈ encodeResponse requestId text) :
  packet ≠ []
  := by
  rw [encodeResponse_eq] at h
  obtain ⟨payload, -, rfl⟩ := List.mem_map.mp h
  apply encodePacket_ne_nil

end Handler

end OpenScumRcon
