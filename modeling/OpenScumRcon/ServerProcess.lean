import OpenScumRcon.HandlerBlocks
import OpenScumRcon.RconServer
import OpenScumRcon.System

/-!
# The process

The server with its two threads, the sockets of its clients, the command queue and the game thread,
call by call: the owner starts and stops the server whenever it likes, and the worker goes through
`RconServer::run` and `handle_connection` one call of Winsock, one access to the queue or one access
to a member at a time. The threads of the process interleave at every one of these points. What a
call of a socket of a client returns is up to that socket, and what the other calls return is chosen
by the run.
-/

namespace OpenScumRcon

variable {σ : Type}

/-- The process. Its connections are numbered in the order in which they are accepted, so the worker
handles the last one. -/
structure Process (σ : Type) where
  server : RconServer := {}
  acceptances : ℕ := 0
  /-- The bytes the clients send in all. -/
  streams : ℕ → Bytes := fun _ => []
  socks : ℕ → Socket := fun _ => { incoming := [] }
  /-- The future the worker waits for. -/
  future : Option ℕ := none
  exchange : Exchange Origin := {}
  mod : ModState σ

namespace Process

inductive Action (σ : Type) where
  /-- The owner calls `start`. -/
  | start
  /-- The owner calls `stop`. -/
  | stop
  /-- The owner destroys the server. -/
  | destroy
  /-- The owner goes on. -/
  | owner
  /-- The worker goes on. The call it is in succeeds or not, and if it accepts a client, it is the
  one with this socket. -/
  | worker (ok : Bool) (client : Socket)
  /-- The wait of the worker ends without a response. -/
  | timeout
  /-- Other code enqueues a command. -/
  | foreign (commandText : Bytes) (authority : CommandAuthority)
  /-- The game thread drains the queue. -/
  | drain
  /-- The game thread processes an item. -/
  | process
  /-- The game goes on. -/
  | game (game : σ)

/-- The number of the connection the worker handles. -/
def last (p : Process σ) : ℕ :=
  p.acceptances - 1

/-- The server makes a step. -/
def serve (p : Process σ) (a : RconServer.Action) : Process σ :=
  { p with server := p.server.step a }

/-- The worker accepts a client. -/
def accept (p : Process σ) (ok : Bool) (client : Socket) : Process σ :=
  let p := p.serve (.worker { ok })
  match p.server.worker with
  | .handling _ _ _ =>
      { p with
        acceptances := p.acceptances + 1
        streams := Function.update p.streams p.acceptances client.incoming
        socks := Function.update p.socks p.acceptances { client with wire := [] } }
  | _ => p

/-- The worker enqueues the command it has received, or gets the value of the future. -/
def await (p : Process σ) (packet : Protocol.Packet) : Process σ :=
  match p.future with
  | none =>
      match p.exchange.enqueue packet.payload .authenticatedRcon (.packet p.last packet) with
      | (future, exchange) => { p with future, exchange }
  | some future =>
      match p.exchange.promises.value future with
      | some text => { p.serve (.worker { response := some text }) with future := none }
      | none => p

/-- The handler of the worker makes a call on its socket. -/
def handle (p : Process σ) (handler : Handler) : Process σ :=
  match handler.outcome (p.socks p.last) with
  | (outcome, sock) =>
      { p.serve (.worker outcome) with socks := Function.update p.socks p.last sock }

/-- A step of the worker. -/
def work (p : Process σ) (ok : Bool) (client : Socket) : Process σ :=
  match p.server.worker with
  | .accepting _ => p.accept ok client
  | .handling _ _ (.awaiting packet) => p.await packet
  | .handling _ _ .closing => p.serve (.worker {})
  | .handling _ _ handler => p.handle handler
  | _ => p.serve (.worker { ok })

/-- The worker gives up waiting for the future. -/
def timeout (p : Process σ) : Process σ :=
  match p.server.worker, p.future with
  | .handling _ _ (.awaiting _), some future =>
      match p.exchange.promises.value future with
      | some _ => p
      | none => { p.serve (.worker {}) with future := none }
  | _, _ => p

def act (mod : Mod σ) (p : Process σ) : Action σ → Process σ
  | .start => p.serve (.start mod.password)
  | .stop => p.serve .stop
  | .destroy => p.serve .destroy
  | .owner => p.serve .owner
  | .worker ok client => p.work ok client
  | .timeout => p.timeout
  | .foreign commandText authority =>
      { p with exchange := (p.exchange.enqueue commandText authority .other).2 }
  | .drain => { p with exchange := p.exchange.drain }
  | .process =>
      match p.exchange.process mod p.mod with
      | (exchange, m) => { p with exchange, mod := m }
  | .game game => { p with mod := { p.mod with game } }

/-- A step, unless the process has ended. -/
def step (mod : Mod σ) (p : Process σ) (a : Action σ) : Process σ :=
  if p.server.terminated then p else p.act mod a

/-- The process after a list of steps from its start. -/
def run (mod : Mod σ) (m : ModState σ) (actions : List (Action σ)) : Process σ :=
  Transition.run (step mod) { mod := m } actions

end Process

end OpenScumRcon
