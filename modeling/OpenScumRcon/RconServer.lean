import OpenScumRcon.Handler
import OpenScumRcon.Library.Handles
import OpenScumRcon.Library.Transition

/-!
# The server and its thread

The owner of an `RconServer` starts it, stops it and destroys it, each as often and in the
order it likes. The worker runs `RconServer::run`. Both proceed step by step, from one access
to what they share to the next: the flag `running`, the published listening socket and the
sockets themselves. A run is any list of steps, so the interleaving and what every call of
Winsock returns are chosen by the run. An action that is not enabled does nothing.

A socket is the number of the call that has returned it, so a handle that the system gives
out again is another socket.
-/

namespace OpenScumRcon

/-- Where the owner stands. The flag tells whether it is the destructor that calls `stop`. -/
inductive Owner where
  /-- It is in none of the functions. -/
  | idle
  /-- In `start`, it has set the flag. -/
  | starting
  /-- It has created the thread, which runs, and is about to assign it to the member. -/
  | assigning
  /-- In `stop`, it has reset the flag. -/
  | stopping (last : Bool)
  /-- It has found a listening socket and is about to close it. -/
  | closing (last : Bool) (listenSocket : ℕ)
  /-- It has come to joining the thread. -/
  | joining (last : Bool)
  /-- In the destructor, it has come to destroying the members. -/
  | destroying
  | gone
  deriving DecidableEq

/-- Where the worker stands in `RconServer::run`. -/
inductive Worker where
  /-- It calls `WSAStartup`. -/
  | startup
  | socket
  | setsockopt (listenSocket : ℕ)
  | bind (listenSocket : ℕ)
  | listen (listenSocket : ℕ)
  /-- It is about to publish the listening socket. -/
  | publish (listenSocket : ℕ)
  /-- At the top of the accept loop, it is about to read the flag. -/
  | check (listenSocket : ℕ)
  /-- It is about to call `accept`. -/
  | accept (listenSocket : ℕ)
  /-- It is in the call of `accept`. -/
  | accepting (listenSocket : ℕ)
  | handling (listenSocket client : ℕ) (handler : Handler)
  /-- It is about to close the listening socket. -/
  | closing (listenSocket : ℕ)
  /-- It cleans up and is about to reset the flag. -/
  | finish
  /-- There is no worker: none has been created, or the last one has returned. -/
  | ended
  deriving DecidableEq

inductive Thread where
  | owner
  | worker
  deriving DecidableEq

/-- A server, with the two threads and the calls they have made so far. -/
structure RconServer where
  running : Bool := false
  /-- The listening socket the worker has published. -/
  listenSocket : Option ℕ := none
  /-- The member `m_thread` has a thread that has not been joined. -/
  joinable : Bool := false
  password : Bytes := []
  owner : Owner := .idle
  worker : Worker := .ended
  /-- `std::terminate` has ended the process. -/
  terminated : Bool := false
  /-- How many sockets Winsock has returned. -/
  sockets : ℕ := 0
  calls : List (Thread × Handles.Event Operation) := []

namespace RconServer

inductive Action where
  /-- The owner calls `start`. -/
  | start (password : Bytes)
  /-- The owner calls `stop`. -/
  | stop
  /-- The owner destroys the server. -/
  | destroy
  /-- The owner goes on. -/
  | owner
  /-- The worker goes on, with what its call returns. -/
  | worker (outcome : Outcome)

/-- What has happened to the sockets. -/
def events (s : RconServer) : List (Handles.Event Operation) :=
  s.calls.map Prod.snd

/-- The worker goes on behind a call. -/
def after (s : RconServer) (e : Handles.Event Operation) (worker : Worker) : RconServer :=
  { s with worker, calls := s.calls ++ [(.worker, e)] }

/-- The worker goes on with a new socket. -/
def obtain (s : RconServer) (worker : Worker) : RconServer :=
  { s.after (.opened s.sockets) worker with sockets := s.sockets + 1 }

/-- A step of `RconServer::run`. -/
def run (s : RconServer) (outcome : Outcome) : RconServer :=
  match s.worker with
  | .startup => { s with worker := if outcome.ok then .socket else .finish }
  | .socket =>
      if outcome.ok then s.obtain (.setsockopt s.sockets) else { s with worker := .finish }
  | .setsockopt l => s.after (.used .setsockopt l) (.bind l)
  | .bind l => s.after (.used .bind l) (if outcome.ok then .listen l else .closing l)
  | .listen l => s.after (.used .listen l) (if outcome.ok then .publish l else .closing l)
  | .publish l => { s with listenSocket := some l, worker := .check l }
  | .check l => { s with worker := if s.running then .accept l else .closing l }
  | .accept l => s.after (.used .accept l) (.accepting l)
  | .accepting l =>
      -- on a socket that has been closed the call fails
      if outcome.ok ∧ .closed l ∉ s.events then s.obtain (.handling l s.sockets (.readAuth .start))
      else { s with worker := .closing l }
  | .handling l client .closing => s.after (.closed client) (.check l)
  | .handling l client handler =>
      match handler.call with
      | some call => s.after (.used call client) (.handling l client (handler.step s.password outcome))
      | none => { s with worker := .handling l client (handler.step s.password outcome) }
  | .closing l => s.after (.closed l) .finish
  | .finish => { s with running := false, worker := .ended }
  | .ended => s

/-- Where the owner goes from `stop`. -/
def returned (last : Bool) : Owner :=
  if last then .destroying else .idle

/-- A step of the owner in one of the functions. -/
def proceed (s : RconServer) : RconServer :=
  match s.owner with
  | .idle => s
  | .starting => { s with worker := .startup, owner := .assigning }
  | .assigning =>
      if s.joinable then { s with terminated := true }
      else { s with joinable := true, owner := .idle }
  | .stopping last =>
      match s.listenSocket with
      | some l => { s with owner := .closing last l }
      | none => { s with owner := .joining last }
  | .closing last l =>
      { s with calls := s.calls ++ [(.owner, .closed l)], owner := .joining last }
  | .joining last =>
      if s.joinable then
        -- the owner waits for the worker
        match s.worker with
        | .ended => { s with joinable := false, owner := returned last }
        | _ => s
      else { s with owner := returned last }
  | .destroying => if s.joinable then { s with terminated := true } else { s with owner := .gone }
  | .gone => s

/-- The owner enters `stop`. -/
def stop (s : RconServer) (last : Bool) : RconServer :=
  if s.running then { s with running := false, owner := .stopping last }
  else { s with owner := returned last }

def act (s : RconServer) : Action → RconServer
  | .start password =>
      match s.owner with
      | .idle => if s.running then s else { s with running := true, owner := .starting, password }
      | _ => s
  | .stop =>
      match s.owner with
      | .idle => s.stop false
      | _ => s
  | .destroy =>
      match s.owner with
      | .idle => s.stop true
      | _ => s
  | .owner => s.proceed
  | .worker outcome => s.run outcome

/-- A step, unless the process has ended. -/
def step (s : RconServer) (a : Action) : RconServer :=
  if s.terminated then s else s.act a

/-- The server after a list of steps from its construction. -/
def reached (actions : List Action) : RconServer :=
  Transition.run step {} actions

end RconServer

end OpenScumRcon
