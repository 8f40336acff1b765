import OpenScumRcon.ServerProcess
import OpenScumRcon.ServerSteps

/-!
# The process refines the system

In the system a handler receives a packet in one step and sends a response in another one. The
process makes many calls for each of them, and the other threads go on in between. Every step of the
process is still covered by a step of the system or by none: its connection stays where the block
begins until the handler of the process comes to the end of the block, and then makes the whole block
at once.
-/

namespace OpenScumRcon

open Protocol

variable {σ : Type}

/-! ### The system behind the process -/

/-- The future a handler waits for. -/
def Phase.future : Phase → Option ℕ
  | .waiting _ future => some future
  | _ => none

/-- The handler of the process and the one of the system: the latter is still at the beginning of
the block in which the former is, or both are at the same access to the queue. -/
inductive Follows (password : Bytes) (future : Option ℕ) (x : Handler × Socket) (C : Connection) :
    Prop where
  | working (hphase : C.phase.Works) (hproper : x.1.Proper) (hfuture : future = none)
      (hfinish : Handler.finish password x
        = (.ofPhase (C.advance password).phase, (C.advance password).sock))
      (hwire : C.sock.wire <+: x.2.wire)
  | enqueuing (packet : Packet) (hphase : C.phase = .enqueuing packet) (hfuture : future = none)
      (hx : x = (.awaiting packet, C.sock))
  | waiting (packet : Packet) (awaited : ℕ) (hphase : C.phase = .waiting packet awaited)
      (hfuture : future = some awaited) (hx : x = (.awaiting packet, C.sock))

theorem follows_ofPhase (password : Bytes) {C : Connection} (h : C.phase.isClosed = false) :
  Follows password C.phase.future (.ofPhase C.phase, C.sock) C
  := by
  have hworks : C.phase.Works → C.phase.future = none →
      Follows password C.phase.future (.ofPhase C.phase, C.sock) C := by
    intro hworks hfuture
    apply Follows.working hworks (Handler.proper_ofPhase hworks) hfuture
    · apply Handler.finish_ofPhase password hworks
    · apply List.prefix_rfl
  cases hphase : C.phase with
  | authenticating =>
      rw [hphase] at hworks
      apply hworks trivial rfl
  | receiving =>
      rw [hphase] at hworks
      apply hworks trivial rfl
  | enqueuing packet => apply Follows.enqueuing packet hphase rfl rfl
  | waiting packet future => apply Follows.waiting packet future hphase rfl rfl
  | replying packet future text =>
      rw [hphase] at hworks
      apply hworks trivial rfl
  | closed =>
      rw [hphase] at h
      cases h

theorem ofPhase_ne_closing {phase : Phase} (h : phase.isClosed = false) :
  Handler.ofPhase phase ≠ .closing
  := by
  cases phase with
  | replying packet future text =>
      rw [Handler.ofPhase]
      cases encodeResponse packet.requestId text <;> simp [Handler.sendNext]
  | closed => cases h
  | _ => simp [Handler.ofPhase]

namespace Process

/-- The worker of the system has the connection that the worker of the process handles, until that
is about to close it. -/
inductive Attends (password : Bytes) (p : Process σ) (s : System Unit σ) : Prop where
  | free (hworker : p.server.worker.handler = none) (hfuture : p.future = none)
      (hworkers : s.workers () = none)
  | busy (handler : Handler) (hworker : p.server.worker.handler = some handler)
      (hlast : p.last < p.acceptances) (hworkers : s.workers () = some p.last)
      (hfollows : Follows password p.future (handler, p.socks p.last) (s.connections p.last))

/-- The process is covered by the system. -/
structure Covers (password : Bytes) (p : Process σ) (s : System Unit σ) : Prop where
  exchange : s.exchange = p.exchange
  mod : s.mod = p.mod
  acceptances : s.acceptances = p.acceptances
  streams : ∀ c, (s.connections c).stream = p.streams c
  socks : ∀ c, s.workers () ≠ some c → (s.connections c).sock = p.socks c
  attends : p.Attends password s
  inv : p.server.Inv
  keyed : p.server.Keyed password

/-- An action of the system belongs to an action of the process. -/
def Matches (a : Action σ) : OpenScumRcon.Action Unit σ → Prop
  | .accept _ sock => ∃ ok, a = .worker ok sock
  | .timeout _ => a = .timeout
  | .foreign commandText authority => a = .foreign commandText authority
  | .drain => a = .drain
  | .process => a = .process
  | .game game => a = .game game
  | _ => ∃ ok client, a = .worker ok client

variable {password : Bytes} {p : Process σ} {s : System Unit σ}

theorem covers_init (password : Bytes) (m : ModState σ) :
  ({ mod := m } : Process σ).Covers password { mod := m }
  := by
  constructor
  · rfl
  · rfl
  · rfl
  · intro c
    rfl
  · intro c _
    rfl
  · apply Attends.free rfl rfl rfl
  · apply RconServer.inv_init
  · right
    exact ⟨rfl, by simp⟩

/-- The handler of the process comes to the end of a block, or behind an access to the queue, and
the system makes the step that leads there. -/
theorem Covers.arrive (h : p.Covers password s) (hlast : p.last < p.acceptances)
    (hworkers : s.workers () = some p.last)
    {f : ℕ → Connection → Exchange Origin → Connection × Exchange Origin} {C : Connection}
    {x : Exchange Origin} (hf : f p.last (s.connections p.last) s.exchange = (C, x))
    (hstream : C.stream = (s.connections p.last).stream) {p' : Process σ}
    (hexchange : p'.exchange = x) (hmod : p'.mod = p.mod) (hacceptances : p'.acceptances = p.acceptances)
    (hstreams : p'.streams = p.streams) (hsocks : p'.socks = Function.update p.socks p.last C.sock)
    (hfuture : p'.future = C.phase.future) {l client : ℕ}
    (hworker : p'.server.worker = .handling l client (.ofPhase C.phase)) (hinv : p'.server.Inv)
    (hkeyed : p'.server.Keyed password) :
  p'.Covers password (s.handle () f)
  := by
  have hlast' : p'.last = p.last := by
    rw [last, last, hacceptances]
  rw [System.handle, hworkers]
  dsimp only
  rw [hf]
  constructor
  · exact hexchange.symm
  · exact h.mod.trans hmod.symm
  · exact h.acceptances.trans hacceptances.symm
  · intro c
    rw [hstreams, ← h.streams c]
    dsimp only
    rcases eq_or_ne c p.last with rfl | hne
    · rw [Function.update_self, hstream]
    · rw [Function.update_of_ne hne]
  · intro c hc
    rw [hsocks]
    dsimp only
    rcases eq_or_ne c p.last with rfl | hne
    · rw [Function.update_self, Function.update_self]
    · rw [Function.update_of_ne hne, Function.update_of_ne hne]
      apply h.socks c
      rw [hworkers]
      intro heq
      apply hne (Option.some.inj heq).symm
  · cases hclosed : C.phase.isClosed with
    | true =>
        have hphase : C.phase = .closed := by
          cases hphase : C.phase with
          | closed => rfl
          | _ =>
              rw [hphase] at hclosed
              cases hclosed
        apply Attends.free
        · rw [hworker, hphase]
          rfl
        · rw [hfuture, hphase]
          rfl
        · simp
    | false =>
        apply Attends.busy (.ofPhase C.phase)
        · rw [hworker]
          apply Worker.handler_handling (ofPhase_ne_closing hclosed)
        · rw [hlast', hacceptances]
          apply hlast
        · rw [hlast']
          apply hworkers
        · rw [hlast', hfuture, hsocks]
          dsimp only
          rw [Function.update_self, Function.update_self]
          apply follows_ofPhase password hclosed
  · apply hinv
  · apply hkeyed

/-- The worker of the process that handles a connection has the one of the system at work. -/
theorem Covers.busy (h : p.Covers password s) {l client : ℕ} {handler : Handler}
    (hworker : p.server.worker = .handling l client handler) (hclosing : handler ≠ .closing) :
  p.server.password = password ∧ p.last < p.acceptances ∧ s.workers () = some p.last ∧
    Follows password p.future (handler, p.socks p.last) (s.connections p.last)
  := by
  constructor
  · rcases h.keyed with hpassword | ⟨hended, -⟩
    · apply hpassword
    · rw [hworker] at hended
      cases hended
  cases h.attends with
  | free hfree hfuture hworkers =>
      rw [hworker, Worker.handler_handling hclosing] at hfree
      cases hfree
  | busy handler' hhandler hlast hworkers hfollows =>
      rw [hworker, Worker.handler_handling hclosing] at hhandler
      obtain rfl := Option.some.inj hhandler
      exact ⟨hlast, hworkers, hfollows⟩

/-- The server behind a step of the worker that handles a connection. -/
theorem Covers.serve (h : p.Covers password s) (hterminated : p.server.terminated = false)
    {l client : ℕ} {handler : Handler} (hworker : p.server.worker = .handling l client handler)
    (hclosing : handler ≠ .closing) (outcome : Outcome) :
  (p.server.step (.worker outcome)).worker
      = .handling l client (handler.step password outcome) ∧
    (p.server.step (.worker outcome)).Inv ∧ (p.server.step (.worker outcome)).Keyed password
  := by
  obtain ⟨hpassword, -⟩ := h.busy hworker hclosing
  and_intros
  · rw [RconServer.step_worker hterminated, RconServer.run_handling outcome hworker hclosing,
      hpassword]
  · apply h.inv.step
  · rw [RconServer.step_worker hterminated]
    apply h.keyed.run

theorem future_advance {C : Connection} (password : Bytes) (h : C.phase.Works) :
  (C.advance password).phase.future = none
  := by
  rw [Connection.advance]
  cases hphase : C.phase with
  | authenticating =>
      dsimp only
      split <;> rfl
  | receiving =>
      dsimp only
      split
      · rfl
      · split <;> rfl
  | replying packet future text =>
      dsimp only
      split <;> rfl
  | _ =>
      rw [hphase] at h
      cases h

/-- A call of the handler. -/
theorem Covers.handle {mod : Mod σ} (h : p.Covers mod.password s)
    (hterminated : p.server.terminated = false) {l client : ℕ} {handler : Handler}
    (hworker : p.server.worker = .handling l client handler) (hclosing : handler ≠ .closing)
    (hawaiting : ∀ packet, handler ≠ .awaiting packet) :
  (p.handle handler).Covers mod.password s ∨
    (p.handle handler).Covers mod.password (s.step mod (.advance ()))
  := by
  obtain ⟨-, hlast, hworkers, hfollows⟩ := h.busy hworker hclosing
  cases hfollows with
  | enqueuing packet hphase hfuture hx => cases hawaiting packet (Prod.mk.inj hx).1
  | waiting packet awaited hphase hfuture hx => cases hawaiting packet (Prod.mk.inj hx).1
  | working hphase hproper hfuture hfinish hwire =>
      have hturn := @Handler.finishes_turn mod.password (handler, p.socks p.last) hproper
      obtain ⟨hworker', hinv, hkeyed⟩ := h.serve hterminated hworker hclosing
        (handler.outcome (p.socks p.last)).1
      generalize hy : Handler.turn mod.password (handler, p.socks p.last) = y at hturn
      obtain ⟨hstep, hsock⟩ := Prod.mk.inj hy
      cases hturn with
      | done =>
          rw [hfinish] at hstep hsock
          dsimp only at hstep hsock
          rw [hstep] at hworker'
          right
          have hexchange : (p.handle handler).exchange = s.exchange := h.exchange.symm
          have hsocks : (p.handle handler).socks = Function.update p.socks p.last
              ((s.connections p.last).advance mod.password).sock := by
            rw [← hsock]
            rfl
          have hfuture' : (p.handle handler).future
              = ((s.connections p.last).advance mod.password).phase.future := by
            rw [future_advance mod.password hphase]
            apply hfuture
          apply h.arrive hlast hworkers (f := fun _ C x => (C.advance mod.password, x)) rfl
            (Connection.stream_advance _ _) hexchange rfl rfl rfl hsocks hfuture' hworker' hinv
            hkeyed
      | more hproper' hfinish' =>
          -- the handler is still in the block
          left
          have hlast' : (p.handle handler).last = p.last := rfl
          have hsocks : (p.handle handler).socks = Function.update p.socks p.last y.2 := by
            rw [← hsock]
            rfl
          constructor
          · apply h.exchange
          · apply h.mod
          · apply h.acceptances
          · apply h.streams
          · intro c hc
            rw [hsocks, Function.update_of_ne]
            · apply h.socks c hc
            · rintro rfl
              apply hc hworkers
          · apply Attends.busy y.1
            · have hworker'' : (p.handle handler).server.worker = .handling l client y.1 := by
                rw [← hstep]
                apply hworker'
              rw [hworker'']
              apply Worker.handler_handling
              intro heq
              rw [heq] at hproper'
              cases hproper'
            · apply hlast
            · apply hworkers
            · rw [hlast', hsocks, Function.update_self]
              apply Follows.working hphase hproper' hfuture
              · rw [hfinish', hfinish]
              · rw [← hsock]
                apply hwire.trans
                apply Handler.wire_outcome
          · apply hinv
          · apply hkeyed

/-- The wait of the handler ends, with a response or without one. -/
theorem Covers.reply (h : p.Covers password s) (hterminated : p.server.terminated = false)
    {l client awaited : ℕ} {packet : Packet}
    (hworker : p.server.worker = .handling l client (.awaiting packet))
    (hsock : p.socks p.last = (s.connections p.last).sock) (response : Option Bytes)
    {f : ℕ → Connection → Exchange Origin → Connection × Exchange Origin}
    (hf : f p.last (s.connections p.last) s.exchange = ({ s.connections p.last with
      phase := .replying packet awaited (response.getD commandTimedOut) }, s.exchange)) :
  ({ p.serve (.worker { response }) with future := none } : Process σ).Covers password
    (s.handle () f)
  := by
  obtain ⟨-, hlast, hworkers, -⟩ := h.busy hworker (by simp)
  obtain ⟨hworker', hinv, hkeyed⟩ := h.serve hterminated hworker (by simp) { response }
  apply h.arrive hlast hworkers hf
  · rfl
  · exact h.exchange.symm
  · rfl
  · rfl
  · rfl
  · dsimp only
    rw [← hsock, Function.update_eq_self]
    rfl
  · rfl
  · apply hworker'
  · apply hinv
  · apply hkeyed

/-- The handler of the worker enqueues its command, waits, or gets the value of the future. -/
theorem Covers.await {mod : Mod σ} (h : p.Covers mod.password s)
    (hterminated : p.server.terminated = false) {l client : ℕ} {packet : Packet}
    (hworker : p.server.worker = .handling l client (.awaiting packet)) :
  (p.await packet).Covers mod.password s ∨
    (p.await packet).Covers mod.password (s.step mod (.enqueue ())) ∨
    (p.await packet).Covers mod.password (s.step mod (.ready ()))
  := by
  obtain ⟨-, hlast, hworkers, hfollows⟩ := h.busy hworker (by simp)
  cases hfollows with
  | working hphase hproper hfuture hfinish hwire => cases hproper
  | enqueuing packet' hphase hfuture hx =>
      obtain ⟨heq, hsock⟩ := Prod.mk.inj hx
      obtain rfl := Handler.awaiting.inj heq
      right
      left
      obtain ⟨future, x, hqueue⟩ : ∃ future x, p.exchange.enqueue packet.payload .authenticatedRcon
          (.packet p.last packet) = (some future, x) := ⟨_, _, Exchange.enqueue_of_authorized _ _ _⟩
      have hawait : p.await packet = { p with future := some future, exchange := x } := by
        rw [Process.await, hfuture]
        dsimp only
        rw [hqueue]
      have henqueue : (s.connections p.last).enqueue p.last s.exchange
          = ({ s.connections p.last with phase := .waiting packet future }, x) := by
        rw [Connection.enqueue, hphase, h.exchange]
        dsimp only
        rw [hqueue]
      rw [hawait]
      apply h.arrive hlast hworkers henqueue
      · rfl
      · rfl
      · rfl
      · rfl
      · rfl
      · dsimp only
        rw [← hsock, Function.update_eq_self]
      · rfl
      · apply hworker
      · apply h.inv
      · apply h.keyed
  | waiting packet' awaited hphase hfuture hx =>
      obtain ⟨heq, hsock⟩ := Prod.mk.inj hx
      obtain rfl := Handler.awaiting.inj heq
      cases hvalue : p.exchange.promises.value awaited with
      | none =>
          left
          rw [Process.await, hfuture]
          dsimp only
          rw [hvalue]
          apply h
      | some text =>
          right
          right
          have hawait : p.await packet
              = { p.serve (.worker { response := some text }) with future := none } := by
            rw [Process.await, hfuture]
            dsimp only
            rw [hvalue]
          rw [hawait]
          apply h.reply hterminated hworker hsock (some text) (f := fun _ C x => (C.ready x, x))
          rw [Connection.ready, hphase]
          dsimp only
          rw [h.exchange, hvalue]
          rfl

/-- The handler of the worker gives up waiting. -/
theorem Covers.timeout {mod : Mod σ} (h : p.Covers mod.password s)
    (hterminated : p.server.terminated = false) :
  p.timeout.Covers mod.password s ∨
    p.timeout.Covers mod.password (s.step mod (.timeout ()))
  := by
  rw [Process.timeout]
  split
  · next l client packet awaited hworker hfuture =>
      cases hvalue : p.exchange.promises.value awaited with
      | some text =>
          left
          apply h
      | none =>
          right
          obtain ⟨-, -, -, hfollows⟩ := h.busy hworker (by simp)
          cases hfollows with
          | working hphase hproper hnone hfinish hwire => cases hproper
          | enqueuing packet' hphase hnone hx =>
              rw [hfuture] at hnone
              cases hnone
          | waiting packet' awaited' hphase hsome hx =>
              obtain ⟨heq, hsock⟩ := Prod.mk.inj hx
              obtain rfl := Handler.awaiting.inj heq
              rw [hfuture] at hsome
              obtain rfl := Option.some.inj hsome
              dsimp only
              apply h.reply hterminated hworker hsock none (f := fun _ C x => (C.timeout x, x))
              rw [Connection.timeout, hphase]
              dsimp only
              rw [h.exchange, hvalue]
              rfl
  · left
    apply h

/-! ### The other steps -/

/-- A step of the server that leaves the handler of the worker alone. -/
theorem Covers.of_handler_eq (h : p.Covers password s) {server : RconServer}
    (hhandler : server.worker.handler = p.server.worker.handler) (hinv : server.Inv)
    (hkeyed : server.Keyed password) :
  ({ p with server } : Process σ).Covers password s
  := by
  constructor
  · apply h.exchange
  · apply h.mod
  · apply h.acceptances
  · apply h.streams
  · apply h.socks
  · cases h.attends with
    | free hworker hfuture hworkers =>
        apply Attends.free
        · apply hhandler.trans hworker
        · apply hfuture
        · apply hworkers
    | busy handler hworker hlast hworkers hfollows =>
        apply Attends.busy handler
        · apply hhandler.trans hworker
        · apply hlast
        · apply hworkers
        · apply hfollows
  · apply hinv
  · apply hkeyed

/-- A step of the worker that handles no connection, outside of `accept`. -/
theorem Covers.serve_free (h : p.Covers password s) (hterminated : p.server.terminated = false)
    (hworker : p.server.worker.handler = none) (haccepting : ∀ l, p.server.worker ≠ .accepting l)
    (outcome : Outcome) :
  (p.serve (.worker outcome)).Covers password s
  := by
  apply h.of_handler_eq
  · rw [hworker, RconServer.step_worker hterminated]
    apply RconServer.handler_run hworker haccepting
  · apply h.inv.step
  · rw [RconServer.step_worker hterminated]
    apply h.keyed.run

/-- The call of `accept` returns. -/
theorem Covers.accept {mod : Mod σ} (h : p.Covers mod.password s)
    (hterminated : p.server.terminated = false) {l : ℕ} (hworker : p.server.worker = .accepting l)
    (ok : Bool) (client : Socket) :
  (p.accept ok client).Covers mod.password s ∨
    (p.accept ok client).Covers mod.password (s.step mod (.accept () client))
  := by
  have hinv := h.inv.step (.worker { ok })
  have hkeyed := h.keyed.run { ok }
  rw [← RconServer.step_worker hterminated] at hkeyed
  cases h.attends with
  | busy handler hhandler hlast hworkers hfollows =>
      rw [hworker] at hhandler
      cases hhandler
  | free hhandler hfuture hworkers =>
      rcases RconServer.run_accepting hworker { ok } with ⟨number, hrun⟩ | hrun
      · right
        rw [← RconServer.step_worker hterminated] at hrun
        have haccept : p.accept ok client = { p with
            server := p.server.step (.worker { ok })
            acceptances := p.acceptances + 1
            streams := Function.update p.streams p.acceptances client.incoming
            socks := Function.update p.socks p.acceptances { client with wire := [] } } := by
          rw [Process.accept]
          dsimp only [Process.serve]
          rw [hrun]
        have hlast : (p.accept ok client).last = p.acceptances := by
          rw [haccept, last, Nat.add_sub_cancel]
        rw [System.step, System.accept, hworkers, h.acceptances]
        dsimp only
        constructor
        · rw [haccept]
          apply h.exchange
        · rw [haccept]
          apply h.mod
        · rw [haccept]
        · intro c
          rw [haccept]
          dsimp only
          rcases eq_or_ne c p.acceptances with rfl | hne
          · rw [Function.update_self, Function.update_self]
            rfl
          · rw [Function.update_of_ne hne, Function.update_of_ne hne]
            apply h.streams
        · intro c hc
          dsimp only at hc
          rw [Function.update_self] at hc
          have hne : c ≠ p.acceptances := by
            rintro rfl
            apply hc rfl
          rw [haccept]
          dsimp only
          rw [Function.update_of_ne hne, Function.update_of_ne hne]
          apply h.socks
          rw [hworkers]
          simp
        · apply Attends.busy (.readAuth .start)
          · rw [haccept]
            dsimp only
            rw [hrun]
            rfl
          · rw [hlast, haccept]
            apply Nat.lt_succ_self
          · rw [hlast]
            simp
          · have hopen : (Connection.accepted client).phase.isClosed = false := rfl
            have hfollows := follows_ofPhase mod.password hopen
            rw [hlast, haccept]
            dsimp only
            rw [Function.update_self, Function.update_self, hfuture]
            apply hfollows
        · rw [haccept]
          apply hinv
        · rw [haccept]
          apply hkeyed
      · left
        rw [← RconServer.step_worker hterminated] at hrun
        have haccept : p.accept ok client = p.serve (.worker { ok }) := by
          rw [Process.accept]
          dsimp only [Process.serve]
          rw [hrun]
        rw [haccept]
        apply h.of_handler_eq _ hinv hkeyed
        rw [hrun, hworker]
        rfl

/-- Another thread changes what the threads share. -/
theorem Covers.share (h : p.Covers password s) (x : Exchange Origin) (m : ModState σ) :
  ({ p with exchange := x, mod := m } : Process σ).Covers password
    { s with exchange := x, mod := m }
  := by
  constructor
  · rfl
  · rfl
  · apply h.acceptances
  · apply h.streams
  · apply h.socks
  · cases h.attends with
    | free hworker hfuture hworkers =>
        apply Attends.free
        · apply hworker
        · apply hfuture
        · apply hworkers
    | busy handler hworker hlast hworkers hfollows =>
        apply Attends.busy handler
        · apply hworker
        · apply hlast
        · apply hworkers
        · apply hfollows
  · apply h.inv
  · apply h.keyed

/-- The system makes no step, or one. -/
theorem exists_matched {mod : Mod σ} {a : Action σ} {b : OpenScumRcon.Action Unit σ}
    (hmatches : Matches a b)
    (h : p.Covers mod.password s ∨ p.Covers mod.password (s.step mod b)) :
  ∃ matched : List (OpenScumRcon.Action Unit σ), (∀ b ∈ matched, Matches a b) ∧
    p.Covers mod.password (Transition.run (System.step mod) s matched)
  := by
  rcases h with h | h
  · exact ⟨[], by simp, h⟩
  · exact ⟨[b], by simpa using hmatches, h⟩

/-- A step of the worker. -/
theorem Covers.work {mod : Mod σ} (h : p.Covers mod.password s)
    (hterminated : p.server.terminated = false) (ok : Bool) (client : Socket) :
  ∃ matched : List (OpenScumRcon.Action Unit σ),
    (∀ b ∈ matched, Matches (.worker ok client) b) ∧
    (p.work ok client).Covers mod.password (Transition.run (System.step mod) s matched)
  := by
  have hfree : ∀ outcome, p.server.worker.handler = none →
      (∀ l, p.server.worker ≠ .accepting l) →
      ∃ matched : List (OpenScumRcon.Action Unit σ),
        (∀ b ∈ matched, Matches (.worker ok client) b) ∧
        (p.serve (.worker outcome)).Covers mod.password
          (Transition.run (System.step mod) s matched) := by
    intro outcome hworker haccepting
    exact ⟨[], by simp, h.serve_free hterminated hworker haccepting outcome⟩
  rw [Process.work]
  cases hworker : p.server.worker with
  | accepting l =>
      apply exists_matched (b := .accept () client) ⟨ok, rfl⟩
      apply h.accept hterminated hworker
  | handling l number handler =>
      cases handler with
      | awaiting packet =>
          rcases h.await hterminated hworker with hsame | henqueue | hready
          · exact ⟨[], by simp, hsame⟩
          · apply exists_matched (b := .enqueue ()) ⟨ok, client, rfl⟩ (.inr henqueue)
          · apply exists_matched (b := .ready ()) ⟨ok, client, rfl⟩ (.inr hready)
      | closing =>
          apply hfree
          · rw [hworker]
            rfl
          · simp [hworker]
      | _ =>
          apply exists_matched (b := .advance ()) ⟨ok, client, rfl⟩
          apply h.handle hterminated hworker
          · simp
          · simp
  | _ =>
      apply hfree
      · rw [hworker]
        rfl
      · simp [hworker]

/-- A step of the process is covered by a step of the system, or by none. -/
theorem Covers.step {mod : Mod σ} (h : p.Covers mod.password s) (a : Action σ) :
  ∃ matched : List (OpenScumRcon.Action Unit σ), (∀ b ∈ matched, Matches a b) ∧
    (p.step mod a).Covers mod.password (Transition.run (System.step mod) s matched)
  := by
  rw [Process.step]
  split
  · exact ⟨[], by simp, h⟩
  next hterminated =>
  have howner : ∀ b : RconServer.Action,
      b = .start mod.password ∨ b = .stop ∨ b = .destroy ∨ b = .owner →
      ∃ matched : List (OpenScumRcon.Action Unit σ), (∀ b ∈ matched, Matches a b) ∧
        (p.serve b).Covers mod.password (Transition.run (System.step mod) s matched) := by
    intro b hb
    obtain ⟨hhandler, hkeyed⟩ := RconServer.step_owner h.inv h.keyed hb
    exact ⟨[], by simp, h.of_handler_eq hhandler (h.inv.step b) hkeyed⟩
  cases a with
  | start => apply howner _ (.inl rfl)
  | stop => apply howner _ (.inr (.inl rfl))
  | destroy => apply howner _ (.inr (.inr (.inl rfl)))
  | owner => apply howner _ (.inr (.inr (.inr rfl)))
  | worker ok client => apply h.work (by simpa using hterminated)
  | timeout =>
      apply exists_matched (b := .timeout ()) rfl
      apply h.timeout (by simpa using hterminated)
  | foreign commandText authority =>
      apply exists_matched (b := .foreign commandText authority) rfl
      right
      have hstep : s.step mod (.foreign commandText authority) = { s with
          exchange := (p.exchange.enqueue commandText authority .other).2, mod := p.mod } := by
        rw [System.step, h.exchange, ← h.mod]
      rw [hstep]
      apply h.share
  | drain =>
      apply exists_matched (b := .drain) rfl
      right
      have hstep : s.step mod .drain = { s with exchange := p.exchange.drain, mod := p.mod } := by
        rw [System.step, h.exchange, ← h.mod]
      rw [hstep]
      apply h.share
  | process =>
      apply exists_matched (b := .process) rfl
      right
      have hstep : s.step mod .process = { s with
          exchange := (p.exchange.process mod p.mod).1
          mod := (p.exchange.process mod p.mod).2 } := by
        rw [System.step, h.exchange, h.mod]
      rw [hstep]
      apply h.share
  | game game =>
      apply exists_matched (b := .game game) rfl
      right
      have hstep : s.step mod (.game game) = { s with
          exchange := p.exchange, mod := { p.mod with game } } := by
        rw [System.step, ← h.exchange, h.mod]
      rw [hstep]
      apply h.share

end Process

end OpenScumRcon
