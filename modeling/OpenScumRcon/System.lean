import OpenScumRcon.Connection
import OpenScumRcon.Drain

/-!
# The system

Worker threads accept connections and handle one at a time, any other code may enqueue
commands, and the game thread drains the queue. A step is by one of them, and a run is any
list of steps: the interleaving, the streams of the clients, what the network does and how
long a handler waits are all chosen by the run. An action that is not enabled does nothing.

`System.Inv` joins the invariants of the exchange and of the connections. Every step keeps
it, and every step is a step of the hand-off or none.
-/

namespace OpenScumRcon

open Protocol

variable {ι σ : Type}

/-- Where an enqueued command comes from: a packet of a connection, or other code. -/
inductive Origin where
  | packet (c : ℕ) (packet : Packet)
  | other

/-- The threads and what they share. Connections are numbered in the order in which they are
accepted, and a worker has the number of the one it handles. -/
structure System (ι σ : Type) where
  workers : ι → Option ℕ := fun _ => none
  acceptances : ℕ := 0
  connections : ℕ → Connection := fun _ => { sock := { incoming := [] } }
  exchange : Exchange Origin := {}
  mod : ModState σ

inductive Action (ι σ : Type) where
  /-- A worker that handles no connection accepts one. -/
  | accept (w : ι) (sock : Socket)
  /-- A handler works on its socket. -/
  | advance (w : ι)
  /-- A handler enqueues the command it has received. -/
  | enqueue (w : ι)
  /-- The future a handler waits for is ready. -/
  | ready (w : ι)
  /-- The wait ends without a response. -/
  | timeout (w : ι)
  /-- Other code enqueues a command. -/
  | foreign (commandText : Bytes) (authority : CommandAuthority)
  /-- The game thread drains the queue. -/
  | drain
  /-- The game thread processes an item. -/
  | process
  /-- The game goes on. -/
  | game (game : σ)

/-! ### Steps -/

namespace Connection

/-- The handler enqueues the command it has received, under the authority of the
authenticated connection. -/
def enqueue (c : ℕ) (C : Connection) (x : Exchange Origin) : Connection × Exchange Origin :=
  match C.phase with
  | .enqueuing packet =>
      match x.enqueue packet.payload .authenticatedRcon (.packet c packet) with
      | (some future, x) => ({ C with phase := .waiting packet future }, x)
      | (none, x) => (C, x)
  | _ => (C, x)

/-- The handler gets the value of the future. -/
def ready (C : Connection) (x : Exchange Origin) : Connection :=
  match C.phase with
  | .waiting packet future =>
      match x.promises.value future with
      | some text => { C with phase := .replying packet future text }
      | none => C
  | _ => C

/-- The handler gives up waiting for the future. -/
def timeout (C : Connection) (x : Exchange Origin) : Connection :=
  match C.phase with
  | .waiting packet future =>
      match x.promises.value future with
      | some _ => C
      | none => { C with phase := .replying packet future commandTimedOut }
  | _ => C

end Connection

def Phase.isClosed : Phase → Bool
  | .closed => true
  | _ => false

namespace System

variable [DecidableEq ι]

/-- The worker takes the next connection. -/
def accept (s : System ι σ) (w : ι) (sock : Socket) : System ι σ :=
  match s.workers w with
  | some _ => s
  | none =>
      { s with
        workers := Function.update s.workers w (some s.acceptances)
        acceptances := s.acceptances + 1
        connections := Function.update s.connections s.acceptances (.accepted sock) }

/-- The worker makes a step of the handler of its connection, and accepts again when that
has closed it. -/
def handle (s : System ι σ) (w : ι)
    (f : ℕ → Connection → Exchange Origin → Connection × Exchange Origin) : System ι σ :=
  match s.workers w with
  | none => s
  | some c =>
      let (C, exchange) := f c (s.connections c) s.exchange
      { s with
        exchange
        connections := Function.update s.connections c C
        workers := if C.phase.isClosed then Function.update s.workers w none else s.workers }

def step (mod : Mod σ) (s : System ι σ) : Action ι σ → System ι σ
  | .accept w sock => s.accept w sock
  | .advance w => s.handle w fun _ C x => (C.advance mod.password, x)
  | .enqueue w => s.handle w Connection.enqueue
  | .ready w => s.handle w fun _ C x => (C.ready x, x)
  | .timeout w => s.handle w fun _ C x => (C.timeout x, x)
  | .foreign commandText authority =>
      { s with exchange := (s.exchange.enqueue commandText authority .other).2 }
  | .drain => { s with exchange := s.exchange.drain }
  | .process =>
      match s.exchange.process mod s.mod with
      | (exchange, m) => { s with exchange, mod := m }
  | .game game => { s with mod := { s.mod with game } }

/-- The system after a list of steps from its start. -/
def run (mod : Mod σ) (m : ModState σ) (actions : List (Action ι σ)) : System ι σ :=
  Transition.run (step mod) { mod := m } actions

end System

/-! ### The commands of a connection -/

namespace Exchange

/-- The commands a connection has enqueued: the packets, with the futures. -/
def commandsOf (x : Exchange Origin) (c : ℕ) : List (Packet × ℕ) :=
  x.enqueued.filterMap fun e =>
    match e.2 with
    | .packet c' packet => if c' = c then some (packet, e.1.response) else none
    | .other => none

/-- A connection's commands are those enqueued from its packets. -/
theorem mem_commandsOf_iff {x : Exchange Origin} {c : ℕ} {packet : Packet} {future : ℕ} :
  (packet, future) ∈ x.commandsOf c
    ↔ ∃ e ∈ x.enqueued, e.2 = .packet c packet ∧ e.1.response = future
  := by
  rw [commandsOf, List.mem_filterMap]
  constructor
  · rintro ⟨e, he, hsome⟩
    use e, he
    split at hsome
    · next c' packet' horigin =>
        split at hsome
        · next heq =>
            obtain ⟨rfl, rfl⟩ := Prod.mk.inj (Option.some.inj hsome)
            exact ⟨heq ▸ horigin, rfl⟩
        · cases hsome
    · cases hsome
  · rintro ⟨e, he, horigin, rfl⟩
    use e, he
    rw [horigin]
    simp

/-- A connection's own command is added to its commands. -/
theorem commandsOf_enqueue_self (x : Exchange Origin) (c : ℕ) (packet : Packet)
    (commandText : Bytes) :
  (x.enqueue commandText .authenticatedRcon (.packet c packet)).2.commandsOf c
    = x.commandsOf c ++ [(packet, x.promises.count)]
  := by
  rw [enqueue_of_authorized, commandsOf, List.filterMap_append, ← commandsOf]
  simp

theorem commandsOf_enqueue_of_ne (x : Exchange Origin) {c c' : ℕ} (hne : c' ≠ c)
    (packet : Packet) (commandText : Bytes) :
  (x.enqueue commandText .authenticatedRcon (.packet c packet)).2.commandsOf c' = x.commandsOf c'
  := by
  rw [enqueue_of_authorized, commandsOf, List.filterMap_append, ← commandsOf]
  simp [Ne.symm hne]

/-- The futures of the commands of a connection are among those of all commands, in order. -/
theorem commandsOf_sublist (x : Exchange Origin) (c : ℕ) :
  ((x.commandsOf c).map Prod.snd).Sublist (x.enqueued.map fun e => e.1.response)
  := by
  rw [commandsOf]
  induction x.enqueued with
  | nil => apply List.Sublist.refl
  | cons e rest ih =>
      rw [List.filterMap_cons, List.map_cons]
      split
      · apply ih.cons
      · next command hsome =>
          split at hsome
          · split at hsome
            · obtain rfl := Option.some.inj hsome
              apply ih.cons_cons
            · cases hsome
          · cases hsome

/-- A text that may be sent as the answer for a future: the response its command has been
dispatched with, or that the command has timed out. -/
def Answered (x : Exchange Origin) (future : ℕ) (text : Bytes) : Prop :=
  text = commandTimedOut ∨ ∃ d ∈ x.dispatched, d.1.response = future ∧ d.2 = text

theorem Answered.mono {x x' : Exchange Origin} {future : ℕ} {text : Bytes}
    (h : x.Answered future text) (hsub : ∀ d ∈ x.dispatched, d ∈ x'.dispatched) :
  x'.Answered future text
  := by
  rcases h with htimeout | ⟨d, hd, hfuture, htext⟩
  · left
    apply htimeout
  · right
    use d, hsub d hd

end Exchange

/-! ### The handlers -/

namespace Connection

/-- What a handler has answered, or is about to answer, may be answered. -/
structure Answered (C : Connection) (x : Exchange Origin) : Prop where
  answers : ∀ a ∈ C.answers, x.Answered a.future a.text
  replying : ∀ packet future text, C.phase = .replying packet future text →
    x.Answered future text

theorem Answered.mono {C : Connection} {x x' : Exchange Origin} (h : C.Answered x)
    (hsub : ∀ d ∈ x.dispatched, d ∈ x'.dispatched) :
  C.Answered x'
  := by
  constructor
  · intro a ha
    apply (h.answers a ha).mono hsub
  · intro packet future text hphase
    apply (h.replying packet future text hphase).mono hsub

/-- A handler's step makes no answer of its own. -/
theorem Answered.advance {C : Connection} {x : Exchange Origin} (h : C.Answered x)
    (password : Bytes) :
  (C.advance password).Answered x
  := by
  rw [Connection.advance]
  split
  · split
    · exact ⟨h.answers, by simp⟩
    · exact ⟨h.answers, by simp⟩
  · next hphase =>
      split
      · exact ⟨h.answers, by simp⟩
      · split
        · exact ⟨h.answers, by simp [hphase]⟩
        · exact ⟨h.answers, by simp⟩
  · next packet future text hphase =>
      have hanswers : ∀ a ∈ C.answers ++ [⟨packet, future, text⟩], x.Answered a.future a.text := by
        rw [List.forall_mem_append, List.forall_mem_singleton]
        exact ⟨h.answers, h.replying packet future text hphase⟩
      dsimp only
      split
      · exact ⟨hanswers, by simp⟩
      · exact ⟨hanswers, by simp⟩
  · apply h
  · apply h
  · apply h

theorem stream_advance (C : Connection) (password : Bytes) :
  (C.advance password).stream = C.stream
  := by
  rw [advance]
  split
  · split <;> rfl
  · split
    · rfl
    · split <;> rfl
  · dsimp only
    split <;> rfl
  · rfl
  · rfl
  · rfl

end Connection

namespace System

/-- What holds between the steps of the system. -/
structure Inv (password : Bytes) (s : System ι σ) : Prop where
  exchange : s.exchange.Inv
  connection : ∀ c, (s.connections c).Inv password (s.exchange.commandsOf c)
  answered : ∀ c, (s.connections c).Answered s.exchange
  origin : ∀ e ∈ s.exchange.enqueued, ∀ c packet, e.2 = .packet c packet →
    e.1.commandText = packet.payload
  unaccepted : ∀ c, s.acceptances ≤ c → (s.connections c).stream = []

/-- What a step of the handler of connection `c` does, to the connection and the exchange. -/
structure Handled (password : Bytes) (s : System ι σ) (c : ℕ) (C : Connection)
    (x : Exchange Origin) : Prop where
  exchange : x.Inv
  connection : C.Inv password (x.commandsOf c)
  others : ∀ c' ≠ c, x.commandsOf c' = s.exchange.commandsOf c'
  answered : C.Answered x
  dispatched : x.dispatched = s.exchange.dispatched
  origin : ∀ e ∈ x.enqueued, ∀ c packet, e.2 = .packet c packet →
    e.1.commandText = packet.payload
  stream : C.stream = (s.connections c).stream

variable {password : Bytes} {s : System ι σ}

theorem inv_init (password : Bytes) (m : ModState σ) :
  ({ mod := m } : System ι σ).Inv password
  := by
  constructor
  · apply Exchange.inv_empty
  · intro c
    left
    exact ⟨rfl, rfl, [], .inl rfl, List.prefix_rfl⟩
  · intro c
    exact ⟨by simp, by simp⟩
  · simp
  · simp

/-- A step in which the handler leaves the exchange alone. -/
theorem Inv.handled_of_local (h : s.Inv password) {c : ℕ} {C : Connection}
    (hconnection : C.Inv password (s.exchange.commandsOf c)) (hanswered : C.Answered s.exchange)
    (hstream : C.stream = (s.connections c).stream) :
  Handled password s c C s.exchange
  := ⟨h.exchange, hconnection, fun _ _ => rfl, hanswered, rfl, h.origin, hstream⟩

theorem Inv.handled_advance (h : s.Inv password) (c : ℕ) :
  Handled password s c ((s.connections c).advance password) s.exchange
  := by
  apply h.handled_of_local
  · apply (h.connection c).advance
  · apply (h.answered c).advance
  · apply Connection.stream_advance

/-- A handler's `enqueue`. -/
theorem Inv.handled_enqueue (h : s.Inv password) (c : ℕ) :
  Handled password s c ((s.connections c).enqueue c s.exchange).1
    ((s.connections c).enqueue c s.exchange).2
  := by
  rw [Connection.enqueue]
  split
  · next packet hphase =>
      have hinv := h.exchange.enqueue packet.payload .authenticatedRcon (.packet c packet)
      have hself := s.exchange.commandsOf_enqueue_self c packet packet.payload
      have hothers := fun c' (hne : c' ≠ c) =>
        s.exchange.commandsOf_enqueue_of_ne hne packet packet.payload
      rw [Exchange.enqueue_of_authorized] at hinv hself ⊢
      refine ⟨hinv, ?_, ?_, ?_, rfl, ?_, rfl⟩
      · rw [hself]
        apply (h.connection c).enqueue hphase
      · intro c' hne
        have hother := hothers c' hne
        rw [Exchange.enqueue_of_authorized] at hother
        apply hother
      · exact ⟨(h.answered c).answers, by simp⟩
      · dsimp only
        rw [List.forall_mem_append, List.forall_mem_singleton]
        use h.origin
        rintro c' packet' horigin
        obtain ⟨-, rfl⟩ := Origin.packet.inj horigin
        rfl
  · apply h.handled_of_local (h.connection c) (h.answered c) rfl

/-- A handler whose future is ready. -/
theorem Inv.handled_ready (h : s.Inv password) (c : ℕ) :
  Handled password s c ((s.connections c).ready s.exchange) s.exchange
  := by
  rw [Connection.ready]
  split
  · next packet future hphase =>
      split
      · next text hvalue =>
          apply h.handled_of_local
          · apply (h.connection c).reply hphase
          · use (h.answered c).answers
            rintro packet' future' text' hreplying
            obtain ⟨-, rfl, rfl⟩ := Phase.replying.inj hreplying
            -- the future is that of the command the handler has enqueued
            have hmem := (h.connection c).mem_commands hphase
            obtain ⟨e, he, -, rfl⟩ := Exchange.mem_commandsOf_iff.mp hmem
            right
            use (e.1, text)
            refine ⟨?_, rfl, rfl⟩
            apply h.exchange.mem_dispatched (List.mem_map_of_mem he) hvalue
          · rfl
      · apply h.handled_of_local (h.connection c) (h.answered c) rfl
  · apply h.handled_of_local (h.connection c) (h.answered c) rfl

theorem Inv.handled_timeout (h : s.Inv password) (c : ℕ) :
  Handled password s c ((s.connections c).timeout s.exchange) s.exchange
  := by
  rw [Connection.timeout]
  split
  · next packet future hphase =>
      split
      · apply h.handled_of_local (h.connection c) (h.answered c) rfl
      · apply h.handled_of_local
        · apply (h.connection c).reply hphase
        · use (h.answered c).answers
          rintro packet' future' text' hreplying
          obtain ⟨-, rfl, rfl⟩ := Phase.replying.inj hreplying
          left
          rfl
        · rfl
  · apply h.handled_of_local (h.connection c) (h.answered c) rfl

/-! ### The other threads -/

theorem packetsOf_nil :
  packetsOf [] = []
  := by
  apply packetsOf_of_none
  rfl

/-- A connection whose stream is empty has enqueued nothing. -/
theorem Inv.commandsOf_unaccepted (h : s.Inv password) {c : ℕ} (hle : s.acceptances ≤ c) :
  s.exchange.commandsOf c = []
  := by
  rcases (h.connection c).commands_cases with hnil | ⟨auth, rest, hauth, -⟩
  · apply hnil
  · have hpackets := hauth.packets
    rw [h.unaccepted c hle, packetsOf_nil] at hpackets
    cases hpackets

/-- A step of other code or of the game thread, which adds no command of a connection and
forgets no response. -/
theorem Inv.with_exchange (h : s.Inv password) {x : Exchange Origin} (m : ModState σ)
    (hx : x.Inv) (hcommands : ∀ c, x.commandsOf c = s.exchange.commandsOf c)
    (horigin : ∀ e ∈ x.enqueued, e ∈ s.exchange.enqueued ∨ e.2 = .other)
    (hdispatched : ∀ d ∈ s.exchange.dispatched, d ∈ x.dispatched) :
  { s with exchange := x, mod := m }.Inv password
  := by
  refine ⟨hx, ?_, ?_, ?_, h.unaccepted⟩
  · intro c
    dsimp only
    rw [hcommands c]
    apply h.connection
  · intro c
    apply (h.answered c).mono hdispatched
  · intro e he c packet hpacket
    rcases horigin e he with hmem | hother
    · apply h.origin e hmem c packet hpacket
    · rw [hother] at hpacket
      cases hpacket

/-- A command of another producer. -/
theorem Inv.foreign (h : s.Inv password) (commandText : Bytes) (authority : CommandAuthority) :
  { s with exchange := (s.exchange.enqueue commandText authority .other).2 }.Inv password
  := by
  have hinv := h.exchange.enqueue commandText authority .other
  by_cases hauthority : authority = .authenticatedRcon
  · rw [hauthority, Exchange.enqueue_of_authorized] at hinv ⊢
    apply h.with_exchange s.mod hinv
    · intro c
      rw [Exchange.commandsOf, List.filterMap_append, ← Exchange.commandsOf]
      simp
    · intro e he
      rcases List.mem_append.mp he with he | he
      · left
        apply he
      · right
        rw [List.mem_singleton.mp he]
    · intro d hd
      apply hd
  · rw [Exchange.enqueue_of_unauthorized h.exchange _ hauthority] at hinv ⊢
    apply h.with_exchange s.mod hinv
    · intro c
      rfl
    · intro e he
      left
      apply he
    · intro d hd
      apply hd

theorem Inv.drain (h : s.Inv password) :
  { s with exchange := s.exchange.drain }.Inv password
  := by
  obtain ⟨henqueued, hdispatched⟩ := s.exchange.drain_history
  apply h.with_exchange s.mod h.exchange.drain
  · intro c
    rw [Exchange.commandsOf, henqueued]
    rfl
  · intro e he
    left
    rw [← henqueued]
    apply he
  · intro d hd
    rw [hdispatched]
    apply hd

/-- One dispatch on the game thread. -/
theorem Inv.process (h : s.Inv password) (mod : Mod σ) :
  { s with exchange := (s.exchange.process mod s.mod).1
           mod := (s.exchange.process mod s.mod).2 }.Inv password
  := by
  obtain ⟨henqueued, hdispatched⟩ := h.exchange.process_history mod s.mod
  apply h.with_exchange _ (h.exchange.process mod s.mod)
  · intro c
    rw [Exchange.commandsOf, henqueued]
    rfl
  · intro e he
    left
    rw [← henqueued]
    apply he
  · apply hdispatched

/-! ### Runs -/

section

variable [DecidableEq ι]

/-- A client that is accepted. -/
theorem Inv.accept (h : s.Inv password) (w : ι) (sock : Socket) :
  (s.accept w sock).Inv password
  := by
  rw [System.accept]
  split
  · apply h
  refine ⟨h.exchange, ?_, ?_, h.origin, ?_⟩
  · intro c
    rcases eq_or_ne c s.acceptances with rfl | hne
    · dsimp only
      rw [Function.update_self, h.commandsOf_unaccepted (Nat.le_refl _)]
      apply Connection.inv_accepted
    · dsimp only
      rw [Function.update_of_ne hne]
      apply h.connection
  · intro c
    rcases eq_or_ne c s.acceptances with rfl | hne
    · dsimp only
      rw [Function.update_self]
      exact ⟨by simp [Connection.accepted], by simp [Connection.accepted]⟩
    · dsimp only
      rw [Function.update_of_ne hne]
      apply h.answered
  · intro c hle
    dsimp only at hle ⊢
    rw [Function.update_of_ne (by omega)]
    apply h.unaccepted c (by omega)

/-- A step of a handler keeps the invariant. -/
theorem Inv.handle (h : s.Inv password) (w : ι)
    {f : ℕ → Connection → Exchange Origin → Connection × Exchange Origin}
    (hf : ∀ c, Handled password s c (f c (s.connections c) s.exchange).1
      (f c (s.connections c) s.exchange).2) :
  (s.handle w f).Inv password
  := by
  rw [System.handle]
  split
  · apply h
  next c _ =>
  have hc := hf c
  have hsub : ∀ d ∈ s.exchange.dispatched,
      d ∈ (f c (s.connections c) s.exchange).2.dispatched := by
    intro d hd
    rw [hc.dispatched]
    apply hd
  refine ⟨hc.exchange, ?_, ?_, hc.origin, ?_⟩
  · intro c'
    rcases eq_or_ne c' c with rfl | hne
    · dsimp only
      rw [Function.update_self]
      apply hc.connection
    · dsimp only
      rw [Function.update_of_ne hne, hc.others c' hne]
      apply h.connection
  · intro c'
    rcases eq_or_ne c' c with rfl | hne
    · dsimp only
      rw [Function.update_self]
      apply hc.answered
    · dsimp only
      rw [Function.update_of_ne hne]
      apply (h.answered c').mono hsub
  · intro c' hle
    rcases eq_or_ne c' c with rfl | hne
    · dsimp only
      rw [Function.update_self, hc.stream]
      apply h.unaccepted c' hle
    · dsimp only
      rw [Function.update_of_ne hne]
      apply h.unaccepted c' hle

/-- Every step keeps the invariant. -/
theorem Inv.step {mod : Mod σ} (h : s.Inv mod.password) (a : Action ι σ) :
  (s.step mod a).Inv mod.password
  := by
  cases a with
  | accept w sock => apply h.accept
  | advance w =>
      apply h.handle w (f := fun _ C x => (C.advance mod.password, x)) h.handled_advance
  | enqueue w => apply h.handle w h.handled_enqueue
  | ready w => apply h.handle w (f := fun _ C x => (C.ready x, x)) h.handled_ready
  | timeout w => apply h.handle w (f := fun _ C x => (C.timeout x, x)) h.handled_timeout
  | foreign commandText authority => apply h.foreign
  | drain => apply h.drain
  | process => apply h.process
  | game game => exact ⟨h.exchange, h.connection, h.answered, h.origin, h.unaccepted⟩

/-- The invariant holds after every run. -/
theorem inv_run (mod : Mod σ) (m : ModState σ) (actions : List (Action ι σ)) :
  (run mod m actions).Inv mod.password
  := by
  apply Transition.run_invariant (P := Inv mod.password)
  · intro s a h
    apply h.step
  · apply inv_init

end

end System

end OpenScumRcon
