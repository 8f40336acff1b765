import OpenScumRcon.System

/-!
# Guarantees of the system

Over every run of the system a command is dispatched only if it has been received on a
connection whose client had authenticated, every authorized command is dispatched at most
once, in order, and never lost, and every answer is the response to the command it answers
or says that the command has timed out.
-/

namespace OpenScumRcon

open Protocol

variable {ι σ : Type} [DecidableEq ι]

/-- Other code enqueues without authority. Only the transport has it, after it has checked
the password. -/
def Action.Unprivileged : Action ι σ → Prop
  | .foreign _ authority => authority ≠ .authenticatedRcon
  | _ => True

namespace System

variable {s : System ι σ}

/-! ### The system is a hand-off -/

theorem handle_exchange (s : System ι σ) (w : ι)
    (f : ℕ → Connection → Exchange Origin → Connection × Exchange Origin) :
  (s.handle w f).exchange = s.exchange ∨
    ∃ c, (s.handle w f).exchange = (f c (s.connections c) s.exchange).2
  := by
  rw [handle]
  split
  · left
    rfl
  · next c _ =>
      right
      use c

/-- A step of a handler that leaves the exchange alone. -/
theorem handle_exchange_of_local (s : System ι σ) (w : ι)
    (f : Connection → Exchange Origin → Connection) :
  (s.handle w fun _ C x => (f C x, x)).exchange = s.exchange
  := by
  rcases handle_exchange s w fun _ C x => (f C x, x) with h | ⟨c, h⟩
  · apply h
  · apply h

theorem accept_exchange (s : System ι σ) (w : ι) (sock : Socket) :
  (s.accept w sock).exchange = s.exchange
  := by
  rw [accept]
  split <;> rfl

/-- What enqueuing its command does to the exchange: nothing, or a submission. -/
theorem enqueue_exchange (c : ℕ) (C : Connection) (x : Exchange Origin) :
  (C.enqueue c x).2 = x ∨
    ∃ packet : Packet, (C.enqueue c x).2
      = (x.enqueue packet.payload .authenticatedRcon (.packet c packet)).2
  := by
  rw [Connection.enqueue]
  split
  · next packet _ =>
      right
      use packet
      rw [Exchange.enqueue_of_authorized]
  · left
    rfl

/-- The exchange after a step of the system. -/
inductive ExchangeStep (mod : Mod σ) (s : System ι σ) :
    Action ι σ → Exchange Origin → Prop where
  | same (a : Action ι σ) : ExchangeStep mod s a s.exchange
  | packet (a : Action ι σ) (c : ℕ) (packet : Packet) :
      ExchangeStep mod s a
        (s.exchange.enqueue packet.payload .authenticatedRcon (.packet c packet)).2
  | foreign (commandText : Bytes) (authority : CommandAuthority) :
      ExchangeStep mod s (.foreign commandText authority)
        (s.exchange.enqueue commandText authority .other).2
  | drain : ExchangeStep mod s .drain s.exchange.drain
  | process : ExchangeStep mod s .process (s.exchange.process mod s.mod).1

theorem exchangeStep (mod : Mod σ) (s : System ι σ) (a : Action ι σ) :
  ExchangeStep mod s a (s.step mod a).exchange
  := by
  cases a with
  | accept w sock =>
      rw [step, accept_exchange]
      apply ExchangeStep.same
  | advance w =>
      rw [step]
      rw [handle_exchange_of_local s w fun C _ => C.advance mod.password]
      apply ExchangeStep.same
  | enqueue w =>
      rw [step]
      rcases handle_exchange s w Connection.enqueue with h | ⟨c, h⟩
      · rw [h]
        apply ExchangeStep.same
      · rw [h]
        rcases enqueue_exchange c (s.connections c) s.exchange with h' | ⟨packet, h'⟩
        · rw [h']
          apply ExchangeStep.same
        · rw [h']
          apply ExchangeStep.packet
  | ready w =>
      rw [step]
      rw [handle_exchange_of_local s w Connection.ready]
      apply ExchangeStep.same
  | timeout w =>
      rw [step]
      rw [handle_exchange_of_local s w Connection.timeout]
      apply ExchangeStep.same
  | foreign commandText authority => apply ExchangeStep.foreign
  | drain => apply ExchangeStep.drain
  | process => apply ExchangeStep.process
  | game game => apply ExchangeStep.same

/-- Every step of the system is a step of the hand-off of the authorized commands, or none. -/
theorem Inv.simulated {mod : Mod σ} (h : s.Inv mod.password) (a : Action ι σ) :
  Relation.ReflTransGen (Handoff.Step PendingCommand.response) s.exchange.handoff
    (s.step mod a).exchange.handoff
  := by
  have hstep := exchangeStep mod s a
  generalize (s.step mod a).exchange = x at hstep
  cases hstep with
  | same => apply Relation.ReflTransGen.refl
  | packet _ c packet => apply Relation.ReflTransGen.single (h.exchange.step_enqueue _ _)
  | foreign commandText authority =>
      by_cases hauthority : authority = .authenticatedRcon
      · rw [hauthority]
        apply Relation.ReflTransGen.single (h.exchange.step_enqueue _ _)
      · rw [Exchange.enqueue_of_unauthorized h.exchange _ hauthority]
        apply Relation.ReflTransGen.refl
  | drain =>
      rcases eq_or_ne s.exchange.batch [] with hbatch | hbatch
      · apply Relation.ReflTransGen.single (Exchange.Inv.step_drain hbatch)
      · rw [Exchange.drain_of_ne_nil hbatch]
  | process =>
      rcases eq_or_ne s.exchange.batch [] with hbatch | hbatch
      · rw [Exchange.process_of_nil mod s.mod hbatch]
      · apply Relation.ReflTransGen.single (h.exchange.step_process mod s.mod hbatch)

/-- Every run of the system is one of the hand-off. -/
theorem run_simulated (mod : Mod σ) (m : ModState σ) (actions : List (Action ι σ)) :
  Relation.ReflTransGen (Handoff.Step PendingCommand.response) {}
    (run mod m actions).exchange.handoff
  := by
  have hinit : ({ mod := m } : System ι σ).Inv mod.password := inv_init mod.password m
  exact Transition.run_simulated (P := Inv mod.password) (fun s a h => h.step a)
    (f := fun s => s.exchange.handoff) (fun s a h => h.simulated a) hinit actions

/-! ### The authentication gate -/

/-- An unprivileged step adds commands of connections only. -/
theorem Inv.origin_step {mod : Mod σ} (h : s.Inv mod.password) {a : Action ι σ}
    (ha : a.Unprivileged) (horigin : ∀ e ∈ s.exchange.enqueued, e.2 ≠ .other) :
  ∀ e ∈ (s.step mod a).exchange.enqueued, e.2 ≠ .other
  := by
  have hstep := exchangeStep mod s a
  generalize (s.step mod a).exchange = x at hstep
  cases hstep with
  | same => apply horigin
  | packet _ c packet =>
      rw [Exchange.enqueue_of_authorized]
      dsimp only
      rw [List.forall_mem_append, List.forall_mem_singleton]
      use horigin
      simp
  | foreign commandText authority =>
      rw [Exchange.enqueue_of_unauthorized h.exchange _ ha]
      apply horigin
  | drain =>
      rw [(s.exchange.drain_history).1]
      apply horigin
  | process =>
      rw [(h.exchange.process_history mod s.mod).1]
      apply horigin

theorem origin_run (mod : Mod σ) (m : ModState σ) {actions : List (Action ι σ)}
    (hactions : ∀ a ∈ actions, a.Unprivileged) :
  ∀ e ∈ (run mod m actions).exchange.enqueued, e.2 ≠ .other
  := by
  have hboth : (run mod m actions).Inv mod.password ∧
      ∀ e ∈ (run mod m actions).exchange.enqueued, e.2 ≠ .other := by
    apply Transition.run_invariant_of_forall
      (P := fun s : System ι σ => s.Inv mod.password ∧ ∀ e ∈ s.exchange.enqueued, e.2 ≠ .other)
      (Q := Action.Unprivileged) _ _ hactions
    · rintro s a ha ⟨hinv, horigin⟩
      exact ⟨hinv.step a, hinv.origin_step ha horigin⟩
    · exact ⟨inv_init mod.password m, by simp⟩
  apply hboth.2

omit [DecidableEq ι] in
/-- A connection that has been given a stream has been accepted. -/
theorem Inv.lt_acceptances {password : Bytes} (h : s.Inv password) {c : ℕ} {auth : Packet}
    {rest : List Packet} (hauth : Authenticates password (s.connections c).stream auth rest) :
  c < s.acceptances
  := by
  by_contra hle
  have hpackets := hauth.packets
  rw [h.unaccepted c (Nat.le_of_not_lt hle), packetsOf_nil] at hpackets
  cases hpackets

omit [DecidableEq ι] in
/-- A command that a packet of a connection has brought comes from a client that had
authenticated on that connection, and the packet is a command packet behind the first. -/
theorem Inv.authenticates {password : Bytes} (h : s.Inv password) {item : PendingCommand}
    {c : ℕ} {packet : Packet} (he : (item, .packet c packet) ∈ s.exchange.enqueued) :
  ∃ auth rest, Authenticates password (s.connections c).stream auth rest ∧ packet ∈ rest ∧
    packet.type = serverdataExeccommand ∧ packet.payload = item.commandText
  := by
  have hcommand : (packet, item.response) ∈ s.exchange.commandsOf c :=
    Exchange.mem_commandsOf_iff.mpr ⟨_, he, rfl, rfl⟩
  rcases (h.connection c).commands_cases with hnil | ⟨auth, rest, hauth, hprefix⟩
  · rw [hnil] at hcommand
    cases hcommand
  · have hmem := hprefix.subset (List.mem_map_of_mem hcommand)
    rw [List.mem_filter] at hmem
    use auth, rest
    refine ⟨hauth, hmem.1, ?_, (h.origin _ he c packet rfl).symm⟩
    simpa [isCommand] using hmem.2

/-- The authentication gate. In every run in which only the transport has authority, a
command is dispatched only if it is the payload of a command packet behind the first packet
of a connection, and that first packet carries the password. A connection whose first packet
does not enqueues nothing. Whatever waits or is dispatched has the authority of an
authenticated connection. -/
theorem authentication_gate (mod : Mod σ) (m : ModState σ) (actions : List (Action ι σ)) :
  let s := run mod m actions
  ((∀ a ∈ actions, a.Unprivileged) → ∀ d ∈ s.exchange.dispatched, ∃ c packet auth rest,
    (d.1, .packet c packet) ∈ s.exchange.enqueued ∧ c < s.acceptances ∧
    Authenticates mod.password (s.connections c).stream auth rest ∧
    packet ∈ rest ∧ packet.type = serverdataExeccommand ∧ packet.payload = d.1.commandText) ∧
  (∀ c, (¬ ∃ auth rest, Authenticates mod.password (s.connections c).stream auth rest) →
    s.exchange.commandsOf c = []) ∧
  (∀ item ∈ s.exchange.queue.pending ++ s.exchange.batch ++ s.exchange.dispatched.map Prod.fst,
    item.authority = .authenticatedRcon)
  := by
  intro s
  have hinv : s.Inv mod.password := inv_run mod m actions
  have horder : s.exchange.enqueued.map Prod.fst = s.exchange.dispatched.map Prod.fst
      ++ s.exchange.batch ++ s.exchange.queue.pending := hinv.exchange.accounted.order
  and_intros
  · intro hactions d hd
    have hmem : d.1 ∈ s.exchange.enqueued.map Prod.fst := by
      rw [horder, List.append_assoc]
      apply List.mem_append_left _ (List.mem_map_of_mem hd)
    obtain ⟨⟨item, origin⟩, he, heq⟩ := List.mem_map.mp hmem
    obtain rfl : item = d.1 := heq
    cases origin with
    | other => exact absurd rfl (origin_run mod m hactions _ he)
    | packet c packet =>
        obtain ⟨auth, rest, hauth, hrest, htype, hpayload⟩ := hinv.authenticates he
        use c, packet, auth, rest
        exact ⟨he, hinv.lt_acceptances hauth, hauth, hrest, htype, hpayload⟩
  · intro c hnone
    rcases (hinv.connection c).commands_cases with hnil | ⟨auth, rest, hauth, -⟩
    · apply hnil
    · exact absurd ⟨auth, rest, hauth⟩ hnone
  · intro item hitem
    apply hinv.exchange.authority
    change item ∈ s.exchange.enqueued.map Prod.fst
    rw [horder]
    simp only [List.mem_append] at hitem ⊢
    tauto

/-- A mod whose functions reply nothing. -/
def silentMod (password : Bytes) : Mod Unit where
  password
  routes :=
    { godmode := fun _ => pure [], listPlayers := pure [], weather := fun _ => pure []
      catalogue := fun _ => pure [], execute := fun _ => pure [] }
  sentinels :=
    ⟨pure [], pure [], pure [], pure [], pure [], pure [], pure [], pure [], pure [], pure []⟩

/-- A client sends a command without authenticating, and another one authenticates and sends a
command. -/
def twoClients : List (Action Unit Unit) :=
  [.accept () { incoming := encodePacket 1 serverdataExeccommand (ascii "!capture_stop") },
    .advance (),
    .accept () { incoming := encodePacket 1 serverdataAuth (ascii "secret")
      ++ encodePacket 7 serverdataExeccommand (ascii "!capture_start") },
    .advance (), .advance (), .enqueue (), .drain, .process, .ready (), .advance ()]

theorem authentication_gate_twoClients :
  (run (silentMod (ascii "secret")) { game := () } twoClients).exchange.dispatched
    = [(⟨ascii "!capture_start", 0, .authenticatedRcon⟩, ascii "ok: capture started")] ∧
  (∃ c packet auth rest,
    Authenticates (ascii "secret")
      ((run (silentMod (ascii "secret")) { game := () } twoClients).connections c).stream
      auth rest ∧
    packet ∈ rest ∧ packet.type = serverdataExeccommand ∧
    packet.payload = ascii "!capture_start")
  := by
  have hdispatched : (run (silentMod (ascii "secret")) { game := () } twoClients).exchange.dispatched
      = [(⟨ascii "!capture_start", 0, .authenticatedRcon⟩, ascii "ok: capture started")] := by
    decide +kernel
  use hdispatched
  have hunprivileged : ∀ a ∈ twoClients, a.Unprivileged := by
    simp [twoClients, Action.Unprivileged]
  obtain ⟨hgate, -, -⟩ := authentication_gate (silentMod (ascii "secret")) { game := () } twoClients
  obtain ⟨c, packet, auth, rest, -, -, hauth, hrest, htype, hpayload⟩ :=
    hgate hunprivileged _ (by rw [hdispatched]; apply List.mem_singleton_self)
  exact ⟨c, packet, auth, rest, hauth, hrest, htype, hpayload⟩

/-! ### Exactly once -/

/-- Processing as many items as the batch has empties it and touches neither the queue nor the
history of what has been enqueued. -/
theorem Inv.run_process {mod : Mod σ} (n : ℕ) (h : s.Inv mod.password)
    (hn : s.exchange.batch.length = n) :
  let s' := Transition.run (System.step mod) s (List.replicate n .process)
  s'.Inv mod.password ∧ s'.exchange.batch = [] ∧ s'.exchange.queue = s.exchange.queue ∧
    s'.exchange.enqueued = s.exchange.enqueued
  := by
  induction n generalizing s with
  | zero => exact ⟨h, List.eq_nil_of_length_eq_zero hn, rfl, rfl⟩
  | succ n ih =>
      obtain ⟨item, rest, hbatch⟩ := List.exists_cons_of_length_eq_add_one hn
      have hprocess : (s.step mod .process).exchange = s.exchange.complete item rest
          (respond mod item.commandText item.authority s.mod).1 := by
        rw [System.step, Exchange.process_of_cons h.exchange mod s.mod hbatch]
      rw [Exchange.complete_eq h.exchange hbatch] at hprocess
      have hlength : (s.step mod .process).exchange.batch.length = n := by
        rw [hprocess]
        rw [hbatch, List.length_cons] at hn
        apply Nat.succ.inj hn
      obtain ⟨hinv, hnil, hqueue, henqueued⟩ := ih (h.step .process) hlength
      rw [hprocess] at hqueue henqueued
      exact ⟨hinv, hnil, hqueue, henqueued⟩

/-- The actions of the game thread that finish everything enqueued so far: the rest of its
batch, and one more drain. -/
def finishing (s : System ι σ) : List (Action ι σ) :=
  List.replicate s.exchange.batch.length .process ++
    .drain :: List.replicate s.exchange.queue.pending.length .process

/-- One more drain dispatches every command enqueued so far. -/
theorem Inv.run_finishing {mod : Mod σ} (h : s.Inv mod.password) :
  (Transition.run (System.step mod) s s.finishing).exchange.dispatched.map Prod.fst
    = s.exchange.enqueued.map Prod.fst
  := by
  obtain ⟨hinv, hbatch, hqueue, henqueued⟩ := h.run_process _ rfl
  rw [finishing, Transition.run_append, Transition.run_cons]
  generalize Transition.run (System.step mod) s
    (List.replicate s.exchange.batch.length .process) = s₁ at *
  have hdrained : (s₁.step mod .drain).exchange.batch = s.exchange.queue.pending ∧
      (s₁.step mod .drain).exchange.queue.pending = [] ∧
      (s₁.step mod .drain).exchange.enqueued = s.exchange.enqueued := by
    simp [System.step, Exchange.drain, CommandQueue.drain, hbatch, hqueue, henqueued]
  obtain ⟨hbatch₂, hpending₂, henqueued₂⟩ := hdrained
  have hinv₂ := hinv.step .drain
  generalize s₁.step mod .drain = s₂ at *
  obtain ⟨hinv₃, hbatch₃, hqueue₃, henqueued₃⟩ := hinv₂.run_process _ rfl
  rw [hbatch₂] at hinv₃ hbatch₃ hqueue₃ henqueued₃
  generalize Transition.run (System.step mod) s₂
    (List.replicate s.exchange.queue.pending.length .process) = s₃ at *
  have horder : s₃.exchange.enqueued.map Prod.fst = s₃.exchange.dispatched.map Prod.fst
      ++ s₃.exchange.batch ++ s₃.exchange.queue.pending := hinv₃.exchange.accounted.order
  rw [hbatch₃, hqueue₃, hpending₂, List.append_nil, List.append_nil, henqueued₃, henqueued₂]
    at horder
  apply horder.symm

omit [DecidableEq ι] in
/-- An answer is for a command that its connection has enqueued, and its text is the response
that command has been dispatched with, or says that it has timed out. -/
theorem Inv.answer {password : Bytes} (h : s.Inv password) {c : ℕ} {a : Answer}
    (ha : a ∈ (s.connections c).answers) :
  ∃ item, (item, .packet c a.packet) ∈ s.exchange.enqueued ∧ item.response = a.future ∧
    item.commandText = a.packet.payload ∧
    (a.text = commandTimedOut ∨ (item, a.text) ∈ s.exchange.dispatched)
  := by
  have hcommand : (a.packet, a.future) ∈ s.exchange.commandsOf c := by
    apply (h.connection c).isPrefix_answers.subset
    apply List.mem_map_of_mem (f := fun a : Answer => (a.packet, a.future)) ha
  obtain ⟨⟨item, origin⟩, he, horigin, hfuture⟩ := Exchange.mem_commandsOf_iff.mp hcommand
  obtain rfl : origin = .packet c a.packet := horigin
  use item
  use he, hfuture, h.origin _ he c a.packet rfl
  rcases (h.answered c).answers a ha with htimeout | ⟨d, hd, hresponse, htext⟩
  · left
    apply htimeout
  · right
    have hvalue := h.exchange.set d hd
    rw [hresponse, ← hfuture, htext] at hvalue
    apply h.exchange.mem_dispatched (List.mem_map_of_mem he) hvalue

omit [DecidableEq ι] in
/-- A command is answered once at most, on the connection it has been enqueued for. -/
theorem Inv.nodup_futures {password : Bytes} (h : s.Inv password)
    (hnodup : (s.exchange.enqueued.map fun e => e.1.response).Nodup) (c : ℕ) :
  ((s.connections c).answers.map Answer.future).Nodup ∧
  ∀ c' ≠ c, List.Disjoint ((s.connections c).answers.map Answer.future)
    ((s.connections c').answers.map Answer.future)
  := by
  have hfutures : ∀ c, (s.connections c).answers.map Answer.future
      <+: (s.exchange.commandsOf c).map Prod.snd := by
    intro c
    have hmap := (h.connection c).isPrefix_answers.map Prod.snd
    rw [List.map_map] at hmap
    apply hmap
  constructor
  · apply List.Nodup.sublist _ hnodup
    apply (hfutures c).sublist.trans
    apply s.exchange.commandsOf_sublist
  · intro c' hne future hmem hmem'
    obtain ⟨⟨packet, _⟩, hcommand, rfl⟩ := List.mem_map.mp ((hfutures c).subset hmem)
    obtain ⟨⟨packet', _⟩, hcommand', hfuture⟩ := List.mem_map.mp ((hfutures c').subset hmem')
    obtain ⟨e, he, horigin, hresponse⟩ := Exchange.mem_commandsOf_iff.mp hcommand
    obtain ⟨e', he', horigin', hresponse'⟩ := Exchange.mem_commandsOf_iff.mp hcommand'
    have heq : e' = e := by
      apply List.inj_on_of_nodup_map hnodup he' he
      rw [hresponse, hresponse']
      apply hfuture
    rw [heq, horigin] at horigin'
    apply hne
    obtain ⟨hc, -⟩ := Origin.packet.inj horigin'
    apply hc.symm

/-- Exactly-once hand-off and association of the responses. In every state of every run:

every authorized command is dispatched, in the batch or pending, in the order in which it has
been enqueued, and its promise is its own;

no promise has been set twice, the promise of a dispatched command has the response, and that
of a command that waits has none;

one more drain dispatches every command enqueued so far;

the answers of a connection are, in order, to the command packets it has enqueued, each with
the response of the command of that very packet, or with the text that it has timed out, and
no command is answered twice or on two connections;

and what is on the wire of a connection is the reply to its first packet and the packets of
its answers under the ids of their requests, up to the end or to where sending has failed. -/
theorem exactly_once (mod : Mod σ) (m : ModState σ) (actions : List (Action ι σ)) :
  let s := run mod m actions
  (s.exchange.enqueued.map Prod.fst
      = s.exchange.dispatched.map Prod.fst ++ s.exchange.batch ++ s.exchange.queue.pending ∧
    (s.exchange.enqueued.map fun e => e.1.response).Nodup) ∧
  (s.exchange.failed = false ∧
    (∀ d ∈ s.exchange.dispatched, s.exchange.promises.value d.1.response = some d.2) ∧
    (∀ item ∈ s.exchange.batch ++ s.exchange.queue.pending,
      s.exchange.promises.value item.response = none)) ∧
  (Transition.run (System.step mod) s s.finishing).exchange.dispatched.map Prod.fst
    = s.exchange.enqueued.map Prod.fst ∧
  (∀ c, ((s.connections c).answers.map fun a => (a.packet, a.future)) <+: s.exchange.commandsOf c ∧
    ∀ a ∈ (s.connections c).answers, ∃ item,
      (item, .packet c a.packet) ∈ s.exchange.enqueued ∧ item.response = a.future ∧
      item.commandText = a.packet.payload ∧
      (a.text = commandTimedOut ∨ (item, a.text) ∈ s.exchange.dispatched)) ∧
  (∀ c, ((s.connections c).answers.map Answer.future).Nodup ∧
    ∀ c' ≠ c, List.Disjoint ((s.connections c).answers.map Answer.future)
      ((s.connections c').answers.map Answer.future)) ∧
  (∀ c, ∃ reply, IsAuthReply reply ∧ (s.connections c).sock.wire <+: reply ++
    (s.connections c).answers.flatMap
      (fun a => (encodeResponse a.packet.requestId a.text).flatten))
  := by
  intro s
  have hinv : s.Inv mod.password := inv_run mod m actions
  have haccounted : s.exchange.handoff.Accounted PendingCommand.response :=
    Handoff.accounted_of_reflTransGen (run_simulated mod m actions)
      (Handoff.accounted_empty PendingCommand.response)
  have hnodup : (s.exchange.enqueued.map fun e => e.1.response).Nodup := by
    have hmap := haccounted.nodup
    change ((s.exchange.enqueued.map Prod.fst).map PendingCommand.response).Nodup at hmap
    rw [List.map_map] at hmap
    apply hmap
  refine ⟨⟨haccounted.order, hnodup⟩,
    ⟨hinv.exchange.ok, hinv.exchange.set, hinv.exchange.unset⟩,
    hinv.run_finishing, ?_, hinv.nodup_futures hnodup, ?_⟩
  · intro c
    constructor
    · apply (hinv.connection c).isPrefix_answers
    · intro a ha
      apply hinv.answer ha
  · intro c
    apply (hinv.connection c).isPrefix_wire

end System

end OpenScumRcon
