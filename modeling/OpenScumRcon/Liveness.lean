import OpenScumRcon.Guarantees
import OpenScumRcon.Library.LeadsTo
import OpenScumRcon.Workers

/-!
# Every command is answered

A schedule chooses the steps of all threads for ever. If the game thread goes on to drain the
queue and to process items, every command that has been enqueued is dispatched in the end,
whatever the other threads do. If the handlers go on as well, every command packet that one of
them has received is answered in the end.
-/

namespace OpenScumRcon

open Protocol Transition

/-- The command packet that has been received and whose command has not been enqueued. -/
def Connection.received (C : Connection) : Option Packet :=
  match C.phase with
  | .enqueuing packet => some packet
  | _ => none

theorem Connection.phase_of_received {C : Connection} {packet : Packet}
    (h : C.received = some packet) :
  C.phase = .enqueuing packet
  := by
  rw [received] at h
  split at h
  · next hphase =>
      rw [hphase, Option.some.inj h]
  · cases h

variable {ι σ : Type} [DecidableEq ι]

namespace System

variable {mod : Mod σ} {s : System ι σ}

/-! ### The steps of the hand-off -/

/-- What an action does to the batch and to the history of what has been dispatched. -/
inductive Moves (a : Action ι σ) (x x' : Exchange Origin) : Prop where
  | idle (hdrain : a = .drain → x.batch ≠ []) (hprocess : a = .process → x.batch = [])
      (batch : x'.batch = x.batch) (dispatched : x'.dispatched = x.dispatched)
  | take (hbatch : x.batch = []) (batch : x'.batch = x.queue.pending)
      (dispatched : x'.dispatched = x.dispatched)
  | finish (item : PendingCommand) (rest : List PendingCommand) (response : Bytes)
      (hbatch : x.batch = item :: rest) (batch : x'.batch = rest)
      (dispatched : x'.dispatched = x.dispatched ++ [(item, response)])

/-- A step of another thread only enqueues. -/
theorem Inv.moves_of_ne (h : s.Inv mod.password) {a : Action ι σ} (hdrain : a ≠ .drain)
    (hprocess : a ≠ .process) :
  (s.step mod a).exchange.batch = s.exchange.batch ∧
    (s.step mod a).exchange.dispatched = s.exchange.dispatched ∧
    s.exchange.enqueued <+: (s.step mod a).exchange.enqueued
  := by
  have hstep := exchangeStep mod s a
  generalize (s.step mod a).exchange = x at hstep
  cases hstep with
  | same => exact ⟨rfl, rfl, List.prefix_rfl⟩
  | packet _ c packet =>
      rw [Exchange.enqueue_of_authorized]
      exact ⟨rfl, rfl, List.prefix_append _ _⟩
  | foreign commandText authority =>
      by_cases hauthority : authority = .authenticatedRcon
      · rw [hauthority, Exchange.enqueue_of_authorized]
        exact ⟨rfl, rfl, List.prefix_append _ _⟩
      · rw [Exchange.enqueue_of_unauthorized h.exchange _ hauthority]
        exact ⟨rfl, rfl, List.prefix_rfl⟩
  | drain => cases hdrain rfl
  | process => cases hprocess rfl

theorem Inv.moves (h : s.Inv mod.password) (a : Action ι σ) :
  Moves a s.exchange (s.step mod a).exchange ∧
    s.exchange.enqueued <+: (s.step mod a).exchange.enqueued
  := by
  by_cases hdrain : a = .drain
  · obtain rfl := hdrain
    obtain ⟨henqueued, hdispatched⟩ := s.exchange.drain_history
    constructor
    · rcases hbatch : s.exchange.batch with _ | ⟨item, rest⟩
      · apply Moves.take hbatch _ hdispatched
        simp [Exchange.drain, CommandQueue.drain, hbatch]
      · have hne : s.exchange.batch ≠ [] := by
          rw [hbatch]
          apply List.cons_ne_nil
        apply Moves.idle (fun _ => hne) (by simp) _ hdispatched
        simp [Exchange.drain_of_ne_nil hne]
    · simp [System.step, henqueued]
  by_cases hprocess : a = .process
  · obtain rfl := hprocess
    rcases hbatch : s.exchange.batch with _ | ⟨item, rest⟩
    · have hsame : (s.step mod .process).exchange = s.exchange := by
        rw [System.step, Exchange.process_of_nil mod s.mod hbatch]
      rw [hsame]
      exact ⟨.idle (by simp) (fun _ => hbatch) rfl rfl, List.prefix_rfl⟩
    · have hcomplete : (s.step mod .process).exchange = s.exchange.complete item rest
          (respond mod item.commandText item.authority s.mod).1 := by
        rw [System.step, Exchange.process_of_cons h.exchange mod s.mod hbatch]
      rw [hcomplete, Exchange.complete_eq h.exchange hbatch]
      exact ⟨.finish item rest _ hbatch rfl rfl, List.prefix_rfl⟩
  · obtain ⟨hbatch, hdispatched, henqueued⟩ := h.moves_of_ne hdrain hprocess
    exact ⟨.idle (fun ha => absurd ha hdrain) (fun ha => absurd ha hprocess) hbatch hdispatched,
      henqueued⟩

/-! ### Every command is dispatched -/

/-- The `i`th command that has been enqueued is the item. -/
def Enqueued (i : ℕ) (item : PendingCommand) (s : System ι σ) : Prop :=
  (s.exchange.enqueued.map Prod.fst)[i]? = some item

def Dispatched (item : PendingCommand) (s : System ι σ) : Prop :=
  item ∈ s.exchange.dispatched.map Prod.fst

omit [DecidableEq ι] in
theorem Inv.order (h : s.Inv mod.password) :
  s.exchange.enqueued.map Prod.fst
    = s.exchange.dispatched.map Prod.fst ++ s.exchange.batch ++ s.exchange.queue.pending
  := h.exchange.accounted.order

theorem Inv.enqueued_step (h : s.Inv mod.password) (a : Action ι σ) {i : ℕ}
    {item : PendingCommand} (hi : s.Enqueued i item) :
  (s.step mod a).Enqueued i item
  := by
  obtain ⟨new, hnew⟩ := (h.moves a).2
  rw [Enqueued, ← hnew, List.map_append, List.getElem?_append_left]
  · apply hi
  · apply (List.getElem?_eq_some_iff.mp hi).1

omit [DecidableEq ι] in
/-- When so many commands have been dispatched, this one is among them. -/
theorem Inv.dispatched_of_lt (h : s.Inv mod.password) {i : ℕ} {item : PendingCommand}
    (hi : s.Enqueued i item) (hlt : i < s.exchange.dispatched.length) :
  s.Dispatched item
  := by
  rw [Enqueued, h.order, List.append_assoc, List.getElem?_append_left (by simpa using hlt)] at hi
  apply List.mem_of_getElem? hi

omit [DecidableEq ι] in
/-- A command that has not been dispatched is pending when the batch is empty. -/
theorem Inv.pending_ne_nil (h : s.Inv mod.password) {i : ℕ} {item : PendingCommand}
    (hi : s.Enqueued i item) (hle : s.exchange.dispatched.length ≤ i)
    (hbatch : s.exchange.batch = []) :
  s.exchange.queue.pending ≠ []
  := by
  intro hpending
  have hlt := (List.getElem?_eq_some_iff.mp hi).1
  rw [h.order, hbatch, hpending, List.append_nil, List.append_nil, List.length_map] at hlt
  omega

section

variable {states : ℕ → System ι σ} {schedule : ℕ → Action ι σ}

/-- With an empty batch, the next drain fills it. -/
theorem leadsTo_batch (hinv : ∀ n, (states n).Inv mod.password)
    (hstates : ∀ n, states (n + 1) = (states n).step mod (schedule n))
    (hdrain : Recurs schedule (· = .drain)) (i : ℕ) (item : PendingCommand) (k : ℕ)
    (hk : k ≤ i) :
  LeadsTo states
    (fun s => s.Enqueued i item ∧ s.exchange.dispatched.length = k ∧ s.exchange.batch = [])
    (fun s => s.Enqueued i item ∧ s.exchange.dispatched.length = k ∧ s.exchange.batch ≠ [])
  := by
  apply leadsTo_of_recurs hdrain
  rintro n ⟨hi, hlength, hbatch⟩
  have hi' := (hinv n).enqueued_step (schedule n) hi
  rw [hstates n]
  cases ((hinv n).moves (schedule n)).1 with
  | idle hdrain _ hbatch' hdispatched =>
      left
      rw [hdispatched, hbatch']
      use ⟨hi', hlength, hbatch⟩
      intro ha
      apply hdrain ha hbatch
  | take _ hbatch' hdispatched =>
      right
      rw [hdispatched, hbatch']
      use hi', hlength
      apply (hinv n).pending_ne_nil hi (by omega) hbatch
  | finish first rest response hcons _ _ =>
      rw [hbatch] at hcons
      cases hcons

/-- With items in the batch, the next of them is processed. -/
theorem leadsTo_finish (hinv : ∀ n, (states n).Inv mod.password)
    (hstates : ∀ n, states (n + 1) = (states n).step mod (schedule n))
    (hprocess : Recurs schedule (· = .process)) (i : ℕ) (item : PendingCommand) (k : ℕ) :
  LeadsTo states
    (fun s => s.Enqueued i item ∧ s.exchange.dispatched.length = k ∧ s.exchange.batch ≠ [])
    (fun s => s.Enqueued i item ∧ s.exchange.dispatched.length = k + 1)
  := by
  apply leadsTo_of_recurs hprocess
  rintro n ⟨hi, hlength, hbatch⟩
  have hi' := (hinv n).enqueued_step (schedule n) hi
  rw [hstates n]
  cases ((hinv n).moves (schedule n)).1 with
  | idle _ hprocess hbatch' hdispatched =>
      left
      rw [hdispatched, hbatch']
      use ⟨hi', hlength, hbatch⟩
      intro ha
      apply hbatch (hprocess ha)
  | take hnil _ _ => cases hbatch hnil
  | finish first rest response _ _ hdispatched =>
      right
      rw [hdispatched, List.length_append, hlength]
      exact ⟨hi', rfl⟩

/-- Every command that has been enqueued is dispatched. -/
theorem leadsTo_dispatched (hinv : ∀ n, (states n).Inv mod.password)
    (hstates : ∀ n, states (n + 1) = (states n).step mod (schedule n))
    (hdrain : Recurs schedule (· = .drain)) (hprocess : Recurs schedule (· = .process))
    (i : ℕ) (item : PendingCommand) :
  LeadsTo states (Enqueued i item) (Dispatched item)
  := by
  apply leadsTo_of_measure fun s => i + 1 - s.exchange.dispatched.length
  rintro j n ⟨hi, hmeasure⟩
  obtain hlt | hle := Nat.lt_or_ge i (states n).exchange.dispatched.length
  · use n, Nat.le_refl n
    right
    apply (hinv n).dispatched_of_lt hi hlt
  · have hfinish := leadsTo_finish hinv hstates hprocess i item
      (states n).exchange.dispatched.length
    have hfill := leadsTo_batch hinv hstates hdrain i item _ hle
    obtain ⟨m, hm, hi', hlength⟩ : ∃ m, n ≤ m ∧ (states m).Enqueued i item ∧
        (states m).exchange.dispatched.length = (states n).exchange.dispatched.length + 1 := by
      by_cases hbatch : (states n).exchange.batch = []
      · apply (hfill.trans hfinish) n ⟨hi, rfl, hbatch⟩
      · apply hfinish n ⟨hi, rfl, hbatch⟩
    use m, hm
    left
    use hi'
    omega

end

/-! ### The phases of a handler -/

section

variable {states : ℕ → System ι σ} {schedule : ℕ → Action ι σ} {w : ι} {c : ℕ} {C : Connection}
  {packet : Packet} {future : ℕ} {text : Bytes}

omit [DecidableEq ι] in
/-- A connection that does not change goes on to stand with its worker. -/
theorem Stands.of_eq {s' : System ι σ} {C' : Connection} (hC : C'.phase.isClosed = false)
    {C₁ : Connection} (hstep : s'.connections c = C₁ ∧
      (C₁.phase.isClosed = false → s'.workers w = some c)) (heq : C₁ = C') :
  s'.Stands w c C'
  := by
  obtain rfl := heq
  exact ⟨hstep.2 hC, hstep.1⟩

/-- A received command is enqueued. -/
theorem leadsTo_waiting (hassigned : ∀ n, (states n).Assigned)
    (hstates : ∀ n, states (n + 1) = (states n).step mod (schedule n))
    (henqueue : Recurs schedule (· = .enqueue w)) (hphase : C.phase = .enqueuing packet) :
  LeadsTo states (Stands w c C)
    (fun s => ∃ future, s.Stands w c { C with phase := .waiting packet future })
  := by
  have hopen : C.phase.isClosed = false := by
    rw [hphase]
    rfl
  apply leadsTo_of_recurs henqueue
  intro n h
  have hstep := h.step (hassigned n) mod (schedule n)
  rw [← hstates n] at hstep
  rcases turn_enqueuing hphase (schedule n) with ⟨hturn, hne⟩ | ⟨future, hturn⟩
  · left
    exact ⟨Stands.of_eq hopen hstep hturn, hne⟩
  · right
    use future
    apply Stands.of_eq rfl hstep hturn

omit [DecidableEq ι] in
/-- The command a handler waits for has been enqueued, with this future. -/
theorem Inv.exists_enqueued (h : s.Inv mod.password) (hs : s.Stands w c C)
    (hphase : C.phase = .waiting packet future) :
  ∃ i item, s.Enqueued i item ∧ item.response = future
  := by
  have hconnection := h.connection c
  rw [hs.connection] at hconnection
  obtain ⟨e, he, -, rfl⟩ := Exchange.mem_commandsOf_iff.mp (hconnection.mem_commands hphase)
  obtain ⟨i, hi, hget⟩ := List.mem_iff_getElem.mp (List.mem_map_of_mem (f := Prod.fst) he)
  use i, e.1
  constructor
  · rw [Enqueued, ← hget]
    apply List.getElem?_eq_getElem
  · rfl

omit [DecidableEq ι] in
/-- The future of a dispatched command is ready. -/
theorem Inv.value_ne_none (h : s.Inv mod.password) {item : PendingCommand}
    (hdispatched : s.Dispatched item) :
  s.exchange.promises.value item.response ≠ none
  := by
  obtain ⟨d, hd, rfl⟩ := List.mem_map.mp hdispatched
  rw [h.exchange.set d hd]
  apply Option.some_ne_none

theorem Inv.dispatched_step (h : s.Inv mod.password) (a : Action ι σ) {item : PendingCommand}
    (hdispatched : s.Dispatched item) :
  (s.step mod a).Dispatched item
  := by
  rw [Dispatched] at hdispatched ⊢
  cases (h.moves a).1 with
  | idle _ _ _ hsame =>
      rw [hsame]
      apply hdispatched
  | take _ _ hsame =>
      rw [hsame]
      apply hdispatched
  | finish first rest response _ _ hmore =>
      rw [hmore, List.map_append]
      apply List.mem_append_left _ hdispatched

/-- Whoever waits for a response gets one, or gives up. -/
theorem leadsTo_replying (hinv : ∀ n, (states n).Inv mod.password)
    (hassigned : ∀ n, (states n).Assigned)
    (hstates : ∀ n, states (n + 1) = (states n).step mod (schedule n))
    (hdrain : Recurs schedule (· = .drain)) (hprocess : Recurs schedule (· = .process))
    (hready : Recurs schedule (· = .ready w)) (hphase : C.phase = .waiting packet future) :
  LeadsTo states (Stands w c C)
    (fun s => ∃ text, s.Stands w c { C with phase := .replying packet future text })
  := by
  have hopen : C.phase.isClosed = false := by
    rw [hphase]
    rfl
  have hturns : ∀ n, (states n).Stands w c C →
      ((states (n + 1)).Stands w c C ∧
        (schedule n = .ready w → (states n).exchange.promises.value future = none)) ∨
      ∃ text, (states (n + 1)).Stands w c { C with phase := .replying packet future text } := by
    intro n h
    have hstep := h.step (hassigned n) mod (schedule n)
    rw [← hstates n] at hstep
    rcases turn_waiting hphase (schedule n) with ⟨hturn, hnone⟩ | ⟨text, hturn⟩
    · left
      exact ⟨Stands.of_eq hopen hstep hturn, hnone⟩
    · right
      use text
      apply Stands.of_eq rfl hstep hturn
  have hunless : Unless states (Stands w c C)
      (fun s => ∃ text, s.Stands w c { C with phase := .replying packet future text }) := by
    intro n h
    apply (hturns n h).imp_left And.left
  intro n h
  obtain ⟨i, item, hi, rfl⟩ := (hinv n).exists_enqueued h hphase
  -- once the command has been dispatched, the next look at the future succeeds
  have hlooks : LeadsTo states (fun s => s.Stands w c C ∧ s.Dispatched item)
      (fun s => ∃ text, s.Stands w c { C with phase := .replying packet item.response text }) := by
    apply leadsTo_of_recurs hready
    rintro n ⟨h, hdispatched⟩
    have hdispatched' := (hinv n).dispatched_step (schedule n) hdispatched
    rw [← hstates n] at hdispatched'
    rcases hturns n h with ⟨h, hnone⟩ | hreplying
    · left
      use ⟨h, hdispatched'⟩
      intro ha
      apply (hinv n).value_ne_none hdispatched (hnone ha)
    · right
      apply hreplying
  obtain ⟨m, hm, hdispatched | hreplying⟩ := hunless.and_leadsTo
    (leadsTo_dispatched hinv hstates hdrain hprocess i item) n ⟨h, hi⟩
  · obtain ⟨k, hk, hreplying⟩ := hlooks m hdispatched
    exact ⟨k, Nat.le_trans hm hk, hreplying⟩
  · exact ⟨m, hm, hreplying⟩

/-- An answer is handed over for sending. -/
theorem leadsTo_answered (hassigned : ∀ n, (states n).Assigned)
    (hstates : ∀ n, states (n + 1) = (states n).step mod (schedule n))
    (hadvance : Recurs schedule (· = .advance w))
    (hphase : C.phase = .replying packet future text) :
  LeadsTo states (Stands w c C)
    (fun s => (s.connections c).answers = C.answers ++ [⟨packet, future, text⟩])
  := by
  have hopen : C.phase.isClosed = false := by
    rw [hphase]
    rfl
  apply leadsTo_of_recurs hadvance
  intro n h
  have hstep := h.step (hassigned n) mod (schedule n)
  rw [← hstates n] at hstep
  rcases turn_replying hphase (schedule n) with ⟨hturn, hne⟩ | hanswers
  · left
    exact ⟨Stands.of_eq hopen hstep hturn, hne⟩
  · right
    rw [hstep.1]
    apply hanswers

end

/-- In every schedule in which the game thread goes on to drain the queue and to process items,
every command that has been enqueued is dispatched in the end, however the other threads
interleave. If the workers go on as well, every command packet that a handler has received is
answered in the end: the answer is the next on its connection, and its text is the response to the
command of this very packet, or says that it has timed out. -/
theorem liveness (mod : Mod σ) (m : ModState σ) (schedule : ℕ → Action ι σ)
    (hdrain : Recurs schedule (· = .drain)) (hprocess : Recurs schedule (· = .process)) :
  let states := Transition.after (System.step mod) { mod := m } schedule
  (∀ item, LeadsTo states (fun s => item ∈ s.exchange.enqueued.map Prod.fst)
    (fun s => item ∈ s.exchange.dispatched.map Prod.fst)) ∧
  ((∀ w, Recurs schedule (· = .enqueue w) ∧ Recurs schedule (· = .ready w) ∧
      Recurs schedule (· = .advance w)) →
    ∀ c packet answers, LeadsTo states
      (fun s => (s.connections c).phase = .enqueuing packet ∧ (s.connections c).answers = answers)
      (fun s => ∃ a, (s.connections c).answers = answers ++ [a] ∧ a.packet = packet ∧
        ∃ item, (item, .packet c packet) ∈ s.exchange.enqueued ∧ item.response = a.future ∧
          (a.text = commandTimedOut ∨ (item, a.text) ∈ s.exchange.dispatched)))
  := by
  intro states
  have hrun : ∀ n, states n = System.run mod m ((List.range n).map schedule) :=
    Transition.after_eq_run _ _ schedule
  have hinv : ∀ n, (states n).Inv mod.password := by
    intro n
    rw [hrun n]
    apply inv_run
  have hassigned : ∀ n, (states n).Assigned := by
    intro n
    rw [hrun n]
    apply assigned_run
  have hstates : ∀ n, states (n + 1) = (states n).step mod (schedule n) := fun _ => rfl
  constructor
  · intro item n hmem
    obtain ⟨i, hi, hget⟩ := List.mem_iff_getElem.mp hmem
    apply leadsTo_dispatched hinv hstates hdrain hprocess i item n
    rw [Enqueued, ← hget]
    apply List.getElem?_eq_getElem
  · intro hworkers c packet answers n h
    obtain ⟨hphase, hanswers⟩ := h
    obtain ⟨w, hw⟩ := (hassigned n).handled c (by rw [hphase]; rfl)
    obtain ⟨henqueue, hready, hadvance⟩ := hworkers w
    obtain ⟨n₁, hn₁, future, hwaiting⟩ :=
      leadsTo_waiting hassigned hstates henqueue hphase n ⟨hw, rfl⟩
    obtain ⟨n₂, hn₂, text, hreplying⟩ :=
      leadsTo_replying hinv hassigned hstates hdrain hprocess hready rfl n₁ hwaiting
    obtain ⟨n₃, hn₃, hanswered⟩ := leadsTo_answered hassigned hstates hadvance rfl n₂ hreplying
    refine ⟨n₃, by omega, ⟨packet, future, text⟩, ?_, rfl, ?_⟩
    · rw [hanswered, ← hanswers]
    · have hmem : (⟨packet, future, text⟩ : Answer) ∈ ((states n₃).connections c).answers := by
        rw [hanswered]
        apply List.mem_append_right _ (List.mem_singleton_self _)
      obtain ⟨item, he, hfuture, -, htext⟩ := (hinv n₃).answer hmem
      exact ⟨item, he, hfuture, htext⟩

/-- The bytes of a client that authenticates and sends a command. -/
def oneCommandStream : Bytes :=
  encodePacket 1 serverdataAuth (ascii "secret")
    ++ encodePacket 7 serverdataExeccommand (ascii "GetWeather")

/-- Everyone takes turns. -/
def roundRobin (n : ℕ) : Action Unit Unit :=
  match n % 6 with
  | 0 => .accept () { incoming := oneCommandStream }
  | 1 => .advance ()
  | 2 => .enqueue ()
  | 3 => .drain
  | 4 => .process
  | _ => .ready ()

theorem recurs_roundRobin {a : Action Unit Unit} {i : ℕ} (hi : i < 6)
    (ha : ∀ n, n % 6 = i → roundRobin n = a) :
  Recurs roundRobin (· = a)
  := by
  intro n
  use 6 * n + i, by omega
  apply ha
  omega

theorem liveness_roundRobin :
  ∃ n a, ((Transition.after (System.step (silentMod (ascii "secret"))) { mod := { game := () } }
      roundRobin n).connections 0).answers = [a] ∧ a.packet.payload = ascii "GetWeather"
  := by
  have hreceived : ((Transition.after (System.step (silentMod (ascii "secret")))
      { mod := { game := () } } roundRobin 8).connections 0).received
        = some ⟨7, serverdataExeccommand, ascii "GetWeather"⟩ := by
    decide +kernel
  have hanswers : ((Transition.after (System.step (silentMod (ascii "secret")))
      { mod := { game := () } } roundRobin 8).connections 0).answers.length = 0 := by
    decide +kernel
  have hworkers : ∀ w, Recurs roundRobin (· = .enqueue w) ∧ Recurs roundRobin (· = .ready w) ∧
      Recurs roundRobin (· = .advance w) := by
    intro w
    exact ⟨recurs_roundRobin (i := 2) (by decide) fun n hn => by simp [roundRobin, hn],
      recurs_roundRobin (i := 5) (by decide) fun n hn => by simp [roundRobin, hn],
      recurs_roundRobin (i := 1) (by decide) fun n hn => by simp [roundRobin, hn]⟩
  obtain ⟨n, -, a, hsent, hpacket, -⟩ := (liveness (silentMod (ascii "secret")) { game := () }
    roundRobin
    (recurs_roundRobin (i := 3) (by decide) fun n hn => by simp [roundRobin, hn])
    (recurs_roundRobin (i := 4) (by decide) fun n hn => by simp [roundRobin, hn])).2 hworkers
      0 _ _ 8 ⟨Connection.phase_of_received hreceived, List.eq_nil_of_length_eq_zero hanswers⟩
  use n, a, hsent
  rw [hpacket]

end System

end OpenScumRcon
