import OpenScumRcon.Guarantees
import OpenScumRcon.ServerRefinement

/-!
# Runs of the process

Every run of the process is covered by a run of the system. So what the system never does, the
process never does, whichever call its threads are in. On the wire the process may be ahead of the
system, but only by a part of what the system sends in its next step.
-/

namespace OpenScumRcon

open Protocol

variable {σ : Type}

namespace Process

variable {password : Bytes} {p : Process σ} {s : System Unit σ}

theorem wire_advance (password : Bytes) (C : Connection) :
  C.sock.wire <+: (C.advance password).sock.wire
  := by
  by_cases hworks : C.phase.Works
  · have hwire := Handler.wire_finish password (.ofPhase C.phase, C.sock)
    rw [Handler.finish_ofPhase password hworks] at hwire
    apply hwire
  · have hsame : C.advance password = C := by
      rw [Connection.advance]
      cases hphase : C.phase with
      | enqueuing packet => rfl
      | waiting packet future => rfl
      | closed => rfl
      | _ =>
          rw [hphase] at hworks
          cases hworks trivial
    rw [hsame]

/-- What the process has sent to a client is between what the system has sent and what it has sent
after the block in which the handler is. -/
theorem Covers.wire (h : p.Covers password s) (c : ℕ) :
  (s.connections c).sock.wire <+: (p.socks c).wire ∧
    (p.socks c).wire <+: ((s.connections c).advance password).sock.wire
  := by
  have hsame : (s.connections c).sock = p.socks c →
      (s.connections c).sock.wire <+: (p.socks c).wire ∧
        (p.socks c).wire <+: ((s.connections c).advance password).sock.wire := by
    intro hsock
    rw [← hsock]
    exact ⟨List.prefix_rfl, wire_advance password _⟩
  cases h.attends with
  | free hworker hfuture hworkers =>
      apply hsame
      apply h.socks
      rw [hworkers]
      simp
  | busy handler hworker hlast hworkers hfollows =>
      by_cases hc : c = p.last
      · subst hc
        cases hfollows with
        | working hphase hproper hfuture hfinish hwire =>
            use hwire
            have hrest := Handler.wire_finish password (handler, p.socks p.last)
            rw [hfinish] at hrest
            apply hrest
        | enqueuing packet hphase hfuture hx => apply hsame (Prod.mk.inj hx).2.symm
        | waiting packet awaited hphase hfuture hx => apply hsame (Prod.mk.inj hx).2.symm
      · apply hsame
        apply h.socks
        rw [hworkers]
        intro heq
        apply hc (Option.some.inj heq).symm

/-- Once the handler of the system has made its step, it is not behind any more. -/
theorem Covers.ahead {mod : Mod σ} (h : p.Covers mod.password s) :
  (s.step mod (.advance ())).exchange = p.exchange ∧
    ∀ c, ((s.step mod (.advance ())).connections c).stream = p.streams c ∧
      (p.socks c).wire <+: ((s.step mod (.advance ())).connections c).sock.wire
  := by
  cases h.attends with
  | free hworker hfuture hworkers =>
      have hsame : s.step mod (.advance ()) = s := by
        rw [System.step, System.handle, hworkers]
      rw [hsame]
      use h.exchange
      intro c
      use h.streams c
      rw [h.socks c (by rw [hworkers]; simp)]
  | busy handler hworker hlast hworkers hfollows =>
      have hstep : s.step mod (.advance ()) = { s with
          connections := Function.update s.connections p.last
            ((s.connections p.last).advance mod.password)
          workers := if ((s.connections p.last).advance mod.password).phase.isClosed
            then Function.update s.workers () none else s.workers } := by
        rw [System.step, System.handle, hworkers]
      rw [hstep]
      use h.exchange
      intro c
      dsimp only
      rcases eq_or_ne c p.last with rfl | hne
      · rw [Function.update_self, Connection.stream_advance]
        exact ⟨h.streams _, (h.wire _).2⟩
      · rw [Function.update_of_ne hne]
        use h.streams c
        rw [h.socks c]
        rw [hworkers]
        intro heq
        apply hne (Option.some.inj heq).symm

/-- Every run of the process is covered by some run of the system. -/
theorem exists_covers (mod : Mod σ) (m : ModState σ) (actions : List (Action σ)) :
  ∃ matched : List (OpenScumRcon.Action Unit σ),
    (∀ b ∈ matched, ∃ a ∈ actions, Matches a b) ∧
    (run mod m actions).Covers mod.password (System.run mod m matched)
  := by
  have hstep : ∀ (p : Process σ) (s : System Unit σ) (a : Action σ), p.Covers mod.password s →
      ∃ matched : List (OpenScumRcon.Action Unit σ), (∀ b ∈ matched, Matches a b) ∧
        (p.step mod a).Covers mod.password (Transition.run (System.step mod) s matched) :=
    fun _ _ a h => h.step a
  apply Transition.exists_run_of_matched hstep (covers_init mod.password m)

/-- Every run of the process is covered by a run of the system. Both have enqueued, dispatched and
answered the same, the mod and the game are in the same state, and the same clients have been
accepted. To each client the process has sent no less than the system, and no more than the system
after the block in which its handler is. Nothing is added to the actions of the other threads. -/
theorem refines (mod : Mod σ) (m : ModState σ) (actions : List (Action σ)) :
  let p := run mod m actions
  ∃ matched : List (OpenScumRcon.Action Unit σ),
    (∀ b ∈ matched, ∃ a ∈ actions, Matches a b) ∧
    let s := System.run mod m matched
    s.exchange = p.exchange ∧ s.mod = p.mod ∧ s.acceptances = p.acceptances ∧
    ∀ c, (s.connections c).stream = p.streams c ∧
      (s.connections c).sock.wire <+: (p.socks c).wire ∧
      (p.socks c).wire <+: ((s.connections c).advance mod.password).sock.wire
  := by
  intro p
  obtain ⟨matched, hmatches, hcovers⟩ := exists_covers mod m actions
  use matched, hmatches
  exact ⟨hcovers.exchange, hcovers.mod, hcovers.acceptances,
    fun c => ⟨hcovers.streams c, hcovers.wire c⟩⟩

/-- What clients can do and what they get, call by call, whenever the owner starts and stops the
server:

if other code enqueues nothing with authority, every dispatched command has been enqueued for a
packet of a connection;

a command is enqueued for a packet of a connection only behind the packet that authenticates the
client, and it is the payload of a command packet;

and what has been sent to a client at any moment, in the middle of a packet or not, is the beginning
of a reply to its first packet and of the packets of answers, which are for its first commands, in
order, each with the response its command has been dispatched with or with the text that it has
timed out. -/
theorem clients (mod : Mod σ) (m : ModState σ) (actions : List (Action σ)) :
  let p := run mod m actions
  ((∀ commandText, .foreign commandText .authenticatedRcon ∉ actions) →
    ∀ d ∈ p.exchange.dispatched, ∃ c packet, (d.1, .packet c packet) ∈ p.exchange.enqueued) ∧
  (∀ item c packet, (item, .packet c packet) ∈ p.exchange.enqueued →
    ∃ auth rest, Authenticates mod.password (p.streams c) auth rest ∧ packet ∈ rest ∧
      packet.type = serverdataExeccommand ∧ packet.payload = item.commandText) ∧
  ∀ c, ∃ (reply : Bytes) (answers : List Answer), IsAuthReply reply ∧
    (p.socks c).wire <+: reply ++ answers.flatMap (fun a =>
      (encodeResponse a.packet.requestId a.text).flatten) ∧
    answers.map (fun a => (a.packet, a.future)) <+: p.exchange.commandsOf c ∧
    ∀ a ∈ answers, ∃ item, (item, .packet c a.packet) ∈ p.exchange.enqueued ∧
      item.response = a.future ∧
      (a.text = commandTimedOut ∨ (item, a.text) ∈ p.exchange.dispatched)
  := by
  intro p
  obtain ⟨matched, hmatches, hcovers⟩ := exists_covers mod m actions
  have hinv : (System.run mod m matched).Inv mod.password := System.inv_run mod m matched
  obtain ⟨hexchange, hahead⟩ := hcovers.ahead
  have hinv' := hinv.step (.advance ())
  refine ⟨?_, ?_, ?_⟩
  · intro hforeign d hd
    have hactions : ∀ b ∈ matched, b.Unprivileged := by
      intro b hb
      obtain ⟨a, ha, hmatch⟩ := hmatches b hb
      cases b with
      | foreign commandText authority =>
          rintro rfl
          rw [Matches] at hmatch
          rw [hmatch] at ha
          apply hforeign commandText ha
      | _ => trivial
    have horder : (System.run mod m matched).exchange.enqueued.map Prod.fst
        = (System.run mod m matched).exchange.dispatched.map Prod.fst
          ++ (System.run mod m matched).exchange.batch
          ++ (System.run mod m matched).exchange.queue.pending := hinv.exchange.accounted.order
    have hmem : d.1 ∈ (System.run mod m matched).exchange.enqueued.map Prod.fst := by
      rw [horder, List.append_assoc, hcovers.exchange]
      apply List.mem_append_left _ (List.mem_map_of_mem hd)
    obtain ⟨⟨item, origin⟩, he, rfl⟩ := List.mem_map.mp hmem
    cases origin with
    | other => exact absurd rfl (System.origin_run mod m hactions _ he)
    | packet c packet =>
        use c, packet
        rw [← hcovers.exchange]
        apply he
  · intro item c packet he
    rw [← hcovers.exchange] at he
    rw [← hcovers.streams c]
    apply hinv.authenticates he
  · intro c
    obtain ⟨reply, hreply, hwire⟩ := (hinv'.connection c).isPrefix_wire
    have hanswers := (hinv'.connection c).isPrefix_answers
    rw [hexchange] at hanswers
    refine ⟨reply, _, hreply, (hahead c).2.trans hwire, hanswers, ?_⟩
    intro a ha
    obtain ⟨item, he, hfuture, -, htext⟩ := hinv'.answer ha
    rw [hexchange] at he htext
    exact ⟨item, he, hfuture, htext⟩

/-- A client that authenticates and sends a command. -/
def oneCommand : Socket where
  incoming := encodePacket 1 serverdataAuth (ascii "secret")
    ++ encodePacket 7 serverdataExeccommand (ascii "GetWeather")
  fragments := fun _ => 99
  acceptances := fun _ => some 99

/-- The server is started and listens, the client authenticates and its command is enqueued, the game
thread dispatches it, and the client is sent the response. -/
example :
  let p := run (System.silentMod (ascii "secret")) { game := () }
    ([.start, .owner, .owner] ++ List.replicate 15 (.worker true oneCommand) ++ [.drain, .process]
      ++ List.replicate 2 (.worker true oneCommand))
  (packetsOf (p.socks 0).wire).map Packet.requestId = [1, 7]
  := by decide +kernel

end Process

end OpenScumRcon
