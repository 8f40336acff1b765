import Mathlib.Data.Fintype.Card
import Mathlib.Data.List.Nodup
import OpenScumRcon.Guarantees
import OpenScumRcon.Workers

/-!
# The backlog

The queue has no limit of its own. Still it holds a bounded number of commands: each command that
has not been dispatched is one a worker waits for at the moment, or one that has timed out.
-/

namespace OpenScumRcon

open Protocol

variable {ι σ : Type}

/-! ### The commands of a connection -/

namespace Connection

variable {C : Connection} {password : Bytes} {commands : List (Packet × ℕ)} {packet : Packet}
  {future : ℕ}

/-- The command the handler is busy with, if it waits for a response or has one to send. -/
def current (C : Connection) : Option ℕ :=
  match C.phase with
  | .waiting _ future => some future
  | .replying _ future _ => some future
  | _ => none

/-- An enqueued command has been answered, or the handler is busy with it. -/
theorem Inv.answered_or_current (h : C.Inv password commands) (hmem : (packet, future) ∈ commands) :
  (∃ a ∈ C.answers, a.packet = packet ∧ a.future = future) ∨
    C.phase = .waiting packet future ∨ ∃ text, C.phase = .replying packet future text
  := by
  have hanswers : ∀ {unanswered : List (Packet × ℕ)},
      commands = C.answers.map (fun a => (a.packet, a.future)) ++ unanswered →
      (∃ a ∈ C.answers, a.packet = packet ∧ a.future = future) ∨ (packet, future) ∈ unanswered := by
    rintro unanswered rfl
    rcases List.mem_append.mp hmem with hmem | hmem
    · left
      obtain ⟨a, ha, heq⟩ := List.mem_map.mp hmem
      obtain ⟨hpacket, hfuture⟩ := Prod.mk.inj heq
      use a, ha
    · right
      apply hmem
  rw [Inv] at h
  split at h
  · rw [h.2.2.2] at hmem
    cases hmem
  · obtain ⟨auth, read, hsession, -⟩ := h
    rcases hanswers hsession.answers_eq with hanswered | hnone
    · left
      apply hanswered
    · cases hnone
  · obtain ⟨auth, read, hsession, -⟩ := h
    rcases hanswers hsession.answers_eq with hanswered | hnone
    · left
      apply hanswered
    · cases hnone
  · next packet' future' hphase =>
      obtain ⟨auth, read, hsession, -⟩ := h
      rcases hanswers hsession.answers_eq with hanswered | hcurrent
      · left
        apply hanswered
      · right
        left
        obtain ⟨rfl, rfl⟩ := Prod.mk.inj (List.mem_singleton.mp hcurrent)
        apply hphase
  · next packet' future' text hphase =>
      obtain ⟨auth, read, hsession, -⟩ := h
      rcases hanswers hsession.answers_eq with hanswered | hcurrent
      · left
        apply hanswered
      · right
        right
        obtain ⟨rfl, rfl⟩ := Prod.mk.inj (List.mem_singleton.mp hcurrent)
        use text
  · rcases h with ⟨hcommands, -⟩ | ⟨auth, read, rest, hsession, -⟩
    · rw [hcommands] at hmem
      cases hmem
    · rcases hanswers hsession.answers_eq with hanswered | hnone
      · left
        apply hanswered
      · cases hnone

/-- The answers that say that a command has timed out. -/
def timeouts (C : Connection) : List Answer :=
  C.answers.filter fun a => a.text = commandTimedOut

end Connection

/-! ### The commands that have not been dispatched -/

namespace System

/-- The commands that wait to be dispatched. -/
def backlog (s : System ι σ) : List PendingCommand :=
  s.exchange.batch ++ s.exchange.queue.pending

/-- The command the worker is busy with. -/
def current (s : System ι σ) (w : ι) : Option ℕ :=
  match s.workers w with
  | none => none
  | some c => (s.connections c).current

variable {password : Bytes} {s : System ι σ}

/-- No response has been given for a command that waits to be dispatched. -/
theorem Inv.eq_timedOut (h : s.Inv password) {item : PendingCommand} (hitem : item ∈ s.backlog)
    {text : Bytes} (htext : s.exchange.Answered item.response text) :
  text = commandTimedOut
  := by
  rcases htext with htimeout | ⟨d, hd, hresponse, -⟩
  · apply htimeout
  · have hset := h.exchange.set d hd
    rw [hresponse, h.exchange.unset item hitem] at hset
    cases hset

/-- A command of a connection that waits to be dispatched is the one its handler waits for, or has
been answered with the text that it has timed out, or is about to be. -/
theorem Inv.backlog_cases (h : s.Inv password) (hassigned : s.Assigned) {item : PendingCommand}
    (hitem : item ∈ s.backlog) {c : ℕ} {packet : Packet}
    (he : (item, .packet c packet) ∈ s.exchange.enqueued) :
  (∃ w, s.workers w = some c ∧ ((s.connections c).phase = .waiting packet item.response ∨
    (s.connections c).phase = .replying packet item.response commandTimedOut)) ∨
  ∃ a ∈ (s.connections c).timeouts, a.packet = packet ∧ a.future = item.response
  := by
  have hmem : (packet, item.response) ∈ s.exchange.commandsOf c :=
    Exchange.mem_commandsOf_iff.mpr ⟨_, he, rfl, rfl⟩
  rcases (h.connection c).answered_or_current hmem
    with ⟨a, ha, hpacket, hfuture⟩ | hwaiting | ⟨text, hreplying⟩
  · right
    have htext := (h.answered c).answers a ha
    rw [hfuture] at htext
    use a, List.mem_filter.mpr ⟨ha, by simpa using h.eq_timedOut hitem htext⟩
  · left
    obtain ⟨w, hw⟩ := hassigned.handled c (by rw [hwaiting]; rfl)
    use w, hw, .inl hwaiting
  · left
    obtain ⟨w, hw⟩ := hassigned.handled c (by rw [hreplying]; rfl)
    have htext := (h.answered c).replying packet item.response text hreplying
    rw [h.eq_timedOut hitem htext] at hreplying
    use w, hw, .inr hreplying

/-- The promises of the commands that wait are distinct. -/
theorem Inv.nodup_backlog (h : s.Inv password) :
  (s.backlog.map PendingCommand.response).Nodup
  := by
  have hnodup : ((s.exchange.enqueued.map Prod.fst).map PendingCommand.response).Nodup :=
    h.exchange.accounted.nodup
  have horder : s.exchange.enqueued.map Prod.fst
      = s.exchange.dispatched.map Prod.fst ++ s.exchange.batch ++ s.exchange.queue.pending :=
    h.exchange.accounted.order
  rw [horder, List.append_assoc, List.map_append] at hnodup
  apply List.Nodup.of_append_right hnodup

/-- The answers of all connections that say that their command has timed out. -/
def timeouts (s : System ι σ) : List Answer :=
  (List.range s.acceptances).flatMap fun c => (s.connections c).timeouts

/-- The futures of the commands the workers are busy with, and of those that have timed out. -/
noncomputable def excused [Fintype ι] (s : System ι σ) : List ℕ :=
  (Finset.univ : Finset ι).toList.filterMap s.current ++ s.timeouts.map Answer.future

theorem length_excused_le [Fintype ι] (s : System ι σ) :
  s.excused.length ≤ Fintype.card ι + s.timeouts.length
  := by
  rw [excused, List.length_append, List.length_map]
  apply Nat.add_le_add_right
  apply Nat.le_trans (List.length_filterMap_le _ _)
  rw [Finset.length_toList, Finset.card_univ]

/-- The commands that wait are bounded in every run in which only packets are enqueued with
authority: each of them is the command of a packet, and either a worker is busy with it, or it has
been answered with the text that it has timed out. So there are at most as many as there are
workers and answers of this kind. -/
theorem bounded_backlog [DecidableEq ι] [Fintype ι] (mod : Mod σ) (m : ModState σ)
    (actions : List (Action ι σ)) (hactions : ∀ a ∈ actions, a.Unprivileged) :
  let s := run mod m actions
  (∀ item ∈ s.backlog, ∃ c packet, (item, .packet c packet) ∈ s.exchange.enqueued ∧
    ((∃ w, s.workers w = some c ∧ ((s.connections c).phase = .waiting packet item.response ∨
        (s.connections c).phase = .replying packet item.response commandTimedOut)) ∨
      ∃ a ∈ (s.connections c).timeouts, a.packet = packet ∧ a.future = item.response)) ∧
  s.backlog.length ≤ Fintype.card ι + s.timeouts.length
  := by
  intro s
  have hinv : s.Inv mod.password := inv_run mod m actions
  have hassigned : s.Assigned := assigned_run mod m actions
  have horder : s.exchange.enqueued.map Prod.fst
      = s.exchange.dispatched.map Prod.fst ++ s.exchange.batch ++ s.exchange.queue.pending :=
    hinv.exchange.accounted.order
  have hcases : ∀ item ∈ s.backlog, ∃ c packet, (item, .packet c packet) ∈ s.exchange.enqueued ∧
      ((∃ w, s.workers w = some c ∧ ((s.connections c).phase = .waiting packet item.response ∨
          (s.connections c).phase = .replying packet item.response commandTimedOut)) ∨
        ∃ a ∈ (s.connections c).timeouts, a.packet = packet ∧ a.future = item.response) := by
    intro item hitem
    have hmem : item ∈ s.exchange.enqueued.map Prod.fst := by
      rw [horder, List.append_assoc]
      apply List.mem_append_right _ hitem
    obtain ⟨⟨item, origin⟩, he, rfl⟩ := List.mem_map.mp hmem
    cases origin with
    | other => exact absurd rfl (origin_run mod m hactions _ he)
    | packet c packet => exact ⟨c, packet, he, hinv.backlog_cases hassigned hitem he⟩
  use hcases
  have hsub : s.backlog.map PendingCommand.response ⊆ s.excused := by
    intro future hfuture
    obtain ⟨item, hitem, rfl⟩ := List.mem_map.mp hfuture
    obtain ⟨c, packet, he, ⟨w, hw, hphase⟩ | ⟨a, ha, -, ha'⟩⟩ := hcases item hitem
    · apply List.mem_append_left
      apply List.mem_filterMap.mpr
      use w, Finset.mem_toList.mpr (Finset.mem_univ w)
      rw [current, hw]
      dsimp only
      rcases hphase with hphase | hphase
      · rw [Connection.current, hphase]
      · rw [Connection.current, hphase]
    · apply List.mem_append_right
      have hmem : (packet, item.response) ∈ s.exchange.commandsOf c :=
        Exchange.mem_commandsOf_iff.mpr ⟨_, he, rfl, rfl⟩
      have hlt : c < s.acceptances := by
        by_contra hle
        rw [hinv.commandsOf_unaccepted (Nat.not_lt.mp hle)] at hmem
        cases hmem
      apply List.mem_map.mpr
      use a, List.mem_flatMap.mpr ⟨c, List.mem_range.mpr hlt, ha⟩
  have hlength := (hinv.nodup_backlog.subperm hsub).length_le
  rw [List.length_map] at hlength
  apply Nat.le_trans hlength s.length_excused_le

/-- A client sends two commands, and nobody drains the queue. The first one times out. -/
def neverDrained : List (Action Unit Unit) :=
  [.accept () { incoming := encodePacket 1 serverdataAuth (ascii "secret")
      ++ encodePacket 7 serverdataExeccommand (ascii "GetWeather")
      ++ encodePacket 8 serverdataExeccommand (ascii "GetTimeOfDay") },
    .advance (), .advance (), .enqueue (), .timeout (), .advance (), .advance (), .enqueue ()]

/-- The bound is reached. -/
theorem bounded_backlog_neverDrained :
  let s := run (silentMod (ascii "secret")) { game := () } neverDrained
  s.backlog.map PendingCommand.commandText = [ascii "GetWeather", ascii "GetTimeOfDay"] ∧
  s.backlog.length ≤ 1 + 1
  := by
  intro s
  have htexts : s.backlog.map PendingCommand.commandText
      = [ascii "GetWeather", ascii "GetTimeOfDay"] := by
    decide +kernel
  have htimeouts : s.timeouts.length = 1 := by
    decide +kernel
  obtain ⟨-, hle⟩ := bounded_backlog (silentMod (ascii "secret")) { game := () } neverDrained
    (by simp [neverDrained, Action.Unprivileged])
  use htexts
  rw [Fintype.card_unit] at hle
  apply Nat.le_trans hle
  apply Nat.add_le_add_left
  apply Nat.le_of_eq htimeouts

end System

end OpenScumRcon
