import OpenScumRcon.ServerThreads

/-!
# Stopping the server

The thread of a server is joined by `stop`, which does nothing when the flag is reset. A
worker that returns by itself resets the flag, and then the thread is never joined: starting
or destroying the server again ends the process. As long as a worker resets the flag only
when `stop` has taken it, every thread is joined.

`stop` closes the listening socket, so the worker is never left in `accept`. It leaves the
socket of a client alone, so a worker that handles a connection is left to the client.
-/

namespace OpenScumRcon

open Protocol

namespace RconServer

variable {s : RconServer}

/-! ### The thread is joined -/

/-- When a worker is about to reset the flag, `stop` has taken it. -/
def ReturnsInStop (s : RconServer) : Action → Prop
  | .worker _ => s.worker = .finish → s.running = false
  | _ => True

instance (s : RconServer) (a : Action) : Decidable (s.ReturnsInStop a) :=
  match a with
  | .worker _ => inferInstanceAs (Decidable (_ → _))
  | .start _ => isTrue trivial
  | .stop => isTrue trivial
  | .destroy => isTrue trivial
  | .owner => isTrue trivial

/-- The member has a thread only while the flag is set, or in `stop`. -/
structure Joined (s : RconServer) : Prop where
  terminated : s.terminated = false
  joinable : s.joinable = true → s.owner = .idle ∧ s.running = true ∨ s.owner.Stops
  assigning : s.owner = .assigning → s.running = true

/-- A step of the worker, when the worker does not return by itself. -/
theorem Joined.run (h : s.Joined) {outcome : Outcome} (hreturns : s.ReturnsInStop (.worker outcome)) :
  (s.run outcome).Joined
  := by
  have hran := ran s outcome
  generalize s.run outcome = s' at hran
  cases hran with
  | moved hmoved => exact ⟨h.terminated, h.joinable, h.assigning⟩
  | published hworker => exact ⟨h.terminated, h.joinable, h.assigning⟩
  | finished hworker =>
      have hrunning := hreturns hworker
      rw [← hrunning]
      exact ⟨h.terminated, h.joinable, h.assigning⟩
  | ended hworker => apply h

/-- A call of `stop` keeps the thread to be joined. -/
theorem Joined.stop (h : s.Joined) (howner : s.owner = .idle) (last : Bool) :
  (s.stop last).Joined
  := by
  rw [RconServer.stop]
  split
  · constructor
    · apply h.terminated
    · intro _
      right
      trivial
    · rintro ⟨⟩
  · next hrunning =>
      constructor
      · apply h.terminated
      · intro hjoinable
        rcases h.joinable hjoinable with ⟨-, hset⟩ | hstops
        · cases hrunning hset
        · rw [howner] at hstops
          cases hstops
      · intro hassigning
        cases last <;> cases hassigning

theorem Joined.not_joinable (h : s.Joined) (hidle : s.owner ≠ .idle) (hstops : ¬ s.owner.Stops) :
  s.joinable = false
  := by
  rw [← Bool.not_eq_true]
  intro hjoinable
  rcases h.joinable hjoinable with ⟨howner, -⟩ | hstops'
  · apply hidle howner
  · apply hstops hstops'

/-- The owner's steps through `stop`. -/
theorem Joined.proceed (h : s.Joined) (hinv : s.Inv) :
  s.proceed.Joined
  := by
  rw [RconServer.proceed]
  cases howner : s.owner with
  | idle => apply h
  | gone => apply h
  | starting =>
      have hjoinable := h.not_joinable (by simp [howner]) (by simp [howner, Owner.Stops])
      constructor
      · apply h.terminated
      · dsimp only
        rw [hjoinable]
        rintro ⟨⟩
      · intro _
        apply (hinv.starting howner).1
  | assigning =>
      have hjoinable := h.not_joinable (by simp [howner]) (by simp [howner, Owner.Stops])
      dsimp only
      rw [hjoinable, if_neg Bool.false_ne_true]
      constructor
      · apply h.terminated
      · intro _
        left
        use rfl, h.assigning howner
      · rintro ⟨⟩
  | destroying =>
      have hjoinable := h.not_joinable (by simp [howner]) (by simp [howner, Owner.Stops])
      dsimp only
      rw [hjoinable, if_neg Bool.false_ne_true]
      constructor
      · apply h.terminated
      · dsimp only
        rintro ⟨⟩
      · rintro ⟨⟩
  | stopping last =>
      dsimp only
      split
      · exact ⟨h.terminated, fun _ => .inr trivial, by rintro ⟨⟩⟩
      · exact ⟨h.terminated, fun _ => .inr trivial, by rintro ⟨⟩⟩
  | closing last l => exact ⟨h.terminated, fun _ => .inr trivial, by rintro ⟨⟩⟩
  | joining last =>
      have hstops : s.owner.Stops := by
        rw [howner]
        trivial
      dsimp only
      rw [(hinv.stops hstops).2, if_pos rfl]
      split
      · constructor
        · apply h.terminated
        · rintro ⟨⟩
        · intro hassigning
          cases last <;> cases hassigning
      · apply h

/-- Every step of a run in which the worker returns inside `stop`. -/
theorem Joined.step (h : s.Joined) (hinv : s.Inv) {a : Action} (hreturns : s.ReturnsInStop a) :
  (s.step a).Joined
  := by
  have hstep := stepped s a
  generalize s.step a = s' at hstep
  cases hstep with
  | same => apply h
  | start hprocess howner hrunning =>
      constructor
      · apply h.terminated
      · intro hjoinable
        rcases h.joinable hjoinable with ⟨-, hset⟩ | hstops
        · rw [hrunning] at hset
          cases hset
        · rw [howner] at hstops
          cases hstops
      · rintro ⟨⟩
  | stop hprocess howner => apply h.stop howner
  | proceed hprocess => apply h.proceed hinv
  | run => apply h.run hreturns

theorem reached_append (actions more : List Action) :
  reached (actions ++ more) = Transition.run step (reached actions) more
  := Transition.run_append _ _ _

theorem step_of_running (hprocess : s.terminated = false) (a : Action) :
  s.step a = s.act a
  := by
  rw [step, hprocess, if_neg Bool.false_ne_true]

/-- `stop` finds the listening socket that has been published. -/
theorem step_of_stopping (hprocess : s.terminated = false) {last : Bool} {l : ℕ}
    (howner : s.owner = .stopping last) (hl : s.listenSocket = some l) :
  s.step .owner = { s with owner := .closing last l }
  := by
  rw [step_of_running hprocess, act, proceed, howner]
  dsimp only
  rw [hl]

/-- `stop` closes the listening socket and comes to joining the thread. -/
theorem step_of_closing (hprocess : s.terminated = false) {last : Bool} {l : ℕ}
    (howner : s.owner = .closing last l) :
  s.step .owner = { s with calls := s.calls ++ [(.owner, .closed l)], owner := .joining last }
  := by
  rw [step_of_running hprocess, act, proceed, howner]

/-- Destroying the members of a server ends the process when there is a thread that has not
been joined. -/
theorem terminated_of_destroying (hprocess : s.terminated = false)
    (howner : s.owner = .destroying) (hjoinable : s.joinable = true) :
  (s.step .owner).terminated = true
  := by
  rw [step_of_running hprocess, act, proceed, howner]
  dsimp only
  rw [if_pos hjoinable]

/-- The destructor leaves the thread alone when the flag is reset. -/
theorem terminated_of_destroy (hprocess : s.terminated = false) (howner : s.owner = .idle)
    (hrunning : s.running = false) (hjoinable : s.joinable = true) :
  (Transition.run step s [.destroy, .owner]).terminated = true
  := by
  have hdestroy : s.step .destroy = { s with owner := .destroying } := by
    rw [step_of_running hprocess, act, howner]
    dsimp only
    rw [stop, if_neg (Bool.not_eq_true _ ▸ hrunning)]
    rfl
  rw [Transition.run_cons, hdestroy, Transition.run_cons]
  apply terminated_of_destroying
  · apply hprocess
  · rfl
  · apply hjoinable

/-- Once a worker has reset the flag by itself, the owner ends the process by destroying the
server. -/
theorem exists_terminated (hprocess : s.terminated = false) (hrunning : s.running = false)
    (howner : s.owner = .idle ∧ s.joinable = true ∨ s.owner = .assigning) :
  ∃ more, (Transition.run step s more).terminated = true
  := by
  rcases howner with ⟨hidle, hjoinable⟩ | hassigning
  · use [.destroy, .owner]
    apply terminated_of_destroy hprocess hidle hrunning hjoinable
  · cases hjoinable : s.joinable with
    | true =>
        use [.owner]
        rw [Transition.run_cons, step_of_running hprocess, act, proceed, hassigning]
        dsimp only
        rw [if_pos hjoinable]
        rfl
    | false =>
        use [.owner, .destroy, .owner]
        have hassign : s.step .owner = { s with joinable := true, owner := .idle } := by
          rw [step_of_running hprocess, act, proceed, hassigning]
          dsimp only
          rw [if_neg (Bool.not_eq_true _ ▸ hjoinable)]
        rw [Transition.run_cons, hassign]
        apply terminated_of_destroy
        · apply hprocess
        · rfl
        · apply hrunning
        · rfl

/-- A worker that resets the flag while it is set finds the owner outside `stop`. -/
theorem Inv.owner_of_finish (h : s.Inv) (hworker : s.worker = .finish)
    (hrunning : s.running = true) :
  s.owner = .idle ∧ s.joinable = true ∨ s.owner = .assigning
  := by
  cases howner : s.owner with
  | idle =>
      left
      use rfl, h.idle howner hrunning
  | assigning =>
      right
      rfl
  | starting =>
      have hended := (h.starting howner).2
      rw [hworker] at hended
      cases hended
  | destroying =>
      rw [h.destroyed (.inl howner)] at hrunning
      cases hrunning
  | gone =>
      rw [h.destroyed (.inr howner)] at hrunning
      cases hrunning
  | _ =>
      have hreset := (h.stops (by rw [howner]; trivial)).1
      rw [hrunning] at hreset
      cases hreset

/-- The process goes on in every run in which each worker resets the flag only when `stop` has
taken it: no thread that has not been joined is overwritten or destroyed. A worker that
resets the flag by itself leaves a thread that is never joined, and the owner ends the
process by destroying the server. -/
theorem thread_joined (actions : List Action) :
  (Transition.Along step ReturnsInStop {} actions → (reached actions).terminated = false) ∧
  (∀ a, ¬ (reached actions).ReturnsInStop a →
    ∃ more, (reached (actions ++ a :: more)).terminated = true)
  := by
  constructor
  · intro hactions
    have hrun : (reached actions).Inv ∧ (reached actions).Joined := by
      apply Transition.run_invariant_of_along (P := fun s => s.Inv ∧ s.Joined) _ _ hactions
      · rintro s a hreturns ⟨hinv, hjoined⟩
        exact ⟨hinv.step a, hjoined.step hinv hreturns⟩
      · use inv_init
        constructor <;> simp
    apply hrun.2.terminated
  · intro a hreturns
    have h := inv_reached actions
    cases hprocess : (reached actions).terminated with
    | true =>
        use []
        rw [reached_append, Transition.run_cons, step, if_pos hprocess]
        apply hprocess
    | false =>
        obtain ⟨outcome, rfl⟩ : ∃ outcome, a = .worker outcome := by
          cases a with
          | worker outcome => use outcome
          | _ => cases hreturns trivial
        obtain ⟨hworker, hrunning⟩ := Classical.not_imp.mp hreturns
        rw [Bool.not_eq_false] at hrunning
        have howner := h.owner_of_finish hworker hrunning
        have hstep : (reached actions).step (.worker outcome)
            = { reached actions with running := false, worker := .ended } := by
          rw [step_of_running hprocess, act, run, hworker]
        obtain ⟨more, hmore⟩ := exists_terminated
          (s := { reached actions with running := false, worker := .ended }) hprocess rfl howner
        use more
        rw [reached_append, Transition.run_cons, hstep]
        apply hmore

/-- The server is started, the worker calls `accept`, and the owner destroys the server, which
joins the thread. -/
def orderly : List Action :=
  [.start [], .owner, .owner, .worker { ok := true }, .worker { ok := true }, .worker {},
    .worker { ok := true }, .worker { ok := true }, .worker {}, .worker {}, .worker {}, .destroy,
    .owner, .owner, .worker {}, .worker {}, .worker {}, .owner, .owner]

theorem thread_joined_orderly :
  (reached orderly).owner = .gone ∧ (reached orderly).terminated = false
  := by
  use by decide +kernel
  apply (thread_joined _).1
  decide +kernel

/-- `WSAStartup` fails, the worker returns, and the owner destroys the server. -/
theorem terminated_startup :
  (reached [.start [], .owner, .owner, .worker {}, .worker {}, .destroy, .owner]).terminated
    = true
  := by
  decide +kernel

/-! ### The worker is not left in a call -/

/-- The owner waits in `join`. -/
def Joins (s : RconServer) : Prop :=
  (∃ last, s.owner = .joining last) ∧ s.joinable = true

/-- The worker is in a call of `accept` on a socket that is open. -/
def Accepts (s : RconServer) : Prop :=
  ∃ l, s.worker = .accepting l ∧ .closed l ∉ s.events

/-- The worker is in a call of `recv` or `send` on the socket of a client. -/
def Transfers (s : RconServer) : Prop :=
  ∃ l client handler call, s.worker = .handling l client handler ∧ handler.call = some call

/-- When `stop` closes the listening socket and comes to joining the thread, no connection is
in progress. -/
def StopsBetweenClients (s : RconServer) : Action → Prop
  | .owner => s.owner.closes = true → ¬ s.worker.Handles
  | _ => True

instance (s : RconServer) (a : Action) : Decidable (s.StopsBetweenClients a) :=
  match a with
  | .owner => inferInstanceAs (Decidable (_ → _))
  | .start _ => isTrue trivial
  | .stop => isTrue trivial
  | .destroy => isTrue trivial
  | .worker _ => isTrue trivial

/-- While `stop` joins the thread, no connection is in progress. -/
def Quiet (s : RconServer) : Prop :=
  ∀ last, s.owner = .joining last → ¬ s.worker.Handles

/-- The socket that the worker serves has been closed when `stop` joins the thread. -/
theorem Inv.not_accepts (h : s.Inv) (hjoins : s.Joins) :
  ¬ s.Accepts
  := by
  rintro ⟨l, hworker, hopen⟩
  obtain ⟨⟨last, howner⟩, -⟩ := hjoins
  apply hopen
  apply h.joining last howner
  rw [hworker]
  rfl

theorem Transfers.handles (h : s.Transfers) :
  s.worker.Handles
  := by
  obtain ⟨l, client, handler, call, hworker, hcall⟩ := h
  use l, client, handler, hworker
  rintro rfl
  cases hcall

theorem Inv.listenSocket_of_handles (h : s.Inv) (hhandles : s.worker.Handles) :
  ∃ l, s.listenSocket = some l
  := by
  obtain ⟨l, client, handler, hworker, -⟩ := hhandles
  use l
  apply h.published
  rw [hworker]
  rfl

theorem Quiet.run (h : s.Quiet) (hinv : s.Inv) (outcome : Outcome) :
  (s.run outcome).Quiet
  := by
  have hran := ran s outcome
  generalize s.run outcome = s' at hran
  cases hran with
  | moved hmoved =>
      intro last howner hhandles
      rcases hmoved.handles hhandles with hhandles' | ⟨l, hl, hopen⟩
      · apply h last howner hhandles'
      · apply hopen
        apply hinv.joining last howner l hl
  | published hworker => rintro last howner ⟨l, client, handler, ⟨⟩, -⟩
  | finished hworker => rintro last howner ⟨l, client, handler, ⟨⟩, -⟩
  | ended hworker => apply h

/-- The owner goes on between two clients. -/
theorem Quiet.proceed (h : s.Quiet) (hinv : s.Inv) (hbetween : s.StopsBetweenClients .owner) :
  s.proceed.Quiet
  := by
  rw [RconServer.proceed]
  cases howner : s.owner with
  | stopping last =>
      dsimp only
      split
      · rintro _ ⟨⟩
      · next hlisten =>
          intro _ _ hhandles
          obtain ⟨l, hl⟩ := hinv.listenSocket_of_handles hhandles
          rw [hlisten] at hl
          cases hl
  | closing last l =>
      intro _ _
      apply hbetween
      rw [howner]
      rfl
  | joining last =>
      dsimp only
      split
      · split
        · intro last' howner'
          cases last <;> cases howner'
        · apply h
      · intro last' howner'
        cases last <;> cases howner'
  | idle => apply h
  | gone => apply h
  | starting => rintro _ ⟨⟩
  | assigning =>
      dsimp only
      split
      · rintro _ ⟨⟩
      · rintro _ ⟨⟩
  | destroying =>
      dsimp only
      split
      · rintro _ ⟨⟩
      · rintro _ ⟨⟩

theorem Quiet.stop (last : Bool) :
  (s.stop last).Quiet
  := by
  rw [RconServer.stop]
  split
  · rintro _ ⟨⟩
  · intro last' howner
    cases last <;> cases howner

theorem Quiet.step (h : s.Quiet) (hinv : s.Inv) {a : Action} (hbetween : s.StopsBetweenClients a) :
  (s.step a).Quiet
  := by
  have hstep := stepped s a
  generalize s.step a = s' at hstep
  cases hstep with
  | same => apply h
  | start hprocess howner hrunning => rintro _ ⟨⟩
  | stop hprocess howner => apply Quiet.stop
  | proceed hprocess => apply h.proceed hinv hbetween
  | run => apply h.run hinv

/-- A worker that handles a connection comes to a call on the socket of the client, if it is
not in one. -/
theorem exists_transfers (hprocess : s.terminated = false) (hhandles : s.worker.Handles) :
  ∃ more, (Transition.run step s more).Transfers ∧ (Transition.run step s more).owner = s.owner ∧
    (Transition.run step s more).joinable = s.joinable
  := by
  obtain ⟨l, client, handler, hworker, hclosing⟩ := hhandles
  cases hcall : handler.call with
  | some call =>
      use []
      exact ⟨⟨l, client, handler, call, hworker, hcall⟩, rfl, rfl⟩
  | none =>
      obtain ⟨packet, rfl⟩ : ∃ packet, handler = .awaiting packet := by
        rcases Handler.call_eq_none hcall with hawaiting | hclosing'
        · apply hawaiting
        · cases hclosing hclosing'
      have hrun : s.step (.worker {}) = { s with
          worker := .handling l client
            (.sendNext (encodeResponse packet.requestId commandTimedOut)) } := by
        rw [step_of_running hprocess, act, run, hworker]
        rfl
      use [.worker {}]
      rw [Transition.run_cons, hrun]
      refine ⟨⟨l, client, _, .send, rfl, ?_⟩, rfl, rfl⟩
      apply Handler.call_sendNext (encodeResponse_ne_nil _ _)

/-- While `stop` joins the thread, the worker is never in a call of `accept` on an open socket,
and in every run in which no connection is in progress when `stop` comes to joining, it is
in no call on the socket of a client either. A connection that is in progress then comes
to such a call, and `stop` waits for the client. -/
theorem stop_not_stuck (actions : List Action) :
  ((reached actions).Joins → ¬ (reached actions).Accepts) ∧
  (Transition.Along step StopsBetweenClients {} actions →
    (reached actions).Joins → ¬ (reached actions).Accepts ∧ ¬ (reached actions).Transfers) ∧
  (∀ a, ¬ (reached actions).StopsBetweenClients a →
    ∃ more, (reached (actions ++ a :: more)).Joins ∧ (reached (actions ++ a :: more)).Transfers)
  := by
  and_intros
  · intro hjoins
    apply (inv_reached actions).not_accepts hjoins
  · intro hactions hjoins
    use (inv_reached actions).not_accepts hjoins
    have hrun : (reached actions).Inv ∧ (reached actions).Quiet := by
      apply Transition.run_invariant_of_along (P := fun s => s.Inv ∧ s.Quiet) _ _ hactions
      · rintro s a hbetween ⟨hinv, hquiet⟩
        exact ⟨hinv.step a, hquiet.step hinv hbetween⟩
      · use inv_init
        rintro _ ⟨⟩
    intro htransfers
    obtain ⟨⟨last, howner⟩, -⟩ := hjoins
    apply hrun.2 last howner htransfers.handles
  · intro a hbetween
    have h := inv_reached actions
    obtain rfl : a = .owner := by
      cases a with
      | owner => rfl
      | _ => cases hbetween trivial
    obtain ⟨hcloses, hhandles⟩ := Classical.not_imp.mp hbetween
    rw [not_not] at hhandles
    obtain ⟨last, l, howner⟩ := Owner.closes_iff.mp hcloses
    have hstops : (reached actions).owner.Stops := by
      rw [howner]
      trivial
    have hprocess := h.alive_of_stops hstops
    have hstep := step_of_closing hprocess howner
    obtain ⟨more, htransfers, howner', hjoinable'⟩ :=
      exists_transfers (s := (reached actions).step .owner) (by rw [hstep]; apply hprocess)
        (by rw [hstep]; apply hhandles)
    use more
    rw [reached_append, Transition.run_cons]
    refine ⟨⟨⟨last, ?_⟩, ?_⟩, htransfers⟩
    · rw [howner', hstep]
    · rw [hjoinable', hstep]
      apply (h.stops hstops).2

/-- When `stop` joins the thread, the socket of the call of `accept` has been closed. -/
theorem stop_not_stuck_accepting :
  (reached (orderly.take 14)).Joins ∧ ¬ (reached (orderly.take 14)).Accepts ∧
    ¬ (reached (orderly.take 14)).Transfers
  := by
  have hjoins : (reached (orderly.take 14)).Joins := by
    use ⟨true, by decide +kernel⟩
    decide +kernel
  use hjoins
  apply (stop_not_stuck _).2.1 _ hjoins
  decide +kernel

/-- A client connects and sends nothing, and `stop` joins the thread. -/
def idleClient : List Action :=
  [.start [], .owner, .owner, .worker { ok := true }, .worker { ok := true }, .worker {},
    .worker { ok := true }, .worker { ok := true }, .worker {}, .worker {}, .worker {},
    .worker { ok := true }, .stop, .owner, .owner]

theorem stuck_idleClient :
  (reached idleClient).Joins ∧ (reached idleClient).Transfers
  := by
  refine ⟨⟨⟨false, ?_⟩, ?_⟩, ⟨0, 1, .readAuth .start, .recv, ?_, rfl⟩⟩
  · decide +kernel
  · decide +kernel
  · decide +kernel

end RconServer

end OpenScumRcon
