import OpenScumRcon.Shutdown

/-!
# The sockets of the server

The worker closes every socket it obtains exactly once, and uses none after that. `stop`
closes the listening socket that the worker has published, which the worker closes, too: so
the sockets are tidy as long as no `stop` finds a listening socket. When one does, that
socket has been closed twice by the time the worker has returned.
-/

namespace OpenScumRcon

open Protocol

namespace RconServer

variable {s : RconServer}

/-- No socket is used or closed after it has been closed, and when no worker is left every
socket has been closed exactly once. -/
structure Tidy (s : RconServer) : Prop where
  ordered : Handles.Ordered s.events
  closed_once : s.worker = .ended → ∀ x < s.sockets, s.events.count (.closed x) = 1

/-- A `stop` that has taken the flag finds no listening socket. -/
def FindsNoSocket (s : RconServer) : Action → Prop
  | .owner => s.owner.looks = true → s.listenSocket = none
  | _ => True

instance (s : RconServer) (a : Action) : Decidable (s.FindsNoSocket a) :=
  match a with
  | .owner => inferInstanceAs (Decidable (_ → _))
  | .start _ => isTrue trivial
  | .stop => isTrue trivial
  | .destroy => isTrue trivial
  | .worker _ => isTrue trivial

/-! ### The sockets without `stop` -/

/-- Only the worker has touched a socket. -/
structure WorkerOnly (s : RconServer) : Prop where
  calls : ∀ c ∈ s.calls, c.1 = .worker
  closes : s.owner.closes = false

theorem WorkerOnly.events_eq (h : s.WorkerOnly) :
  s.events = s.workerEvents
  := by
  have hcalls := h.calls
  rw [events, workerEvents]
  generalize s.calls = calls at hcalls
  induction calls with
  | nil => rfl
  | cons c calls ih =>
      rw [List.forall_mem_cons] at hcalls
      rw [List.map_cons, List.filterMap_cons, if_pos hcalls.1, ih hcalls.2]

/-- The worker's own steps stay its own. -/
theorem WorkerOnly.run (h : s.WorkerOnly) (outcome : Outcome) :
  (s.run outcome).WorkerOnly
  := by
  have hran := ran s outcome
  generalize s.run outcome = s' at hran
  cases hran with
  | moved hmoved =>
      constructor
      · dsimp only
        rw [List.forall_mem_append]
        use h.calls
        intro c hc
        obtain ⟨e, -, rfl⟩ := List.mem_map.mp hc
        rfl
      · apply h.closes
  | published hworker => exact ⟨h.calls, h.closes⟩
  | finished hworker => exact ⟨h.calls, h.closes⟩
  | ended hworker => apply h

theorem closes_returned (last : Bool) :
  (returned last).closes = false
  := by
  cases last <;> rfl

/-- An owner that finds no socket makes no call. -/
theorem WorkerOnly.proceed (h : s.WorkerOnly) (hfinds : s.FindsNoSocket .owner) :
  s.proceed.WorkerOnly
  := by
  rw [RconServer.proceed]
  cases howner : s.owner with
  | stopping last =>
      have hnone : s.listenSocket = none := by
        apply hfinds
        rw [howner]
        rfl
      dsimp only
      split
      · next l hsome =>
          rw [hnone] at hsome
          cases hsome
      · exact ⟨h.calls, rfl⟩
  | closing last l =>
      have hcloses := h.closes
      rw [howner] at hcloses
      cases hcloses
  | joining last =>
      dsimp only
      split
      · split
        · exact ⟨h.calls, closes_returned last⟩
        · apply h
      · exact ⟨h.calls, closes_returned last⟩
  | idle => apply h
  | gone => apply h
  | starting => exact ⟨h.calls, rfl⟩
  | assigning =>
      dsimp only
      split
      · exact ⟨h.calls, rfl⟩
      · exact ⟨h.calls, rfl⟩
  | destroying =>
      dsimp only
      split
      · exact ⟨h.calls, rfl⟩
      · exact ⟨h.calls, rfl⟩

/-- Every step of such a run is the worker's or makes no call. -/
theorem WorkerOnly.step (h : s.WorkerOnly) {a : Action} (hfinds : s.FindsNoSocket a) :
  (s.step a).WorkerOnly
  := by
  have hstep := stepped s a
  generalize s.step a = s' at hstep
  cases hstep with
  | same => apply h
  | start hprocess howner hrunning => exact ⟨h.calls, rfl⟩
  | stop hprocess howner =>
      rw [RconServer.stop]
      split
      · exact ⟨h.calls, rfl⟩
      · exact ⟨h.calls, closes_returned _⟩
  | proceed hprocess => apply h.proceed hfinds
  | run => apply h.run

theorem WorkerOnly.tidy (h : s.WorkerOnly) (hinv : s.Inv) :
  s.Tidy
  := by
  have haccounted := hinv.accounted
  constructor
  · rw [h.events_eq]
    apply haccounted.ordered
  · intro hended x hx
    rw [hended] at haccounted
    rw [h.events_eq]
    apply haccounted.closed_once x hx List.not_mem_nil

/-! ### The sockets with `stop` -/

/-- The worker returns, when every call fails. -/
inductive Returns : RconServer → Prop where
  | now {s : RconServer} (h : s.worker = .ended) : Returns s
  | later {s : RconServer} (h : Returns (s.run {})) : Returns s

theorem returns_of_finish (hworker : s.worker = .finish) :
  Returns s
  := by
  apply Returns.later
  apply Returns.now
  rw [run, hworker]

theorem returns_of_closing {l : ℕ} (hworker : s.worker = .closing l) :
  Returns s
  := by
  apply Returns.later
  apply returns_of_finish
  rw [run, hworker]
  rfl

theorem returns_of_check {l : ℕ} (hworker : s.worker = .check l) (hrunning : s.running = false) :
  Returns s
  := by
  apply Returns.later
  apply returns_of_closing (l := l)
  rw [run, hworker]
  dsimp only
  rw [hrunning, if_neg Bool.false_ne_true]

theorem returns_of_handling_closing {l client : ℕ}
    (hworker : s.worker = .handling l client .closing) (hrunning : s.running = false) :
  Returns s
  := by
  apply Returns.later
  apply returns_of_check (l := l)
  · rw [run, hworker]
    rfl
  · apply running_run hrunning

/-- From a call of the handler the worker returns when the calls fail. -/
theorem returns_of_call {l client : ℕ} {handler : Handler}
    (hworker : s.worker = .handling l client handler) (hcall : handler.call ≠ none)
    (hrunning : s.running = false) :
  Returns s
  := by
  have hclosing : handler ≠ .closing := by
    rintro rfl
    apply hcall rfl
  apply Returns.later
  apply returns_of_handling_closing
  · rw [run_handling _ hworker hclosing, Handler.step_of_failure _ hcall]
  · apply running_run hrunning

/-- From anywhere in the handler the worker returns. -/
theorem returns_of_handling {l client : ℕ} {handler : Handler}
    (hworker : s.worker = .handling l client handler) (hrunning : s.running = false) :
  Returns s
  := by
  by_cases hcall : handler.call = none
  · rcases Handler.call_eq_none hcall with ⟨packet, rfl⟩ | rfl
    · -- behind the wait the handler is in a call
      apply Returns.later
      apply returns_of_call
      · rw [run_handling _ hworker (by simp)]
      · rw [Handler.step, Handler.call_sendNext (encodeResponse_ne_nil _ _)]
        simp
      · apply running_run hrunning
    · apply returns_of_handling_closing hworker hrunning
  · apply returns_of_call hworker hcall hrunning

/-- Once the flag is reset, the worker returns when every call fails. -/
theorem returns_of_reset (hrunning : s.running = false) :
  Returns s
  := by
  cases hworker : s.worker with
  | ended => apply Returns.now hworker
  | finish => apply returns_of_finish hworker
  | closing l => apply returns_of_closing hworker
  | check l => apply returns_of_check hworker hrunning
  | handling l client handler => apply returns_of_handling hworker hrunning
  | startup =>
      apply Returns.later
      apply returns_of_finish
      rw [run, hworker]
      rfl
  | socket =>
      apply Returns.later
      apply returns_of_finish
      rw [run, hworker]
      rfl
  | setsockopt l =>
      apply Returns.later
      apply Returns.later
      apply returns_of_closing (l := l)
      rw [run, run, hworker]
      rfl
  | bind l =>
      apply Returns.later
      apply returns_of_closing (l := l)
      rw [run, hworker]
      rfl
  | listen l =>
      apply Returns.later
      apply returns_of_closing (l := l)
      rw [run, hworker]
      rfl
  | publish l =>
      apply Returns.later
      apply returns_of_check (l := l)
      · rw [run, hworker]
      · apply running_run hrunning
  | accept l =>
      apply Returns.later
      apply Returns.later
      apply returns_of_closing (l := l)
      rw [run, run, hworker]
      simp [after]
  | accepting l =>
      apply Returns.later
      apply returns_of_closing (l := l)
      rw [run, hworker]
      simp

/-- Running on forgets neither a call nor a socket. -/
structure Extends (s s' : RconServer) : Prop where
  terminated : s'.terminated = s.terminated
  calls : ∀ c ∈ s.calls, c ∈ s'.calls
  sockets : s.sockets ≤ s'.sockets

/-- A step of the worker only adds to the record of calls. -/
theorem extends_run (s : RconServer) (outcome : Outcome) :
  s.Extends (s.run outcome)
  := by
  have hran := ran s outcome
  generalize s.run outcome = s' at hran
  cases hran with
  | moved hmoved =>
      constructor
      · rfl
      · intro c hc
        apply List.mem_append_left _ hc
      · apply Nat.le_add_right
  | published hworker => exact ⟨rfl, fun _ hc => hc, Nat.le_refl _⟩
  | finished hworker => exact ⟨rfl, fun _ hc => hc, Nat.le_refl _⟩
  | ended hworker => exact ⟨rfl, fun _ hc => hc, Nat.le_refl _⟩

/-- A worker that can return has a run in which it does. -/
theorem Returns.exists_run (h : Returns s) (hprocess : s.terminated = false) :
  ∃ more, s.Extends (Transition.run step s more) ∧
    (Transition.run step s more).worker = .ended
  := by
  induction h with
  | now hworker =>
      use []
      exact ⟨⟨rfl, fun _ hc => hc, Nat.le_refl _⟩, hworker⟩
  | @later s _ ih =>
      have hextends := extends_run s {}
      obtain ⟨more, hmore, hended⟩ := ih (hextends.terminated.trans hprocess)
      use .worker {} :: more
      rw [Transition.run_cons, step_of_running hprocess, act]
      use ⟨hmore.terminated.trans hextends.terminated,
        fun c hc => hmore.calls c (hextends.calls c hc), Nat.le_trans hextends.sockets hmore.sockets⟩

/-- What has happened was done by the worker or by the owner. -/
theorem count_events (s : RconServer) (e : Handles.Event Operation) :
  s.events.count e = s.workerEvents.count e + s.calls.count (.owner, e)
  := by
  rw [events, workerEvents]
  induction s.calls with
  | nil => rfl
  | cons c calls ih =>
      obtain ⟨thread, e'⟩ := c
      rw [List.map_cons, List.count_cons, ih, List.filterMap_cons, List.count_cons]
      cases thread with
      | owner => simp [Nat.add_assoc]
      | worker =>
          simp [List.count_cons]
          omega

/-- A socket that the owner has closed has been closed twice when the worker has returned. -/
theorem Inv.not_tidy (h : s.Inv) (hended : s.worker = .ended) {l : ℕ} (hl : l < s.sockets)
    (hcall : (.owner, .closed l) ∈ s.calls) :
  ¬ s.Tidy
  := by
  intro htidy
  have haccounted := h.accounted
  rw [hended] at haccounted
  have honce := haccounted.closed_once l hl List.not_mem_nil
  have hpos := List.count_pos_iff.mpr hcall
  have hcount := s.count_events (.closed l)
  rw [htidy.closed_once hended l hl, honce] at hcount
  omega

/-- The sockets are tidy in every run in which no `stop` finds a listening socket: none is used
or closed after it has been closed, and each has been closed exactly once when the worker has
returned. After a `stop` that finds one, the worker can return, and then they are not. -/
theorem sockets_tidy (actions : List Action) :
  (Transition.Along step FindsNoSocket {} actions → (reached actions).Tidy) ∧
  (∀ a, ¬ (reached actions).FindsNoSocket a →
    ∃ more, (reached (actions ++ a :: more)).worker = .ended ∧
      ¬ (reached (actions ++ a :: more)).Tidy)
  := by
  constructor
  · intro hactions
    have honly : (reached actions).WorkerOnly := by
      apply Transition.run_invariant_of_along (P := WorkerOnly) _ _ hactions
      · intro s a hfinds h
        apply h.step hfinds
      · constructor <;> simp [Owner.closes]
    apply honly.tidy (inv_reached actions)
  · intro a hfinds
    have h := inv_reached actions
    obtain rfl : a = .owner := by
      cases a with
      | owner => rfl
      | _ => cases hfinds trivial
    obtain ⟨hlooks, hsome⟩ := Classical.not_imp.mp hfinds
    obtain ⟨l, hl⟩ := Option.ne_none_iff_exists'.mp hsome
    obtain ⟨last, howner⟩ := Owner.looks_iff.mp hlooks
    have hstops : (reached actions).owner.Stops := by
      rw [howner]
      trivial
    have hprocess := h.alive_of_stops hstops
    -- the owner closes the socket, and then the worker returns
    have hclose : ((reached actions).step .owner).step .owner = { reached actions with
        calls := (reached actions).calls ++ [(.owner, .closed l)], owner := .joining last } := by
      rw [step_of_stopping hprocess howner hl]
      apply step_of_closing
      · apply hprocess
      · rfl
    have hreset : (((reached actions).step .owner).step .owner).running = false := by
      rw [hclose]
      apply (h.stops hstops).1
    have hprocess' : (((reached actions).step .owner).step .owner).terminated = false := by
      rw [hclose]
      apply hprocess
    obtain ⟨more, hextends, hended⟩ := (returns_of_reset hreset).exists_run hprocess'
    use .owner :: more
    have hreached : reached (actions ++ .owner :: .owner :: more)
        = Transition.run step (((reached actions).step .owner).step .owner) more := by
      rw [reached_append]
      rfl
    have hinv := inv_reached (actions ++ .owner :: .owner :: more)
    rw [hreached] at hinv ⊢
    use hended
    apply hinv.not_tidy hended (l := l)
    · apply Nat.lt_of_lt_of_le _ hextends.sockets
      rw [hclose]
      apply h.listenSocket_lt l hl
    · apply hextends.calls
      rw [hclose]
      apply List.mem_append_right _ (List.mem_singleton_self _)

/-- A client connects and disconnects, and then `accept` fails. -/
def oneVisit : List Action :=
  [.start [], .owner, .owner, .worker { ok := true }, .worker { ok := true }, .worker {},
    .worker { ok := true }, .worker { ok := true }, .worker {}, .worker {}, .worker {},
    .worker { ok := true }, .worker {}, .worker {}, .worker {}, .worker {}, .worker {},
    .worker {}, .worker {}]

/-- One client is served, and the server stopped between clients. -/
theorem sockets_tidy_oneVisit :
  (reached oneVisit).worker = .ended ∧ (reached oneVisit).sockets = 2 ∧ (reached oneVisit).Tidy
  := by
  use by decide +kernel, by decide +kernel
  apply (sockets_tidy _).1
  decide +kernel

/-- When the server is destroyed while the worker is in `accept`, both threads close the
listening socket. -/
theorem not_tidy_orderly :
  (reached orderly).worker = .ended ∧ (reached orderly).events.count (.closed 0) = 2 ∧
    ¬ (reached orderly).Tidy
  := by
  have hended : (reached orderly).worker = .ended := by
    decide +kernel
  have hcount : (reached orderly).events.count (.closed 0) = 2 := by
    decide +kernel
  use hended, hcount
  intro htidy
  have honce := htidy.closed_once hended 0 (by decide +kernel)
  rw [hcount] at honce
  cases honce

end RconServer

end OpenScumRcon
