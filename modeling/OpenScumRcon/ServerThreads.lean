import OpenScumRcon.HandlerCalls
import OpenScumRcon.RconServer

/-!
# The two threads of the server

`RconServer.Ran` is what a step of the worker does, whichever point it has come to.
`RconServer.Inv` says which points the owner and the worker can have come to together, what
the published listening socket has to do with the one that the worker serves, and which
sockets the worker holds. Every step keeps it.
-/

namespace OpenScumRcon

/-! ### What a step of the worker does -/

/-- The owner is in `stop` and has taken the flag. -/
def Owner.Stops : Owner → Prop
  | .stopping _ => True
  | .closing _ _ => True
  | .joining _ => True
  | _ => False

/-- The owner is about to read which listening socket has been published. -/
def Owner.looks : Owner → Bool
  | .stopping _ => true
  | _ => false

theorem Owner.looks_iff {owner : Owner} :
  owner.looks = true ↔ ∃ last, owner = .stopping last
  := by
  cases owner <;> simp [looks]

/-- The owner is about to close a listening socket. -/
def Owner.closes : Owner → Bool
  | .closing _ _ => true
  | _ => false

theorem Owner.closes_iff {owner : Owner} :
  owner.closes = true ↔ ∃ last l, owner = .closing last l
  := by
  cases owner <;> simp [closes]

namespace Worker

/-- The listening socket that the worker has published and serves in its loop. -/
def published : Worker → Option ℕ
  | .check l => some l
  | .accept l => some l
  | .accepting l => some l
  | .handling l _ _ => some l
  | _ => none

/-- The listening socket for which the worker has found the flag set. -/
def serving : Worker → Option ℕ
  | .accept l => some l
  | .accepting l => some l
  | .handling l _ _ => some l
  | _ => none

/-- The sockets that the worker is to close. -/
def held : Worker → List ℕ
  | .setsockopt l => [l]
  | .bind l => [l]
  | .listen l => [l]
  | .publish l => [l]
  | .check l => [l]
  | .accept l => [l]
  | .accepting l => [l]
  | .handling l client _ => [client, l]
  | .closing l => [l]
  | _ => []

theorem published_of_serving {worker : Worker} {l : ℕ} (h : worker.serving = some l) :
  worker.published = some l
  := by
  cases worker <;> cases h <;> rfl

/-- The worker handles a connection, and has not come to closing it. -/
def Handles (worker : Worker) : Prop :=
  ∃ l client handler, worker = .handling l client handler ∧ handler ≠ .closing

def handles : Worker → Bool
  | .handling _ _ handler => handler ≠ .closing
  | _ => false

instance (worker : Worker) : Decidable worker.Handles :=
  decidable_of_iff (worker.handles = true) (by cases worker <;> simp [handles, Handles])

end Worker

namespace RconServer

/-- The worker goes on from one point to another one, with some calls that return so many
sockets. -/
structure Moved (s : RconServer) (worker : Worker) (events : List (Handles.Event Operation))
    (obtained : ℕ) : Prop where
  alive : s.worker ≠ .ended
  published : ∀ l, worker.published = some l → s.worker.published = some l
  serving : ∀ l, worker.serving = some l → s.worker.serving = some l ∨ s.running = true
  handles : worker.Handles → s.worker.Handles ∨
    ∃ l, s.worker.serving = some l ∧ .closed l ∉ s.events
  accounted : ∀ earlier, Handles.Accounted s.worker.held s.sockets earlier →
    Handles.Accounted worker.held (s.sockets + obtained) (earlier ++ events)

/-- What a step of the worker does. -/
inductive Ran (s : RconServer) : RconServer → Prop where
  | moved {worker : Worker} {events : List (Handles.Event Operation)} {obtained : ℕ}
      (h : s.Moved worker events obtained) :
      Ran s { s with
        worker
        sockets := s.sockets + obtained
        calls := s.calls ++ events.map (Prod.mk Thread.worker) }
  | published {l : ℕ} (h : s.worker = .publish l) :
      Ran s { s with listenSocket := some l, worker := .check l }
  | finished (h : s.worker = .finish) : Ran s { s with running := false, worker := .ended }
  | ended (h : s.worker = .ended) : Ran s s

variable {s : RconServer}

/-- The worker goes on without a call. -/
theorem Ran.local {worker : Worker} (h : s.Moved worker [] 0) :
  Ran s { s with worker }
  := by
  have hran := Ran.moved h
  rw [List.map_nil, List.append_nil] at hran
  apply hran

theorem Ran.after {e : Handles.Event Operation} {worker : Worker}
    (h : s.Moved worker [e] 0) :
  Ran s (s.after e worker)
  := Ran.moved h

theorem Ran.obtain {worker : Worker} (h : s.Moved worker [.opened s.sockets] 1) :
  Ran s (s.obtain worker)
  := Ran.moved h

/-- The worker does not come to its accept loop. -/
theorem Moved.outside {worker : Worker} {events : List (Handles.Event Operation)} {obtained : ℕ}
    (halive : s.worker ≠ .ended) (hworker : worker.published = none)
    (haccounted : ∀ earlier, Handles.Accounted s.worker.held s.sockets earlier →
      Handles.Accounted worker.held (s.sockets + obtained) (earlier ++ events)) :
  s.Moved worker events obtained
  := by
  have hserving : ∀ l, worker.serving ≠ some l := by
    intro l hl
    cases worker <;> cases hl <;> cases hworker
  constructor
  · apply halive
  · intro l hl
    rw [hworker] at hl
    cases hl
  · intro l hl
    cases hserving l hl
  · rintro ⟨l, client, handler, rfl, -⟩
    cases hworker
  · apply haccounted

/-- The worker goes on in its accept loop, with the socket it has published. -/
theorem Moved.inside {worker : Worker} {events : List (Handles.Event Operation)}
    {obtained l : ℕ} (hfrom : s.worker.published = some l) (hto : worker.published = some l)
    (hserving : s.worker.serving = some l ∨ s.running = true)
    (hhandles : worker.Handles → s.worker.Handles ∨
      ∃ l, s.worker.serving = some l ∧ .closed l ∉ s.events)
    (haccounted : ∀ earlier, Handles.Accounted s.worker.held s.sockets earlier →
      Handles.Accounted worker.held (s.sockets + obtained) (earlier ++ events)) :
  s.Moved worker events obtained
  := by
  constructor
  · intro hended
    rw [hended] at hfrom
    cases hfrom
  · intro l' hl'
    rw [hto] at hl'
    rw [hfrom, hl']
  · intro l' hl'
    have hpublished := Worker.published_of_serving hl'
    rw [hto] at hpublished
    obtain rfl := Option.some.inj hpublished
    apply hserving
  · apply hhandles
  · apply haccounted

/-- A step of the handler is one call at most. -/
theorem run_handling {l client : ℕ} {handler : Handler} (outcome : Outcome)
    (hworker : s.worker = .handling l client handler) (hclosing : handler ≠ .closing) :
  s.run outcome = { s with
    worker := .handling l client (handler.step s.password outcome)
    calls := s.calls ++
      (handler.call.toList.map fun call => .used call client).map (Prod.mk Thread.worker) }
  := by
  rw [run, hworker]
  cases handler with
  | awaiting packet =>
      rw [Handler.call, Option.toList_none, List.map_nil, List.map_nil, List.append_nil]
      rfl
  | closing => cases hclosing rfl
  | _ => rfl

/-- The worker goes on in handling a connection. -/
theorem ran_handling {l client : ℕ} {handler : Handler} (outcome : Outcome)
    (hworker : s.worker = .handling l client handler) :
  Ran s (s.run outcome)
  := by
  have hpublished : s.worker.published = some l := by
    rw [hworker]
    rfl
  have hserving : s.worker.serving = some l := by
    rw [hworker]
    rfl
  by_cases hclosing : handler = .closing
  · have hrun : s.run outcome = s.after (.closed client) (.check l) := by
      rw [run, hworker, hclosing]
    rw [hrun]
    apply Ran.after
    apply Moved.inside hpublished rfl (.inl hserving)
    · rintro ⟨l, client, handler, ⟨⟩, -⟩
    · rw [hworker]
      intro earlier h
      simpa [Worker.held] using h.close (List.mem_cons_self ..)
  · have hmoved : s.Moved (.handling l client (handler.step s.password outcome))
        (handler.call.toList.map fun call => .used call client) 0 := by
      apply Moved.inside hpublished rfl (.inl hserving)
      · intro _
        left
        use l, client, handler
      · rw [hworker]
        intro earlier h
        cases handler.call with
        | none =>
            rw [Option.toList_none, List.map_nil, List.append_nil]
            apply h
        | some call => apply h.use (List.mem_cons_self ..)
    rw [run_handling outcome hworker hclosing]
    apply Ran.moved hmoved

/-- The worker goes on without a call, holds what it has held and does not come to its accept
loop. -/
theorem Ran.leave {worker : Worker} (halive : s.worker ≠ .ended)
    (hworker : worker.published = none) (hheld : worker.held = s.worker.held) :
  Ran s { s with worker }
  := by
  apply Ran.local
  apply Moved.outside halive hworker
  intro earlier h
  rw [List.append_nil, hheld]
  apply h

/-- The worker obtains a socket outside its accept loop. -/
theorem Ran.opens {worker : Worker} (halive : s.worker ≠ .ended)
    (hworker : worker.published = none) (hheld : worker.held = s.sockets :: s.worker.held) :
  Ran s (s.obtain worker)
  := by
  apply Ran.obtain
  apply Moved.outside halive hworker
  intro earlier h
  rw [hheld]
  apply h.open

/-- The worker uses the only socket it holds, outside its accept loop. -/
theorem Ran.uses {worker : Worker} {l : ℕ} (operation : Operation)
    (hfrom : s.worker.held = [l]) (hworker : worker.published = none) (hto : worker.held = [l]) :
  Ran s (s.after (.used operation l) worker)
  := by
  apply Ran.after
  apply Moved.outside
  · intro hended
    rw [hended] at hfrom
    cases hfrom
  · apply hworker
  · intro earlier h
    rw [hfrom] at h
    rw [hto]
    apply h.use (List.mem_singleton_self l)

/-- What a step of the worker does, point by point. -/
theorem ran (s : RconServer) (outcome : Outcome) :
  Ran s (s.run outcome)
  := by
  cases hworker : s.worker with
  | handling l client handler => apply ran_handling outcome hworker
  | ended =>
      rw [run, hworker]
      apply Ran.ended hworker
  | finish =>
      rw [run, hworker]
      apply Ran.finished hworker
  | publish l =>
      rw [run, hworker]
      apply Ran.published hworker
  | startup =>
      rw [run, hworker]
      cases outcome.ok <;> apply Ran.leave <;> simp [hworker, Worker.held, Worker.published]
  | socket =>
      rw [run, hworker]
      cases outcome.ok with
      | true => apply Ran.opens <;> simp [hworker, Worker.held, Worker.published]
      | false => apply Ran.leave <;> simp [hworker, Worker.held, Worker.published]
  | setsockopt l =>
      rw [run, hworker]
      apply Ran.uses <;> simp [hworker, Worker.held, Worker.published]
  | bind l =>
      rw [run, hworker]
      cases outcome.ok <;> apply Ran.uses <;> simp [hworker, Worker.held, Worker.published]
  | listen l =>
      rw [run, hworker]
      cases outcome.ok <;> apply Ran.uses <;> simp [hworker, Worker.held, Worker.published]
  | closing l =>
      rw [run, hworker]
      apply Ran.after
      apply Moved.outside
      · simp [hworker]
      · rfl
      · rw [hworker]
        intro earlier h
        simpa [Worker.held] using h.close (List.mem_singleton_self l)
  | check l =>
      rw [run, hworker]
      apply Ran.local
      cases hrunning : s.running with
      | true =>
          apply Moved.inside (l := l)
          · rw [hworker]
            rfl
          · rfl
          · right
            apply hrunning
          · rintro ⟨l, client, handler, ⟨⟩, -⟩
          · simp [hworker, Worker.held]
      | false => apply Moved.outside <;> simp [hworker, Worker.held, Worker.published]
  | accept l =>
      rw [run, hworker]
      apply Ran.after
      apply Moved.inside (l := l)
      · rw [hworker]
        rfl
      · rfl
      · left
        rw [hworker]
        rfl
      · rintro ⟨l, client, handler, ⟨⟩, -⟩
      · rw [hworker]
        intro earlier h
        apply h.use (List.mem_singleton_self l)
  | accepting l =>
      rw [run, hworker]
      dsimp only
      split
      · next hok =>
          apply Ran.obtain
          apply Moved.inside (l := l)
          · rw [hworker]
            rfl
          · rfl
          · left
            rw [hworker]
            rfl
          · intro _
            right
            use l
            rw [hworker]
            use rfl, hok.2
          · rw [hworker]
            intro earlier h
            apply h.open
      · apply Ran.leave <;> simp [hworker, Worker.held, Worker.published]

theorem running_run (hrunning : s.running = false) (outcome : Outcome) :
  (s.run outcome).running = false
  := by
  have hran := ran s outcome
  generalize s.run outcome = s' at hran
  cases hran with
  | moved hmoved => apply hrunning
  | published hworker => apply hrunning
  | finished hworker => rfl
  | ended hworker => apply hrunning

/-- What a step does. -/
inductive Stepped (s : RconServer) : Action → RconServer → Prop where
  | same {a : Action} : Stepped s a s
  | start {password : Bytes} (hprocess : s.terminated = false) (howner : s.owner = .idle)
      (hrunning : s.running = false) :
      Stepped s (.start password) { s with running := true, owner := .starting, password }
  | stop {a : Action} {last : Bool} (hprocess : s.terminated = false) (howner : s.owner = .idle) :
      Stepped s a (s.stop last)
  | proceed (hprocess : s.terminated = false) : Stepped s .owner s.proceed
  | run {outcome : Outcome} : Stepped s (.worker outcome) (s.run outcome)

/-- What each action can do. -/
theorem stepped (s : RconServer) (a : Action) :
  Stepped s a (s.step a)
  := by
  rw [step]
  split
  · apply Stepped.same
  next hterminated =>
  have hprocess : s.terminated = false := by
    simpa using hterminated
  cases a with
  | start password =>
      rw [act]
      split
      · next howner =>
          split
          · apply Stepped.same
          · next hrunning => apply Stepped.start hprocess howner (by simpa using hrunning)
      · apply Stepped.same
  | stop =>
      rw [act]
      split
      · next howner => apply Stepped.stop hprocess howner
      · apply Stepped.same
  | destroy =>
      rw [act]
      split
      · next howner => apply Stepped.stop hprocess howner
      · apply Stepped.same
  | owner => apply Stepped.proceed hprocess
  | worker outcome => apply Stepped.run

/-! ### The invariant -/

/-- What the worker has done to the sockets. -/
def workerEvents (s : RconServer) : List (Handles.Event Operation) :=
  s.calls.filterMap fun c => if c.1 = .worker then some c.2 else none

/-- What holds between the steps of the two threads. -/
structure Inv (s : RconServer) : Prop where
  /-- In `stop` the flag stays reset, and there is a thread to join. -/
  stops : s.owner.Stops → s.running = false ∧ s.joinable = true
  starting : s.owner = .starting → s.running = true ∧ s.worker = .ended
  idle : s.owner = .idle → s.running = true → s.joinable = true
  destroyed : s.owner = .destroying ∨ s.owner = .gone → s.running = false
  /-- Only `stop` resets the flag of a worker that has not returned. -/
  alive : s.worker ≠ .ended → s.running = true ∨ s.owner.Stops
  terminated : s.terminated = true → s.owner = .assigning ∨ s.owner = .destroying
  published : ∀ l, s.worker.published = some l → s.listenSocket = some l
  listenSocket_lt : ∀ l, s.listenSocket = some l → l < s.sockets
  /-- The socket that `stop` is about to close is the one that the worker serves. -/
  closing : ∀ last l, s.owner = .closing last l → ∀ l', s.worker.serving = some l' → l' = l
  /-- When `stop` joins the thread, the socket that the worker serves has been closed. -/
  joining : ∀ last, s.owner = .joining last → ∀ l, s.worker.serving = some l →
    .closed l ∈ s.events
  accounted : Handles.Accounted s.worker.held s.sockets s.workerEvents

theorem inv_init :
  ({} : RconServer).Inv
  := by
  constructor <;> simp [Owner.Stops, Worker.published, Worker.serving]
  apply Handles.accounted_nil

theorem workerEvents_append (s : RconServer) (events : List (Handles.Event Operation)) :
  { s with calls := s.calls ++ events.map (Prod.mk Thread.worker) }.workerEvents
    = s.workerEvents ++ events
  := by
  rw [workerEvents, List.filterMap_append, List.filterMap_map]
  congr 1
  simp

/-- A move of the worker that accounts for its sockets keeps the invariant. -/
theorem Inv.moved (h : s.Inv) {worker : Worker} {events : List (Handles.Event Operation)}
    {obtained : ℕ} (hmoved : s.Moved worker events obtained) :
  { s with
    worker
    sockets := s.sockets + obtained
    calls := s.calls ++ events.map (Prod.mk Thread.worker) }.Inv
  := by
  have hserving : s.owner.Stops → ∀ l, worker.serving = some l → s.worker.serving = some l := by
    intro hstops l hl
    rcases hmoved.serving l hl with hl' | hrunning
    · apply hl'
    · rw [(h.stops hstops).1] at hrunning
      cases hrunning
  constructor
  · apply h.stops
  · intro howner
    cases hmoved.alive (h.starting howner).2
  · apply h.idle
  · apply h.destroyed
  · intro _
    apply h.alive hmoved.alive
  · apply h.terminated
  · intro l hl
    apply h.published l (hmoved.published l hl)
  · intro l hl
    apply Nat.lt_add_right _ (h.listenSocket_lt l hl)
  · intro last l howner l' hl'
    apply h.closing last l howner l' (hserving _ l' hl')
    rw [howner]
    trivial
  · intro last howner l hl
    rw [RconServer.events, List.map_append]
    apply List.mem_append_left
    apply h.joining last howner l (hserving _ l hl)
    rw [howner]
    trivial
  · have hevents := workerEvents_append s events
    rw [workerEvents] at hevents ⊢
    dsimp only at hevents ⊢
    rw [hevents]
    apply hmoved.accounted _ h.accounted

/-- Every step of the worker keeps the invariant. -/
theorem Inv.run (h : s.Inv) (outcome : Outcome) :
  (s.run outcome).Inv
  := by
  have hran := ran s outcome
  generalize s.run outcome = s' at hran
  cases hran with
  | moved hmoved => apply h.moved hmoved
  | published hworker =>
      have hheld := h.accounted
      rw [hworker] at hheld
      constructor
      · apply h.stops
      · intro howner
        have hended := (h.starting howner).2
        rw [hworker] at hended
        cases hended
      · apply h.idle
      · apply h.destroyed
      · intro _
        apply h.alive
        rw [hworker]
        simp
      · apply h.terminated
      · intro l hl
        apply hl
      · rintro l ⟨⟩
        apply hheld.held_lt _ (List.mem_singleton_self _)
      · intro _ _ _ l' hl'
        cases hl'
      · intro _ _ l hl
        cases hl
      · apply hheld
  | finished hworker =>
      have hheld := h.accounted
      rw [hworker] at hheld
      constructor
      · intro hstops
        use rfl, (h.stops hstops).2
      · intro howner
        have hended := (h.starting howner).2
        rw [hworker] at hended
        cases hended
      · intro _ hrunning
        cases hrunning
      · intro _
        rfl
      · intro halive
        cases halive rfl
      · apply h.terminated
      · intro l hl
        cases hl
      · apply h.listenSocket_lt
      · intro _ _ _ l' hl'
        cases hl'
      · intro _ _ l hl
        cases hl
      · apply hheld
  | ended _ => apply h

/-- The owner comes to a point outside `start` and `stop`: with a thread in the member, or
with the flag reset. -/
theorem Inv.leave (h : s.Inv) (hprocess : s.terminated = false) {owner : Owner} {joinable : Bool}
    (howner : owner = .idle ∨ owner = .destroying ∨ owner = .gone)
    (hset : owner = .idle ∧ joinable = true ∨ s.running = false)
    (halive : s.worker ≠ .ended → s.running = true) :
  { s with owner, joinable }.Inv
  := by
  constructor
  · rintro hstops
    rcases howner with rfl | rfl | rfl <;> cases hstops
  · rintro ⟨⟩
    simp at howner
  · intro _ hrunning
    rcases hset with ⟨-, hjoinable⟩ | hreset
    · apply hjoinable
    · rw [hreset] at hrunning
      cases hrunning
  · intro hdestroyed
    rcases hset with ⟨rfl, -⟩ | hreset
    · simp at hdestroyed
    · apply hreset
  · intro hworker
    left
    apply halive hworker
  · intro hended
    rw [hprocess] at hended
    cases hended
  · apply h.published
  · apply h.listenSocket_lt
  · rintro _ _ ⟨⟩
    simp at howner
  · rintro _ ⟨⟩
    simp at howner
  · apply h.accounted

/-- Outside `stop`, a worker that has not returned has its flag set. -/
theorem Inv.running_of_not_stops (h : s.Inv) (hstops : ¬ s.owner.Stops)
    (hworker : s.worker ≠ .ended) :
  s.running = true
  := by
  rcases h.alive hworker with hrunning | hstops'
  · apply hrunning
  · cases hstops hstops'

/-- The process does not end in `stop`. -/
theorem Inv.alive_of_stops (h : s.Inv) (hstops : s.owner.Stops) :
  s.terminated = false
  := by
  rw [← Bool.not_eq_true]
  intro hterminated
  rcases h.terminated hterminated with howner | howner
  · rw [howner] at hstops
    cases hstops
  · rw [howner] at hstops
    cases hstops

theorem Inv.terminate (h : s.Inv) (howner : s.owner = .assigning ∨ s.owner = .destroying) :
  { s with terminated := true }.Inv
  := ⟨h.stops, h.starting, h.idle, h.destroyed, h.alive, fun _ => howner, h.published,
    h.listenSocket_lt, h.closing, h.joining, h.accounted⟩

theorem returned_cases (last : Bool) :
  returned last = .idle ∨ returned last = .destroying ∨ returned last = .gone
  := by
  cases last with
  | true =>
      right
      left
      rfl
  | false =>
      left
      rfl

/-- The owner enters `stop`. -/
theorem Inv.stop (h : s.Inv) (hprocess : s.terminated = false) (howner : s.owner = .idle)
    (last : Bool) :
  (s.stop last).Inv
  := by
  rw [RconServer.stop]
  split
  · next hrunning =>
      constructor
      · intro _
        use rfl, h.idle howner hrunning
      · rintro ⟨⟩
      · rintro ⟨⟩
      · intro _
        rfl
      · intro _
        right
        trivial
      · intro hterminated
        rw [hprocess] at hterminated
        cases hterminated
      · apply h.published
      · apply h.listenSocket_lt
      · rintro _ _ ⟨⟩
      · rintro _ ⟨⟩
      · apply h.accounted
  · next hrunning =>
      apply h.leave hprocess (returned_cases last)
      · right
        simpa using hrunning
      · apply h.running_of_not_stops
        rw [howner]
        rintro ⟨⟩

/-- The owner enters `start`. -/
theorem Inv.start (h : s.Inv) (hprocess : s.terminated = false) (howner : s.owner = .idle)
    (hrunning : s.running = false) (password : Bytes) :
  { s with running := true, owner := .starting, password }.Inv
  := by
  constructor
  · rintro ⟨⟩
  · intro _
    use rfl
    by_contra hworker
    have hset := h.running_of_not_stops (by rw [howner]; rintro ⟨⟩) hworker
    rw [hrunning] at hset
    cases hset
  · rintro ⟨⟩
  · rintro (⟨⟨⟩⟩ | ⟨⟨⟩⟩)
  · intro _
    left
    rfl
  · intro hterminated
    rw [hprocess] at hterminated
    cases hterminated
  · apply h.published
  · apply h.listenSocket_lt
  · rintro _ _ ⟨⟩
  · rintro _ ⟨⟩
  · apply h.accounted

/-- The thread is created. -/
theorem Inv.create (h : s.Inv) (hprocess : s.terminated = false) (howner : s.owner = .starting) :
  { s with worker := .startup, owner := .assigning }.Inv
  := by
  obtain ⟨hrunning, hended⟩ := h.starting howner
  have haccounted := h.accounted
  rw [hended] at haccounted
  constructor
  · rintro ⟨⟩
  · rintro ⟨⟩
  · rintro ⟨⟩
  · rintro (⟨⟨⟩⟩ | ⟨⟨⟩⟩)
  · intro _
    left
    apply hrunning
  · intro hterminated
    rw [hprocess] at hterminated
    cases hterminated
  · rintro _ ⟨⟩
  · apply h.listenSocket_lt
  · rintro _ _ ⟨⟩
  · rintro _ ⟨⟩
  · apply haccounted

/-- The owner goes on in `stop` to closing the socket it has found. -/
theorem Inv.aim (h : s.Inv) (hprocess : s.terminated = false) (hstops : s.owner.Stops)
    (last : Bool) {l : ℕ} (hl : s.listenSocket = some l) :
  { s with owner := .closing last l }.Inv
  := by
  constructor
  · intro _
    apply h.stops hstops
  · rintro ⟨⟩
  · rintro ⟨⟩
  · rintro (⟨⟨⟩⟩ | ⟨⟨⟩⟩)
  · intro _
    right
    trivial
  · intro hterminated
    rw [hprocess] at hterminated
    cases hterminated
  · apply h.published
  · apply h.listenSocket_lt
  · rintro _ _ ⟨⟩ l' hl'
    have hpublished := h.published l' (Worker.published_of_serving hl')
    rw [hl] at hpublished
    rw [Option.some.inj hpublished]
  · rintro _ ⟨⟩
  · apply h.accounted

theorem workerEvents_owner (s : RconServer) (events : List (Handles.Event Operation)) :
  { s with calls := s.calls ++ events.map (Prod.mk Thread.owner) }.workerEvents = s.workerEvents
  := by
  have hnil : (events.map (Prod.mk Thread.owner)).filterMap
      (fun c => if c.1 = .worker then some c.2 else none) = [] := by
    simp
  rw [workerEvents, List.filterMap_append, hnil, List.append_nil]
  rfl

/-- The owner comes to joining the thread: it has closed the socket that the worker serves, or
the worker serves none. -/
theorem Inv.join (h : s.Inv) (hprocess : s.terminated = false) (hstops : s.owner.Stops)
    (last : Bool) (closed : List (Handles.Event Operation))
    (hclosed : ∀ l, s.worker.serving = some l → .closed l ∈ closed) :
  { s with
    owner := .joining last
    calls := s.calls ++ closed.map (Prod.mk Thread.owner) }.Inv
  := by
  constructor
  · intro _
    apply h.stops hstops
  · rintro ⟨⟩
  · rintro ⟨⟩
  · rintro (⟨⟨⟩⟩ | ⟨⟨⟩⟩)
  · intro _
    right
    trivial
  · intro hterminated
    rw [hprocess] at hterminated
    cases hterminated
  · apply h.published
  · apply h.listenSocket_lt
  · rintro _ _ ⟨⟩
  · intro _ _ l hl
    rw [events, List.map_append, List.map_map]
    apply List.mem_append_right
    apply List.mem_map_of_mem (f := Prod.snd ∘ Prod.mk Thread.owner) (hclosed l hl)
  · have hevents := workerEvents_owner s closed
    rw [workerEvents] at hevents ⊢
    dsimp only at hevents ⊢
    rw [hevents]
    apply h.accounted

/-- The owner goes on in `stop`. -/
theorem Inv.proceed_stop (h : s.Inv) (hprocess : s.terminated = false) (hstops : s.owner.Stops) :
  s.proceed.Inv
  := by
  rw [RconServer.proceed]
  cases howner : s.owner with
  | stopping last =>
      dsimp only
      split
      · next l hlisten => apply h.aim hprocess hstops last hlisten
      · next hlisten =>
          have hserving : ∀ l, s.worker.serving ≠ some l := by
            intro l hl
            have hpublished := h.published l (Worker.published_of_serving hl)
            rw [hlisten] at hpublished
            cases hpublished
          have hjoin := h.join hprocess hstops last [] fun l hl => absurd hl (hserving l)
          rw [List.map_nil, List.append_nil] at hjoin
          apply hjoin
  | closing last l =>
      apply h.join hprocess hstops last [.closed l]
      intro l' hl'
      rw [h.closing last l howner l' hl']
      apply List.mem_singleton_self
  | joining last =>
      dsimp only
      split
      · split
        · next hended =>
            apply h.leave hprocess (returned_cases last) (.inr (h.stops hstops).1)
            intro hworker
            cases hworker hended
        · apply h
      · next hjoinable => cases hjoinable (h.stops hstops).2
  | _ =>
      rw [howner] at hstops
      cases hstops

/-- Every step of the owner keeps the invariant. -/
theorem Inv.proceed (h : s.Inv) (hprocess : s.terminated = false) :
  s.proceed.Inv
  := by
  by_cases hstops : s.owner.Stops
  · apply h.proceed_stop hprocess hstops
  have hrunning := h.running_of_not_stops hstops
  rw [RconServer.proceed]
  cases howner : s.owner with
  | idle => apply h
  | starting => apply h.create hprocess howner
  | assigning =>
      dsimp only
      split
      · rw [← howner]
        apply h.terminate (.inl howner)
      · apply h.leave hprocess (.inl rfl) (.inl ⟨rfl, rfl⟩) hrunning
  | destroying =>
      dsimp only
      split
      · rw [← howner]
        apply h.terminate (.inr howner)
      · apply h.leave hprocess (.inr (.inr rfl)) (.inr (h.destroyed (.inl howner))) hrunning
  | gone => apply h
  | _ =>
      rw [howner] at hstops
      cases hstops trivial

/-- Every step keeps the invariant. -/
theorem Inv.step (h : s.Inv) (a : Action) :
  (s.step a).Inv
  := by
  have hstep := stepped s a
  generalize s.step a = s' at hstep
  cases hstep with
  | same => apply h
  | start hprocess howner hrunning => apply h.start hprocess howner hrunning
  | stop hprocess howner => apply h.stop hprocess howner
  | proceed hprocess => apply h.proceed hprocess
  | run => apply h.run

theorem inv_reached (actions : List Action) :
  (reached actions).Inv
  := by
  apply Transition.run_invariant (P := Inv)
  · intro s a h
    apply h.step
  · apply inv_init

end RconServer

end OpenScumRcon
