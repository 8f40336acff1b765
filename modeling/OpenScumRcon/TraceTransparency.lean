import OpenScumRcon.TraceInvariant

/-!
# The trace is transparent and bounded

The steps of a call on one thread do not depend on the other ones. So a call gets to the handler
by its own three steps, and once the handler has returned or thrown it is over after two more,
whatever else happens in between.
-/

namespace OpenScumRcon

namespace GodmodeTrace

variable {ι E : Type*} [DecidableEq ι]

/-! ### The other threads -/

/-- The thread on which a call makes the step. -/
def Action.thread : Action ι E → Option ι
  | .start _ | .tick _ _ | .stop _ _ => none
  | .enter t _ _ | .load t | .decide t _ | .call t | .leave t _ | .finish t _ => some t

namespace State

variable {game t : ι} {s s' : State ι E}

/-- A step on a thread, or on none, leaves alone the open calls of the other threads and the
calls that are over. -/
structure Local (s s' : State ι E) (thread : Option ι) : Prop where
  threads : ∀ t, thread ≠ some t → s'.threads t = s.threads t
  finished : s.finished <+: s'.finished

omit [DecidableEq ι]

theorem Local.refl (s : State ι E) (thread : Option ι) :
  Local s s thread
  where
  threads := fun _ _ => rfl
  finished := List.prefix_rfl

/-- A tick is local to no thread. -/
theorem local_tick (now : UInt64) (file : LogFile) (thread : Option ι) :
  Local s (s.tick now file) thread
  := by
  have hfinished : (s.tick now file).finished = s.finished := by
    unfold State.tick
    dsimp only
    split_ifs <;> rfl
  constructor
  · intro t _
    rw [tick_threads]
  · use []
    rw [List.append_nil, hfinished]

/-- `start` is local to no thread. -/
theorem local_start (inputs : StartInputs) (thread : Option ι) :
  Local s (s.start game inputs).2 thread
  := by
  have htick := local_tick (s := s) inputs.tickNow inputs.tickFile thread
  unfold State.start
  split
  · apply Local.refl
  · dsimp only
    split
    · apply htick
    · split
      · apply htick
      · split
        · exact ⟨htick.threads, htick.finished⟩
        · exact ⟨htick.threads, htick.finished⟩

variable [DecidableEq ι]

/-- A change of a thread's calls is local to it. -/
theorem local_setThread (hfinished : s.finished <+: s'.finished) (hthreads : s'.threads = s.threads)
    (thread : Thread E) :
  Local s (s'.setThread t thread) (some t)
  := by
  constructor
  · intro t' hne
    rw [← hthreads]
    apply Function.update_of_ne
    rintro rfl
    apply hne rfl
  · apply hfinished

/-- The end of a call is local to its thread. -/
theorem local_pop (hfinished : s'.finished = s.finished) (hthreads : s'.threads = s.threads)
    (active : Option ℕ) (rest : List (Frame E)) (frame : Frame E) (given : Except E Bool) :
  Local s (s'.pop t active rest frame given) (some t)
  := by
  apply local_setThread
  · use [⟨frame, given⟩]
    rw [hfinished]
  · apply hthreads

/-- Every action is local to its thread. -/
theorem local_step (game : ι) (s : State ι E) (action : Action ι E) :
  Local s (step game s action) action.thread
  := by
  cases action with
  | start inputs =>
      rw [step]
      split
      · apply local_start
      · apply Local.refl
  | tick now file =>
      rw [step]
      split
      · apply local_tick
      · apply Local.refl
  | stop now file =>
      rw [step]
      split
      · have htick := local_tick (s := { s with deadline := 0 }) now file none
        exact ⟨htick.threads, htick.finished⟩
      · apply Local.refl
  | enter t command args =>
      rw [step, State.enter]
      split
      · apply local_setThread
        · apply List.prefix_rfl
        · rfl
      · apply Local.refl
  | load t =>
      rw [step, State.load]
      split
      · split
        · apply local_setThread
          · apply List.prefix_rfl
          · rfl
        · apply Local.refl
      · apply Local.refl
  | decide t now =>
      rw [step, State.decide]
      split
      · split
        · split
          · apply local_setThread
            · apply List.prefix_rfl
            · rfl
          · apply local_setThread
            · apply List.prefix_rfl
            · rfl
        · apply Local.refl
      · apply Local.refl
  | call t =>
      rw [step, State.call]
      split
      · split
        · apply local_setThread
          · apply List.prefix_rfl
          · rfl
        · apply Local.refl
      · apply Local.refl
  | leave t outcome =>
      rw [step, State.leave]
      split
      · split
        · split
          · apply local_pop
            · rfl
            · rfl
          · apply local_pop
            · rfl
            · rfl
          · apply local_setThread
            · apply List.prefix_rfl
            · rfl
        · apply Local.refl
      · apply Local.refl
  | finish t text =>
      rw [step, State.finish]
      split
      · split
        · dsimp only
          split
          · apply local_pop
            · rfl
            · rfl
          · apply local_pop
            · rfl
            · rfl
        · apply Local.refl
      · apply Local.refl

/-- The calls of the thread just changed. -/
theorem setThread_stack (active : Option ℕ) (stack : List (Frame E)) :
  ((s.setThread t ⟨active, stack⟩).threads t).stack = stack
  := by
  change (Function.update s.threads t ⟨active, stack⟩ t).stack = stack
  rw [Function.update_self]

end State

/-! ### The way to the handler -/

/-- How many steps are between a call and the handler. -/
def Point.toGo : Point → ℕ
  | .entered => 3
  | .loaded _ => 2
  | .begun => 1
  | .inside => 0
  | .returned _ => 4

section ToGo

variable {point : Point}

theorem Point.toGo_eq_three_iff :
  point.toGo = 3 ↔ point = .entered
  := by
  cases point <;> simp [toGo]

theorem Point.toGo_eq_two_iff :
  point.toGo = 2 ↔ ∃ deadline, point = .loaded deadline
  := by
  cases point <;> simp [toGo]

theorem Point.toGo_eq_one_iff :
  point.toGo = 1 ↔ point = .begun
  := by
  cases point <;> simp [toGo]

theorem Point.toGo_eq_zero_iff :
  point.toGo = 0 ↔ point = .inside
  := by
  cases point <;> simp [toGo]

end ToGo

/-- A call has at most three steps before the original. -/
theorem Frame.Ok.toGo_le {frame : Frame E} (hok : frame.Ok) (h : frame.invoked = []) :
  frame.point.toGo ≤ 3
  := by
  unfold Frame.Ok at hok
  split at hok <;> simp_all [Point.toGo]

/-- The innermost call is the given one, with so many steps to go at most. -/
def Thread.Toward (command args : UInt64) (rest : List (Frame E)) (n : ℕ) (thread : Thread E) :
    Prop :=
  ∃ frame, thread.stack = frame :: rest ∧ frame.command = command ∧ frame.args = args ∧
    frame.point.toGo ≤ n

namespace State

variable {game t : ι} {s : State ι E} {command args : UInt64} {rest : List (Frame E)}

/-- Loading the deadline is a step toward the original. -/
theorem toward_load (h : (s.threads t).Toward command args rest 3) :
  ((s.load t).threads t).Toward command args rest 2
  := by
  obtain ⟨frame, hstack, hcommand, hargs, hpoint⟩ := h
  rw [State.load, hstack]
  dsimp only
  split
  · use { frame with point := .loaded s.deadline }
    use setThread_stack _ _, hcommand, hargs
    rfl
  · next hne =>
      use frame, hstack, hcommand, hargs
      apply Nat.le_of_lt_succ (lt_of_le_of_ne hpoint _)
      apply mt Point.toGo_eq_three_iff.mp hne

/-- Deciding is a step toward the original. -/
theorem toward_decide (h : (s.threads t).Toward command args rest 2) (now : UInt64) :
  ((s.decide t now).threads t).Toward command args rest 1
  := by
  obtain ⟨frame, hstack, hcommand, hargs, hpoint⟩ := h
  rw [State.decide, hstack]
  dsimp only
  split
  · split
    · use { frame with point := .begun, record := some (s.calls + 1) }
      use setThread_stack _ _, hcommand, hargs
      rfl
    · use frame.invoke
      use setThread_stack _ _, hcommand, hargs
      exact Nat.zero_le _
  · next hne =>
      use frame, hstack, hcommand, hargs
      apply Nat.le_of_lt_succ (lt_of_le_of_ne hpoint _)
      intro htwo
      obtain ⟨deadline, hloaded⟩ := Point.toGo_eq_two_iff.mp htwo
      apply hne deadline hloaded

/-- Calling is the last step. -/
theorem toward_call (h : (s.threads t).Toward command args rest 1) :
  ((s.call t).threads t).Toward command args rest 0
  := by
  obtain ⟨frame, hstack, hcommand, hargs, hpoint⟩ := h
  rw [State.call, hstack]
  dsimp only
  split
  · use frame.invoke
    use setThread_stack _ _, hcommand, hargs
    rfl
  · next hne =>
      use frame, hstack, hcommand, hargs
      apply Nat.le_of_lt_succ (lt_of_le_of_ne hpoint _)
      apply mt Point.toGo_eq_one_iff.mp hne

/-- The innermost call is as near to the handler as the steps that it still has to make say. -/
def OnTheWay (t : ι) (now command args : UInt64) (rest : List (Frame E))
    (plan : List (Action ι E)) (s : State ι E) : Prop :=
  plan <:+ [.load t, .decide t now, .call t] ∧
    (s.threads t).Toward command args rest plan.length

/-- The thread's next action brings it on its way. -/
theorem onTheWay_step {now : UInt64} {action : Action ι E} {plan : List (Action ι E)}
    (h : s.OnTheWay t now command args rest (action :: plan)) :
  (step game s action).OnTheWay t now command args rest plan
  := by
  obtain ⟨hsuffix, htoward⟩ := h
  rcases List.suffix_cons_iff.mp hsuffix with heq | hsuffix
  · obtain ⟨rfl, rfl⟩ := List.cons.inj heq
    use List.suffix_cons _ _
    apply toward_load htoward
  · rcases List.suffix_cons_iff.mp hsuffix with heq | hsuffix
    · obtain ⟨rfl, rfl⟩ := List.cons.inj heq
      use (List.suffix_cons _ _).trans (List.suffix_cons _ _)
      apply toward_decide htoward
    · rcases List.suffix_cons_iff.mp hsuffix with heq | hsuffix
      · obtain ⟨rfl, rfl⟩ := List.cons.inj heq
        use List.nil_suffix
        apply toward_call htoward
      · cases List.suffix_nil.mp hsuffix

/-- The other threads' actions leave it on its way. -/
theorem onTheWay_step_of_ne (game : ι) {now : UInt64} {action : Action ι E} {plan : List (Action ι E)}
    (hne : action.thread ≠ some t) (h : s.OnTheWay t now command args rest plan) :
  (step game s action).OnTheWay t now command args rest plan
  := by
  rw [OnTheWay, (local_step game s action).threads t hne]
  apply h

/-- The innermost call of the thread, when it has not called the handler yet, calls it with its own
arguments in three steps of its own, whatever else happens in between. -/
def CallsHandler (game t : ι) (s : State ι E) : Prop :=
  ∀ (frame : Frame E) (rest : List (Frame E)) (now : UInt64) (actions : List (Action ι E)),
    (s.threads t).stack = frame :: rest → frame.invoked = [] →
    actions.filter (·.thread = some t) = [.load t, .decide t now, .call t] →
    ∃ frame', ((Transition.run (step game) s actions).threads t).stack = frame' :: rest ∧
      frame'.command = frame.command ∧ frame'.args = frame.args ∧ frame'.point = .inside ∧
        frame'.invoked = [(frame.command, frame.args)]

/-- Every call comes to the original, whatever the other threads do. -/
theorem Inv.callsHandler (h : s.Inv game) (t : ι) :
  s.CallsHandler game t
  := by
  intro frame rest now actions hstack hinvoked hplan
  have hstart : s.OnTheWay t now frame.command frame.args rest
      [.load t, .decide t now, .call t] := by
    use List.suffix_rfl, frame, hstack, rfl, rfl
    apply (h.frame_ok hstack).toGo_le hinvoked
  obtain ⟨_, frame', hstack', hcommand, hargs, hpoint⟩ :=
    Transition.run_of_filter_eq
      (fun _ _ _ hother => onTheWay_step_of_ne game (of_decide_eq_false hother))
      (fun _ _ _ => onTheWay_step) hplan hstart
  have hinside : frame'.point = .inside := Point.toGo_eq_zero_iff.mp (Nat.le_zero.mp hpoint)
  have hend : Inv game (Transition.run (step game) s actions) :=
    Transition.run_invariant (P := Inv game) (fun _ action h => inv_step h action) h actions
  have hok := hend.frame_ok hstack'
  rw [Frame.Ok, hinside, hcommand, hargs] at hok
  use frame', hstack', hcommand, hargs, hinside

/-! ### The way back -/

/-- The call is over, and its caller has got what the handler has returned or thrown. -/
def GivenBack (t : ι) (frame : Frame E) (rest : List (Frame E)) (outcome : Except E Bool)
    (s : State ι E) : Prop :=
  (s.threads t).stack = rest ∧
    ∃ frame', ⟨frame', outcome⟩ ∈ s.finished ∧ frame'.command = frame.command ∧
      frame'.args = frame.args

/-- What has become of the call when some of its last steps are still to be made. -/
inductive OnTheWayBack (t : ι) (frame : Frame E) (rest : List (Frame E))
    (outcome : Except E Bool) (text : Option Bytes) : List (Action ι E) → State ι E → Prop where
  | inside {s : State ι E} (hstack : (s.threads t).stack = frame :: rest) :
      OnTheWayBack t frame rest outcome text [.leave t outcome, .finish t text] s
  | returned {s : State ι E} {result : Bool} (houtcome : outcome = .ok result)
      (hstack : (s.threads t).stack =
        { frame with point := .returned result, outcome := some outcome } :: rest) :
      OnTheWayBack t frame rest outcome text [.finish t text] s
  | done {s : State ι E} {plan : List (Action ι E)} (hplan : plan <:+ [.finish t text])
      (h : s.GivenBack t frame rest outcome) :
      OnTheWayBack t frame rest outcome text plan s

section WayBack

variable {frame : Frame E} {outcome : Except E Bool} {text : Option Bytes}

/-- A call that ends gives its outcome back. -/
theorem givenBack_pop (frame' : Frame E) (hcommand : frame'.command = frame.command)
    (hargs : frame'.args = frame.args) (active : Option ℕ) :
  (s.pop t active rest frame' outcome).GivenBack t frame rest outcome
  := by
  use setThread_stack _ _, frame'
  use List.mem_append_right _ (List.mem_singleton_self _)

/-- Behind the original there is one action to go. -/
theorem onTheWayBack_leave (hpoint : frame.point = .inside)
    (hstack : (s.threads t).stack = frame :: rest) :
  OnTheWayBack t frame rest outcome text [.finish t text] (s.leave t outcome)
  := by
  rw [State.leave, hstack]
  dsimp only
  rw [if_pos hpoint]
  split
  · apply OnTheWayBack.done List.suffix_rfl
    apply givenBack_pop _ rfl rfl
  · apply OnTheWayBack.done List.suffix_rfl
    apply givenBack_pop _ rfl rfl
  · apply OnTheWayBack.returned rfl
    apply setThread_stack

/-- The last action of a call that returned. -/
theorem givenBack_finish_of_returned {frame' : Frame E} {result : Bool}
    (hpoint : frame'.point = .returned result) (hcommand : frame'.command = frame.command)
    (hargs : frame'.args = frame.args) (hstack : (s.threads t).stack = frame' :: rest) :
  (s.finish t text).GivenBack t frame rest (.ok result)
  := by
  rw [State.finish, hstack]
  dsimp only
  split
  · next result' hpoint' =>
      obtain rfl : result = result' := by simpa using hpoint.symm.trans hpoint'
      apply givenBack_pop _ hcommand hargs
  · next hne => cases hne result hpoint

/-- The last step of a call that is over is none of the call around it. -/
theorem finish_eq_self (hrest : ∀ frame ∈ (s.threads t).stack, frame.point = .inside) :
  s.finish t text = s
  := by
  unfold State.finish
  split
  · next frame rest hstack =>
      rw [hstack] at hrest
      rw [hrest frame List.mem_cons_self]
  · rfl

/-- The thread's next action brings it on its way back. -/
theorem onTheWayBack_step (hpoint : frame.point = .inside)
    (hrest : ∀ frame ∈ rest, frame.point = .inside) {action : Action ι E}
    {plan : List (Action ι E)}
    (h : s.OnTheWayBack t frame rest outcome text (action :: plan)) :
  (step game s action).OnTheWayBack t frame rest outcome text plan
  := by
  cases h with
  | inside hstack => apply onTheWayBack_leave hpoint hstack
  | returned houtcome hstack =>
      apply OnTheWayBack.done List.nil_suffix
      rw [houtcome]
      apply givenBack_finish_of_returned rfl rfl rfl hstack
  | done hplan h =>
      rcases List.suffix_cons_iff.mp hplan with heq | hplan
      · obtain ⟨rfl, rfl⟩ := List.cons.inj heq
        apply OnTheWayBack.done List.nil_suffix
        rw [step, finish_eq_self]
        · apply h
        · rw [h.1]
          apply hrest
      · cases List.suffix_nil.mp hplan

/-- The other threads' actions leave it on its way back. -/
theorem onTheWayBack_step_of_ne (game : ι) {action : Action ι E} {plan : List (Action ι E)}
    (hne : action.thread ≠ some t)
    (h : s.OnTheWayBack t frame rest outcome text plan) :
  (step game s action).OnTheWayBack t frame rest outcome text plan
  := by
  have hlocal := local_step game s action
  cases h with
  | inside hstack =>
      apply OnTheWayBack.inside
      rw [hlocal.threads t hne, hstack]
  | returned houtcome hstack =>
      apply OnTheWayBack.returned houtcome
      rw [hlocal.threads t hne, hstack]
  | done hplan h =>
      obtain ⟨hstack, frame', hmem, hsame⟩ := h
      apply OnTheWayBack.done hplan
      rw [GivenBack, hlocal.threads t hne]
      use hstack, frame', hlocal.finished.subset hmem

end WayBack

/-- Once the handler has returned or thrown, the innermost call of the thread is over after two
steps of its own, whatever else happens in between, and its caller gets the same. -/
def Returns (game t : ι) (s : State ι E) : Prop :=
  ∀ (frame : Frame E) (rest : List (Frame E)) (outcome : Except E Bool) (text : Option Bytes)
    (actions : List (Action ι E)),
    (s.threads t).stack = frame :: rest → frame.point = .inside →
    actions.filter (·.thread = some t) = [.leave t outcome, .finish t text] →
    (Transition.run (step game) s actions).GivenBack t frame rest outcome

theorem Inv.returns (h : s.Inv game) (t : ι) :
  s.Returns game t
  := by
  intro frame rest outcome text actions hstack hpoint hplan
  have hback := Transition.run_of_filter_eq
    (fun _ _ _ hother => onTheWayBack_step_of_ne game (of_decide_eq_false hother))
    (fun _ _ _ => onTheWayBack_step hpoint (h.ok hstack).below) hplan
    (OnTheWayBack.inside hstack)
  cases hback with
  | done _ h => apply h

end State

/-! ### The guarantees -/

/-- After every run: a call that is over has called the handler once, with its own arguments, and
has given back what came out of that. Every other call can do the same. The pointer to the record
is null on a thread without open calls. At most four records have been begun since each start,
and none before the first one. Of the calls that are open on a thread one at most is recorded. A
record is saved or still pending. -/
theorem transparent_and_bounded (game gameThread : ι) (actions : List (Action ι E)) :
  (∀ call ∈ (run game gameThread actions).finished, call.Transparent)
    ∧ (∀ t, (run game gameThread actions).CallsHandler game t)
    ∧ (∀ t, (run game gameThread actions).Returns game t)
    ∧ (∀ t, ((run game gameThread actions).threads t).stack = [] →
        ((run game gameThread actions).threads t).active = none)
    ∧ (run game gameThread actions).pending.length ≤ (run game gameThread actions).calls
    ∧ (run game gameThread actions).calls ≤ maxCalls
    ∧ (∀ n, (run game gameThread actions).recorded.count n ≤ maxCalls)
    ∧ 0 ∉ (run game gameThread actions).recorded
    ∧ (∀ t, recordings ((run game gameThread actions).threads t).stack ≤ 1)
    ∧ (run game gameThread actions).pushed
        = (run game gameThread actions).saved ++ (run game gameThread actions).pending
  := by
  have h := inv_run game gameThread actions
  use h.finished, h.callsHandler, h.returns
  constructor
  · intro t hstack
    have hslot := (h.threads t).slot
    rw [hstack] at hslot
    apply ScopedSlot.scoped_nil_iff.mp hslot
  · use (Nat.le_add_right _ _).trans h.pending, h.calls_le, h.recorded
    use fun hmem => (h.started 0 hmem).1 rfl
    use fun t => (h.threads t).recordings_le
    apply h.pushed

/-- A call is recorded, and one inside it, which throws, is not. -/
example :
  let s := run true false
    [.start ⟨true, true, 0, ⟨true, true⟩, ⟨true, true⟩, 10⟩,
      .enter true 1 2, .load true, .decide true 20, .call true,
      .enter true 3 4, .load true, .decide true 30, .leave true (.error ()),
      .leave true (.ok true), .finish true (some [65])]
  s.calls = 1 ∧ s.pending = [[65]] ∧ s.finished.map (·.given.toOption) = [none, some true]
  := by decide

end GodmodeTrace

end OpenScumRcon
