import Mathlib.Algebra.Order.Group.Nat
import Mathlib.Logic.Function.Basic
import OpenScumRcon.GodmodeTrace
import OpenScumRcon.Library.ScopedSlot

/-!
# The records of the trace are counted

`Thread.Ok` says what the open calls of a thread have to do with each other and with the pointer
to the record, and `State.Inv` counts the records. A record that is being made and a record that
waits for being saved have both been counted in `calls`. So `start`, which is called when no call
is open and goes on only when no record waits, may count from zero again.
-/

namespace OpenScumRcon

namespace GodmodeTrace

variable {ι E : Type*}

/-! ### The open calls of a thread -/

/-- The handler has been called as often, and with what, as it should have been by now. -/
def Frame.Ok (frame : Frame E) : Prop :=
  match frame.point with
  | .entered | .loaded _ => frame.record = none ∧ frame.invoked = []
  | .begun => frame.record ≠ none ∧ frame.invoked = []
  | .inside => frame.invoked = [(frame.command, frame.args)]
  | .returned result =>
      frame.record ≠ none ∧ frame.invoked = [(frame.command, frame.args)] ∧
        frame.outcome = some (.ok result)

/-- The record to which the call has set the pointer. -/
def Frame.held (frame : Frame E) : Option ℕ :=
  if frame.point = .inside then frame.record else none

/-- How many of the open calls are recorded. -/
def recordings (stack : List (Frame E)) : ℕ :=
  stack.countP (·.record.isSome)

/-- All open calls but the innermost one are in the handler, and one of them at most is recorded.
The pointer is set while that one is in the handler. -/
structure Thread.Ok (thread : Thread E) : Prop where
  frames : ∀ frame ∈ thread.stack, frame.Ok
  below : ∀ frame ∈ thread.stack.tail, frame.point = .inside
  slot : ScopedSlot.Scoped Frame.held thread.stack thread.active
  recordings_le : recordings thread.stack ≤ 1

section Stacks

variable {active : Option ℕ} {frame frame' : Frame E} {rest : List (Frame E)}

theorem Frame.held_of_inside (h : frame.point = .inside) :
  frame.held = frame.record
  := by
  rw [held, if_pos h]

theorem Frame.held_of_ne (h : frame.point ≠ .inside) :
  frame.held = none
  := by
  rw [held, if_neg h]

theorem recordings_cons_of_eq_none (h : frame.record = none) :
  recordings (frame :: rest) = recordings rest
  := by
  rw [recordings, List.countP_cons_of_neg (by simp [h])]
  rfl

theorem recordings_cons_of_ne_none (h : frame.record ≠ none) :
  recordings (frame :: rest) = recordings rest + 1
  := by
  rw [recordings, List.countP_cons_of_pos (by simpa [Option.isSome_iff_ne_none] using h)]
  rfl

theorem recordings_congr (h : frame'.record = frame.record) :
  recordings (frame' :: rest) = recordings (frame :: rest)
  := by
  simp only [recordings, List.countP_cons, h]

theorem recordings_le_cons :
  recordings rest ≤ recordings (frame :: rest)
  := by
  apply List.Sublist.countP_le (List.sublist_cons_self _ _)

/-- While the pointer is null, no call that is in the handler is recorded. -/
theorem recordings_eq_zero (hbelow : ∀ frame ∈ rest, frame.point = .inside)
    (hscoped : ScopedSlot.Scoped Frame.held rest none) :
  recordings rest = 0
  := by
  apply List.countP_eq_zero.mpr
  intro frame hmem
  have hnone : frame.record = none := by
    rw [← Frame.held_of_inside (hbelow frame hmem)]
    apply hscoped.eq_none hmem
  simp [hnone]

theorem Frame.Ok.invoke (h : frame.invoked = []) :
  frame.invoke.Ok
  := by
  simp [Frame.Ok, Frame.invoke, h]

namespace Thread.Ok

theorem empty :
  (⟨none, []⟩ : Thread E).Ok
  := by
  constructor
  · simp
  · simp
  · apply ScopedSlot.scoped_nil_iff.mpr rfl
  · simp [recordings]

/-- A thread that can call the handler has only calls that are in the handler. -/
theorem forall_inside {thread : Thread E} (h : thread.Ok) (hfree : thread.free = true) :
  ∀ frame ∈ thread.stack, frame.point = .inside
  := by
  obtain ⟨active, stack⟩ := thread
  cases stack with
  | nil => simp
  | cons frame rest =>
      rw [List.forall_mem_cons]
      use of_decide_eq_true hfree
      apply h.below

/-- A new call is entered. -/
theorem enter {thread : Thread E} (h : thread.Ok) (hfree : thread.free = true)
    (hframe : frame.Ok) (hpoint : frame.point ≠ .inside) (hrecord : frame.record = none) :
  (⟨thread.active, frame :: thread.stack⟩ : Thread E).Ok
  := by
  constructor
  · rw [List.forall_mem_cons]
    use hframe
    apply h.frames
  · apply h.forall_inside hfree
  · apply (ScopedSlot.scoped_cons_iff_of_eq_none (Frame.held_of_ne hpoint)).mpr h.slot
  · rw [recordings_cons_of_eq_none hrecord]
    apply h.recordings_le

/-- The innermost call makes a step. -/
theorem replace (h : (⟨active, frame :: rest⟩ : Thread E).Ok) (hframe : frame'.Ok)
    {active' : Option ℕ} (hscoped : ScopedSlot.Scoped Frame.held (frame' :: rest) active')
    (hle : recordings (frame' :: rest) ≤ 1) :
  (⟨active', frame' :: rest⟩ : Thread E).Ok
  := by
  constructor
  · rw [List.forall_mem_cons]
    use hframe
    apply (List.forall_mem_cons.mp h.frames).2
  · apply h.below
  · apply hscoped
  · apply hle

/-- The innermost call is over. -/
theorem pop (h : (⟨active, frame :: rest⟩ : Thread E).Ok) {active' : Option ℕ}
    (hscoped : ScopedSlot.Scoped Frame.held rest active') :
  (⟨active', rest⟩ : Thread E).Ok
  := by
  constructor
  · apply (List.forall_mem_cons.mp h.frames).2
  · intro frame' hmem
    apply h.below frame' (List.mem_of_mem_tail hmem)
  · apply hscoped
  · apply recordings_le_cons.trans h.recordings_le

/-- A call that holds no record leaves the pointer to the calls around it. -/
theorem scoped_rest (h : (⟨active, frame :: rest⟩ : Thread E).Ok) (hheld : frame.held = none) :
  ScopedSlot.Scoped Frame.held rest active
  := (ScopedSlot.scoped_cons_iff_of_eq_none hheld).mp h.slot

/-- The calls around a recorded one are not recorded. -/
theorem recordings_rest (h : (⟨active, frame :: rest⟩ : Thread E).Ok) (hrecord : frame.record ≠ none) :
  recordings rest = 0
  := by
  have hle := h.recordings_le
  rw [recordings_cons_of_ne_none hrecord] at hle
  omega

/-- The pointer is null before a recorded call calls the handler and after the handler has
returned. -/
theorem active_eq_none (h : (⟨active, frame :: rest⟩ : Thread E).Ok)
    (hrecord : frame.record ≠ none) (hpoint : frame.point ≠ .inside) :
  active = none
  := by
  have hscoped := h.scoped_rest (Frame.held_of_ne hpoint)
  have hzero := List.countP_eq_zero.mp (h.recordings_rest hrecord)
  have hheld : ∀ frame' ∈ rest, frame'.held = none := by
    intro frame' hmem
    rw [Frame.held_of_inside (h.below frame' hmem)]
    simpa using hzero frame' hmem
  rw [ScopedSlot.Scoped, List.filterMap_eq_nil_iff.mpr hheld] at hscoped
  apply Option.toList_eq_nil_iff.mp hscoped.symm

end Thread.Ok

end Stacks

/-! ### The invariant -/

/-- The call has called the handler once, with its own arguments, and has given its caller what
has come out of that. -/
def FinishedCall.Transparent (call : FinishedCall E) : Prop :=
  call.frame.invoked = [(call.frame.command, call.frame.args)] ∧
    call.frame.outcome = some call.given

namespace State

/-- A call that has read a deadline has read it after a start. -/
def LoadedAfterStart (s : State ι E) (stack : List (Frame E)) : Prop :=
  ∀ frame ∈ stack, ∀ deadline, frame.point = .loaded deadline → deadline ≠ 0 → s.starts ≠ 0

structure Inv (game : ι) (s : State ι E) : Prop where
  threads : ∀ t, (s.threads t).Ok
  loaded : ∀ t, s.LoadedAfterStart (s.threads t).stack
  others : ∀ t ≠ game, recordings (s.threads t).stack = 0
  armed : s.deadline ≠ 0 → s.starts ≠ 0
  gameThread : s.starts ≠ 0 → s.gameThread = game
  pending : s.pending.length + recordings (s.threads game).stack ≤ s.calls
  calls : s.calls = s.recorded.count s.starts
  recorded : ∀ n, s.recorded.count n ≤ maxCalls
  started : ∀ n ∈ s.recorded, n ≠ 0 ∧ n ≤ s.starts
  pushed : s.pushed = s.saved ++ s.pending
  finished : ∀ call ∈ s.finished, call.Transparent

variable {game : ι} {s : State ι E}

/-- The invariant at the start. -/
theorem inv_initial (gameThread : ι) :
  (initial gameThread : State ι E).Inv game
  where
  threads := fun _ => Thread.Ok.empty
  loaded := by simp [LoadedAfterStart, initial]
  others := by simp [recordings, initial]
  armed := fun h => absurd rfl h
  gameThread := fun h => absurd rfl h
  pending := by simp [recordings, initial]
  calls := by simp [initial]
  recorded := by simp [initial]
  started := by simp [initial]
  pushed := rfl
  finished := by simp [initial]

theorem Inv.calls_le (h : s.Inv game) :
  s.calls ≤ maxCalls
  := by
  rw [h.calls]
  apply h.recorded

/-! ### What the game thread does between calls -/

theorem Inv.disarm (h : s.Inv game) :
  { s with deadline := 0 }.Inv game
  := { h with armed := fun hne => absurd rfl hne }

/-- Writing the pending records keeps the invariant. -/
theorem Inv.save (h : s.Inv game) :
  { s with pending := [], saved := s.saved ++ s.pending }.Inv game
  where
  threads := h.threads
  loaded := h.loaded
  others := h.others
  armed := h.armed
  gameThread := h.gameThread
  pending := by
    rw [List.length_nil, Nat.zero_add]
    apply (Nat.le_add_left _ _).trans h.pending
  calls := h.calls
  recorded := h.recorded
  started := h.started
  pushed := by
    rw [List.append_nil]
    apply h.pushed
  finished := h.finished

/-- A tick keeps the invariant, also with a failing file. -/
theorem Inv.tick (h : s.Inv game) (now : UInt64) (file : LogFile) :
  (s.tick now file).Inv game
  := by
  have hdisarm : (if s.deadline ≠ 0 ∧ s.deadline ≤ now then { s with deadline := 0 }
      else s).Inv game := by
    split
    · apply h.disarm
    · apply h
  unfold State.tick
  generalize (if s.deadline ≠ 0 ∧ s.deadline ≤ now then { s with deadline := 0 } else s) = s'
    at hdisarm ⊢
  dsimp only
  split
  · apply hdisarm
  · split
    · apply hdisarm.save
    · apply hdisarm

theorem Inv.stop (h : s.Inv game) (now : UInt64) (file : LogFile) :
  (s.stop now file).Inv game
  := by
  apply h.disarm.tick

theorem Inv.setGameThread (h : s.Inv game) :
  { s with gameThread := game }.Inv game
  := { h with gameThread := fun _ => rfl }

/-- The count starts again when no record is being made and none waits. -/
theorem Inv.arm (h : s.Inv game) (hgame : s.gameThread = game)
    (hstack : (s.threads game).stack = []) (hpending : s.pending = []) (deadline : UInt64) :
  { s with calls := 0, deadline, starts := s.starts + 1 }.Inv game
  where
  threads := h.threads
  loaded := fun _ _ _ _ _ _ => Nat.succ_ne_zero _
  others := h.others
  armed := fun _ => Nat.succ_ne_zero _
  gameThread := fun _ => hgame
  pending := by simp [hstack, hpending, recordings]
  calls := by
    symm
    apply List.count_eq_zero.mpr
    intro hmem
    apply Nat.not_succ_le_self _ (h.started _ hmem).2
  recorded := h.recorded
  started := fun n hmem => ⟨(h.started n hmem).1, Nat.le_succ_of_le (h.started n hmem).2⟩
  pushed := h.pushed
  finished := h.finished

theorem tick_threads (now : UInt64) (file : LogFile) :
  (s.tick now file).threads = s.threads
  := by
  unfold State.tick
  dsimp only
  split_ifs <;> rfl

/-- `start` keeps the invariant, outside of any call. -/
theorem Inv.start (h : s.Inv game) (hstack : (s.threads game).stack = []) (inputs : StartInputs) :
  (s.start game inputs).2.Inv game
  := by
  have htick := h.tick inputs.tickNow inputs.tickFile
  unfold State.start
  split
  · apply h
  · dsimp only
    split
    · apply htick
    · next hpending =>
        split
        · apply htick
        · split
          · apply htick.setGameThread
          · apply htick.setGameThread.arm rfl
            · change ((s.tick _ _).threads game).stack = []
              rw [tick_threads]
              apply hstack
            · apply not_not.mp hpending

/-! ### What a call does to the counts -/

/-- A record is counted before it is begun. -/
theorem Inv.count (h : s.Inv game) (hstarts : s.starts ≠ 0) (hcalls : s.calls < maxCalls) :
  { s with calls := s.calls + 1, recorded := s.starts :: s.recorded }.Inv game
  where
  threads := h.threads
  loaded := h.loaded
  others := h.others
  armed := h.armed
  gameThread := h.gameThread
  pending := Nat.le_succ_of_le h.pending
  calls := by rw [List.count_cons_self, h.calls]
  recorded := by
    intro n
    by_cases heq : n = s.starts
    · rw [heq, List.count_cons_self, ← h.calls]
      apply hcalls
    · rw [List.count_cons_of_ne (Ne.symm heq)]
      apply h.recorded
  started := by
    rw [List.forall_mem_cons]
    use ⟨hstarts, Nat.le_refl _⟩
    apply h.started
  pushed := h.pushed
  finished := h.finished

/-- A complete record waits for being saved. -/
theorem Inv.push (h : s.Inv game) (texts : List Bytes)
    (hroom : s.pending.length + recordings (s.threads game).stack + texts.length ≤ s.calls) :
  { s with pending := s.pending ++ texts, pushed := s.pushed ++ texts }.Inv game
  where
  threads := h.threads
  loaded := h.loaded
  others := h.others
  armed := h.armed
  gameThread := h.gameThread
  pending := by
    rw [List.length_append, Nat.add_right_comm]
    apply hroom
  calls := h.calls
  recorded := h.recorded
  started := h.started
  pushed := by
    rw [h.pushed, List.append_assoc]
  finished := h.finished

/-- A transparent call joins the finished ones. -/
theorem Inv.addFinished (h : s.Inv game) {call : FinishedCall E} (hcall : call.Transparent) :
  { s with finished := s.finished ++ [call] }.Inv game
  where
  threads := h.threads
  loaded := h.loaded
  others := h.others
  armed := h.armed
  gameThread := h.gameThread
  pending := h.pending
  calls := h.calls
  recorded := h.recorded
  started := h.started
  pushed := h.pushed
  finished := by
    intro call' hmem
    rcases List.mem_append.mp hmem with hmem | hmem
    · apply h.finished call' hmem
    · rw [List.mem_singleton.mp hmem]
      apply hcall

/-! ### The steps of a call -/

/-- A call that has loaded a deadline did so after a start. -/
theorem loadedAfterStart_cons {frame : Frame E} {rest : List (Frame E)}
    (hframe : ∀ deadline, frame.point = .loaded deadline → deadline ≠ 0 → s.starts ≠ 0)
    (hrest : s.LoadedAfterStart rest) :
  s.LoadedAfterStart (frame :: rest)
  := List.forall_mem_cons.mpr ⟨hframe, hrest⟩

section Innermost

variable {t : ι} {frame : Frame E} {rest : List (Frame E)}

theorem Inv.ok (h : s.Inv game) (hstack : (s.threads t).stack = frame :: rest) :
  (⟨(s.threads t).active, frame :: rest⟩ : Thread E).Ok
  := by
  rw [← hstack]
  apply h.threads

theorem Inv.frame_ok (h : s.Inv game) (hstack : (s.threads t).stack = frame :: rest) :
  frame.Ok
  := (h.ok hstack).frames frame List.mem_cons_self

theorem Inv.loaded_rest (h : s.Inv game) (hstack : (s.threads t).stack = frame :: rest) :
  s.LoadedAfterStart rest
  := by
  have hloaded := h.loaded t
  rw [hstack] at hloaded
  apply (List.forall_mem_cons.mp hloaded).2

end Innermost

variable [DecidableEq ι] {t : ι}

/-- A step of a call changes its own thread; what has to be shown of the new calls. -/
theorem Inv.setThread (h : s.Inv game) {thread : Thread E} (hok : thread.Ok)
    (hloaded : s.LoadedAfterStart thread.stack)
    (hothers : t ≠ game → recordings thread.stack = 0)
    (hpending : t = game → s.pending.length + recordings thread.stack ≤ s.calls) :
  (s.setThread t thread).Inv game
  where
  threads := (Function.forall_update_iff s.threads fun _ thread => thread.Ok).mpr
    ⟨hok, fun t' _ => h.threads t'⟩
  loaded := (Function.forall_update_iff s.threads fun _ thread =>
    s.LoadedAfterStart thread.stack).mpr ⟨hloaded, fun t' _ => h.loaded t'⟩
  others := (Function.forall_update_iff s.threads fun t' thread =>
    t' ≠ game → recordings thread.stack = 0).mpr ⟨hothers, fun t' _ => h.others t'⟩
  armed := h.armed
  gameThread := h.gameThread
  pending := by
    change s.pending.length + recordings (Function.update s.threads t thread game).stack ≤ s.calls
    by_cases heq : t = game
    · subst heq
      rw [Function.update_self]
      apply hpending rfl
    · rw [Function.update_of_ne (Ne.symm heq)]
      apply h.pending
  calls := h.calls
  recorded := h.recorded
  started := h.started
  pushed := h.pushed
  finished := h.finished

/-- A step of a call that begins no record. -/
theorem Inv.setThread_of_le (h : s.Inv game) {thread : Thread E} (hok : thread.Ok)
    (hloaded : s.LoadedAfterStart thread.stack)
    (hle : recordings thread.stack ≤ recordings (s.threads t).stack) :
  (s.setThread t thread).Inv game
  := by
  apply h.setThread hok hloaded
  · intro hne
    apply Nat.le_zero.mp
    rw [← h.others t hne]
    apply hle
  · rintro rfl
    have hpending := h.pending
    omega

section Innermost

variable {frame frame' : Frame E} {rest : List (Frame E)}

/-- The innermost call makes a step that does not change its record. -/
theorem Inv.replace (h : s.Inv game) (hstack : (s.threads t).stack = frame :: rest)
    (hok : frame'.Ok) (hrecord : frame'.record = frame.record) {active : Option ℕ}
    (hslot : ScopedSlot.Scoped Frame.held (frame' :: rest) active)
    (hframe : ∀ deadline, frame'.point = .loaded deadline → deadline ≠ 0 → s.starts ≠ 0) :
  (s.setThread t ⟨active, frame' :: rest⟩).Inv game
  := by
  have hthread := h.ok hstack
  apply h.setThread_of_le
  · apply hthread.replace hok hslot
    rw [recordings_congr hrecord]
    apply hthread.recordings_le
  · apply loadedAfterStart_cons hframe (h.loaded_rest hstack)
  · rw [hstack, recordings_congr hrecord]

/-- The end of a call. -/
theorem Inv.pop (h : s.Inv game) (hstack : (s.threads t).stack = frame :: rest)
    {active : Option ℕ} (hslot : ScopedSlot.Scoped Frame.held rest active) {given : Except E Bool}
    (htransparent : (FinishedCall.mk frame' given).Transparent) :
  (s.pop t active rest frame' given).Inv game
  := by
  apply (h.addFinished htransparent).setThread_of_le
  · apply (h.ok hstack).pop hslot
  · apply h.loaded_rest hstack
  · change recordings rest ≤ recordings (s.threads t).stack
    rw [hstack]
    apply recordings_le_cons

end Innermost

/-- The beginning of a call. -/
theorem Inv.enter (h : s.Inv game) (command args : UInt64) :
  (s.enter t command args).Inv game
  := by
  unfold State.enter
  dsimp only
  split
  · next hfree =>
      apply h.setThread_of_le
      · apply (h.threads t).enter hfree
        · exact ⟨rfl, rfl⟩
        · simp
        · rfl
      · apply loadedAfterStart_cons _ (h.loaded t)
        rintro deadline ⟨⟩
      · rw [recordings_cons_of_eq_none rfl]
  · apply h

/-- The load of the deadline. -/
theorem Inv.load (h : s.Inv game) :
  (s.load t).Inv game
  := by
  unfold State.load
  split
  · next frame rest hstack =>
      split
      · next hpoint =>
          have hframe := h.frame_ok hstack
          rw [Frame.Ok, hpoint] at hframe
          apply h.replace hstack
          · apply hframe
          · rfl
          · apply (ScopedSlot.scoped_cons_iff_of_eq_none (Frame.held_of_ne (by simp))).mpr
            apply (h.ok hstack).scoped_rest (Frame.held_of_ne (by simp [hpoint]))
          · rintro deadline ⟨⟩
            apply h.armed
      · apply h
  · apply h

/-- A call of which no record is made calls the handler. -/
theorem Inv.passThrough (h : s.Inv game) {frame : Frame E} {rest : List (Frame E)}
    (hstack : (s.threads t).stack = frame :: rest) (hpoint : frame.point ≠ .inside)
    (hrecord : frame.record = none) (hinvoked : frame.invoked = []) :
  (s.setThread t ⟨(s.threads t).active, frame.invoke :: rest⟩).Inv game
  := by
  apply h.replace hstack
  · apply Frame.Ok.invoke hinvoked
  · rfl
  · apply (ScopedSlot.scoped_cons_iff_of_eq_none _).mpr
    · apply (h.ok hstack).scoped_rest (Frame.held_of_ne hpoint)
    · rw [Frame.held_of_inside rfl]
      apply hrecord
  · rintro deadline ⟨⟩

/-- A record is begun while the pointer is null, so no call around is recorded. -/
theorem Inv.capture (h : s.Inv game) {frame : Frame E} {rest : List (Frame E)}
    (hstack : (s.threads t).stack = frame :: rest) (hinvoked : frame.invoked = [])
    (hpoint : frame.point ≠ .inside) (hstarts : s.starts ≠ 0) (hthread : t = s.gameThread)
    (hactive : (s.threads t).active = none) (hcalls : s.calls < maxCalls) :
  ({ s with calls := s.calls + 1, recorded := s.starts :: s.recorded }.setThread t
    ⟨(s.threads t).active,
      { frame with point := .begun, record := some (s.calls + 1) } :: rest⟩).Inv game
  := by
  have hgame : t = game := hthread.trans (h.gameThread hstarts)
  have hok := h.ok hstack
  have hslot := hok.scoped_rest (Frame.held_of_ne hpoint)
  have hrest : recordings rest = 0 := by
    rw [hactive] at hslot
    apply recordings_eq_zero hok.below hslot
  have hone : recordings ({ frame with point := .begun, record := some (s.calls + 1) } :: rest)
      = 1 := by
    rw [recordings_cons_of_ne_none (by simp), hrest]
  apply (h.count hstarts hcalls).setThread
  · apply hok.replace
    · use by simp, hinvoked
    · apply (ScopedSlot.scoped_cons_iff_of_eq_none (Frame.held_of_ne (by simp))).mpr hslot
    · rw [hone]
  · apply loadedAfterStart_cons _ (h.loaded_rest hstack)
    rintro deadline ⟨⟩
  · intro hne
    cases hne hgame
  · intro _
    rw [hone]
    apply Nat.succ_le_succ ((Nat.le_add_right _ _).trans h.pending)

/-- The decision to record. -/
theorem Inv.decide (h : s.Inv game) (now : UInt64) :
  (s.decide t now).Inv game
  := by
  unfold State.decide
  split
  · next frame rest hstack =>
      split
      · next deadline hpoint =>
          have hframe := h.frame_ok hstack
          rw [Frame.Ok, hpoint] at hframe
          have hne : frame.point ≠ .inside := by simp [hpoint]
          split
          · next hcaptures =>
              obtain ⟨hdeadline, _, hthread, hactive, hcalls⟩ := of_decide_eq_true hcaptures
              have hloaded := h.loaded t
              rw [hstack] at hloaded
              apply h.capture hstack hframe.2 hne _ hthread hactive hcalls
              apply hloaded frame List.mem_cons_self deadline hpoint hdeadline
          · apply h.passThrough hstack hne hframe.1 hframe.2
      · apply h
  · apply h

/-- The pointer to the record is set. -/
theorem Inv.call (h : s.Inv game) :
  (s.call t).Inv game
  := by
  unfold State.call
  split
  · next frame rest hstack =>
      split
      · next hpoint =>
          have hframe := h.frame_ok hstack
          rw [Frame.Ok, hpoint] at hframe
          have hok := h.ok hstack
          have hne : frame.point ≠ .inside := by simp [hpoint]
          obtain ⟨id, hid⟩ := Option.ne_none_iff_exists'.mp hframe.1
          apply h.replace hstack
          · apply Frame.Ok.invoke hframe.2
          · rfl
          · rw [hid]
            apply (ScopedSlot.scoped_cons_iff_of_eq_some _).mpr
            · use rfl
              rw [← hok.active_eq_none hframe.1 hne]
              apply hok.scoped_rest (Frame.held_of_ne hne)
            · rw [Frame.held_of_inside rfl]
              apply hid
          · rintro deadline ⟨⟩
      · apply h
  · apply h

/-- The pointer is null again when the handler has returned or thrown. -/
theorem Inv.leave (h : s.Inv game) (outcome : Except E Bool) :
  (s.leave t outcome).Inv game
  := by
  unfold State.leave
  split
  · next frame rest hstack =>
      split
      · next hpoint =>
          have hframe := h.frame_ok hstack
          rw [Frame.Ok, hpoint] at hframe
          have hok := h.ok hstack
          have hheld : frame.held = frame.record := Frame.held_of_inside hpoint
          split
          · next hrecord =>
              apply h.pop hstack
              · apply hok.scoped_rest (hheld.trans hrecord)
              · use hframe
          · next hrecord =>
              apply h.pop hstack
              · apply ((ScopedSlot.scoped_cons_iff_of_eq_some (hheld.trans hrecord)).mp hok.slot).2
              · use hframe
          · next hrecord =>
              apply h.replace hstack
              · use by simp [hrecord], hframe
              · rfl
              · apply (ScopedSlot.scoped_cons_iff_of_eq_none (Frame.held_of_ne (by simp))).mpr
                apply ((ScopedSlot.scoped_cons_iff_of_eq_some (hheld.trans hrecord)).mp hok.slot).2
              · rintro deadline ⟨⟩
      · apply h
  · apply h

/-- A recorded call is on the game thread. -/
theorem Inv.eq_game (h : s.Inv game) {frame : Frame E} {rest : List (Frame E)}
    (hstack : (s.threads t).stack = frame :: rest) (hrecord : frame.record ≠ none) :
  t = game
  := by
  by_contra hne
  have hzero := h.others t hne
  rw [hstack, recordings_cons_of_ne_none hrecord] at hzero
  cases hzero

/-- The record that is complete takes the place of the one that was being made. -/
theorem Inv.finish (h : s.Inv game) (text : Option Bytes) :
  (s.finish t text).Inv game
  := by
  unfold State.finish
  split
  · next frame rest hstack =>
      split
      · next result hpoint =>
          have hframe := h.frame_ok hstack
          rw [Frame.Ok, hpoint] at hframe
          have hok := h.ok hstack
          obtain rfl := h.eq_game hstack hframe.1
          have hpop : (s.pop t (s.threads t).active rest frame (.ok result)).Inv t := by
            apply h.pop hstack
            · apply hok.scoped_rest (Frame.held_of_ne (by simp [hpoint]))
            · apply hframe.2
          have htexts : (text.toList.map (·.take maxText)).length ≤ 1 := by
            rw [List.length_map]
            apply Option.length_toList_le
          have hroom : s.pending.length + 1 ≤ s.calls := by
            have hpending := h.pending
            rw [hstack, recordings_cons_of_ne_none hframe.1] at hpending
            omega
          have hpush := hpop.push (text.toList.map (·.take maxText)) (by
            change s.pending.length + recordings (Function.update s.threads t _ t).stack + _
              ≤ s.calls
            rw [Function.update_self, hok.recordings_rest hframe.1]
            omega)
          dsimp only
          split
          · apply hpush.disarm
          · apply hpush
      · apply h
  · apply h

/-- Every action keeps the invariant. -/
theorem inv_step (h : s.Inv game) (action : Action ι E) :
  (step game s action).Inv game
  := by
  cases action with
  | start inputs =>
      rw [step]
      split
      · next hstack => apply h.start (List.isEmpty_iff.mp hstack)
      · apply h
  | tick now file =>
      rw [step]
      split
      · apply h.tick
      · apply h
  | stop now file =>
      rw [step]
      split
      · apply h.stop
      · apply h
  | enter t command args => apply h.enter
  | load t => apply h.load
  | decide t now => apply h.decide
  | call t => apply h.call
  | leave t outcome => apply h.leave
  | finish t text => apply h.finish

end State

variable [DecidableEq ι]

theorem inv_run (game gameThread : ι) (actions : List (Action ι E)) :
  (run game gameThread actions).Inv game
  := by
  apply Transition.run_invariant (P := State.Inv game) (fun _ action h => State.inv_step h action)
  apply State.inv_initial

end GodmodeTrace

end OpenScumRcon
