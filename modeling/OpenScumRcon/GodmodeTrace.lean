import OpenScumRcon.Bytes
import OpenScumRcon.Library.Transition

/-!
# The trace of the god mode command

A detour calls `captureExecute` in place of the handler of the god mode command. It calls the
handler, and for some calls it also makes a record. The game thread starts and stops this, and
saves the records in its ticks.

Calls of `captureExecute` are open on any thread and inside each other: a call of the handler
may lead to the next one. They make their steps in any order. The other threads only read
`deadline` and `gameThread`, so what the game thread does between two steps of theirs is one
step. What is read of the clock, what becomes of the log file, what the observer can make out
and what the handler does is up to the actions. `E` are the exceptions of the handler.
-/

namespace OpenScumRcon

namespace GodmodeTrace

/-! ### The calls -/

def maxCalls : ℕ :=
  4

def windowMs : UInt64 :=
  120000

/-- The longest text that is kept of a record. -/
def maxText : ℕ :=
  65536

/-- How far a call of `captureExecute` has come. -/
inductive Point where
  /-- It has not read the deadline yet. -/
  | entered
  /-- It has read the deadline. -/
  | loaded (deadline : UInt64)
  /-- It makes a record, and has not called the handler yet. -/
  | begun
  /-- It is in the handler. -/
  | inside
  /-- The handler has returned, and the record is not complete yet. -/
  | returned (result : Bool)
  deriving DecidableEq

/-- An open call of `captureExecute`: its arguments, its record, with which arguments it has
called the handler, and what has come out of that. -/
structure Frame (E : Type*) where
  command : UInt64
  args : UInt64
  point : Point
  record : Option ℕ
  invoked : List (UInt64 × UInt64)
  outcome : Option (Except E Bool)

/-- A call of `captureExecute` that is over, and what its caller has got from it. -/
structure FinishedCall (E : Type*) where
  frame : Frame E
  given : Except E Bool

/-- A thread: the pointer to the record that is being made, and its open calls, the innermost
one first. -/
structure Thread (E : Type*) where
  active : Option ℕ
  stack : List (Frame E)

/-- What becomes of an attempt to write to the log file. -/
structure LogFile where
  opens : Bool
  writes : Bool

/-! ### The state -/

/-- The variables of the trace, and what has happened so far: the texts of the records that have
been made and of those that have been saved, for each call that is recorded how often the trace
had been started, and the calls that are over. -/
structure State (ι E : Type*) where
  gameThread : ι
  deadline : UInt64
  calls : ℕ
  pending : List Bytes
  threads : ι → Thread E
  starts : ℕ
  recorded : List ℕ
  pushed : List Bytes
  saved : List Bytes
  finished : List (FinishedCall E)

/-- What `start` finds: whether the hooks are there, the clock and the log file of its tick, and
its own log file and clock. -/
structure StartInputs where
  hookOk : Bool
  interfaceHookOk : Bool
  tickNow : UInt64
  tickFile : LogFile
  file : LogFile
  now : UInt64

inductive Action (ι E : Type*) where
  | start (inputs : StartInputs)
  | tick (now : UInt64) (file : LogFile)
  | stop (now : UInt64) (file : LogFile)
  | enter (t : ι) (command args : UInt64)
  | load (t : ι)
  | decide (t : ι) (now : UInt64)
  | call (t : ι)
  | leave (t : ι) (outcome : Except E Bool)
  | finish (t : ι) (text : Option Bytes)

variable {ι E : Type*}

/-- Before the first start, with the thread that has installed the hooks. -/
def State.initial (gameThread : ι) : State ι E where
  gameThread := gameThread
  deadline := 0
  calls := 0
  pending := []
  threads := fun _ => { active := none, stack := [] }
  starts := 0
  recorded := []
  pushed := []
  saved := []
  finished := []

/-! ### Start, tick and stop -/

namespace State

def tick (now : UInt64) (file : LogFile) (s : State ι E) : State ι E :=
  let s := if s.deadline ≠ 0 ∧ s.deadline ≤ now then { s with deadline := 0 } else s
  if s.pending = [] then s
  else if file.opens && file.writes then
    { s with pending := [], saved := s.saved ++ s.pending }
  else s

/-- The reply of `start`, and the state. -/
def start (game : ι) (inputs : StartInputs) (s : State ι E) : Bytes × State ι E :=
  if !inputs.hookOk || !inputs.interfaceHookOk then
    (ascii "error: GodMode trace hooks unavailable/build mismatch", s)
  else
    let s := s.tick inputs.tickNow inputs.tickFile
    if s.pending ≠ [] then (ascii "error: previous trace could not be saved", s)
    else if !inputs.file.opens then (ascii "error: trace log cannot be opened", s)
    else
      let s := { s with gameThread := game }
      if !inputs.file.writes then (ascii "error: trace log cannot be written", s)
      else
        (ascii "ok: GodMode trace armed for 120 seconds / 4 calls",
          { s with calls := 0, deadline := inputs.now + windowMs, starts := s.starts + 1 })

def stop (now : UInt64) (file : LogFile) (s : State ι E) : State ι E :=
  tick now file { s with deadline := 0 }

end State

/-! ### The steps of `captureExecute` -/

/-- The call of the handler. -/
def Frame.invoke (frame : Frame E) : Frame E :=
  { frame with
    point := .inside
    invoked := frame.invoked ++ [(frame.command, frame.args)] }

/-- A thread can call the handler when it is in no call of `captureExecute`, or when it is in the
handler. -/
def Thread.free (thread : Thread E) : Bool :=
  match thread.stack with
  | [] => true
  | frame :: _ => frame.point = .inside

namespace State

variable [DecidableEq ι]

def setThread (s : State ι E) (t : ι) (thread : Thread E) : State ι E :=
  { s with threads := Function.update s.threads t thread }

def enter (t : ι) (command args : UInt64) (s : State ι E) : State ι E :=
  let thread := s.threads t
  if thread.free then
    s.setThread t { thread with
      stack := ⟨command, args, .entered, none, [], none⟩ :: thread.stack }
  else s

def load (t : ι) (s : State ι E) : State ι E :=
  match (s.threads t).stack with
  | frame :: rest =>
      if frame.point = .entered then
        s.setThread t { s.threads t with
          stack := { frame with point := .loaded s.deadline } :: rest }
      else s
  | [] => s

/-- Whether a record is made of a call on the thread. -/
def captures (s : State ι E) (t : ι) (deadline now : UInt64) : Bool :=
  deadline ≠ 0 ∧ now < deadline ∧ t = s.gameThread ∧ (s.threads t).active = none ∧
    s.calls < maxCalls

def decide (t : ι) (now : UInt64) (s : State ι E) : State ι E :=
  match (s.threads t).stack with
  | frame :: rest =>
      match frame.point with
      | .loaded deadline =>
          if s.captures t deadline now then
            { s with calls := s.calls + 1, recorded := s.starts :: s.recorded }.setThread t
              { s.threads t with
                stack := { frame with point := .begun, record := some (s.calls + 1) } :: rest }
          else
            s.setThread t { s.threads t with stack := frame.invoke :: rest }
      | _ => s
  | [] => s

def call (t : ι) (s : State ι E) : State ι E :=
  match (s.threads t).stack with
  | frame :: rest =>
      if frame.point = .begun then
        s.setThread t { active := frame.record, stack := frame.invoke :: rest }
      else s
  | [] => s

/-- The innermost call of the thread is over. -/
def pop (s : State ι E) (t : ι) (active : Option ℕ) (rest : List (Frame E)) (frame : Frame E)
    (given : Except E Bool) : State ι E :=
  { s with finished := s.finished ++ [FinishedCall.mk frame given] }.setThread t
    { active, stack := rest }

/-- The handler returns or throws. Without a record this is all. With one the pointer to it is
reset, also by an exception. -/
def leave (t : ι) (outcome : Except E Bool) (s : State ι E) : State ι E :=
  match (s.threads t).stack with
  | frame :: rest =>
      if frame.point = .inside then
        match frame.record, outcome with
        | none, _ =>
            s.pop t (s.threads t).active rest { frame with outcome := some outcome } outcome
        | some _, .error _ =>
            s.pop t none rest { frame with outcome := some outcome } outcome
        | some _, .ok result =>
            s.setThread t
              { active := none
                stack := { frame with
                  point := .returned result
                  outcome := some outcome } :: rest }
      else s
  | [] => s

/-- The record is completed, if the observer does not fail, and the call returns. -/
def finish (t : ι) (text : Option Bytes) (s : State ι E) : State ι E :=
  match (s.threads t).stack with
  | frame :: rest =>
      match frame.point with
      | .returned result =>
          let texts := text.toList.map (·.take maxText)
          let s := { s with pending := s.pending ++ texts, pushed := s.pushed ++ texts }
          let s := if maxCalls ≤ s.calls then { s with deadline := 0 } else s
          s.pop t (s.threads t).active rest frame (.ok result)
      | _ => s
  | [] => s

end State

/-! ### The runs -/

variable [DecidableEq ι]

/-- The game thread does not start, stop or tick from inside a call of the handler. -/
def step (game : ι) (s : State ι E) : Action ι E → State ι E
  | .start inputs => if (s.threads game).stack.isEmpty then (s.start game inputs).2 else s
  | .tick now file => if (s.threads game).stack.isEmpty then s.tick now file else s
  | .stop now file => if (s.threads game).stack.isEmpty then s.stop now file else s
  | .enter t command args => s.enter t command args
  | .load t => s.load t
  | .decide t now => s.decide t now
  | .call t => s.call t
  | .leave t outcome => s.leave t outcome
  | .finish t text => s.finish t text

/-- The state after some actions. -/
def run (game gameThread : ι) (actions : List (Action ι E)) : State ι E :=
  Transition.run (step game) (State.initial gameThread) actions

end GodmodeTrace

end OpenScumRcon
