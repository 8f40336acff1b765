import OpenScumRcon.Library.LinkedStack
import OpenScumRcon.Library.Transition
import OpenScumRcon.ResponseScope
import OpenScumRcon.WideStrings

/-!
# The capture of replies

The scopes of each thread form a stack, linked by the pointers `previous` from `current`
down. The hook behind the response method of the game gives a message to the innermost scope
of the calling thread when that is the scope of the same command, and calls the original
method otherwise. What reading the memory of the message gives, and which allocations
succeed, comes with every call.
-/

namespace OpenScumRcon

variable {ι : Type} [DecidableEq ι]

/-- A call of the response method, with all its arguments. -/
structure ResponseCall where
  command : ℕ
  message : ℕ
  flag1 : Bool
  flag2 : Bool

/-- The head of a string of the game. -/
structure StringHeader where
  data : ℕ
  num : Int32
  capacity : Int32

/-- What a call of the response method meets: the header behind its message, if it can be
read, the units behind the header that can be read, and the allocations. -/
structure MessageMemory where
  header : Option StringHeader := none
  units : List UInt16 := []
  allocations : Allocations := {}

/-! ### Reading the message -/

/-- Control characters, and what would end a string, become spaces. -/
def cleanUnit (c : UInt16) : UInt16 :=
  if c = 0 ∨ (c < 32 ∧ c ≠ 10 ∧ c ≠ 13 ∧ c ≠ 9) then 32 else c

/-- The text of a message of so many units, behind the bounded prefix that has been read. A
trailing NUL is left out, and so is the first half of a pair that the prefix has cut. -/
def messageText (num : ℕ) (wide : List UInt16) : Option Bytes :=
  let n := wide.length
  let wide := if n = num ∧ wide.getLast? = some 0 then wide.dropLast else wide
  let wide := if n < num ∧ ∃ c ∈ wide.getLast?, Utf16.IsHigh c then wide.dropLast else wide
  wideCharToMultiByte (wide.map cleanUnit)

/-- The text of the message. There is none when it cannot be read or converted, or an
allocation throws. -/
def readMessage (message : ℕ) (memory : MessageMemory) : Option Bytes :=
  match memory.header with
  | none => none
  | some header =>
      if message = 0 ∨ header.num < 0 ∨ 1048576 < header.num ∨ header.capacity < header.num ∨
          (header.num ≠ 0 ∧ header.data = 0) then none
      else if header.num = 0 then some []
      else
        let n := min header.num.toInt.toNat 65538
        if !memory.allocations.wide ∨ memory.units.length < n then none
        else
          match messageText header.num.toInt.toNat (memory.units.take n) with
          | none => none
          | some text => if text ≠ [] ∧ !memory.allocations.text then none else some text

/-! ### The scopes of the threads -/

/-- The scopes that live, the innermost one of each thread, and the calls of the original
method so far. -/
structure ResponseCapture (ι : Type) where
  scopes : ℕ → Option ResponseScope := fun _ => none
  current : ι → Option ℕ := fun _ => none
  originals : List (ι × ResponseCall) := []

inductive ScopeAction (ι : Type) where
  /-- The thread constructs a scope. -/
  | construct (t : ι) (scope command : ℕ)
  /-- The thread destroys a scope, also when an exception leaves its block. -/
  | destruct (t : ι) (scope : ℕ)
  /-- The thread calls the response method. -/
  | receive (t : ι) (call : ResponseCall) (memory : MessageMemory)

namespace ResponseCapture

/-- The scope that `current` points to. -/
def innermost (s : ResponseCapture ι) (t : ι) : Option (ℕ × ResponseScope) :=
  match s.current t with
  | none => none
  | some i => (s.scopes i).map fun scope => (i, scope)

def setScope (s : ResponseCapture ι) (i : ℕ) (scope : ResponseScope) : ResponseCapture ι :=
  { s with scopes := Function.update s.scopes i (some scope) }

/-- `ResponseScope::matches` -/
def doesMatch (s : ResponseCapture ι) (t : ι) (key : ℕ) : Bool :=
  match s.innermost t with
  | none => false
  | some (_, scope) => key ≠ 0 && scope.command == key

/-- `ResponseScope::failure` -/
def failure (s : ResponseCapture ι) (t : ι) : ResponseCapture ι :=
  match s.innermost t with
  | none => s
  | some (i, scope) => s.setScope i { scope with failed := true }

/-- `ResponseScope::accept` -/
def accept (s : ResponseCapture ι) (t : ι) (key : ℕ) (text : Bytes) (allocations : Allocations) :
    Bool × ResponseCapture ι :=
  if !s.doesMatch t key then (false, s)
  else
    match s.innermost t with
    | none => (false, s)
    | some (i, scope) => (true, s.setScope i (scope.accept text allocations))

/-- The hook. -/
def receive (s : ResponseCapture ι) (t : ι) (call : ResponseCall) (memory : MessageMemory) :
    ResponseCapture ι :=
  if !s.doesMatch t call.command then { s with originals := s.originals ++ [(t, call)] }
  else
    match readMessage call.message memory with
    | none => s.failure t
    | some text => (s.accept t call.command text memory.allocations).2

def step (s : ResponseCapture ι) : ScopeAction ι → ResponseCapture ι
  | .construct t i command =>
      { s with
        scopes := Function.update s.scopes i (some { previous := s.current t, command })
        current := Function.update s.current t (some i) }
  | .destruct t i =>
      { s with
        scopes := Function.update s.scopes i none
        current := Function.update s.current t ((s.scopes i).bind ResponseScope.previous) }
  | .receive t call memory => s.receive t call memory

/-- The scopes after a list of steps from the start of the process. -/
def reached (actions : List (ScopeAction ι)) : ResponseCapture ι :=
  Transition.run step {} actions

end ResponseCapture

end OpenScumRcon
