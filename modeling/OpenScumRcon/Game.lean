import OpenScumRcon.ResponseCapture
import OpenScumRcon.World

/-!
# The state of the game

The state on which the commands act: the world, the scopes of replies of the game thread, and
the variables the dispatchers keep in the process. The calls of native handlers are recorded,
for the theorems only.
-/

namespace OpenScumRcon

/-- A call of a native handler: the function, the command object and the arguments it was
given, and whether it raised an exception. -/
structure Invocation where
  function : ℕ
  command : ℕ
  arguments : List WideString
  raised : Bool
  deriving DecidableEq

/-- What a call into the engine leaves behind, and the calls of the response method on its
way. -/
structure NativeEffect where
  world : World
  replies : List (ResponseCall × MessageMemory) := []

/-- What the functions of the engine do when they are called. Nothing is assumed of it. -/
structure Engine where
  /-- A new object of a class with an outer object, and the world that holds it. -/
  newObject : World → ℕ → ℕ → ℕ × World
  /-- The interface of an object for a class, or null. -/
  getInterface : World → ℕ → ℕ → ℕ
  /-- A native handler on a command object and its arguments. There is no result when it raises
  a structured exception. -/
  execute : World → ℕ → ℕ → List WideString → NativeEffect × Option Bool
  /-- The check of the chat on a command object and a controller, with its reason. -/
  canExecute : World → ℕ → ℕ → ℕ → (Bool × WideString) × World
  /-- The handler of the mode on a command object and its argument. -/
  setGodMode : World → ℕ → ℕ → WideString → NativeEffect × Bool
  /-- The address of the scope of the reply on the stack. -/
  scope : ℕ

structure Game where
  world : World
  nativeFaulted : Bool := false
  addressFaulted : Bool := false
  signaturesOk : Bool := false
  capture : ResponseCapture Unit := {}
  invocations : List Invocation := []

/-- The scope of the reply to a command has been constructed, a handler has had its effect, and
the scope, which is returned, has been destroyed. -/
def Game.respond (s : Game) (scope command : ℕ) (effect : NativeEffect) : ResponseScope × Game :=
  let capture := s.capture.step (.construct () scope command)
  let capture := Transition.run ResponseCapture.step capture
    (effect.replies.map fun reply => .receive () reply.1 reply.2)
  ((capture.scopes scope).getD { previous := s.capture.current (), command },
    { s with world := effect.world, capture := capture.step (.destruct () scope) })

end OpenScumRcon
