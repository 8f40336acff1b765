import Mathlib.Data.List.Infix
import OpenScumRcon.GodmodeDispatch
import OpenScumRcon.LiveQuery
import OpenScumRcon.NativeExecution

/-!
# The routes of the game

The routes of `dispatchCommand` as they act on the game.
-/

namespace OpenScumRcon

/-- A `bool` as a stream writes it. -/
def boolDigit (b : Bool) : Bytes :=
  if b then ascii "1" else ascii "0"

/-- The line of a command in the catalogue. -/
def catalogueLine (c : Command) : Bytes :=
  field c.verb ++ ascii " | required=" ++ decimal c.required ++ ascii " declared="
    ++ decimal c.declared ++ ascii " repeating=" ++ decimal c.repeating ++ ascii " enabled="
    ++ boolDigit c.enabled ++ ascii " shipping=" ++ boolDigit c.shipping ++ ascii " server="
    ++ boolDigit c.server ++ ascii " | "
    ++ (if c.unsupported = [] then ascii "native_candidate" else c.unsupported)
    ++ [Byte.lineFeed]

def catalogue (w : World) (filter : Bytes) : Except Thrown Bytes := do
  let entries ← w.commands
  let found := entries.filter fun c => filter = [] || filter <:+: lowerAscii c.verb
  pure (found.flatMap catalogueLine ++ ascii "commands=" ++ decimal found.length
    ++ ascii " total=" ++ decimal entries.length ++ ascii " capture=" ++ boolDigit w.captureReady
    ++ ascii " build=" ++ boolDigit w.supportedBuild
    ++ ascii ("\nNative candidates require an explicit connected executor; "
      ++ "individual commands are not all live-tested."))

/-- What the routes do with an accepted request. -/
def nativeRoutes (engine : Engine) : Routes Game where
  godmode := Godmode.act engine
  listPlayers := listPlayers
  weather timeOnly := do
    let s ← get
    GameM.ofExcept (OpenScumRcon.weather s.world s.world.floatBits s.world.ties timeOnly)
  catalogue filter := do
    let s ← get
    GameM.ofExcept (catalogue s.world filter)
  execute := execute engine

end OpenScumRcon
