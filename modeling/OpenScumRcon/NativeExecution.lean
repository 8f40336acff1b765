import OpenScumRcon.CommandRegistry
import OpenScumRcon.ConnectedPlayers
import OpenScumRcon.DispatchRequest
import OpenScumRcon.Game
import OpenScumRcon.PlayerList

/-!
# Native execution

`execute` runs a registered command of the game for a connected player. It calls the native
handler of the command once everything it knows of has been checked, and never again after a
handler has raised an exception.
-/

namespace OpenScumRcon

/-! ### The checks -/

def nativeDisabled : Bytes :=
  ascii "error: native dispatch disabled after an exception; restart required"

def dispatcherDisabled : Bytes :=
  ascii "error: native dispatcher disabled: unsupported build or response hook unavailable"

/-- The loop over the commands for the one with a verb. -/
def selectCommand (wanted : Bytes) : List Command → Option Command → Except Bytes Command
  | [], none => .error (ascii "error: command not found in SCUM registry; use !commands")
  | [], some command => .ok command
  | c :: rest, command =>
      if lowerAscii c.verb = wanted then
        if command.isSome then .error (ascii "error: ambiguous registered command")
        else selectCommand wanted rest (some c)
      else selectCommand wanted rest command

/-- The number of arguments does not fit the command. The remainder is that of C++, whose sign
is that of the dividend. -/
def countMismatch (command : Command) (count : ℤ) : Bool :=
  count < command.required || (command.repeating = 0 && command.declared < count) ||
    (command.repeating ≠ 0 && command.declared < count &&
      (count - command.declared).tmod command.repeating ≠ 0)

def mismatchReply (command : Command) : Bytes :=
  ascii "error: argument count mismatch; required=" ++ decimal command.required
    ++ ascii " declared=" ++ decimal command.declared
    ++ ascii " repeating=" ++ decimal command.repeating

/-- The controller of the last player with the SteamID, or null. -/
def findController (players : List Player) (steamId : Bytes) : ℕ :=
  players.foldl (fun controller p => if p.id = steamId then p.controller else controller) 0

namespace World

/-- The pawn of the controller is a live Prisoner. -/
def hasPrisoner (w : World) (controller : ℕ) : Bool :=
  w.prisonerClass ≠ 0 && w.live (w.objectProperty controller "Pawn")
    && w.isA (w.objectProperty controller "Pawn") w.prisonerClass

def executorClass (w : World) : ℕ :=
  w.staticFindObject "/Script/SCUM.AdminCommandExecutor"

end World

/-- What a request asks the game to do. -/
structure Target where
  command : Command
  controller : ℕ
  arguments : List WideString

/-- The first part of `execute`, which only reads: what to do, or the reply that says why
not. -/
def selectTarget (engine : Engine) (w : World) (request : DispatchRequest) :
    Except Thrown (Except Bytes Target) := do
  let entries ← w.commands
  match selectCommand (lowerAscii request.verb) entries none with
  | .error reply => pure (.error reply)
  | .ok command =>
      if command.unsupported ≠ [] then
        pure (.error (ascii "error: command unavailable: " ++ command.unsupported))
      else if countMismatch command (Int32.ofNat request.arguments.length).toInt then
        pure (.error (mismatchReply command))
      else
        let players ← w.connectedPlayers
        let controller := findController players request.steamId
        if controller = 0 then pure (.error (ascii "error: target SteamID is not connected"))
        else if !w.hasPrisoner controller then
          pure (.error (ascii "error: target has no live Prisoner pawn"))
        else if w.executorClass = 0 ∨ engine.getInterface w controller w.executorClass = 0 then
          pure (.error (ascii "error: target does not implement AdminCommandExecutor"))
        else
          let arguments ← request.arguments.mapM wide
          pure (.ok { command, controller, arguments })

/-! ### The call -/

/-- The new command object is what has been asked for, with the functions of the default object
of its class. -/
def validInstance (w : World) (target : Target) (object : ℕ) : Bool :=
  w.live object && w.classPrivate object = target.command.cls
    && w.outerPrivate object = target.controller
    && w.slot object 0x288 = w.slot target.command.cdo 0x288
    && w.slot object 0x290 = w.captureFunction

def raisedReply : Bytes :=
  ascii ("error: native command raised an exception; execution status unknown; "
    ++ "dispatch disabled until restart")

/-- The reply after a handler has returned. -/
def composeReply (result : Bool) (capture : ResponseScope) : Bytes :=
  let reply := if result then [] else ascii "error: native command returned false"
  let reply := if capture.output = [] then reply
    else reply ++ (if reply = [] then [] else [Byte.lineFeed]) ++ capture.output
  let reply := if capture.failed then reply
      ++ ascii ("\nerror: command completed but reply capture failed; "
        ++ "do not retry without checking state")
    else reply
  let reply := if capture.cut then reply ++ ascii "\n[response truncated]" else reply
  if reply = [] then ascii "ok: native command returned true; no synchronous SCUM response"
  else reply

/-- The reply after a handler has returned or raised an exception. -/
def nativeReply (result : Option Bool) (capture : ResponseScope) : Bytes :=
  match result with
  | none => raisedReply
  | some result => composeReply result capture

/-- The second part of `execute`, which acts. -/
def invokeTarget (engine : Engine) (target : Target) : GameM Game Bytes := do
  let s ← get
  let (object, w) := engine.newObject s.world target.controller target.command.cls
  if !validInstance w target object then
    set { s with world := w }
    pure (ascii "error: native command instance validation failed")
  else
    let function := w.slot object 0x288
    let (effect, result) := engine.execute w function object target.arguments
    let (capture, s) := s.respond engine.scope object effect
    let invocation : Invocation :=
      { function, command := object, arguments := target.arguments, raised := result.isNone }
    set { s with
      invocations := s.invocations ++ [invocation]
      nativeFaulted := s.nativeFaulted || result.isNone }
    pure (nativeReply result capture)

def execute (engine : Engine) (request : DispatchRequest) : GameM Game Bytes := do
  let s ← get
  if s.nativeFaulted then pure nativeDisabled
  else if !s.world.supportedBuild || !s.world.captureReady then pure dispatcherDisabled
  else
    match ← GameM.ofExcept (selectTarget engine s.world request) with
    | .error reply => pure reply
    | .ok target => invokeTarget engine target

end OpenScumRcon
