import OpenScumRcon.AdminDispatch
import OpenScumRcon.Game
import OpenScumRcon.PlayerList

/-!
# The GodMode route

What the route does with an accepted request: it finds the player, checks the class of the
command and a new object of it, calls the handler and compares the state of the player before
and after.
-/

namespace OpenScumRcon.Godmode

/-! ### The signatures -/

def canExecuteRva : ℕ := 0x18c7b60

def executeRva : ℕ := 0x18e6530

/-- The first bytes of the function behind `canExecuteRva` in the supported build. -/
def permission : Bytes :=
  [0x40, 0x53, 0x55, 0x56, 0x57, 0x41, 0x57, 0x48, 0x83, 0xec, 0x40, 0x48, 0x8b, 0x05, 0x66]

/-- `initialize` -/
def initializeSignatures : GameM Game Bool := do
  let s ← get
  let ok := s.world.supportedBuild &&
    s.world.read (s.world.moduleBase + canExecuteRva) 15 = some permission
  set { s with signaturesOk := ok }
  pure ok

/-! ### The player -/

/-- The text of a C string of wide characters. -/
def utf8 (value : WideString) : Bytes :=
  wideCharToMultiByteLossy (value.takeWhile (· ≠ 0))

structure Player where
  controller : ℕ
  pawn : ℕ
  god : ℕ
  immortal : ℕ

/-- A live controller with a live connection whose SteamID is the one that is looked for. -/
def isPlayer (w : World) (id : Bytes) (object : ℕ) : Bool :=
  w.valid object && w.isA object w.playerController && w.live object
    && w.live (w.objectProperty object "NetConnection")
    && utf8 (w.callString w.getUserId object) = id

def playerOf (w : World) (controller : ℕ) : Except Bytes Player :=
  let pawn := w.objectProperty controller "Pawn"
  let god := w.property pawn "_isInGodMode" .bool
  let immortal := w.property pawn "_isImmortal" .bool
  if !w.live pawn || !w.isA pawn w.prisonerClass then
    .error (ascii "target has no live Prisoner pawn")
  else if god = 0 ∨ immortal = 0 then .error (ascii "admin-state reflection unavailable")
  else .ok { controller, pawn, god, immortal }

def findPlayer (w : World) (id : Bytes) : Except Bytes Player :=
  if w.playerController = 0 ∨ w.prisonerClass = 0 ∨ w.getUserId = 0 ∨
      w.parmsSize w.getUserId ≠ 16 then
    .error (ascii "player reflection unavailable or signature mismatch")
  else
    match w.objects.filter (isPlayer w id) with
    | [] => .error (ascii "target SteamID is not connected")
    | [controller] => playerOf w controller
    | _ => .error (ascii "ambiguous connected SteamID")

def boolText (b : Bool) : Bytes :=
  if b then ascii "true" else ascii "false"

def state (w : World) (player : Player) : Bytes :=
  ascii "godmode=" ++ boolText (w.boolValue player.god player.pawn)
    ++ ascii " immortal=" ++ boolText (w.boolValue player.immortal player.pawn)

/-! ### The command -/

def commandClass (w : World) : ℕ :=
  w.staticFindObject "/Game/ConZ_Files/AdminCommands/SetGodMode.SetGodMode_C"

def nativeClass (w : World) : ℕ :=
  w.staticFindObject "/Script/SCUM.AdminCommand_SetGodMode"

def expectedVtable (w : World) (object : ℕ) : Bool :=
  w.valid object && w.slot object 0x280 = w.moduleBase + canExecuteRva
    && w.slot object 0x288 = w.moduleBase + executeRva

/-- The class of the command is there, and its default object has the expected functions. -/
def hasClass (w : World) : Bool :=
  w.valid (commandClass w) && nativeClass w ≠ 0 && w.isChildOf (commandClass w) (nativeClass w)

def hasDefaultObject (w : World) : Bool :=
  expectedVtable w (w.classDefaultObject (commandClass w))
    && w.classDefault (w.classDefaultObject (commandClass w))

def validInstance (w : World) (cls controller object : ℕ) : Bool :=
  w.live object && w.classPrivate object = cls && w.outerPrivate object = controller
    && expectedVtable w object

/-! ### The handler -/

/-- The reply after the handler has returned, with the world before and after the call. -/
def verifyReply (request : Request) (player : Player) (w w' : World) (result : Bool)
    (capture : ResponseScope) : Bytes :=
  if !w'.live player.pawn || w'.objectProperty player.controller "Pawn" ≠ player.pawn then
    ascii "error: target pawn changed during native GodMode execution; verify player state"
  else if !result || w'.boolValue player.god player.pawn ≠ request.enabled ||
      w'.boolValue player.immortal player.pawn ≠ w.boolValue player.immortal player.pawn then
    ascii "error: native GodMode result/state verification failed; " ++ state w' player
  else
    ascii "ok: native SetGodMode verified; steam_id=" ++ request.steamId ++ ascii " "
      ++ state w' player
      ++ (if capture.output = [] then [] else Byte.lineFeed :: capture.output)
      ++ (if capture.failed then
          ascii "\nwarning: state verified but native reply capture failed" else [])
      ++ (if capture.cut then ascii "\n[response truncated]" else [])

def callHandler (engine : Engine) (request : Request) (player : Player) (object : ℕ) :
    GameM Game Bytes := do
  let s ← get
  let w := s.world
  if !w.captureReady || w.slot object 0x290 ≠ w.captureFunction then
    pure (ascii "error: native response capture unavailable; GodMode was not executed")
  else
    let value := (boolText request.enabled).map fun c => UInt16.ofNat c.toNat
    let function := w.slot object 0x288
    let (effect, result) := engine.setGodMode w function object value
    let (capture, s') := s.respond engine.scope object effect
    let invocation : Invocation :=
      { function, command := object, arguments := [value], raised := false }
    set { s' with invocations := s.invocations ++ [invocation] }
    pure (verifyReply request player w effect.world result capture)

/-- What the chat would have said to the command. -/
def chatDiagnostic (engine : Engine) (player : Player) : GameM Game Bytes := do
  let s ← get
  let cdo := s.world.classDefaultObject (commandClass s.world)
  let ((allowed, reason), w) :=
    engine.canExecute s.world (s.world.slot cdo 0x280) cdo player.controller
  set { s with world := w }
  pure (ascii " chat_can_execute=" ++ boolText allowed
    ++ (if allowed then [] else ascii " chat_reason=" ++ utf8 reason))

/-- Only a request to prepare the command asks what the chat would have said. -/
def diagnosticOf (engine : Engine) (request : Request) (player : Player) : GameM Game Bytes :=
  if request.action = .prepare then chatDiagnostic engine player else pure []

/-- The part of the route behind the checks of the class. -/
def construct (engine : Engine) (request : Request) (player : Player) (cls : ℕ) (before : Bytes) :
    GameM Game Bytes := do
  let diagnostic ← diagnosticOf engine request player
  let s ← get
  let (object, w) := engine.newObject s.world player.controller cls
  set { s with world := w }
  if !validInstance w cls player.controller object then
    pure (ascii "error: constructed GodMode instance failed validation")
  else if request.action = .prepare then
    pure (ascii ("ok: prepared SetGodMode_C; authority=authenticated_rcon "
      ++ "outer=target_controller steam_id=") ++ request.steamId ++ ascii " " ++ before
      ++ diagnostic ++ ascii " executed=false")
  else callHandler engine request player object

/-- The route, for a request to read, prepare or set the mode. -/
def act (engine : Engine) (request : Request) : GameM Game Bytes := do
  let s ← get
  let w := s.world
  if !s.signaturesOk then
    pure (ascii "error: native GodMode disabled: unsupported SCUM build/signature")
  else
    match findPlayer w request.steamId with
    | .error error => pure (ascii "error: " ++ error)
    | .ok player =>
        let before := state w player
        if request.action = .state then
          pure (ascii "ok: steam_id=" ++ request.steamId ++ ascii " " ++ before)
        else if !hasClass w then
          pure (ascii "error: SetGodMode blueprint class unavailable")
        else if !hasDefaultObject w then
          pure (ascii "error: SetGodMode CDO/vtable mismatch")
        else construct engine request player (commandClass w) before

end OpenScumRcon.Godmode
