import OpenScumRcon.Config
import OpenScumRcon.Diagnostics
import OpenScumRcon.Routing

/-!
# Start-up

`on_unreal_init` resolves what the dispatcher needs, reads the configuration, installs the detours
and starts the server. Before a detour is installed the code compares the bytes of the game with
those of the build it has been written for. A detour overwrites the first bytes of its target, and
some of the bytes are compared when others have been overwritten already.

Installing a detour is code of a library. It is a parameter here, which says whether it succeeds and
what becomes of the memory.
-/

namespace OpenScumRcon

/-- What installing a detour at an address does to the memory, and whether it succeeds. -/
abbrev Detours :=
  (ℕ → Option Byte) → ℕ → Bool × (ℕ → Option Byte)

/-- The mod while it is loaded. -/
structure Loading where
  game : Game
  dispatch : AdminDispatch := {}
  resolved : Resolved := {}
  /-- The game thread drains the queue in its ticks. -/
  ticking : Bool := false
  traceHook : Bool := false
  executeHook : Bool := false
  interfaceHook : Bool := false
  /-- The configuration with which the server has been started. Its thread may still fail to bind or to
  listen. -/
  listening : Option Config := none

namespace Loading

def world (l : Loading) : World :=
  l.game.world

/-! ### The dispatcher -/

/-- `AdminDispatch::initialize` -/
def initializeDispatch : GameM Loading Bool := do
  let l ← get
  let w := l.world
  let resolved : Resolved :=
    { testProcessAdminCommand := w.staticFindObject "/Script/SCUM.MiscStatics:Test_ProcessAdminCommand"
      playerRpcChannelClass := w.staticFindObject "/Script/SCUM.PlayerRpcChannel"
      chatServerProcessAdminCommand :=
        w.staticFindObject "/Script/SCUM.PlayerRpcChannel:Chat_Server_ProcessAdminCommand" }
  set { l with resolved }
  if w.staticFindObject "/Script/SCUM.ConZPlayerController" = 0
      ∨ resolved.playerRpcChannelClass = 0 ∨ resolved.chatServerProcessAdminCommand = 0 then
    pure false
  else do
    modify fun l => { l with dispatch := { initialized := true } }
    pure true

/-! ### The build -/

def interfaceRva : ℕ := 0x2d02db0

def responseRva : ℕ := 0x18f4e00

def imageTimestamp : ℕ := 0x6a904108

def imageSize : ℕ := 0x7e0c000

/-- The first bytes of the handler of the god mode command in the supported build. -/
def executePrologue : Bytes :=
  [0x48, 0x89, 0x5c, 0x24, 0x10, 0x48, 0x89, 0x74, 0x24, 0x18, 0x48, 0x89, 0x7c, 0x24, 0x20, 0x41,
    0x56, 0x48, 0x83, 0xec, 0x30]

/-- The first bytes of `UObject::GetInterfaceAddress`. -/
def interfacePrologue : Bytes :=
  [0x48, 0x89, 0x5c, 0x24, 0x08, 0x48, 0x89, 0x74, 0x24, 0x10, 0x57, 0x48, 0x83, 0xec, 0x20]

/-- The first bytes of the response method. -/
def responsePrologue : Bytes :=
  [0x48, 0x89, 0x5c, 0x24, 0x08, 0x48, 0x89, 0x6c, 0x24, 0x10, 0x48, 0x89, 0x74, 0x24, 0x18, 0x57,
    0x48, 0x83, 0xec, 0x20, 0x48, 0x8b, 0x59, 0x20]

/-- So many bytes of a header, as a number. -/
def headerField (header : Bytes) (offset n : ℕ) : ℕ :=
  LittleEndian.decode ((header.drop offset).take n)

/-- The headers of the image are those of the supported build. -/
def headersMatch (w : World) : Bool :=
  match w.read w.moduleBase 64 with
  | none => false
  | some dos =>
      let lfanew := int32OfBytes ((dos.drop 0x3c).take 4)
      if headerField dos 0 2 ≠ 0x5a4d ∨ lfanew.toInt ≤ 0 ∨ 4096 < lfanew.toInt then false
      else
        match w.read (w.moduleBase + lfanew.toInt.toNat) 264 with
        | none => false
        | some nt =>
            headerField nt 0 4 = 0x4550 ∧ headerField nt 8 4 = imageTimestamp
              ∧ headerField nt 80 4 = imageSize

/-- Everything `godmode_trace::initialize` compares. -/
def buildMatches (w : World) : Bool :=
  headersMatch w && w.read (w.moduleBase + Godmode.executeRva) 21 = some executePrologue
    && w.read (w.moduleBase + interfaceRva) 15 = some interfacePrologue

/-! ### The detours -/

def install (detours : Detours) (rva : ℕ) : GameM Loading Bool := do
  let l ← get
  let (ok, memory) := detours l.world.memory (l.world.moduleBase + rva)
  set { l with game := { l.game with world := { l.world with memory } } }
  pure ok

/-- `godmode_trace::initialize` -/
def initializeTrace (detours : Detours) : GameM Loading Unit := do
  let l ← get
  if buildMatches l.world then do
    set { l with game := { l.game with world := { l.world with supportedBuild := true } } }
    let ok ← install detours Godmode.executeRva
    modify fun l => { l with traceHook := ok }
  else pure ()

/-- `godmode::initialize` -/
def initializeGodmode : GameM Loading Unit := do
  let l ← get
  let game := (Godmode.initializeSignatures.run.run l.game).2
  set { l with game }

/-- `response_capture::initialize` -/
def initializeCapture (detours : Detours) : GameM Loading Unit := do
  let l ← get
  if l.world.captureReady || !l.world.supportedBuild
      || l.world.read l.world.captureFunction 24 ≠ some responsePrologue then pure ()
  else do
    let ok ← install detours responseRva
    modify fun l => { l with game := { l.game with world := { l.world with captureReady := ok } } }

/-- The observers of the permission check and of the interfaces. -/
def installObservers (detours : Detours) : GameM Loading Unit := do
  let l ← get
  if l.world.supportedBuild then do
    let execute ← install detours Godmode.canExecuteRva
    let interface ← install detours interfaceRva
    modify fun l => { l with executeHook := execute, interfaceHook := interface }
  else pure ()

/-! ### The mod -/

/-- `on_unreal_init`, with the file of the configuration if it can be opened. -/
def onUnrealInit (detours : Detours) (file : Option Bytes) : GameM Loading Unit := do
  let initialized ← initializeDispatch
  if !initialized then pure ()
  else do
    let config ← GameM.ofExcept (loadConfig file)
    modify fun l => { l with ticking := true }
    initializeTrace detours
    initializeGodmode
    initializeCapture detours
    installObservers detours
    modify fun l => { l with listening := some config }

/-- The mod has been constructed. Its variables have their first values. -/
def constructed (w : World) : Loading where
  game :=
    { world := { w with
        supportedBuild := false
        captureReady := false
        captureFunction := w.moduleBase + responseRva } }

/-- The mod behind `on_unreal_init`. -/
def loaded (detours : Detours) (file : Option Bytes) (w : World) : Loading :=
  ((onUnrealInit detours file).run.run (constructed w)).2

end Loading

end OpenScumRcon
