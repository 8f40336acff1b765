import Mathlib.Data.List.Infix
import OpenScumRcon.Drain
import OpenScumRcon.Game
import OpenScumRcon.GodmodeTrace
import OpenScumRcon.NativeRoutes
import OpenScumRcon.Strings
import OpenScumRcon.WideStrings

/-!
# Diagnostics

The functions behind the diagnostic sentinels. They read what the engine says of its objects and
reply with a summary. What they write to files of their own is left out. Two of them call a function
of the game. The trace has a state of its own, which is only read here.
-/

namespace OpenScumRcon

/-- What `AdminDispatch::initialize` has resolved. -/
structure Resolved where
  testProcessAdminCommand : ℕ := 0
  playerRpcChannelClass : ℕ := 0
  chatServerProcessAdminCommand : ℕ := 0

/-- What the functions of the trace meet: its state, its hooks, and the clock and the log file. -/
structure TraceReads where
  state : GodmodeTrace.State ℕ Unit := .initial 0
  buildOk : Bool := false
  inputs : GodmodeTrace.StartInputs := ⟨false, false, 0, ⟨true, true⟩, ⟨true, true⟩, 0⟩

/-- What the diagnostic functions read of the process beside the fields of `World`, and what the
functions they call do. A function that throws gives no result. -/
structure Reflection where
  unreachable : World → ℕ → Bool
  fullName : World → ℕ → WideString
  funcPtr : World → ℕ → ℕ
  functionFlags : World → ℕ → UInt32
  contextResolver : World → ℕ × World
  executorResolver : World → ℕ → Option ℕ × World
  memory : World → ℕ → Byte
  trace : World → TraceReads

/-! ### Formats -/

/-- A number in hexadecimal, as a stream writes it. -/
def hexadecimal (n : ℕ) : Bytes :=
  (Nat.toDigits 16 n).map fun c => UInt8.ofNat c.toNat

def upperHexDigit (n : ℕ) : Byte :=
  if n < 10 then Byte.digitZero + UInt8.ofNat n else Byte.upperA + UInt8.ofNat (n - 10)

/-- A byte in a field of two digits. -/
def hexByte (b : Byte) : Bytes :=
  [upperHexDigit (b.toNat / 16), upperHexDigit (b.toNat % 16)]

/-- An address as a stream writes it: 16 digits. -/
def pointer (address : ℕ) : Bytes :=
  (LittleEndian.encode 8 address).reverse.flatMap hexByte

/-! ### The objects of the engine -/

/-- The objects of the engine with a property, as `ForEachUObject` meets them. -/
def reachableObjects (r : Reflection) (w : World) (p : ℕ → Bool) : List ℕ :=
  w.objects.filter fun object => object ≠ 0 && !r.unreachable w object && p object

def adminCommandObjects (r : Reflection) (w : World) : List ℕ :=
  reachableObjects r w fun object =>
    "AdminCommand_".toList.flatMap Utf16.encodeChar <:+: r.fullName w object

def dumpAdminCommandPermissionLevels (r : Reflection) (w : World) : Bytes :=
  ascii "ok: scanned " ++ decimal (adminCommandObjects r w).length
    ++ ascii (" AdminCommand_* object(s), full property dump written to "
      ++ "openscumrcon_permission_levels.log")

def rpcChannels (r : Reflection) (w : World) (d : Resolved) : List ℕ :=
  reachableObjects r w fun object => w.isA object d.playerRpcChannelClass

def dumpPlayerRpcChannelInfo (r : Reflection) (w : World) (d : Resolved) : Bytes :=
  if d.playerRpcChannelClass = 0 then
    ascii "error: PlayerRpcChannel UClass not resolved (see UE4SS.log at startup)"
  else
    ascii "ok: found " ++ decimal (rpcChannels r w d).length
      ++ ascii " PlayerRpcChannel instance(s), Chat_Server_ProcessAdminCommand="
      ++ (if d.chatServerProcessAdminCommand ≠ 0 then ascii "resolved" else ascii "NOT FOUND")
      ++ ascii ", details written to openscumrcon_rpc_channel_info.log"

def dumpTestProcessAdminCommandAddress (r : Reflection) (w : World) (d : Resolved) : Bytes :=
  if d.testProcessAdminCommand = 0 then
    ascii "error: Test_ProcessAdminCommand UFunction not resolved"
  else
    ascii "ok: Test_ProcessAdminCommand native func ptr = 0x"
      ++ hexadecimal (r.funcPtr w d.testProcessAdminCommand)

/-- The flags of a function that are reported, with their masks. -/
def reportedFlags : List (String × UInt32) :=
  [("Net", 0x40), ("NetServer", 0x200000), ("NetReliable", 0x80), ("NetValidate", 0x80000000),
    ("Native", 0x400), ("BlueprintCallable", 0x4000000)]

def dumpChatServerFunctionFlags (r : Reflection) (w : World) (d : Resolved) : Bytes :=
  if d.chatServerProcessAdminCommand = 0 then
    ascii "error: Chat_Server_ProcessAdminCommand not resolved"
  else
    let flags := r.functionFlags w d.chatServerProcessAdminCommand
    ascii "ok: flags=0x" ++ hexadecimal flags.toNat ++ reportedFlags.flatMap fun flag =>
      [Byte.space] ++ ascii flag.1 ++ [Byte.equals]
        ++ (if flags &&& flag.2 ≠ 0 then ascii "1" else ascii "0")

/-! ### The resolvers -/

def callContextResolverAndDump (r : Reflection) : GameM Game Bytes := do
  let s ← get
  let (result, w) := r.contextResolver s.world
  set { s with world := w }
  pure (ascii "ok: 0x142685AE0() returned " ++ pointer result)

/-- The object that stands for the command in the diagnostics. -/
def commandInstance (w : World) : ℕ :=
  w.staticFindObject "/Script/SCUM.Default__AdminCommand_SetGodMode"

def executorCall (w : World) : Bytes :=
  ascii "0x1418E8A10(commandInstance=" ++ pointer (commandInstance w) ++ ascii ") returned "

def callExecutorResolverAndDump (r : Reflection) : GameM Game Bytes := do
  let s ← get
  if commandInstance s.world = 0 then
    pure (ascii "error: AdminCommand_SetGodMode instance not found")
  else
    let (result, w) := r.executorResolver s.world (commandInstance s.world)
    set { s with world := w }
    let status := if result.isSome then ascii "ok" else ascii "exception during native call"
    pure (status ++ ascii ": " ++ executorCall s.world ++ pointer (result.getD 0))

/-- The eight bytes behind the offset `0x20` of the command are read without a check. -/
def dumpSetgodmodeField0x20 (r : Reflection) (w : World) : Bytes :=
  if commandInstance w = 0 then ascii "error: AdminCommand_SetGodMode instance not found"
  else
    ascii "ok: this=" ++ pointer (commandInstance w) ++ ascii " this+0x20="
      ++ pointer (LittleEndian.decode ((List.range 8).map fun i =>
        r.memory w (commandInstance w + 0x20 + i)))

/-! ### The trace -/

namespace TraceReads

/-- `status` -/
def statusOf (t : TraceReads) (state : GodmodeTrace.State ℕ Unit) : Bytes :=
  ascii "godmode_trace=v1 build=" ++ boolDigit t.buildOk
    ++ ascii " hook=" ++ boolDigit t.inputs.hookOk
    ++ ascii " interface_hook=" ++ boolDigit t.inputs.interfaceHookOk
    ++ ascii " armed=" ++ boolDigit (state.deadline ≠ 0 && t.inputs.now < state.deadline)
    ++ ascii " calls=" ++ decimal state.calls ++ ascii " pending=" ++ decimal state.pending.length

def start (t : TraceReads) : Bytes :=
  (t.state.start 0 t.inputs).1

def stop (t : TraceReads) : Bytes :=
  ascii "ok: " ++ t.statusOf (t.state.stop t.inputs.tickNow t.inputs.tickFile)

def status (t : TraceReads) : Bytes :=
  t.statusOf t.state

end TraceReads

/-! ### The sentinels -/

/-- Code that replies with what it reads of the world. -/
def readReply (f : World → Bytes) : GameM Game Bytes := do
  let s ← get
  pure (f s.world)

def sentinels (r : Reflection) (d : Resolved) : Sentinels Game where
  traceStart := readReply fun w => (r.trace w).start
  traceStop := readReply fun w => (r.trace w).stop
  traceStatus := readReply fun w => (r.trace w).status
  dumpAdminCommandPermissionLevels := readReply (dumpAdminCommandPermissionLevels r)
  dumpTestProcessAdminCommandAddress :=
    readReply fun w => dumpTestProcessAdminCommandAddress r w d
  dumpPlayerRpcChannelInfo := readReply fun w => dumpPlayerRpcChannelInfo r w d
  dumpChatServerFunctionFlags := readReply fun w => dumpChatServerFunctionFlags r w d
  callContextResolverAndDump := callContextResolverAndDump r
  callExecutorResolverAndDump := callExecutorResolverAndDump r
  dumpSetgodmodeField0x20 := readReply (dumpSetgodmodeField0x20 r)

end OpenScumRcon
