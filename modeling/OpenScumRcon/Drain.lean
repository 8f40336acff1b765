import OpenScumRcon.AdminDispatch
import OpenScumRcon.CommandQueue

/-!
# The game thread

On every tick the game thread drains the command queue and processes the items one by one:
`dispatchText` runs the branch for a diagnostic sentinel or dispatches the command,
`respond` turns whatever is thrown into a response, and `Exchange.process` sets the promise
of the item.
-/

namespace OpenScumRcon

variable {σ ο : Type}

/-- The functions behind the diagnostic sentinels. -/
structure Sentinels (σ : Type) where
  traceStart : GameM σ Bytes
  traceStop : GameM σ Bytes
  traceStatus : GameM σ Bytes
  dumpAdminCommandPermissionLevels : GameM σ Bytes
  dumpTestProcessAdminCommandAddress : GameM σ Bytes
  dumpPlayerRpcChannelInfo : GameM σ Bytes
  dumpChatServerFunctionFlags : GameM σ Bytes
  callContextResolverAndDump : GameM σ Bytes
  callExecutorResolverAndDump : GameM σ Bytes
  dumpSetgodmodeField0x20 : GameM σ Bytes

/-- The mod: the password of its server and what its commands do to the game. -/
structure Mod (σ : Type) where
  password : Bytes
  routes : Routes σ
  sentinels : Sentinels σ

/-- The state of the mod on the game thread, with that of the game. -/
structure ModState (σ : Type) where
  game : σ
  dispatch : AdminDispatch := {}
  capturingCalls : Bool := false
  capturingNativeCalls : Bool := false
  capturingRegistrationCalls : Bool := false
  registrationLogCount : UInt32 := 0

/-- Code of the mod on the game thread. -/
abbrev ModM (σ α : Type) :=
  ExceptT Thrown (StateM (ModState σ)) α

namespace ModM

/-- Code that acts on the game alone. -/
def onGame (x : GameM σ Bytes) : ModM σ Bytes :=
  ExceptT.mk fun m =>
    match x.run.run m.game with
    | (result, game) => (result, { m with game })

def setCapturingCalls (capturing : Bool) : ModM σ Unit :=
  modify fun m => { m with capturingCalls := capturing }

end ModM

/-- The branch of the loop body that an authorized command selects. -/
def dispatchText (mod : Mod σ) (commandText : Bytes) (authority : CommandAuthority) :
    ModM σ Bytes := do
  if commandText = ascii "!godmode_trace_start" then
    ModM.onGame mod.sentinels.traceStart
  else if commandText = ascii "!godmode_trace_stop" then
    ModM.onGame mod.sentinels.traceStop
  else if commandText = ascii "!godmode_trace_status" then
    ModM.onGame mod.sentinels.traceStatus
  else if commandText = ascii "!dump_admin_permissions" then
    ModM.onGame mod.sentinels.dumpAdminCommandPermissionLevels
  else if commandText = ascii "!dump_func_address" then
    ModM.onGame mod.sentinels.dumpTestProcessAdminCommandAddress
  else if commandText = ascii "!dump_rpc_channel" then
    ModM.onGame mod.sentinels.dumpPlayerRpcChannelInfo
  else if commandText = ascii "!dump_chat_flags" then
    ModM.onGame mod.sentinels.dumpChatServerFunctionFlags
  else if commandText = ascii "!capture_start" then
    ModM.setCapturingCalls true
    pure (ascii "ok: capture started")
  else if commandText = ascii "!capture_stop" then
    ModM.setCapturingCalls false
    pure (ascii "ok: capture stopped")
  else if commandText = ascii "!native_capture_start" then
    modify fun m => { m with capturingNativeCalls := true }
    pure (ascii "ok: native capture started")
  else if commandText = ascii "!native_capture_stop" then
    modify fun m => { m with capturingNativeCalls := false }
    pure (ascii "ok: native capture stopped")
  else if commandText = ascii "!call_context_resolver" then
    ModM.onGame mod.sentinels.callContextResolverAndDump
  else if commandText = ascii "!capture_registration_start" then
    modify fun m => { m with registrationLogCount := 0, capturingRegistrationCalls := true }
    pure (ascii "ok: registration capture started")
  else if commandText = ascii "!capture_registration_stop" then
    modify fun m => { m with capturingRegistrationCalls := false }
    pure (ascii "ok: registration capture stopped")
  else if commandText = ascii "!call_executor_resolver" then
    ModM.onGame mod.sentinels.callExecutorResolverAndDump
  else if commandText = ascii "!dump_setgodmode_field" then
    ModM.onGame mod.sentinels.dumpSetgodmodeField0x20
  else if (ascii "!try_native_setgodmode ").isPrefixOf commandText then
    let rest := commandText.drop 23
    if Byte.space ∉ rest then
      pure (ascii "error: usage: !try_native_setgodmode <true|false> <steamId>")
    else
      pure (ascii ("error: experimental call disabled: old address targets Immortality; "
        ++ "use observation-only !godmode_trace_start"))
  else
    ModM.setCapturingCalls true
    let response ← ModM.onGame
      (dispatchCommand mod.routes (← get).dispatch commandText authority)
    ModM.setCapturingCalls false
    pure response

/-- The response to an authorized command, whatever the branch it selects throws. -/
def respond (mod : Mod σ) (commandText : Bytes) (authority : CommandAuthority)
    (m : ModState σ) : Bytes × ModState σ :=
  match (dispatchText mod commandText authority).run.run m with
  | (.ok response, m) => (response, m)
  | (.error (.exception what), m) =>
      (ascii "error: exception during dispatch: " ++ what, { m with capturingCalls := false })
  | (.error .unknown, m) =>
      (ascii "error: unknown exception during dispatch", { m with capturingCalls := false })

namespace Exchange

/-- The loop body, for the first item of the batch. -/
def process (mod : Mod σ) (x : Exchange ο) (m : ModState σ) : Exchange ο × ModState σ :=
  match x.batch with
  | [] => (x, m)
  | item :: rest =>
      if !isRconAuthorized item.authority then (x.settle item rest authorityRequired, m)
      else
        match respond mod item.commandText item.authority m with
        | (response, m) => (x.complete item rest response, m)

theorem process_of_nil (mod : Mod σ) {x : Exchange ο} (m : ModState σ) (hbatch : x.batch = []) :
  process mod x m = (x, m)
  := by
  simp [process, hbatch]

/-- Every item of the batch has authority, so it is dispatched. -/
theorem process_of_cons {x : Exchange ο} (h : x.Inv) (mod : Mod σ) (m : ModState σ)
    {item : PendingCommand} {rest : List PendingCommand} (hbatch : x.batch = item :: rest) :
  process mod x m
    = (x.complete item rest (respond mod item.commandText item.authority m).1,
      (respond mod item.commandText item.authority m).2)
  := by
  have hmem : item ∈ x.handoff.submitted := by
    rw [h.accounted.order]
    simp [handoff, hbatch]
  have hauthority := isRconAuthorized_iff.mpr (h.authority item hmem)
  simp [process, hbatch, hauthority]

theorem Inv.process {x : Exchange ο} (h : x.Inv) (mod : Mod σ) (m : ModState σ) :
  (x.process mod m).1.Inv
  := by
  rcases hbatch : x.batch with _ | ⟨item, rest⟩
  · rw [process_of_nil mod m hbatch]
    apply h
  · rw [process_of_cons h mod m hbatch]
    apply h.complete hbatch

/-- Processing an item finishes it. -/
theorem Inv.step_process {x : Exchange ο} (h : x.Inv) (mod : Mod σ) (m : ModState σ)
    (hbatch : x.batch ≠ []) :
  Handoff.Step PendingCommand.response x.handoff (x.process mod m).1.handoff
  := by
  obtain ⟨item, rest, hcons⟩ := List.exists_cons_of_ne_nil hbatch
  rw [process_of_cons h mod m hcons]
  apply h.step_complete hcons

/-- Processing enqueues nothing and forgets no response. -/
theorem Inv.process_history {x : Exchange ο} (h : x.Inv) (mod : Mod σ) (m : ModState σ) :
  (x.process mod m).1.enqueued = x.enqueued ∧
    ∀ d ∈ x.dispatched, d ∈ (x.process mod m).1.dispatched
  := by
  rcases hbatch : x.batch with _ | ⟨item, rest⟩
  · rw [process_of_nil mod m hbatch]
    exact ⟨rfl, fun d hd => hd⟩
  · rw [process_of_cons h mod m hbatch, complete_eq h hbatch]
    exact ⟨rfl, fun d hd => List.mem_append_left _ hd⟩

end Exchange

end OpenScumRcon
