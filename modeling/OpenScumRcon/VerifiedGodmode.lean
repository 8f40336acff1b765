import OpenScumRcon.NativeRoutes

/-!
# Verified GodMode

The handler of the mode may do anything to the game and return what it likes. The route calls
it at most once, behind all its checks, and reports success exactly when the handler has
returned true and the state of the player is what was asked for.
-/

namespace OpenScumRcon.Godmode

/-! ### The verification -/

def verifiedText : Bytes :=
  ascii "ok: native SetGodMode verified"

/-- The call of the handler has done what was asked for, and nothing else to the player. -/
structure Verified (request : Request) (player : Player) (w w' : World) (result : Bool) :
    Prop where
  returned : result = true
  live : w'.live player.pawn = true
  pawn : w'.objectProperty player.controller "Pawn" = player.pawn
  god : w'.boolValue player.god player.pawn = request.enabled
  immortal : w'.boolValue player.immortal player.pawn = w.boolValue player.immortal player.pawn

/-- A text that begins otherwise than another one does not begin with it. -/
theorem not_prefix_of_prefix {s t text : Bytes} (ht : t <+: text) (hlength : t.length ≤ s.length)
    (hne : ¬ t <+: s) :
  ¬ s <+: text
  := by
  intro hs
  apply hne
  apply List.prefix_of_prefix_length_le ht hs hlength

theorem not_verified_of_isError {reply : Bytes} (h : IsError reply) :
  ¬ verifiedText <+: reply
  := by
  apply not_prefix_of_prefix h (by decide)
  decide

variable {request : Request} {player : Player} {w w' : World} {result : Bool}

theorem verifyReply_of_verified (h : Verified request player w w' result)
    (capture : ResponseScope) :
  verifiedText <+: verifyReply request player w w' result capture
  := by
  have hpawn : (!w'.live player.pawn ||
      decide (w'.objectProperty player.controller "Pawn" ≠ player.pawn)) = false := by
    rw [h.live, h.pawn]
    simp
  have hstate : (!result || decide (w'.boolValue player.god player.pawn ≠ request.enabled) ||
      decide (w'.boolValue player.immortal player.pawn
        ≠ w.boolValue player.immortal player.pawn)) = false := by
    rw [h.returned, h.god, h.immortal]
    simp
  have htext : verifiedText <+: ascii "ok: native SetGodMode verified; steam_id=" := by decide
  rw [verifyReply, hpawn, if_neg Bool.false_ne_true, hstate, if_neg Bool.false_ne_true]
  simp only [List.append_assoc]
  apply htext.trans (List.prefix_append _ _)

theorem isError_verifyReply (h : ¬ Verified request player w w' result)
    (capture : ResponseScope) :
  IsError (verifyReply request player w w' result capture)
  := by
  rw [verifyReply]
  split
  · decide
  next hpawn =>
  split
  · apply isError_append
    decide
  next hstate =>
  exfalso
  apply h
  simp only [Bool.or_eq_true, Bool.not_eq_true', decide_eq_true_eq, not_or, not_not,
    Bool.not_eq_false] at hpawn hstate
  exact ⟨hstate.1.1, hpawn.1, hpawn.2, hstate.1.2, hstate.2⟩

theorem prefix_verifyReply_iff (capture : ResponseScope) :
  verifiedText <+: verifyReply request player w w' result capture ↔
    Verified request player w w' result
  := by
  constructor
  · intro h
    by_contra hverified
    apply not_verified_of_isError (isError_verifyReply hverified capture) h
  · intro h
    apply verifyReply_of_verified h

/-! ### The player -/

/-- The player is the only one with the SteamID: a live controller with a live connection, and
a live Prisoner for its pawn. -/
structure IsTarget (w : World) (id : Bytes) (player : Player) : Prop where
  mem : player.controller ∈ w.objects
  isPlayer : isPlayer w id player.controller = true
  unique : ∀ object ∈ w.objects, Godmode.isPlayer w id object = true → object = player.controller
  pawn : player.pawn = w.objectProperty player.controller "Pawn"
  live : w.live player.pawn = true
  prisoner : w.isA player.pawn w.prisonerClass = true
  god : player.god = w.property player.pawn "_isInGodMode" .bool ∧ player.god ≠ 0
  immortal : player.immortal = w.property player.pawn "_isImmortal" .bool ∧ player.immortal ≠ 0

/-- The player found is the only one with the SteamID. -/
theorem isTarget_of_findPlayer {id : Bytes} (h : findPlayer w id = .ok player) :
  IsTarget w id player
  := by
  rw [findPlayer] at h
  split at h
  · cases h
  split at h
  · cases h
  · next controller hfilter =>
      rw [playerOf] at h
      split at h
      · cases h
      next hprisoner =>
      split at h
      · cases h
      next hflags =>
      obtain rfl := Except.ok.inj h
      simp only [Bool.or_eq_true, Bool.not_eq_true', not_or, Bool.not_eq_false] at hprisoner hflags
      have hmem : ∀ object, object ∈ [controller] ↔ object ∈ w.objects ∧ isPlayer w id object := by
        intro object
        rw [← hfilter, List.mem_filter]
      constructor
      · apply ((hmem controller).mp List.mem_cons_self).1
      · apply ((hmem controller).mp List.mem_cons_self).2
      · intro object hobject hplayer
        apply List.mem_singleton.mp
        apply (hmem object).mpr ⟨hobject, hplayer⟩
      · rfl
      · apply hprisoner.1
      · apply hprisoner.2
      · exact ⟨rfl, hflags.1⟩
      · exact ⟨rfl, hflags.2⟩
  · cases h

/-! ### The signatures -/

/-- The route is enabled when the build is supported and the function of the chat is the one it
knows. -/
theorem signaturesOk_initializeSignatures (s : Game) :
  (initializeSignatures.run.run s).2.signaturesOk = true ↔
    s.world.supportedBuild = true ∧
    s.world.read (s.world.moduleBase + canExecuteRva) 15 = some permission
  := by
  rw [initializeSignatures, GameM.run_bind, GameM.run_get]
  dsimp only
  rw [GameM.run_bind, GameM.run_set]
  dsimp only
  rw [GameM.run_pure, Bool.and_eq_true, decide_eq_true_iff]

/-! ### The route -/

/-- The new command object, and the world that holds it. -/
def construction (engine : Engine) (w : World) (player : Player) : ℕ × World :=
  engine.newObject w player.controller (commandClass w)

/-- Everything the route checks before it calls the handler. -/
structure Admitted (engine : Engine) (request : Request) (s : Game) (player : Player) : Prop where
  signatures : s.signaturesOk = true
  action : request.action ≠ .state ∧ request.action ≠ .prepare
  target : IsTarget s.world request.steamId player
  cls : hasClass s.world = true
  defaultObject : hasDefaultObject s.world = true
  object : validInstance (construction engine s.world player).2 (commandClass s.world)
    player.controller (construction engine s.world player).1 = true
  ready : (construction engine s.world player).2.captureReady = true
  hook : (construction engine s.world player).2.slot (construction engine s.world player).1 0x290
    = (construction engine s.world player).2.captureFunction

/-- The value a request asks for, as the game writes it. -/
def argument (request : Request) : WideString :=
  (boolText request.enabled).map fun c => UInt16.ofNat c.toNat

def handlerCall (engine : Engine) (request : Request) (w : World) (object : ℕ) :
    NativeEffect × Bool :=
  engine.setGodMode w (w.slot object 0x288) object (argument request)

/-- The handler has been called once, on an object behind all checks, and the reply says whether
what it did has been verified. -/
structure Called (engine : Engine) (request : Request) (s s' : Game) (player : Player)
    (reply : Bytes) : Prop where
  admitted : Admitted engine request s player
  invocations : s'.invocations = s.invocations ++
    [{ function := (construction engine s.world player).2.slot
        (construction engine s.world player).1 0x288
       command := (construction engine s.world player).1
       arguments := [argument request]
       raised := false }]
  world : s'.world = (handlerCall engine request (construction engine s.world player).2
    (construction engine s.world player).1).1.world
  verified : verifiedText <+: reply ↔
    Verified request player (construction engine s.world player).2 s'.world
      (handlerCall engine request (construction engine s.world player).2
        (construction engine s.world player).1).2
  error : ¬ Verified request player (construction engine s.world player).2 s'.world
    (handlerCall engine request (construction engine s.world player).2
      (construction engine s.world player).1).2 → IsError reply

/-- The handler has not been called, and the reply does not say so. -/
structure Declined (s s' : Game) (reply : Bytes) : Prop where
  invocations : s'.invocations = s.invocations
  reply : ¬ verifiedText <+: reply

theorem declined_of_isError {s s' : Game} {reply : Bytes} (hs : s'.invocations = s.invocations)
    (h : IsError reply) :
  Declined s s' reply
  := by
  use hs
  apply not_verified_of_isError h

/-- An error is replied without a call of the handler. -/
theorem declines_of_isError {s : Game} {reply : Bytes} (h : IsError reply)
    {P : Bytes → Game → Prop} :
  ∃ reply' s', (pure reply : GameM Game Bytes).run.run s = (.ok reply', s') ∧
    (Declined s s' reply' ∨ P reply' s')
  := by
  use reply, s, rfl
  left
  apply declined_of_isError rfl h

/-- A reply that is not an error, and does not speak of the mode either. -/
theorem not_verified_append {front : Bytes} (hlength : front.length ≤ verifiedText.length)
    (hne : ¬ front <+: verifiedText) (rest : Bytes) :
  ¬ verifiedText <+: front ++ rest
  := not_prefix_of_prefix (List.prefix_append front rest) hlength hne

/-- What is left of the route once the new object has been checked: it is declined where the
reply of the handler could not be captured, and the handler is called otherwise. -/
theorem run_callHandler (engine : Engine) (request : Request) (player : Player) (object : ℕ)
    (s : Game) :
  ∃ reply s', (callHandler engine request player object).run.run s = (.ok reply, s') ∧
    ((s'.invocations = s.invocations ∧ IsError reply) ∨
    (s.world.captureReady = true ∧ s.world.slot object 0x290 = s.world.captureFunction ∧
      s'.invocations = s.invocations ++ [{ function := s.world.slot object 0x288
                                           command := object
                                           arguments := [argument request]
                                           raised := false }] ∧
      s'.world = (handlerCall engine request s.world object).1.world ∧
      ∃ capture, reply = verifyReply request player s.world s'.world
        (handlerCall engine request s.world object).2 capture))
  := by
  rw [callHandler, GameM.run_bind, GameM.run_get]
  dsimp only
  split
  · use ascii "error: native response capture unavailable; GodMode was not executed", s, rfl
    left
    use rfl
    decide
  next hhook =>
  simp only [Bool.or_eq_true, Bool.not_eq_true', decide_eq_true_eq, not_or, not_not,
    Bool.not_eq_false] at hhook
  rw [GameM.run_bind, GameM.run_set]
  dsimp only
  rw [GameM.run_pure]
  refine ⟨_, _, rfl, .inr ⟨hhook.1, hhook.2, rfl, rfl, _, rfl⟩⟩

theorem run_chatDiagnostic (engine : Engine) (player : Player) (s : Game) :
  ∃ text s', (chatDiagnostic engine player).run.run s = (.ok text, s') ∧
    s'.invocations = s.invocations
  := by
  rw [chatDiagnostic, GameM.run_bind, GameM.run_get]
  dsimp only
  rw [GameM.run_bind, GameM.run_set]
  exact ⟨_, _, rfl, rfl⟩

/-- A request to prepare the mode is declined once the object has been constructed. -/
theorem run_construct_of_prepare (engine : Engine) {request : Request} (player : Player)
    (cls : ℕ) (before : Bytes) (s : Game) (h : request.action = .prepare) :
  ∃ reply s', (construct engine request player cls before).run.run s = (.ok reply, s') ∧
    Declined s s' reply
  := by
  obtain ⟨text, s₁, htext, hs₁⟩ := run_chatDiagnostic engine player s
  rw [construct, GameM.run_bind, diagnosticOf, if_pos h, htext]
  dsimp only
  rw [GameM.run_bind, GameM.run_get]
  dsimp only
  rw [GameM.run_bind, GameM.run_set]
  dsimp only
  split
  · refine ⟨_, _, rfl, declined_of_isError hs₁ ?_⟩
    decide
  · refine ⟨_, _, rfl, hs₁, ?_⟩
    simp only [List.append_assoc]
    apply not_prefix_of_prefix (t := ascii "ok: prepared")
    · apply List.IsPrefix.trans _ (List.prefix_append _ _)
      decide
    · decide
    · decide

/-- Any other request is declined when the new object does not pass, and handed on
otherwise. -/
theorem run_construct (engine : Engine) {request : Request} (player : Player) (before : Bytes)
    (s : Game) (h : request.action ≠ .prepare) :
  (∃ reply s', (construct engine request player (commandClass s.world) before).run.run s
    = (.ok reply, s') ∧ Declined s s' reply) ∨
  (validInstance (construction engine s.world player).2 (commandClass s.world)
      player.controller (construction engine s.world player).1 = true ∧
    (construct engine request player (commandClass s.world) before).run.run s
      = (callHandler engine request player (construction engine s.world player).1).run.run
        { s with world := (construction engine s.world player).2 })
  := by
  rw [construct, GameM.run_bind, diagnosticOf, if_neg h, GameM.run_pure]
  dsimp only
  rw [GameM.run_bind, GameM.run_get]
  dsimp only
  rw [GameM.run_bind, GameM.run_set]
  dsimp only
  split
  · left
    refine ⟨_, _, rfl, declined_of_isError rfl ?_⟩
    decide
  · next hvalid =>
      rw [Bool.not_eq_true', Bool.not_eq_false] at hvalid
      right
      exact ⟨hvalid, rfl⟩

/-- The route either declines a request or calls the handler. -/
theorem run_act (engine : Engine) (request : Request) (s : Game) :
  ∃ reply s', (act engine request).run.run s = (.ok reply, s') ∧
    (Declined s s' reply ∨ ∃ player, Called engine request s s' player reply)
  := by
  rw [act, GameM.run_bind, GameM.run_get]
  dsimp only
  split
  · apply declines_of_isError
    decide
  next hsignatures =>
  rw [Bool.not_eq_true', Bool.not_eq_false] at hsignatures
  cases hplayer : findPlayer s.world request.steamId with
  | error error =>
      apply declines_of_isError
      apply List.prefix_append
  | ok player =>
      dsimp only
      split
      · refine ⟨_, _, rfl, .inl ⟨rfl, ?_⟩⟩
        simp only [List.append_assoc]
        apply not_verified_append (by decide) (by decide)
      next hstate =>
      split
      · apply declines_of_isError
        decide
      next hcls =>
      split
      · apply declines_of_isError
        decide
      next hdefault =>
      rw [Bool.not_eq_true', Bool.not_eq_false] at hcls hdefault
      by_cases hprepare : request.action = .prepare
      · obtain ⟨reply, s', hrun, hdeclined⟩ :=
          run_construct_of_prepare engine player _ (state s.world player) s hprepare
        exact ⟨reply, s', hrun, .inl hdeclined⟩
      rcases run_construct engine player (state s.world player) s hprepare with
        ⟨reply, s', hrun, hdeclined⟩ | ⟨hobject, hrun⟩
      · exact ⟨reply, s', hrun, .inl hdeclined⟩
      obtain ⟨reply, s', hcall, hcases⟩ := run_callHandler engine request player
        (construction engine s.world player).1
        { s with world := (construction engine s.world player).2 }
      use reply, s', hrun.trans hcall
      rcases hcases with ⟨hs', herror⟩ | ⟨hready, hhook, hinvocations, hworld, capture, hreply⟩
      · left
        exact declined_of_isError hs' herror
      right
      use player
      constructor
      · exact ⟨hsignatures, ⟨hstate, hprepare⟩, isTarget_of_findPlayer hplayer, hcls, hdefault,
          hobject, hready, hhook⟩
      · apply hinvocations
      · apply hworld
      · rw [hreply]
        apply prefix_verifyReply_iff
      · intro hverified
        rw [hreply]
        apply isError_verifyReply hverified

/-! ### The dispatcher -/

/-- For every handler, the route calls it at most once, and only for an authorized request to
set the mode of the one player it finds, behind all its checks. It reports success exactly when
the handler has been called and what it did has been verified, and an error when the handler
has been called and it has not. -/
theorem godmode_verified (engine : Engine) (s : Game) (text : Bytes)
    (authority : CommandAuthority) :
  ∃ reply s', (dispatch (nativeRoutes engine) text authority).run.run s = (.ok reply, s') ∧
    ((s'.invocations = s.invocations ∧ ∀ text ∈ reply, ¬ verifiedText <+: text) ∨
    (authority = .authenticatedRcon ∧ (parse text).action = .execute ∧
      ∃ player text', reply = some text' ∧ Called engine (parse text) s s' player text'))
  := by
  have herror : ∀ {reply : Bytes}, IsError reply → ∀ text ∈ some reply, ¬ verifiedText <+: text := by
    intro reply h text htext
    rw [← Option.some.inj htext]
    apply not_verified_of_isError h
  rw [dispatch]
  split
  · refine ⟨none, s, rfl, .inl ⟨rfl, ?_⟩⟩
    rintro _ ⟨⟩
  next hunrelated =>
  split
  · exact ⟨_, s, rfl, .inl ⟨rfl, herror isError_authorityRequired⟩⟩
  next hauthority =>
  split
  · exact ⟨_, s, rfl, .inl ⟨rfl, herror isError_usage⟩⟩
  next hinvalid =>
  rw [Bool.not_eq_true', Bool.not_eq_false, isRconAuthorized_iff] at hauthority
  obtain ⟨reply, s', hrun, hcases⟩ := run_act engine (parse text) s
  have hroute : (nativeRoutes engine).godmode (parse text) = act engine (parse text) := rfl
  rw [map_eq_pure_bind, GameM.run_bind, hroute, hrun]
  refine ⟨some reply, s', rfl, ?_⟩
  rcases hcases with hdeclined | ⟨player, hcalled⟩
  · left
    use hdeclined.invocations
    intro text htext
    rw [← Option.some.inj htext]
    apply hdeclined.reply
  · right
    obtain ⟨hstate, hprepare⟩ := hcalled.admitted.action
    refine ⟨hauthority, ?_, player, reply, rfl, hcalled⟩
    cases haction : (parse text).action with
    | execute => rfl
    | unrelated => cases hunrelated haction
    | invalid => cases hinvalid haction
    | state => cases hstate haction
    | prepare => cases hprepare haction

/-- A game with one player, and the command in place. -/
def onePlayer : Game where
  signaturesOk := true
  world :=
    { numElements := 1000
      indexToObject := fun i => some { object := i.toNat, isValid := true }
      objects := [100, 200, 300, 600]
      internalIndex := fun object => object
      classDefault := fun object => object == 600
      isA := fun object cls => (object, cls) == (100, 1) || (object, cls) == (300, 2)
      classPrivate := fun _ => 400
      outerPrivate := fun _ => 100
      isChildOf := fun cls parent => (cls, parent) == (400, 500)
      classDefaultObject := fun _ => 600
      staticFindObject := fun path =>
        if path = "/Script/SCUM.ConZPlayerController" then 1
        else if path = "/Script/SCUM.Prisoner" then 2
        else if path = "/Script/SCUM.ConZPlayerController:GetUserId" then 3
        else if path = "/Script/SCUM.AdminCommand_SetGodMode" then 500
        else 400
      propertyByName := fun _ name =>
        if name = "NetConnection" then 31
        else if name = "Pawn" then 32
        else if name = "_isInGodMode" then 33
        else 34
      propertyKind := fun p => if p < 33 then .object else .bool
      objectValue := fun p _ => if p = 31 then 200 else 300
      parmsSize := fun _ => 16
      callString := fun _ _ => "76561198000000001".toList.flatMap Utf16.encodeChar
      captureReady := true
      captureFunction := 4096
      memory := fun a =>
        if a < 1000 then (LittleEndian.encode 8 1000)[a % 100]?
        else if a < 1648 then (LittleEndian.encode 8 canExecuteRva)[a - 1640]?
        else if a < 1656 then (LittleEndian.encode 8 executeRva)[a - 1648]?
        else (LittleEndian.encode 8 4096)[a - 1656]? }

/-- A handler that does what it is asked for, and one that makes the player immortal too. -/
def handler (immortal : Bool) : Engine where
  newObject w _ _ := (700, w)
  getInterface _ _ _ := 0
  execute w _ _ _ := ({ world := w }, some true)
  canExecute w _ _ _ := ((true, []), w)
  setGodMode w _ _ _ := ({ world := { w with boolValue := fun p _ => p = 33 || immortal } }, true)
  scope := 1

example :
  ((dispatch (nativeRoutes (handler false)) (ascii "SetGodMode true 76561198000000001")
    .authenticatedRcon).run.run onePlayer).1
    = .ok (some (ascii ("ok: native SetGodMode verified; steam_id=76561198000000001 "
        ++ "godmode=true immortal=false")))
  := by decide +kernel

example :
  ((dispatch (nativeRoutes (handler true)) (ascii "SetGodMode true 76561198000000001")
    .authenticatedRcon).run.run onePlayer).1
    = .ok (some (ascii ("error: native GodMode result/state verification failed; "
        ++ "godmode=true immortal=true")))
  := by decide +kernel

end OpenScumRcon.Godmode
