import OpenScumRcon.CommandAuthority
import OpenScumRcon.ExecRequest
import OpenScumRcon.GodmodeRequest

/-!
# Dispatch of commands

`dispatchCommand` offers a command to the GodMode route and, when that declines it, to the
generic route. What the routes do to the game once they have accepted a request is a
parameter.

The two parsers accept disjoint sets of texts, so the order of the routes does not matter.
They do not reject the same texts: the parser of the GodMode route takes a control character
that counts as white space for a separator.
-/

namespace OpenScumRcon

/-- What the routes do with an accepted request. -/
structure Routes (σ : Type) where
  /-- The GodMode route, for a request to read, prepare or set the mode. -/
  godmode : Godmode.Request → GameM σ Bytes
  listPlayers : GameM σ Bytes
  weather : Bool → GameM σ Bytes
  catalogue : Bytes → GameM σ Bytes
  execute : DispatchRequest → GameM σ Bytes

variable {σ : Type}

namespace Godmode

def usage : Bytes :=
  ascii ("error: usage: SetGodMode <true|false> <17-digit SteamID> | "
    ++ "!godmode_state <SteamID> | !godmode_prepare <SteamID>")

/-- The GodMode route. There is no reply when it declines the text. -/
def dispatch (routes : Routes σ) (text : Bytes) (authority : CommandAuthority) :
    GameM σ (Option Bytes) :=
  let request := parse text
  if request.action = .unrelated then pure none
  else if !isRconAuthorized authority then pure (some authorityRequired)
  else if request.action = .invalid then pure (some usage)
  else some <$> routes.godmode request

end Godmode

namespace Registry

def unsupported : Bytes :=
  ascii ("error: unsupported command; use ListPlayers, GetWeather, GetTimeOfDay, !commands, "
    ++ "or !exec <SteamID> <command> [arguments]")

/-- The generic route. -/
def dispatch (routes : Routes σ) (text : Bytes) (authority : CommandAuthority) :
    GameM σ Bytes :=
  if !isRconAuthorized authority then pure authorityRequired
  else
    let request := parseDispatchRequest text
    match request.action with
    | .invalid => pure (ascii "error: " ++ request.error)
    | .players => routes.listPlayers
    | .weather => routes.weather false
    | .timeOfDay => routes.weather true
    | .commands => routes.catalogue request.filter
    | .execute => routes.execute request
    | .unknown => pure unsupported

end Registry

structure AdminDispatch where
  initialized : Bool := false

def notInitialized : Bytes :=
  ascii "error: AdminDispatch not initialized"

def dispatchCommand (routes : Routes σ) (d : AdminDispatch) (text : Bytes)
    (authority : CommandAuthority) : GameM σ Bytes := do
  if !isRconAuthorized authority then pure authorityRequired
  else if !d.initialized then pure notInitialized
  else
    match ← Godmode.dispatch routes text authority with
    | some reply => pure reply
    | none => Registry.dispatch routes text authority

/-! ### Texts without an action -/

/-- An action of the generic route. -/
def DispatchAction.Acts (action : DispatchAction) : Prop :=
  action ∈ [.players, .weather, .timeOfDay, .commands, .execute]

instance (action : DispatchAction) : Decidable action.Acts :=
  inferInstanceAs (Decidable (_ ∈ _))

/-- A reply that reports an error. -/
def IsError (reply : Bytes) : Prop :=
  ascii "error: " <+: reply

instance (reply : Bytes) : Decidable (IsError reply) :=
  inferInstanceAs (Decidable (ascii "error: " <+: reply))

/-- The text is dispatched without an action: neither parser classifies it as one, and for
every game the reply is an error and nothing else happens. -/
structure Rejected (text : Bytes) : Prop where
  godmode : ¬ (Godmode.parse text).action.Acts
  request : ¬ (parseDispatchRequest text).action.Acts
  reply : ∀ (σ : Type) (routes : Routes σ) (d : AdminDispatch) (authority : CommandAuthority),
    ∃ reply, IsError reply ∧ dispatchCommand routes d text authority = pure reply

theorem isError_append {s : Bytes} (h : IsError s) (t : Bytes) :
  IsError (s ++ t)
  := h.trans (List.prefix_append s t)

theorem isError_authorityRequired :
  IsError authorityRequired
  := by decide +kernel

theorem isError_notInitialized :
  IsError notInitialized
  := by decide +kernel

theorem Godmode.isError_usage :
  IsError Godmode.usage
  := by decide +kernel

theorem Registry.isError_unsupported :
  IsError Registry.unsupported
  := by decide +kernel

/-- The parser's actions the native command handler refuses. -/
theorem DispatchAction.not_acts_iff {action : DispatchAction} :
  ¬ action.Acts ↔ action = .unknown ∨ action = .invalid
  := by
  cases action <;> decide

/-- The parser's actions the godmode handler refuses or passes on. -/
theorem Godmode.Action.not_acts_iff {action : Godmode.Action} :
  ¬ action.Acts ↔ action = .unrelated ∨ action = .invalid
  := by
  cases action <;> decide

/-- Where the generic parser has no action, the generic route replies with an error. -/
theorem Registry.dispatch_of_not_acts (routes : Routes σ) {text : Bytes}
    (authority : CommandAuthority) (h : ¬ (parseDispatchRequest text).action.Acts) :
  ∃ reply, IsError reply ∧ Registry.dispatch routes text authority = pure reply
  := by
  rw [Registry.dispatch]
  split
  · use authorityRequired, isError_authorityRequired
  dsimp only
  rcases DispatchAction.not_acts_iff.mp h with hunknown | hinvalid
  · rw [hunknown]
    use Registry.unsupported, Registry.isError_unsupported
  · rw [hinvalid]
    use ascii "error: " ++ (parseDispatchRequest text).error
    constructor
    · apply List.prefix_append
    · rfl

/-- Where the GodMode parser rejects the text, the GodMode route replies with an error. -/
theorem Godmode.dispatch_of_invalid (routes : Routes σ) {text : Bytes}
    (authority : CommandAuthority) (h : (Godmode.parse text).action = .invalid) :
  ∃ reply, IsError reply ∧ Godmode.dispatch routes text authority = pure (some reply)
  := by
  rw [Godmode.dispatch, h, if_neg (by decide), if_pos rfl]
  split
  · use authorityRequired, isError_authorityRequired
  · use Godmode.usage, Godmode.isError_usage

/-- The godmode handler leaves every other command to the registry. -/
theorem Godmode.dispatch_of_unrelated (routes : Routes σ) {text : Bytes}
    (authority : CommandAuthority) (h : (Godmode.parse text).action = .unrelated) :
  Godmode.dispatch routes text authority = pure none
  := by
  rw [Godmode.dispatch, if_pos h]

/-- Where no parser has an action, the reply is an error. -/
theorem rejected_of_not_acts {text : Bytes} (hgodmode : ¬ (Godmode.parse text).action.Acts)
    (hrequest : ¬ (parseDispatchRequest text).action.Acts) :
  Rejected text
  := by
  use hgodmode, hrequest
  intro σ routes d authority
  rw [dispatchCommand]
  split
  · use authorityRequired, isError_authorityRequired
  split
  · use notInitialized, isError_notInitialized
  rcases Godmode.Action.not_acts_iff.mp hgodmode with hunrelated | hinvalid
  · rw [Godmode.dispatch_of_unrelated routes authority hunrelated, pure_bind]
    apply Registry.dispatch_of_not_acts routes authority hrequest
  · obtain ⟨reply, herror, hreply⟩ := Godmode.dispatch_of_invalid routes authority hinvalid
    rw [hreply, pure_bind]
    use reply, herror

/-! ### Control characters -/

/-- The parser of the generic route rejects a text with a byte that may not stand in it. -/
theorem parseDispatchRequest_of_not_plain {text : Bytes}
    (h : ∃ c ∈ text.trim isTrimmed, ¬ Plain c) :
  (parseDispatchRequest text).action = .invalid
  := by
  by_contra hvalid
  obtain ⟨first, others, htokenized⟩ := exists_tokenized hvalid
  obtain ⟨c, hc, hplain⟩ := h
  apply hplain
  apply htokenized.plain c hc

/-- A request with an embedded control character is rejected exactly when it is not, between
white space of the classic locale, a well-formed request of the GodMode route. -/
theorem rejected_iff_of_control (text : Bytes)
    (hcontrol : ∃ c ∈ text.trim isTrimmed, ¬ Plain c) :
  Rejected text ↔ ¬ ∃ r, Godmode.WellFormed (text.words Godmode.isSpace) r
  := by
  constructor
  · intro h
    rw [← Godmode.parse_acts_iff]
    apply h.godmode
  · intro h
    apply rejected_of_not_acts
    · rw [Godmode.parse_acts_iff]
      apply h
    · rw [parseDispatchRequest_of_not_plain hcontrol]
      decide

/-- Two command lines in one text. -/
theorem rejected_two_lines :
  Rejected (ascii "GetWeather\nListPlayers")
  := by
  apply (rejected_iff_of_control _ ⟨Byte.lineFeed, by decide +kernel, by decide⟩).mpr
  rw [← Godmode.parse_acts_iff]
  decide +kernel

/-- A line feed between the words of a GodMode request is accepted. -/
theorem not_rejected_godmode_lines :
  (ascii "SetGodMode\ntrue 76561198000000001").length ≤ 8192 ∧
  (∃ c ∈ (ascii "SetGodMode\ntrue 76561198000000001").trim isTrimmed, ¬ Plain c) ∧
  Godmode.parse (ascii "SetGodMode\ntrue 76561198000000001")
    = { action := .execute, steamId := ascii "76561198000000001", enabled := true } ∧
  ¬ Rejected (ascii "SetGodMode\ntrue 76561198000000001")
  := by
  have hparse : Godmode.parse (ascii "SetGodMode\ntrue 76561198000000001")
      = { action := .execute, steamId := ascii "76561198000000001", enabled := true } := by
    decide +kernel
  use by decide, ⟨Byte.lineFeed, by decide +kernel, by decide⟩, hparse
  intro h
  have hgodmode := h.godmode
  rw [hparse] at hgodmode
  apply hgodmode
  decide

end OpenScumRcon
