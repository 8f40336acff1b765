import OpenScumRcon.ConnectedPlayers
import OpenScumRcon.Game

/-!
# The list of players

`listPlayers` writes one line for each connected player: the SteamID, what else is known of the
player, and the name. The name is chosen by the player, so what could be taken for another
line or another field is replaced in it.
-/

namespace OpenScumRcon

/-! ### The parts of a line -/

/-- The bytes of a field that would end it are replaced by spaces. -/
def cleanByte (c : Byte) : Byte :=
  if c < 32 ∨ c = Byte.delete ∨ c = Byte.verticalBar then Byte.space else c

def field (value : Bytes) : Bytes :=
  let value := value.map cleanByte
  value.take (utf8PrefixSize value 512)

/-- The text of a C string. -/
def cString (text : Bytes) : Bytes :=
  text.takeWhile (· ≠ Byte.nul)

/-- An optional part of a line. -/
def labelled (label : String) : Option Bytes → Bytes
  | none => []
  | some value => ascii label ++ value

namespace World

def getUserProfileName (w : World) : ℕ :=
  w.staticFindObject "/Script/SCUM.ConZPlayerController:GetUserProfileName"

def prisonerClass (w : World) : ℕ :=
  w.staticFindObject "/Script/SCUM.Prisoner"

def profileId (w : World) (controller : ℕ) : Option Int64 :=
  let fn := w.staticFindObject "/Script/SCUM.ConZPlayerController:GetUserProfileId"
  let expected := w.staticFindObject "/Script/SCUM.DbIntegerId"
  let result := w.returnProperty fn
  if fn = 0 ∨ expected = 0 ∨ result = 0 ∨ w.propertyKind result ≠ .struct ∨
      w.structOf result ≠ expected ∨ w.parmsSize fn ≠ 8 ∨ w.elementSize result ≠ 8 ∨
      w.offset result ≠ 0 ∨ w.propertiesSize expected ≠ 8 then none
  else if (w.structProperties expected).any fun p =>
      w.propertyName p = "Value" && w.propertyKind p = .int64 && w.offset p = 0 then
    let value := w.callInt64 fn controller
    if 0 ≤ value then some value else none
  else none

/-- The function that reads the remote address of a connection in this build of the game. -/
def addressFunction (w : World) : ℕ :=
  w.moduleBase + 0x12dfde0

def addressCode : Bytes :=
  [0x48, 0x89, 0x5c, 0x24, 0x10, 0x48, 0x89, 0x74, 0x24, 0x18, 0x57, 0x48, 0x83, 0xec, 0x40,
    0x48, 0x8b, 0x89, 0x10, 0x01, 0x00, 0x00, 0x33, 0xf6, 0x89, 0x74, 0x24, 0x50, 0x48, 0x8b,
    0xda, 0x48]

/-- The connection of a controller is one whose address this build can read. -/
def hasAddress (w : World) (controller : ℕ) : Bool :=
  let cls := w.staticFindObject "/Script/OnlineSubsystemUtils.IpConnection"
  let connection := w.objectProperty controller "NetConnection"
  cls ≠ 0 && w.live connection && w.isA connection cls &&
    w.objectProperty connection "OwningActor" = controller &&
    w.slot connection 0x288 = w.addressFunction &&
    w.read w.addressFunction 32 = some addressCode

def balance (w : World) (controller : ℕ) (name : String) : Option Bytes :=
  let p := w.property controller name .int64
  if p = 0 then none else some (decimal (w.int64Value p controller).toInt)

def ping (w : World) (controller : ℕ) : Option Bytes :=
  let state := w.objectProperty controller "PlayerState"
  let p := w.property state "Ping" .byte
  if !w.live state || p = 0 then none
  else some (decimal ((w.byteValue p state).toNat * 4))

/-- The coordinates of the pawn, in parentheses. -/
def coordinates (w : World) (controller : ℕ) : Option Bytes :=
  let pawn := w.objectProperty controller "Pawn"
  if !w.live pawn || !w.isA pawn w.prisonerClass then none
  else
    (w.location pawn).map fun (x, y, z) =>
      x ++ ascii ", " ++ y ++ ascii ", " ++ z ++ ascii ")"

end World

/-- After a failed call the function behind the addresses is not called again. -/
def connectionIp (controller : ℕ) : GameM Game (Option Bytes) := do
  let s ← get
  let w := s.world
  if s.addressFaulted || !w.supportedBuild || !w.hasAddress controller then pure none
  else
    match w.remoteAddress w.addressFunction (w.objectProperty controller "NetConnection") with
    | none =>
        modify fun s => { s with addressFaulted := true }
        pure none
    | some value =>
        let address ← GameM.ofExcept (utf8 value)
        if address = [] ∨ 45 < address.length ∨ !w.isIpAddress (cString address) then pure none
        else pure (some address)

/-! ### The list -/

/-- What a line says of the address. -/
def addressText : Option Bytes → Bytes
  | none => ascii " ipStatus=unavailable"
  | some ip => ascii " ip=" ++ ip ++ ascii " ipSource=connection"

/-- What a line says between the identity and the name. -/
def playerDetails (w : World) (controller : ℕ) (ip : Option Bytes) : Bytes :=
  labelled " upid=" ((w.profileId controller).map fun id => decimal id.toInt)
    ++ addressText ip
    ++ labelled " money=" (w.balance controller "_moneyBalanceRep")
    ++ labelled " gold=" (w.balance controller "_goldBalanceRep")
    ++ labelled " ping=" (w.ping controller)
    ++ labelled " (" (w.coordinates controller)

/-- The identity precedes the name, so digits in the name do not hide it. -/
def playerLine (w : World) (player : Player) (ip : Option Bytes) (name : Bytes) : Bytes :=
  ascii "PLAYER steam=" ++ player.id ++ playerDetails w player.controller ip
    ++ ascii " | " ++ field name ++ ascii " |\n"

def playerDetailsUnavailable : Thrown :=
  .exception (ascii "player details reflection unavailable")

/-- The lines of the players, one after the other. -/
def listPlayers.lines (w : World) : List Player → GameM Game Bytes
  | [] => pure []
  | player :: players => do
      let ip ← connectionIp player.controller
      let name ← GameM.ofExcept (w.stringCall player.controller w.getUserProfileName)
      let rest ← lines w players
      pure (playerLine w player ip name ++ rest)

def listPlayers : GameM Game Bytes := do
  let s ← get
  let w := s.world
  let players ← GameM.ofExcept w.connectedPlayers
  if players = [] then pure (ascii "No players online.")
  else if w.getUserProfileName = 0 ∨ w.parmsSize w.getUserProfileName ≠ 16 ∨ w.prisonerClass = 0
    then throw playerDetailsUnavailable
  else listPlayers.lines w players

end OpenScumRcon
