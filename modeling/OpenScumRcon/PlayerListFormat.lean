import OpenScumRcon.PlayerList
import OpenScumRcon.ResponseBuffer

/-!
# The format of the player list

The list is text without escapes, read line by line. No name breaks it: whatever a player is
called, there is one line for each player, its first digits of the length of a SteamID are the
SteamID of the player, and its two bars delimit the name with the offending bytes replaced.
-/

namespace OpenScumRcon

/-! ### The names -/

/-- A text that stands in a field. -/
structure FieldText (text : Bytes) : Prop where
  valid : Utf8.Valid text
  length : text.length ≤ 512
  byte : ∀ c ∈ text, 32 ≤ c ∧ c ≠ Byte.delete ∧ c ≠ Byte.verticalBar

/-- A cleaned byte is no control byte and no separator. -/
theorem cleanByte_spec (c : Byte) :
  32 ≤ cleanByte c ∧ cleanByte c ≠ Byte.delete ∧ cleanByte c ≠ Byte.verticalBar
  := by
  rw [cleanByte]
  split
  · decide
  · next h =>
      rw [not_or, not_or, UInt8.not_lt] at h
      apply h

theorem cleanByte_of_le {c : Byte} (h : 128 ≤ c.toNat) :
  cleanByte c = c
  := by
  rw [cleanByte, if_neg]
  simp only [UInt8.lt_iff_toNat_lt, ← UInt8.toNat_inj, Byte.delete, Byte.verticalBar,
    UInt8.reduceToNat]
  omega

theorem toNat_cleanByte_lt {c : Byte} (h : c.toNat < 128) :
  (cleanByte c).toNat < 128
  := by
  rw [cleanByte]
  split
  · decide
  · apply h

/-- Replacing single bytes keeps a valid text valid, so the cut does not split a character. -/
theorem fieldText_field {value : Bytes} (h : Utf8.Valid value) :
  FieldText (field value)
  := by
  have hvalid : Utf8.Valid (value.map cleanByte) := by
    apply h.map
    · intro c hc
      apply toNat_cleanByte_lt hc
    · intro c hc
      apply cleanByte_of_le hc
  constructor
  · apply (hvalid.split (utf8PrefixSize_isBoundary_of_valid hvalid 512)).1
  · rw [field, List.length_take]
    apply Nat.le_trans (Nat.min_le_left _ _)
    apply utf8PrefixSize_le_limit
  · intro c hc
    obtain ⟨b, -, rfl⟩ := List.mem_map.mp (List.mem_of_mem_take hc)
    apply cleanByte_spec

/-! ### Texts without bars and line feeds -/

/-- Neither a bar nor a line feed stands in the text. -/
def Clean (text : Bytes) : Prop :=
  ∀ c ∈ text, c ≠ Byte.verticalBar ∧ c ≠ Byte.lineFeed

instance (text : Bytes) : Decidable (Clean text) :=
  inferInstanceAs (Decidable (∀ _ ∈ _, _))

theorem clean_append {s t : Bytes} :
  Clean (s ++ t) ↔ Clean s ∧ Clean t
  := List.forall_mem_append

/-- Digits and signs are clean. -/
theorem clean_of_isDigit {text : Bytes} (h : ∀ c ∈ text, c = Byte.minus ∨ isDigit c = true) :
  Clean text
  := by
  intro c hc
  have hdigit := h c hc
  constructor
  · rintro rfl
    revert hdigit
    decide
  · rintro rfl
    revert hdigit
    decide

theorem clean_decimal (i : ℤ) :
  Clean (decimal i)
  := clean_of_isDigit fun _ h => mem_decimal h

theorem FieldText.clean {text : Bytes} (h : FieldText text) :
  Clean text
  := by
  intro c hc
  obtain ⟨hle, -, hbar⟩ := h.byte c hc
  use hbar
  rintro rfl
  revert hle
  decide

/-- A labelled value is clean when the value is, also the value that is missing. -/
theorem clean_labelled {label : String} {value : Option Bytes} (hlabel : Clean (ascii label))
    (hvalue : ∀ text ∈ value, Clean text) :
  Clean (labelled label value)
  := by
  cases value with
  | none => rintro _ ⟨⟩
  | some text => apply clean_append.mpr ⟨hlabel, hvalue text rfl⟩

theorem clean_addressText {ip : Option Bytes} (h : ∀ text ∈ ip, Clean text) :
  Clean (addressText ip)
  := by
  cases ip with
  | none =>
      rw [addressText]
      decide +kernel
  | some text =>
      rw [addressText, clean_append, clean_append]
      exact ⟨⟨by decide +kernel, h text rfl⟩, by decide +kernel⟩

/-- The balances are numbers. -/
theorem World.clean_balance (w : World) (controller : ℕ) (name : String) :
  ∀ text ∈ w.balance controller name, Clean text
  := by
  intro text h
  rw [World.balance] at h
  split at h
  · cases h
  · rw [← Option.some.inj h]
    apply clean_decimal

theorem World.clean_ping (w : World) (controller : ℕ) :
  ∀ text ∈ w.ping controller, Clean text
  := by
  intro text h
  rw [World.ping] at h
  split at h
  · cases h
  · rw [← Option.some.inj h]
    apply clean_decimal

/-- The rendered coordinates of a controller, if there are any, are clean. -/
def World.CleanLocation (w : World) (controller : ℕ) : Prop :=
  ∀ text ∈ w.coordinates controller, Clean text

/-- What stands behind a player's name is clean. -/
theorem clean_playerDetails {w : World} {controller : ℕ} {ip : Option Bytes}
    (hip : ∀ text ∈ ip, Clean text) (hlocation : w.CleanLocation controller) :
  Clean (playerDetails w controller ip)
  := by
  have hupid : ∀ text ∈ (w.profileId controller).map fun id => decimal id.toInt,
      Clean text := by
    intro text htext
    obtain ⟨id, -, rfl⟩ := Option.map_eq_some_iff.mp htext
    apply clean_decimal
  simp only [playerDetails, clean_append]
  refine ⟨⟨⟨⟨⟨?_, clean_addressText hip⟩, ?_⟩, ?_⟩, ?_⟩, ?_⟩
  · apply clean_labelled (by decide +kernel) hupid
  · apply clean_labelled (by decide +kernel) (w.clean_balance _ _)
  · apply clean_labelled (by decide +kernel) (w.clean_balance _ _)
  · apply clean_labelled (by decide +kernel) (w.clean_ping _)
  · apply clean_labelled (by decide +kernel) hlocation

/-- The details are set off by a space. -/
theorem exists_playerDetails (w : World) (controller : ℕ) (ip : Option Bytes) :
  ∃ rest, playerDetails w controller ip = Byte.space :: rest
  := by
  have hip : ∃ rest, addressText ip = Byte.space :: rest := by
    cases ip with
    | none => exact ⟨_, rfl⟩
    | some text => exact ⟨_, rfl⟩
  obtain ⟨rest, hrest⟩ := hip
  rw [playerDetails, hrest]
  cases w.profileId controller with
  | none => exact ⟨_, rfl⟩
  | some id => exact ⟨_, rfl⟩

/-! ### What a client reads in a line -/

/-- The first so many digits in a row. -/
def firstDigits (n : ℕ) : Bytes → Option Bytes
  | [] => none
  | c :: rest =>
      let run := (c :: rest).take n
      if run.length = n ∧ run.all isDigit then some run else firstDigits n rest

/-- The search for a run of digits passes over what has none. -/
theorem firstDigits_append {n : ℕ} (hn : n ≠ 0) {front : Bytes}
    (hfront : ∀ c ∈ front, isDigit c = false) (text : Bytes) :
  firstDigits n (front ++ text) = firstDigits n text
  := by
  obtain ⟨n, rfl⟩ := Nat.exists_eq_succ_of_ne_zero hn
  induction front with
  | nil => rfl
  | cons c front ih =>
      rw [List.forall_mem_cons] at hfront
      rw [List.cons_append, firstDigits, if_neg, ih hfront.2]
      rw [List.take_succ_cons, List.all_cons, hfront.1, Bool.false_and]
      rintro ⟨-, ⟨⟩⟩

/-- The search takes a run of the right length at once. -/
theorem firstDigits_of_run {run : Bytes} (hrun : run.all isDigit = true) (hne : run ≠ [])
    (text : Bytes) :
  firstDigits run.length (run ++ text) = some run
  := by
  obtain ⟨c, rest, rfl⟩ := List.exists_cons_of_ne_nil hne
  have htake : ((c :: rest) ++ text).take (c :: rest).length = c :: rest := List.take_left
  rw [List.cons_append] at htake ⊢
  rw [firstDigits, htake, if_pos ⟨rfl, hrun⟩]

/-- A line that tells a player from every other: the SteamID stands in front, where the first
digits of its length are, and the name alone stands between the two bars. -/
structure PlayerLine (id name line : Bytes) : Prop where
  leading : ascii "PLAYER steam=" ++ id ++ [Byte.space] <+: line
  first : firstDigits 17 line = some id
  bars : line.count Byte.verticalBar = 2
  between : ∃ front back, line = front
    ++ Byte.verticalBar :: (Byte.space :: name ++ [Byte.space])
    ++ Byte.verticalBar :: back

theorem count_verticalBar_of_clean {text : Bytes} (h : Clean text) :
  text.count Byte.verticalBar = 0
  := by
  rw [List.count_eq_zero]
  intro hmem
  apply (h _ hmem).1 rfl

theorem lineFeed_not_mem_of_clean {text : Bytes} (h : Clean text) :
  Byte.lineFeed ∉ text
  := by
  intro hmem
  apply (h _ hmem).2 rfl

theorem clean_steamId {id : Bytes} (h : steamIdValid id = true) :
  Clean id
  := by
  apply clean_of_isDigit
  intro c hc
  right
  apply (steamIdValid_iff.mp h).2 c hc

/-- The digits behind the leading text are the first ones. -/
theorem firstDigits_steamId {id : Bytes} (h : steamIdValid id = true) (rest : Bytes) :
  firstDigits 17 (ascii "PLAYER steam=" ++ (id ++ rest)) = some id
  := by
  obtain ⟨hlength, hdigits⟩ := steamIdValid_iff.mp h
  have hlead : ∀ c ∈ ascii "PLAYER steam=", isDigit c = false := by
    apply forall_mem_of_all
    decide +kernel
  rw [firstDigits_append (by decide) hlead, ← hlength]
  apply firstDigits_of_run
  · rw [List.all_eq_true]
    apply hdigits
  · rintro rfl
    cases hlength

/-- A line of clean texts with a space behind the SteamID. -/
theorem playerLine_of_clean {id name details : Bytes} (hid : steamIdValid id = true)
    (hdetails : Clean (Byte.space :: details)) (hname : Clean name) :
  Byte.lineFeed ∉ ascii "PLAYER steam=" ++ id ++ Byte.space :: details
    ++ [Byte.space, Byte.verticalBar, Byte.space] ++ name ++ [Byte.space, Byte.verticalBar] ∧
  PlayerLine id name (ascii "PLAYER steam=" ++ id ++ Byte.space :: details
    ++ [Byte.space, Byte.verticalBar, Byte.space] ++ name ++ [Byte.space, Byte.verticalBar])
  := by
  have hclean : Clean (ascii "PLAYER steam=" ++ id ++ Byte.space :: details) := by
    rw [clean_append, clean_append]
    exact ⟨⟨by decide +kernel, clean_steamId hid⟩, hdetails⟩
  constructor
  · rw [List.mem_append, List.mem_append, List.mem_append]
    rintro (((hmem | hmem) | hmem) | hmem)
    · apply lineFeed_not_mem_of_clean hclean hmem
    · revert hmem
      decide
    · apply lineFeed_not_mem_of_clean hname hmem
    · revert hmem
      decide
  · constructor
    · use details ++ [Byte.space, Byte.verticalBar, Byte.space] ++ name
        ++ [Byte.space, Byte.verticalBar]
      simp only [List.append_assoc, List.cons_append, List.nil_append]
    · simp only [List.append_assoc]
      apply firstDigits_steamId hid
    · rw [List.count_append, List.count_append, List.count_append,
        count_verticalBar_of_clean hclean, count_verticalBar_of_clean hname]
      decide
    · use ascii "PLAYER steam=" ++ id ++ Byte.space :: details ++ [Byte.space], []
      simp only [List.append_assoc, List.cons_append, List.nil_append]

/-- The line of a player, without the line feed at its end. -/
theorem exists_playerLine {w : World} {player : Player} {ip : Option Bytes} {name : Bytes}
    (hid : steamIdValid player.id = true) (hip : ∀ text ∈ ip, Clean text)
    (hlocation : w.CleanLocation player.controller) (hname : Utf8.Valid name) :
  ∃ line, playerLine w player ip name = line ++ [Byte.lineFeed] ∧ Byte.lineFeed ∉ line ∧
    PlayerLine player.id (field name) line
  := by
  have hdetails := clean_playerDetails hip hlocation
  obtain ⟨rest, hrest⟩ := exists_playerDetails w player.controller ip
  have hopen : ascii " | " = [Byte.space, Byte.verticalBar, Byte.space] := by decide +kernel
  have hclose : ascii " |\n" = [Byte.space, Byte.verticalBar, Byte.lineFeed] := by decide +kernel
  rw [hrest] at hdetails
  use ascii "PLAYER steam=" ++ player.id ++ Byte.space :: rest
    ++ [Byte.space, Byte.verticalBar, Byte.space] ++ field name ++ [Byte.space, Byte.verticalBar]
  constructor
  · rw [playerLine, hrest, hopen, hclose, List.append_assoc _ [Byte.space, Byte.verticalBar]]
    rfl
  · apply playerLine_of_clean hid hdetails (fieldText_field hname).clean

/-! ### The whole list -/

/-- A connected player with a name. -/
structure OnlinePlayer where
  controller : ℕ
  steamId : Bytes
  name : Bytes

def OnlinePlayer.toPlayer (p : OnlinePlayer) : Player :=
  { controller := p.controller, id := p.steamId }

/-- A text that is rendered as the address of a player. -/
def World.rendersAddress (w : World) (address : Bytes) : Bool :=
  address ≠ [] ∧ address.length ≤ 45 ∧ w.isIpAddress (cString address) = true

/-- The remote address of the connection of a controller, if it is read, is a text, and what is rendered
of it is clean. -/
def World.CleanAddress (w : World) (controller : ℕ) : Prop :=
  w.supportedBuild = true → w.hasAddress controller = true →
    ∀ value ∈ w.remoteAddress w.addressFunction (w.objectProperty controller "NetConnection"),
      ∃ ip, utf8 value = .ok ip ∧ (w.rendersAddress ip = true → Clean ip)

/-- The world holds the players, and the reflection behind the list is available. -/
structure World.Online (w : World) (players : List OnlinePlayer) : Prop where
  reflection : w.PlayerReflection
  details : w.getUserProfileName ≠ 0 ∧ w.parmsSize w.getUserProfileName = 16 ∧ w.prisonerClass ≠ 0
  readable : w.Readable
  connected : w.players = players.map OnlinePlayer.toPlayer
  name : ∀ p ∈ players,
    wideCharToMultiByte (w.callString w.getUserProfileName p.controller) = some p.name
  address : ∀ p ∈ players, w.CleanAddress p.controller
  location : ∀ p ∈ players, w.CleanLocation p.controller

/-- The names are within the bound on strings of the game. -/
def World.ShortNames (w : World) (players : List OnlinePlayer) : Prop :=
  ∀ p ∈ players, (w.callString w.getUserProfileName p.controller).length ≤ 65536

/-- Reading an address succeeds and leaves the world as it is. -/
theorem run_connectionIp {controller : ℕ} {s : Game} (h : s.world.CleanAddress controller) :
  ∃ ip s', (connectionIp controller).run.run s = (.ok ip, s') ∧ s'.world = s.world ∧
    ∀ text ∈ ip, Clean text
  := by
  rw [connectionIp, GameM.run_bind, GameM.run_get]
  dsimp only
  split
  · use none, s, rfl, rfl
    rintro _ ⟨⟩
  next hread =>
  simp only [Bool.or_eq_true, Bool.not_eq_true', not_or, Bool.not_eq_true, Bool.not_eq_false] at hread
  cases hvalue : s.world.remoteAddress s.world.addressFunction
      (s.world.objectProperty controller "NetConnection") with
  | none =>
      use none, { s with addressFaulted := true }, rfl, rfl
      rintro _ ⟨⟩
  | some value =>
      obtain ⟨ip, hip, hclean⟩ := h hread.1.2 hread.2 value hvalue
      dsimp only
      rw [GameM.run_bind, GameM.run_ofExcept, hip]
      dsimp only
      split
      · use none, s, rfl, rfl
        rintro _ ⟨⟩
      · next hrendered =>
          use some ip, s, rfl, rfl
          intro text htext
          rw [← Option.some.inj htext]
          apply hclean
          simpa [World.rendersAddress] using hrendered

/-- One line for each player. -/
theorem run_lines {w : World} (players : List OnlinePlayer)
    (hid : ∀ p ∈ players, steamIdValid p.steamId = true)
    (hname : ∀ p ∈ players, w.stringCall p.controller w.getUserProfileName = .ok p.name ∧
      Utf8.Valid p.name)
    (haddress : ∀ p ∈ players, w.CleanAddress p.controller)
    (hlocation : ∀ p ∈ players, w.CleanLocation p.controller) :
  ∀ s : Game, s.world = w → ∃ lines s',
    (listPlayers.lines w (players.map OnlinePlayer.toPlayer)).run.run s
      = (.ok (lines.flatMap (· ++ [Byte.lineFeed])), s') ∧
    (∀ line ∈ lines, Byte.lineFeed ∉ line) ∧
    List.Forall₂ (fun p line => PlayerLine p.steamId (field p.name) line) players lines
  := by
  induction players with
  | nil =>
      intro s _
      use [], s, rfl, by simp
      apply List.Forall₂.nil
  | cons p players ih =>
      intro s hs
      rw [List.forall_mem_cons] at hid hname haddress hlocation
      obtain ⟨ip, s₁, hip, hs₁, hclean⟩ := run_connectionIp (by rw [hs]; apply haddress.1)
      obtain ⟨lines, s₂, hlines, hfeed, hall⟩ :=
        ih hid.2 hname.2 haddress.2 hlocation.2 s₁ (hs₁.trans hs)
      have hplayer : p.toPlayer = { controller := p.controller, id := p.steamId } := rfl
      obtain ⟨line, hline, hline', hformat⟩ := exists_playerLine
        (by apply hid.1 : steamIdValid p.toPlayer.id = true) hclean hlocation.1 hname.1.2
      use line :: lines, s₂
      refine ⟨?_, List.forall_mem_cons.mpr ⟨hline', hfeed⟩, .cons hformat hall⟩
      rw [hplayer] at hline
      rw [List.map_cons, hplayer, listPlayers.lines, GameM.run_bind, hip]
      dsimp only
      rw [GameM.run_bind, GameM.run_ofExcept, hname.1.1]
      dsimp only
      rw [GameM.run_bind, hlines]
      dsimp only
      rw [GameM.run_pure, List.flatMap_cons, ← hline]

/-- The players in the order of their SteamIDs. -/
theorem exists_sorted {w : World} {players : List OnlinePlayer}
    (hnodup : (players.map OnlinePlayer.steamId).Nodup) (hlength : players.length ≤ 1024)
    (h : w.Online players) :
  ∃ sorted : List OnlinePlayer, w.connectedPlayers = .ok (sorted.map OnlinePlayer.toPlayer) ∧
    sorted.Perm players ∧ (sorted.map OnlinePlayer.steamId).Pairwise (· < ·)
  := by
  let sorted := players.insertionSort fun a b => a.steamId ≤ b.steamId
  have hperm : sorted.Perm players := List.perm_insertionSort _ _
  have hmap : sorted.map OnlinePlayer.toPlayer
      = (players.map OnlinePlayer.toPlayer).insertionSort fun a b => a.id ≤ b.id := by
    apply List.map_insertionSort
    intro a _ b _
    rfl
  use sorted
  refine ⟨?_, hperm, ?_⟩
  · apply World.connectedPlayers_eq_ok_iff.mpr
    rw [h.connected, List.length_map, List.map_map]
    exact ⟨h.reflection, h.readable, hnodup, hlength, hmap⟩
  · have hle : (sorted.map OnlinePlayer.steamId).Pairwise (· ≤ ·) := by
      have hsorted := List.pairwise_insertionSort (fun a b : Player => a.id ≤ b.id)
        (players.map OnlinePlayer.toPlayer)
      rw [← hmap, List.pairwise_map] at hsorted
      apply List.pairwise_map.mpr hsorted
    have hne : (sorted.map OnlinePlayer.steamId).Pairwise (· ≠ ·) :=
      (hperm.map _).nodup_iff.mpr hnodup
    apply (hle.and hne).imp
    rintro a b ⟨hab, hab'⟩
    apply Std.lt_of_le_of_ne hab hab'

/-- The reply has one line for each player, in the order of their SteamIDs, and nothing
else. -/
def ListsPlayers (players : List OnlinePlayer) (reply : Bytes) : Prop :=
  ∃ (lines : List Bytes) (sorted : List OnlinePlayer),
    reply = lines.flatMap (· ++ [Byte.lineFeed]) ∧ (∀ line ∈ lines, Byte.lineFeed ∉ line) ∧
    sorted.Perm players ∧ (sorted.map OnlinePlayer.steamId).Pairwise (· < ·) ∧
    List.Forall₂ (fun p line => PlayerLine p.steamId (field p.name) line) sorted lines

/-- Whatever they are called, the reply lists the connected players. -/
theorem player_list {s : Game} {players : List OnlinePlayer} (hne : players ≠ [])
    (hlength : players.length ≤ 1024) (hnodup : (players.map OnlinePlayer.steamId).Nodup)
    (honline : s.world.Online players) (hshort : s.world.ShortNames players) :
  (∃ reply s', listPlayers.run.run s = (.ok reply, s') ∧ ListsPlayers players reply) ∧
    ∀ p ∈ players, FieldText (field p.name)
  := by
  obtain ⟨sorted, hsorted, hperm, horder⟩ := exists_sorted hnodup hlength honline
  have hid : ∀ p ∈ sorted, steamIdValid p.steamId = true := by
    intro p hp
    have hmem : p.toPlayer ∈ s.world.players := by
      rw [honline.connected]
      apply List.mem_map_of_mem (hperm.mem_iff.mp hp)
    obtain ⟨object, -, hobject⟩ := List.mem_filterMap.mp hmem
    apply (World.player_eq_some_iff.mp hobject).2.2.1
  have hname : ∀ p ∈ players, s.world.stringCall p.controller s.world.getUserProfileName
      = .ok p.name ∧ Utf8.Valid p.name := by
    intro p hp
    constructor
    · apply utf8_eq_ok_iff.mpr
      exact ⟨hshort p hp, honline.name p hp⟩
    · apply valid_wideCharToMultiByte (honline.name p hp)
  obtain ⟨lines, s', hlines, hfeed, hformat⟩ := run_lines sorted hid
    (fun p hp => hname p (hperm.mem_iff.mp hp))
    (fun p hp => honline.address p (hperm.mem_iff.mp hp))
    (fun p hp => honline.location p (hperm.mem_iff.mp hp)) s rfl
  constructor
  · use lines.flatMap (· ++ [Byte.lineFeed]), s'
    refine ⟨?_, lines, sorted, rfl, hfeed, hperm, horder, hformat⟩
    have hsome : sorted.map OnlinePlayer.toPlayer ≠ [] := by
      rw [Ne, List.map_eq_nil_iff]
      rintro rfl
      apply hne hperm.nil_eq.symm
    have hdetails : ¬ (s.world.getUserProfileName = 0 ∨
        s.world.parmsSize s.world.getUserProfileName ≠ 16 ∨ s.world.prisonerClass = 0) := by
      rw [not_or, not_or, not_not]
      apply honline.details
    rw [listPlayers, GameM.run_bind, GameM.run_get]
    dsimp only
    rw [GameM.run_bind, GameM.run_ofExcept, hsorted]
    dsimp only
    rw [if_neg hsome, if_neg hdetails, hlines]
  · intro p hp
    apply fieldText_field (hname p hp).2

/-- A world in which every controller of the list is connected. -/
def worldOf (controllers : List ℕ) (userId name : ℕ → WideString) : World where
  numElements := 100
  indexToObject i := some { object := i.toNat, isValid := true }
  objects := controllers
  internalIndex object := object
  isA _ cls := cls == 1
  staticFindObject path :=
    if path = "/Script/SCUM.ConZPlayerController" then 1
    else if path = "/Script/SCUM.ConZPlayerController:GetUserId" then 2
    else if path = "/Script/SCUM.ConZPlayerController:GetUserProfileName" then 3
    else if path = "/Script/SCUM.Prisoner" then 4
    else 0
  propertyByName _ name := if name = "NetConnection" then 5 else 0
  propertyKind _ := .object
  objectValue _ _ := 50
  parmsSize _ := 16
  callString function object := if function = 2 then userId object else name object

def wideOf (text : String) : WideString :=
  text.toList.flatMap Utf16.encodeChar

/-- A player whose name looks like another line of the list. -/
def forger : OnlinePlayer where
  controller := 11
  steamId := ascii "76561198000000001"
  name := ascii "x |\nPLAYER steam=76561198000000009 | y"

def bystander : OnlinePlayer where
  controller := 10
  steamId := ascii "76561198000000002"
  name := ascii "z"

def forged : Game where
  world := worldOf [10, 11]
    (fun object => wideOf (if object = 10 then "76561198000000002" else "76561198000000001"))
    (fun object => wideOf (if object = 10 then "z" else "x |\nPLAYER steam=76561198000000009 | y"))

/-- A name that imitates another player's line. -/
theorem player_list_forged :
  (∃ reply s', listPlayers.run.run forged = (.ok reply, s') ∧
    ListsPlayers [bystander, forger] reply) ∧
  ∀ p ∈ [bystander, forger], FieldText (field p.name)
  := by
  apply player_list
  · apply List.cons_ne_nil
  · decide
  · decide +kernel
  · constructor
    · exact ⟨by decide +kernel, by decide +kernel, by decide +kernel⟩
    · decide +kernel
    · intro object hobject _
      rcases List.mem_pair.mp hobject with rfl | rfl
      · use bystander.steamId
        decide +kernel
      · use forger.steamId
        decide +kernel
    · decide +kernel
    · decide +kernel
    · rintro p _ ⟨⟩
    · rintro p _ text ⟨⟩
  · rw [World.ShortNames]
    decide +kernel

/-- There is no reply when the name of the only player is too long. -/
theorem run_listPlayers_of_long {s : Game} {p : OnlinePlayer} (honline : s.world.Online [p])
    (hlong : 65536 < (s.world.callString s.world.getUserProfileName p.controller).length) :
  ∃ s', listPlayers.run.run s
    = (.error (.exception (ascii "invalid reflected string length")), s')
  := by
  obtain ⟨sorted, hsorted, hperm, -⟩ := exists_sorted (by simp) (by simp) honline
  rw [List.perm_singleton.mp hperm] at hsorted
  obtain ⟨ip, s', hip, -, -⟩ := run_connectionIp (honline.address p List.mem_cons_self)
  have hname := utf8_of_lt_length hlong
  have hdetails : ¬ (s.world.getUserProfileName = 0 ∨
      s.world.parmsSize s.world.getUserProfileName ≠ 16 ∨ s.world.prisonerClass = 0) := by
    rw [not_or, not_or, not_not]
    apply honline.details
  have hplayer : p.toPlayer = { controller := p.controller, id := p.steamId } := rfl
  use s'
  rw [listPlayers, GameM.run_bind, GameM.run_get]
  dsimp only
  rw [GameM.run_bind, GameM.run_ofExcept, hsorted]
  dsimp only
  rw [if_neg (by simp), if_neg hdetails, List.map_singleton, hplayer, listPlayers.lines,
    GameM.run_bind, hip]
  dsimp only
  rw [GameM.run_bind, GameM.run_ofExcept, World.stringCall, hname]

/-- A player whose name exceeds the bound on strings of the game. -/
def longNamed : OnlinePlayer where
  controller := 10
  steamId := ascii "76561198000000001"
  name := (List.replicate 65537 'a').flatMap String.utf8EncodeChar

def withLongName : Game where
  world := worldOf [10] (fun _ => wideOf "76561198000000001")
    fun _ => (List.replicate 65537 'a').flatMap Utf16.encodeChar

/-- The name exceeds the bound, and there is no list. -/
theorem not_player_list_longName :
  steamIdValid longNamed.steamId = true ∧ Utf8.Valid longNamed.name ∧
  withLongName.world.Online [longNamed] ∧
  ∃ s', listPlayers.run.run withLongName
    = (.error (.exception (ascii "invalid reflected string length")), s')
  := by
  have hunits : ∀ n : ℕ, ((List.replicate n 'a').flatMap Utf16.encodeChar).length = n := by
    intro n
    induction n with
    | zero => rfl
    | succ n ih =>
        rw [List.replicate_succ, List.flatMap_cons, List.length_append, ih, Nat.add_comm]
        rfl
  have hname : ∀ n : ℕ, wideCharToMultiByte ((List.replicate n 'a').flatMap Utf16.encodeChar)
      = some ((List.replicate n 'a').flatMap String.utf8EncodeChar) := by
    intro n
    rw [wideCharToMultiByte, Utf16.decode_flatMap_encodeChar]
    rfl
  have honline : withLongName.world.Online [longNamed] := by
    constructor
    · exact ⟨by decide +kernel, by decide +kernel, by decide +kernel⟩
    · decide +kernel
    · intro object hobject _
      rcases List.mem_singleton.mp hobject with rfl
      use longNamed.steamId
      decide +kernel
    · decide +kernel
    · intro p hp
      rw [List.mem_singleton.mp hp]
      apply hname
    · rintro p _ ⟨⟩
    · rintro p _ text ⟨⟩
  use by decide +kernel, Utf8.Valid.flatMap_encodeChar _, honline
  apply run_listPlayers_of_long honline
  apply Nat.lt_of_lt_of_eq _ (hunits 65537).symm
  decide

end OpenScumRcon
