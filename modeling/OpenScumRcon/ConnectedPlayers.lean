import Mathlib.Data.List.Sort
import OpenScumRcon.Strings
import OpenScumRcon.World

/-!
# The connected players

`connectedPlayers` goes through all objects for controllers with a live connection and a
SteamID. It refuses a SteamID that two of them have, so each SteamID in its result stands for
one controller.
-/

namespace OpenScumRcon

structure Player where
  controller : ℕ
  id : Bytes
  deriving DecidableEq

def limitExceeded : Thrown :=
  .exception (ascii "connected player limit exceeded")

def ambiguousSteamId : Thrown :=
  .exception (ascii "ambiguous connected SteamID")

def playerReflectionUnavailable : Thrown :=
  .exception (ascii "player reflection unavailable")

namespace World

def playerController (w : World) : ℕ :=
  w.staticFindObject "/Script/SCUM.ConZPlayerController"

def getUserId (w : World) : ℕ :=
  w.staticFindObject "/Script/SCUM.ConZPlayerController:GetUserId"

/-- A controller with a live connection. -/
def connected (w : World) (object : ℕ) : Bool :=
  w.live object && w.isA object w.playerController
    && w.live (w.objectProperty object "NetConnection")

def stringCall (w : World) (object function : ℕ) : Except Thrown Bytes :=
  utf8 (w.callString function object)

/-- The body of the loop. The SteamIDs of the players so far are those that have been seen. -/
def visitPlayer (w : World) (players : List Player) (object : ℕ) :
    Except Thrown (List Player) :=
  if !w.connected object then .ok players
  else
    match w.stringCall object w.getUserId with
    | .error thrown => .error thrown
    | .ok value =>
        if !steamIdValid value then .ok players
        else if value ∈ players.map Player.id then .error ambiguousSteamId
        else if 1024 ≤ players.length then .error limitExceeded
        else .ok (players ++ [{ controller := object, id := value }])

def connectedPlayers (w : World) : Except Thrown (List Player) :=
  if w.playerController = 0 ∨ w.getUserId = 0 ∨ w.parmsSize w.getUserId ≠ 16 then
    .error playerReflectionUnavailable
  else do
    let players ← w.objects.foldlM w.visitPlayer []
    pure (players.insertionSort fun a b => a.id ≤ b.id)

/-! ### The players in the world -/

/-- The player an object controls, if it is a connected controller with a SteamID. -/
def player (w : World) (object : ℕ) : Option Player :=
  if w.connected object then
    match w.stringCall object w.getUserId with
    | .ok value => if steamIdValid value then some { controller := object, id := value } else none
    | .error _ => none
  else none

/-- The players in the order of their objects. -/
def players (w : World) : List Player :=
  w.objects.filterMap w.player

theorem player_eq_some_iff {w : World} {object : ℕ} {p : Player} :
  w.player object = some p ↔ w.connected object = true ∧
    w.stringCall object w.getUserId = .ok p.id ∧ steamIdValid p.id = true ∧ p.controller = object
  := by
  rw [player]
  split
  · next hconnected =>
      split
      · next value hvalue =>
          rw [hvalue]
          split
          · next hvalid =>
              rw [Option.some.injEq]
              constructor
              · rintro rfl
                exact ⟨hconnected, rfl, hvalid, rfl⟩
              · rintro ⟨-, hid, -, rfl⟩
                rw [Except.ok.inj hid]
          · next hvalid =>
              simp only [false_iff, reduceCtorEq]
              rintro ⟨-, hid, hid', -⟩
              rw [Except.ok.inj hid] at hvalid
              apply hvalid hid'
      · next thrown hthrown =>
          rw [hthrown]
          simp
  · next hconnected =>
      simp [hconnected]

/-- The SteamIDs of connected controllers can be read. -/
def Readable (w : World) : Prop :=
  ∀ object ∈ w.objects, w.connected object = true →
    ∃ value, w.stringCall object w.getUserId = .ok value

/-! ### The loop -/

/-- One object of the loop. -/
theorem visitPlayer_eq_ok_iff {w : World} {players players' : List Player} {object : ℕ} :
  w.visitPlayer players object = .ok players' ↔
    (w.connected object = true → ∃ value, w.stringCall object w.getUserId = .ok value) ∧
    players' = players ++ (w.player object).toList ∧
    ∀ p ∈ w.player object, p.id ∉ players.map Player.id ∧ players.length < 1024
  := by
  rw [visitPlayer, player]
  by_cases hconnected : w.connected object = true
  · rw [hconnected, Bool.not_true, if_neg Bool.false_ne_true, if_pos rfl]
    cases hvalue : w.stringCall object w.getUserId with
    | error thrown => simp
    | ok value =>
        by_cases hvalid : steamIdValid value = true
        · by_cases hmem : value ∈ players.map Player.id
          · simp [hvalid, hmem, -List.mem_map]
          · by_cases hlimit : 1024 ≤ players.length
            · simp [hvalid, hmem, hlimit, Nat.not_lt_of_le hlimit]
            · simp [hvalid, hmem, hlimit, Nat.lt_of_not_le hlimit, eq_comm, -List.mem_map]
        · simp [hvalid, eq_comm]
  · simp [hconnected, eq_comm]

theorem filterMap_player_cons (w : World) (object : ℕ) (objects : List ℕ) :
  (object :: objects).filterMap w.player
    = (w.player object).toList ++ objects.filterMap w.player
  := by
  rw [List.filterMap_cons]
  cases w.player object with
  | none => rfl
  | some p => rfl

/-- Another player keeps the SteamIDs distinct and the players within the limit exactly if the
SteamID is new and there is room. -/
theorem distinct_append_iff {players : List Player} (new : Option Player)
    (hnodup : (players.map Player.id).Nodup) (hlength : players.length ≤ 1024) :
  ((players ++ new.toList).map Player.id).Nodup ∧ (players ++ new.toList).length ≤ 1024 ↔
    ∀ p ∈ new, p.id ∉ players.map Player.id ∧ players.length < 1024
  := by
  cases new with
  | none => simpa using ⟨hnodup, hlength⟩
  | some p =>
      rw [Option.toList_some, List.map_append, List.map_singleton, List.nodup_append_comm,
        List.singleton_append, List.nodup_cons, List.length_append, List.length_singleton]
      constructor
      · rintro ⟨⟨hfresh, -⟩, hroom⟩ _ ⟨⟩
        exact ⟨hfresh, hroom⟩
      · intro h
        obtain ⟨hfresh, hroom⟩ := h p rfl
        exact ⟨⟨hfresh, hnodup⟩, hroom⟩

/-- The loop over a list of objects. It succeeds when the SteamIDs can be read and the players
it collects are distinct and not too many. -/
theorem foldlM_visitPlayer_eq_ok_iff {w : World} (objects : List ℕ) {players players' : List Player}
    (hnodup : (players.map Player.id).Nodup) (hlength : players.length ≤ 1024) :
  objects.foldlM w.visitPlayer players = .ok players' ↔
    (∀ object ∈ objects, w.connected object = true →
      ∃ value, w.stringCall object w.getUserId = .ok value) ∧
    players' = players ++ objects.filterMap w.player ∧
    (players'.map Player.id).Nodup ∧ players'.length ≤ 1024
  := by
  induction objects generalizing players with
  | nil =>
      rw [List.foldlM_nil, List.filterMap_nil, List.append_nil]
      constructor
      · intro h
        obtain rfl := Except.ok.inj h
        exact ⟨by simp, rfl, hnodup, hlength⟩
      · rintro ⟨-, rfl, -⟩
        rfl
  | cons object objects ih =>
      have hdistinct := distinct_append_iff (w.player object) hnodup hlength
      rw [List.foldlM_cons, List.forall_mem_cons, filterMap_player_cons, ← List.append_assoc]
      constructor
      · intro h
        cases hvisit : w.visitPlayer players object with
        | error thrown =>
            rw [hvisit] at h
            cases h
        | ok next =>
            obtain ⟨hread, rfl, hnew⟩ := visitPlayer_eq_ok_iff.mp hvisit
            rw [hvisit] at h
            obtain ⟨hnodup', hlength'⟩ := hdistinct.mpr hnew
            obtain ⟨hreads, hrest⟩ := (ih hnodup' hlength').mp h
            exact ⟨⟨hread, hreads⟩, hrest⟩
      · rintro ⟨⟨hread, hreads⟩, rfl, hnodup', hlength'⟩
        -- the players up to this object are among those of the whole loop
        have hsublist := List.sublist_append_left (players ++ (w.player object).toList)
          (objects.filterMap w.player)
        have hnodup'' := List.Nodup.sublist (hsublist.map Player.id) hnodup'
        have hlength'' := Nat.le_trans hsublist.length_le hlength'
        have hvisit : w.visitPlayer players object
            = .ok (players ++ (w.player object).toList) := by
          apply visitPlayer_eq_ok_iff.mpr
          use hread, rfl
          apply hdistinct.mp ⟨hnodup'', hlength''⟩
        rw [hvisit]
        apply (ih hnodup'' hlength'').mpr
        exact ⟨hreads, rfl, hnodup', hlength'⟩

/-! ### The result -/

instance : Std.Total fun a b : Player => a.id ≤ b.id :=
  ⟨fun a b => List.le_total a.id b.id⟩

instance : IsTrans Player fun a b => a.id ≤ b.id :=
  ⟨fun _ _ _ hab hbc => List.le_trans hab hbc⟩

/-- The classes and functions behind the player list are there. -/
def PlayerReflection (w : World) : Prop :=
  w.playerController ≠ 0 ∧ w.getUserId ≠ 0 ∧ w.parmsSize w.getUserId = 16

/-- The connected players are the players in the world, by their SteamIDs. There are none when
two of them have the same one. -/
theorem connectedPlayers_eq_ok_iff {w : World} {players : List Player} :
  w.connectedPlayers = .ok players ↔
    w.PlayerReflection ∧ w.Readable ∧ (w.players.map Player.id).Nodup ∧
    w.players.length ≤ 1024 ∧ players = w.players.insertionSort fun a b => a.id ≤ b.id
  := by
  rw [connectedPlayers]
  split
  · next hmissing =>
      constructor
      · rintro ⟨⟩
      · rintro ⟨⟨hcls, hid, hsize⟩, -⟩
        rcases hmissing with h | h | h
        · cases hcls h
        · cases hid h
        · cases h hsize
  · next hthere =>
      rw [not_or, not_or, not_not] at hthere
      have hloop : ∀ found, w.objects.foldlM w.visitPlayer [] = .ok found ↔
          w.Readable ∧ found = w.players ∧ (found.map Player.id).Nodup ∧ found.length ≤ 1024 := by
        intro found
        apply foldlM_visitPlayer_eq_ok_iff w.objects
        · apply List.nodup_nil
        · apply Nat.zero_le
      constructor
      · intro h
        cases hplayers : w.objects.foldlM w.visitPlayer [] with
        | error thrown =>
            rw [hplayers] at h
            cases h
        | ok found =>
            rw [hplayers] at h
            obtain ⟨hread, rfl, hnodup, hlength⟩ := (hloop found).mp hplayers
            exact ⟨hthere, hread, hnodup, hlength, (Except.ok.inj h).symm⟩
      · rintro ⟨-, hread, hnodup, hlength, rfl⟩
        have hplayers := (hloop w.players).mpr ⟨hread, rfl, hnodup, hlength⟩
        rw [hplayers]
        rfl

/-- A SteamID among the connected players stands for exactly one connected controller. -/
theorem controller_unique {w : World} {players : List Player} (h : w.connectedPlayers = .ok players)
    {p : Player} (hp : p ∈ players) :
  ∀ object ∈ w.objects, w.connected object = true →
    w.stringCall object w.getUserId = .ok p.id → object = p.controller
  := by
  obtain ⟨-, -, hnodup, -, rfl⟩ := connectedPlayers_eq_ok_iff.mp h
  rw [List.mem_insertionSort] at hp
  obtain ⟨o, -, ho⟩ := List.mem_filterMap.mp hp
  obtain ⟨-, -, hvalid, -⟩ := player_eq_some_iff.mp ho
  intro object hobject hconnected hid
  have hother : { controller := object, id := p.id } ∈ w.players := by
    apply List.mem_filterMap.mpr
    use object, hobject
    apply player_eq_some_iff.mpr
    exact ⟨hconnected, hid, hvalid, rfl⟩
  have heq := List.inj_on_of_nodup_map hnodup hother hp rfl
  rw [← heq]

end World

end OpenScumRcon
