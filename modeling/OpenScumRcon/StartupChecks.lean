import OpenScumRcon.Startup
import OpenScumRcon.VerifiedGodmode

/-!
# What start-up has checked

The detours overwrite bytes of the game while the mod still compares some. No target is near what is
compared behind it, so every comparison is one with the bytes that the game has been loaded with,
however far a detour reaches, as long as it stays within a page. What it allocates for itself is not in
the image of the game. On a build that is not supported no byte is overwritten.
-/

namespace OpenScumRcon

/-! ### Reading -/

/-- What is read depends only on the bytes in the place. -/
theorem World.read_congr {w w' : World} {address n : ℕ}
    (h : ∀ i < n, w'.memory (address + i) = w.memory (address + i)) :
  w'.read address n = w.read address n
  := by
  rw [read, read]
  have hmapM : ∀ is : List ℕ, (∀ i ∈ is, i < n) →
      is.mapM (fun i => w'.memory (address + i)) = is.mapM fun i => w.memory (address + i) := by
    intro is his
    induction is with
    | nil => rfl
    | cons i is ih =>
        rw [List.forall_mem_cons] at his
        rw [List.mapM_cons, List.mapM_cons, h i his.1, ih his.2]
  rw [hmapM (List.range n) fun i hi => List.mem_range.mp hi]

namespace Loading

/-- Installing a detour in the image of the game overwrites, of the image, only so many bytes from its
target on. It may write to memory elsewhere, where it keeps what it has overwritten. -/
def Reaches (detours : Detours) (reach base : ℕ) : Prop :=
  ∀ memory, ∀ target < imageSize, ∀ rva < imageSize, (rva < target ∨ target + reach ≤ rva) →
    (detours memory (base + target)).2 (base + rva) = memory (base + rva)

/-- The image is as it has been loaded, but for bytes behind the targets of detours. -/
structure Overwritten (reach : ℕ) (targets : List ℕ) (w w' : World) : Prop where
  base : w'.moduleBase = w.moduleBase
  memory : ∀ rva < imageSize, (∀ target ∈ targets, rva < target ∨ target + reach ≤ rva) →
    w'.memory (w.moduleBase + rva) = w.memory (w.moduleBase + rva)

/-- A place in the image is away from the targets. -/
structure Apart (reach : ℕ) (targets : List ℕ) (rva n : ℕ) : Prop where
  inside : rva + n ≤ imageSize
  apart : ∀ target ∈ targets, rva + n ≤ target ∨ target + reach ≤ rva

variable {detours : Detours} {reach : ℕ} {targets : List ℕ} {w w' : World} {l : Loading}

/-- What is read away from the targets is what has been loaded. -/
theorem Overwritten.read (h : Overwritten reach targets w w') {rva n : ℕ}
    (hapart : Apart reach targets rva n) :
  w'.read (w'.moduleBase + rva) n = w.read (w.moduleBase + rva) n
  := by
  rw [h.base]
  apply World.read_congr
  intro i hi
  have hinside := hapart.inside
  rw [Nat.add_assoc]
  apply h.memory
  · omega
  · intro target htarget
    have := hapart.apart target htarget
    omega

/-- The mod behind the installation of a detour. -/
def installed (detours : Detours) (rva : ℕ) (l : Loading) : Loading :=
  { l with
    game := { l.game with
      world := { l.world with memory := (detours l.world.memory (l.world.moduleBase + rva)).2 } } }

theorem run_install (detours : Detours) (rva : ℕ) (l : Loading) :
  (install detours rva).run.run l
    = (.ok (detours l.world.memory (l.world.moduleBase + rva)).1, installed detours rva l)
  := rfl

/-- The next detour. -/
theorem Overwritten.install (h : Overwritten reach targets w l.world)
    (hreaches : Reaches detours reach w.moduleBase) {target : ℕ} (htarget : target < imageSize) :
  Overwritten reach (target :: targets) w (installed detours target l).world
  := by
  constructor
  · apply h.base
  · intro rva hrva hapart
    rw [List.forall_mem_cons] at hapart
    have hmemory : (installed detours target l).world.memory
        = (detours l.world.memory (l.world.moduleBase + target)).2 := rfl
    rw [hmemory, h.base, hreaches _ _ htarget _ hrva hapart.1]
    apply h.memory rva hrva hapart.2

/-! ### The steps of start-up -/

/-- The mod behind some of its start-up. -/
def behind (x : GameM Loading Unit) (l : Loading) : Loading :=
  (x.run.run l).2

/-- Two steps that cannot fail, one behind the other. -/
theorem behind_bind {x : GameM Loading Unit} (hx : ∀ l, (x.run.run l).1 = .ok ())
    (y : GameM Loading Unit) (l : Loading) :
  behind (do x; y) l = behind y (behind x l)
  := by
  rw [behind, GameM.run_bind]
  have hok := hx l
  cases hrun : x.run.run l with
  | mk result l' =>
      rw [hrun] at hok
      obtain rfl : result = .ok () := hok
      rw [behind, behind, hrun]

theorem ok_initializeTrace (detours : Detours) (l : Loading) :
  ((initializeTrace detours).run.run l).1 = .ok ()
  := by
  rw [initializeTrace, GameM.run_bind, GameM.run_get]
  dsimp only
  split <;> rfl

theorem ok_initializeGodmode (l : Loading) :
  (initializeGodmode.run.run l).1 = .ok ()
  := rfl

theorem ok_initializeCapture (detours : Detours) (l : Loading) :
  ((initializeCapture detours).run.run l).1 = .ok ()
  := by
  rw [initializeCapture, GameM.run_bind, GameM.run_get]
  dsimp only
  split <;> rfl

theorem ok_installObservers (detours : Detours) (l : Loading) :
  ((installObservers detours).run.run l).1 = .ok ()
  := by
  rw [installObservers, GameM.run_bind, GameM.run_get]
  dsimp only
  split <;> rfl

/-! ### What is compared -/

/-- The targets of the detours, the last first. -/
def hooked : List ℕ :=
  [interfaceRva, Godmode.canExecuteRva, responseRva, Godmode.executeRva]

theorem Overwritten.mono (h : Overwritten reach targets w w') {others : List ℕ}
    (hsubset : targets ⊆ others) :
  Overwritten reach others w w'
  := by
  constructor
  · apply h.base
  · intro rva hrva hapart
    apply h.memory rva hrva
    intro target htarget
    apply hapart target (hsubset htarget)

/-- The world has been overwritten only behind targets, and not at all if the build does not match.
The mod knows which. -/
structure Checked (reach : ℕ) (targets : List ℕ) (w : World) (l : Loading) : Prop where
  supported : l.world.supportedBuild = buildMatches w
  unsupported : buildMatches w = false → l.world.memory = w.memory
  overwritten : Overwritten reach targets w l.world
  function : l.world.captureFunction = w.moduleBase + responseRva

/-- Installing a detour keeps what has been checked, on a build that matches. -/
theorem Checked.install (h : Checked reach targets w l)
    (hreaches : Reaches detours reach w.moduleBase) (hbuild : buildMatches w = true) {target : ℕ}
    (htarget : target < imageSize) :
  Checked reach (target :: targets) w (installed detours target l)
  := by
  constructor
  · apply h.supported
  · intro hnot
    rw [hbuild] at hnot
    cases hnot
  · apply h.overwritten.install hreaches htarget
  · apply h.function

theorem Checked.mono (h : Checked reach targets w l) {others : List ℕ}
    (hsubset : targets ⊆ others) :
  Checked reach others w l
  := ⟨h.supported, h.unsupported, h.overwritten.mono hsubset, h.function⟩

/-- What is compared with the world behind it is compared with the world as it has been loaded. -/
theorem Checked.read (h : Checked reach targets w l) {rva n : ℕ}
    (hapart : Apart reach targets rva n) :
  l.world.read (l.world.moduleBase + rva) n = w.read (w.moduleBase + rva) n
  := by
  apply h.overwritten.read hapart

/-- The build is compared before anything is overwritten. -/
theorem checked_initializeTrace (hreaches : Reaches detours reach w.moduleBase)
    (hfirst : l.world.supportedBuild = false) (hsame : l.world.memory = w.memory)
    (hbase : l.world.moduleBase = w.moduleBase)
    (hfunction : l.world.captureFunction = w.moduleBase + responseRva) :
  Checked reach [Godmode.executeRva] w (behind (initializeTrace detours) l)
  := by
  have hread : ∀ a n, l.world.read a n = w.read a n := by
    intro a n
    apply World.read_congr
    intros
    rw [hsame]
  have hbuild : buildMatches l.world = buildMatches w := by
    rw [buildMatches, buildMatches, headersMatch, headersMatch, hbase]
    simp only [hread]
  have hoverwritten : Overwritten reach [] w l.world := ⟨hbase, fun _ _ _ => by rw [hsame]⟩
  rw [behind, initializeTrace, GameM.run_bind, GameM.run_get]
  dsimp only
  rw [hbuild]
  cases hmatches : buildMatches w with
  | false =>
      rw [if_neg Bool.false_ne_true, GameM.run_pure]
      constructor
      · rw [hmatches]
        apply hfirst
      · intro
        apply hsame
      · apply hoverwritten.mono
        apply List.nil_subset
      · apply hfunction
  | true =>
      rw [if_pos rfl, GameM.run_bind, GameM.run_set]
      dsimp only
      rw [GameM.run_bind, run_install]
      constructor
      · rw [hmatches]
        rfl
      · intro hnot
        rw [hmatches] at hnot
        cases hnot
      · have hsupported : Overwritten reach [] w
            { l with game := { l.game with world := { l.world with supportedBuild := true } } }.world :=
          ⟨hbase, hoverwritten.memory⟩
        exact hsupported.install hreaches (by decide)
      · apply hfunction

/-- The godmode route compares the function of the permission while only its handler has been
overwritten. -/
theorem signaturesOk_initializeGodmode (h : Checked reach [Godmode.executeRva] w l) :
  (behind initializeGodmode l).game.signaturesOk = true ↔ l.world.supportedBuild = true
    ∧ w.read (w.moduleBase + Godmode.canExecuteRva) 15 = some Godmode.permission
  := by
  have hapart : Apart reach [Godmode.executeRva] Godmode.canExecuteRva 15 := by
    use by decide
    intro target htarget
    rw [List.mem_singleton] at htarget
    rw [htarget]
    left
    decide
  rw [← h.read hapart]
  apply Godmode.signaturesOk_initializeSignatures

/-- What the response method starts with is compared with the world as it has been loaded, and the
capture is ready when the detour has been installed. -/
theorem checked_initializeCapture (h : Checked reach [Godmode.executeRva] w l)
    (hreach : reach ≤ 4096) (hreaches : Reaches detours reach w.moduleBase)
    (hready : l.world.captureReady = false) :
  Checked reach [responseRva, Godmode.executeRva] w (behind (initializeCapture detours) l) ∧
    ((behind (initializeCapture detours) l).world.captureReady = true ↔
      l.world.supportedBuild = true
        ∧ w.read (w.moduleBase + responseRva) 24 = some responsePrologue
        ∧ (detours l.world.memory (w.moduleBase + responseRva)).1 = true)
  := by
  have hapart : Apart reach [Godmode.executeRva] responseRva 24 := by
    use by decide
    intro target htarget
    rw [List.mem_singleton] at htarget
    rw [htarget]
    right
    have : Godmode.executeRva + 4096 ≤ responseRva := by decide
    omega
  have hread : l.world.read l.world.captureFunction 24
      = w.read (w.moduleBase + responseRva) 24 := by
    rw [← h.read hapart, h.function, h.overwritten.base]
  rw [behind, initializeCapture, GameM.run_bind, GameM.run_get]
  dsimp only
  rw [hready, hread]
  by_cases hcompare : l.world.supportedBuild = true
      ∧ w.read (w.moduleBase + responseRva) 24 = some responsePrologue
  · obtain ⟨hsupported, hprologue⟩ := hcompare
    have hbuild : buildMatches w = true := by
      rw [← h.supported, hsupported]
    have hinstalled := h.install hreaches hbuild (show responseRva < imageSize by decide)
    rw [hsupported, hprologue, if_neg (by decide), GameM.run_bind, run_install,
      h.overwritten.base]
    constructor
    · constructor
      · apply hinstalled.supported
      · apply hinstalled.unsupported
      · exact ⟨hinstalled.overwritten.base, hinstalled.overwritten.memory⟩
      · apply hinstalled.function
    · constructor
      · intro hok
        use rfl, rfl, hok
      · rintro ⟨-, -, hok⟩
        exact hok
  · rw [if_pos, GameM.run_pure]
    · constructor
      · apply h.mono
        apply List.subset_cons_self
      · rw [hready]
        constructor
        · rintro ⟨⟩
        · rintro ⟨hsupported, hprologue, -⟩
          cases hcompare ⟨hsupported, hprologue⟩
    · rw [Bool.false_or, Bool.or_eq_true, Bool.not_eq_true', decide_eq_true_iff]
      by_contra hnot
      rw [not_or, Bool.not_eq_false, not_not] at hnot
      apply hcompare hnot

/-- Hooks are installed only where the bytes were checked. -/
theorem checked_installObservers (h : Checked reach [responseRva, Godmode.executeRva] w l)
    (hreaches : Reaches detours reach w.moduleBase) :
  Checked reach hooked w (behind (installObservers detours) l)
  := by
  rw [behind, installObservers, GameM.run_bind, GameM.run_get]
  dsimp only
  cases hsupported : l.world.supportedBuild with
  | false =>
      rw [if_neg Bool.false_ne_true, GameM.run_pure]
      apply h.mono
      rw [hooked]
      intro rva hrva
      right
      right
      apply hrva
  | true =>
      have hbuild : buildMatches w = true := by
        rw [← h.supported, hsupported]
      have hpermission : Godmode.canExecuteRva < imageSize := by decide
      have hinterface : interfaceRva < imageSize := by decide
      have hinstalled :=
        (h.install hreaches hbuild hpermission).install hreaches hbuild hinterface
      rw [if_pos rfl, GameM.run_bind, run_install]
      dsimp only
      rw [GameM.run_bind, run_install]
      exact ⟨hinstalled.supported, hinstalled.unsupported,
        ⟨hinstalled.overwritten.base, hinstalled.overwritten.memory⟩, hinstalled.function⟩

/-! ### The mod that has been loaded -/

/-- The objects without which the dispatcher does not start have been found. -/
def Resolvable (w : World) : Prop :=
  w.staticFindObject "/Script/SCUM.ConZPlayerController" ≠ 0
    ∧ w.staticFindObject "/Script/SCUM.PlayerRpcChannel" ≠ 0
    ∧ w.staticFindObject "/Script/SCUM.PlayerRpcChannel:Chat_Server_ProcessAdminCommand" ≠ 0

/-- What is known of the mod behind its start-up, in terms of the world as it has been loaded. -/
structure Started (detours : Detours) (reach : ℕ) (file : Option Bytes) (w : World)
    (l : Loading) : Prop where
  dispatch : l.dispatch.initialized = true ↔ Resolvable w
  listening : ∀ config, l.listening = some config ↔ Resolvable w ∧ loadConfig file = .ok config
  ticking : l.ticking = true ↔ l.listening ≠ none
  supported : l.world.supportedBuild = true ↔ l.listening ≠ none ∧ buildMatches w = true
  signatures : l.game.signaturesOk = true ↔ l.world.supportedBuild = true
    ∧ w.read (w.moduleBase + Godmode.canExecuteRva) 15 = some Godmode.permission
  capture : l.world.captureReady = true → l.world.supportedBuild = true
    ∧ w.read (w.moduleBase + responseRva) 24 = some responsePrologue
  ready : (∀ memory target, (detours memory target).1 = true) → l.world.supportedBuild = true →
    w.read (w.moduleBase + responseRva) 24 = some responsePrologue → l.world.captureReady = true
  untouched : l.world.supportedBuild = false → l.world.memory = w.memory
  overwritten : ∀ rva < imageSize,
    l.world.memory (w.moduleBase + rva) ≠ w.memory (w.moduleBase + rva) →
      ∃ target ∈ hooked, target ≤ rva ∧ rva < target + reach

/-- The mod behind the dispatcher. -/
def dispatching (w : World) : Loading :=
  (initializeDispatch.run.run (constructed w)).2

/-- The dispatch is initialized exactly when the required objects are found. -/
theorem run_initializeDispatch (w : World) :
  initializeDispatch.run.run (constructed w) = (.ok (dispatching w).dispatch.initialized, dispatching w)
    ∧ ((dispatching w).dispatch.initialized = true ↔ Resolvable w)
    ∧ (dispatching w).game = (constructed w).game ∧ (dispatching w).listening = none
    ∧ (dispatching w).ticking = false
  := by
  rw [dispatching, initializeDispatch, GameM.run_bind, GameM.run_get]
  dsimp only
  rw [GameM.run_bind, GameM.run_set]
  dsimp only
  split
  case isTrue hmissing =>
    rw [GameM.run_pure]
    use rfl
    constructor
    · constructor
      · rintro ⟨⟩
      · rintro ⟨hcontroller, hchannel, hchat⟩
        rcases hmissing with hzero | hzero | hzero
        · cases hcontroller hzero
        · cases hchannel hzero
        · cases hchat hzero
    · use rfl, rfl
      rfl
  case isFalse hfound =>
    rw [not_or, not_or] at hfound
    rw [GameM.run_bind, GameM.run_modify]
    dsimp only
    rw [GameM.run_pure]
    use rfl
    constructor
    · constructor
      · intro
        apply hfound
      · intro
        rfl
    · use rfl, rfl
      rfl

/-- The mod behind the detours, before it starts the server. -/
def detoured (detours : Detours) (l : Loading) : Loading :=
  behind (installObservers detours)
    (behind (initializeCapture detours)
      (behind initializeGodmode
        (behind (initializeTrace detours) { l with ticking := true })))

theorem loaded_of_not_resolvable (h : ¬ Resolvable w) (detours : Detours) (file : Option Bytes) :
  loaded detours file w = dispatching w
  := by
  obtain ⟨hrun, hresolvable, -⟩ := run_initializeDispatch w
  have hnot : (dispatching w).dispatch.initialized = false := by
    rw [← Bool.not_eq_true, hresolvable]
    apply h
  rw [loaded, onUnrealInit, GameM.run_bind, hrun, hnot]
  rfl

/-- A config file that raises ends the start-up behind the dispatch. -/
theorem loaded_of_thrown (h : Resolvable w) {file : Option Bytes} {thrown : Thrown}
    (hfile : loadConfig file = .error thrown) (detours : Detours) :
  loaded detours file w = dispatching w
  := by
  obtain ⟨hrun, hresolvable, -⟩ := run_initializeDispatch w
  rw [loaded, onUnrealInit, GameM.run_bind, hrun, hresolvable.mpr h]
  dsimp only
  rw [Bool.not_true, if_neg Bool.false_ne_true, GameM.run_bind, GameM.run_ofExcept, hfile]

/-- A supported build with a config file installs the observers and starts the server. -/
theorem loaded_of_config (h : Resolvable w) {file : Option Bytes} {config : Config}
    (hfile : loadConfig file = .ok config) (detours : Detours) :
  loaded detours file w = { detoured detours (dispatching w) with listening := some config }
  := by
  obtain ⟨hrun, hresolvable, -⟩ := run_initializeDispatch w
  rw [loaded, onUnrealInit, GameM.run_bind, hrun, hresolvable.mpr h]
  dsimp only
  rw [Bool.not_true, if_neg Bool.false_ne_true, GameM.run_bind, GameM.run_ofExcept, hfile]
  dsimp only
  rw [GameM.run_bind, GameM.run_modify]
  dsimp only
  rw [← behind, behind_bind (ok_initializeTrace detours), behind_bind ok_initializeGodmode,
    behind_bind (ok_initializeCapture detours), behind_bind (ok_installObservers detours)]
  rfl

/-- What the steps do not touch. -/
theorem detoured_keeps (detours : Detours) (l : Loading) :
  (detoured detours l).dispatch = l.dispatch ∧ (detoured detours l).ticking = true
  := by
  have htrace : ∀ l, (behind (initializeTrace detours) l).dispatch = l.dispatch
      ∧ (behind (initializeTrace detours) l).ticking = l.ticking := by
    intro l
    rw [behind, initializeTrace, GameM.run_bind, GameM.run_get]
    dsimp only
    split <;> exact ⟨rfl, rfl⟩
  have hcapture : ∀ l, (behind (initializeCapture detours) l).dispatch = l.dispatch
      ∧ (behind (initializeCapture detours) l).ticking = l.ticking := by
    intro l
    rw [behind, initializeCapture, GameM.run_bind, GameM.run_get]
    dsimp only
    split <;> exact ⟨rfl, rfl⟩
  have hobservers : ∀ l, (behind (installObservers detours) l).dispatch = l.dispatch
      ∧ (behind (installObservers detours) l).ticking = l.ticking := by
    intro l
    rw [behind, installObservers, GameM.run_bind, GameM.run_get]
    dsimp only
    split <;> exact ⟨rfl, rfl⟩
  rw [detoured]
  constructor
  · rw [(hobservers _).1, (hcapture _).1]
    apply (htrace _).1
  · rw [(hobservers _).2, (hcapture _).2]
    apply (htrace _).2

theorem captureReady_initializeTrace (detours : Detours) (l : Loading) :
  (behind (initializeTrace detours) l).world.captureReady = l.world.captureReady
  := by
  rw [behind, initializeTrace, GameM.run_bind, GameM.run_get]
  dsimp only
  split <;> rfl

/-- The capture's hook leaves the checks of the build as they are. -/
theorem initializeCapture_keeps (detours : Detours) (l : Loading) :
  (behind (initializeCapture detours) l).game.signaturesOk = l.game.signaturesOk
    ∧ (behind (initializeCapture detours) l).world.supportedBuild = l.world.supportedBuild
  := by
  rw [behind, initializeCapture, GameM.run_bind, GameM.run_get]
  dsimp only
  split <;> exact ⟨rfl, rfl⟩

/-- The observers leave the checks as they are. -/
theorem installObservers_keeps (detours : Detours) (l : Loading) :
  (behind (installObservers detours) l).game.signaturesOk = l.game.signaturesOk
    ∧ (behind (installObservers detours) l).world.supportedBuild = l.world.supportedBuild
    ∧ (behind (installObservers detours) l).world.captureReady = l.world.captureReady
  := by
  rw [behind, installObservers, GameM.run_bind, GameM.run_get]
  dsimp only
  split <;> exact ⟨rfl, rfl, rfl⟩

/-- Without its objects or its configuration, the mod touches nothing. -/
theorem started_dispatching {file : Option Bytes}
    (h : ¬ (Resolvable w ∧ ∃ config, loadConfig file = .ok config)) (detours : Detours)
    (reach : ℕ) :
  Started detours reach file w (dispatching w)
  := by
  obtain ⟨-, hresolvable, hgame, hlistening, hticking⟩ := run_initializeDispatch w
  have hsupported : (dispatching w).world.supportedBuild = false := by
    rw [world, hgame, constructed]
  constructor
  · apply hresolvable
  · intro config
    rw [hlistening]
    constructor
    · rintro ⟨⟩
    · rintro ⟨hw, hconfig⟩
      cases h ⟨hw, config, hconfig⟩
  · rw [hlistening, hticking]
    decide
  · rw [hlistening, hsupported]
    constructor
    · rintro ⟨⟩
    · rintro ⟨hnone, -⟩
      cases hnone rfl
  · rw [hsupported, hgame]
    constructor
    · rintro ⟨⟩
    · rintro ⟨⟨⟩, -⟩
  · rw [world, hgame]
    rintro ⟨⟩
  · rw [hsupported]
    rintro - ⟨⟩
  · intro
    rw [world, hgame]
    rfl
  · intro rva _ hne
    rw [world, hgame] at hne
    cases hne rfl

/-- The detours leave the mod with what it has compared with the world as it was loaded. -/
theorem checked_detoured (hreaches : Reaches detours reach w.moduleBase) (hreach : reach ≤ 4096)
    (hworld : l.world = (constructed w).world) :
  Checked reach hooked w (detoured detours l) ∧
    ((detoured detours l).game.signaturesOk = true ↔ (detoured detours l).world.supportedBuild = true
      ∧ w.read (w.moduleBase + Godmode.canExecuteRva) 15 = some Godmode.permission) ∧
    ∃ memory, (detoured detours l).world.captureReady = true ↔
      (detoured detours l).world.supportedBuild = true
        ∧ w.read (w.moduleBase + responseRva) 24 = some responsePrologue
        ∧ (detours memory (w.moduleBase + responseRva)).1 = true
  := by
  have hticking : ({ l with ticking := true } : Loading).world = (constructed w).world := hworld
  have htrace : Checked reach [Godmode.executeRva] w
      (behind (initializeTrace detours) { l with ticking := true }) := by
    apply checked_initializeTrace hreaches
    · rw [hticking]
      rfl
    · rw [hticking]
      rfl
    · rw [hticking]
      rfl
    · rw [hticking]
      rfl
  have hgodmode : Checked reach [Godmode.executeRva] w (behind initializeGodmode
      (behind (initializeTrace detours) { l with ticking := true })) :=
    ⟨htrace.supported, htrace.unsupported, ⟨htrace.overwritten.base, htrace.overwritten.memory⟩,
      htrace.function⟩
  have hready : (behind initializeGodmode
      (behind (initializeTrace detours) { l with ticking := true })).world.captureReady = false := by
    calc
      _ = (behind (initializeTrace detours) { l with ticking := true }).world.captureReady := rfl
      _ = false := by
          rw [captureReady_initializeTrace, hticking]
          rfl
  obtain ⟨hcapture, hcaptureReady⟩ := checked_initializeCapture hgodmode hreach hreaches hready
  obtain ⟨hsignatures, hsupported⟩ := initializeCapture_keeps detours (behind initializeGodmode
    (behind (initializeTrace detours) { l with ticking := true }))
  obtain ⟨hsignatures', hsupported', hready'⟩ := installObservers_keeps detours
    (behind (initializeCapture detours) (behind initializeGodmode
      (behind (initializeTrace detours) { l with ticking := true })))
  rw [detoured]
  constructor
  · apply checked_installObservers hcapture hreaches
  · rw [hsignatures', hsupported', hready', hsignatures, hsupported]
    constructor
    · apply signaturesOk_initializeGodmode htrace
    · exact ⟨_, hcaptureReady⟩

/-- Otherwise, it touches what the detours reach, and everything it has compared is as it was
loaded. -/
theorem started_detoured {file : Option Bytes} {config : Config} (hw : Resolvable w)
    (hfile : loadConfig file = .ok config) (hreaches : Reaches detours reach w.moduleBase)
    (hreach : reach ≤ 4096) :
  Started detours reach file w
    { detoured detours (dispatching w) with listening := some config }
  := by
  obtain ⟨-, hresolvable, hgame, -, -⟩ := run_initializeDispatch w
  obtain ⟨hdispatch, hticking⟩ := detoured_keeps detours (dispatching w)
  have hworld : (dispatching w).world = (constructed w).world := by
    rw [world, hgame, world]
  obtain ⟨hchecked, hsignatures, memory, hcapture⟩ := checked_detoured hreaches hreach hworld
  constructor
  · change (detoured detours (dispatching w)).dispatch.initialized = true ↔ _
    rw [hdispatch]
    apply hresolvable
  · intro config'
    rw [hfile]
    constructor
    · rintro ⟨⟩
      use hw
    · rintro ⟨-, hconfig⟩
      rw [Except.ok.inj hconfig]
  · constructor
    · intro _ hnone
      cases hnone
    · intro
      apply hticking
  · change (detoured detours (dispatching w)).world.supportedBuild = true ↔ _
    rw [hchecked.supported]
    constructor
    · intro hbuild
      constructor
      · intro hnone
        cases hnone
      · apply hbuild
    · rintro ⟨-, hbuild⟩
      apply hbuild
  · apply hsignatures
  · intro hready
    obtain ⟨hsupported, hprologue, -⟩ := hcapture.mp hready
    use hsupported, hprologue
  · intro hok hsupported hprologue
    apply hcapture.mpr
    use hsupported, hprologue
    apply hok
  · intro hnot
    apply hchecked.unsupported
    rw [← hchecked.supported]
    apply hnot
  · intro rva hrva hne
    by_contra hapart
    apply hne
    apply hchecked.overwritten.memory rva hrva
    intro target htarget
    by_contra hnear
    rw [not_or, not_lt, not_le] at hnear
    apply hapart
    use target, htarget, hnear.1, hnear.2

/-- Every comparison of start-up is one with the bytes that the game has been loaded with, though
the detours overwrite some while others are still compared. The server is started, and the queue is
drained, exactly when the objects of the engine and the configuration have been read. The god mode
route is enabled and the capture of replies is ready only on a build that matches. On any other build
nothing is written, and of the image only bytes within reach behind one of the four targets. -/
theorem started (w : World) (hreaches : Reaches detours reach w.moduleBase) (hreach : reach ≤ 4096)
    (file : Option Bytes) :
  Started detours reach file w (loaded detours file w)
  := by
  by_cases hw : Resolvable w
  · cases hfile : loadConfig file with
    | error thrown =>
        rw [loaded_of_thrown hw hfile]
        apply started_dispatching
        rintro ⟨-, config, hconfig⟩
        rw [hfile] at hconfig
        cases hconfig
    | ok config =>
        rw [loaded_of_config hw hfile]
        apply started_detoured hw hfile hreaches hreach
  · rw [loaded_of_not_resolvable hw]
    apply started_dispatching
    rintro ⟨hw', -⟩
    apply hw hw'

/-- Some bytes written to the memory. -/
def overlay (memory : ℕ → Option Byte) (address : ℕ) (bytes : Bytes) : ℕ → Option Byte :=
  fun a => if address ≤ a ∧ a < address + bytes.length then bytes[a - address]? else memory a

/-- A detour that replaces the first instructions of a function, as many as its jump of six bytes needs:
two of five bytes each, or pushes of seven bytes together. Below the image it keeps the address of its
callback, and as a trampoline the instructions it has replaced and a jump behind them. -/
def jump : Detours :=
  fun memory target =>
    let length := if memory target = some 0x40 then 7 else 10
    let kept := (List.range length).map fun i => (memory (target + i)).getD 0
    let back := [0xff, 0x25, 0, 0, 0, 0] ++ LittleEndian.encode 8 (target + length)
    let trampoline := LittleEndian.encode 8 0x180001000 ++ kept ++ back
    (true, overlay (overlay memory (target - 0x10000000) trampoline) target
      ([0xff, 0x25, 0xfa, 0xff, 0xff, 0xef] ++ List.replicate (length - 6) 0x90))

/-- What the mod compares, in an image of the supported build. -/
def supportedImage : List (ℕ × Bytes) :=
  [(0, [0x4d, 0x5a]), (0x3c, [0x80, 0, 0, 0]), (0x80, [0x50, 0x45, 0, 0]),
    (0x88, [0x08, 0x41, 0x90, 0x6a]), (0xd0, [0, 0xc0, 0xe0, 0x07]),
    (Godmode.executeRva, executePrologue), (interfaceRva, interfacePrologue),
    (responseRva, responsePrologue), (Godmode.canExecuteRva, Godmode.permission)]

/-- The image, with zeros elsewhere, in a process where every object is found. -/
def supportedWorld : World where
  staticFindObject := fun _ => 1
  moduleBase := 0x140000000
  memory := fun a =>
    some ((supportedImage.findSome? fun (rva, bytes) =>
      if 0x140000000 + rva ≤ a then bytes[a - (0x140000000 + rva)]? else none).getD 0)

theorem overlay_of_apart {memory : ℕ → Option Byte} {address a : ℕ} {bytes : Bytes}
    (h : a < address ∨ address + bytes.length ≤ a) :
  overlay memory address bytes a = memory a
  := by
  apply if_neg
  omega

theorem reaches_jump :
  Reaches jump 10 supportedWorld.moduleBase
  := by
  have hbase : supportedWorld.moduleBase = 0x140000000 := rfl
  have hsize : imageSize = 0x7e0c000 := rfl
  intro memory target htarget rva hrva hapart
  rw [hbase, jump]
  dsimp only
  have hlength : (if memory (0x140000000 + target) = some 0x40 then 7 else 10) ≤ 10 := by
    split <;> decide
  rw [overlay_of_apart, overlay_of_apart]
  · right
    simp only [List.length_append, LittleEndian.length_encode, List.length_map, List.length_range,
      List.length_cons, List.length_nil]
    omega
  · simp only [List.length_append, List.length_cons, List.length_nil, List.length_replicate]
    omega

/-- Behind start-up in that process, everything is enabled, although the bytes that have been compared
are no longer there. -/
theorem started_supportedWorld :
  Started jump 10 none supportedWorld (loaded jump none supportedWorld)
    ∧ (loaded jump none supportedWorld).game.signaturesOk = true
    ∧ (loaded jump none supportedWorld).world.captureReady = true
    ∧ ¬ buildMatches (loaded jump none supportedWorld).world = true
  := by
  use started supportedWorld reaches_jump (by decide) none
  decide +kernel

end Loading

end OpenScumRcon
