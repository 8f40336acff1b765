import Mathlib.Data.List.Sort
import OpenScumRcon.Strings
import OpenScumRcon.World

/-!
# The command registry

`commands` reads the registry of the game: an array of classes, each with a default object
that describes the command. A class that stands in the array twice is one command.
-/

namespace OpenScumRcon

structure Command where
  cls : ℕ
  cdo : ℕ
  verb : Bytes
  required : ℤ := 0
  declared : ℤ := 0
  repeating : ℤ := 0
  enabled : Bool := false
  shipping : Bool := false
  server : Bool := false
  unsupported : Bytes := []
  deriving DecidableEq

namespace World

def registryClass (w : World) : ℕ :=
  w.staticFindObject "/Script/SCUM.AdminCommandRegistry"

def commandClass (w : World) : ℕ :=
  w.staticFindObject "/Script/SCUM.AdminCommand"

/-- The registries, of which there has to be one. -/
def registries (w : World) : List ℕ :=
  w.objects.filter fun object => w.live object && w.isA object w.registryClass

/-- What keeps a command from being executed, if anything does. -/
def unsupported (w : World) (command : Command) : Bytes :=
  if command.required < 0 ∨ command.declared < command.required ∨ 64 < command.declared ∨
      command.repeating < 0 ∨ command.declared < command.repeating then
    ascii "argument_metadata"
  else if !command.enabled || !command.shipping || !command.server then
    ascii "disabled_or_client_only"
  else if w.slot command.cdo 0x290 ≠ w.captureFunction ∨
      !w.executableInGame (w.slot command.cdo 0x288) then
    ascii "native_vtable"
  else []

/-- What the default object of a class says of its command. -/
def readCommand (w : World) (cls cdo : ℕ) : Except Thrown Command :=
  let verb := w.property cdo "_verb" .str
  if verb = 0 then .error (.exception (ascii "command verb reflection unavailable"))
  else
    match utf8 (w.strValue verb cdo) with
    | .error thrown => .error thrown
    | .ok verb =>
        let required := w.property cdo "_numberOfRequiredArguments" .int
        let repeating := w.property cdo "_numberOfRepeatingArguments" .int
        let args := w.property cdo "_argumentDescriptions" .array
        let enabled := w.property cdo "_isEnabled" .bool
        let shipping := w.property cdo "_isEnabledInShippingBuild" .bool
        let server := w.property cdo "_shouldExecuteOnServer" .bool
        if required = 0 ∨ repeating = 0 ∨ args = 0 ∨ w.inner args = 0 ∨ enabled = 0 ∨
            shipping = 0 ∨ server = 0 then
          .ok { cls, cdo, verb, unsupported := ascii "metadata" }
        else
          let command : Command :=
            { cls, cdo, verb
              required := (w.intValue required cdo).toInt
              repeating := (w.intValue repeating cdo).toInt
              declared := (w.arrayNum args cdo).toInt
              enabled := w.boolValue enabled cdo
              shipping := w.boolValue shipping cdo
              server := w.boolValue server cdo }
          .ok { command with unsupported := w.unsupported command }

/-- A class with a default object that describes a command. -/
def describes (w : World) (cls : ℕ) : Bool :=
  w.valid (w.classDefaultObject cls) && w.classDefault (w.classDefaultObject cls)

/-- The body of the loop over the array: the commands and the classes so far. -/
def visitCommand (w : World) (s : List Command × List ℕ) (cls : ℕ) :
    Except Thrown (List Command × List ℕ) :=
  if !w.valid cls || !w.isChildOf cls w.commandClass || cls ∈ s.2 then .ok s
  else if !w.describes cls then .ok (s.1, cls :: s.2)
  else
    match w.readCommand cls (w.classDefaultObject cls) with
    | .error thrown => .error thrown
    | .ok command => .ok (s.1 ++ [command], cls :: s.2)

/-- The array of a registry, and its elements. -/
def commandArray (w : World) (registry : ℕ) : ℕ :=
  w.property registry "_commands" .array

def registered (w : World) (registry : ℕ) : List ℕ :=
  (List.range (w.arrayNum (w.commandArray registry) registry).toInt.toNat).map
    (w.arrayElement (w.commandArray registry) registry)

/-- The array holds classes. -/
def isClassArray (w : World) (array : ℕ) : Bool :=
  array ≠ 0 && w.inner array ≠ 0 && w.propertyKind (w.inner array) = .objectClass
    && w.elementSize (w.inner array) = 8

/-- The commands of a registry in the order of their verbs. Where `std::sort` leaves open which of two
equal verbs comes first, they stay in the order of the registry. -/
def commandsOf (w : World) (registry : ℕ) : Except Thrown (List Command) :=
  if !w.isClassArray (w.commandArray registry) then
    .error (.exception (ascii "command registry array signature mismatch"))
  else
    let num := (w.arrayNum (w.commandArray registry) registry).toInt
    if num ≤ 0 ∨ 4096 < num then
      .error (.exception (ascii "command registry count out of bounds"))
    else do
      let (result, _) ← (w.registered registry).foldlM w.visitCommand ([], [])
      if result = [] then
        .error (.exception (ascii "command registry contains no valid commands"))
      else pure (result.insertionSort fun a b => lowerAscii a.verb ≤ lowerAscii b.verb)

def commands (w : World) : Except Thrown (List Command) :=
  if w.registryClass = 0 ∨ w.commandClass = 0 then
    .error (.exception (ascii "command registry reflection unavailable"))
  else
    match w.registries with
    | [] => .error (.exception (ascii "command registry is not ready"))
    | [registry] => w.commandsOf registry
    | _ => .error (.exception (ascii "ambiguous command registry"))

/-! ### The entries of the registry -/

/-- The class stands for a command, which its default object describes. -/
structure Entry (w : World) (command : Command) : Prop where
  valid : w.valid command.cls = true
  child : w.isChildOf command.cls w.commandClass = true
  describes : w.describes command.cls = true
  read : w.readCommand command.cls (w.classDefaultObject command.cls) = .ok command

/-- The command is an entry of the only registry. -/
def Registers (w : World) (command : Command) : Prop :=
  ∃ registry, w.registries = [registry] ∧ command.cls ∈ w.registered registry ∧ w.Entry command

/-- The class a command has been read from, and its default object. -/
theorem readCommand_cls {w : World} {cls cdo : ℕ} {command : Command}
    (h : w.readCommand cls cdo = .ok command) :
  command.cls = cls ∧ command.cdo = cdo
  := by
  rw [readCommand] at h
  dsimp only at h
  split at h
  · cases h
  split at h
  · cases h
  split at h
  · rw [← Except.ok.inj h]
    exact ⟨rfl, rfl⟩
  · rw [← Except.ok.inj h]
    exact ⟨rfl, rfl⟩

/-- A command that nothing keeps from being executed has consistent metadata, is enabled
everywhere and has the expected functions in its default object. -/
structure Supported (w : World) (command : Command) : Prop where
  required : 0 ≤ command.required ∧ command.required ≤ command.declared ∧ command.declared ≤ 64
  repeating : 0 ≤ command.repeating ∧ command.repeating ≤ command.declared
  enabled : command.enabled = true
  shipping : command.shipping = true
  server : command.server = true
  response : w.slot command.cdo 0x290 = w.captureFunction
  executable : w.executableInGame (w.slot command.cdo 0x288) = true

theorem supported_of_unsupported_eq_nil {w : World} {command : Command}
    (h : w.unsupported command = []) :
  w.Supported command
  := by
  have hne : ∀ {text : String}, text.toList ≠ [] → ascii text ≠ [] := by
    intro text htext
    rw [ascii, Ne, List.map_eq_nil_iff]
    apply htext
  rw [unsupported] at h
  split at h
  · exact absurd h (hne (by decide))
  next hmetadata =>
  split at h
  · exact absurd h (hne (by decide))
  next henabled =>
  split at h
  · exact absurd h (hne (by decide))
  next hvtable =>
  rw [not_or] at hvtable
  simp only [Bool.or_eq_true, Bool.not_eq_true', not_or, Bool.not_eq_false] at henabled
  constructor
  · omega
  · omega
  · apply henabled.1.1
  · apply henabled.1.2
  · apply henabled.2
  · apply not_not.mp hvtable.1
  · simpa using hvtable.2

/-- A registered command without a reason against it is supported. -/
theorem supported_of_readCommand {w : World} {cls cdo : ℕ} {command : Command}
    (h : w.readCommand cls cdo = .ok command) (hnil : command.unsupported = []) :
  w.Supported command
  := by
  rw [readCommand] at h
  dsimp only at h
  split at h
  · cases h
  split at h
  · cases h
  split at h
  · have hmetadata : ascii "metadata" ≠ [] := by decide
    rw [← Except.ok.inj h] at hnil
    exact absurd hnil hmetadata
  · rw [← Except.ok.inj h] at hnil ⊢
    have hsupported := supported_of_unsupported_eq_nil hnil
    exact ⟨hsupported.required, hsupported.repeating, hsupported.enabled, hsupported.shipping,
      hsupported.server, hsupported.response, hsupported.executable⟩

/-! ### The loop -/

/-- The commands so far are of different classes, which have been seen. -/
structure Collected (s : List Command × List ℕ) : Prop where
  nodup : (s.1.map Command.cls).Nodup
  seen : ∀ command ∈ s.1, command.cls ∈ s.2

/-- What the loop body does with a class: it collects the entry of the class, if it is one and
has not been seen. -/
structure Visited (w : World) (cls : ℕ) (s s' : List Command × List ℕ) : Prop where
  collected : Collected s'
  mem : ∀ command, command ∈ s'.1 ↔
    command ∈ s.1 ∨ (command.cls = cls ∧ cls ∉ s.2 ∧ w.Entry command)
  seen : ∀ cls', cls' ∈ s'.2 ↔
    cls' ∈ s.2 ∨ (cls' = cls ∧ w.valid cls = true ∧ w.isChildOf cls w.commandClass = true)

/-- A class that is not one of a command, or has been seen, is passed over. -/
theorem visited_of_skip {w : World} {cls : ℕ} {s : List Command × List ℕ} (hs : Collected s)
    (hskip : ¬ (w.valid cls = true ∧ w.isChildOf cls w.commandClass = true ∧ cls ∉ s.2)) :
  w.Visited cls s s
  := by
  constructor
  · apply hs
  · intro command
    constructor
    · exact .inl
    · rintro (hmem | ⟨rfl, hnew, hentry⟩)
      · apply hmem
      · cases hskip ⟨hentry.valid, hentry.child, hnew⟩
  · intro cls'
    constructor
    · exact .inl
    · rintro (hmem | ⟨rfl, hvalid, hchild⟩)
      · apply hmem
      · by_contra hnew
        apply hskip ⟨hvalid, hchild, hnew⟩

/-- A class without a default object has been seen. -/
theorem visited_of_not_describes {w : World} {cls : ℕ} {s : List Command × List ℕ}
    (hs : Collected s) (hvalid : w.valid cls = true)
    (hchild : w.isChildOf cls w.commandClass = true) (hdescribes : ¬ w.describes cls = true) :
  w.Visited cls s (s.1, cls :: s.2)
  := by
  constructor
  · use hs.nodup
    intro command hmem
    apply List.mem_cons_of_mem _ (hs.seen command hmem)
  · intro command
    constructor
    · exact .inl
    · rintro (hmem | ⟨rfl, -, hentry⟩)
      · apply hmem
      · cases hdescribes hentry.describes
  · intro cls'
    rw [List.mem_cons]
    tauto

/-- The entry of a class that has not been seen is collected. -/
theorem visited_of_entry {w : World} {command : Command} {s : List Command × List ℕ}
    (hs : Collected s) (hentry : w.Entry command) (hnew : command.cls ∉ s.2) :
  w.Visited command.cls s (s.1 ++ [command], command.cls :: s.2)
  := by
  constructor
  · constructor
    · rw [List.map_append, List.map_singleton, List.nodup_append_comm, List.singleton_append,
        List.nodup_cons]
      constructor
      · intro hmem
        obtain ⟨other, hother, heq⟩ := List.mem_map.mp hmem
        apply hnew
        rw [← heq]
        apply hs.seen other hother
      · apply hs.nodup
    · intro other hother
      rcases List.mem_append.mp hother with hmem | hmem
      · apply List.mem_cons_of_mem _ (hs.seen other hmem)
      · rw [List.mem_singleton.mp hmem]
        apply List.mem_cons_self
  · intro other
    rw [List.mem_append, List.mem_singleton]
    apply or_congr_right
    constructor
    · rintro rfl
      exact ⟨rfl, hnew, hentry⟩
    · rintro ⟨hcls, -, hentry'⟩
      have hread := hentry'.read
      rw [hcls, hentry.read] at hread
      apply (Except.ok.inj hread).symm
  · intro cls'
    rw [List.mem_cons]
    have hvalid := hentry.valid
    have hchild := hentry.child
    tauto

theorem visitCommand_visited {w : World} {cls : ℕ} {s s' : List Command × List ℕ}
    (hs : Collected s) (h : w.visitCommand s cls = .ok s') :
  w.Visited cls s s'
  := by
  rw [visitCommand] at h
  split at h
  · next hskip =>
      obtain rfl := Except.ok.inj h
      apply visited_of_skip hs
      rintro ⟨hvalid, hchild, hnew⟩
      simp [hvalid, hchild, hnew] at hskip
  next hclass =>
  simp only [Bool.or_eq_true, Bool.not_eq_true', decide_eq_true_eq, not_or, Bool.not_eq_false]
    at hclass
  obtain ⟨⟨hvalid, hchild⟩, hnew⟩ := hclass
  split at h
  · next hdescribes =>
      obtain rfl := Except.ok.inj h
      apply visited_of_not_describes hs hvalid hchild
      simpa using hdescribes
  next hdescribes =>
  rw [Bool.not_eq_true', Bool.not_eq_false] at hdescribes
  split at h
  · cases h
  next command hread =>
  obtain rfl := Except.ok.inj h
  obtain ⟨rfl, -⟩ := readCommand_cls hread
  apply visited_of_entry hs _ hnew
  exact ⟨hvalid, hchild, hdescribes, hread⟩

/-- The loop collects the entries among the classes. -/
theorem foldlM_visitCommand {w : World} (classes : List ℕ) {s s' : List Command × List ℕ}
    (hs : Collected s) (h : classes.foldlM w.visitCommand s = .ok s') :
  Collected s' ∧ ∀ command, command ∈ s'.1 ↔
    command ∈ s.1 ∨ (command.cls ∈ classes ∧ command.cls ∉ s.2 ∧ w.Entry command)
  := by
  induction classes generalizing s with
  | nil =>
      obtain rfl := Except.ok.inj h
      use hs
      simp
  | cons cls classes ih =>
      rw [List.foldlM_cons] at h
      cases hvisit : w.visitCommand s cls with
      | error thrown =>
          rw [hvisit] at h
          cases h
      | ok next =>
          rw [hvisit] at h
          have hvisited := visitCommand_visited hs hvisit
          obtain ⟨hcollected, hmem⟩ := ih hvisited.collected h
          use hcollected
          intro command
          rw [hmem, hvisited.mem, hvisited.seen, List.mem_cons]
          constructor
          · rintro ((hold | ⟨hcls, hnew, hentry⟩) | ⟨hcls, hnew, hentry⟩)
            · exact .inl hold
            · right
              rw [hcls]
              exact ⟨.inl rfl, hnew, hentry⟩
            · right
              exact ⟨.inr hcls, fun hseen => hnew (.inl hseen), hentry⟩
          · rintro (hold | ⟨hcls, hnew, hentry⟩)
            · exact .inl (.inl hold)
            · by_cases heq : command.cls = cls
              · left
                right
                exact ⟨heq, heq ▸ hnew, hentry⟩
              · right
                refine ⟨hcls.resolve_left heq, ?_, hentry⟩
                rintro (hseen | ⟨hcls', -⟩)
                · apply hnew hseen
                · apply heq hcls'

/-! ### The result -/

/-- The commands are the entries of the only registry, each once. -/
theorem commands_spec {w : World} {commands : List Command} (h : w.commands = .ok commands) :
  (commands.map Command.cls).Nodup ∧ ∀ command, command ∈ commands ↔ w.Registers command
  := by
  rw [World.commands] at h
  split at h
  · cases h
  split at h
  · cases h
  · next registry hregistry =>
      rw [commandsOf] at h
      split at h
      · cases h
      dsimp only at h
      split at h
      · cases h
      have hstart : Collected ([], []) := by
        constructor <;> simp
      cases hloop : (w.registered registry).foldlM w.visitCommand ([], []) with
      | error thrown =>
          rw [hloop] at h
          cases h
      | ok s' =>
          obtain ⟨hcollected, hmem⟩ := foldlM_visitCommand _ hstart hloop
          rw [hloop] at h
          change (if s'.1 = [] then _ else _) = _ at h
          split at h
          · cases h
          obtain rfl := Except.ok.inj h
          constructor
          · apply ((List.perm_insertionSort _ _).map _).nodup_iff.mpr hcollected.nodup
          · intro command
            rw [List.mem_insertionSort, hmem]
            constructor
            · rintro (⟨⟨⟩⟩ | ⟨hcls, -, hentry⟩)
              exact ⟨registry, hregistry, hcls, hentry⟩
            · rintro ⟨registry', hregistry', hcls, hentry⟩
              rw [hregistry] at hregistry'
              obtain ⟨rfl, -⟩ := List.cons.inj hregistry'
              right
              exact ⟨hcls, List.not_mem_nil, hentry⟩
  · cases h

end World

end OpenScumRcon
