import OpenScumRcon.WideStrings

/-!
# The world

What the code can read of the process at a moment: the objects of the engine by reflection,
the memory of the process, and the state of the hooks. Objects, classes, functions and
properties are known by their addresses, and the null address is zero.

An object is `valid` when the object array of the engine holds it, and `live` when it is not
one of the objects that new ones are copied from.
-/

namespace OpenScumRcon

/-- The types of properties that `CastField` tells apart. -/
inductive PropertyKind where
  | object
  | objectClass
  | struct
  | array
  | bool
  | byte
  | int
  | int64
  | str
  | other
  deriving DecidableEq

/-- An entry of the object array, with what `IsValid(false)` says of it. -/
structure ObjectItem where
  object : ℕ
  isValid : Bool

/-- What `VirtualQuery` says of an address. -/
structure MemoryInfo where
  allocationBase : ℕ
  state : UInt32
  protect : UInt32

/-- Where a function takes both a property and an object, the property comes first. -/
structure World where
  -- the object array, and its objects in the order of `ForEachUObject`
  numElements : ℤ := 0
  indexToObject : ℤ → Option ObjectItem := fun _ => none
  objects : List ℕ := []
  -- objects and classes
  internalIndex : ℕ → ℤ := fun _ => 0
  classDefault : ℕ → Bool := fun _ => false
  archetype : ℕ → Bool := fun _ => false
  isA : ℕ → ℕ → Bool := fun _ _ => false
  classPrivate : ℕ → ℕ := fun _ => 0
  outerPrivate : ℕ → ℕ := fun _ => 0
  isChildOf : ℕ → ℕ → Bool := fun _ _ => false
  classDefaultObject : ℕ → ℕ := fun _ => 0
  staticFindObject : String → ℕ := fun _ => 0
  -- properties
  propertyByName : ℕ → String → ℕ := fun _ _ => 0
  propertyKind : ℕ → PropertyKind := fun _ => .other
  propertyName : ℕ → String := fun _ => ""
  elementSize : ℕ → ℕ := fun _ => 0
  offset : ℕ → ℤ := fun _ => 0
  structOf : ℕ → ℕ := fun _ => 0
  inner : ℕ → ℕ := fun _ => 0
  propertiesSize : ℕ → ℕ := fun _ => 0
  structProperties : ℕ → List ℕ := fun _ => []
  -- the values of properties
  objectValue : ℕ → ℕ → ℕ := fun _ _ => 0
  boolValue : ℕ → ℕ → Bool := fun _ _ => false
  byteValue : ℕ → ℕ → UInt8 := fun _ _ => 0
  intValue : ℕ → ℕ → Int32 := fun _ _ => 0
  int64Value : ℕ → ℕ → Int64 := fun _ _ => 0
  strValue : ℕ → ℕ → WideString := fun _ _ => []
  arrayNum : ℕ → ℕ → Int32 := fun _ _ => 0
  arrayElement : ℕ → ℕ → ℕ → ℕ := fun _ _ _ => 0
  -- functions, and what `ProcessEvent` gives on an object
  parmsSize : ℕ → ℕ := fun _ => 0
  returnProperty : ℕ → ℕ := fun _ => 0
  callString : ℕ → ℕ → WideString := fun _ _ => []
  callInt64 : ℕ → ℕ → Int64 := fun _ _ => -1
  /-- The address the function behind a connection writes. There is none when the call does
  not return its result. -/
  remoteAddress : ℕ → ℕ → Option WideString := fun _ _ => none
  /-- The location of an actor in the format of the list, if its coordinates are finite. -/
  location : ℕ → Option (Bytes × Bytes × Bytes) := fun _ => none
  /-- The bits of the property of an object with floating-point numbers, if it has one of this name. -/
  floatBits : ℕ → String → Option UInt32 := fun _ _ => none
  -- the process, and which way its runtime rounds a tie
  ties : ℕ → Bool := fun _ => false
  moduleBase : ℕ := 0
  memory : ℕ → Option Byte := fun _ => none
  virtualQuery : ℕ → Option MemoryInfo := fun _ => none
  isIpAddress : Bytes → Bool := fun _ => false
  supportedBuild : Bool := false
  captureReady : Bool := false
  captureFunction : ℕ := 0

namespace World

/-- `GetPropertyByNameInChain` followed by `CastField`. -/
def property (w : World) (object : ℕ) (name : String) (kind : PropertyKind) : ℕ :=
  let p := w.propertyByName object name
  if p ≠ 0 ∧ w.propertyKind p = kind then p else 0

def valid (w : World) (object : ℕ) : Bool :=
  if object = 0 then false
  else
    let index := w.internalIndex object
    if index < 0 ∨ w.numElements ≤ index then false
    else
      match w.indexToObject index with
      | none => false
      | some item => item.object = object && item.isValid

def live (w : World) (object : ℕ) : Bool :=
  w.valid object && !(w.classDefault object || w.archetype object)

/-- A class property is an object property too. -/
def objectProperty (w : World) (object : ℕ) (name : String) : ℕ :=
  let p := w.propertyByName object name
  if p ≠ 0 ∧ (w.propertyKind p = .object ∨ w.propertyKind p = .objectClass) then
    w.objectValue p object
  else 0

/-- So many bytes behind an address, if all of them can be read. -/
def read (w : World) (address n : ℕ) : Option Bytes :=
  if address = 0 then none else (List.range n).mapM fun i => w.memory (address + i)

/-- The address in a slot of the table of virtual functions. It is null when it cannot be
read. -/
def slot (w : World) (object offset : ℕ) : ℕ :=
  match w.read object 8 with
  | none => 0
  | some table =>
      match w.read ((LittleEndian.decode table + offset) % 2 ^ 64) 8 with
      | none => 0
      | some function => LittleEndian.decode function

/-- In the image of the game, in memory that can be executed. -/
def executableInGame (w : World) (function : ℕ) : Bool :=
  if function = 0 then false
  else
    match w.virtualQuery function with
    | none => false
    | some info =>
        let protect := info.protect &&& 0xff
        info.allocationBase = w.moduleBase && info.state = 0x1000 &&
          info.protect &&& 0x101 = 0 &&
          (protect = 0x10 || protect = 0x20 || protect = 0x40 || protect = 0x80)

end World

end OpenScumRcon
