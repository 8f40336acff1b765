import Mathlib.Data.Int.ModEq
import OpenScumRcon.Config

/-!
# The configured port

Each line with the key `port` is read with `std::stoi` and narrowed to 16 bits. Nothing
catches what `std::stoi` throws, and nothing looks at the range. So the port that becomes
effective is the one the file configures exactly when every such line begins with an integer in
the range of `int`, and the last one is the number of a port, or a number that differs from the
configured port by a multiple of `2 ^ 16`. A port in a line behind the byte `0x1a`, which ends a
text file, is not read at all.
-/

namespace OpenScumRcon

/-! ### The lines with a port -/

/-- The value of a line with the key `port`. -/
def portValue (line : Bytes) : Option Bytes :=
  match keyValue line with
  | none => none
  | some (key, value) => if key = ascii "port" then some value else none

def portValues (lines : List Bytes) : List Bytes :=
  lines.filterMap portValue

instance (value : Bytes) : Decidable (ValidPort value) :=
  decidable_of_iff ((portNumber value).isSome = true) Option.isSome_iff_exists

/-- `static_cast<unsigned short>` of an `int`. -/
def narrowPort (n : ℤ) : UInt16 :=
  UInt16.ofNat (n % 2 ^ 16).toNat

/-- The last of the values that is the number of a port, or the default. -/
def lastPort (values : List Bytes) : ℤ :=
  (values.filterMap portNumber).getLast?.getD 28016

/-- The port that the file configures. -/
def configuredPort (file : Bytes) : ℤ :=
  lastPort (portValues (fileLines file))

/-- The values that are read, up to the end of the text file. -/
def portsRead (file : Bytes) : List Bytes :=
  portValues (getlines (textMode file))

/-- All values that are read begin with integers that `int` can hold. If the last one is not the number
of a port, it is by chance equal to the configured port in its last 16 bits. If it is, or there is none,
and the file has a byte `0x1a`, then no line that this byte cuts off or hides configures another. -/
structure PortsTaken (file : Bytes) : Prop where
  numbers : ∀ value ∈ portsRead file, ∃ n, Leads value n ∧ -2 ^ 31 ≤ n ∧ n < 2 ^ 31
  hidden : Byte.substitute ∈ file →
    (∀ value, (portsRead file).getLast? = some value → ValidPort value) →
    lastPort (portsRead file) = configuredPort file
  invalid : ∀ value n, (portsRead file).getLast? = some value → ¬ ValidPort value →
    Leads value n → n ≡ configuredPort file [ZMOD 2 ^ 16]

/-! ### What is read -/

theorem Config.readLine_of_portValue (config : Config) {line value : Bytes}
    (h : portValue line = some value) :
  config.readLine line = (stoi value).map fun port => { config with port := narrowPort port }
  := by
  rw [portValue] at h
  split at h
  · contradiction
  next key value' hkey =>
  split at h
  · next hport =>
      obtain rfl := Option.some.inj h
      rw [readLine, hkey, hport]
      rfl
  · contradiction

theorem Config.readLine_of_not_portValue (config : Config) {line : Bytes}
    (h : portValue line = none) :
  (config.readLine line).map Config.port = .ok config.port
  := by
  rw [readLine]
  split
  · rfl
  next key value hkey =>
  split
  · rfl
  split
  · next hport =>
      rw [portValue, hkey, hport] at h
      contradiction
  split
  · rfl
  · rfl

/-- An earlier number counts when there is no later one. -/
theorem getD_map_getLast?_cons (n : ℤ) (numbers : List ℤ) (port : UInt16) :
  (numbers.getLast?.map narrowPort).getD (narrowPort n) =
    ((n :: numbers).getLast?.map narrowPort).getD port
  := by
  rw [List.getLast?_cons]
  cases numbers.getLast? with
  | none => rfl
  | some last => rfl

/-- The port after some lines is the last number read, narrowed, when all of them are read. -/
theorem foldlM_readLine_port (lines : List Bytes) (config : Config) :
  (lines.foldlM Config.readLine config).map Config.port =
    ((lines.filterMap portValue).mapM stoi).map fun numbers =>
      (numbers.getLast?.map narrowPort).getD config.port
  := by
  induction lines generalizing config with
  | nil => rfl
  | cons line lines ih =>
      rw [List.foldlM_cons]
      cases hvalue : portValue line with
      | none =>
          have hread := config.readLine_of_not_portValue hvalue
          rw [List.filterMap_cons_none hvalue]
          cases hline : config.readLine line with
          | error thrown =>
              rw [hline] at hread
              contradiction
          | ok config' =>
              rw [hline] at hread
              have hport : config'.port = config.port := Except.ok.inj hread
              rw [← hport]
              apply ih config'
      | some value =>
          rw [List.filterMap_cons_some hvalue, List.mapM_cons,
            config.readLine_of_portValue hvalue]
          cases stoi value with
          | error thrown => rfl
          | ok port =>
              change (lines.foldlM Config.readLine _).map Config.port = _
              rw [ih]
              cases (lines.filterMap portValue).mapM stoi with
              | error thrown => rfl
              | ok numbers =>
                  apply congrArg Except.ok
                  apply getD_map_getLast?_cons

theorem loadConfig_port (file : Bytes) :
  (loadConfig (some file)).map Config.port =
    ((portsRead file).mapM stoi).map fun numbers =>
      (numbers.getLast?.map narrowPort).getD 28016
  := foldlM_readLine_port (getlines (textMode file)) {}

/-! ### When it is the configured one -/

/-- All the values are numbers when each of them is. -/
theorem exists_mapM_stoi_iff {values : List Bytes} :
  (∃ numbers, values.mapM stoi = .ok numbers) ↔ ∀ value ∈ values, ∃ n, stoi value = .ok n
  := by
  induction values with
  | nil => simp [pure, Except.pure]
  | cons value values ih =>
      rw [List.forall_mem_cons, ← ih, List.mapM_cons]
      cases stoi value with
      | error thrown => simp [bind, Except.bind]
      | ok n =>
          cases values.mapM stoi with
          | error thrown => simp [bind, Except.bind]
          | ok numbers => simp [bind, Except.bind, pure, Except.pure]

/-- The last of the numbers is that of the last value. -/
theorem exists_mapM_stoi_concat_iff {values : List Bytes} {value : Bytes} {port : UInt16}
    {P : UInt16 → Prop} :
  (∃ numbers, (values ++ [value]).mapM stoi = .ok numbers ∧
      P ((numbers.getLast?.map narrowPort).getD port)) ↔
    (∀ value ∈ values, ∃ n, stoi value = .ok n) ∧ ∃ n, stoi value = .ok n ∧ P (narrowPort n)
  := by
  rw [← exists_mapM_stoi_iff, List.mapM_append, List.mapM_cons, List.mapM_nil]
  cases values.mapM stoi with
  | error thrown => simp [bind, Except.bind]
  | ok numbers =>
      cases stoi value with
      | error thrown => simp [bind, Except.bind]
      | ok n => simp [bind, Except.bind, pure, Except.pure]

theorem map_eq_ok_iff {α β : Type} {x : Except Thrown α} {f : α → β} {b : β} :
  x.map f = .ok b ↔ ∃ a, x = .ok a ∧ f a = b
  := by
  cases x with
  | error thrown => simp [Except.map]
  | ok a => simp [Except.map]

theorem exists_config_iff (file : Bytes) (P : UInt16 → Prop) :
  (∃ config, loadConfig (some file) = .ok config ∧ P config.port) ↔
    ∃ numbers, (portsRead file).mapM stoi = .ok numbers ∧
      P ((numbers.getLast?.map narrowPort).getD 28016)
  := by
  have hports : ∀ port, (∃ config, loadConfig (some file) = .ok config ∧ config.port = port) ↔
      ∃ numbers, (portsRead file).mapM stoi = .ok numbers ∧
        (numbers.getLast?.map narrowPort).getD 28016 = port := by
    intro port
    rw [← map_eq_ok_iff, loadConfig_port, map_eq_ok_iff]
  constructor
  · rintro ⟨config, hload, hport⟩
    obtain ⟨numbers, hnumbers, hlast⟩ := (hports config.port).mp ⟨config, hload, rfl⟩
    use numbers, hnumbers
    rw [hlast]
    apply hport
  · rintro ⟨numbers, hnumbers, hport⟩
    obtain ⟨config, hload, hlast⟩ := (hports _).mpr ⟨numbers, hnumbers, rfl⟩
    use config, hload
    rw [hlast]
    apply hport

/-- The ports are numbers of 16 bits. -/
theorem lastPort_range (values : List Bytes) :
  0 ≤ lastPort values ∧ lastPort values < 2 ^ 16
  := by
  rw [lastPort]
  cases hlast : (values.filterMap portNumber).getLast? with
  | none => decide
  | some n =>
      obtain ⟨value, -, hn⟩ := List.mem_filterMap.mp (List.mem_of_getLast? hlast)
      apply (stoi_of_portNumber hn).2

theorem lastPort_concat {values : List Bytes} {value : Bytes} {n : ℤ}
    (h : portNumber value = some n) :
  lastPort (values ++ [value]) = n
  := by
  rw [lastPort, List.filterMap_append, List.filterMap_cons_some h]
  simp

/-- The line breaks are all that is changed of a file. -/
theorem mem_of_mem_lineFeeds {file : Bytes} {c : Byte} (h : c ∈ lineFeeds file) :
  c ∈ file
  := by
  induction file with
  | nil => cases h
  | cons b file ih =>
      rw [lineFeeds] at h
      split at h
      · exact List.mem_cons_of_mem _ (ih h)
      · rcases List.mem_cons.mp h with rfl | hmem
        · exact List.mem_cons_self
        · exact List.mem_cons_of_mem _ (ih hmem)

/-- A file without the byte `0x1a` is read to its end. -/
theorem portsRead_of_text {file : Bytes} (h : Byte.substitute ∉ file) :
  portsRead file = portValues (fileLines file)
  := by
  rw [portsRead, textMode, List.takeWhile_eq_self_iff.mpr]
  · rfl
  intro c hc
  rw [isText, bne_iff_ne]
  rintro rfl
  apply h (mem_of_mem_lineFeeds hc)

/-- The last port that is read is the configured one, also in a file without the byte `0x1a`. -/
theorem PortsTaken.lastPort_eq {file : Bytes} (h : PortsTaken file)
    (hvalid : ∀ value, (portsRead file).getLast? = some value → ValidPort value) :
  lastPort (portsRead file) = configuredPort file
  := by
  by_cases htext : Byte.substitute ∈ file
  · apply h.hidden htext hvalid
  · rw [portsRead_of_text htext, configuredPort]

/-- An `int` is narrowed to a port exactly when they agree in 16 bits. -/
theorem narrowPort_eq_iff {n port : ℤ} (h : 0 ≤ port ∧ port < 2 ^ 16) :
  ((narrowPort n).toNat : ℤ) = port ↔ n ≡ port [ZMOD 2 ^ 16]
  := by
  rw [narrowPort, UInt16.toNat_ofNat', Int.ModEq]
  omega

/-- An integer at the beginning of a text is what `std::stoi` takes of it. -/
theorem Leads.unique {text : Bytes} {n m : ℤ} (hn : Leads text n) (hm : stoi text = .ok m) :
  n = m
  := by
  obtain ⟨blank, number, rest, rfl, hblank, hinteger, hrest⟩ := hn
  rw [stoi_of_integer hblank hinteger hrest] at hm
  split at hm
  · cases hm
  · apply Except.ok.inj hm

/-- What is narrowed from the last value is the configured port when the value is the number of this
port, or by chance. -/
theorem narrowPort_last_iff {values : List Bytes} {value : Bytes} {n port : ℤ}
    (hstoi : stoi value = .ok n) (hport : 0 ≤ port ∧ port < 2 ^ 16) :
  ((narrowPort n).toNat : ℤ) = port ↔
    (ValidPort value → lastPort (values ++ [value]) = port) ∧
      (¬ ValidPort value → n ≡ port [ZMOD 2 ^ 16])
  := by
  rw [narrowPort_eq_iff hport]
  by_cases hvalid : ValidPort value
  · obtain ⟨m, hm⟩ := hvalid
    obtain ⟨hstoi', hrange⟩ := stoi_of_portNumber hm
    obtain rfl : n = m := Except.ok.inj (hstoi.symm.trans hstoi')
    rw [lastPort_concat hm, Int.ModEq]
    constructor
    · intro hmod
      constructor
      · intro
        omega
      · intro hnot
        cases hnot ⟨n, hm⟩
    · rintro ⟨heq, -⟩
      rw [heq ⟨n, hm⟩]
  · simp only [hvalid, false_implies, true_and, not_false_eq_true, true_implies]

/-- The file is read without an exception to its configured port exactly when its ports are taken:
each of the values begins with an integer, and the last one is the number of a port and the end of the
text file hides no other, or it agrees with the configured port in 16 bits. -/
theorem loadConfig_port_iff (file : Bytes) :
  (∃ config, loadConfig (some file) = .ok config ∧ (config.port.toNat : ℤ) = configuredPort file) ↔
    PortsTaken file
  := by
  have hport : 0 ≤ configuredPort file ∧ configuredPort file < 2 ^ 16 := lastPort_range _
  have hnumbers : ∀ value, (∃ n, stoi value = .ok n) ↔ ∃ n, Leads value n ∧ -2 ^ 31 ≤ n ∧ n < 2 ^ 31 := by
    intro value
    simp only [stoi_eq_ok_iff]
  let P (port : UInt16) : Prop := (port.toNat : ℤ) = configuredPort file
  apply (exists_config_iff file P).trans
  obtain hnil | ⟨values, value, hconcat⟩ := List.eq_nil_or_concat (portsRead file)
  · constructor
    · rintro ⟨numbers, hok, hlast⟩
      rw [hnil] at hok
      obtain rfl := Except.ok.inj hok
      refine ⟨by simp [hnil], ?_, by simp [hnil]⟩
      intro _ _
      rw [hnil]
      apply hlast
    · intro htaken
      have hvalid := htaken.lastPort_eq
      rw [hnil] at hvalid ⊢
      use [], rfl
      apply hvalid
      rintro _ ⟨⟩
  · rw [List.concat_eq_append] at hconcat
    have hlast : ∀ value', (portsRead file).getLast? = some value' ↔ value = value' := by
      intro value'
      rw [hconcat, List.getLast?_concat, Option.some_inj]
    rw [hconcat]
    apply (@exists_mapM_stoi_concat_iff values value 28016 P).trans
    constructor
    · rintro ⟨hvalues, n, hn, hnarrow⟩
      obtain ⟨hvalid, hinvalid⟩ := (narrowPort_last_iff hn hport).mp hnarrow
      constructor
      · rw [hconcat, List.forall_mem_append, List.forall_mem_singleton]
        use fun value hvalue => (hnumbers value).mp (hvalues value hvalue)
        apply (hnumbers value).mp ⟨n, hn⟩
      · intro _ hall
        rw [hconcat]
        apply hvalid
        apply hall value ((hlast value).mpr rfl)
      · intro value' m hvalue' hnot hm
        obtain rfl := (hlast value').mp hvalue'
        rw [hm.unique hn]
        apply hinvalid hnot
    · intro htaken
      have hall := htaken.numbers
      rw [hconcat, List.forall_mem_append, List.forall_mem_singleton] at hall
      use fun value hvalue => (hnumbers value).mpr (hall.1 value hvalue)
      obtain ⟨n, hn⟩ := (hnumbers value).mpr hall.2
      use n, hn
      apply (@narrowPort_last_iff values value n _ hn hport).mpr
      constructor
      · intro hvalue
        rw [← hconcat]
        apply htaken.lastPort_eq
        intro value' hvalue'
        rw [← (hlast value').mp hvalue']
        apply hvalue
      · intro hnot
        apply htaken.invalid value n ((hlast value).mpr rfl) hnot (stoi_eq_ok_iff.mp hn).1

/-- A value out of range is narrowed to another port, and what is no number is not caught. -/
theorem loadConfig_port_wrong :
  (¬ ∃ config, loadConfig (some (ascii "port = 70000")) = .ok config ∧
      (config.port.toNat : ℤ) = configuredPort (ascii "port = 70000")) ∧
    ¬ ∃ config, loadConfig (some (ascii "port = abc")) = .ok config ∧
      (config.port.toNat : ℤ) = configuredPort (ascii "port = abc")
  := by
  have hnarrowed : loadConfig (some (ascii "port = 70000")) = .ok { port := 4464 } := by
    rfl
  have hthrown : loadConfig (some (ascii "port = abc")) =
      .error (.exception (ascii "invalid stoi argument")) := by
    rfl
  have hdefault : configuredPort (ascii "port = 70000") = 28016 := by
    decide +kernel
  rw [hnarrowed, hthrown, hdefault]
  constructor
  · rintro ⟨_, ⟨⟩, hport⟩
    revert hport
    decide
  · rintro ⟨_, ⟨⟩, -⟩

end OpenScumRcon
