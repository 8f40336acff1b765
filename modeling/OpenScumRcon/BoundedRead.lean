import OpenScumRcon.ResponseCapture

/-!
# The bounded read of a message

The hook reads at most 65538 units of a message. What it reads of a longer one converts to
more bytes than a scope has room for, and the part of it that the scope keeps is the part that
it would keep of the whole message. So the scope is left as if all of it had been read.
-/

namespace OpenScumRcon

open Utf8

/-- The text of all the units: without one NUL at the end, control characters replaced. -/
def fullText (units : WideString) : Option Bytes :=
  wideCharToMultiByte
    ((if units.getLast? = some 0 then units.dropLast else units).map cleanUnit)

/-! ### Cleaning characters -/

/-- What `cleanUnit` makes of a character. -/
def cleanChar (c : Char) : Char :=
  if c.toNat < 32 ∧ c ≠ '\n' ∧ c ≠ '\r' ∧ c ≠ '\t' then ' ' else c

theorem cleanUnit_of_le {u : UInt16} (h : 32 ≤ u.toNat) :
  cleanUnit u = u
  := by
  rw [cleanUnit, if_neg]
  rintro (rfl | ⟨hlt, -⟩)
  · contradiction
  · rw [UInt16.lt_iff_toNat_lt] at hlt
    apply Nat.not_lt.mpr h hlt

theorem map_cleanUnit_encodeChar (c : Char) :
  (Utf16.encodeChar c).map cleanUnit = Utf16.encodeChar (cleanChar c)
  := by
  obtain hlt | hle := Nat.lt_or_ge c.toNat 32
  · have hcontrol : ∀ n : Fin 32, (Utf16.encodeChar (Char.ofNat n)).map cleanUnit =
        Utf16.encodeChar (cleanChar (Char.ofNat n)) := by
      decide
    have hc := hcontrol ⟨c.toNat, hlt⟩
    rw [Char.ofNat_toNat] at hc
    apply hc
  · rw [cleanChar, if_neg (by omega)]
    obtain ⟨u, hc, hunit, -⟩ | ⟨u, v, hc, hhigh, hlow, -⟩ := Utf16.encodeChar_cases c
    · rw [hc, List.map_singleton, cleanUnit_of_le (by omega)]
    · have hu := Utf16.isHigh_or_isLow_le (.inl hhigh)
      have hv := Utf16.isHigh_or_isLow_le (.inr hlow)
      rw [hc, List.map_cons, List.map_singleton, cleanUnit_of_le (by omega),
        cleanUnit_of_le (by omega)]

theorem map_cleanUnit_flatMap (characters : List Char) :
  (characters.flatMap Utf16.encodeChar).map cleanUnit =
    (characters.map cleanChar).flatMap Utf16.encodeChar
  := by
  rw [List.map_flatMap, List.flatMap_map]
  simp only [map_cleanUnit_encodeChar]

/-- Well-formed units are converted, control characters replaced. -/
theorem wideCharToMultiByte_map_cleanUnit (characters : List Char) :
  wideCharToMultiByte ((characters.flatMap Utf16.encodeChar).map cleanUnit) =
    some ((characters.map cleanChar).flatMap String.utf8EncodeChar)
  := by
  rw [map_cleanUnit_flatMap, wideCharToMultiByte, Utf16.decode_flatMap_encodeChar]
  rfl

/-- A character takes at least as many bytes in UTF-8 as units in UTF-16. -/
theorem length_encodeChar_le (c : Char) :
  (Utf16.encodeChar c).length ≤ (String.utf8EncodeChar c).length
  := by
  rw [Utf16.encodeChar]
  split
  · apply List.length_pos_iff.mpr String.utf8EncodeChar_ne_nil
  · next hge =>
      have hval : 0x10000 ≤ c.val.toNat := Nat.le_of_not_lt hge
      rw [String.utf8EncodeChar]
      rw [if_neg (by omega), if_neg (by omega), if_neg (by omega)]
      simp only [List.length_cons, List.length_nil]
      omega

theorem length_flatMap_encodeChar_le (characters : List Char) :
  (characters.flatMap Utf16.encodeChar).length ≤
    (characters.flatMap String.utf8EncodeChar).length
  := by
  induction characters with
  | nil => apply Nat.le_refl
  | cons c characters ih =>
      rw [List.flatMap_cons, List.flatMap_cons, List.length_append, List.length_append]
      apply Nat.add_le_add (length_encodeChar_le c) ih

/-- Leaving out a NUL at the end keeps units well-formed. -/
theorem wellFormed_dropLast {units : WideString} (h : Utf16.WellFormed units) :
  Utf16.WellFormed (if units.getLast? = some 0 then units.dropLast else units)
  := by
  split
  · next hlast =>
      obtain ⟨characters, rfl⟩ := h
      obtain rfl | ⟨characters, c, rfl⟩ := List.eq_nil_or_concat characters
      · cases hlast
      · rw [List.concat_eq_append, List.flatMap_append, List.flatMap_singleton] at hlast ⊢
        obtain ⟨u, hc, -⟩ | ⟨u, v, hc, -, hlow, -⟩ := Utf16.encodeChar_cases c
        · rw [hc, List.dropLast_concat]
          exact ⟨characters, rfl⟩
        · -- the second half of a pair is not NUL
          rw [hc, List.append_cons, List.getLast?_concat] at hlast
          have hle := Utf16.isHigh_or_isLow_le (.inr hlow)
          rw [Option.some.inj hlast] at hle
          contradiction
  · apply h

/-! ### The text of the prefix -/

theorem messageText_of_length_eq {num : ℕ} {units : WideString} (h : units.length = num) :
  messageText num units = fullText units
  := by
  rw [messageText, fullText]
  simp [h]

theorem messageText_of_length_lt {num : ℕ} {units : WideString} (h : units.length < num) :
  messageText num units = wideCharToMultiByte
    ((if ∃ c ∈ units.getLast?, Utf16.IsHigh c then units.dropLast else units).map cleanUnit)
  := by
  rw [messageText]
  simp [h, Nat.ne_of_lt h]

/-- The text of a prefix of well-formed units is that of the characters it holds whole. -/
theorem messageText_take_flatMap {characters : List Char} {num n : ℕ} (hnum : n < num)
    (hn : n ≤ (characters.flatMap Utf16.encodeChar).length) :
  ∃ first, first <+: characters ∧ n ≤ (first.flatMap Utf16.encodeChar).length + 1 ∧
    messageText num ((characters.flatMap Utf16.encodeChar).take n) =
      some ((first.map cleanChar).flatMap String.utf8EncodeChar)
  := by
  have hlength := List.length_take_of_le hn
  obtain ⟨first, hfirst, htake⟩ := Utf16.take_flatMap_encodeChar characters n
  use first, hfirst
  rw [messageText_of_length_lt (by rw [hlength]; apply hnum)]
  obtain htake | ⟨u, hhigh, htake⟩ := htake
  · rw [htake] at hlength ⊢
    constructor
    · omega
    · rw [if_neg, wideCharToMultiByte_map_cleanUnit]
      rintro ⟨u, hu, hhigh⟩
      apply Utf16.not_isHigh_getLast? hu hhigh
  · rw [htake] at hlength ⊢
    constructor
    · rw [← hlength, List.length_append, List.length_singleton]
    · rw [if_pos ⟨u, List.getLast?_concat, hhigh⟩, List.dropLast_concat,
        wideCharToMultiByte_map_cleanUnit]

/-- The text of the prefix of a longer message is a prefix of its text, longer than any
scope. -/
theorem messageText_take {units : WideString} (hwf : Utf16.WellFormed units)
    (h : 65538 < units.length) :
  ∃ text rest, messageText units.length (units.take 65538) = some text ∧
    fullText units = some (text ++ rest) ∧ ResponseScope.maxBytes < text.length
  := by
  obtain ⟨characters, hcharacters⟩ := wellFormed_dropLast hwf
  -- the NUL at the end is behind the prefix
  have htake : units.take 65538 = (characters.flatMap Utf16.encodeChar).take 65538 := by
    rw [← hcharacters]
    split
    · rw [List.dropLast_eq_take, List.take_take, Nat.min_eq_left (by omega)]
    · rfl
  have hlength : 65538 ≤ (characters.flatMap Utf16.encodeChar).length := by
    rw [← hcharacters]
    split
    · rw [List.length_dropLast]
      omega
    · omega
  obtain ⟨first, ⟨later, rfl⟩, hfirst, hmessage⟩ := messageText_take_flatMap h hlength
  rw [← htake] at hmessage
  use (first.map cleanChar).flatMap String.utf8EncodeChar,
    (later.map cleanChar).flatMap String.utf8EncodeChar, hmessage
  constructor
  · rw [fullText, hcharacters, wideCharToMultiByte_map_cleanUnit, List.map_append,
      List.flatMap_append]
  · have hbytes := length_flatMap_encodeChar_le (first.map cleanChar)
    rw [← map_cleanUnit_flatMap, List.length_map] at hbytes
    rw [ResponseScope.maxBytes]
    omega

/-! ### What the scope keeps of it -/

namespace ResponseScope

/-- A text beyond the bound may be replaced by any of its beginnings beyond the bound. -/
theorem append_of_lt_length (scope : ResponseScope) {text : Bytes} (rest : Bytes)
    (allocations : Allocations) (h : maxBytes < text.length) :
  scope.append (text ++ rest) allocations = scope.append text allocations
  := by
  have hlimit : maxBytes - scope.output.length < text.length := by omega
  have hcut := utf8PrefixSize_le_limit text (maxBytes - scope.output.length)
  have hlt : utf8PrefixSize text (maxBytes - scope.output.length) < text.length := by omega
  rw [append, append, utf8PrefixSize_append_of_lt_length rest hlimit,
    List.take_append_of_le_length (Nat.le_of_lt hlt), decide_eq_true (Nat.ne_of_lt hlt),
    decide_eq_true]
  rw [List.length_append]
  omega

/-- Behind a text longer than its bound, a scope does not see what follows. -/
theorem accept_of_lt_length (scope : ResponseScope) {text : Bytes} (rest : Bytes)
    (allocations : Allocations) (h : maxBytes < text.length) :
  scope.accept (text ++ rest) allocations = scope.accept text allocations
  := by
  have hne : text ≠ [] := List.length_pos_iff.mp (Nat.zero_lt_of_lt h)
  have hne' : text ++ rest ≠ [] := List.append_ne_nil_of_left_ne_nil hne rest
  rw [accept, accept]
  simp only [append_of_lt_length _ rest allocations h, hne, hne', ne_eq, not_false_eq_true,
    true_and]

end ResponseScope

/-! ### Receiving a message -/

/-- The memory of a call holds the units as a message of the game that can be read, and the
hook gets the memory for its copies of it. -/
structure HoldsMessage (call : ResponseCall) (memory : MessageMemory) (header : StringHeader)
    (units : WideString) : Prop where
  address : call.message ≠ 0
  head : memory.header = some header
  data : header.data ≠ 0
  num : header.num.toInt = units.length
  capacity : header.num ≤ header.capacity
  body : units <+: memory.units
  wide : memory.allocations.wide = true
  text : memory.allocations.text = true

/-- The hook reads the bounded prefix of the message. -/
theorem HoldsMessage.readMessage_eq {call : ResponseCall} {memory : MessageMemory}
    {header : StringHeader} {units : WideString} (h : HoldsMessage call memory header units)
    (hpositive : 1 ≤ units.length) (hle : units.length ≤ 1048576) :
  readMessage call.message memory = messageText units.length (units.take 65538)
  := by
  have hnum : header.num.toInt.toNat = units.length := by
    rw [h.num]
    rfl
  have hbody := h.body.length_le
  have hread : memory.units.take (min units.length 65538) = units.take 65538 := by
    obtain ⟨later, hlater⟩ := h.body
    rw [← hlater, List.take_append_of_le_length (Nat.min_le_left _ _), List.take_eq_take_iff]
    omega
  have haccepted : ¬ (call.message = 0 ∨ header.num < 0 ∨ 1048576 < header.num ∨
      header.capacity < header.num ∨ header.num ≠ 0 ∧ header.data = 0) := by
    have hcapacity := h.capacity
    have hnum' := h.num
    rw [Int32.le_iff_toInt_le] at hcapacity
    rw [Int32.lt_iff_toInt_lt, Int32.lt_iff_toInt_lt, Int32.lt_iff_toInt_lt, Int32.toInt_zero]
    have hbound : (1048576 : Int32).toInt = 1048576 := by decide
    rw [hbound]
    rintro (haddress | hnegative | hlarge | hshort | ⟨-, hdata⟩)
    · apply h.address haddress
    · omega
    · omega
    · omega
    · apply h.data hdata
  have hnonzero : header.num ≠ 0 := by
    intro hzero
    have hnum' := h.num
    rw [hzero, Int32.toInt_zero] at hnum'
    omega
  rw [readMessage, h.head]
  dsimp only
  rw [if_neg haccepted, if_neg hnonzero, hnum, hread, h.wide, h.text, if_neg]
  · cases messageText units.length (units.take 65538) <;> simp
  · simp
    omega

/-- The text of the prefix that the hook reads, and the rest of the text of the message. Only
behind what fills a scope is there a rest. -/
theorem exists_messageText_take {units : WideString} (hwf : Utf16.WellFormed units) :
  ∃ text rest, messageText units.length (units.take 65538) = some text ∧
    fullText units = some (text ++ rest) ∧ (rest = [] ∨ ResponseScope.maxBytes < text.length)
  := by
  obtain hlt | hle := Nat.lt_or_ge 65538 units.length
  · obtain ⟨text, rest, htext, hfull, hlength⟩ := messageText_take hwf hlt
    exact ⟨text, rest, htext, hfull, .inr hlength⟩
  · obtain ⟨characters, hcharacters⟩ := wellFormed_dropLast hwf
    have hfull : fullText units =
        some ((characters.map cleanChar).flatMap String.utf8EncodeChar) := by
      rw [fullText, hcharacters, wideCharToMultiByte_map_cleanUnit]
    use (characters.map cleanChar).flatMap String.utf8EncodeChar, []
    rw [List.take_of_length_le hle, messageText_of_length_eq rfl, List.append_nil]
    exact ⟨hfull, hfull, .inl rfl⟩

/-- The bounded read of a message is not observable: the scope is left as if it had accepted
the text of all its units. -/
theorem receive_eq_accept_fullText {ι : Type} [DecidableEq ι] (s : ResponseCapture ι) (t : ι)
    (call : ResponseCall) (memory : MessageMemory) (header : StringHeader) (units : WideString)
    (hmatch : s.doesMatch t call.command = true) (hwf : Utf16.WellFormed units)
    (hpositive : 1 ≤ units.length) (hle : units.length ≤ 1048576)
    (h : HoldsMessage call memory header units) :
  ∃ text i scope, fullText units = some text ∧ s.innermost t = some (i, scope) ∧
    s.receive t call memory = (s.accept t call.command text memory.allocations).2 ∧
    s.receive t call memory = s.setScope i (scope.accept text memory.allocations) ∧
    (memory.allocations.lineFeed = true → memory.allocations.output = true →
      (scope.accept text memory.allocations).failed = scope.failed)
  := by
  obtain ⟨text, rest, htext, hfull, hrest⟩ := exists_messageText_take hwf
  obtain ⟨⟨i, scope⟩, hinnermost⟩ : ∃ innermost, s.innermost t = some innermost := by
    rw [← Option.isSome_iff_exists, Option.isSome_iff_ne_none]
    intro hnone
    rw [ResponseCapture.doesMatch, hnone] at hmatch
    contradiction
  have haccept (text : Bytes) : (s.accept t call.command text memory.allocations).2 =
      s.setScope i (scope.accept text memory.allocations) := by
    rw [ResponseCapture.accept, hmatch, hinnermost]
    rfl
  have hreceive : s.receive t call memory =
      s.setScope i (scope.accept (text ++ rest) memory.allocations) := by
    rw [ResponseCapture.receive, hmatch, h.readMessage_eq hpositive hle, htext]
    dsimp only
    rw [Bool.not_true, if_neg Bool.false_ne_true, haccept]
    obtain rfl | hlength := hrest
    · rw [List.append_nil]
    · rw [ResponseScope.accept_of_lt_length scope rest memory.allocations hlength]
  use text ++ rest, i, scope, hfull, hinnermost
  constructor
  · rw [hreceive, haccept]
  use hreceive
  apply ResponseScope.failed_accept

/-- A message of two characters and a NUL, received in a new scope. -/
theorem receive_eq_accept_fullText_short :
  ∃ text, fullText [0x68, 0x69, 0] = some text ∧
    (ResponseCapture.step {} (.construct () 5 1)).receive () ⟨1, 9, false, false⟩
        { header := some ⟨7, 3, 3⟩, units := [0x68, 0x69, 0] } =
      ((ResponseCapture.step {} (.construct () 5 1)).accept () 1 text {}).2
  := by
  obtain ⟨text, -, -, hfull, -, hreceive, -⟩ := receive_eq_accept_fullText
    (ResponseCapture.step {} (.construct () 5 1)) () ⟨1, 9, false, false⟩
    { header := some ⟨7, 3, 3⟩, units := [0x68, 0x69, 0] } ⟨7, 3, 3⟩ [0x68, 0x69, 0]
    (by decide) ⟨['h', 'i', Char.ofNat 0], by decide⟩ (by decide) (by decide)
    ⟨by decide, rfl, by decide, by decide, by decide, List.prefix_rfl, rfl, rfl⟩
  exact ⟨text, hfull, hreceive⟩

end OpenScumRcon
