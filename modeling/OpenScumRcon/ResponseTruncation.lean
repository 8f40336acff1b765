import Mathlib.Data.List.Induction
import OpenScumRcon.ResponseScope

/-!
# Truncated replies

The texts that a scope accepts, joined with line feeds and no bound, are what the reply would
be. A scope says that it is cut exactly when that text or the number of messages exceeds its
bound, and otherwise it holds that text.

When the text exceeds the bound, the scope keeps its longest part that does not cut a code
point, and this can leave a gap of up to three bytes. A later message that fits in the gap is
appended all the same. So what the scope holds is a prefix of the joined text exactly when no
message among those it counts finds room in a gap.
-/

namespace OpenScumRcon

open Utf8

/-! ### The joined text -/

/-- The line feed before a message, unless one of the texts is empty or there is one already. -/
def separator (text message : Bytes) : Bytes :=
  if text ≠ [] ∧ message ≠ [] ∧ text.getLast? ≠ some Byte.lineFeed then [Byte.lineFeed] else []

/-- The messages joined with no bound. -/
def joinMessages (messages : List Bytes) : Bytes :=
  messages.foldl (fun text message => text ++ separator text message ++ message) []

theorem valid_lineFeed :
  Valid [Byte.lineFeed]
  := Valid.char '\n' .nil

theorem valid_separator (text message : Bytes) :
  Valid (separator text message)
  := by
  rw [separator]
  split
  · apply valid_lineFeed
  · apply Valid.nil

theorem length_separator_le (text message : Bytes) :
  (separator text message).length ≤ 1
  := by
  rw [separator]
  split
  · apply Nat.le_refl
  · apply Nat.zero_le

@[simp]
theorem joinMessages_singleton (message : Bytes) :
  joinMessages [message] = message
  := rfl

/-- One more message joins the text behind a separator. -/
theorem joinMessages_concat (messages : List Bytes) (message : Bytes) :
  joinMessages (messages ++ [message]) =
    joinMessages messages ++ separator (joinMessages messages) message ++ message
  := by
  rw [joinMessages, List.foldl_concat]
  rfl

/-- Joining only adds to the text. -/
theorem isPrefix_foldl_join (text : Bytes) (messages : List Bytes) :
  text <+: messages.foldl (fun text message => text ++ separator text message ++ message) text
  := by
  induction messages generalizing text with
  | nil => apply List.prefix_rfl
  | cons message messages ih =>
      rw [List.foldl_cons]
      apply List.IsPrefix.trans _ (ih _)
      rw [List.append_assoc]
      apply List.prefix_append

/-- Later messages only extend the joined text. -/
theorem joinMessages_isPrefix_append (messages later : List Bytes) :
  joinMessages messages <+: joinMessages (messages ++ later)
  := by
  rw [joinMessages, joinMessages, List.foldl_append]
  apply isPrefix_foldl_join

/-- Valid messages joined are valid. -/
theorem valid_joinMessages {messages : List Bytes} (h : ∀ message ∈ messages, Valid message) :
  Valid (joinMessages messages)
  := by
  induction messages using List.reverseRecOn with
  | nil => apply Valid.nil
  | append_singleton messages message ih =>
      rw [List.forall_mem_append, List.forall_mem_singleton] at h
      rw [joinMessages_concat]
      apply Valid.append
      · apply (ih h.1).append
        apply valid_separator
      · apply h.2

namespace ResponseScope

/-! ### Accepting one message after the other -/

/-- The scope with the messages, when no allocation fails. -/
def collect (scope : ResponseScope) (messages : List Bytes) : ResponseScope :=
  messages.foldl (fun scope message => scope.accept message {}) scope

/-- One more message is accepted last. -/
theorem collect_concat (scope : ResponseScope) (messages : List Bytes) (message : Bytes) :
  scope.collect (messages ++ [message]) = (scope.collect messages).accept message {}
  := by
  rw [collect, List.foldl_concat]
  rfl

/-- `append` without a failing allocation. -/
theorem append_eq (scope : ResponseScope) (text : Bytes) :
  scope.append text {} =
    let n := utf8PrefixSize text (maxBytes - scope.output.length)
    { scope with
      output := scope.output ++ text.take n
      cut := scope.cut || decide (n ≠ text.length) }
  := by
  rw [append]
  simp

/-- What a message does: nothing but the mark when the messages or the bytes are used up, and
otherwise it is appended behind its separator as far as it fits. -/
theorem accept_eq (scope : ResponseScope) (message : Bytes) :
  scope.accept message {} =
    let full := scope.output ++ separator scope.output message
    let n := utf8PrefixSize message (maxBytes - full.length)
    if maxMessages ≤ scope.count ∨ maxBytes < full.length ∧ scope.output.length = maxBytes then
      { scope with count := scope.count + 1, cut := true }
    else
      { scope with
        count := scope.count + 1
        output := full ++ message.take n
        cut := scope.cut || decide (n ≠ message.length) }
  := by
  rw [accept, separator]
  simp only [Nat.lt_succ_iff, append_eq]
  by_cases hcount : maxMessages ≤ scope.count
  · simp [hcount]
  by_cases hsep : scope.output ≠ [] ∧ message ≠ [] ∧ scope.output.getLast? ≠ some Byte.lineFeed
  · by_cases hfull : scope.output.length = maxBytes
    · simp [hcount, hsep, hfull]
    · simp [hcount, hsep, hfull]
  · simp only [hcount, hsep, if_false]
    have hlt : ¬ (maxBytes < scope.output.length ∧ scope.output.length = maxBytes) := by
      omega
    simp [hlt]

/-! ### When the scope says that it is cut -/

/-- The scope has accepted the messages, and reports exactly whether it holds all of them. -/
structure Reports (scope : ResponseScope) (messages : List Bytes) : Prop where
  count : scope.count = messages.length
  bounded : scope.Bounded
  uncut : scope.cut = false → scope.output = joinMessages messages ∧
    messages.length ≤ maxMessages
  cut : scope.cut = true → maxMessages < messages.length ∨
    maxBytes < (joinMessages messages).length

theorem reports_nil (previous : Option ℕ) (command : ℕ) :
  Reports { previous, command } []
  where
  count := rfl
  bounded := Nat.zero_le _
  uncut _ := ⟨rfl, Nat.zero_le _⟩
  cut h := absurd h Bool.false_ne_true

/-- Within the number of messages, the cut mark says whether the text exceeds its bound. -/
theorem Reports.length_le {scope : ResponseScope} {messages : List Bytes}
    (h : scope.Reports messages) (hcut : scope.cut = false) :
  (joinMessages messages).length ≤ maxBytes
  := by
  rw [← (h.uncut hcut).1]
  apply h.bounded

/-- What exceeded a bound still does with one more message. -/
theorem Reports.cut_concat {scope : ResponseScope} {messages : List Bytes}
    (h : scope.Reports messages) (hcut : scope.cut = true) (message : Bytes) :
  maxMessages < (messages ++ [message]).length ∨
    maxBytes < (joinMessages (messages ++ [message])).length
  := by
  have hgrows := (joinMessages_isPrefix_append messages [message]).length_le
  rw [List.length_append, List.length_singleton]
  obtain hcount | hlength := h.cut hcut
  · left
    omega
  · right
    omega

/-- While nothing is cut, the scope's text is the messages joined. -/
theorem Reports.joinMessages_concat {scope : ResponseScope} {messages : List Bytes}
    (h : scope.Reports messages) (hcut : scope.cut = false) (message : Bytes) :
  joinMessages (messages ++ [message]) =
    scope.output ++ separator scope.output message ++ message
  := by
  rw [OpenScumRcon.joinMessages_concat, (h.uncut hcut).1]

/-- One more message is reported. -/
theorem Reports.accept {scope : ResponseScope} {messages : List Bytes}
    (h : scope.Reports messages) (message : Bytes) :
  (scope.accept message {}).Reports (messages ++ [message])
  := by
  have hbounded := h.bounded.accept message {}
  have hlength : (messages ++ [message]).length = scope.count + 1 := by
    rw [List.length_append, List.length_singleton, h.count]
  rw [accept_eq] at hbounded ⊢
  dsimp only at hbounded ⊢
  split at hbounded
  · next hused =>
      rw [if_pos hused]
      use hlength.symm, hbounded
      · intro hcut
        contradiction
      intro _
      obtain hcount | ⟨hfull, -⟩ := hused
      · left
        omega
      · cases hcut : scope.cut with
        | true => apply h.cut_concat hcut
        | false =>
            right
            rw [h.joinMessages_concat hcut, List.length_append]
            omega
  · next hroom =>
      rw [if_neg hroom]
      rw [not_or] at hroom
      use hlength.symm, hbounded
      · intro hcut
        rw [Bool.or_eq_false_iff, decide_eq_false_iff_not, not_not] at hcut
        rw [h.joinMessages_concat hcut.1, hcut.2, List.take_length]
        use rfl
        omega
      · intro hcut
        rw [Bool.or_eq_true, decide_eq_true_eq] at hcut
        cases hold : scope.cut with
        | true => apply h.cut_concat hold
        | false =>
            right
            have hn := hcut.resolve_left (by rw [hold]; exact Bool.false_ne_true)
            rw [h.joinMessages_concat hold, List.length_append]
            -- a message that fits is not cut
            by_contra hle
            apply hn
            apply utf8PrefixSize_of_length_le
            omega

/-- What a scope reports of all its messages, by induction on them. -/
theorem reports_collect (previous : Option ℕ) (command : ℕ) (messages : List Bytes) :
  (collect { previous, command } messages).Reports messages
  := by
  induction messages using List.reverseRecOn with
  | nil => apply reports_nil
  | append_singleton messages message ih =>
      rw [collect_concat]
      apply ih.accept

/-- The scope keeps only what its messages hold. -/
theorem Reports.length_output_le {scope : ResponseScope} {messages : List Bytes}
    (h : scope.Reports messages) :
  messages.length ≤ maxMessages → scope.output.length ≤ (joinMessages messages).length
  := by
  intro hcount
  cases hcut : scope.cut with
  | true =>
      have hlength := (h.cut hcut).resolve_left (Nat.not_lt.mpr hcount)
      have hbounded := h.bounded
      rw [Bounded] at hbounded
      omega
  | false => rw [(h.uncut hcut).1]

/-- Accepting a valid message keeps the text valid, cut or not. -/
theorem valid_accept {scope : ResponseScope} (h : Valid scope.output) {message : Bytes}
    (hmessage : Valid message) :
  Valid (scope.accept message {}).output
  := by
  rw [accept_eq]
  dsimp only
  split
  · apply h
  · apply Valid.append
    · apply h.append
      apply valid_separator
    · apply (hmessage.split (utf8PrefixSize_isBoundary_of_valid hmessage _)).1

/-- Valid messages are kept as a valid text. -/
theorem valid_collect {scope : ResponseScope} (h : Valid scope.output) {messages : List Bytes}
    (hmessages : ∀ message ∈ messages, Valid message) :
  Valid (scope.collect messages).output
  := by
  induction messages using List.reverseRecOn with
  | nil => apply h
  | append_singleton messages message ih =>
      rw [List.forall_mem_append, List.forall_mem_singleton] at hmessages
      rw [collect_concat]
      apply valid_accept
      · apply ih hmessages.1
      · apply hmessages.2

/-- Truncation is reported exactly: the cut mark says whether there are more messages or more
bytes than the bounds allow, and without it the scope holds the joined messages. -/
theorem collect_truncated_iff (previous : Option ℕ) (command : ℕ) (messages : List Bytes) :
  (collect { previous, command } messages).output.length ≤ 65536 ∧
    ((collect { previous, command } messages).cut = true ↔
      128 < messages.length ∨ 65536 < (joinMessages messages).length) ∧
    ((collect { previous, command } messages).cut = false →
      (collect { previous, command } messages).output = joinMessages messages) ∧
    ((∀ message ∈ messages, Valid message) →
      Valid (collect { previous, command } messages).output)
  := by
  have hreports := reports_collect previous command messages
  use hreports.bounded
  constructor
  · use hreports.cut
    intro hexceeds
    by_contra hcut
    rw [Bool.not_eq_true] at hcut
    have hcount := (hreports.uncut hcut).2
    have hlength := hreports.length_le hcut
    rw [maxMessages] at hcount
    rw [maxBytes] at hlength
    omega
  constructor
  · intro hcut
    apply (hreports.uncut hcut).1
  · apply valid_collect
    apply Valid.nil

theorem collect_truncated_iff_lines :
  Valid (collect { previous := none, command := 1 } [[0x61], [], [0xc3, 0xa9]]).output
  := by
  apply (collect_truncated_iff none 1 [[0x61], [], [0xc3, 0xa9]]).2.2.2
  rw [List.forall_mem_cons, List.forall_mem_cons, List.forall_mem_singleton]
  exact ⟨.char 'a' .nil, .nil, .char 'é' .nil⟩

/-! ### Room in the gap behind a cut -/

/-- The part of a text that a scope keeps. -/
def keptText (text : Bytes) : Bytes :=
  text.take (utf8PrefixSize text maxBytes)

/-- The message is appended behind the cut of a text: the cut leaves a gap, and the message has
text that fits in it. When the kept text does not end in a line feed, one fits in any gap. -/
def FindsRoom (text message : Bytes) : Prop :=
  (keptText text).length < maxBytes ∧ message ≠ [] ∧
    ((keptText text).getLast? = some Byte.lineFeed →
      utf8PrefixSize message (maxBytes - (keptText text).length) ≠ 0)

instance (text message : Bytes) : Decidable (FindsRoom text message) :=
  inferInstanceAs (Decidable (_ ∧ _))

theorem length_keptText (text : Bytes) :
  (keptText text).length = utf8PrefixSize text maxBytes
  := List.length_take_of_le (utf8PrefixSize_le_length text maxBytes)

theorem keptText_of_length_le {text : Bytes} (h : text.length ≤ maxBytes) :
  keptText text = text
  := by
  rw [keptText, utf8PrefixSize_of_length_le h, List.take_length]

/-- What is kept of an addition is what there is room for. -/
theorem keptText_append_of_length_le {text rest : Bytes} (hrest : Valid rest)
    (h : text.length ≤ maxBytes) :
  keptText (text ++ rest) =
    text ++ rest.take (utf8PrefixSize rest (maxBytes - text.length))
  := by
  rw [keptText, utf8PrefixSize_append_of_length_le rest hrest h, List.take_length_add_append]

theorem keptText_append_of_lt_length {text : Bytes} (rest : Bytes)
    (h : maxBytes < text.length) :
  keptText (text ++ rest) = keptText text
  := by
  rw [keptText, utf8PrefixSize_append_of_lt_length rest h, keptText,
    List.take_append_of_le_length (utf8PrefixSize_le_length text maxBytes)]

/-- A valid text over the bound leaves a gap of at most three bytes. -/
theorem maxBytes_le_length_keptText {text : Bytes} (hvalid : Valid text)
    (h : maxBytes < text.length) :
  maxBytes ≤ (keptText text).length + 3
  := by
  rw [length_keptText]
  apply limit_le_utf8PrefixSize hvalid (Nat.le_of_lt h)

/-- A character that fits in the gap is not the one that was cut. -/
theorem not_isPrefix_of_char {text : Bytes} (hvalid : Valid text) (h : maxBytes < text.length)
    (c : Char) (tail rest : Bytes)
    (hc : (keptText text).length + (String.utf8EncodeChar c).length ≤ maxBytes) :
  ¬ keptText text ++ (String.utf8EncodeChar c ++ tail) <+: text ++ rest
  := by
  rintro ⟨more, hmore⟩
  obtain ⟨d, rest', hdrop, hd⟩ := exists_char_of_limit_lt hvalid h
  have htext : text = keptText text ++ (String.utf8EncodeChar d ++ rest') := by
    rw [← hdrop, keptText, List.take_append_drop]
  rw [length_keptText] at hc
  conv_rhs at hmore => rw [htext]
  simp only [List.append_assoc, List.append_cancel_left_eq] at hmore
  rw [encodeChar_append_inj hmore] at hc
  omega

/-! ### When the scope holds a prefix -/

/-- No message finds room behind a cut, as far as messages are counted. -/
def NoRoom (messages : List Bytes) : Prop :=
  ∀ before message after, messages = before ++ message :: after → before.length < maxMessages →
    maxBytes < (joinMessages before).length → ¬ FindsRoom (joinMessages before) message

theorem noRoom_nil :
  NoRoom []
  := by
  intro before message after h
  simp at h

/-- The condition for one more message. -/
theorem noRoom_concat {messages : List Bytes} {message : Bytes} :
  NoRoom (messages ++ [message]) ↔ NoRoom messages ∧
    (messages.length < maxMessages → maxBytes < (joinMessages messages).length →
      ¬ FindsRoom (joinMessages messages) message)
  := by
  constructor
  · intro h
    constructor
    · rintro before message' after rfl
      apply h before message' (after ++ [message])
      rw [List.append_assoc, List.cons_append]
    · apply h messages message []
      rfl
  · rintro ⟨h, hlast⟩ before message' after heq
    obtain rfl | ⟨after, last, rfl⟩ := List.eq_nil_or_concat after
    · obtain ⟨rfl, hmessage⟩ := List.append_inj' heq rfl
      obtain rfl := List.singleton_inj.mp hmessage
      apply hlast
    · rw [List.concat_eq_append, ← List.cons_append, ← List.append_assoc] at heq
      apply h before message' after (List.append_inj_left' heq rfl)

/-- The messages that a scope counts. -/
def counted (messages : List Bytes) : List Bytes :=
  messages.take maxMessages

theorem counted_of_length_le {messages : List Bytes} (h : messages.length ≤ maxMessages) :
  counted messages = messages
  := List.take_of_length_le h

theorem counted_concat_of_le_length {messages : List Bytes} (message : Bytes)
    (h : maxMessages ≤ messages.length) :
  counted (messages ++ [message]) = counted messages
  := List.take_append_of_le_length h

theorem length_concat_le {messages : List Bytes} (message : Bytes)
    (h : messages.length < maxMessages) :
  (messages ++ [message]).length ≤ maxMessages
  := by
  rw [List.length_append]
  apply h

theorem joinMessages_counted_isPrefix (messages : List Bytes) :
  joinMessages (counted messages) <+: joinMessages messages
  := by
  have happend := joinMessages_isPrefix_append (counted messages) (messages.drop maxMessages)
  rw [counted, List.take_append_drop] at happend
  apply happend

/-- While the text fits, the scope keeps what the bound allows of the joined text. -/
theorem output_accept_of_length_le {scope : ResponseScope} (hcount : scope.count < maxMessages)
    (h : scope.output.length ≤ maxBytes) {message : Bytes} (hmessage : Valid message) :
  (scope.accept message {}).output =
    keptText (scope.output ++ separator scope.output message ++ message)
  := by
  rw [accept_eq]
  dsimp only
  by_cases hfull : (scope.output ++ separator scope.output message).length ≤ maxBytes
  · rw [if_neg (by omega), keptText_append_of_length_le hmessage hfull]
  · have hseparator := length_separator_le scope.output message
    have hlength : scope.output.length = maxBytes := by
      rw [List.length_append] at hfull
      omega
    have hvalid : Valid (separator scope.output message ++ message) := by
      apply Valid.append _ hmessage
      apply valid_separator
    rw [if_pos (.inr ⟨Nat.lt_of_not_le hfull, hlength⟩), List.append_assoc,
      keptText_append_of_length_le hvalid h, hlength, Nat.sub_self,
      Nat.le_zero.mp (utf8PrefixSize_le_limit _ 0), List.take_zero, List.append_nil]

theorem separator_eq_nil {text message : Bytes}
    (h : message = [] ∨ text.getLast? = some Byte.lineFeed) :
  separator text message = []
  := by
  rw [separator, if_neg]
  rintro ⟨-, hmessage, hlast⟩
  obtain hnil | hlineFeed := h
  · apply hmessage hnil
  · apply hlast hlineFeed

/-- A message that finds no room behind a cut leaves the scope's text alone. -/
theorem output_accept_of_not_findsRoom {scope : ResponseScope} {text message : Bytes}
    (h : scope.output = keptText text) (hroom : ¬ FindsRoom text message) :
  (scope.accept message {}).output = scope.output
  := by
  rw [accept_eq]
  dsimp only
  split
  · rfl
  next hused =>
  have hbounded : scope.output.length ≤ maxBytes := by
    rw [h, length_keptText]
    apply utf8PrefixSize_le_limit
  suffices hnil : separator scope.output message = [] ∧
      message.take (utf8PrefixSize message (maxBytes - scope.output.length)) = [] by
    rw [hnil.1, List.append_nil, hnil.2, List.append_nil]
  obtain hfull | hgap := Nat.eq_or_lt_of_le hbounded
  · rw [hfull, Nat.sub_self, Nat.le_zero.mp (utf8PrefixSize_le_limit _ 0), List.take_zero]
    rw [List.length_append] at hused
    constructor
    · apply List.eq_nil_of_length_eq_zero
      omega
    · rfl
  · obtain rfl | hmessage := eq_or_ne message []
    · rw [separator_eq_nil (.inl rfl), List.take_nil]
      exact ⟨rfl, rfl⟩
    · rw [h] at hgap ⊢
      -- only a text that ends in a line feed has a gap too small for the message
      obtain ⟨hlineFeed, hzero⟩ : (keptText text).getLast? = some Byte.lineFeed ∧
          utf8PrefixSize message (maxBytes - (keptText text).length) = 0 := by
        by_contra hnot
        apply hroom
        use hgap, hmessage
        intro hlast hzero
        apply hnot
        exact ⟨hlast, hzero⟩
      rw [separator_eq_nil (.inr hlineFeed), hzero, List.take_zero]
      exact ⟨rfl, rfl⟩

/-- A message that finds room behind a cut ends the prefix. -/
theorem not_isPrefix_accept {scope : ResponseScope} {text message : Bytes}
    (hcount : scope.count < maxMessages) (h : scope.output = keptText text)
    (htext : Valid text) (hlength : maxBytes < text.length) (hmessage : Valid message)
    (hroom : FindsRoom text message) (rest : Bytes) :
  ¬ (scope.accept message {}).output <+: text ++ rest
  := by
  obtain ⟨hgap, hne, hfits⟩ := hroom
  rw [accept_eq]
  dsimp only
  rw [if_neg (by rw [h]; omega), h, List.append_assoc]
  by_cases hlast : (keptText text).getLast? = some Byte.lineFeed
  · -- the first character of the message fits in the gap
    rw [separator_eq_nil (.inr hlast), List.nil_append, List.append_nil]
    have hpositive := hfits hlast
    have hle := utf8PrefixSize_le_limit message (maxBytes - (keptText text).length)
    have hlen := utf8PrefixSize_le_length message (maxBytes - (keptText text).length)
    have hcut := utf8PrefixSize_isBoundary_of_valid hmessage
      (maxBytes - (keptText text).length)
    have htaken := List.length_take_of_le hlen
    obtain ⟨c, tail, hc, -⟩ := (hmessage.split hcut).1.exists_char (by
      rw [← List.length_pos_iff, htaken]
      omega)
    rw [hc, List.length_append] at htaken
    rw [hc]
    apply not_isPrefix_of_char htext hlength
    omega
  · -- the line feed is the character
    have hnonempty : keptText text ≠ [] := by
      have hkept := maxBytes_le_length_keptText htext hlength
      rw [← List.length_pos_iff]
      rw [maxBytes] at hkept
      omega
    rw [separator, if_pos ⟨hnonempty, hne, hlast⟩]
    apply not_isPrefix_of_char htext hlength '\n'
    apply hgap

/-- The scope never has more than the messages joined. -/
theorem length_output_collect_le (previous : Option ℕ) (command : ℕ) (messages : List Bytes) :
  (collect { previous, command } messages).output.length ≤ (joinMessages messages).length
  := by
  induction messages using List.reverseRecOn with
  | nil => apply Nat.le_refl
  | append_singleton messages message ih =>
      have hreports := reports_collect previous command messages
      obtain hlt | hle := Nat.lt_or_ge messages.length maxMessages
      · apply (reports_collect previous command (messages ++ [message])).length_output_le
        apply length_concat_le message hlt
      · rw [collect_concat, accept_eq]
        dsimp only
        rw [if_pos (.inl (by rw [hreports.count]; apply hle))]
        apply ih.trans
        apply (joinMessages_isPrefix_append messages [message]).length_le

/-- While no message finds room, the scope holds what the bound allows of the joined text. -/
theorem output_collect_of_noRoom (previous : Option ℕ) (command : ℕ) {messages : List Bytes}
    (hvalid : ∀ message ∈ messages, Valid message) (h : NoRoom messages) :
  (collect { previous, command } messages).output =
    keptText (joinMessages (counted messages))
  := by
  induction messages using List.reverseRecOn with
  | nil => rfl
  | append_singleton messages message ih =>
      rw [List.forall_mem_append, List.forall_mem_singleton] at hvalid
      obtain ⟨h, hlast⟩ := noRoom_concat.mp h
      have houtput := ih hvalid.1 h
      have hreports := reports_collect previous command messages
      rw [collect_concat]
      obtain hlt | hle := Nat.lt_or_ge messages.length maxMessages
      · rw [counted_of_length_le (length_concat_le message hlt)]
        rw [counted_of_length_le (Nat.le_of_lt hlt)] at houtput
        obtain hexceeds | hfits := Nat.lt_or_ge maxBytes (joinMessages messages).length
        · rw [output_accept_of_not_findsRoom houtput (hlast hlt hexceeds), houtput,
            joinMessages_concat, List.append_assoc, keptText_append_of_lt_length _ hexceeds]
        · rw [keptText_of_length_le hfits] at houtput
          rw [output_accept_of_length_le (by rw [hreports.count]; apply hlt)
            (by rw [houtput]; apply hfits) hvalid.2, houtput, joinMessages_concat]
      · rw [counted_concat_of_le_length message hle, ← houtput, accept_eq]
        dsimp only
        rw [if_pos (.inl (by rw [hreports.count]; apply hle))]

/-- When the scope holds a prefix, no message has found room. -/
theorem noRoom_of_isPrefix (previous : Option ℕ) (command : ℕ) {messages : List Bytes}
    (hvalid : ∀ message ∈ messages, Valid message)
    (h : (collect { previous, command } messages).output <+: joinMessages messages) :
  NoRoom messages
  := by
  induction messages using List.reverseRecOn with
  | nil => apply noRoom_nil
  | append_singleton messages message ih =>
      rw [List.forall_mem_append, List.forall_mem_singleton] at hvalid
      rw [collect_concat] at h
      have hbefore : (collect { previous, command } messages).output <+: joinMessages messages := by
        apply List.prefix_of_prefix_length_le
        · apply (collects_accept _ message {}).output.trans h
        · apply joinMessages_isPrefix_append
        · apply length_output_collect_le
      have hnoRoom := ih hvalid.1 hbefore
      apply noRoom_concat.mpr
      use hnoRoom
      intro hlt hexceeds hroom
      have houtput := output_collect_of_noRoom previous command hvalid.1 hnoRoom
      rw [counted_of_length_le (Nat.le_of_lt hlt)] at houtput
      rw [joinMessages_concat, List.append_assoc] at h
      revert h
      apply not_isPrefix_accept _ houtput (valid_joinMessages hvalid.1) hexceeds hvalid.2 hroom
      rw [(reports_collect previous command messages).count]
      apply hlt

/-- Truncation only cuts the end exactly when no message finds room behind a cut. -/
theorem collect_isPrefix_iff (previous : Option ℕ) (command : ℕ) (messages : List Bytes)
    (h : ∀ message ∈ messages, Valid message) :
  (collect { previous, command } messages).output <+: joinMessages messages ↔
    ∀ before message after, messages = before ++ message :: after → before.length < 128 →
      65536 < (joinMessages before).length → ¬ FindsRoom (joinMessages before) message
  := by
  use noRoom_of_isPrefix previous command h
  intro hnoRoom
  rw [output_collect_of_noRoom previous command h hnoRoom]
  apply (List.take_prefix _ _).trans
  apply joinMessages_counted_isPrefix

/-- Two short messages leave no gap. -/
theorem collect_isPrefix_iff_short :
  (collect { previous := none, command := 1 } [[0x61], [0xc3, 0xa9]]).output <+:
    joinMessages [[0x61], [0xc3, 0xa9]]
  := by
  apply (collect_isPrefix_iff none 1 [[0x61], [0xc3, 0xa9]] _).mpr
  · intro before message after heq _ hexceeds
    have hgrows := joinMessages_isPrefix_append before (message :: after)
    have hlength : (joinMessages [[0x61], [0xc3, 0xa9]]).length = 4 := by decide
    rw [heq] at hlength
    have hle := hgrows.length_le
    omega
  · rw [List.forall_mem_cons, List.forall_mem_singleton]
    exact ⟨.char 'a' .nil, .char 'é' .nil⟩

theorem valid_replicate_ascii (n : ℕ) :
  Valid (List.replicate n 0x61)
  := by
  induction n with
  | zero => apply Valid.nil
  | succ n ih => exact .char 'a' ih

/-- After 65535 bytes the two bytes of a character do not fit, and the next message is appended
behind the gap. -/
theorem collect_not_isPrefix :
  (∀ message ∈ [List.replicate 65535 0x61 ++ [0xc3, 0xa9], [0x62]], Valid message) ∧
    ¬ (collect { previous := none, command := 1 }
        [List.replicate 65535 0x61 ++ [0xc3, 0xa9], [0x62]]).output <+:
      joinMessages [List.replicate 65535 0x61 ++ [0xc3, 0xa9], [0x62]]
  := by
  have hrest : Valid [0xc3, 0xa9] := .char 'é' .nil
  have hvalid : ∀ message ∈ [List.replicate 65535 0x61 ++ [0xc3, 0xa9], [0x62]],
      Valid message := by
    rw [List.forall_mem_cons, List.forall_mem_singleton]
    exact ⟨(valid_replicate_ascii 65535).append hrest, .char 'b' .nil⟩
  use hvalid
  intro hprefix
  have hlength : (List.replicate 65535 (0x61 : UInt8)).length = 65535 := List.length_replicate
  have hkept : keptText (List.replicate 65535 0x61 ++ [0xc3, 0xa9]) =
      List.replicate 65535 0x61 := by
    have hgap : utf8PrefixSize [0xc3, 0xa9] (maxBytes - 65535) = 0 := by decide
    rw [keptText_append_of_length_le hrest (by rw [hlength]; decide), hlength, hgap,
      List.take_zero, List.append_nil]
  have hjoin := joinMessages_singleton (List.replicate 65535 0x61 ++ [0xc3, 0xa9])
  apply noRoom_of_isPrefix none 1 hvalid hprefix [List.replicate 65535 0x61 ++ [0xc3, 0xa9]]
    [0x62] [] rfl
  · decide
  · rw [hjoin, List.length_append, hlength]
    decide
  · rw [hjoin, FindsRoom, hkept, hlength]
    use by decide, by decide
    intro hlast
    rw [List.getLast?_replicate, if_neg (by omega)] at hlast
    revert hlast
    decide

end ResponseScope

end OpenScumRcon
