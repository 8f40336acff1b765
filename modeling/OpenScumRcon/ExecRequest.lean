import OpenScumRcon.RequestGrammar

/-!
# Execute requests

The parser accepts exactly the `!exec` requests of the grammar. Quoting the arguments of a
request is undone by the parser, as long as the request and each of its tokens keep the
limits on their sizes.
-/

namespace OpenScumRcon

/-! ### The tokens of a request -/

theorem List.Trimmed.mono {text : Bytes} (h : text.Trimmed isTrimmed) :
  text.Trimmed isBlank
  := by
  have himp : ∀ c : Byte, isTrimmed c = false → isBlank c = false := by
    intro c hc
    rw [Bool.eq_false_iff] at hc ⊢
    intro hblank
    apply hc
    rcases isBlank_iff.mp hblank with rfl | rfl <;> rfl
  constructor
  · intro c hc
    apply himp c (h.1 c hc)
  · intro c hc
    apply himp c (h.2 c hc)

theorem Tokens.exists_cons {text : Bytes} {ds : List Bytes} (h : Tokens text ds) :
  ∃ first others, ds = first :: others
  := by
  cases h with
  | @last u d hu => use d, []
  | @more u d gap rest ds hu hne hgap hrest => use d, ds

/-- The parser works on the tokens of the request. -/
theorem parseDispatchRequest_of_tokenized {text first : Bytes} {others : List Bytes}
    (h : Tokenized text (first :: others)) :
  parseDispatchRequest text = dispatchTokens first others
  := by
  obtain ⟨s, hscanned, hclosed, hall⟩ := h.tokens.scanned (s := {}) rfl rfl rfl h.plain
    h.token_length_le (by simpa using h.tokens_length_le)
  rw [parseDispatchRequest, if_neg (by have := h.length_le; omega), substrTrimmed_eq,
    if_neg h.ne_nil]
  dsimp only
  rw [hscanned.scan_eq]
  dsimp only
  rw [hclosed, if_neg Bool.false_ne_true, hall]
  rfl

/-- A text the parser does not reject is a sequence of tokens, and the first one selects
what the parser returns. -/
theorem exists_tokenized {text : Bytes} (h : (parseDispatchRequest text).action ≠ .invalid) :
  ∃ first others, Tokenized text (first :: others)
  := by
  rw [parseDispatchRequest] at h
  split at h
  · exact absurd rfl h
  next hlength =>
  rw [substrTrimmed_eq] at h
  split at h
  · exact absurd rfl h
  next trimmed htrimmed =>
  split at htrimmed
  · cases htrimmed
  next hne =>
  obtain rfl := Option.some.inj htrimmed
  split at h
  · exact absurd rfl h
  next s hscan =>
  have hscanned := scan_eq_ok_iff.mp hscan
  split at h
  · exact absurd rfl h
  next hclosed =>
  have hclosed : s.quoted = false := by simpa using hclosed
  obtain ⟨ds, hds, hall⟩ := hscanned.tokens hclosed rfl rfl rfl hne
    (List.Trimmed.mono (List.trimmed_trim isTrimmed text))
  have hbounded := hscanned.bounded ⟨⟨Nat.zero_le _, Nat.zero_le _⟩, by simp⟩
  obtain ⟨heach, hcount⟩ := hbounded.allTokens
  rw [List.nil_append] at hall
  rw [hall] at heach hcount
  obtain ⟨first, others, rfl⟩ := hds.exists_cons
  use first, others
  exact ⟨not_lt.mp hlength, hne, hscanned.plain, hds, heach, hcount⟩

/-! ### The grammar of execute requests -/

/-- The text is an `!exec` request of the grammar: the command `verb` with `arguments` for
the player `steamId`. -/
structure ExecRequest (text steamId verb : Bytes) (arguments : List Bytes) : Prop where
  length_le : text.length ≤ 8192
  ne_nil : text.trim isTrimmed ≠ []
  plain : ∀ c ∈ text.trim isTrimmed, Plain c
  tokens : ∃ first third,
    Tokens (text.trim isTrimmed) (first :: steamId :: third :: arguments) ∧
    (∀ d ∈ first :: steamId :: third :: arguments, d.length ≤ 4096) ∧
    eraseHash (lowerAscii first) = ascii "!exec" ∧ eraseHash third = verb
  tokens_length_le : arguments.length + 3 ≤ 67
  steamId_valid : steamId.length = 17 ∧ ∀ c ∈ steamId, isDigit c = true
  verb_ne_nil : verb ≠ []
  verb_word : ∀ c ∈ verb, isWordByte c = true

/-- The `!exec` branch, when it accepts. -/
theorem dispatchExec_of_valid {id third : Bytes} {arguments : List Bytes}
    (hcount : arguments.length + 3 ≤ 67) (hid : steamIdValid id = true)
    (hne : eraseHash third ≠ []) (hword : (eraseHash third).all isWordByte = true) :
  dispatchExec (id :: third :: arguments)
    = { action := .execute, steamId := id, verb := eraseHash third, arguments := arguments }
  := by
  have hguard : (decide (67 < arguments.length + 3) || !steamIdValid id) = false := by
    rw [hid, decide_eq_false (by omega)]
    rfl
  have hverb : ((eraseHash third).isEmpty || !(eraseHash third).all isWordByte) = false := by
    rw [hword, List.isEmpty_eq_false_iff.mpr hne]
    rfl
  simp only [dispatchExec, hguard, hverb, Bool.false_eq_true, if_false]

/-- What `!exec` accepts, and that it refuses the rest. -/
theorem dispatchExec_cases (others : List Bytes) :
  (∃ id third arguments, others = id :: third :: arguments ∧ arguments.length + 3 ≤ 67 ∧
    steamIdValid id = true ∧ eraseHash third ≠ [] ∧ (eraseHash third).all isWordByte = true)
  ∨ (dispatchExec others).action = .invalid
  := by
  rcases others with _ | ⟨id, _ | ⟨third, arguments⟩⟩
  · right
    rfl
  · right
    rfl
  rw [dispatchExec]
  split
  · right
    rfl
  next hguard =>
  dsimp only
  split
  · right
    rfl
  next hverb =>
  left
  use id, third, arguments
  simpa [and_assoc] using And.intro hguard hverb

/-- The first token chooses `!exec`, in any case and with or without a hash. -/
theorem dispatchTokens_of_exec {first : Bytes} (others : List Bytes)
    (hfirst : eraseHash (lowerAscii first) = ascii "!exec") :
  dispatchTokens first others = dispatchExec others
  := by
  unfold dispatchTokens
  rw [hfirst]
  rfl

/-- Only the `!exec` branch executes. -/
theorem eq_exec_of_action_eq_execute {first : Bytes} {others : List Bytes}
    (h : (dispatchTokens first others).action = .execute) :
  eraseHash (lowerAscii first) = ascii "!exec"
  := by
  by_contra hfirst
  unfold dispatchTokens at h
  dsimp only at h
  rw [if_neg hfirst] at h
  split_ifs at h <;> rcases others with _ | ⟨filter, _ | ⟨other, others⟩⟩ <;> cases h

/-- The tokens of a request of the grammar. -/
theorem ExecRequest.tokenized {text steamId verb : Bytes} {arguments : List Bytes}
    (h : ExecRequest text steamId verb arguments) :
  ∃ first third, Tokenized text (first :: steamId :: third :: arguments) ∧
    eraseHash (lowerAscii first) = ascii "!exec" ∧ eraseHash third = verb
  := by
  obtain ⟨first, third, htokens, heach, hfirst, hthird⟩ := h.tokens
  have hcount := h.tokens_length_le
  use first, third
  refine ⟨⟨h.length_le, h.ne_nil, h.plain, htokens, heach, ?_⟩, hfirst, hthird⟩
  simp only [List.length_cons]
  omega

/-- The parser accepts the `!exec` requests of the grammar. -/
theorem ExecRequest.parse_eq {text steamId verb : Bytes} {arguments : List Bytes}
    (h : ExecRequest text steamId verb arguments) :
  parseDispatchRequest text
    = { action := .execute, steamId := steamId, verb := verb, arguments := arguments }
  := by
  obtain ⟨first, third, htokenized, hfirst, rfl⟩ := h.tokenized
  rw [parseDispatchRequest_of_tokenized htokenized, dispatchTokens_of_exec _ hfirst]
  apply dispatchExec_of_valid h.tokens_length_le
  · apply steamIdValid_iff.mpr h.steamId_valid
  · apply h.verb_ne_nil
  · apply List.all_eq_true.mpr h.verb_word

/-- The parser accepts no other execute requests. -/
theorem exists_execRequest {text : Bytes}
    (h : (parseDispatchRequest text).action = .execute) :
  ∃ steamId verb arguments, ExecRequest text steamId verb arguments
  := by
  have hvalid : (parseDispatchRequest text).action ≠ .invalid := by
    rw [h]
    decide
  obtain ⟨first, others, htokenized⟩ := exists_tokenized hvalid
  rw [parseDispatchRequest_of_tokenized htokenized] at h
  have hfirst := eq_exec_of_action_eq_execute h
  rw [dispatchTokens_of_exec _ hfirst] at h
  rcases dispatchExec_cases others with hvalid | hinvalid
  · obtain ⟨id, third, arguments, rfl, hcount, hid, hne, hword⟩ := hvalid
    use id, eraseHash third, arguments
    exact ⟨htokenized.length_le, htokenized.ne_nil, htokenized.plain,
      ⟨first, third, htokenized.tokens, htokenized.token_length_le, hfirst, rfl⟩, hcount,
      steamIdValid_iff.mp hid, hne, List.all_eq_true.mp hword⟩
  · rw [h] at hinvalid
    cases hinvalid

/-- The parser returns an execute request exactly when the text is one in the grammar. -/
theorem parseDispatchRequest_execute_iff (text steamId verb : Bytes) (arguments : List Bytes) :
  ((parseDispatchRequest text).action = .execute ∧
    (parseDispatchRequest text).steamId = steamId ∧
    (parseDispatchRequest text).verb = verb ∧
    (parseDispatchRequest text).arguments = arguments)
  ↔ ExecRequest text steamId verb arguments
  := by
  constructor
  · rintro ⟨haction, rfl, rfl, rfl⟩
    obtain ⟨steamId, verb, arguments, hexec⟩ := exists_execRequest haction
    rw [hexec.parse_eq]
    apply hexec
  · intro h
    rw [h.parse_eq]
    exact ⟨rfl, rfl, rfl, rfl⟩

/-! ### Quoting -/

/-- A backslash is put in front of every byte that needs it. -/
def escape (s : Bytes) : Bytes :=
  s.flatMap (fun c => if isEscapable c then [Byte.backslash, c] else [c])

def quote (s : Bytes) : Bytes :=
  Byte.doubleQuote :: escape s ++ [Byte.doubleQuote]

/-- The request for a command with every argument quoted. -/
def quotedRequest (id verb : Bytes) (arguments : List Bytes) : Bytes :=
  ascii "!exec " ++ id ++ [Byte.space] ++ verb
    ++ arguments.flatMap (fun argument => Byte.space :: quote argument)

theorem quotedText_escape (s : Bytes) :
  QuotedText (escape s) s
  := by
  induction s with
  | nil => apply QuotedText.nil
  | cons c s ih =>
      rw [escape, List.flatMap_cons]
      split
      · next hc => apply QuotedText.escape hc ih
      · next hc =>
          rw [isEscapable_iff, not_or] at hc
          apply QuotedText.byte hc.1
          · intro hbackslash
            exact absurd hbackslash hc.2
          · apply ih

theorem token_quote (s : Bytes) :
  Token (quote s) s
  := by
  constructor
  · apply List.cons_ne_nil
  · have hsegments := Segments.quoted (quotedText_escape s) Segments.nil
    rw [List.append_nil] at hsegments
    apply hsegments

/-- Bare bytes denote themselves. -/
theorem segments_bare {u : Bytes} (h : ∀ c ∈ u, c ≠ Byte.doubleQuote ∧ isBlank c = false) :
  Segments u u
  := by
  induction u with
  | nil => apply Segments.nil
  | cons c u ih =>
      rw [List.forall_mem_cons] at h
      apply Segments.bare h.1.1 h.1.2 (ih h.2)

/-- Quoted arguments with a space in front of each are one token each. -/
theorem tokens_arguments {u d : Bytes} (hu : Token u d) (arguments : List Bytes) :
  Tokens (u ++ arguments.flatMap (fun argument => Byte.space :: quote argument)) (d :: arguments)
  := by
  induction arguments generalizing u d with
  | nil =>
      rw [List.flatMap_nil, List.append_nil]
      apply Tokens.last hu
  | cons argument arguments ih =>
      have hmore := Tokens.more hu (List.cons_ne_nil Byte.space [])
        (forall_mem_of_all (by decide)) (ih (token_quote argument))
      rw [List.flatMap_cons]
      simpa using hmore

theorem isWordByte_of_isDigit {c : Byte} (h : isDigit c = true) :
  isWordByte c = true
  := by
  rw [isDigit] at h
  simp [isWordByte, h]

theorem digitZero_le_of_isWordByte {c : Byte} (h : isWordByte c = true) :
  Byte.digitZero ≤ c ∧ c ≤ Byte.lowerZ
  := by
  simp only [isWordByte, Bool.or_eq_true, Bool.and_eq_true, decide_eq_true_iff, beq_iff_eq] at h
  rcases h with ((⟨hle, hge⟩ | ⟨hle, hge⟩) | ⟨hle, hge⟩) | rfl
  · exact ⟨UInt8.le_trans (by decide : Byte.digitZero ≤ Byte.lowerA) hle, hge⟩
  · exact ⟨UInt8.le_trans (by decide : Byte.digitZero ≤ Byte.upperA) hle,
      UInt8.le_trans hge (by decide : Byte.upperZ ≤ Byte.lowerZ)⟩
  · exact ⟨hle, UInt8.le_trans hge (by decide : Byte.digitNine ≤ Byte.lowerZ)⟩
  · decide

/-- A letter, a digit or the underscore stands in a bare token. -/
theorem bare_of_isWordByte {c : Byte} (h : isWordByte c = true) :
  c ≠ Byte.doubleQuote ∧ isBlank c = false
  := by
  constructor
  · rintro rfl
    cases h
  · rw [Bool.eq_false_iff]
    intro hblank
    rcases isBlank_iff.mp hblank with rfl | rfl <;> cases h

theorem plain_of_isWordByte {c : Byte} (h : isWordByte c = true) :
  Plain c
  := by
  obtain ⟨hle, hge⟩ := digitZero_le_of_isWordByte h
  constructor
  · intro hlt
    exact absurd hlt (UInt8.not_lt.mpr (UInt8.le_trans (by decide : 32 ≤ Byte.digitZero) hle))
  · rintro rfl
    exact absurd hge (by decide)

theorem isTrimmed_of_isWordByte {c : Byte} (h : isWordByte c = true) :
  isTrimmed c = false
  := by
  have hle := (digitZero_le_of_isWordByte h).1
  rw [Bool.eq_false_iff]
  intro htrimmed
  simp only [isTrimmed, trimmedSet, List.mem_cons, List.not_mem_nil, or_false,
    decide_eq_true_iff] at htrimmed
  rcases htrimmed with rfl | rfl | rfl | rfl <;> exact absurd hle (by decide)

theorem eraseHash_of_isWordByte {verb : Bytes} (h : ∀ c ∈ verb, isWordByte c = true) :
  eraseHash verb = verb
  := by
  cases verb with
  | nil => rfl
  | cons c verb =>
      rw [eraseHash, if_neg]
      rintro rfl
      exact absurd (h Byte.hash List.mem_cons_self) (by decide)

theorem plain_escape {s : Bytes} (h : ∀ c ∈ s, Plain c) :
  ∀ c ∈ escape s, Plain c
  := by
  intro c hc
  rw [escape, List.mem_flatMap] at hc
  obtain ⟨b, hb, hc⟩ := hc
  split at hc
  · rcases List.mem_cons.mp hc with rfl | hc
    · decide
    · rw [List.mem_singleton.mp hc]
      apply h b hb
  · rw [List.mem_singleton.mp hc]
    apply h b hb

/-- A rendered request has no control byte. -/
theorem plain_quotedRequest {id verb : Bytes} {arguments : List Bytes}
    (hid : ∀ c ∈ id, isDigit c = true) (hverb : ∀ c ∈ verb, isWordByte c = true)
    (harguments : ∀ argument ∈ arguments, ∀ c ∈ argument, Plain c) :
  ∀ c ∈ quotedRequest id verb arguments, Plain c
  := by
  have hexec : ∀ c ∈ ascii "!exec ", Plain c := forall_mem_of_all (by decide)
  have hspace : Plain Byte.space := by decide
  have hquote : Plain Byte.doubleQuote := by decide
  simp only [quotedRequest, quote, List.forall_mem_append, List.forall_mem_singleton]
  refine ⟨⟨⟨⟨hexec, ?_⟩, hspace⟩, ?_⟩, ?_⟩
  · intro c hc
    apply plain_of_isWordByte (isWordByte_of_isDigit (hid c hc))
  · intro c hc
    apply plain_of_isWordByte (hverb c hc)
  · intro c hc
    obtain ⟨argument, hargument, hc⟩ := List.mem_flatMap.mp hc
    have hescape := plain_escape (harguments argument hargument)
    simp only [List.cons_append, List.mem_cons, List.mem_append, List.not_mem_nil,
      or_false] at hc
    rcases hc with rfl | rfl | hc | rfl
    · apply hspace
    · apply hquote
    · apply hescape c hc
    · apply hquote

/-- Nothing is trimmed off a quoted request. -/
theorem trim_quotedRequest (id : Bytes) {verb : Bytes} (arguments : List Bytes)
    (hne : verb ≠ []) (hverb : ∀ c ∈ verb, isWordByte c = true) :
  (quotedRequest id verb arguments).trim isTrimmed = quotedRequest id verb arguments
  := by
  have htrimmed : (quotedRequest id verb arguments).Trimmed isTrimmed := by
    constructor
    · intro c hc
      obtain rfl := Option.some.inj hc
      decide
    · intro c hc
      rw [quotedRequest] at hc
      rcases List.eq_nil_or_concat arguments with rfl | ⟨arguments, last, rfl⟩
      · rw [List.flatMap_nil, List.append_nil, List.getLast?_append_of_ne_nil _ hne] at hc
        apply isTrimmed_of_isWordByte (hverb c (List.mem_of_getLast? hc))
      · rw [List.concat_eq_append, List.flatMap_append, List.flatMap_singleton, quote,
          ← List.append_assoc,
          ← List.cons_append, ← List.append_assoc, List.getLast?_concat] at hc
        obtain rfl := Option.some.inj hc
        decide
  have hcons : quotedRequest id verb arguments ≠ [] := by
    apply List.append_ne_nil_of_left_ne_nil
    apply List.append_ne_nil_of_right_ne_nil _ hne
  have htrim : ([] ++ quotedRequest id verb arguments ++ []).trim isTrimmed
      = quotedRequest id verb arguments := by
    apply List.trim_append isTrimmed htrimmed hcons
    · simp
    · simp
  rw [List.nil_append, List.append_nil] at htrim
  apply htrim

/-- A quoted request within the limits is in the grammar. -/
theorem execRequest_quotedRequest {id verb : Bytes} {arguments : List Bytes}
    (hid : steamIdValid id = true) (hne : verb ≠ []) (hverb : ∀ c ∈ verb, isWordByte c = true)
    (hverblength : verb.length ≤ 4096) (hcount : arguments.length ≤ 64)
    (harguments : ∀ argument ∈ arguments, argument.length ≤ 4096 ∧ ∀ c ∈ argument, Plain c)
    (hlength : (quotedRequest id verb arguments).length ≤ 8192) :
  ExecRequest (quotedRequest id verb arguments) id verb arguments
  := by
  have hid := steamIdValid_iff.mp hid
  have htrim := trim_quotedRequest id arguments hne hverb
  have hidword : ∀ c ∈ id, isWordByte c = true := fun c hc => isWordByte_of_isDigit (hid.2 c hc)
  have hidtoken : Token id id := by
    constructor
    · rintro rfl
      cases hid.1
    · apply segments_bare (fun c hc => bare_of_isWordByte (hidword c hc))
  have hverbtoken : Token verb verb :=
    ⟨hne, segments_bare (fun c hc => bare_of_isWordByte (hverb c hc))⟩
  have hexectoken : Token (ascii "!exec") (ascii "!exec") :=
    ⟨by decide, segments_bare (forall_mem_of_all (by decide))⟩
  have htokens : Tokens (quotedRequest id verb arguments)
      (ascii "!exec" :: id :: verb :: arguments) := by
    have hspace : ∀ c ∈ [Byte.space], isBlank c = true := forall_mem_of_all (by decide)
    have hverbs := Tokens.more hidtoken (List.cons_ne_nil Byte.space []) hspace
      (tokens_arguments hverbtoken arguments)
    have hexecs := Tokens.more hexectoken (List.cons_ne_nil Byte.space []) hspace hverbs
    have happend : quotedRequest id verb arguments
        = ascii "!exec" ++ [Byte.space] ++ (id ++ [Byte.space] ++ (verb ++
          arguments.flatMap (fun argument => Byte.space :: quote argument))) := by
      have hsplit : ascii "!exec " = ascii "!exec" ++ [Byte.space] := by decide
      simp only [quotedRequest, hsplit, List.append_assoc]
    rw [happend]
    apply hexecs
  constructor
  · apply hlength
  · rw [htrim]
    apply List.append_ne_nil_of_left_ne_nil
    apply List.append_ne_nil_of_right_ne_nil _ hne
  · rw [htrim]
    apply plain_quotedRequest hid.2 hverb (fun argument h => (harguments argument h).2)
  · use ascii "!exec", verb
    rw [htrim]
    refine ⟨htokens, ?_, by decide, eraseHash_of_isWordByte hverb⟩
    rw [List.forall_mem_cons, List.forall_mem_cons, List.forall_mem_cons]
    refine ⟨by decide, ?_, hverblength, fun argument h => (harguments argument h).1⟩
    rw [hid.1]
    decide
  · omega
  · apply hid
  · apply hne
  · exact hverb

/-! ### Quoting what has been parsed -/

/-- Unescaping adds no byte. -/
theorem QuotedText.mem {q d : Bytes} (h : QuotedText q d) :
  ∀ c ∈ d, c ∈ q
  := by
  induction h with
  | nil => simp
  | escape _ _ ih =>
      intro c hc
      rcases List.mem_cons.mp hc with rfl | hc
      · simp
      · simp [ih c hc]
  | byte _ _ _ ih =>
      intro c hc
      rcases List.mem_cons.mp hc with rfl | hc
      · simp
      · simp [ih c hc]

theorem Segments.mem {u d : Bytes} (h : Segments u d) :
  ∀ c ∈ d, c ∈ u
  := by
  induction h with
  | nil => simp
  | bare _ _ _ ih =>
      intro c hc
      rcases List.mem_cons.mp hc with rfl | hc
      · simp
      · simp [ih c hc]
  | quoted hq _ ih =>
      intro c hc
      rcases List.mem_append.mp hc with hc | hc
      · simp [hq.mem c hc]
      · simp [ih c hc]

/-- A token denotes bytes of the text. -/
theorem Tokens.mem {text : Bytes} {ds : List Bytes} (h : Tokens text ds) :
  ∀ d ∈ ds, ∀ c ∈ d, c ∈ text
  := by
  induction h with
  | last hu =>
      rw [List.forall_mem_singleton]
      exact hu.segments.mem
  | more hu _ _ _ ih =>
      rw [List.forall_mem_cons]
      constructor
      · intro c hc
        simp [hu.segments.mem c hc]
      · intro d hd c hc
        simp [ih d hd c hc]

theorem length_eraseHash_le (verb : Bytes) :
  (eraseHash verb).length ≤ verb.length
  := by
  cases verb with
  | nil => rfl
  | cons c verb =>
      rw [eraseHash]
      split
      · apply Nat.le_succ
      · apply Nat.le_refl

/-- The fields of an accepted request keep the conditions under which it can be quoted. -/
theorem ExecRequest.requoted {text steamId verb : Bytes} {arguments : List Bytes}
    (h : ExecRequest text steamId verb arguments)
    (hlength : (quotedRequest steamId verb arguments).length ≤ 8192) :
  ExecRequest (quotedRequest steamId verb arguments) steamId verb arguments
  := by
  obtain ⟨first, third, htokens, heach, -, hthird⟩ := h.tokens
  have hcount := h.tokens_length_le
  apply execRequest_quotedRequest (steamIdValid_iff.mpr h.steamId_valid) h.verb_ne_nil h.verb_word
    _ (by omega) _ hlength
  · rw [← hthird]
    apply Nat.le_trans (length_eraseHash_le third)
    apply heach
    simp
  · intro argument hargument
    have hmem : argument ∈ first :: steamId :: third :: arguments := by simp [hargument]
    constructor
    · apply heach argument hmem
    · intro c hc
      apply h.plain c (htokens.mem argument hmem c hc)

/-- Quoting is undone by the parser: for the fields of a request that keep the limits, and so
for those of every request it has accepted. -/
theorem quotedRequest_roundtrip :
  (∀ (id verb : Bytes) (arguments : List Bytes),
    steamIdValid id = true → verb ≠ [] → (∀ c ∈ verb, isWordByte c = true) →
    verb.length ≤ 4096 → arguments.length ≤ 64 →
    (∀ argument ∈ arguments, argument.length ≤ 4096 ∧ ∀ c ∈ argument, Plain c) →
    (quotedRequest id verb arguments).length ≤ 8192 →
    parseDispatchRequest (quotedRequest id verb arguments)
      = { action := .execute, steamId := id, verb := verb, arguments := arguments })
  ∧ (∀ (text : Bytes) (r : DispatchRequest), parseDispatchRequest text = r →
    r.action = .execute → (quotedRequest r.steamId r.verb r.arguments).length ≤ 8192 →
    parseDispatchRequest (quotedRequest r.steamId r.verb r.arguments) = r)
  := by
  constructor
  · intro id verb arguments hid hne hverb hverblength hcount harguments hlength
    have hexec := execRequest_quotedRequest hid hne hverb hverblength hcount harguments hlength
    exact hexec.parse_eq
  · rintro text r rfl haction hlength
    obtain ⟨steamId, verb, arguments, hexec⟩ := exists_execRequest haction
    rw [hexec.parse_eq] at hlength ⊢
    apply (hexec.requoted hlength).parse_eq

/-- Arguments with blanks, a quote, a backslash, and an empty one. -/
theorem quotedRequest_roundtrip_backslash :
  (quotedRequest (ascii "76561198000000001") (ascii "Announce")
      [ascii " a\"b\\", [], ascii "c"]).length ≤ 8192 ∧
  parseDispatchRequest (quotedRequest (ascii "76561198000000001") (ascii "Announce")
      [ascii " a\"b\\", [], ascii "c"])
    = { action := .execute, steamId := ascii "76561198000000001", verb := ascii "Announce"
        arguments := [ascii " a\"b\\", [], ascii "c"] }
  := by
  constructor
  · decide
  · apply quotedRequest_roundtrip.1
    · decide
    · decide
    · exact forall_mem_of_all (by decide)
    · decide
    · decide
    · rw [List.forall_mem_cons, List.forall_mem_cons, List.forall_mem_singleton]
      refine ⟨⟨by decide, ?_⟩, ⟨by decide, ?_⟩, by decide, ?_⟩ <;>
        exact forall_mem_of_all (by decide)
    · decide

/-- A verb longer than a token may be is rejected, whatever the size of the request. -/
theorem quotedRequest_long_verb :
  steamIdValid (ascii "76561198000000001") = true ∧ List.replicate 4097 Byte.lowerA ≠ [] ∧
  (∀ c ∈ List.replicate 4097 Byte.lowerA, isWordByte c = true) ∧
  (quotedRequest (ascii "76561198000000001") (List.replicate 4097 Byte.lowerA) []).length ≤ 8192 ∧
  parseDispatchRequest
      (quotedRequest (ascii "76561198000000001") (List.replicate 4097 Byte.lowerA) [])
    ≠ { action := .execute, steamId := ascii "76561198000000001"
        verb := List.replicate 4097 Byte.lowerA }
  := by
  refine ⟨by decide, List.cons_ne_nil _ _, ?_, ?_, ?_⟩
  · intro c hc
    rw [List.eq_of_mem_replicate hc]
    decide
  · simp only [quotedRequest, List.length_append, List.length_replicate, List.flatMap_nil]
    decide
  · intro h
    obtain ⟨steamId, verb, arguments, hexec⟩ := exists_execRequest (by rw [h])
    have hverb : verb = List.replicate 4097 Byte.lowerA :=
      congrArg DispatchRequest.verb (hexec.parse_eq.symm.trans h)
    obtain ⟨first, third, -, heach, -, hthird⟩ := hexec.tokens
    have hlong := heach third (by simp)
    have hle := length_eraseHash_le third
    rw [hthird, hverb, List.length_replicate] at hle
    omega

end OpenScumRcon
