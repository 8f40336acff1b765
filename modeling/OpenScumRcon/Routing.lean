import OpenScumRcon.AdminDispatch

/-!
# Routing

The two parsers cut a text differently, but they agree on the first word of every text the
generic parser cuts into tokens and whose first word is a verb of the GodMode route. The
generic parser has no action for such a text, so no text has an action on both routes.
-/

namespace OpenScumRcon

/-! ### Verbs -/

theorem lowerAscii_eq_hash_iff {c : Byte} :
  (if Byte.upperA ≤ c ∧ c ≤ Byte.upperZ then c + (Byte.lowerA - Byte.upperA) else c) = Byte.hash
    ↔ c = Byte.hash
  := by
  split
  · next hupper =>
      simp only [UInt8.le_iff_toNat_le, ← UInt8.toNat_inj, UInt8.toNat_add, UInt8.toNat_sub,
        Byte.upperA, Byte.upperZ, Byte.lowerA, Byte.hash, UInt8.reduceToNat] at hupper ⊢
      omega
  · rfl

/-- The two parsers normalize a verb in different orders. -/
theorem eraseHash_lowerAscii (verb : Bytes) :
  eraseHash (lowerAscii verb) = Godmode.asciiLower (eraseHash verb)
  := by
  cases verb with
  | nil => rfl
  | cons c verb =>
      by_cases hc : c = Byte.hash
      · rw [lowerAscii, List.map_cons, eraseHash, if_pos (lowerAscii_eq_hash_iff.mpr hc),
          eraseHash, if_pos hc]
        rfl
      · rw [lowerAscii, List.map_cons, eraseHash, if_neg (mt lowerAscii_eq_hash_iff.mp hc),
          eraseHash, if_neg hc]
        rfl

/-- There is no quote in a verb of the GodMode route. -/
theorem Godmode.IsVerb.ne_doubleQuote {word : Bytes} (h : Godmode.IsVerb word) :
  ∀ c ∈ word, c ≠ Byte.doubleQuote
  := by
  rintro c hc rfl
  have herase : Byte.doubleQuote ∈ eraseHash word := by
    cases word with
    | nil => cases hc
    | cons c word =>
        rw [eraseHash]
        split
        · next hhash =>
            rcases List.mem_cons.mp hc with rfl | hc
            · cases hhash
            · apply hc
        · apply hc
  have hlower : Byte.doubleQuote ∈ Godmode.asciiLower (eraseHash word) := by
    rw [Godmode.asciiLower, lowerAscii, List.mem_map]
    use Byte.doubleQuote, herase
    decide
  rw [Godmode.IsVerb, List.mem_cons, List.mem_cons, List.mem_singleton] at h
  rcases h with h | h | h
  all_goals
    rw [h] at hlower
    revert hlower
    decide

/-- The generic route has no action for a verb of the GodMode route. -/
theorem dispatchTokens_of_isVerb {first : Bytes} (others : List Bytes)
    (h : Godmode.IsVerb first) :
  (dispatchTokens first others).action = .unknown
  := by
  rw [Godmode.IsVerb, ← eraseHash_lowerAscii, List.mem_cons, List.mem_cons,
    List.mem_singleton] at h
  unfold dispatchTokens
  rcases h with h | h | h
  all_goals
    rw [h]
    rfl

/-! ### The first word and the first token -/

/-- A run of bare bytes up to a blank byte is the token it begins with. -/
theorem Segments.eq_of_bare {u d : Bytes} (h : Segments u d) {word tail rest : Bytes}
    (hword : ∀ c ∈ word, c ≠ Byte.doubleQuote ∧ isBlank c = false)
    (heq : u ++ tail = word ++ rest) (htail : ∀ c ∈ tail.head?, isBlank c = true)
    (hrest : ∀ c ∈ rest.head?, isBlank c = true) :
  d = word
  := by
  induction h generalizing word with
  | nil =>
      cases word with
      | nil => rfl
      | cons c word =>
          have hblank := htail c (by rw [List.nil_append] at heq; rw [heq]; rfl)
          rw [(hword c List.mem_cons_self).2] at hblank
          cases hblank
  | @bare c u d hquote hblank hu ih =>
      cases word with
      | nil =>
          have hfalse := hrest c (by rw [List.nil_append] at heq; rw [← heq]; rfl)
          rw [hblank] at hfalse
          cases hfalse
      | cons b word =>
          rw [List.cons_append, List.cons_append, List.cons.injEq] at heq
          rw [List.forall_mem_cons] at hword
          rw [heq.1, ih hword.2 heq.2]
  | quoted hq hu ih =>
      cases word with
      | nil =>
          have hfalse := hrest Byte.doubleQuote (by rw [List.nil_append] at heq; rw [← heq]; rfl)
          cases hfalse
      | cons b word =>
          rw [List.cons_append, List.cons_append, List.cons_append, List.cons.injEq] at heq
          exact absurd heq.1.symm (hword b List.mem_cons_self).1

theorem Tokens.head {text d : Bytes} {ds : List Bytes} (h : Tokens text (d :: ds)) :
  ∃ u tail, text = u ++ tail ∧ Token u d ∧ ∀ c ∈ tail.head?, isBlank c = true
  := by
  cases h with
  | last hu =>
      use text, []
      exact ⟨(List.append_nil text).symm, hu, by simp⟩
  | @more u _ gap rest _ hu hne hgap hrest =>
      use u, gap ++ rest
      use List.append_assoc u gap rest, hu
      obtain ⟨b, gap, rfl⟩ := List.exists_cons_of_ne_nil hne
      intro c hc
      obtain rfl := Option.some.inj hc
      apply hgap b List.mem_cons_self

theorem Godmode.isSpace_of_isTrimmed {c : Byte} (h : isTrimmed c = true) :
  Godmode.isSpace c = true
  := by
  simp only [isTrimmed, trimmedSet, List.mem_cons, List.not_mem_nil, or_false,
    decide_eq_true_iff] at h
  rcases h with rfl | rfl | rfl | rfl <;> rfl

/-- Among the bytes that may stand in a request, white space is what separates tokens. -/
theorem Plain.isSpace_eq {c : Byte} (h : Plain c) :
  Godmode.isSpace c = isBlank c
  := by
  by_cases hlt : c < 32
  · rw [h.control hlt]
    rfl
  · have hcontrol : decide (c ≤ Byte.carriageReturn) = false := by
      rw [decide_eq_false_iff_not]
      intro hle
      apply hlt
      apply UInt8.lt_of_le_of_lt hle
      decide
    have htab : (c == Byte.tab) = false := by
      rw [beq_eq_false_iff_ne]
      rintro rfl
      apply hlt
      decide
    rw [Godmode.isSpace, isBlank, hcontrol, htab, Bool.and_false, Bool.false_or, Bool.or_false]

/-- The first word of a text the generic parser cuts into tokens ends at the first blank byte
of the trimmed text. -/
theorem Tokenized.firstWord {text : Bytes} {ds : List Bytes} (h : Tokenized text ds) :
  ∃ rest, text.trim isTrimmed = Godmode.firstWord text ++ rest ∧
    (∀ c ∈ Godmode.firstWord text, isBlank c = false) ∧ (∀ c ∈ rest.head?, isBlank c = true)
  := by
  obtain ⟨front, back, htext, hfront, hback⟩ := List.exists_trim isTrimmed text
  have hplain := h.plain
  have hne := h.ne_nil
  have htrimmed := List.Trimmed.mono (List.trimmed_trim isTrimmed text)
  generalize text.trim isTrimmed = inner at *
  obtain ⟨word, rest, hinner, hwordne, hword, hrest⟩ := List.exists_word isBlank hne htrimmed.1
  have hspace : ∀ c ∈ word, Godmode.isSpace c = false := by
    intro c hc
    rw [(hplain c (by rw [hinner]; simp [hc])).isSpace_eq, hword c hc]
  have hstop : ∀ c ∈ (rest ++ back).head?, Godmode.isSpace c = true := by
    intro c hc
    rw [List.head?_append, Option.mem_def, Option.or_eq_some_iff] at hc
    rcases hc with hc | ⟨-, hc⟩
    · rw [(hplain c (by rw [hinner]; simp [List.mem_of_head? hc])).isSpace_eq, hrest c hc]
    · apply Godmode.isSpace_of_isTrimmed (hback c (List.mem_of_head? hc))
  have hfirst : Godmode.firstWord text = word := by
    rw [Godmode.firstWord, htext, hinner, List.append_assoc, List.append_assoc,
      List.words_append_of_blank _ (fun c hc => Godmode.isSpace_of_isTrimmed (hfront c hc)),
      List.words_append_of_not_blank _ hwordne hspace hstop]
    rfl
  use rest
  rw [hfirst]
  exact ⟨hinner, hword, hrest⟩

/-- Where the GodMode route has a verb, the generic parser has no action. -/
theorem parseDispatchRequest_of_isVerb {text : Bytes}
    (h : Godmode.IsVerb (Godmode.firstWord text)) :
  (parseDispatchRequest text).action = .unknown ∨ (parseDispatchRequest text).action = .invalid
  := by
  by_cases hinvalid : (parseDispatchRequest text).action = .invalid
  · right
    apply hinvalid
  left
  obtain ⟨first, others, htokenized⟩ := exists_tokenized hinvalid
  obtain ⟨rest, htrim, hblank, hrest⟩ := htokenized.firstWord
  obtain ⟨u, tail, hsplit, hu, htail⟩ := htokenized.tokens.head
  have hfirst : first = Godmode.firstWord text := by
    have hbare : ∀ c ∈ Godmode.firstWord text, c ≠ Byte.doubleQuote ∧ isBlank c = false :=
      fun c hc => ⟨h.ne_doubleQuote c hc, hblank c hc⟩
    apply hu.segments.eq_of_bare hbare _ htail hrest
    rw [← hsplit, htrim]
  rw [parseDispatchRequest_of_tokenized htokenized]
  apply dispatchTokens_of_isVerb
  rw [hfirst]
  apply h

/-! ### The order of the routes -/

variable {σ : Type}

/-- `dispatchCommand` with the routes in the other order: the generic route goes first and
takes the texts its parser has an action for. -/
def dispatchCommandSwapped (routes : Routes σ) (d : AdminDispatch) (text : Bytes)
    (authority : CommandAuthority) : GameM σ Bytes := do
  if !isRconAuthorized authority then pure authorityRequired
  else if !d.initialized then pure notInitialized
  else if (parseDispatchRequest text).action.Acts then Registry.dispatch routes text authority
  else
    match ← Godmode.dispatch routes text authority with
    | some reply => pure reply
    | none => Registry.dispatch routes text authority

/-- The GodMode route declines every text the generic parser has an action for. -/
theorem unrelated_of_acts {text : Bytes} (h : (parseDispatchRequest text).action.Acts) :
  (Godmode.parse text).action = .unrelated
  := by
  rw [Godmode.parse_unrelated_iff]
  intro hverb
  apply DispatchAction.not_acts_iff.mpr (parseDispatchRequest_of_isVerb hverb) h

/-- The order of the routes is not observable. -/
theorem dispatchCommandSwapped_eq (routes : Routes σ) (d : AdminDispatch) (text : Bytes)
    (authority : CommandAuthority) :
  dispatchCommandSwapped routes d text authority = dispatchCommand routes d text authority
  := by
  rw [dispatchCommandSwapped, dispatchCommand]
  split
  · rfl
  split
  · rfl
  split
  · next hacts =>
      rw [Godmode.dispatch_of_unrelated routes authority (unrelated_of_acts hacts), pure_bind]
  · rfl

/-- A malformed GodMode request is rejected on both routes. -/
theorem rejected_of_invalid {text : Bytes} (h : (Godmode.parse text).action = .invalid) :
  Rejected text
  := by
  apply rejected_of_not_acts
  · rw [h]
    decide
  · rw [DispatchAction.not_acts_iff]
    apply parseDispatchRequest_of_isVerb
    by_contra hverb
    rw [← Godmode.parse_unrelated_iff, h] at hverb
    cases hverb

/-- The two parsers claim disjoint inputs. -/
theorem routes_disjoint (text : Bytes) :
  (Godmode.IsVerb (Godmode.firstWord text) → (Godmode.parse text).action ≠ .unrelated ∧
    ((parseDispatchRequest text).action = .unknown ∨
      (parseDispatchRequest text).action = .invalid))
  ∧ (¬ Godmode.IsVerb (Godmode.firstWord text) → (Godmode.parse text).action = .unrelated)
  ∧ ((parseDispatchRequest text).action.Acts → (Godmode.parse text).action = .unrelated)
  ∧ ((Godmode.parse text).action = .invalid → Rejected text)
  ∧ (∀ (σ : Type) (routes : Routes σ) (d : AdminDispatch) (authority : CommandAuthority),
    dispatchCommandSwapped routes d text authority = dispatchCommand routes d text authority)
  := by
  refine ⟨?_, ?_, unrelated_of_acts, rejected_of_invalid, ?_⟩
  · intro hverb
    constructor
    · intro hunrelated
      rw [Godmode.parse_unrelated_iff] at hunrelated
      apply hunrelated hverb
    · apply parseDispatchRequest_of_isVerb hverb
  · intro hverb
    rw [Godmode.parse_unrelated_iff]
    apply hverb
  · intro σ routes d authority
    apply dispatchCommandSwapped_eq

end OpenScumRcon
