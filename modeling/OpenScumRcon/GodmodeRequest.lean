import OpenScumRcon.Strings

/-!
# GodMode requests

The parser of the GodMode route reads words from a stream, so a request is to it the list of
its words between white space. `WellFormed` lists the word sequences the route acts on, and
the parser acts on exactly those.
-/

namespace OpenScumRcon.Godmode

inductive Action where
  | unrelated
  | invalid
  | state
  | prepare
  | execute
  deriving DecidableEq

structure Request where
  action : Action := .unrelated
  steamId : Bytes := []
  enabled : Bool := false
  deriving DecidableEq

/-- White space of the classic locale. -/
def isSpace (c : Byte) : Bool :=
  (Byte.tab ≤ c && c ≤ Byte.carriageReturn) || c == Byte.space

def asciiLower (value : Bytes) : Bytes :=
  lowerAscii value

/-- A string extracted from a stream, and the rest of the stream. The string is empty when
the extraction fails. -/
def extract (input : Bytes) : Bytes × Bytes :=
  let input := input.dropWhile isSpace
  (input.takeWhile (fun c => !isSpace c), input.dropWhile (fun c => !isSpace c))

/-- The last part of the parser: the id of the player, and nothing behind it. -/
def parseTarget (result : Request) (input : Bytes) : Request :=
  let (steamId, input) := extract input
  let (extra, _) := extract input
  if steamId.length ≠ 17 ∨ steamId.all isDigit = false ∨ extra ≠ [] then
    { result with steamId := steamId, action := .invalid }
  else { result with steamId := steamId }

def parse (text : Bytes) : Request :=
  let (verb, input) := extract text
  let verb := asciiLower (eraseHash verb)
  if verb = ascii "setgodmode" then
    let (value, input) := extract input
    let value := asciiLower value
    parseTarget
      { action := if value ≠ ascii "true" ∧ value ≠ ascii "false" then .invalid else .execute
        enabled := value = ascii "true" }
      input
  else if verb = ascii "!godmode_state" then parseTarget { action := .state } input
  else if verb = ascii "!godmode_prepare" then parseTarget { action := .prepare } input
  else {}

/-! ### The words of a text -/

/-- Extraction reads off the first word. -/
theorem words_eq (text : Bytes) :
  text.words isSpace
    = if (extract text).1 = [] then [] else (extract text).1 :: (extract text).2.words isSpace
  := by
  have hsplit : text.takeWhile isSpace ++ ((extract text).1 ++ (extract text).2) = text := by
    rw [extract, List.takeWhile_append_dropWhile, List.takeWhile_append_dropWhile]
  have hblank : ∀ c ∈ text.takeWhile isSpace, isSpace c = true := by
    intro c hc
    apply List.mem_takeWhile_imp hc
  have hword : ∀ c ∈ (extract text).1, isSpace c = false := by
    intro c hc
    simpa using List.mem_takeWhile_imp hc
  have hrest : ∀ c ∈ (extract text).2.head?, isSpace c = true := by
    intro c hc
    simpa using List.head?_dropWhile_blank _ _ c hc
  conv_lhs => rw [← hsplit, List.words_append_of_blank isSpace hblank]
  split
  · next hnil =>
      have hdrop : text.dropWhile isSpace = [] := by
        rcases htext : text.dropWhile isSpace with _ | ⟨c, rest⟩
        · rfl
        have hc := List.head?_dropWhile_blank isSpace text c (by rw [htext]; rfl)
        rw [extract, htext, List.takeWhile_cons_of_pos (by simp [hc])] at hnil
        cases hnil
      rw [extract, hdrop]
      rfl
  · next hne => apply List.words_append_of_not_blank isSpace hne hword hrest

theorem words_of_extract {text : Bytes} (hne : (extract text).1 ≠ []) :
  text.words isSpace = (extract text).1 :: (extract text).2.words isSpace
  := by
  rw [words_eq, if_neg hne]

/-- The first of the text's words is the one extracted. -/
theorem extract_of_words {text word : Bytes} {words : List Bytes}
    (h : text.words isSpace = word :: words) :
  (extract text).1 = word ∧ (extract text).2.words isSpace = words
  := by
  rw [words_eq] at h
  split at h
  · cases h
  · rw [List.cons.injEq] at h
    apply h

theorem extract_eq_nil_iff {text : Bytes} :
  (extract text).1 = [] ↔ text.words isSpace = []
  := by
  rw [words_eq text]
  split
  · next hnil => simp [hnil]
  · next hne => simp [hne]

/-! ### The requests the route acts on -/

/-- The words of a request the GodMode route acts on, and the request. -/
inductive WellFormed : List Bytes → Request → Prop where
  | execute {verb value id : Bytes} (hverb : asciiLower (eraseHash verb) = ascii "setgodmode")
      (hvalue : asciiLower value = ascii "true" ∨ asciiLower value = ascii "false")
      (hid : steamIdValid id = true) :
      WellFormed [verb, value, id]
        { action := .execute, steamId := id, enabled := asciiLower value = ascii "true" }
  | state {verb id : Bytes} (hverb : asciiLower (eraseHash verb) = ascii "!godmode_state")
      (hid : steamIdValid id = true) :
      WellFormed [verb, id] { action := .state, steamId := id }
  | prepare {verb id : Bytes} (hverb : asciiLower (eraseHash verb) = ascii "!godmode_prepare")
      (hid : steamIdValid id = true) :
      WellFormed [verb, id] { action := .prepare, steamId := id }

/-- The word is one of the three verbs of the route. -/
def IsVerb (word : Bytes) : Prop :=
  asciiLower (eraseHash word) ∈
    [ascii "setgodmode", ascii "!godmode_state", ascii "!godmode_prepare"]

instance (word : Bytes) : Decidable (IsVerb word) :=
  inferInstanceAs (Decidable (_ ∈ _))

/-- The first word of a text, empty when there is none. -/
def firstWord (text : Bytes) : Bytes :=
  (text.words isSpace).headD []

theorem extract_eq_firstWord (text : Bytes) :
  (extract text).1 = firstWord text
  := by
  rw [firstWord, words_eq text]
  split
  · next hnil => rw [hnil]; rfl
  · rfl

/-- A text of one valid SteamID sets the target. -/
theorem parseTarget_of_words {result : Request} {input id : Bytes}
    (h : input.words isSpace = [id]) (hid : steamIdValid id = true) :
  parseTarget result input = { result with steamId := id }
  := by
  obtain ⟨hword, hrest⟩ := extract_of_words h
  have hextra := extract_eq_nil_iff.mpr hrest
  rw [steamIdValid, Bool.and_eq_true, beq_iff_eq] at hid
  simp [parseTarget, hword, hextra, hid]

/-- Without an id of 17 digits at the end, the request is invalid. -/
theorem parseTarget_cases (result : Request) (input : Bytes) :
  (∃ id, input.words isSpace = [id] ∧ steamIdValid id = true)
  ∨ (parseTarget result input).action = .invalid
  := by
  rw [parseTarget]
  dsimp only
  split
  · right
    rfl
  next hguard =>
  left
  rw [not_or, not_or, not_not, not_not] at hguard
  obtain ⟨hlength, hdigits, hextra⟩ := hguard
  have hne : (extract input).1 ≠ [] := by
    intro hnil
    rw [hnil] at hlength
    cases hlength
  use (extract input).1
  constructor
  · rw [words_of_extract hne, extract_eq_nil_iff.mp hextra]
  · simpa [steamIdValid, hlength] using hdigits

/-- The parser acts on the well-formed requests. -/
theorem WellFormed.parse_eq {text : Bytes} {words : List Bytes} {r : Request}
    (h : WellFormed words r) (hwords : text.words isSpace = words) :
  parse text = r
  := by
  cases h with
  | @execute verb value id hverb hvalue hid =>
      obtain ⟨hfirst, hrest⟩ := extract_of_words hwords
      obtain ⟨hsecond, hrest'⟩ := extract_of_words hrest
      have haction : ¬ (asciiLower value ≠ ascii "true" ∧ asciiLower value ≠ ascii "false") := by
        tauto
      rw [parse]
      dsimp only
      rw [hfirst, hverb, if_pos rfl, hsecond, parseTarget_of_words hrest' hid, if_neg haction]
  | @state verb id hverb hid =>
      obtain ⟨hfirst, hrest⟩ := extract_of_words hwords
      rw [parse]
      dsimp only
      rw [hfirst, hverb, if_neg (by decide), if_pos rfl, parseTarget_of_words hrest hid]
  | @prepare verb id hverb hid =>
      obtain ⟨hfirst, hrest⟩ := extract_of_words hwords
      rw [parse]
      dsimp only
      rw [hfirst, hverb, if_neg (by decide), if_neg (by decide), if_pos rfl,
        parseTarget_of_words hrest hid]

theorem ne_nil_of_isVerb {word : Bytes} (h : IsVerb word) :
  word ≠ []
  := by
  rintro rfl
  revert h
  decide

/-- A text that begins with another word is not for the route. -/
theorem parse_of_not_isVerb {text : Bytes} (h : ¬ IsVerb (firstWord text)) :
  parse text = {}
  := by
  rw [IsVerb, List.mem_cons, List.mem_cons, List.mem_singleton, not_or, not_or,
    ← extract_eq_firstWord] at h
  rw [parse]
  dsimp only
  rw [if_neg h.1, if_neg h.2.1, if_neg h.2.2]

/-- A text that begins with a verb of the route is well formed or rejected. -/
theorem parse_of_isVerb {text : Bytes} (h : IsVerb (firstWord text)) :
  (∃ r, WellFormed (text.words isSpace) r) ∨ (parse text).action = .invalid
  := by
  have hne := ne_nil_of_isVerb h
  rw [← extract_eq_firstWord] at h hne
  rw [words_of_extract hne]
  rw [IsVerb, List.mem_cons, List.mem_cons, List.mem_singleton] at h
  rw [parse]
  dsimp only
  rcases h with hverb | hverb | hverb
  · rw [hverb, if_pos rfl]
    rcases parseTarget_cases _ (extract (extract text).2).2 with ⟨id, hid, hvalid⟩ | hinvalid
    · rw [parseTarget_of_words hid hvalid]
      dsimp only
      split
      · right
        rfl
      next hvalue =>
      left
      have hvalue' : asciiLower (extract (extract text).2).1 = ascii "true"
          ∨ asciiLower (extract (extract text).2).1 = ascii "false" := by
        tauto
      have hvaluene : (extract (extract text).2).1 ≠ [] := by
        intro hnil
        rw [hnil] at hvalue'
        revert hvalue'
        decide
      rw [words_of_extract hvaluene, hid]
      exact ⟨_, WellFormed.execute hverb hvalue' hvalid⟩
    · right
      apply hinvalid
  · rw [hverb, if_neg (by decide), if_pos rfl]
    rcases parseTarget_cases { action := .state } (extract text).2 with ⟨id, hid, hvalid⟩ | hinvalid
    · left
      rw [hid]
      exact ⟨_, WellFormed.state hverb hvalid⟩
    · right
      apply hinvalid
  · rw [hverb, if_neg (by decide), if_neg (by decide), if_pos rfl]
    rcases parseTarget_cases { action := .prepare } (extract text).2
      with ⟨id, hid, hvalid⟩ | hinvalid
    · left
      rw [hid]
      exact ⟨_, WellFormed.prepare hverb hvalid⟩
    · right
      apply hinvalid

/-- An action of the route. -/
def Action.Acts (action : Action) : Prop :=
  action ∈ [.state, .prepare, .execute]

instance (action : Action) : Decidable action.Acts :=
  inferInstanceAs (Decidable (_ ∈ _))

theorem WellFormed.acts {words : List Bytes} {r : Request} (h : WellFormed words r) :
  r.action.Acts
  := by
  cases h <;> simp [Action.Acts]

/-- The route acts on the well-formed requests and on no others. -/
theorem parse_acts_iff (text : Bytes) :
  (parse text).action.Acts ↔ ∃ r, WellFormed (text.words isSpace) r
  := by
  constructor
  · intro hacts
    by_cases hverb : IsVerb (firstWord text)
    · rcases parse_of_isVerb hverb with hwell | hinvalid
      · apply hwell
      · rw [hinvalid] at hacts
        exact absurd hacts (by decide)
    · rw [parse_of_not_isVerb hverb] at hacts
      exact absurd hacts (by decide)
  · rintro ⟨r, hwell⟩
    rw [hwell.parse_eq rfl]
    apply hwell.acts

/-- The route declines a text exactly when its first word is not one of the three verbs. -/
theorem parse_unrelated_iff (text : Bytes) :
  (parse text).action = .unrelated ↔ ¬ IsVerb (firstWord text)
  := by
  constructor
  · intro hunrelated hverb
    rcases parse_of_isVerb hverb with ⟨r, hwell⟩ | hinvalid
    · have hacts := hwell.acts
      rw [← hwell.parse_eq rfl, hunrelated] at hacts
      exact absurd hacts (by decide)
    · rw [hinvalid] at hunrelated
      cases hunrelated
  · intro hverb
    rw [parse_of_not_isVerb hverb]

end OpenScumRcon.Godmode
