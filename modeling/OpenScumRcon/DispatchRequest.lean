import OpenScumRcon.Strings

/-!
# The request parser

`parseDispatchRequest` trims a request, cuts it into tokens in one pass over its bytes and
interprets the first of them. The pass is `scan`: its state is the token being read, the
tokens read so far, and whether a quoted segment is open and a token has been started.

`Scanned` is the graph of a successful pass, with one constructor for each way the loop
handles a byte.
-/

namespace OpenScumRcon

inductive DispatchAction where
  | unknown
  | invalid
  | players
  | commands
  | execute
  | weather
  | timeOfDay
  deriving DecidableEq

structure DispatchRequest where
  action : DispatchAction := .unknown
  steamId : Bytes := []
  verb : Bytes := []
  filter : Bytes := []
  error : Bytes := []
  arguments : List Bytes := []
  deriving DecidableEq

/-- The request `r` rejected with a reason. -/
def DispatchRequest.fail (r : DispatchRequest) (why : String) : DispatchRequest :=
  { r with action := .invalid, error := ascii why }

/-! ### The pass over the bytes -/

/-- The state of the loop. -/
structure Scan where
  token : Bytes := []
  tokens : List Bytes := []
  quoted : Bool := false
  started : Bool := false

namespace Scan

/-- A quote byte opens or closes a quoted segment. -/
def toggle (s : Scan) : Scan :=
  { s with quoted := !s.quoted, started := true }

/-- A byte is appended to the token. -/
def push (s : Scan) (c : Byte) : Scan :=
  { s with token := s.token ++ [c], started := true }

/-- A separator ends the token, if one has been started. -/
def flush (s : Scan) : Scan :=
  if s.started then { s with tokens := s.tokens ++ [s.token], token := [], started := false }
  else s

/-- A limit checked at the end of the loop body is exceeded. -/
def exceeded (s : Scan) : Bool :=
  4096 < s.token.length || 67 < s.tokens.length

end Scan

/-- A control character other than the tab. -/
def isControl (c : Byte) : Bool :=
  c < 32 && c != Byte.tab

/-- A separator of tokens. -/
def isBlank (c : Byte) : Bool :=
  c == Byte.space || c == Byte.tab

/-- A byte that a backslash escapes inside a quoted segment. -/
def isEscapable (c : Byte) : Bool :=
  c == Byte.doubleQuote || c == Byte.backslash

/-- What the loop does with a byte that is neither a quote nor an escape. -/
def Scan.step (s : Scan) (c : Byte) : Scan :=
  if !s.quoted && isBlank c then s.flush else s.push c

def tooMany : Bytes :=
  ascii "too many or oversized arguments"

/-- The loop over the bytes of the trimmed text. It fails with the reason of the
rejection. -/
def scan : Bytes → Scan → Except Bytes Scan
  | [], s => .ok s
  | c :: rest, s =>
      if isControl c then
        .error (ascii "control characters and multiple command lines are not allowed")
      else if c = Byte.delete then .error (ascii "control characters are not allowed")
      else if c = Byte.doubleQuote then scan rest s.toggle
      else
        match rest with
        | e :: rest' =>
            if s.quoted && c == Byte.backslash && isEscapable e then
              if (s.push e).exceeded then .error tooMany else scan rest' (s.push e)
            else if (s.step c).exceeded then .error tooMany else scan (e :: rest') (s.step c)
        | [] => if (s.step c).exceeded then .error tooMany else .ok (s.step c)

/-! ### The interpretation of the tokens -/

/-- The `!exec` branch, for the tokens behind the first. -/
def dispatchExec (others : List Bytes) : DispatchRequest :=
  match others with
  | id :: verb :: arguments =>
      if 67 < arguments.length + 3 || !steamIdValid id then
        DispatchRequest.fail {} "usage: !exec <17-digit SteamID> <command> [arguments...]"
      else
        let r : DispatchRequest :=
          { action := .execute, steamId := id, verb := eraseHash verb }
        if r.verb.isEmpty || !r.verb.all isWordByte then r.fail "invalid command name"
        else { r with arguments := arguments }
  | _ => DispatchRequest.fail {} "usage: !exec <17-digit SteamID> <command> [arguments...]"

/-- The branch the first token selects. -/
def dispatchTokens (first : Bytes) (others : List Bytes) : DispatchRequest :=
  let verb := eraseHash (lowerAscii first)
  if verb = ascii "listplayers" then
    if others.length + 1 ≠ 1 then DispatchRequest.fail {} "usage: ListPlayers"
    else { action := .players }
  else if verb = ascii "getweather" ∨ verb = ascii "gettimeofday" then
    if others.length + 1 ≠ 1 then
      DispatchRequest.fail {} "usage: GetWeather or GetTimeOfDay (no arguments)"
    else { action := if verb = ascii "getweather" then .weather else .timeOfDay }
  else if verb = ascii "!commands" then
    match others with
    | [] => { action := .commands }
    | [filter] => { action := .commands, filter := lowerAscii filter }
    | _ => DispatchRequest.fail {} "usage: !commands [filter]"
  else if verb = ascii "!exec" then dispatchExec others
  else {}

/-- The tokens when the pass is over: a token that has been started is the last. -/
def Scan.allTokens (s : Scan) : List Bytes :=
  if s.started then s.tokens ++ [s.token] else s.tokens

def parseDispatchRequest (text : Bytes) : DispatchRequest :=
  if 8192 < text.length then DispatchRequest.fail {} "request exceeds 8192 bytes"
  else
    match substrTrimmed text with
    | none => DispatchRequest.fail {} "empty command"
    | some text =>
        match scan text {} with
        | .error why => { action := .invalid, error := why }
        | .ok s =>
            if s.quoted then DispatchRequest.fail {} "unterminated double quote"
            else
              match s.allTokens with
              | [] => DispatchRequest.fail {} "empty command"
              | first :: others => dispatchTokens first others

example :
  parseDispatchRequest (ascii "!exec 76561198000000001 #Test \"hello world\" \"\" 12")
    = { action := .execute, steamId := ascii "76561198000000001", verb := ascii "Test"
        arguments := [ascii "hello world", [], ascii "12"] }
  := by decide +kernel

/-! ### The graph of the pass -/

/-- The pass over a text leads from one state to another without a failure. -/
inductive Scanned : Bytes → Scan → Scan → Prop where
  | done (s : Scan) : Scanned [] s s
  | quote {rest : Bytes} {s s' : Scan} (hrest : Scanned rest s.toggle s') :
      Scanned (Byte.doubleQuote :: rest) s s'
  | escape {e : Byte} {rest : Bytes} {s s' : Scan} (hquoted : s.quoted = true)
      (he : isEscapable e = true) (hlimit : (s.push e).exceeded = false)
      (hrest : Scanned rest (s.push e) s') :
      Scanned (Byte.backslash :: e :: rest) s s'
  | byte {c : Byte} {rest : Bytes} {s s' : Scan} (hcontrol : isControl c = false)
      (hdelete : c ≠ Byte.delete) (hquote : c ≠ Byte.doubleQuote)
      (hlone : s.quoted = true → c = Byte.backslash → ∀ e ∈ rest.head?, isEscapable e = false)
      (hlimit : (s.step c).exceeded = false) (hrest : Scanned rest (s.step c) s') :
      Scanned (c :: rest) s s'

theorem scan_ne_ok_of_isControl {c : Byte} (rest : Bytes) (s s' : Scan)
    (hcontrol : isControl c = true ∨ c = Byte.delete) :
  scan (c :: rest) s ≠ .ok s'
  := by
  have hdelete : isControl Byte.delete = false := by decide
  cases rest <;> rcases hcontrol with hcontrol | rfl <;> simp [scan, *]

/-- A quote byte is not subject to the limits. -/
theorem scan_quote (rest : Bytes) (s : Scan) :
  scan (Byte.doubleQuote :: rest) s = scan rest s.toggle
  := by
  cases rest with
  | nil => rfl
  | cons e rest => rfl

theorem scan_escape {e : Byte} (rest : Bytes) {s : Scan} (hquoted : s.quoted = true)
    (he : isEscapable e = true) :
  scan (Byte.backslash :: e :: rest) s
    = if (s.push e).exceeded then .error tooMany else scan rest (s.push e)
  := by
  rw [scan, if_neg (by decide), if_neg (by decide), if_neg (by decide)]
  simp [hquoted, he]

/-- A byte that opens nothing and escapes nothing. -/
theorem scan_byte {c : Byte} {rest : Bytes} {s : Scan} (hcontrol : isControl c = false)
    (hdelete : c ≠ Byte.delete) (hquote : c ≠ Byte.doubleQuote)
    (hlone : s.quoted = true → c = Byte.backslash → ∀ e ∈ rest.head?, isEscapable e = false) :
  scan (c :: rest) s = if (s.step c).exceeded then .error tooMany else scan rest (s.step c)
  := by
  cases rest with
  | nil => simp [scan, hcontrol, hdelete, hquote]
  | cons e rest =>
      have hescape : (s.quoted && c == Byte.backslash && isEscapable e) = false := by
        rw [Bool.eq_false_iff]
        intro h
        simp only [Bool.and_eq_true, beq_iff_eq] at h
        have hfalse := hlone h.1.1 h.1.2 e rfl
        rw [h.2] at hfalse
        cases hfalse
      rw [scan, if_neg (by simp [hcontrol]), if_neg hdelete, if_neg hquote]
      simp only [hescape, Bool.false_eq_true, if_false]

theorem Scanned.scan_eq {text : Bytes} {s s' : Scan} (h : Scanned text s s') :
  scan text s = .ok s'
  := by
  induction h with
  | done s => rfl
  | quote _ ih => rw [scan_quote, ih]
  | escape hquoted he hlimit _ ih =>
      rw [scan_escape _ hquoted he, hlimit, if_neg Bool.false_ne_true, ih]
  | byte hcontrol hdelete hquote hlone hlimit _ ih =>
      rw [scan_byte hcontrol hdelete hquote hlone, hlimit, if_neg Bool.false_ne_true, ih]

/-- What is behind a check of the limits when the check has not failed. -/
theorem of_limit_eq_ok {s s' s'' : Scan} {rest : Bytes}
    (h : (if s.exceeded then .error tooMany else scan rest s') = Except.ok s'') :
  s.exceeded = false ∧ scan rest s' = .ok s''
  := by
  split at h
  · cases h
  · next hlimit =>
      constructor
      · simpa using hlimit
      · apply h

/-- Every successful scan has a derivation, by induction on the length of the text. -/
theorem scanned_of_scan_eq {s' : Scan} (n : ℕ) :
  ∀ (text : Bytes) (s : Scan), text.length ≤ n → scan text s = .ok s' → Scanned text s s'
  := by
  induction n with
  | zero =>
      intro text s hlen h
      obtain rfl := List.eq_nil_of_length_eq_zero (Nat.le_zero.mp hlen)
      obtain rfl := Except.ok.inj h
      apply Scanned.done
  | succ n ih =>
      intro text s hlen h
      rcases text with _ | ⟨c, rest⟩
      · obtain rfl := Except.ok.inj h
        apply Scanned.done
      have hrest : rest.length ≤ n := Nat.le_of_succ_le_succ hlen
      by_cases hcontrol : isControl c = true
      · exact absurd h (scan_ne_ok_of_isControl rest s s' (.inl hcontrol))
      by_cases hdelete : c = Byte.delete
      · exact absurd h (scan_ne_ok_of_isControl rest s s' (.inr hdelete))
      by_cases hquote : c = Byte.doubleQuote
      · obtain rfl := hquote
        rw [scan_quote] at h
        apply Scanned.quote (ih rest _ hrest h)
      by_cases hescape : s.quoted = true ∧ c = Byte.backslash ∧ ∃ e ∈ rest.head?, isEscapable e
      · obtain ⟨hquoted, rfl, e, hhead, he⟩ := hescape
        obtain ⟨rest, rfl⟩ := List.head?_eq_some_iff.mp hhead
        rw [scan_escape rest hquoted he] at h
        obtain ⟨hlimit, h⟩ := of_limit_eq_ok h
        apply Scanned.escape hquoted he hlimit
        apply ih rest _ (Nat.le_of_succ_le hrest) h
      · have hlone : s.quoted = true → c = Byte.backslash →
            ∀ e ∈ rest.head?, isEscapable e = false := by
          intro hquoted hc e hhead
          rw [Bool.eq_false_iff]
          intro he
          apply hescape ⟨hquoted, hc, e, hhead, he⟩
        have hcontrol : isControl c = false := by simpa using hcontrol
        rw [scan_byte hcontrol hdelete hquote hlone] at h
        obtain ⟨hlimit, h⟩ := of_limit_eq_ok h
        apply Scanned.byte hcontrol hdelete hquote hlone hlimit
        apply ih rest _ hrest h

/-- The pass succeeds exactly along its graph. -/
theorem scan_eq_ok_iff {text : Bytes} {s s' : Scan} :
  scan text s = .ok s' ↔ Scanned text s s'
  := by
  constructor
  · intro h
    apply scanned_of_scan_eq text.length text s (Nat.le_refl _) h
  · intro h
    apply h.scan_eq

end OpenScumRcon
