import OpenScumRcon.DispatchRequest

/-!
# The grammar of requests

The reference grammar of a request, given independently of the loop that parses it. A
request is a sequence of tokens with blank bytes between them. A token is a non-empty
sequence of bare bytes and quoted segments. Inside a quoted segment a backslash in front of
a double quote or of another backslash denotes that byte, and every other byte denotes
itself.

The loop derives exactly the tokens of the grammar: `Tokens.scanned` runs the loop along a
derivation and `Scanned.tokens` reads a derivation off a run.
-/

namespace OpenScumRcon

/-! ### The grammar -/

/-- The bytes inside a quoted segment and the bytes they denote. A backslash in front of the
closing quote is not lone. -/
inductive QuotedText : Bytes → Bytes → Prop where
  | nil : QuotedText [] []
  | escape {e : Byte} {q d : Bytes} (he : isEscapable e = true) (hq : QuotedText q d) :
      QuotedText (Byte.backslash :: e :: q) (e :: d)
  | byte {c : Byte} {q d : Bytes} (hquote : c ≠ Byte.doubleQuote)
      (hlone : c = Byte.backslash → ∀ e ∈ (q ++ [Byte.doubleQuote]).head?, isEscapable e = false)
      (hq : QuotedText q d) :
      QuotedText (c :: q) (c :: d)

/-- A sequence of bare bytes and quoted segments. -/
inductive Segments : Bytes → Bytes → Prop where
  | nil : Segments [] []
  | bare {c : Byte} {u d : Bytes} (hquote : c ≠ Byte.doubleQuote) (hblank : isBlank c = false)
      (hu : Segments u d) :
      Segments (c :: u) (c :: d)
  | quoted {q e u d : Bytes} (hq : QuotedText q e) (hu : Segments u d) :
      Segments (Byte.doubleQuote :: q ++ Byte.doubleQuote :: u) (e ++ d)

/-- A token and the bytes it denotes. -/
structure Token (u d : Bytes) : Prop where
  ne_nil : u ≠ []
  segments : Segments u d

/-- A sequence of tokens, one or more blank bytes between two of them. -/
inductive Tokens : Bytes → List Bytes → Prop where
  | last {u d : Bytes} (hu : Token u d) : Tokens u [d]
  | more {u d gap rest : Bytes} {ds : List Bytes} (hu : Token u d) (hne : gap ≠ [])
      (hgap : ∀ c ∈ gap, isBlank c = true) (hrest : Tokens rest ds) :
      Tokens (u ++ gap ++ rest) (d :: ds)

/-- A byte that may stand in a request. -/
structure Plain (c : Byte) : Prop where
  control : c < 32 → c = Byte.tab
  delete : c ≠ Byte.delete

instance (c : Byte) : Decidable (Plain c) :=
  decidable_of_iff ((c < 32 → c = Byte.tab) ∧ c ≠ Byte.delete)
    ⟨fun h => ⟨h.1, h.2⟩, fun h => ⟨h.control, h.delete⟩⟩

/-- The text is a request with the tokens `ds` that keeps the limits of the parser. -/
structure Tokenized (text : Bytes) (ds : List Bytes) : Prop where
  length_le : text.length ≤ 8192
  ne_nil : text.trim isTrimmed ≠ []
  plain : ∀ c ∈ text.trim isTrimmed, Plain c
  tokens : Tokens (text.trim isTrimmed) ds
  token_length_le : ∀ d ∈ ds, d.length ≤ 4096
  tokens_length_le : ds.length ≤ 68

theorem Plain.isControl_eq {c : Byte} (h : Plain c) :
  isControl c = false
  := by
  rw [isControl, Bool.and_eq_false_iff, bne_eq_false_iff_eq, decide_eq_false_iff_not]
  by_cases hlt : c < 32
  · right
    apply h.control hlt
  · left
    apply hlt

/-- The bytes the scan accepts. -/
theorem plain_of_isControl {c : Byte} (hcontrol : isControl c = false) (hdelete : c ≠ Byte.delete) :
  Plain c
  := by
  constructor
  · intro hlt
    simpa [isControl, hlt] using hcontrol
  · apply hdelete

/-! ### Appending to the token -/

/-- Bytes are appended to the token. -/
def Scan.append (s : Scan) (d : Bytes) : Scan :=
  { s with token := s.token ++ d, started := true }

theorem Scan.push_eq (s : Scan) (c : Byte) :
  s.push c = s.append [c]
  := rfl

@[simp]
theorem Scan.append_append (s : Scan) (d e : Bytes) :
  (s.append d).append e = s.append (d ++ e)
  := by
  simp [Scan.append]

theorem Scan.append_nil {s : Scan} (hstarted : s.started = true) :
  s.append [] = s
  := by
  obtain ⟨token, tokens, quoted, started⟩ := s
  obtain rfl := hstarted
  simp [Scan.append]

/-- A state in which neither limit is exceeded. -/
structure Scan.Within (s : Scan) : Prop where
  token : s.token.length ≤ 4096
  tokens : s.tokens.length ≤ 67

/-- The scan's limits, as a condition on its state. -/
theorem Scan.exceeded_eq_false_iff {s : Scan} :
  s.exceeded = false ↔ s.Within
  := by
  rw [Scan.exceeded, Bool.or_eq_false_iff, decide_eq_false_iff_not, decide_eq_false_iff_not,
    not_lt, not_lt]
  constructor
  · rintro ⟨htoken, htokens⟩
    exact ⟨htoken, htokens⟩
  · rintro ⟨htoken, htokens⟩
    exact ⟨htoken, htokens⟩

/-- What is within the limits was within them before. -/
theorem Scan.Within.of_append {s : Scan} {d e : Bytes} (h : (s.append (d ++ e)).Within) :
  (s.append d).Within
  := by
  constructor
  · have htoken := h.token
    simp only [Scan.append, List.length_append] at htoken ⊢
    omega
  · apply h.tokens

theorem Scan.step_of_quoted {s : Scan} {c : Byte} (hquoted : s.quoted = true) :
  s.step c = s.append [c]
  := by
  simp [Scan.step, hquoted, Scan.push_eq]

theorem Scan.step_of_not_blank {s : Scan} {c : Byte} (hblank : isBlank c = false) :
  s.step c = s.append [c]
  := by
  simp [Scan.step, hblank, Scan.push_eq]

/-- Outside quotes a blank ends the token. -/
theorem Scan.step_of_blank {s : Scan} {c : Byte} (hquoted : s.quoted = false)
    (hblank : isBlank c = true) :
  s.step c = s.flush
  := by
  simp [Scan.step, hquoted, hblank]

theorem isEscapable_iff {c : Byte} :
  isEscapable c = true ↔ c = Byte.doubleQuote ∨ c = Byte.backslash
  := by
  rw [isEscapable, Bool.or_eq_true, beq_iff_eq, beq_iff_eq]

theorem isBlank_iff {c : Byte} :
  isBlank c = true ↔ c = Byte.space ∨ c = Byte.tab
  := by
  rw [isBlank, Bool.or_eq_true, beq_iff_eq, beq_iff_eq]

/-! ### From a derivation to a run -/

/-- The loop reads the inside of a quoted segment up to the closing quote. -/
theorem QuotedText.scanned {q d : Bytes} (h : QuotedText q d) {rest : Bytes} {s s' : Scan}
    (hquoted : s.quoted = true) (hstarted : s.started = true) (hplain : ∀ c ∈ q, Plain c)
    (hwithin : (s.append d).Within)
    (hrest : Scanned (Byte.doubleQuote :: rest) (s.append d) s') :
  Scanned (q ++ Byte.doubleQuote :: rest) s s'
  := by
  induction h generalizing s with
  | nil =>
      rw [Scan.append_nil hstarted] at hrest
      apply hrest
  | @escape e q d he hq ih =>
      rw [List.forall_mem_cons, List.forall_mem_cons] at hplain
      have hpush : (s.append [e]).Within := hwithin.of_append (e := d)
      apply Scanned.escape hquoted he (Scan.exceeded_eq_false_iff.mpr hpush)
      apply ih (s := s.append [e]) hquoted rfl hplain.2.2
      · rw [Scan.append_append]
        apply hwithin
      · rw [Scan.append_append]
        apply hrest
  | @byte c q d hquote hlone hq ih =>
      rw [List.forall_mem_cons] at hplain
      have hpush : (s.append [c]).Within := hwithin.of_append (e := d)
      apply Scanned.byte hplain.1.isControl_eq hplain.1.delete hquote
      · intro _ hc e he
        apply hlone hc e
        cases q with
        | nil => apply he
        | cons b q => apply he
      · rw [Scan.step_of_quoted hquoted]
        apply Scan.exceeded_eq_false_iff.mpr hpush
      · rw [Scan.step_of_quoted hquoted]
        apply ih (s := s.append [c]) hquoted rfl hplain.2
        · rw [Scan.append_append]
          apply hwithin
        · rw [Scan.append_append]
          apply hrest

/-- Behind a token that has been started the loop reads a sequence of segments. -/
theorem Segments.scanned {u d : Bytes} (h : Segments u d) {rest : Bytes} {s s' : Scan}
    (hquoted : s.quoted = false) (hplain : ∀ c ∈ u, Plain c)
    (hwithin : (s.append d).Within) (hstarted : u = [] → s.started = true)
    (hrest : Scanned rest (s.append d) s') :
  Scanned (u ++ rest) s s'
  := by
  induction h generalizing s with
  | nil =>
      rw [Scan.append_nil (hstarted rfl)] at hrest
      apply hrest
  | @bare c u d hquote hblank hu ih =>
      rw [List.forall_mem_cons] at hplain
      have hpush : (s.append [c]).Within := hwithin.of_append (e := d)
      apply Scanned.byte hplain.1.isControl_eq hplain.1.delete hquote
      · intro hfalse
        rw [hquoted] at hfalse
        cases hfalse
      · rw [Scan.step_of_not_blank hblank]
        apply Scan.exceeded_eq_false_iff.mpr hpush
      · rw [Scan.step_of_not_blank hblank]
        apply ih (s := s.append [c]) hquoted hplain.2
        · rw [Scan.append_append]
          apply hwithin
        · intro _
          rfl
        · rw [Scan.append_append]
          apply hrest
  | @quoted q e u d hq hu ih =>
      simp only [List.cons_append, List.append_assoc, List.forall_mem_cons,
        List.forall_mem_append] at hplain ⊢
      apply Scanned.quote
      apply hq.scanned (s := s.toggle) (by simp [Scan.toggle, hquoted]) rfl hplain.2.1
      · constructor
        · apply hwithin.of_append.token
        · apply hwithin.tokens
      apply Scanned.quote
      have htoggle : (s.toggle.append e).toggle = s.append e := by
        simp [Scan.toggle, Scan.append]
      rw [htoggle]
      apply ih (s := s.append e) hquoted hplain.2.2.2
      · rw [Scan.append_append]
        apply hwithin
      · intro _
        rfl
      · rw [Scan.append_append]
        apply hrest

theorem Scan.flush_flush (s : Scan) :
  s.flush.flush = s.flush
  := by
  cases hstarted : s.started <;> simp [Scan.flush, hstarted]

@[simp]
theorem Scan.flush_quoted (s : Scan) :
  s.flush.quoted = s.quoted
  := by
  cases hstarted : s.started <;> simp [Scan.flush, hstarted]

theorem plain_of_blank {c : Byte} (h : isBlank c = true) :
  Plain c
  := by
  rcases isBlank_iff.mp h with rfl | rfl <;> decide

theorem ne_doubleQuote_of_blank {c : Byte} (h : isBlank c = true) :
  c ≠ Byte.doubleQuote
  := by
  rintro rfl
  cases h

/-- Between two tokens the loop reads blank bytes. -/
theorem scanned_gap {gap rest : Bytes} {s s' : Scan} (hne : gap ≠ [])
    (hgap : ∀ c ∈ gap, isBlank c = true) (hquoted : s.quoted = false) (hwithin : s.flush.Within)
    (hrest : Scanned rest s.flush s') :
  Scanned (gap ++ rest) s s'
  := by
  induction gap generalizing s with
  | nil => exact absurd rfl hne
  | cons c gap ih =>
      rw [List.forall_mem_cons] at hgap
      have hplain := plain_of_blank hgap.1
      apply Scanned.byte hplain.isControl_eq hplain.delete (ne_doubleQuote_of_blank hgap.1)
      · intro hfalse
        rw [hquoted] at hfalse
        cases hfalse
      · rw [Scan.step_of_blank hquoted hgap.1]
        apply Scan.exceeded_eq_false_iff.mpr hwithin
      · rw [Scan.step_of_blank hquoted hgap.1]
        rcases eq_or_ne gap [] with rfl | hne'
        · apply hrest
        · apply ih hne' hgap.2
          · rw [Scan.flush_quoted, hquoted]
          · rw [Scan.flush_flush]
            apply hwithin
          · rw [Scan.flush_flush]
            apply hrest

/-- The loop reads a sequence of tokens and collects what they denote. -/
theorem Tokens.scanned {text : Bytes} {ds : List Bytes} (h : Tokens text ds) {s : Scan}
    (hquoted : s.quoted = false) (htoken : s.token = []) (hstarted : s.started = false)
    (hplain : ∀ c ∈ text, Plain c) (hlength : ∀ d ∈ ds, d.length ≤ 4096)
    (hcount : s.tokens.length + ds.length ≤ 68) :
  ∃ s', Scanned text s s' ∧ s'.quoted = false ∧ s'.allTokens = s.tokens ++ ds
  := by
  induction h generalizing s with
  | @last u d hu =>
      use s.append d
      refine ⟨?_, hquoted, ?_⟩
      · rw [← List.append_nil u]
        apply hu.segments.scanned hquoted hplain
        · constructor
          · simpa [Scan.append, htoken] using hlength
          · apply Nat.le_of_succ_le_succ hcount
        · intro hnil
          exact absurd hnil hu.ne_nil
        · apply Scanned.done
      · simp [Scan.allTokens, Scan.append, htoken]
  | @more u d gap rest ds hu hne hgap hrest ih =>
      rw [List.forall_mem_append, List.forall_mem_append] at hplain
      rw [List.forall_mem_cons] at hlength
      rw [List.length_cons] at hcount
      have hpos : 0 < ds.length := by
        cases hrest <;> exact Nat.succ_pos _
      have hflush : (s.append d).flush = { s with tokens := s.tokens ++ [d] } := by
        simp [Scan.flush, Scan.append, htoken, hstarted]
      obtain ⟨s', hscanned, hclosed, hall⟩ := ih (s := { s with tokens := s.tokens ++ [d] })
        hquoted htoken hstarted hplain.2 hlength.2 (by simp; omega)
      refine ⟨s', ?_, hclosed, ?_⟩
      · rw [List.append_assoc]
        apply hu.segments.scanned hquoted hplain.1.1
        · constructor
          · simpa [Scan.append, htoken] using hlength.1
          · change s.tokens.length ≤ 67
            omega
        · intro hnil
          exact absurd hnil hu.ne_nil
        apply scanned_gap (s := s.append d) hne hgap hquoted
        · rw [hflush]
          constructor
          · simp [htoken]
          · simp only [List.length_append, List.length_singleton]
            omega
        · rw [hflush]
          apply hscanned
      · rw [hall]
        simp

/-! ### From a run to a derivation -/

/-- What is left of a token, read from inside a quoted segment or from outside. -/
inductive Remaining : Bool → Bytes → Bytes → Prop where
  | outside {u d : Bytes} (hu : Segments u d) : Remaining false u d
  | inside {q e u d : Bytes} (hq : QuotedText q e) (hu : Segments u d) :
      Remaining true (q ++ Byte.doubleQuote :: u) (e ++ d)

/-- A quote opens or closes the quoted part of a token. -/
theorem Remaining.quote {quoted : Bool} {u d : Bytes} (h : Remaining (!quoted) u d) :
  Remaining quoted (Byte.doubleQuote :: u) d
  := by
  cases quoted with
  | true =>
      obtain ⟨hu⟩ := h
      apply Remaining.inside QuotedText.nil hu
  | false =>
      obtain ⟨⟩ | ⟨hq, hu⟩ := h
      apply Remaining.outside
      apply Segments.quoted hq hu

/-- Inside quotes an escaped byte stands for itself. -/
theorem Remaining.escape {e : Byte} {u d : Bytes} (he : isEscapable e = true)
    (h : Remaining true u d) :
  Remaining true (Byte.backslash :: e :: u) (e :: d)
  := by
  obtain ⟨⟩ | ⟨hq, hu⟩ := h
  apply Remaining.inside (QuotedText.escape he hq) hu

/-- A byte that neither ends a quoted segment nor escapes, nor separates tokens. -/
theorem Remaining.byte {quoted : Bool} {c : Byte} {u d rest : Bytes}
    (hquote : c ≠ Byte.doubleQuote) (hblank : quoted = false → isBlank c = false)
    (hlone : quoted = true → c = Byte.backslash → ∀ e ∈ (u ++ rest).head?, isEscapable e = false)
    (h : Remaining quoted u d) :
  Remaining quoted (c :: u) (c :: d)
  := by
  cases h with
  | outside hu =>
      apply Remaining.outside
      apply Segments.bare hquote (hblank rfl) hu
  | @inside q e u d hq hu =>
      apply Remaining.inside (QuotedText.byte hquote _ hq) hu
      intro hc b hb
      apply hlone rfl hc b
      cases q with
      | nil => apply hb
      | cons b q => apply hb

/-- Outside quoted segments, reading nothing changes nothing. -/
theorem Scan.append_nil_of_not_quoted {s : Scan} (hstarted : s.started = true)
    (hquoted : s.quoted = false) :
  { s.append [] with quoted := false } = s
  := by
  rw [Scan.append_nil hstarted, ← hquoted]

/-- A token that ends at a blank has been started. -/
theorem Scan.started_of_blank {s : Scan} {text : Bytes}
    (hblank : ∀ c ∈ text.head?, isBlank c = true)
    (hstarted : s.started = false → ∃ c ∈ text.head?, isBlank c = false) :
  s.started = true
  := by
  rw [← Bool.not_eq_false]
  intro hfalse
  obtain ⟨c, hc, hnot⟩ := hstarted hfalse
  rw [hblank c hc] at hnot
  cases hnot

/-- The loop reads the token it is in up to a blank byte outside quoted segments. -/
theorem Scanned.remaining {text : Bytes} {s s' : Scan} (h : Scanned text s s')
    (hclosed : s'.quoted = false)
    (hstarted : s.started = false → ∃ c ∈ text.head?, isBlank c = false) :
  ∃ u d rest, text = u ++ rest ∧ Remaining s.quoted u d ∧ (∀ c ∈ rest.head?, isBlank c = true) ∧
    Scanned rest { s.append d with quoted := false } s'
  := by
  induction h with
  | done s =>
      have hs : s.started = true := Scan.started_of_blank (by simp) hstarted
      use [], [], []
      refine ⟨rfl, ?_, by simp, ?_⟩
      · rw [hclosed]
        apply Remaining.outside Segments.nil
      · rw [Scan.append_nil_of_not_quoted hs hclosed]
        apply Scanned.done
  | @quote rest s s' hrest ih =>
      obtain ⟨u, d, rest, rfl, hu, hstop, hscanned⟩ := ih hclosed (by simp [Scan.toggle])
      use Byte.doubleQuote :: u, d, rest
      exact ⟨rfl, hu.quote, hstop, hscanned⟩
  | @escape e rest s s' hquoted he hlimit hrest ih =>
      obtain ⟨u, d, rest, rfl, hu, hstop, hscanned⟩ := ih hclosed (by simp [Scan.push])
      use Byte.backslash :: e :: u, e :: d, rest
      refine ⟨rfl, ?_, hstop, ?_⟩
      · rw [hquoted]
        rw [Scan.push, hquoted] at hu
        apply hu.escape he
      · rw [Scan.push_eq, Scan.append_append] at hscanned
        apply hscanned
  | @byte c rest s s' hcontrol hdelete hquote hlone hlimit hrest ih =>
      by_cases hgap : s.quoted = false ∧ isBlank c = true
      · -- the token ends in front of the byte
        obtain ⟨hquoted, hblank⟩ := hgap
        have hstop : ∀ b ∈ (c :: rest).head?, isBlank b = true := by simpa using hblank
        have hs := Scan.started_of_blank hstop hstarted
        use [], [], c :: rest
        refine ⟨rfl, ?_, hstop, ?_⟩
        · rw [hquoted]
          apply Remaining.outside Segments.nil
        · rw [Scan.append_nil_of_not_quoted hs hquoted]
          apply Scanned.byte hcontrol hdelete hquote hlone hlimit hrest
      · have hblank : s.quoted = false → isBlank c = false := by
          intro hquoted
          simpa [hquoted] using hgap
        have hstep : s.step c = s.append [c] := by
          cases hquoted : s.quoted with
          | true => apply Scan.step_of_quoted hquoted
          | false => apply Scan.step_of_not_blank (hblank hquoted)
        rw [hstep] at ih
        obtain ⟨u, d, rest, rfl, hu, hstop, hscanned⟩ := ih hclosed (by simp [Scan.append])
        use c :: u, c :: d, rest
        refine ⟨rfl, ?_, hstop, ?_⟩
        · apply Remaining.byte hquote hblank hlone hu
        · rw [Scan.append_append] at hscanned
          apply hscanned

/-- A derivation whose first byte is a blank outside quotes. -/
theorem Scanned.of_blank {c : Byte} {rest : Bytes} {s s' : Scan} (h : Scanned (c :: rest) s s')
    (hquoted : s.quoted = false) (hblank : isBlank c = true) :
  Scanned rest s.flush s'
  := by
  cases h with
  | quote => cases hblank
  | escape hfalse =>
      rw [hquoted] at hfalse
      cases hfalse
  | byte _ _ _ _ _ hrest =>
      rw [Scan.step_of_blank hquoted hblank] at hrest
      apply hrest

/-- A gap ends the token. -/
theorem Scanned.of_gap {gap rest : Bytes} {s s' : Scan} (h : Scanned (gap ++ rest) s s')
    (hquoted : s.quoted = false) (hne : gap ≠ []) (hgap : ∀ c ∈ gap, isBlank c = true) :
  Scanned rest s.flush s'
  := by
  induction gap generalizing s with
  | nil => exact absurd rfl hne
  | cons c gap ih =>
      rw [List.forall_mem_cons] at hgap
      have hrest := h.of_blank hquoted hgap.1
      rcases eq_or_ne gap [] with rfl | hne'
      · apply hrest
      · rw [← Scan.flush_flush]
        apply ih hrest _ hne' hgap.2
        rw [Scan.flush_quoted, hquoted]

/-- The loop collects what the tokens of the text denote. -/
theorem Scanned.tokens {text : Bytes} {s s' : Scan} (h : Scanned text s s')
    (hclosed : s'.quoted = false) (hquoted : s.quoted = false) (htoken : s.token = [])
    (hstarted : s.started = false) (hne : text ≠ []) (htrimmed : text.Trimmed isBlank) :
  ∃ ds, Tokens text ds ∧ s'.allTokens = s.tokens ++ ds
  := by
  induction hn : text.length using Nat.strongRecOn generalizing text s with
  | ind n ih =>
      obtain ⟨c, text', htext⟩ := List.exists_cons_of_ne_nil hne
      have hc : isBlank c = false := by
        apply htrimmed.1
        rw [htext]
        rfl
      obtain ⟨u, d, rest, hsplit, hu, hstop, hscanned⟩ :=
        h.remaining hclosed (fun _ => ⟨c, by rw [htext]; rfl, hc⟩)
      rw [hquoted] at hu
      obtain ⟨hu⟩ := hu
      have hune : u ≠ [] := by
        rintro rfl
        have hfalse := hstop c (by rw [← List.nil_append rest, ← hsplit, htext]; rfl)
        rw [hc] at hfalse
        cases hfalse
      have hstate : ({ s.append d with quoted := false } : Scan) = s.append d := by
        rw [← hquoted]
        rfl
      rw [hstate] at hscanned
      rcases eq_or_ne rest [] with rfl | hrest
      · cases hscanned
        rw [List.append_nil] at hsplit
        use [d]
        constructor
        · rw [hsplit]
          apply Tokens.last ⟨hune, hu⟩
        · simp [Scan.allTokens, Scan.append, htoken]
      · have hlast : ∀ b ∈ rest.getLast?, isBlank b = false := by
          intro b hb
          apply htrimmed.2
          rw [hsplit, List.getLast?_append_of_ne_nil _ hrest]
          apply hb
        obtain ⟨gap, next, rfl, hgapne, hgap, hnextne, hnext⟩ :=
          List.exists_blank_run isBlank hrest hstop hlast
        have hscanned' := hscanned.of_gap hquoted hgapne hgap
        have hflush : (s.append d).flush = { s with tokens := s.tokens ++ [d] } := by
          simp [Scan.flush, Scan.append, htoken, hstarted]
        rw [hflush] at hscanned'
        have hlt : next.length < n := by
          have hulen := List.length_pos_iff.mpr hune
          rw [← hn, hsplit, List.length_append, List.length_append]
          omega
        obtain ⟨ds, hds, hall⟩ := ih _ hlt hscanned' hquoted htoken hstarted hnextne hnext rfl
        use d :: ds
        constructor
        · rw [hsplit, ← List.append_assoc]
          apply Tokens.more ⟨hune, hu⟩ hgapne hgap hds
        · rw [hall]
          simp

/-- A scanned text has no control byte. -/
theorem Scanned.plain {text : Bytes} {s s' : Scan} (h : Scanned text s s') :
  ∀ c ∈ text, Plain c
  := by
  induction h with
  | done s => simp
  | quote _ ih =>
      rw [List.forall_mem_cons]
      exact ⟨by decide, ih⟩
  | escape _ he _ _ ih =>
      rw [List.forall_mem_cons, List.forall_mem_cons]
      refine ⟨by decide, ?_, ih⟩
      rcases isEscapable_iff.mp he with rfl | rfl <;> decide
  | byte hcontrol hdelete _ _ _ _ ih =>
      rw [List.forall_mem_cons]
      exact ⟨plain_of_isControl hcontrol hdelete, ih⟩

/-- The tokens read so far keep the limit on their size, too. -/
structure Scan.Bounded (s : Scan) : Prop extends s.Within where
  each : ∀ d ∈ s.tokens, d.length ≤ 4096

/-- A byte within the limits keeps the tokens bounded. -/
theorem Scan.Bounded.step {s : Scan} (h : s.Bounded) {c : Byte} (hlimit : (s.step c).Within) :
  (s.step c).Bounded
  := by
  use hlimit
  rw [Scan.step, Scan.flush]
  split_ifs
  · rw [List.forall_mem_append]
    use h.each
    simpa using h.token
  · apply h.each
  · apply h.each

/-- No step of the loop loses the limits. -/
theorem Scanned.bounded {text : Bytes} {s s' : Scan} (h : Scanned text s s') (hs : s.Bounded) :
  s'.Bounded
  := by
  induction h with
  | done s => apply hs
  | quote _ ih => apply ih ⟨⟨hs.token, hs.tokens⟩, hs.each⟩
  | escape _ _ hlimit _ ih => apply ih ⟨Scan.exceeded_eq_false_iff.mp hlimit, hs.each⟩
  | byte _ _ _ _ hlimit _ ih => apply ih (hs.step (Scan.exceeded_eq_false_iff.mp hlimit))

/-- The bounds of the tokens at the end of the scan. -/
theorem Scan.Bounded.allTokens {s : Scan} (h : s.Bounded) :
  (∀ d ∈ s.allTokens, d.length ≤ 4096) ∧ s.allTokens.length ≤ 68
  := by
  have htokens := h.tokens
  rw [Scan.allTokens]
  split
  · rw [List.forall_mem_append, List.length_append, List.length_singleton]
    refine ⟨⟨h.each, ?_⟩, ?_⟩
    · simpa using h.token
    · omega
  · use h.each
    omega

end OpenScumRcon
