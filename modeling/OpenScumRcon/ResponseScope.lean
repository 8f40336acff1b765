import OpenScumRcon.ResponseBuffer

/-!
# The scope of a reply

A `ResponseScope` collects the texts that the game sends in reply to one command. It joins
them with line feeds and cuts what exceeds its bounds.
-/

namespace OpenScumRcon

/-- A scope, with the one around it on the same thread. Scopes and commands are known by
their addresses, and the null address is zero. -/
structure ResponseScope where
  previous : Option ℕ
  command : ℕ
  output : Bytes := []
  count : ℕ := 0
  cut : Bool := false
  failed : Bool := false

/-- Which of the allocations succeed on the way of a message. -/
structure Allocations where
  wide : Bool := true
  text : Bool := true
  lineFeed : Bool := true
  output : Bool := true

namespace ResponseScope

def maxBytes : ℕ := 65536

def maxMessages : ℕ := 128

/-- Appends as much of the text as there is room for. -/
def append (scope : ResponseScope) (text : Bytes) (allocations : Allocations) : ResponseScope :=
  let n := utf8PrefixSize text (maxBytes - scope.output.length)
  if n ≠ 0 ∧ !allocations.output then { scope with failed := true }
  else
    { scope with
      output := scope.output ++ text.take n
      cut := scope.cut || decide (n ≠ text.length) }

/-- What `ResponseScope::accept` does to the scope of the command. -/
def accept (scope : ResponseScope) (text : Bytes) (allocations : Allocations) : ResponseScope :=
  let scope := { scope with count := scope.count + 1 }
  if maxMessages < scope.count then { scope with cut := true }
  else if scope.output ≠ [] ∧ text ≠ [] ∧ scope.output.getLast? ≠ some Byte.lineFeed then
    if scope.output.length = maxBytes then { scope with cut := true }
    else if !allocations.lineFeed then { scope with failed := true }
    else { scope with output := scope.output ++ [Byte.lineFeed] }.append text allocations
  else scope.append text allocations

/-- The scope is the same but for the texts it has collected. -/
structure Collects (scope scope' : ResponseScope) : Prop where
  previous : scope'.previous = scope.previous
  command : scope'.command = scope.command
  output : scope.output <+: scope'.output
  cut : scope.cut = true → scope'.cut = true

theorem collects_append (scope : ResponseScope) (text : Bytes) (allocations : Allocations) :
  scope.Collects (scope.append text allocations)
  := by
  rw [append]
  split
  · exact ⟨rfl, rfl, List.prefix_rfl, id⟩
  · refine ⟨rfl, rfl, List.prefix_append _ _, ?_⟩
    intro hcut
    dsimp only
    rw [hcut, Bool.true_or]

/-- `accept` adds to the text, and a cut stays marked. -/
theorem collects_accept (scope : ResponseScope) (text : Bytes) (allocations : Allocations) :
  scope.Collects (scope.accept text allocations)
  := by
  rw [accept]
  dsimp only
  split
  · exact ⟨rfl, rfl, List.prefix_rfl, fun _ => rfl⟩
  split
  · split
    · exact ⟨rfl, rfl, List.prefix_rfl, fun _ => rfl⟩
    split
    · exact ⟨rfl, rfl, List.prefix_rfl, id⟩
    · have hcollects := collects_append
        { scope with count := scope.count + 1, output := scope.output ++ [Byte.lineFeed] } text
        allocations
      use hcollects.previous, hcollects.command
      · apply (List.prefix_append _ _).trans hcollects.output
      · apply hcollects.cut
  · have hcollects := collects_append { scope with count := scope.count + 1 } text allocations
    exact ⟨hcollects.previous, hcollects.command, hcollects.output, hcollects.cut⟩

/-- The scope fails only when an allocation does. -/
theorem failed_append (scope : ResponseScope) (text : Bytes) {allocations : Allocations}
    (h : allocations.output = true) :
  (scope.append text allocations).failed = scope.failed
  := by
  rw [append]
  rw [if_neg]
  simp [h]

/-- Without a failing allocation the failure mark stays as it is. -/
theorem failed_accept (scope : ResponseScope) (text : Bytes) {allocations : Allocations}
    (hlineFeed : allocations.lineFeed = true) (houtput : allocations.output = true) :
  (scope.accept text allocations).failed = scope.failed
  := by
  rw [accept]
  dsimp only
  split
  · rfl
  split
  · split
    · rfl
    · rw [hlineFeed, Bool.not_true, if_neg Bool.false_ne_true, failed_append _ _ houtput]
  · rw [failed_append _ _ houtput]

/-! ### Bounds -/

/-- The scope keeps within its bound. -/
def Bounded (scope : ResponseScope) : Prop :=
  scope.output.length ≤ maxBytes

theorem Bounded.append {scope : ResponseScope} (h : scope.Bounded) (text : Bytes)
    (allocations : Allocations) :
  (scope.append text allocations).Bounded
  := by
  rw [ResponseScope.append]
  split
  · apply h
  · have hle := utf8PrefixSize_le_limit text (maxBytes - scope.output.length)
    rw [Bounded] at h ⊢
    dsimp only
    rw [List.length_append, List.length_take]
    omega

/-- `accept` keeps text and count within their bounds. -/
theorem Bounded.accept {scope : ResponseScope} (h : scope.Bounded) (text : Bytes)
    (allocations : Allocations) :
  (scope.accept text allocations).Bounded
  := by
  rw [ResponseScope.accept]
  dsimp only
  split
  · apply h
  split
  · split
    · apply h
    next hroom =>
    split
    · apply h
    · apply Bounded.append
      rw [Bounded] at h ⊢
      rw [List.length_append, List.length_singleton]
      omega
  · apply Bounded.append
    apply h

end ResponseScope

end OpenScumRcon
