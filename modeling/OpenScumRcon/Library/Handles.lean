import Mathlib.Data.List.Count
import Mathlib.Data.List.Nodup

/-!
# Handles

A program obtains handles, uses them and closes them. What it does is a list of events,
oldest first, and handles are numbered in the order in which they are obtained. The events
are accounted for when the handles that are held are those that have been obtained and not
closed, every other one has been closed exactly once, and none is touched after that.
-/

namespace Handles

/-- What happens to a handle. -/
inductive Event (κ : Type*) where
  | opened (x : ℕ)
  | used (call : κ) (x : ℕ)
  | closed (x : ℕ)
  deriving DecidableEq

variable {κ : Type*}

/-- The handle that must not be closed when the event happens. -/
def Event.touched : Event κ → Option ℕ
  | .opened _ => none
  | .used _ x => some x
  | .closed x => some x

/-- No handle is used or closed after it has been closed. -/
def Ordered (events : List (Event κ)) : Prop :=
  events.Pairwise fun earlier later => ∀ x, earlier = .closed x → later.touched ≠ some x

/-- One more event is in order when its handle is not closed. -/
theorem Ordered.append {events : List (Event κ)} (h : Ordered events) {e : Event κ}
    (he : ∀ x, e.touched = some x → Event.closed x ∉ events) :
  Ordered (events ++ [e])
  := by
  rw [Ordered, List.pairwise_append]
  use h, List.pairwise_singleton _ _
  rintro earlier hearlier _ hlater x rfl
  rw [List.mem_singleton.mp hlater]
  intro htouched
  apply he x htouched hearlier

variable [DecidableEq κ]

/-- The events account for the handles that are held. -/
structure Accounted (held : List ℕ) (next : ℕ) (events : List (Event κ)) : Prop where
  nodup : held.Nodup
  held_lt : ∀ x ∈ held, x < next
  ordered : Ordered events
  open_held : ∀ x ∈ held, Event.closed x ∉ events
  closed_lt : ∀ x, Event.closed x ∈ events → x < next
  closed_once : ∀ x < next, x ∉ held → events.count (.closed x) = 1

variable {held : List ℕ} {next : ℕ} {events : List (Event κ)}

theorem accounted_nil :
  Accounted [] 0 ([] : List (Event κ))
  := by
  constructor <;> simp [Ordered]

/-- A new handle is held. -/
theorem Accounted.open (h : Accounted held next events) :
  Accounted (next :: held) (next + 1) (events ++ [.opened next])
  := by
  have hclosed : ∀ x, Event.closed x ∈ events ++ [.opened next] ↔ Event.closed x ∈ events := by
    simp
  constructor
  · rw [List.nodup_cons]
    use fun hmem => Nat.lt_irrefl _ (h.held_lt _ hmem), h.nodup
  · rw [List.forall_mem_cons]
    use Nat.lt_succ_self _
    intro x hx
    apply Nat.lt_succ_of_lt (h.held_lt x hx)
  · apply h.ordered.append
    intro x htouched
    cases htouched
  · intro x hx
    rw [hclosed]
    rcases List.mem_cons.mp hx with rfl | hx
    · intro hmem
      apply Nat.lt_irrefl _ (h.closed_lt _ hmem)
    · apply h.open_held x hx
  · intro x hx
    apply Nat.lt_succ_of_lt (h.closed_lt x ((hclosed x).mp hx))
  · intro x hx hheld
    rw [List.mem_cons, not_or] at hheld
    rw [List.count_append, h.closed_once x (by omega) hheld.2]
    rfl

/-- A held handle may be used. -/
theorem Accounted.use (h : Accounted held next events) {x : ℕ} (hx : x ∈ held) (call : κ) :
  Accounted held next (events ++ [.used call x])
  := by
  have hclosed : ∀ y, Event.closed y ∈ events ++ [.used call x] ↔ Event.closed y ∈ events := by
    simp
  constructor
  · apply h.nodup
  · apply h.held_lt
  · apply h.ordered.append
    rintro y ⟨⟩
    apply h.open_held x hx
  · intro y hy
    rw [hclosed]
    apply h.open_held y hy
  · intro y hy
    apply h.closed_lt y ((hclosed y).mp hy)
  · intro y hy hheld
    rw [List.count_append, h.closed_once y hy hheld]
    rfl

/-- A held handle may be closed, and is then no longer held. -/
theorem Accounted.close (h : Accounted held next events) {x : ℕ} (hx : x ∈ held) :
  Accounted (held.erase x) next (events ++ [.closed x])
  := by
  constructor
  · apply h.nodup.erase
  · intro y hy
    apply h.held_lt y (List.mem_of_mem_erase hy)
  · apply h.ordered.append
    rintro y ⟨⟩
    apply h.open_held x hx
  · intro y hy hmem
    obtain ⟨hne, hy⟩ := h.nodup.mem_erase_iff.mp hy
    rcases List.mem_append.mp hmem with hmem | hmem
    · apply h.open_held y hy hmem
    · rw [List.mem_singleton] at hmem
      apply hne (Event.closed.inj hmem)
  · intro y hy
    rcases List.mem_append.mp hy with hy | hy
    · apply h.closed_lt y hy
    · obtain rfl := Event.closed.inj (List.mem_singleton.mp hy)
      apply h.held_lt y hx
  · intro y hy hheld
    rw [List.count_append]
    by_cases heq : y = x
    · obtain rfl := heq
      rw [List.count_eq_zero.mpr (h.open_held y hx), List.count_singleton_self]
    · have hheld' : y ∉ held := fun hmem => hheld (h.nodup.mem_erase_iff.mpr ⟨heq, hmem⟩)
      rw [h.closed_once y hy hheld', List.count_eq_zero.mpr]
      simpa using heq

end Handles
