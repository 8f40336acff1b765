import Mathlib.Data.List.Nodup
import Mathlib.Logic.Function.Basic

/-!
# Linked stacks

Stacks in a heap, each known by the location of its top node, whose nodes are linked to the
ones below them. The stacks share no node, so pushing on one of them, popping one, or
changing a node without its link leaves all others as they are.
-/

namespace LinkedStack

variable {ι L N : Type*} {below : N → Option L} {heap : L → Option N}

/-- The locations of the nodes of a stack, from its top down. -/
inductive Linked (below : N → Option L) (heap : L → Option N) : Option L → List L → Prop where
  | nil : Linked below heap none []
  | cons {l : L} {node : N} {stack : List L} (hnode : heap l = some node)
      (hbelow : Linked below heap (below node) stack) : Linked below heap (some l) (l :: stack)

theorem Linked.top_eq {top : Option L} {stack : List L} (h : Linked below heap top stack) :
  top = stack.head?
  := by
  cases h <;> rfl

/-- A stack depends on the links of its own nodes only. -/
theorem Linked.congr {heap' : L → Option N} {top : Option L} {stack : List L}
    (h : Linked below heap top stack)
    (heap_eq : ∀ l ∈ stack, (heap' l).map below = (heap l).map below) :
  Linked below heap' top stack
  := by
  induction h with
  | nil => apply Linked.nil
  | @cons l node stack hnode hbelow ih =>
      rw [List.forall_mem_cons] at heap_eq
      obtain ⟨hl, hstack⟩ := heap_eq
      rw [hnode, Option.map_some, Option.map_eq_some_iff] at hl
      obtain ⟨node', hnode', hsame⟩ := hl
      apply Linked.cons hnode'
      rw [hsame]
      apply ih hstack

/-- The stacks with the given tops. -/
structure Stacks (below : N → Option L) (heap : L → Option N) (tops : ι → Option L)
    (stackOf : ι → List L) : Prop where
  linked : ∀ t, Linked below heap (tops t) (stackOf t)
  nodup : ∀ t, (stackOf t).Nodup
  disjoint : ∀ t u, t ≠ u → (stackOf t).Disjoint (stackOf u)

variable {tops : ι → Option L} {stackOf : ι → List L}

theorem stacks_empty (below : N → Option L) (heap : L → Option N) :
  Stacks below heap (fun _ : ι => none) fun _ => []
  := by
  constructor
  · intro t
    apply Linked.nil
  · simp
  · simp

/-- A fresh node on top of one stack leaves the others as they are. -/
theorem Stacks.push [DecidableEq ι] [DecidableEq L] (h : Stacks below heap tops stackOf) (t : ι)
    {l : L} {node : N} (hfresh : ∀ u, l ∉ stackOf u) (hbelow : below node = tops t) :
  Stacks below (Function.update heap l (some node)) (Function.update tops t (some l))
    (Function.update stackOf t (l :: stackOf t))
  := by
  have hlinked : ∀ u, Linked below (Function.update heap l (some node)) (tops u) (stackOf u) := by
    intro u
    apply (h.linked u).congr
    intro l' hl'
    rw [Function.update_of_ne]
    rintro rfl
    apply hfresh u hl'
  constructor
  · intro u
    rcases eq_or_ne u t with rfl | hne
    · rw [Function.update_self, Function.update_self]
      apply Linked.cons (Function.update_self ..)
      rw [hbelow]
      apply hlinked
    · rw [Function.update_of_ne hne, Function.update_of_ne hne]
      apply hlinked
  · intro u
    rcases eq_or_ne u t with rfl | hne
    · rw [Function.update_self]
      apply List.nodup_cons.mpr ⟨hfresh u, h.nodup u⟩
    · rw [Function.update_of_ne hne]
      apply h.nodup
  · intro u v huv
    rcases eq_or_ne u t with rfl | hne
    · rw [Function.update_self, Function.update_of_ne huv.symm, List.disjoint_cons_left]
      exact ⟨hfresh v, h.disjoint u v huv⟩
    · rw [Function.update_of_ne hne]
      rcases eq_or_ne v t with rfl | hne'
      · rw [Function.update_self, List.disjoint_cons_right]
        exact ⟨hfresh u, h.disjoint u v huv⟩
      · rw [Function.update_of_ne hne']
        apply h.disjoint u v huv

/-- The top of a stack is on no other stack, and not below itself. -/
theorem Stacks.top_not_mem (h : Stacks below heap tops stackOf) {t : ι} {l : L} {stack : List L}
    (hstack : stackOf t = l :: stack) :
  l ∉ stack ∧ ∀ u ≠ t, l ∉ stackOf u
  := by
  have hnodup := h.nodup t
  rw [hstack] at hnodup
  use (List.nodup_cons.mp hnodup).1
  intro u hne hl
  apply h.disjoint t u hne.symm _ hl
  rw [hstack]
  apply List.mem_cons_self

/-- Taking the top node of one stack leaves the others as they are. -/
theorem Stacks.pop [DecidableEq ι] [DecidableEq L] (h : Stacks below heap tops stackOf) {t : ι}
    {l : L} {stack : List L} (hstack : stackOf t = l :: stack) :
  Stacks below (Function.update heap l none)
    (Function.update tops t ((heap l).bind below)) (Function.update stackOf t stack)
  := by
  obtain ⟨hbelow, hothers⟩ := h.top_not_mem hstack
  have hkeep : ∀ {top : Option L} {stack : List L}, l ∉ stack → Linked below heap top stack →
      Linked below (Function.update heap l none) top stack := by
    intro top stack hl hlinked
    apply hlinked.congr
    intro l' hl'
    rw [Function.update_of_ne]
    rintro rfl
    apply hl hl'
  have hsub : ∀ l' ∈ stack, l' ∈ stackOf t := by
    intro l' hl'
    rw [hstack]
    apply List.mem_cons_of_mem _ hl'
  constructor
  · intro u
    rcases eq_or_ne u t with rfl | hne
    · rw [Function.update_self, Function.update_self]
      apply hkeep hbelow
      have hlinked := h.linked u
      rw [hstack] at hlinked
      generalize tops u = top at hlinked
      cases hlinked with
      | cons hnode hrest =>
          rw [hnode, Option.bind_some]
          apply hrest
    · rw [Function.update_of_ne hne, Function.update_of_ne hne]
      apply hkeep (hothers u hne) (h.linked u)
  · intro u
    rcases eq_or_ne u t with rfl | hne
    · rw [Function.update_self]
      have hnodup := h.nodup u
      rw [hstack] at hnodup
      apply (List.nodup_cons.mp hnodup).2
    · rw [Function.update_of_ne hne]
      apply h.nodup
  · intro u v huv
    rcases eq_or_ne u t with rfl | hne
    · rw [Function.update_self, Function.update_of_ne huv.symm]
      intro l' hl' hl''
      apply h.disjoint u v huv (hsub l' hl') hl''
    · rw [Function.update_of_ne hne]
      rcases eq_or_ne v t with rfl | hne'
      · rw [Function.update_self]
        intro l' hl' hl''
        apply h.disjoint u v huv hl' (hsub l' hl'')
      · rw [Function.update_of_ne hne']
        apply h.disjoint u v huv

/-- Changing a node without its link. -/
theorem Stacks.set [DecidableEq L] (h : Stacks below heap tops stackOf) {l : L}
    {node node' : N} (hnode : heap l = some node) (hbelow : below node' = below node) :
  Stacks below (Function.update heap l (some node')) tops stackOf
  := by
  constructor
  · intro t
    apply (h.linked t).congr
    intro l' _
    rcases eq_or_ne l' l with rfl | hne
    · rw [Function.update_self, hnode, Option.map_some, Option.map_some, hbelow]
    · rw [Function.update_of_ne hne]
  · apply h.nodup
  · apply h.disjoint

end LinkedStack
