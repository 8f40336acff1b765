import Mathlib.Control.Monad.Basic
import Mathlib.Data.List.Basic

/-!
# How code ends

Code that may throw ends with a value or with what it throws. `Ends` says what holds of either,
and `Yields` says it of code with a state, which also keeps an invariant of the state. The rules
follow the code: each takes it apart at a binding, a loop or a read of the state.
-/

namespace Ending

universe u

variable {ε σ : Type u} {α β : Type u}

/-! ### Code without a state -/

/-- The value has one property, or what is thrown has the other. -/
def Ends (T : ε → Prop) (Q : α → Prop) : Except ε α → Prop
  | .ok a => Q a
  | .error e => T e

variable {T : ε → Prop}

/-- Code behind code that may throw. -/
theorem ends_bind {Q : α → Prop} {R : β → Prop} {x : Except ε α} {f : α → Except ε β}
    (hx : Ends T Q x) (hf : ∀ a, Q a → Ends T R (f a)) :
  Ends T R (x >>= f)
  := by
  cases x with
  | ok a => apply hf a hx
  | error e => apply hx

/-- A loop that keeps a property of what it has collected. -/
theorem ends_foldlM {P : β → Prop} {f : β → α → Except ε β}
    (hf : ∀ b a, P b → Ends T P (f b a)) {b : β} (hb : P b) (items : List α) :
  Ends T P (items.foldlM f b)
  := by
  induction items generalizing b with
  | nil => apply hb
  | cons a items ih =>
      rw [List.foldlM_cons]
      apply ends_bind (hf b a hb)
      intro b' hb'
      apply ih hb'

/-- A list that is computed element by element. -/
theorem ends_mapM {Q : β → Prop} {f : α → Except ε β} (hf : ∀ a, Ends T Q (f a))
    (items : List α) :
  Ends T (fun bs => ∀ b ∈ bs, Q b) (items.mapM f)
  := by
  induction items with
  | nil =>
      rw [List.mapM_nil]
      intro b hb
      cases hb
  | cons a items ih =>
      rw [List.mapM_cons]
      apply ends_bind (hf a)
      intro b hb
      apply ends_bind ih
      intro bs hbs
      apply List.forall_mem_cons.mpr ⟨hb, hbs⟩

/-! ### Code with a state -/

/-- Started in a state with the invariant, the code ends so, in a state with the invariant. -/
def Yields (I : σ → Prop) (T : ε → Prop) (Q : α → Prop) (x : ExceptT ε (StateM σ) α) : Prop :=
  ∀ s, I s → Ends T Q (x.run.run s).1 ∧ I (x.run.run s).2

variable {I : σ → Prop} {Q : α → Prop} {R : β → Prop}

theorem yields_pure {a : α} (h : Q a) :
  Yields I T Q (pure a)
  := fun _ hs => ⟨h, hs⟩

theorem yields_throw {e : ε} (h : T e) :
  Yields I T Q (throw e)
  := fun _ hs => ⟨h, hs⟩

/-- What follows starts with a value and a state of which something is known. -/
theorem yields_bind {x : ExceptT ε (StateM σ) α} {f : α → ExceptT ε (StateM σ) β}
    (hx : Yields I T Q x) (hf : ∀ a, Q a → Yields I T R (f a)) :
  Yields I T R (x >>= f)
  := by
  intro s hs
  obtain ⟨hend, hinv⟩ := hx s hs
  simp only [ExceptT.run_bind, StateT.run_bind]
  rcases hrun : x.run.run s with ⟨e | a, s'⟩
  · rw [hrun] at hend hinv
    exact ⟨hend, hinv⟩
  · rw [hrun] at hend hinv
    apply hf a hend s' hinv

/-- A state that is read has the invariant. -/
theorem yields_get :
  Yields I T I (get : ExceptT ε (StateM σ) σ)
  := fun _ hs => ⟨hs, hs⟩

/-- A state may be replaced by one that has the invariant. -/
theorem yields_set {s' : σ} (h : I s') :
  Yields I T (fun _ => True) (set s' : ExceptT ε (StateM σ) PUnit)
  := fun _ _ => ⟨trivial, h⟩

/-- A state may be changed so that it keeps the invariant. -/
theorem yields_modify {f : σ → σ} (h : ∀ s, I s → I (f s)) :
  Yields I T (fun _ => True) (modify f : ExceptT ε (StateM σ) PUnit)
  := fun s hs => ⟨trivial, h s hs⟩

/-- Code without a state leaves the state as it is. -/
theorem yields_mk_pure {x : Except ε α} (h : Ends T Q x) :
  Yields I T Q (ExceptT.mk (pure x) : ExceptT ε (StateM σ) α)
  := fun _ hs => ⟨h, hs⟩

end Ending
