import OpenScumRcon.Bytes

/-!
# Authority and the game thread

Every command carries the authority under which it was received, which is never read from
its text. Code that runs a command does so on the game thread: it acts on the state of the
game and may throw.
-/

namespace OpenScumRcon

inductive CommandAuthority where
  | none
  | authenticatedRcon
  deriving DecidableEq

def isRconAuthorized (authority : CommandAuthority) : Bool :=
  authority == .authenticatedRcon

/-- Only an authenticated RCON connection is authorized. -/
@[simp]
theorem isRconAuthorized_iff {authority : CommandAuthority} :
  isRconAuthorized authority = true ↔ authority = .authenticatedRcon
  := by
  rw [isRconAuthorized, beq_iff_eq]

/-- The reply to a command that is not authorized. -/
def authorityRequired : Bytes :=
  ascii "error: authenticated RCON connection required"

/-- What is thrown on the game thread: an exception that derives from `std::exception`, with
its description, or any other. -/
inductive Thrown where
  | exception (what : Bytes)
  | unknown
  deriving DecidableEq

/-- Code on the game thread. The effects on the state of the game stay when it throws. -/
abbrev GameM (σ α : Type) :=
  ExceptT Thrown (StateM σ) α

namespace GameM

variable {σ α β : Type}

/-- Code that only reads. -/
def ofExcept (x : Except Thrown α) : GameM σ α :=
  ExceptT.mk (pure x)

/-- What is thrown ends the code. -/
theorem run_bind (x : GameM σ α) (f : α → GameM σ β) (s : σ) :
  (x >>= f).run.run s =
    match x.run.run s with
    | (.ok a, s') => (f a).run.run s'
    | (.error thrown, s') => (.error thrown, s')
  := by
  simp only [ExceptT.run_bind, StateT.run_bind]
  rcases x.run.run s with ⟨thrown | a, s'⟩
  · rfl
  · rfl

theorem run_pure (a : α) (s : σ) :
  (pure a : GameM σ α).run.run s = (.ok a, s)
  := rfl

/-- A computation without state leaves it as it is. -/
theorem run_ofExcept (x : Except Thrown α) (s : σ) :
  (ofExcept x : GameM σ α).run.run s = (x, s)
  := rfl

theorem run_get (s : σ) :
  (get : GameM σ σ).run.run s = (.ok s, s)
  := rfl

theorem run_set (s s' : σ) :
  (set s' : GameM σ PUnit).run.run s = (.ok ⟨⟩, s')
  := rfl

theorem run_modify (f : σ → σ) (s : σ) :
  (modify f : GameM σ Unit).run.run s = (.ok (), f s)
  := rfl

/-! ### What code keeps -/

/-- However the code ends, the states before and after it are related. -/
structure Keeps (R : σ → σ → Prop) (x : GameM σ α) : Prop where
  related : ∀ s, R s (x.run.run s).2

variable {R : σ → σ → Prop}

theorem keeps_pure [Std.Refl R] (a : α) :
  Keeps R (pure a : GameM σ α)
  := ⟨fun s => Std.Refl.refl s⟩

/-- A computation without state keeps everything. -/
theorem keeps_ofExcept [Std.Refl R] (x : Except Thrown α) :
  Keeps R (ofExcept x : GameM σ α)
  := ⟨fun s => Std.Refl.refl s⟩

/-- Reading the state changes nothing of it. -/
theorem keeps_get [Std.Refl R] :
  Keeps R (get : GameM σ σ)
  := ⟨fun s => Std.Refl.refl s⟩

/-- What both parts keep, the sequence keeps. -/
theorem keeps_bind [IsTrans σ R] {x : GameM σ α} {f : α → GameM σ β} (hx : Keeps R x)
    (hf : ∀ a, Keeps R (f a)) :
  Keeps R (x >>= f)
  := by
  constructor
  intro s
  have h := hx.related s
  rw [run_bind]
  cases hrun : x.run.run s with
  | mk result s' =>
      rw [hrun] at h
      cases result with
      | error thrown => apply h
      | ok a => apply IsTrans.trans _ _ _ h ((hf a).related s')

end GameM

end OpenScumRcon
