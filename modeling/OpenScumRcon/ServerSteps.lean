import OpenScumRcon.ServerThreads

/-!
# What the process needs of the server

The handler of the worker, as far as it can change: only a step of the worker changes it, and only
`accept` starts one. The worker runs with the password that `start` has been given.
-/

namespace OpenScumRcon

/-- The handler of the worker, unless it is about to close its socket. -/
def Worker.handler : Worker → Option Handler
  | .handling _ _ .closing => none
  | .handling _ _ handler => some handler
  | _ => none

theorem Worker.handler_handling {l client : ℕ} {handler : Handler} (h : handler ≠ .closing) :
  (Worker.handling l client handler).handler = some handler
  := by
  cases handler with
  | closing => cases h rfl
  | _ => rfl

namespace RconServer

/-- A worker that runs has been given the password. -/
def Keyed (password : Bytes) (s : RconServer) : Prop :=
  s.password = password ∨ s.worker = .ended ∧ s.owner ≠ .starting

variable {s : RconServer} {password : Bytes}

theorem step_worker (h : s.terminated = false) (outcome : Outcome) :
  s.step (.worker outcome) = s.run outcome
  := by
  rw [step, h]
  rfl

/-- The worker changes neither the password nor the owner. -/
theorem run_keeps (s : RconServer) (outcome : Outcome) :
  (s.run outcome).password = s.password ∧ (s.run outcome).owner = s.owner
  := by
  have hran := ran s outcome
  generalize s.run outcome = s' at hran
  cases hran with
  | moved h => exact ⟨rfl, rfl⟩
  | published h => exact ⟨rfl, rfl⟩
  | finished h => exact ⟨rfl, rfl⟩
  | ended h => exact ⟨rfl, rfl⟩

/-- The worker's step keeps the password of its handlers. -/
theorem Keyed.run (h : s.Keyed password) (outcome : Outcome) :
  (s.run outcome).Keyed password
  := by
  obtain ⟨hpassword, howner⟩ := s.run_keeps outcome
  rcases h with heq | ⟨hended, hstarting⟩
  · left
    rw [hpassword, heq]
  · right
    rw [howner, RconServer.run, hended]
    exact ⟨hended, hstarting⟩

/-- The worker comes to handle a connection only from `accept`. -/
theorem handler_run (h : s.worker.handler = none) (haccepting : ∀ l, s.worker ≠ .accepting l)
    (outcome : Outcome) :
  (s.run outcome).worker.handler = none
  := by
  rw [run]
  cases hworker : s.worker with
  | startup => cases outcome.ok <;> rfl
  | socket => cases outcome.ok <;> rfl
  | setsockopt l => rfl
  | bind l => cases outcome.ok <;> rfl
  | listen l => cases outcome.ok <;> rfl
  | publish l => rfl
  | check l => cases s.running <;> rfl
  | accept l => rfl
  | accepting l => cases haccepting l hworker
  | handling l client handler =>
      rw [hworker] at h
      cases handler with
      | closing => rfl
      | _ => cases h
  | closing l => rfl
  | finish => rfl
  | ended =>
      dsimp only
      rw [hworker]
      rfl

/-- From `accept` the worker serves a client or closes its listening socket. -/
theorem run_accepting {l : ℕ} (hworker : s.worker = .accepting l) (outcome : Outcome) :
  (∃ client, (s.run outcome).worker = .handling l client (.readAuth .start)) ∨
    (s.run outcome).worker = .closing l
  := by
  rw [run, hworker]
  dsimp only
  split
  · left
    use s.sockets
    rfl
  · right
    rfl

theorem returned_ne_starting (last : Bool) :
  returned last ≠ .starting
  := by
  cases last <;> simp [returned]

/-- An owner that does not create a worker leaves it alone. -/
theorem proceed_keeps (h : s.owner ≠ .starting) :
  s.proceed.worker = s.worker ∧ s.proceed.password = s.password ∧ s.proceed.owner ≠ .starting
  := by
  rw [proceed]
  cases howner : s.owner with
  | idle => exact ⟨rfl, rfl, h⟩
  | starting => cases h howner
  | assigning =>
      dsimp only
      split
      · exact ⟨rfl, rfl, by simp⟩
      · exact ⟨rfl, rfl, by simp⟩
  | stopping last => cases s.listenSocket <;> exact ⟨rfl, rfl, by simp⟩
  | closing last l => exact ⟨rfl, rfl, by simp⟩
  | joining last =>
      dsimp only
      split
      · split
        · exact ⟨rfl, rfl, returned_ne_starting last⟩
        · exact ⟨rfl, rfl, h⟩
      · exact ⟨rfl, rfl, returned_ne_starting last⟩
  | destroying =>
      dsimp only
      split
      · exact ⟨rfl, rfl, by simp⟩
      · exact ⟨rfl, rfl, by simp⟩
  | gone => exact ⟨rfl, rfl, h⟩

/-- What the owner does leaves the handler of the worker alone, and a worker that it creates is
given the password. -/
theorem step_owner (h : s.Inv) (hkeyed : s.Keyed password) {a : Action}
    (ha : a = .start password ∨ a = .stop ∨ a = .destroy ∨ a = .owner) :
  (s.step a).worker.handler = s.worker.handler ∧ (s.step a).Keyed password
  := by
  have hstop : ∀ last, (s.stop last).worker.handler = s.worker.handler ∧
      (s.stop last).Keyed password := by
    intro last
    rw [stop]
    split
    · use rfl
      rcases hkeyed with heq | ⟨hended, -⟩
      · exact .inl heq
      · exact .inr ⟨hended, by simp⟩
    · use rfl
      rcases hkeyed with heq | ⟨hended, -⟩
      · exact .inl heq
      · exact .inr ⟨hended, returned_ne_starting last⟩
  rw [step]
  split
  · exact ⟨rfl, hkeyed⟩
  rcases ha with rfl | rfl | rfl | rfl
  · rw [act]
    split
    · split
      · exact ⟨rfl, hkeyed⟩
      · exact ⟨rfl, .inl rfl⟩
    · exact ⟨rfl, hkeyed⟩
  · rw [act]
    split
    · apply hstop
    · exact ⟨rfl, hkeyed⟩
  · rw [act]
    split
    · apply hstop
    · exact ⟨rfl, hkeyed⟩
  · rw [act]
    by_cases howner : s.owner = .starting
    · -- there is no worker when a new one is created
      have hended := (h.starting howner).2
      rw [proceed, howner]
      constructor
      · rw [hended]
        rfl
      · rcases hkeyed with heq | ⟨-, hstarting⟩
        · exact .inl heq
        · cases hstarting howner
    · obtain ⟨hworker, hpassword, hstarting⟩ := proceed_keeps howner
      rw [hworker]
      use rfl
      rcases hkeyed with heq | ⟨hended, -⟩
      · left
        rw [hpassword, heq]
      · right
        rw [hworker]
        exact ⟨hended, hstarting⟩

end RconServer

end OpenScumRcon
