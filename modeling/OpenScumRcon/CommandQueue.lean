import OpenScumRcon.CommandAuthority
import OpenScumRcon.Library.Handoff
import Mathlib.Logic.Function.Basic

/-!
# The command queue

`CommandQueue` hands commands from the threads that receive them to the game thread, and a
promise in every item hands the response back. `Exchange` is what the threads share through
it: the queue, the promises, and the items of the batch the game thread is processing,
together with the history of what has been enqueued and what has been dispatched.

Every operation on the exchange is a step of `Handoff` or none, so every authorized command
is accounted for once and in order. The promise of an item is set when the item has been
processed, and only then.
-/

namespace OpenScumRcon

/-! ### The queue and the promises -/

/-- An item of the queue. Its promise is referred to by a number. -/
structure PendingCommand where
  commandText : Bytes
  response : ℕ
  authority : CommandAuthority := .none
  deriving DecidableEq

structure CommandQueue where
  pending : List PendingCommand := []

/-- The promises made so far, and the values of those that have been set. -/
structure Promises where
  count : ℕ := 0
  value : ℕ → Option Bytes := fun _ => none

/-- A new promise. -/
def Promises.make (promises : Promises) : ℕ × Promises :=
  (promises.count, { promises with count := promises.count + 1 })

/-- `std::promise::set_value`. There is no result when it throws because the promise has a
value already. -/
def Promises.setValue (promises : Promises) (promise : ℕ) (value : Bytes) : Option Promises :=
  if (promises.value promise).isSome then none
  else some { promises with value := Function.update promises.value promise (some value) }

/-- The future of a command that is enqueued. A command without authority is answered at
once and never reaches the queue. -/
def CommandQueue.enqueue (queue : CommandQueue) (promises : Promises) (commandText : Bytes)
    (authority : CommandAuthority) : Option (ℕ × CommandQueue × Promises) :=
  let (promise, promises) := promises.make
  if !isRconAuthorized authority then
    (promises.setValue promise authorityRequired).map (fun promises => (promise, queue, promises))
  else
    some (promise, { pending := queue.pending ++ [{ commandText, response := promise, authority }] },
      promises)

/-- All pending commands are taken out of the queue. -/
def CommandQueue.drain (queue : CommandQueue) : List PendingCommand × CommandQueue :=
  (queue.pending, {})

/-! ### The exchange -/

variable {ο : Type}

/-- What the threads share. An item is in `batch` while the game thread processes the items
it has drained, and `failed` tells that `set_value` has thrown. In the history, every
authorized command comes with its origin and every dispatched one with its response. -/
structure Exchange (ο : Type) where
  queue : CommandQueue := {}
  promises : Promises := {}
  batch : List PendingCommand := []
  failed : Bool := false
  enqueued : List (PendingCommand × ο) := []
  dispatched : List (PendingCommand × Bytes) := []

namespace Exchange

def enqueue (x : Exchange ο) (commandText : Bytes) (authority : CommandAuthority) (origin : ο) :
    Option ℕ × Exchange ο :=
  match x.queue.enqueue x.promises commandText authority with
  | none => (none, { x with failed := true })
  | some (future, queue, promises) =>
      let item : PendingCommand := { commandText, response := future, authority }
      (some future,
        { x with
          queue, promises
          enqueued := if isRconAuthorized authority then x.enqueued ++ [(item, origin)]
            else x.enqueued })

/-- The game thread drains the queue when it is done with the last batch. -/
def drain (x : Exchange ο) : Exchange ο :=
  match x.batch with
  | [] =>
      let (items, queue) := x.queue.drain
      { x with queue, batch := items }
  | _ :: _ => x

/-- The promise of the first item of the batch is set. An exception ends the loop, and what
is left of the batch is lost. -/
def settle (x : Exchange ο) (item : PendingCommand) (rest : List PendingCommand)
    (response : Bytes) : Exchange ο :=
  match x.promises.setValue item.response response with
  | some promises => { x with promises, batch := rest }
  | none => { x with failed := true, batch := [] }

/-- The first item of the batch has been dispatched. -/
def complete (x : Exchange ο) (item : PendingCommand) (rest : List PendingCommand)
    (response : Bytes) : Exchange ο :=
  { x.settle item rest response with dispatched := x.dispatched ++ [(item, response)] }

/-- The hand-off of the authorized commands. -/
def handoff (x : Exchange ο) : Handoff PendingCommand Bytes where
  submitted := x.enqueued.map Prod.fst
  pending := x.queue.pending
  batch := x.batch
  finished := x.dispatched

/-- What holds between the operations. -/
structure Inv (x : Exchange ο) : Prop where
  ok : x.failed = false
  accounted : x.handoff.Accounted PendingCommand.response
  authority : ∀ item ∈ x.handoff.submitted, item.authority = .authenticatedRcon
  made : ∀ item ∈ x.handoff.submitted, item.response < x.promises.count
  unmade : ∀ promise, x.promises.count ≤ promise → x.promises.value promise = none
  unset : ∀ item ∈ x.batch ++ x.queue.pending, x.promises.value item.response = none
  set : ∀ d ∈ x.dispatched, x.promises.value d.1.response = some d.2

theorem inv_empty :
  Inv ({} : Exchange ο)
  := by
  constructor
  · rfl
  · apply Handoff.accounted_empty
  · simp [handoff]
  · simp [handoff]
  · simp
  · simp
  · simp

/-! ### Enqueuing -/

/-- A command with authority gets a new promise and goes to the end of the queue. -/
theorem enqueue_of_authorized (x : Exchange ο) (commandText : Bytes) (origin : ο) :
  x.enqueue commandText .authenticatedRcon origin
    = (some x.promises.count,
      { x with
        queue := { pending := x.queue.pending ++
          [⟨commandText, x.promises.count, .authenticatedRcon⟩] }
        promises := { x.promises with count := x.promises.count + 1 }
        enqueued := x.enqueued ++
          [(⟨commandText, x.promises.count, .authenticatedRcon⟩, origin)] })
  := rfl

/-- A command without authority only gets a promise that is set. -/
theorem enqueue_of_unauthorized {x : Exchange ο} (h : x.Inv) (commandText : Bytes)
    {authority : CommandAuthority} (hauthority : authority ≠ .authenticatedRcon) (origin : ο) :
  x.enqueue commandText authority origin
    = (some x.promises.count,
      { x with
        promises :=
          { count := x.promises.count + 1
            value := Function.update x.promises.value x.promises.count
              (some authorityRequired) } })
  := by
  have hnot : isRconAuthorized authority = false := by
    rw [Bool.eq_false_iff, ne_eq, isRconAuthorized_iff]
    apply hauthority
  have hunset := h.unmade x.promises.count (Nat.le_refl _)
  simp [enqueue, CommandQueue.enqueue, Promises.make, Promises.setValue, hnot, hunset]

theorem Inv.fresh {x : Exchange ο} (h : x.Inv) :
  x.promises.count ∉ x.handoff.submitted.map PendingCommand.response
  := by
  intro hmem
  obtain ⟨item, hitem, heq⟩ := List.mem_map.mp hmem
  have hlt := h.made item hitem
  omega

/-- Enqueuing a command with authority submits it. -/
theorem Inv.step_enqueue {x : Exchange ο} (h : x.Inv) (commandText : Bytes) (origin : ο) :
  Handoff.Step PendingCommand.response x.handoff
    (x.enqueue commandText .authenticatedRcon origin).2.handoff
  := by
  rw [enqueue_of_authorized]
  have hstep := Handoff.Step.submit (h := x.handoff)
    (⟨commandText, x.promises.count, .authenticatedRcon⟩ : PendingCommand) h.fresh
  simpa [handoff] using hstep

/-- An authorized command joins the queue. -/
theorem Inv.enqueue_authorized {x : Exchange ο} (h : x.Inv) (commandText : Bytes) (origin : ο) :
  (x.enqueue commandText .authenticatedRcon origin).2.Inv
  := by
  have haccounted := (h.step_enqueue commandText origin).accounted h.accounted
  rw [enqueue_of_authorized] at haccounted ⊢
  refine ⟨h.ok, haccounted, ?_, ?_, ?_, ?_, h.set⟩
  · simp only [handoff, List.map_append, List.forall_mem_append]
    use h.authority
    simp
  · simp only [handoff, List.map_append, List.forall_mem_append]
    constructor
    · intro item hitem
      apply Nat.lt_succ_of_lt (h.made item hitem)
    · simp
  · intro promise hle
    apply h.unmade promise (Nat.le_of_succ_le hle)
  · have hunset := h.unset
    rw [List.forall_mem_append] at hunset
    simp only [List.forall_mem_append, List.forall_mem_singleton]
    exact ⟨hunset.1, hunset.2, h.unmade _ (Nat.le_refl _)⟩

/-- An unauthorized command is answered on the spot, and the queue stays as it is. -/
theorem Inv.enqueue_unauthorized {x : Exchange ο} (h : x.Inv) (commandText : Bytes)
    {authority : CommandAuthority} (hauthority : authority ≠ .authenticatedRcon) (origin : ο) :
  (x.enqueue commandText authority origin).2.Inv
  := by
  rw [enqueue_of_unauthorized h commandText hauthority origin]
  have hother : ∀ item ∈ x.handoff.submitted, item.response ≠ x.promises.count := by
    intro item hitem
    apply Nat.ne_of_lt (h.made item hitem)
  refine ⟨h.ok, h.accounted, h.authority, ?_, ?_, ?_, ?_⟩
  · intro item hitem
    apply Nat.lt_succ_of_lt (h.made item hitem)
  · intro promise hle
    dsimp only at hle ⊢
    rw [Function.update_of_ne (by omega)]
    apply h.unmade promise (Nat.le_of_succ_le hle)
  · intro item hitem
    have hmem : item ∈ x.handoff.submitted := by
      rw [h.accounted.order, List.append_assoc]
      apply List.mem_append_right _ hitem
    dsimp only
    rw [Function.update_of_ne (hother item hmem)]
    apply h.unset item hitem
  · intro d hd
    have hmem : d.1 ∈ x.handoff.submitted := by
      rw [h.accounted.order, List.append_assoc]
      apply List.mem_append_left _ (List.mem_map_of_mem hd)
    dsimp only
    rw [Function.update_of_ne (hother d.1 hmem)]
    apply h.set d hd

/-- Any `enqueue` keeps the invariant. -/
theorem Inv.enqueue {x : Exchange ο} (h : x.Inv) (commandText : Bytes)
    (authority : CommandAuthority) (origin : ο) :
  (x.enqueue commandText authority origin).2.Inv
  := by
  by_cases hauthority : authority = .authenticatedRcon
  · obtain rfl := hauthority
    apply h.enqueue_authorized
  · apply h.enqueue_unauthorized _ hauthority

/-! ### Draining and processing -/

theorem Inv.step_drain {x : Exchange ο} (hbatch : x.batch = []) :
  Handoff.Step PendingCommand.response x.handoff x.drain.handoff
  := by
  have hstep : Handoff.Step PendingCommand.response x.handoff
      { x.handoff with batch := x.handoff.pending, pending := [] } :=
    Handoff.Step.take hbatch
  simpa [drain, handoff, hbatch, CommandQueue.drain] using hstep

theorem drain_of_ne_nil {x : Exchange ο} (hbatch : x.batch ≠ []) :
  x.drain = x
  := by
  obtain ⟨item, rest, hcons⟩ := List.exists_cons_of_ne_nil hbatch
  simp [drain, hcons]

theorem drain_history (x : Exchange ο) :
  x.drain.enqueued = x.enqueued ∧ x.drain.dispatched = x.dispatched
  := by
  rcases hbatch : x.batch with _ | ⟨item, rest⟩
  · simp [drain, hbatch]
  · simp [drain, hbatch]

theorem Inv.drain {x : Exchange ο} (h : x.Inv) :
  x.drain.Inv
  := by
  rcases eq_or_ne x.batch [] with hbatch | hbatch
  · have haccounted := (step_drain hbatch).accounted h.accounted
    have hunset := h.unset
    rw [hbatch, List.nil_append] at hunset
    simp only [Exchange.drain, hbatch, CommandQueue.drain] at haccounted ⊢
    refine ⟨h.ok, haccounted, h.authority, h.made, h.unmade, ?_, h.set⟩
    rw [List.append_nil]
    apply hunset
  · rw [drain_of_ne_nil hbatch]
    apply h

/-- The promise of an item of the batch is not set, so setting it does not throw. -/
theorem complete_eq {x : Exchange ο} (h : x.Inv) {item : PendingCommand}
    {rest : List PendingCommand} (hbatch : x.batch = item :: rest) (response : Bytes) :
  x.complete item rest response
    = { x with
        promises := { x.promises with
          value := Function.update x.promises.value item.response (some response) }
        batch := rest
        dispatched := x.dispatched ++ [(item, response)] }
  := by
  have hunset := h.unset item (by simp [hbatch])
  simp [complete, settle, Promises.setValue, hunset]

/-- One command of the batch becomes a completed one. -/
theorem Inv.step_complete {x : Exchange ο} (h : x.Inv) {item : PendingCommand}
    {rest : List PendingCommand} (hbatch : x.batch = item :: rest) (response : Bytes) :
  Handoff.Step PendingCommand.response x.handoff (x.complete item rest response).handoff
  := by
  rw [complete_eq h hbatch]
  apply Handoff.Step.finish item rest response hbatch

/-- Setting the promise of the batch's first command keeps the invariant. -/
theorem Inv.complete {x : Exchange ο} (h : x.Inv) {item : PendingCommand}
    {rest : List PendingCommand} (hbatch : x.batch = item :: rest) (response : Bytes) :
  (x.complete item rest response).Inv
  := by
  have haccounted := (h.step_complete hbatch response).accounted h.accounted
  have hmem : item ∈ x.handoff.submitted := by
    rw [h.accounted.order]
    simp [handoff, hbatch]
  have hlt := h.made item hmem
  rw [complete_eq h hbatch] at haccounted ⊢
  refine ⟨h.ok, haccounted, h.authority, h.made, ?_, ?_, ?_⟩
  · intro promise hle
    dsimp only at hle ⊢
    rw [Function.update_of_ne (by omega)]
    apply h.unmade promise hle
  · -- the other items that wait have other promises
    intro other hother
    have hfinished := haccounted.not_finished hother (item, response) (by simp [handoff])
    dsimp only
    rw [Function.update_of_ne (Ne.symm hfinished)]
    apply h.unset other
    rw [hbatch, List.cons_append]
    apply List.mem_cons_of_mem _ hother
  · dsimp only
    rw [List.forall_mem_append, List.forall_mem_singleton]
    constructor
    · intro d hd
      have hfinished := h.accounted.not_finished (a := item) (by simp [handoff, hbatch]) d hd
      rw [Function.update_of_ne hfinished]
      apply h.set d hd
    · rw [Function.update_self]

/-- A set promise of an authorized command has the response with which the command was
dispatched. -/
theorem Inv.mem_dispatched {x : Exchange ο} (h : x.Inv) {item : PendingCommand}
    (hitem : item ∈ x.handoff.submitted) {response : Bytes}
    (hvalue : x.promises.value item.response = some response) :
  (item, response) ∈ x.dispatched
  := by
  rcases h.accounted.cases hitem with ⟨value, hd⟩ | hwaiting
  · have hset := h.set (item, value) hd
    rw [hvalue, Option.some.injEq] at hset
    rw [hset]
    apply hd
  · rw [h.unset item hwaiting] at hvalue
    cases hvalue

end Exchange

end OpenScumRcon
