import OpenScumRcon.ResponseCapture

/-!
# The isolation of replies

`Live` is what the pointers of the scopes stand for: for each thread the scopes it has
constructed and not destroyed yet, the innermost one first. As long as constructions and
destructions are well nested, `current` is the first of them, so a call of the response
method goes to the innermost scope of the calling thread or to the original method, and to
nothing else.
-/

namespace OpenScumRcon

variable {ι : Type}

/-- The scopes that live on each thread, innermost first: their addresses, and the commands
they were constructed with. -/
abbrev Live (ι : Type) :=
  ι → List (ℕ × ℕ)

namespace Live

def step [DecidableEq ι] (live : Live ι) : ScopeAction ι → Live ι
  | .construct t i command => Function.update live t ((i, command) :: live t)
  | .destruct t _ => Function.update live t (live t).tail
  | .receive _ _ _ => live

/-- A scope is constructed where none lives, and only the innermost one of a thread is
destroyed. -/
def WellNested (live : Live ι) : ScopeAction ι → Prop
  | .construct _ i _ => ∀ u, i ∉ (live u).map Prod.fst
  | .destruct t i => (live t).head?.map Prod.fst = some i
  | .receive _ _ _ => True

def reached [DecidableEq ι] (actions : List (ScopeAction ι)) : Live ι :=
  Transition.run step (fun _ => []) actions

def addresses (live : Live ι) (t : ι) : List ℕ :=
  (live t).map Prod.fst

theorem addresses_of_cons {live : Live ι} {t : ι} {i command : ℕ} {rest : List (ℕ × ℕ)}
    (hlive : live t = (i, command) :: rest) :
  live.addresses t = i :: rest.map Prod.fst
  := by
  rw [addresses, hlive]
  rfl

/-- The innermost scope of the thread was constructed for the command. -/
def Owns (live : Live ι) (t : ι) (i command : ℕ) : Prop :=
  (live t).head? = some (i, command) ∧ command ≠ 0

end Live

namespace ResponseCapture

/-- The pointers of the scopes stand for the scopes that live. -/
structure Represents (s : ResponseCapture ι) (live : Live ι) : Prop where
  linked : LinkedStack.Stacks ResponseScope.previous s.scopes s.current live.addresses
  scope : ∀ t, ∀ x ∈ live t, ∃ scope, s.scopes x.1 = some scope ∧ scope.command = x.2 ∧
    scope.Bounded

variable {s : ResponseCapture ι} {live : Live ι}

theorem represents_empty :
  ({} : ResponseCapture ι).Represents fun _ => []
  := by
  constructor
  · apply LinkedStack.stacks_empty
  · simp

/-! ### The hook -/

theorem Represents.innermost_of_nil (h : s.Represents live) {t : ι} (hlive : live t = []) :
  s.innermost t = none
  := by
  have htop := (h.linked.linked t).top_eq
  rw [Live.addresses, hlive] at htop
  rw [innermost, htop]
  rfl

/-- A thread's innermost scope is the first of its live ones. -/
theorem Represents.innermost_of_cons (h : s.Represents live) {t : ι} {i command : ℕ}
    {rest : List (ℕ × ℕ)} (hlive : live t = (i, command) :: rest) :
  ∃ scope, s.innermost t = some (i, scope) ∧ s.scopes i = some scope ∧ scope.command = command ∧
    scope.Bounded
  := by
  have htop := (h.linked.linked t).top_eq
  rw [Live.addresses, hlive] at htop
  obtain ⟨scope, hscope, hcommand, hbounded⟩ := h.scope t (i, command) (by
    rw [hlive]
    apply List.mem_cons_self)
  use scope
  refine ⟨?_, hscope, hcommand, hbounded⟩
  rw [innermost, htop, List.map_cons, List.head?_cons]
  dsimp only
  rw [hscope, Option.map_some]

/-- A thread whose scopes are the same matches the same commands. -/
theorem Represents.doesMatch_congr (h : s.Represents live) {s' : ResponseCapture ι} {t : ι}
    (hscopes : ∀ x ∈ live t, s'.scopes x.1 = s.scopes x.1) (hcurrent : s'.current t = s.current t)
    (key : ℕ) :
  s'.doesMatch t key = s.doesMatch t key
  := by
  have hinnermost : s'.innermost t = s.innermost t := by
    have htop := (h.linked.linked t).top_eq
    rw [innermost, innermost, hcurrent, htop, Live.addresses]
    cases hlive : live t with
    | nil => rfl
    | cons x rest =>
        rw [List.map_cons, List.head?_cons]
        dsimp only
        rw [hscopes x (by rw [hlive]; apply List.mem_cons_self)]
  rw [doesMatch, doesMatch, hinnermost]

/-- The reply to a message, as a change of the scope it goes to. -/
def reply (scope : ResponseScope) (call : ResponseCall) (memory : MessageMemory) : ResponseScope :=
  match readMessage call.message memory with
  | none => { scope with failed := true }
  | some text => scope.accept text memory.allocations

theorem reply_previous (scope : ResponseScope) (call : ResponseCall) (memory : MessageMemory) :
  (reply scope call memory).previous = scope.previous
  := by
  rw [reply]
  split
  · rfl
  · apply (scope.collects_accept _ _).previous

theorem reply_command (scope : ResponseScope) (call : ResponseCall) (memory : MessageMemory) :
  (reply scope call memory).command = scope.command
  := by
  rw [reply]
  split
  · rfl
  · apply (scope.collects_accept _ _).command

theorem reply_bounded {scope : ResponseScope} (h : scope.Bounded) (call : ResponseCall)
    (memory : MessageMemory) :
  (reply scope call memory).Bounded
  := by
  rw [reply]
  split
  · apply h
  · apply h.accept

/-- A call for the command of the innermost scope changes that scope only. -/
theorem Represents.receive_of_owns (h : s.Represents live) {t : ι} {i : ℕ} {call : ResponseCall}
    (howns : live.Owns t i call.command) (memory : MessageMemory) :
  ∃ scope, s.scopes i = some scope ∧ scope.command = call.command ∧ scope.Bounded ∧
    s.receive t call memory = s.setScope i (reply scope call memory)
  := by
  obtain ⟨hhead, hne⟩ := howns
  obtain ⟨rest, hlive⟩ := List.head?_eq_some_iff.mp hhead
  obtain ⟨scope, hinnermost, hscope, hcommand, hbounded⟩ := h.innermost_of_cons hlive
  use scope, hscope, hcommand, hbounded
  have hmatch : s.doesMatch t call.command = true := by
    rw [doesMatch, hinnermost]
    simp [hne, hcommand]
  rw [receive, hmatch, Bool.not_true, if_neg Bool.false_ne_true, reply]
  cases readMessage call.message memory with
  | none =>
      dsimp only
      rw [failure, hinnermost]
  | some text =>
      dsimp only
      rw [accept, hmatch, Bool.not_true, if_neg Bool.false_ne_true, hinnermost]

/-- Every other call is one call of the original method. -/
theorem Represents.receive_of_not_owns (h : s.Represents live) {t : ι} {call : ResponseCall}
    (howns : ∀ i, ¬ live.Owns t i call.command) (memory : MessageMemory) :
  s.receive t call memory = { s with originals := s.originals ++ [(t, call)] }
  := by
  have hmatch : s.doesMatch t call.command = false := by
    cases hlive : live t with
    | nil => rw [doesMatch, h.innermost_of_nil hlive]
    | cons x rest =>
        obtain ⟨i, command⟩ := x
        obtain ⟨scope, hinnermost, -, hcommand, -⟩ := h.innermost_of_cons hlive
        rw [doesMatch, hinnermost]
        dsimp only
        rw [Bool.and_eq_false_iff]
        by_contra hmatch
        apply howns i
        simp only [not_or, Bool.not_eq_false, decide_eq_true_eq, beq_iff_eq] at hmatch
        rw [Live.Owns, hlive, List.head?_cons, ← hcommand, hmatch.2]
        exact ⟨rfl, hmatch.1⟩
  rw [receive, hmatch, Bool.not_false, if_pos rfl]

theorem cons_of_wellNested {t : ι} {i : ℕ} (hinnermost : live.WellNested (.destruct t i)) :
  ∃ command rest, live t = (i, command) :: rest
  := by
  obtain ⟨x, hx, rfl⟩ := Option.map_eq_some_iff.mp hinnermost
  obtain ⟨rest, hlive⟩ := List.head?_eq_some_iff.mp hx
  use x.2, rest

/-- A message changes no thread's scopes. -/
theorem Represents.receive (h : s.Represents live) (t : ι) (call : ResponseCall)
    (memory : MessageMemory) :
  (s.receive t call memory).Represents live
  := by
  by_cases howns : ∃ i, live.Owns t i call.command
  · obtain ⟨i, howns⟩ := howns
    obtain ⟨scope, hscope, -, hbounded, hreceive⟩ := h.receive_of_owns howns memory
    rw [hreceive, setScope]
    constructor
    · apply h.linked.set hscope (reply_previous _ _ _)
    · intro u x hx
      dsimp only
      obtain ⟨scope', hscope', hcommand', hbounded'⟩ := h.scope u x hx
      rcases eq_or_ne x.1 i with rfl | hne
      · rw [hscope] at hscope'
        obtain rfl := Option.some.inj hscope'
        rw [Function.update_self]
        use reply scope call memory, rfl
        rw [reply_command]
        use hcommand'
        apply reply_bounded hbounded
      · rw [Function.update_of_ne hne]
        use scope'
  · rw [h.receive_of_not_owns (not_exists.mp howns)]
    exact ⟨h.linked, h.scope⟩

/-- A call of the response method leaves alone what lives around an innermost scope. -/
theorem Represents.scopes_receive (h : s.Represents live) {t u : ι} (call : ResponseCall)
    (memory : MessageMemory) {x : ℕ × ℕ} (hx : x ∈ (live t).tail) :
  (s.receive u call memory).scopes x.1 = s.scopes x.1
  := by
  by_cases howns : ∃ i, live.Owns u i call.command
  · obtain ⟨i, howns⟩ := howns
    obtain ⟨scope, -, -, -, hreceive⟩ := h.receive_of_owns howns memory
    obtain ⟨rest, hlive⟩ := List.head?_eq_some_iff.mp howns.1
    have haddresses := Live.addresses_of_cons hlive
    obtain ⟨hbelow, hothers⟩ := h.linked.top_not_mem haddresses
    rw [hreceive, setScope]
    apply Function.update_of_ne
    rintro rfl
    rcases eq_or_ne u t with rfl | hne
    · rw [hlive, List.tail_cons] at hx
      apply hbelow (List.mem_map_of_mem hx)
    · apply hothers t hne.symm (List.mem_map_of_mem (List.mem_of_mem_tail hx))
  · rw [h.receive_of_not_owns (not_exists.mp howns)]

/-! ### Steps -/

section

variable [DecidableEq ι]

/-- The addresses after one thread's scopes changed. -/
theorem addresses_update (live : Live ι) (t : ι) (scopes : List (ℕ × ℕ)) :
  Live.addresses (Function.update live t scopes)
    = Function.update live.addresses t (scopes.map Prod.fst)
  := by
  funext u
  rw [Live.addresses]
  rcases eq_or_ne u t with rfl | hne
  · rw [Function.update_self, Function.update_self]
  · rw [Function.update_of_ne hne, Function.update_of_ne hne]
    rfl

/-- A constructor makes its scope the innermost of its thread. -/
theorem Represents.construct (h : s.Represents live) {t : ι} {i : ℕ} (command : ℕ)
    (hfresh : live.WellNested (.construct t i command)) :
  (s.step (.construct t i command)).Represents (live.step (.construct t i command))
  := by
  constructor
  · rw [Live.step, addresses_update]
    apply h.linked.push t hfresh
    rfl
  · intro u x hx
    have hcases : x = (i, command) ∨ ∃ u, x ∈ live u := by
      rw [Live.step] at hx
      rcases eq_or_ne u t with rfl | hne
      · rw [Function.update_self, List.mem_cons] at hx
        apply hx.imp_right
        intro hx
        use u
      · rw [Function.update_of_ne hne] at hx
        right
        use u
    rw [step]
    dsimp only
    rcases hcases with rfl | ⟨v, hmem⟩
    · use { previous := s.current t, command }
      rw [Function.update_self]
      exact ⟨rfl, rfl, Nat.zero_le _⟩
    · rw [Function.update_of_ne]
      · apply h.scope v x hmem
      · rintro rfl
        apply hfresh v (List.mem_map_of_mem hmem)

/-- A destructor gives the enclosing scope back. -/
theorem Represents.destruct (h : s.Represents live) {t : ι} {i : ℕ}
    (hinnermost : live.WellNested (.destruct t i)) :
  (s.step (.destruct t i)).Represents (live.step (.destruct t i))
  := by
  obtain ⟨command, rest, hlive⟩ := cons_of_wellNested hinnermost
  have haddresses := Live.addresses_of_cons hlive
  obtain ⟨hbelow, hothers⟩ := h.linked.top_not_mem haddresses
  constructor
  · rw [Live.step, addresses_update, hlive, List.tail_cons]
    apply h.linked.pop haddresses
  · intro u x hx
    rw [Live.step] at hx
    have hx' : x ∈ live u ∧ x.1 ≠ i := by
      rcases eq_or_ne u t with rfl | hne
      · rw [Function.update_self, hlive, List.tail_cons] at hx
        rw [hlive]
        use List.mem_cons_of_mem _ hx
        rintro rfl
        apply hbelow (List.mem_map_of_mem hx)
      · rw [Function.update_of_ne hne] at hx
        use hx
        rintro rfl
        apply hothers u hne (List.mem_map_of_mem hx)
    rw [step]
    dsimp only
    rw [Function.update_of_ne hx'.2]
    apply h.scope u x hx'.1

/-- Well-nested steps keep what the pointers stand for. -/
theorem Represents.step (h : s.Represents live) {a : ScopeAction ι} (ha : live.WellNested a) :
  (s.step a).Represents (live.step a)
  := by
  cases a with
  | construct t i command => apply h.construct command ha
  | destruct t i => apply h.destruct ha
  | receive t call memory => apply h.receive

/-- The scopes after a well-nested run. -/
theorem Represents.run (h : s.Represents live) {actions : List (ScopeAction ι)}
    (hactions : Transition.Along Live.step Live.WellNested live actions) :
  (Transition.run ResponseCapture.step s actions).Represents
    (Transition.run Live.step live actions)
  := by
  apply Transition.run_related (R := Represents) _ h hactions
  intro s live a ha h
  apply h.step ha

/-! ### What a scope leaves of the ones around it -/

theorem live_construct_of_ne {t u : ι} (hne : u ≠ t) (i command : ℕ) :
  live.step (.construct u i command) t = live t
  := by
  rw [Live.step, Function.update_of_ne hne.symm]

theorem live_destruct_self (live : Live ι) (t : ι) (i : ℕ) :
  live.step (.destruct t i) t = (live t).tail
  := by
  rw [Live.step, Function.update_self]

theorem live_construct_self (live : Live ι) (t : ι) (i command : ℕ) :
  live.step (.construct t i command) t = (i, command) :: live t
  := by
  rw [Live.step, Function.update_self]

theorem live_destruct_of_ne {t u : ι} (hne : u ≠ t) (i : ℕ) :
  live.step (.destruct u i) t = live t
  := by
  rw [Live.step, Function.update_of_ne hne.symm]

/-- Constructing a scope leaves the ones that live alone. -/
theorem scopes_construct {t u : ι} {i command : ℕ}
    (hfresh : live.WellNested (.construct u i command)) {x : ℕ × ℕ} (hx : x ∈ live t) :
  (s.step (.construct u i command)).scopes x.1 = s.scopes x.1
  := by
  rw [step]
  apply Function.update_of_ne
  rintro rfl
  apply hfresh t (List.mem_map_of_mem hx)

/-- Destroying a scope leaves the others alone. -/
theorem Represents.scopes_destruct (h : s.Represents live) {t u : ι} {i : ℕ}
    (hinnermost : live.WellNested (.destruct u i)) {x : ℕ × ℕ}
    (hx : x ∈ (live t).tail ∨ u ≠ t ∧ x ∈ live t) :
  (s.step (.destruct u i)).scopes x.1 = s.scopes x.1
  := by
  obtain ⟨command, rest, hlive⟩ := cons_of_wellNested hinnermost
  have haddresses := Live.addresses_of_cons hlive
  obtain ⟨hbelow, hothers⟩ := h.linked.top_not_mem haddresses
  rw [ResponseCapture.step]
  apply Function.update_of_ne
  rintro rfl
  rcases eq_or_ne u t with rfl | hne
  · rcases hx with hx | ⟨hne, -⟩
    · rw [hlive, List.tail_cons] at hx
      apply hbelow (List.mem_map_of_mem hx)
    · cases hne rfl
  · have hmem : x ∈ live t := by
      rcases hx with hx | ⟨-, hx⟩
      · apply List.mem_of_mem_tail hx
      · apply hx
    apply hothers t hne.symm (List.mem_map_of_mem hmem)

end

/-- The action constructs or destroys a scope of the thread. -/
def Nests (t : ι) : ScopeAction ι → Prop
  | .construct u _ _ => u = t
  | .destruct u _ => u = t
  | .receive _ _ _ => False

/-- The scopes of the thread that the actions construct are those that they destroy, well
nested. The actions of other threads, and calls of the response method, stand anywhere. -/
inductive Balanced (t : ι) : List (ScopeAction ι) → Prop where
  | nil : Balanced t []
  | other {a : ScopeAction ι} {rest : List (ScopeAction ι)} (ha : ¬ Nests t a)
      (hrest : Balanced t rest) : Balanced t (a :: rest)
  | scope {i command : ℕ} {inner rest : List (ScopeAction ι)} (hinner : Balanced t inner)
      (hrest : Balanced t rest) :
      Balanced t (.construct t i command :: (inner ++ .destruct t i :: rest))

section

variable [DecidableEq ι]

/-- A step that neither constructs nor destroys a scope of the thread. -/
theorem Represents.scopes_other (h : s.Represents live) {t : ι} {a : ScopeAction ι}
    (ha : ¬ Nests t a) (hnested : live.WellNested a) :
  live.step a t = live t ∧ ∀ x ∈ (live t).tail, (s.step a).scopes x.1 = s.scopes x.1
  := by
  cases a with
  | construct u i command =>
      use live_construct_of_ne ha i command
      intro x hx
      apply scopes_construct hnested (List.mem_of_mem_tail hx)
  | destruct u i =>
      use live_destruct_of_ne ha i
      intro x hx
      apply h.scopes_destruct hnested (.inl hx)
  | receive u call memory =>
      use rfl
      intro x hx
      apply h.scopes_receive call memory hx

/-- Balanced actions leave the scopes of the thread as they are, but for the innermost one. -/
theorem Balanced.keeps {t : ι} {actions : List (ScopeAction ι)} (hbalanced : Balanced t actions)
    {s : ResponseCapture ι} {live : Live ι} (h : s.Represents live)
    (hactions : Transition.Along Live.step Live.WellNested live actions) :
  Transition.run Live.step live actions t = live t ∧
    ∀ x ∈ (live t).tail, (Transition.run ResponseCapture.step s actions).scopes x.1 = s.scopes x.1
  := by
  induction hbalanced generalizing s live with
  | nil =>
      use rfl
      intro _ _
      rfl
  | @other a rest ha hrest ih =>
      obtain ⟨hnested, hrest⟩ := hactions
      obtain ⟨hlive, hscopes⟩ := h.scopes_other ha hnested
      obtain ⟨hlive', hscopes'⟩ := ih (h.step hnested) hrest
      rw [Transition.run_cons, Transition.run_cons, hlive', hlive]
      use rfl
      intro x hx
      rw [hscopes' x (by rw [hlive]; apply hx), hscopes x hx]
  | @scope i command inner rest hinner hrest ihinner ihrest =>
      obtain ⟨hconstruct, hactions⟩ := hactions
      obtain ⟨halong, hdestruct, hactions⟩ := Transition.along_append.mp hactions
      have hlive₁ := live_construct_self live t i command
      have h₁ := h.step hconstruct
      obtain ⟨hlive₂, hscopes₂⟩ := ihinner h₁ halong
      have h₂ := h₁.run halong
      rw [hlive₁] at hlive₂ hscopes₂
      rw [List.tail_cons] at hscopes₂
      have hlive₃ : (Transition.run Live.step (live.step (.construct t i command)) inner).step
          (.destruct t i) t = live t := by
        rw [live_destruct_self, hlive₂, List.tail_cons]
      obtain ⟨hlive₄, hscopes₄⟩ := ihrest (h₂.step hdestruct) hactions
      rw [hlive₃] at hlive₄ hscopes₄
      rw [Transition.run_cons, Transition.run_cons, Transition.run_append, Transition.run_append,
        Transition.run_cons, Transition.run_cons]
      use hlive₄
      intro x hx
      have hx' := List.mem_of_mem_tail hx
      rw [hscopes₄ x hx, h₂.scopes_destruct hdestruct (t := t) (.inl _), hscopes₂ x hx',
        scopes_construct hconstruct hx']
      rw [hlive₂, List.tail_cons]
      apply hx'

/-- A scope leaves the ones around it as they were. -/
theorem Represents.keeps_scope (h : s.Represents live) {t : ι} {i command : ℕ}
    {inner : List (ScopeAction ι)} (hinner : Balanced t inner)
    (hactions : Transition.Along Live.step Live.WellNested live
      (.construct t i command :: (inner ++ [.destruct t i]))) :
  (∀ x ∈ live t, (Transition.run ResponseCapture.step s
    (.construct t i command :: (inner ++ [.destruct t i]))).scopes x.1 = s.scopes x.1) ∧
  (Transition.run ResponseCapture.step s
    (.construct t i command :: (inner ++ [.destruct t i]))).current t = s.current t
  := by
  have hrun := h.run hactions
  obtain ⟨hconstruct, hrest⟩ := hactions
  obtain ⟨halong, hdestruct, -⟩ := Transition.along_append.mp hrest
  have h₁ := h.step hconstruct
  obtain ⟨hlive₂, hscopes₂⟩ := hinner.keeps h₁ halong
  have h₂ := h₁.run halong
  rw [live_construct_self] at hlive₂ hscopes₂
  rw [List.tail_cons] at hscopes₂
  rw [Transition.run_cons, Transition.run_append, Transition.run_cons, Transition.run_nil] at hrun ⊢
  rw [Transition.run_cons, Transition.run_append, Transition.run_cons, Transition.run_nil] at hrun
  constructor
  · intro x hx
    rw [h₂.scopes_destruct hdestruct (t := t) (.inl _), hscopes₂ x hx,
      scopes_construct hconstruct hx]
    rw [hlive₂, List.tail_cons]
    apply hx
  · rw [(hrun.linked.linked t).top_eq, (h.linked.linked t).top_eq, Live.addresses, Live.addresses,
      live_destruct_self, hlive₂, List.tail_cons]

/-- The scopes of every state reached. -/
theorem represents_reached {actions : List (ScopeAction ι)}
    (hactions : Transition.Along Live.step Live.WellNested (fun _ => []) actions) :
  (reached actions).Represents (Live.reached actions)
  := represents_empty.run hactions

/-- What a message does to the scope it is given to: it is collected, or the scope has failed
when the message cannot be read or converted. -/
structure Replies (call : ResponseCall) (memory : MessageMemory) (scope scope' : ResponseScope) :
    Prop where
  collects : scope.Collects scope'
  unread : readMessage call.message memory = none → scope' = { scope with failed := true }
  read : ∀ text, readMessage call.message memory = some text →
    scope' = scope.accept text memory.allocations
  failed : readMessage call.message memory ≠ none → memory.allocations.lineFeed = true →
    memory.allocations.output = true → scope'.failed = scope.failed

/-- A reply is what `accept` makes of the message. -/
theorem replies_reply (scope : ResponseScope) (call : ResponseCall) (memory : MessageMemory) :
  Replies call memory scope (reply scope call memory)
  := by
  rw [reply]
  cases hread : readMessage call.message memory with
  | none =>
      constructor
      · exact ⟨rfl, rfl, List.prefix_rfl, id⟩
      · intro _
        rfl
      · intro text htext
        rw [hread] at htext
        cases htext
      · intro hne
        cases hne hread
  | some text =>
      constructor
      · apply scope.collects_accept
      · intro hnone
        rw [hread] at hnone
        cases hnone
      · intro text' htext
        rw [hread] at htext
        rw [Option.some.inj htext]
      · intro _ hlineFeed houtput
        apply scope.failed_accept text hlineFeed houtput

/-- In every well-nested run, a call of the response method for the command of the innermost
scope of the calling thread changes this scope and nothing else, and every other call is one
call of the original method with the same arguments and changes nothing else. When a scope
has ended, the scopes around it are as they were before it began, and match the same
commands. -/
theorem reply_isolation :
  (∀ actions : List (ScopeAction ι),
    Transition.Along Live.step Live.WellNested (fun _ => []) actions →
    ∀ (t : ι) (call : ResponseCall) (memory : MessageMemory),
      (∀ i, (Live.reached actions).Owns t i call.command →
        ∃ scope scope', (reached actions).scopes i = some scope ∧
          Replies call memory scope scope' ∧
          (reached actions).receive t call memory = (reached actions).setScope i scope') ∧
      ((∀ i, ¬ (Live.reached actions).Owns t i call.command) →
        (reached actions).receive t call memory = { reached actions with
          originals := (reached actions).originals ++ [(t, call)] })) ∧
  (∀ (front inner : List (ScopeAction ι)) (t : ι) (i command : ℕ), Balanced t inner →
    Transition.Along Live.step Live.WellNested (fun _ => [])
      (front ++ .construct t i command :: (inner ++ [.destruct t i])) →
    let s := reached front
    let s' := reached (front ++ .construct t i command :: (inner ++ [.destruct t i]))
    (∀ x ∈ Live.reached front t, s'.scopes x.1 = s.scopes x.1) ∧
    s'.current t = s.current t ∧ ∀ key, s'.doesMatch t key = s.doesMatch t key)
  := by
  constructor
  · intro actions hactions t call memory
    have h := represents_reached hactions
    constructor
    · intro i howns
      obtain ⟨scope, hscope, -, -, hreceive⟩ := h.receive_of_owns howns memory
      use scope, reply scope call memory, hscope, replies_reply scope call memory
    · intro howns
      apply h.receive_of_not_owns howns
  · intro front inner t i command hinner hactions
    obtain ⟨hfront, hscope⟩ := Transition.along_append.mp hactions
    have h := represents_reached hfront
    obtain ⟨hscopes, hcurrent⟩ := h.keeps_scope hinner hscope
    intro s s'
    have hreached : s' = Transition.run ResponseCapture.step s
        (.construct t i command :: (inner ++ [.destruct t i])) := Transition.run_append _ _ _
    rw [hreached]
    use hscopes, hcurrent
    intro key
    apply h.doesMatch_congr hscopes hcurrent

end

instance (live : Live Bool) (a : ScopeAction Bool) : Decidable (live.WellNested a) :=
  match a with
  | .construct _ i _ => inferInstanceAs (Decidable (∀ u, i ∉ (live u).map Prod.fst))
  | .destruct t i => inferInstanceAs (Decidable ((live t).head?.map Prod.fst = some i))
  | .receive _ _ _ => isTrue trivial

/-- A message that reads `"first"`. -/
def firstMessage : MessageMemory where
  header := some { data := 4096, num := 6, capacity := 6 }
  units := [0x66, 0x69, 0x72, 0x73, 0x74, 0]

/-- A thread constructs a scope and gets a reply. -/
def outerScope : List (ScopeAction Bool) :=
  [.construct true 100 7, .receive true ⟨7, 1, true, false⟩ firstMessage]

/-- Replies to the same command while a scope for another one lives, and from another thread. -/
def innerReplies : List (ScopeAction Bool) :=
  [.receive true ⟨7, 1, true, false⟩ firstMessage, .receive true ⟨8, 1, true, false⟩ firstMessage,
    .receive false ⟨7, 1, true, false⟩ firstMessage]

/-- A reply in a scope, and one in a scope nested in it. -/
theorem reply_isolation_nested :
  (∃ scope scope', (reached outerScope).scopes 100 = some scope ∧
    Replies ⟨7, 1, true, false⟩ firstMessage scope scope' ∧
    (reached outerScope).receive true ⟨7, 1, true, false⟩ firstMessage
      = (reached outerScope).setScope 100 scope') ∧
  (reached outerScope).receive false ⟨7, 1, true, false⟩ firstMessage = { reached outerScope with
    originals := (reached outerScope).originals ++ [(false, ⟨7, 1, true, false⟩)] } ∧
  (reached (outerScope ++ .construct true 200 8 :: (innerReplies ++ [.destruct true 200]))).scopes
    100 = (reached outerScope).scopes 100
  := by
  have hfront : Transition.Along Live.step Live.WellNested (fun _ => []) outerScope := by
    decide +kernel
  and_intros
  · apply (reply_isolation.1 outerScope hfront true ⟨7, 1, true, false⟩ firstMessage).1
    exact ⟨by decide +kernel, by decide⟩
  · apply (reply_isolation.1 outerScope hfront false ⟨7, 1, true, false⟩ firstMessage).2
    rintro i ⟨⟨⟩, -⟩
  · have hbalanced : Balanced true innerReplies := by
      apply Balanced.other (by rintro ⟨⟩)
      apply Balanced.other (by rintro ⟨⟩)
      apply Balanced.other (by rintro ⟨⟩) Balanced.nil
    apply (reply_isolation.2 outerScope innerReplies true 200 8 hbalanced (by decide +kernel)).1
      (100, 7)
    decide +kernel

end ResponseCapture

end OpenScumRcon
