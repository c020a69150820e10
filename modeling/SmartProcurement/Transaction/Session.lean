import Mathlib.Data.List.Induction
import Mathlib.Logic.Basic

namespace SmartProcurement.Transaction

/-! # Sessions

A session is a computation over the state of one open transaction.  It may
raise; the writes flushed before the exception are then still part of the
session and it is the caller who decides to commit or to discard them.
-/

variable {ε σ α β : Type}

def state : EStateM.Result ε σ α → σ
  | .ok _ after => after
  | .error _ after => after

@[simp] theorem state_ok (value : α) (after : σ) :
    state (.ok value after : EStateM.Result ε σ α) = after := rfl

@[simp] theorem state_error (reason : ε) (after : σ) :
    state (.error reason after : EStateM.Result ε σ α) = after := rfl

def returned : EStateM.Result ε σ α → Bool
  | .ok _ _ => true
  | .error _ _ => false

def outcome : EStateM.Result ε σ α → Except ε α
  | .ok value _ => .ok value
  | .error reason _ => .error reason

theorem outcome_eq_ok {result : EStateM.Result ε σ α} {value : α} (ended : outcome result = .ok value) :
    ∃ after, result = .ok value after := by
  cases result with
  | ok other after =>
      cases ended
      exact ⟨after, rfl⟩
  | error _ _ => cases ended

theorem exists_of_returned {result : EStateM.Result ε σ α} (returns : returned result = true) :
    ∃ value, result = .ok value (state result) := by
  cases result with
  | ok value _ => exact ⟨value, rfl⟩
  | error _ _ => cases returns

theorem eq_ok_of_returned {result : EStateM.Result ε σ PUnit} (returns : returned result = true) :
    result = .ok ⟨⟩ (state result) := by
  cases result with
  | ok _ _ => rfl
  | error _ _ => cases returns

def read (query : σ → α) : EStateM ε σ α := fun before => .ok (query before) before

def write (change : σ → σ) : EStateM ε σ PUnit := fun before => .ok ⟨⟩ (change before)

def raise (reason : ε) : EStateM ε σ α := fun before => .error reason before

/-- A computation that does not touch the transaction. -/
def lift : Except ε α → EStateM ε σ α
  | .ok value => pure value
  | .error reason => raise reason

/-- `try: body except: handler`, with the writes of `body` kept in the session. -/
def handle (body : EStateM ε σ α) (handler : ε → EStateM ε σ α) : EStateM ε σ α := fun before =>
  match body before with
  | .ok value after => .ok value after
  | .error reason after => handler reason after

/-! ## Runs that return -/

section Returns

variable {before after : σ} {value : α} {result : β} {reason : ε}

@[simp] theorem pure_eq_ok {other : α} :
    (pure value : EStateM ε σ α) before = .ok other after ↔ value = other ∧ before = after := by
  change EStateM.Result.ok value before = .ok other after ↔ _
  rw [EStateM.Result.ok.injEq]

@[simp] theorem read_eq_ok {query : σ → α} :
    (read query : EStateM ε σ α) before = .ok value after ↔ query before = value ∧ before = after := by
  change EStateM.Result.ok (query before) before = .ok value after ↔ _
  rw [EStateM.Result.ok.injEq]

@[simp] theorem write_eq_ok {change : σ → σ} {done : PUnit} :
    (write change : EStateM ε σ PUnit) before = .ok done after ↔ change before = after := by
  change EStateM.Result.ok PUnit.unit (change before) = .ok done after ↔ _
  simp

@[simp] theorem raise_eq_ok :
    (raise reason : EStateM ε σ α) before = .ok value after ↔ False := by
  simp [raise]

@[simp] theorem lift_eq_ok {computed : Except ε α} :
    (lift computed : EStateM ε σ α) before = .ok value after ↔
      computed = .ok value ∧ before = after := by
  cases computed with
  | ok found => simp [lift]
  | error reason => simp [lift]

@[simp] theorem bind_eq_ok {first : EStateM ε σ α} {next : α → EStateM ε σ β} :
    (first >>= next) before = .ok result after ↔
      ∃ value middle, first before = .ok value middle ∧ next value middle = .ok result after := by
  change EStateM.bind first next before = _ ↔ _
  unfold EStateM.bind
  cases ran : first before with
  | ok value middle =>
      simp only [EStateM.Result.ok.injEq]
      exact ⟨fun rest => ⟨value, middle, ⟨rfl, rfl⟩, rest⟩,
        fun ⟨_, _, ⟨valueEq, middleEq⟩, rest⟩ => valueEq ▸ middleEq ▸ rest⟩
  | error reason middle => simp

theorem bind_of_ok {first : EStateM ε σ α} {next : α → EStateM ε σ β} {middle : σ}
    (ran : first before = .ok value middle) : (first >>= next) before = next value middle := by
  change EStateM.bind first next before = _
  simp only [EStateM.bind, ran]

theorem exists_ok_bind {first : EStateM ε σ α} {next : α → EStateM ε σ β} {middle : σ}
    (ran : first before = .ok value middle) (rest : ∃ result after, next value middle = .ok result after) :
    ∃ result after, (first >>= next) before = .ok result after := by
  rwa [bind_of_ok ran]

theorem bind_of_error {first : EStateM ε σ α} {next : α → EStateM ε σ β}
    (ran : first before = .error reason after) : (first >>= next) before = .error reason after := by
  change EStateM.bind first next before = _
  simp only [EStateM.bind, ran]

/-- A body that touches nothing passes its result on. -/
theorem outcome_bind {body : EStateM ε σ α} {next : α → EStateM ε σ β} {computed : Except ε α}
    (same : body before = lift computed before) :
    outcome ((body >>= next) before) = computed >>= fun value => outcome (next value before) := by
  cases computed with
  | ok value => exact congrArg outcome (bind_of_ok same)
  | error reason => exact congrArg outcome (bind_of_error same)

@[simp] theorem map_eq_ok {body : EStateM ε σ α} {f : α → β} :
    (f <$> body) before = .ok result after ↔ ∃ value, body before = .ok value after ∧ f value = result := by
  change EStateM.map f body before = _ ↔ _
  unfold EStateM.map
  cases ran : body before with
  | ok value middle =>
      simp only [EStateM.Result.ok.injEq]
      exact ⟨fun ⟨resultEq, stateEq⟩ => ⟨value, ⟨rfl, stateEq⟩, resultEq⟩,
        fun ⟨_, ⟨valueEq, stateEq⟩, resultEq⟩ => ⟨valueEq ▸ resultEq, stateEq⟩⟩
  | error reason middle => simp

@[simp] theorem except_pure_eq_ok {other : α} : (pure value : Except ε α) = .ok other ↔ value = other := by
  change Except.ok value = .ok other ↔ _
  rw [Except.ok.injEq]

@[simp] theorem except_bind_eq_ok {first : Except ε α} {next : α → Except ε β} :
    (first >>= next) = .ok result ↔ ∃ value, first = .ok value ∧ next value = .ok result := by
  cases first with
  | ok value =>
      simp only [Except.ok.injEq, exists_eq_left']
      rfl
  | error reason => simp [bind, Except.bind]

theorem except_map_eq_ok {f : α → β} {computed : Except ε α} {value : β} :
    computed.map f = .ok value ↔ ∃ found, computed = .ok found ∧ f found = value := by
  cases computed with
  | ok found => simp [Except.map]
  | error _ => simp [Except.map]

/-! The same for runs that raise. -/

@[simp] theorem pure_eq_error : (pure value : EStateM ε σ α) before = .error reason after ↔ False :=
  iff_of_false nofun id

@[simp] theorem read_eq_error {query : σ → α} :
    (read query : EStateM ε σ α) before = .error reason after ↔ False :=
  iff_of_false nofun id

@[simp] theorem write_eq_error {change : σ → σ} :
    (write change : EStateM ε σ PUnit) before = .error reason after ↔ False :=
  iff_of_false nofun id

@[simp] theorem raise_eq_error {other : ε} :
    (raise reason : EStateM ε σ α) before = .error other after ↔ reason = other ∧ before = after := by
  change EStateM.Result.error reason before = .error other after ↔ _
  rw [EStateM.Result.error.injEq]

@[simp] theorem lift_eq_error {computed : Except ε α} :
    (lift computed : EStateM ε σ α) before = .error reason after ↔ computed = .error reason ∧ before = after := by
  cases computed with
  | ok found => simp [lift]
  | error raised => simp [lift]

@[simp] theorem bind_eq_error {first : EStateM ε σ α} {next : α → EStateM ε σ β} :
    (first >>= next) before = .error reason after ↔ first before = .error reason after ∨
      ∃ value middle, first before = .ok value middle ∧ next value middle = .error reason after := by
  change EStateM.bind first next before = _ ↔ _
  unfold EStateM.bind
  cases ran : first before with
  | ok value middle =>
      simp only [EStateM.Result.ok.injEq, reduceCtorEq, false_or]
      exact ⟨fun rest => ⟨value, middle, ⟨rfl, rfl⟩, rest⟩,
        fun ⟨_, _, ⟨valueEq, middleEq⟩, rest⟩ => valueEq ▸ middleEq ▸ rest⟩
  | error raised middle => simp

/-- A loop invariant over the accumulator and the session state. -/
theorem foldlM_ok_invariant (holds : β → σ → Prop) {step : β → α → EStateM ε σ β}
    (keeps : ∀ acc value before next after, holds acc before →
      step acc value before = .ok next after → holds next after)
    {values : List α} {init final : β} {before after : σ} (start : holds init before)
    (ran : values.foldlM step init before = .ok final after) : holds final after := by
  induction values generalizing init before with
  | nil =>
      obtain ⟨rfl, rfl⟩ := pure_eq_ok.mp ran
      exact start
  | cons value rest ih =>
      rw [List.foldlM_cons] at ran
      obtain ⟨next, middle, first, ran⟩ := bind_eq_ok.mp ran
      exact ih (keeps _ _ _ _ _ start first) ran

theorem forM_ok_invariant (holds : σ → Prop) {step : α → EStateM ε σ PUnit} {values : List α} {before after : σ}
    (keeps : ∀ value ∈ values, ∀ before after, holds before → step value before = .ok ⟨⟩ after → holds after)
    (start : holds before) (ran : values.forM step before = .ok ⟨⟩ after) : holds after := by
  induction values generalizing before with
  | nil =>
      obtain ⟨_, rfl⟩ := pure_eq_ok.mp ran
      exact start
  | cons value rest ih =>
      obtain ⟨_, middle, first, ran⟩ := bind_eq_ok.mp ran
      exact ih (fun value member => keeps value (List.mem_cons_of_mem _ member))
        (keeps value List.mem_cons_self _ _ start first) ran

/-- The same for a loop that raises nowhere else. -/
theorem except_foldlM_ok_invariant (holds : β → Prop) {step : β → α → Except ε β}
    (keeps : ∀ acc value next, holds acc → step acc value = .ok next → holds next)
    {values : List α} {init final : β} (start : holds init)
    (ran : values.foldlM step init = .ok final) : holds final := by
  induction values generalizing init with
  | nil =>
      obtain rfl := except_pure_eq_ok.mp ran
      exact start
  | cons value rest ih =>
      rw [List.foldlM_cons] at ran
      obtain ⟨next, first, ran⟩ := except_bind_eq_ok.mp ran
      exact ih (keeps _ _ _ start first) ran

end Returns

/-! ## The iterations of a loop -/

section Loops

variable {step : β → α → EStateM ε σ β} {values : List α} {init final acc : β} {before after reached : σ}
variable {value : α}

/-- The loop comes to `value` with this accumulator and session state. -/
def Reaches (step : β → α → EStateM ε σ β) (values : List α) (init : β) (before : σ) (value : α) (acc : β)
    (reached : σ) : Prop :=
  ∃ done rest, values = done ++ value :: rest ∧ done.foldlM step init before = .ok acc reached

/-- A loop comes to its first value at once and to the others after the first. -/
theorem reaches_cons {first : α} {rest : List α} : Reaches step (first :: rest) init before value acc reached ↔
    (value = first ∧ acc = init ∧ reached = before) ∨ ∃ next middle, step init first before = .ok next middle ∧
      Reaches step rest next middle value acc reached := by
  constructor
  · rintro ⟨done, remaining, split, ran⟩
    cases done with
    | nil =>
        obtain ⟨rfl, rfl⟩ := List.cons.inj split
        obtain ⟨rfl, rfl⟩ := pure_eq_ok.mp ran
        exact .inl ⟨rfl, rfl, rfl⟩
    | cons head done =>
        obtain ⟨rfl, rfl⟩ := List.cons.inj split
        rw [List.foldlM_cons] at ran
        obtain ⟨next, middle, stepped, ran⟩ := bind_eq_ok.mp ran
        exact .inr ⟨next, middle, stepped, done, remaining, rfl, ran⟩
  · rintro (⟨rfl, rfl, rfl⟩ | ⟨next, middle, stepped, done, remaining, rfl, ran⟩)
    · exact ⟨[], rest, rfl, rfl⟩
    · refine ⟨first :: done, remaining, rfl, ?_⟩
      rw [List.foldlM_cons, bind_of_ok stepped]
      exact ran

/-- A part of a loop comes to what the loop comes to. -/
theorem Reaches.append {done : List α} (reaches : Reaches step done init before value acc reached) (rest : List α) :
    Reaches step (done ++ rest) init before value acc reached := by
  obtain ⟨early, late, rfl, ran⟩ := reaches
  exact ⟨early, late ++ rest, by simp, ran⟩

/-- An iteration of a loop that returns is followed by the rest of the loop. -/
theorem Reaches.ran (reaches : Reaches step values init before value acc reached)
    (ran : values.foldlM step init before = .ok final after) :
    ∃ (rest : List α) (next : β) (middle : σ), step acc value reached = .ok next middle ∧
      rest.foldlM step next middle = .ok final after := by
  obtain ⟨done, rest, rfl, doneRan⟩ := reaches
  rw [List.foldlM_append, bind_of_ok doneRan, List.foldlM_cons] at ran
  obtain ⟨next, middle, stepped, restRan⟩ := bind_eq_ok.mp ran
  exact ⟨rest, next, middle, stepped, restRan⟩

/-- A loop invariant that its own iterations keep holds after every part of the loop. -/
theorem foldlM_ok_of_reached (holds : β → σ → Prop) (start : holds init before)
    (keeps : ∀ value acc reached next later, Reaches step values init before value acc reached →
      holds acc reached → step acc value reached = .ok next later → holds next later)
    {done rest : List α} (split : values = done ++ rest)
    (ran : done.foldlM step init before = .ok acc reached) : holds acc reached := by
  induction done using List.reverseRecOn generalizing rest acc reached with
  | nil =>
      obtain ⟨rfl, rfl⟩ := pure_eq_ok.mp ran
      exact start
  | append_singleton done value ih =>
      rw [List.foldlM_append] at ran
      obtain ⟨previous, middle, doneRan, lastRan⟩ := bind_eq_ok.mp ran
      rw [List.foldlM_cons] at lastRan
      obtain ⟨next, later, stepped, ended⟩ := bind_eq_ok.mp lastRan
      obtain ⟨rfl, rfl⟩ := pure_eq_ok.mp ended
      have splitHere : values = done ++ value :: rest := by simpa using split
      exact keeps value previous middle next later ⟨done, rest, splitHere, doneRan⟩
        (ih splitHere doneRan) stepped

/-- ... so it holds at every iteration. -/
theorem Reaches.holds (holds : β → σ → Prop) (start : holds init before)
    (keeps : ∀ value acc reached next later, Reaches step values init before value acc reached →
      holds acc reached → step acc value reached = .ok next later → holds next later)
    (reaches : Reaches step values init before value acc reached) : holds acc reached := by
  obtain ⟨done, rest, split, ran⟩ := reaches
  exact foldlM_ok_of_reached holds start keeps split ran

end Loops

/-! ## Frames

A frame says how a state may move: reflexive, so that doing nothing respects
it, and transitive, so that it holds of a whole run when it holds of each step.
-/

structure Frame (σ : Type) where
  rel : σ → σ → Prop
  refl : ∀ state, rel state state
  trans : ∀ {first second third}, rel first second → rel second third → rel first third

/-- The frame in which a property, once true, stays true. -/
def Frame.keeps (property : σ → Prop) : Frame σ where
  rel before after := property before → property after
  refl _ := id
  trans first second := second ∘ first

/-- The frame in which the value of `view` does not change. -/
def Frame.fixes (view : σ → α) : Frame σ where
  rel before after := view after = view before
  refl _ := rfl
  trans first second := second.trans first

def Frame.both (left right : Frame σ) : Frame σ where
  rel before after := left.rel before after ∧ right.rel before after
  refl state := ⟨left.refl state, right.refl state⟩
  trans first second := ⟨left.trans first.1 second.1, right.trans first.2 second.2⟩

/-- However the session ends, its state moved along the frame. -/
def Follows (frame : Frame σ) (body : EStateM ε σ α) : Prop :=
  ∀ before, frame.rel before (state (body before))

section Rules

variable {frame : Frame σ}

theorem Follows.ok {body : EStateM ε σ α} (follows : Follows frame body) {before after : σ}
    {value : α} (ran : body before = .ok value after) : frame.rel before after := by
  have moved := follows before
  rwa [ran] at moved

theorem Follows.error {body : EStateM ε σ α} (follows : Follows frame body) {before after : σ}
    {reason : ε} (ran : body before = .error reason after) : frame.rel before after := by
  have moved := follows before
  rwa [ran] at moved

theorem follows_pure (value : α) : Follows frame (pure value : EStateM ε σ α) :=
  fun before => frame.refl before

theorem follows_read (query : σ → α) : Follows frame (read query : EStateM ε σ α) :=
  fun before => frame.refl before

theorem follows_raise (reason : ε) : Follows frame (raise reason : EStateM ε σ α) :=
  fun before => frame.refl before

theorem follows_lift (computed : Except ε α) : Follows frame (lift computed : EStateM ε σ α) := by
  cases computed with
  | ok value => exact follows_pure value
  | error reason => exact follows_raise reason

theorem follows_write {change : σ → σ} (moves : ∀ before, frame.rel before (change before)) :
    Follows frame (write change : EStateM ε σ PUnit) := moves

theorem Follows.bind {first : EStateM ε σ α} {next : α → EStateM ε σ β}
    (firstFollows : Follows frame first) (nextFollows : ∀ value, Follows frame (next value)) :
    Follows frame (first >>= next) := by
  intro before
  change frame.rel before (state (EStateM.bind first next before))
  unfold EStateM.bind
  have moved := firstFollows before
  cases ran : first before with
  | ok value middle =>
      rw [ran] at moved
      exact frame.trans moved (nextFollows value middle)
  | error reason middle =>
      rw [ran] at moved
      exact moved

theorem Follows.handle {body : EStateM ε σ α} {handler : ε → EStateM ε σ α}
    (bodyFollows : Follows frame body) (handlerFollows : ∀ reason, Follows frame (handler reason)) :
    Follows frame (handle body handler) := by
  intro before
  have moved := bodyFollows before
  unfold Transaction.handle
  cases ran : body before with
  | ok value middle =>
      rw [ran] at moved
      exact moved
  | error reason middle =>
      rw [ran] at moved
      exact frame.trans moved (handlerFollows reason middle)

theorem Follows.foldlM {step : β → α → EStateM ε σ β}
    (stepFollows : ∀ acc value, Follows frame (step acc value)) (values : List α) (init : β) :
    Follows frame (values.foldlM step init) := by
  induction values generalizing init with
  | nil => exact follows_pure init
  | cons value rest ih =>
      rw [List.foldlM_cons]
      exact (stepFollows init value).bind ih

end Rules

/-! ## Outcomes of pure computations -/

/-- What holds of the value when the computation returns, and of the exception
when it raises. -/
def Ends (returns : α → Prop) (raises : ε → Prop) : Except ε α → Prop
  | .ok value => returns value
  | .error reason => raises reason

section Outcomes

variable {returns : α → Prop} {results : β → Prop} {raises : ε → Prop}

theorem Ends.ok {computed : Except ε α} (ends : Ends returns raises computed) {value : α}
    (returned : computed = .ok value) : returns value := by
  rwa [returned] at ends

theorem Ends.error {computed : Except ε α} (ends : Ends returns raises computed) {reason : ε}
    (raised : computed = .error reason) : raises reason := by
  rwa [raised] at ends

theorem Ends.bind {first : Except ε α} {next : α → Except ε β} (firstEnds : Ends returns raises first)
    (nextEnds : ∀ value, returns value → Ends results raises (next value)) :
    Ends results raises (first >>= next) := by
  cases first with
  | ok value => exact nextEnds value firstEnds
  | error reason => exact firstEnds

theorem Ends.branch {condition : Prop} [Decidable condition] {yes no : Except ε α}
    (yesEnds : Ends returns raises yes) (noEnds : Ends returns raises no) :
    Ends returns raises (if condition then yes else no) := by
  split
  · exact yesEnds
  · exact noEnds

end Outcomes

/-! ## Guarded sessions

`Guarded invariant allowed body`: started where the invariant holds, the session
either returns with the invariant intact or raises an allowed exception.
-/

def Guarded (invariant : σ → Prop) (allowed : ε → Prop) (body : EStateM ε σ α) : Prop :=
  ∀ before, invariant before →
    match body before with
    | .ok _ after => invariant after
    | .error reason _ => allowed reason

section Guards

variable {invariant : σ → Prop} {allowed : ε → Prop}

theorem Guarded.ok {body : EStateM ε σ α} (guarded : Guarded invariant allowed body) {before after : σ}
    {value : α} (holds : invariant before) (ran : body before = .ok value after) : invariant after := by
  have ended := guarded before holds
  rwa [ran] at ended

theorem Guarded.error {body : EStateM ε σ α} (guarded : Guarded invariant allowed body)
    {before after : σ} {reason : ε} (holds : invariant before)
    (ran : body before = .error reason after) : allowed reason := by
  have ended := guarded before holds
  rwa [ran] at ended

theorem guarded_pure (value : α) : Guarded invariant allowed (pure value : EStateM ε σ α) :=
  fun _ holds => holds

theorem Guarded.bind {first : EStateM ε σ α} {next : α → EStateM ε σ β}
    (firstGuarded : Guarded invariant allowed first)
    (nextGuarded : ∀ value, Guarded invariant allowed (next value)) :
    Guarded invariant allowed (first >>= next) := by
  intro before holds
  change match EStateM.bind first next before with
    | .ok _ after => invariant after
    | .error reason _ => allowed reason
  unfold EStateM.bind
  cases ran : first before with
  | ok value middle => exact nextGuarded value middle (firstGuarded.ok holds ran)
  | error reason middle => exact firstGuarded.error holds ran

theorem Guarded.foldlM {step : β → α → EStateM ε σ β} {values : List α}
    (stepGuarded : ∀ value ∈ values, ∀ acc, Guarded invariant allowed (step acc value)) (init : β) :
    Guarded invariant allowed (values.foldlM step init) := by
  induction values generalizing init with
  | nil => exact guarded_pure init
  | cons value rest ih =>
      rw [List.foldlM_cons]
      exact (stepGuarded value (by simp) init).bind
        (ih fun value member => stepGuarded value (List.mem_cons_of_mem _ member))

end Guards

/-! ## Transactions -/

/-- Run a session on a committed state: commit what it wrote when it returns,
roll everything back when it raises. -/
def transact (body : EStateM ε σ α) (committed : σ) : Except ε α × σ :=
  match body committed with
  | .ok value after => (.ok value, after)
  | .error reason _ => (.error reason, committed)

theorem transact_of_ok {body : EStateM ε σ α} {committed after : σ} {value : α}
    (ran : body committed = .ok value after) : transact body committed = (.ok value, after) := by
  simp only [transact, ran]

theorem transact_of_error {body : EStateM ε σ α} {committed after : σ} {reason : ε}
    (ran : body committed = .error reason after) :
    transact body committed = (.error reason, committed) := by
  simp only [transact, ran]

theorem transact_preserves {property : σ → Prop} {body : EStateM ε σ α} {committed : σ}
    (holds : property committed)
    (keeps : ∀ value after, body committed = .ok value after → property after) :
    property (transact body committed).2 := by
  cases ran : body committed with
  | ok value after =>
      rw [transact_of_ok ran]
      exact keeps value after ran
  | error reason after =>
      rw [transact_of_error ran]
      exact holds

theorem Follows.transact {frame : Frame σ} {body : EStateM ε σ α} (follows : Follows frame body)
    (committed : σ) : frame.rel committed (Transaction.transact body committed).2 := by
  cases ran : body committed with
  | ok value after =>
      rw [transact_of_ok ran]
      exact follows.ok ran
  | error reason after =>
      rw [transact_of_error ran]
      exact frame.refl committed

end SmartProcurement.Transaction
