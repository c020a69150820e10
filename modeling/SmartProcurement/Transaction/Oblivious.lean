import SmartProcurement.Transaction.Session

namespace SmartProcurement.Transaction

/-! # Sessions that do not look

A session is oblivious to what `put` overwrites, if it takes the same course whatever
is put there, and leaves it as it was put.
-/

variable {ε σ α β : Type}

/-- The result with another state. -/
def onState (change : σ → σ) : EStateM.Result ε σ α → EStateM.Result ε σ α
  | .ok value after => .ok value (change after)
  | .error reason after => .error reason (change after)

def Oblivious (put : σ → σ) (body : EStateM ε σ α) : Prop := ∀ before, body (put before) = onState put (body before)

section Rules

variable {put : σ → σ} {body : EStateM ε σ α}

theorem oblivious_pure (value : α) : Oblivious put (pure value : EStateM ε σ α) := fun _ => rfl

theorem oblivious_raise (reason : ε) : Oblivious put (raise reason : EStateM ε σ α) := fun _ => rfl

theorem oblivious_lift (computed : Except ε α) : Oblivious put (lift computed : EStateM ε σ α) := by
  cases computed with
  | ok value => exact oblivious_pure value
  | error reason => exact oblivious_raise reason

theorem oblivious_read {query : σ → α} (unseen : ∀ before, query (put before) = query before) :
    Oblivious put (read query : EStateM ε σ α) := by
  intro before
  change EStateM.Result.ok (query (put before)) (put before) = _
  rw [unseen]
  rfl

theorem oblivious_write {change : σ → σ} (untouched : ∀ before, change (put before) = put (change before)) :
    Oblivious put (write change : EStateM ε σ PUnit) := by
  intro before
  change EStateM.Result.ok PUnit.unit (change (put before)) = _
  rw [untouched]
  rfl

theorem Oblivious.bind {next : α → EStateM ε σ β} (oblivious : Oblivious put body)
    (continues : ∀ value, Oblivious put (next value)) : Oblivious put (body >>= next) := by
  intro before
  have first := oblivious before
  cases ran : body before with
  | ok value middle =>
      rw [ran] at first
      rw [bind_of_ok first, bind_of_ok ran]
      exact continues value middle
  | error reason middle =>
      rw [ran] at first
      rw [bind_of_error first, bind_of_error ran]
      rfl

theorem Oblivious.foldlM {step : β → α → EStateM ε σ β} (oblivious : ∀ acc value, Oblivious put (step acc value))
    (values : List α) (init : β) : Oblivious put (values.foldlM step init) := by
  induction values generalizing init with
  | nil => exact oblivious_pure init
  | cons first rest ih =>
      rw [List.foldlM_cons]
      exact (oblivious init first).bind ih

/-- What is committed is oblivious as well. -/
theorem Oblivious.transact (oblivious : Oblivious put body) (committed : σ) :
    transact body (put committed) = ((transact body committed).1, put (transact body committed).2) := by
  have ran := oblivious committed
  cases first : body committed with
  | ok value after =>
      rw [first] at ran
      rw [transact_of_ok ran, transact_of_ok first]
  | error reason after =>
      rw [first] at ran
      rw [transact_of_error ran, transact_of_error first]

end Rules

/-! ## Two runs that agree

From related states the two runs return the same, or raise the same, and end in
related states.
-/

inductive Concurred (related : σ → σ → Prop) : EStateM.Result ε σ α → EStateM.Result ε σ α → Prop where
  | ok {value : α} {after later : σ} (moved : related after later) : Concurred related (.ok value after) (.ok value later)
  | error {reason : ε} {after later : σ} (moved : related after later) : Concurred related (.error reason after) (.error reason later)

def Concurs (related : σ → σ → Prop) (left right : EStateM ε σ α) : Prop :=
  ∀ before other, related before other → Concurred related (left before) (right other)

section Agreement

variable {related : σ → σ → Prop} {left right : EStateM ε σ α}

theorem concurs_pure (value : α) : Concurs related (pure value : EStateM ε σ α) (pure value) :=
  fun _ _ moved => .ok moved

theorem concurs_raise (reason : ε) : Concurs related (raise reason : EStateM ε σ α) (raise reason) :=
  fun _ _ moved => .error moved

theorem concurs_lift (computed : Except ε α) : Concurs related (lift computed : EStateM ε σ α) (lift computed) := by
  cases computed with
  | ok value => exact concurs_pure value
  | error reason => exact concurs_raise reason

theorem concurs_read {query counterpart : σ → α}
    (same : ∀ before other, related before other → counterpart other = query before) :
    Concurs related (read query : EStateM ε σ α) (read counterpart) := by
  intro before other moved
  change Concurred related (.ok (query before) before) (.ok (counterpart other) other)
  rw [same before other moved]
  exact .ok moved

theorem concurs_write {change counterpart : σ → σ}
    (moves : ∀ before other, related before other → related (change before) (counterpart other)) :
    Concurs related (write change : EStateM ε σ PUnit) (write counterpart) :=
  fun before other moved => .ok (moves before other moved)

theorem Concurs.bind {next after : α → EStateM ε σ β} (concurs : Concurs related left right)
    (continues : ∀ value, Concurs related (next value) (after value)) : Concurs related (left >>= next) (right >>= after) := by
  intro before other moved
  have first := concurs before other moved
  cases leftRan : left before with
  | ok value middle =>
      cases rightRan : right other with
      | ok counterpart later =>
          rw [leftRan, rightRan] at first
          cases first with
          | ok moved =>
              rw [bind_of_ok leftRan, bind_of_ok rightRan]
              exact continues value middle later moved
      | error reason later =>
          rw [leftRan, rightRan] at first
          cases first
  | error reason middle =>
      cases rightRan : right other with
      | ok counterpart later =>
          rw [leftRan, rightRan] at first
          cases first
      | error raised later =>
          rw [leftRan, rightRan] at first
          cases first with
          | error moved =>
              rw [bind_of_error leftRan, bind_of_error rightRan]
              exact .error moved

theorem Concurs.handle {handler counterpart : ε → EStateM ε σ α} (concurs : Concurs related left right)
    (handles : ∀ reason, Concurs related (handler reason) (counterpart reason)) :
    Concurs related (handle left handler) (handle right counterpart) := by
  intro before other moved
  have first := concurs before other moved
  unfold Transaction.handle
  generalize left before = ended, right other = finished at first
  cases first with
  | ok moved => exact .ok moved
  | @error reason after later moved => exact handles reason after later moved

theorem Concurs.transact (concurs : Concurs related left right) {committed other : σ} (moved : related committed other) :
    (transact left committed).1 = (transact right other).1 ∧ related (transact left committed).2 (transact right other).2 := by
  have ran := concurs committed other moved
  unfold Transaction.transact
  generalize left committed = first, right other = second at ran
  cases ran with
  | ok after => exact ⟨rfl, after⟩
  | error _ => exact ⟨rfl, moved⟩

/-- The states differ at most in the part that `put` overwrites, and there as related parts do. -/
def DiffersIn {τ : Type} (put : τ → σ → σ) (part : σ → τ) (related : τ → τ → Prop) (state other : σ) : Prop :=
  other = put (part other) state ∧ related (part state) (part other)

/-- A session that does not look at the part concurs with itself. -/
theorem Oblivious.concurs {τ : Type} {put : τ → σ → σ} {part : σ → τ} {parts : τ → τ → Prop} {body : EStateM ε σ α}
    (own : ∀ state, put (part state) state = state) (overwritten : ∀ value state, part (put value state) = value)
    (oblivious : ∀ value, Oblivious (put value) body) : Concurs (DiffersIn put part parts) body body := by
  intro before other differs
  obtain ⟨same, alike⟩ := differs
  have kept := oblivious (part before) before
  rw [own] at kept
  have ends (after : σ) (unchanged : after = put (part before) after) :
      DiffersIn put part parts after (put (part other) after) := by
    have still : part after = part before := by
      rw [unchanged, overwritten]
    refine ⟨?_, ?_⟩
    · rw [overwritten]
    · rw [overwritten, still]
      exact alike
  rw [same, oblivious]
  cases ran : body before with
  | ok value after =>
      rw [ran] at kept
      exact .ok (ends after (EStateM.Result.ok.inj kept).2)
  | error reason after =>
      rw [ran] at kept
      exact .error (ends after (EStateM.Result.error.inj kept).2)

end Agreement

end SmartProcurement.Transaction
