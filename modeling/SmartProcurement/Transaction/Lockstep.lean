import SmartProcurement.Transaction.Session

namespace SmartProcurement.Transaction

/-! # Two runs in lockstep

Two computations, started from related states, take the same course: either both
return, with related values and in related states, or both raise.  The rules are
those of a Hoare logic over two runs.
-/

variable {ε σ τ α β γ δ : Type}

/-- Both computations return, related values, or both raise. -/
inductive Alike (values : α → β → Prop) : Except ε α → Except ε β → Prop where
  | ok {value : α} {counterpart : β} (related : values value counterpart) : Alike values (.ok value) (.ok counterpart)
  | error {reason other : ε} : Alike values (.error reason) (.error other)

inductive Matched (values : α → β → Prop) (states : σ → τ → Prop) :
    EStateM.Result ε σ α → EStateM.Result ε τ β → Prop where
  | ok {value : α} {counterpart : β} {after : σ} {later : τ} (related : values value counterpart)
      (moved : states after later) : Matched values states (.ok value after) (.ok counterpart later)
  | error {reason other : ε} {after : σ} {later : τ} : Matched values states (.error reason after) (.error other later)

/-- From related states the two computations take the same course, and end in states
related by `ends`. -/
def Lockstep (values : α → β → Prop) (states ends : σ → τ → Prop) (left : EStateM ε σ α) (right : EStateM ε τ β) : Prop :=
  ∀ before other, states before other → Matched values ends (left before) (right other)

section Alike

variable {values : α → β → Prop} {results : γ → δ → Prop} {left : Except ε α} {right : Except ε β}

theorem Alike.mono {weaker : α → β → Prop} (alike : Alike values left right)
    (weakens : ∀ value counterpart, values value counterpart → weaker value counterpart) : Alike weaker left right := by
  cases alike with
  | ok related => exact .ok (weakens _ _ related)
  | error => exact .error

theorem Alike.with_facts (alike : Alike values left right) :
    Alike (fun value counterpart => values value counterpart ∧ left = .ok value ∧ right = .ok counterpart) left right := by
  cases alike with
  | ok related => exact .ok ⟨related, rfl, rfl⟩
  | error => exact .error

/-- Two computations are alike if one returns when the other does, and what they return agrees. -/
theorem alike_of_returns (returns : (∃ value, left = .ok value) ↔ ∃ counterpart, right = .ok counterpart)
    (agrees : ∀ value counterpart, left = .ok value → right = .ok counterpart → values value counterpart) :
    Alike values left right := by
  cases left with
  | ok value =>
      obtain ⟨counterpart, rfl⟩ := returns.mp ⟨value, rfl⟩
      exact .ok (agrees _ _ rfl rfl)
  | error reason =>
      cases right with
      | ok counterpart => cases returns.mpr ⟨counterpart, rfl⟩ with | intro _ returned => cases returned
      | error other => exact .error

theorem alike_refl (computed : Except ε α) : Alike Eq computed computed := by
  cases computed with
  | ok value => exact .ok rfl
  | error reason => exact .error

theorem alike_of_eq {computed other : Except ε α} (same : computed = other) : Alike Eq computed other :=
  same ▸ alike_refl computed

theorem Alike.bind {next : α → Except ε γ} {after : β → Except ε δ} (alike : Alike values left right)
    (continues : ∀ value counterpart, values value counterpart → Alike results (next value) (after counterpart)) :
    Alike results (left >>= next) (right >>= after) := by
  cases alike with
  | ok related => exact continues _ _ related
  | error => exact .error

theorem Alike.foldlM {accs : γ → δ → Prop} {step : γ → α → Except ε γ} {other : δ → β → Except ε δ}
    (steps : ∀ acc counterpart value mate, accs acc counterpart → values value mate →
      Alike accs (step acc value) (other counterpart mate))
    {list : List α} {mates : List β} (lists : List.Forall₂ values list mates) {init : γ} {start : δ}
    (starts : accs init start) : Alike accs (list.foldlM step init) (mates.foldlM other start) := by
  induction lists generalizing init start with
  | nil => exact .ok starts
  | cons head _ ih =>
      rw [List.foldlM_cons, List.foldlM_cons]
      exact (steps _ _ _ _ starts head).bind fun _ _ related => ih related

end Alike

section Lockstep

variable {values : α → β → Prop} {results : γ → δ → Prop} {states middle ends : σ → τ → Prop}
variable {left : EStateM ε σ α} {right : EStateM ε τ β}

theorem Lockstep.mono {weaker : α → β → Prop} (lockstep : Lockstep values states ends left right)
    (weakens : ∀ value counterpart, values value counterpart → weaker value counterpart) :
    Lockstep weaker states ends left right := by
  intro before other related
  have matched := lockstep before other related
  generalize left before = first, right other = second at matched
  cases matched with
  | ok related moved => exact .ok (weakens _ _ related) moved
  | error => exact .error

theorem Lockstep.strengthen {stronger : σ → τ → Prop} (lockstep : Lockstep values states ends left right)
    (strengthens : ∀ before other, stronger before other → states before other) :
    Lockstep values stronger ends left right :=
  fun before other related => lockstep before other (strengthens before other related)

/-- Both return, related values in related states, or both raise. -/
theorem Matched.cases {first : EStateM.Result ε σ α} {second : EStateM.Result ε τ β}
    (matched : Matched values ends first second) :
    (∃ value counterpart after later, first = .ok value after ∧ second = .ok counterpart later ∧
        values value counterpart ∧ ends after later) ∨
      ∃ reason other after later, first = .error reason after ∧ second = .error other later := by
  cases matched with
  | ok related moved => exact .inl ⟨_, _, _, _, rfl, rfl, related, moved⟩
  | error => exact .inr ⟨_, _, _, _, rfl, rfl⟩

/-- What is known of the values of the left run. -/
theorem Lockstep.with_facts {facts : α → Prop} (lockstep : Lockstep values states ends left right)
    (gives : ∀ before other value after, states before other → left before = .ok value after → facts value) :
    Lockstep (fun value counterpart => values value counterpart ∧ facts value) states ends left right := by
  intro before other related
  rcases (lockstep before other related).cases with ⟨value, counterpart, after, later, leftRan, rightRan, alike, moved⟩ |
    ⟨reason, raised, after, later, leftRan, rightRan⟩
  · rw [leftRan, rightRan]
    exact .ok ⟨alike, gives _ _ _ _ related leftRan⟩ moved
  · rw [leftRan, rightRan]
    exact .error

theorem lockstep_pure {value : α} {counterpart : β} (related : values value counterpart) :
    Lockstep values states states (pure value : EStateM ε σ α) (pure counterpart : EStateM ε τ β) :=
  fun _ _ moved => .ok related moved

theorem lockstep_raise {reason other : ε} :
    Lockstep values states ends (raise reason : EStateM ε σ α) (raise other : EStateM ε τ β) :=
  fun _ _ _ => .error

theorem exists_error_bind_raise (first : EStateM ε σ α) (reason : ε) (before : σ) :
    ∃ raised after, (first >>= fun _ => (raise reason : EStateM ε σ β)) before = .error raised after := by
  cases ran : first before with
  | ok value middle => exact ⟨reason, middle, by rw [bind_of_ok ran]; rfl⟩
  | error raised middle => exact ⟨raised, middle, bind_of_error ran⟩

/-- Two computations that never return. -/
theorem lockstep_of_raises (leftRaises : ∀ before, ∃ reason after, left before = .error reason after)
    (rightRaises : ∀ before, ∃ reason after, right before = .error reason after) : Lockstep values states ends left right := by
  intro before other _
  obtain ⟨_, _, leftRan⟩ := leftRaises before
  obtain ⟨_, _, rightRan⟩ := rightRaises other
  rw [leftRan, rightRan]
  exact .error

theorem lockstep_read {query : σ → α} {counterpart : τ → β}
    (related : ∀ before other, states before other → values (query before) (counterpart other)) :
    Lockstep values states states (read query : EStateM ε σ α) (read counterpart) :=
  fun _ _ moved => .ok (related _ _ moved) moved

/-- A query that finds the same in related states. -/
theorem lockstep_query {query : σ → α} {counterpart : τ → α}
    (same : ∀ before other, states before other → query before = counterpart other) :
    Lockstep Eq states states (read query : EStateM ε σ α) (read counterpart) :=
  lockstep_read same

theorem lockstep_write {change : σ → σ} {counterpart : τ → τ}
    (moves : ∀ before other, states before other → states (change before) (counterpart other)) :
    Lockstep Eq states states (write change : EStateM ε σ PUnit) (write counterpart) :=
  fun _ _ moved => .ok rfl (moves _ _ moved)

theorem lockstep_lift {computed : Except ε α} {counterpart : Except ε β} (alike : Alike values computed counterpart) :
    Lockstep values states states (lift computed : EStateM ε σ α) (lift counterpart) := by
  cases alike with
  | ok related => exact lockstep_pure related
  | error => exact lockstep_raise

/-- The continuations are compared from the state in which the first parts end. -/
theorem Matched.bind {next : α → EStateM ε σ γ} {after : β → EStateM ε τ δ} {before : σ} {other : τ}
    (matched : Matched values middle (left before) (right other))
    (continues : ∀ value counterpart state later, left before = .ok value state → right other = .ok counterpart later →
      values value counterpart → middle state later → Matched results ends (next value state) (after counterpart later)) :
    Matched results ends ((left >>= next) before) ((right >>= after) other) := by
  rcases matched.cases with ⟨value, counterpart, state, later, leftRan, rightRan, related, moved⟩ |
    ⟨reason, raised, state, later, leftRan, rightRan⟩
  · rw [bind_of_ok leftRan, bind_of_ok rightRan]
    exact continues value counterpart state later leftRan rightRan related moved
  · rw [bind_of_error leftRan, bind_of_error rightRan]
    exact .error

theorem Lockstep.bind {next : α → EStateM ε σ γ} {after : β → EStateM ε τ δ}
    (lockstep : Lockstep values states middle left right)
    (continues : ∀ value counterpart, values value counterpart →
      Lockstep results middle ends (next value) (after counterpart)) :
    Lockstep results states ends (left >>= next) (right >>= after) :=
  fun before other moved => (lockstep before other moved).bind
    fun value counterpart _ _ _ _ related moved => continues value counterpart related _ _ moved

theorem Lockstep.foldlM {accs : γ → δ → Prop} {step : γ → α → EStateM ε σ γ} {other : δ → β → EStateM ε τ δ}
    {list : List α} {mates : List β} (lists : List.Forall₂ values list mates)
    (steps : ∀ acc counterpart value mate, accs acc counterpart → values value mate →
      Lockstep accs states states (step acc value) (other counterpart mate))
    {init : γ} {start : δ} (starts : accs init start) :
    Lockstep accs states states (list.foldlM step init) (mates.foldlM other start) := by
  induction lists generalizing init start with
  | nil => exact lockstep_pure starts
  | cons head _ ih =>
      rw [List.foldlM_cons, List.foldlM_cons]
      exact (steps _ _ _ _ starts head).bind fun _ _ related => ih related

/-- Each iteration may rely on the state in which the left run comes to it. -/
theorem matched_foldlM {accs : γ → δ → Prop} {step : γ → α → EStateM ε σ γ} {other : δ → α → EStateM ε τ δ} {list : List α}
    {init : γ} {start : δ} {before : σ} {counterpart : τ} (starts : accs init start) (related : states before counterpart)
    (steps : ∀ value acc mate reached met, Reaches step list init before value acc reached → accs acc mate →
      states reached met → Matched accs states (step acc value reached) (other mate value met)) :
    Matched accs states (list.foldlM step init before) (list.foldlM other start counterpart) := by
  induction list generalizing init start before counterpart with
  | nil => exact .ok starts related
  | cons first rest ih =>
      rw [List.foldlM_cons, List.foldlM_cons]
      refine (steps first init start before counterpart (reaches_cons.mpr (.inl ⟨rfl, rfl, rfl⟩)) starts related).bind ?_
      intro next mate middle met ran _ starts moved
      exact ih starts moved fun value acc mate reached met reaches =>
        steps value acc mate reached met (reaches_cons.mpr (.inr ⟨next, middle, ran, reaches⟩))

theorem matched_refl (result : EStateM.Result ε σ α) : Matched Eq Eq result result := by
  cases result with
  | ok value after => exact .ok rfl rfl
  | error reason after => exact .error

/-- Both transactions commit or both roll back. -/
theorem Matched.transact {committed : σ} {other : τ} (matched : Matched values ends (left committed) (right other))
    (kept : ends committed other) : ends (Transaction.transact left committed).2 (Transaction.transact right other).2 := by
  rcases matched.cases with ⟨_, _, _, _, leftRan, rightRan, _, moved⟩ | ⟨_, _, _, _, leftRan, rightRan⟩
  · rwa [transact_of_ok leftRan, transact_of_ok rightRan]
  · rwa [transact_of_error leftRan, transact_of_error rightRan]

end Lockstep

end SmartProcurement.Transaction
