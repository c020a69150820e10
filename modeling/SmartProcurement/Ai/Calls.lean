import SmartProcurement.Ai.Outages

namespace SmartProcurement.Ai

open Relational Transaction Observation

/-! # The calls of the provider

The same loop with the provider called rather than consulted: each call is counted
and takes the next outcome.  Forgetting the count gives `generateStructured` back.
-/

/-- What one call of the provider comes to. -/
inductive Outcome (α : Type) where
  | unavailable (shown : String)
  | timedOut (shown : String)
  | notJson (shown : String)
  | schemaInvalid (shown : String)
  | valid (value : α)

/-- The `except` clause that the outcome meets. -/
def Outcome.attempt {α : Type} : Outcome α → Attempt α
  | .unavailable shown => .providerError shown
  | .timedOut shown => .providerError shown
  | .notJson shown => .invalidOutput shown
  | .schemaInvalid shown => .invalidOutput shown
  | .valid value => .usable value

def Outcome.isValid {α : Type} : Outcome α → Bool
  | .valid _ => true
  | _ => false

/-- The provider that comes to these outcomes, one after the other. -/
def scripted {α : Type} (outcomes : Nat → Outcome α) : Provider α := fun call => (outcomes call).attempt

/-- The transaction, and how often the provider has been called in it. -/
structure Metered where
  db : DB
  calls : Nat

abbrev MeteredSession := EStateM Error Metered

def onDatabase {α : Type} (body : Session α) : MeteredSession α := fun before =>
  match body before.db with
  | .ok value db => .ok value { before with db }
  | .error reason db => .error reason { before with db }

/-- `provider.generate`, with what is made of its text. -/
def generate {α : Type} (provider : Provider α) : MeteredSession (Attempt α) := do
  let attempt ← read fun before => provider before.calls
  write fun before => { before with calls := before.calls + 1 }
  return attempt

def retryMetered {α : Type} (provider : Provider α) : List Nat → String → MeteredSession (Except String α)
  | [], lastError => return .error lastError
  | _ :: rest, _ => do
      match ← generate provider with
      | .usable value => return .ok value
      | .providerError shown => retryMetered provider rest ("provider error: " ++ shown)
      | .invalidOutput shown => retryMetered provider rest ("invalid structured output: " ++ shown)
      | .raised reason => raise reason

def generateMetered {α : Type} (now : Timestamp) (provider : Provider α) (request : Request) : MeteredSession α := do
  match ← retryMetered provider (List.range request.attempts) "unknown" with
  | .ok value => return value
  | .error lastError => do
      onDatabase (failSafe now request [("error", lastError), ("attempts", toString request.attempts)])
      raise (unavailable request lastError)

/-- The run without the count. -/
def uncounted {α : Type} : EStateM.Result Error Metered α → EStateM.Result Error DB α
  | .ok value after => .ok value after.db
  | .error reason after => .error reason after.db

section Results

variable {α : Type} {provider : Provider α} {db : DB} {calls : Nat} {attempts : List Nat} {lastError : String}

theorem retryMetered_cons {attempt : Nat} : retryMetered provider (attempt :: attempts) lastError ⟨db, calls⟩ =
    match provider calls with
    | .usable value => .ok (.ok value) ⟨db, calls + 1⟩
    | .providerError shown => retryMetered provider attempts ("provider error: " ++ shown) ⟨db, calls + 1⟩
    | .invalidOutput shown => retryMetered provider attempts ("invalid structured output: " ++ shown) ⟨db, calls + 1⟩
    | .raised reason => .error reason ⟨db, calls + 1⟩ := by
  have called : generate provider ⟨db, calls⟩ = .ok (provider calls) ⟨db, calls + 1⟩ := rfl
  refine (bind_of_ok called).trans ?_
  cases provider calls <;> rfl

/-- The count starts where the numbering of the attempts does. -/
theorem retryMetered_uncounted (count first : Nat) (lastError : String) :
    uncounted (retryMetered provider (List.range' first count) lastError ⟨db, first⟩) =
      (lift (retry provider (List.range' first count) lastError) : Session _) db := by
  induction count generalizing first lastError with
  | zero => rfl
  | succ count ih =>
      rw [List.range'_succ, retryMetered_cons, retry]
      cases provider first with
      | usable value => rfl
      | providerError shown => exact ih (first + 1) _
      | invalidOutput shown => exact ih (first + 1) _
      | raised reason => rfl

theorem onDatabase_uncounted {saving : Session PUnit} {reason : Error} {before : Metered} :
    uncounted ((do onDatabase saving; raise reason : MeteredSession α) before) =
      (do saving; raise reason : Session α) before.db := by
  cases ran : saving before.db with
  | ok done after =>
      have counted : onDatabase saving before = .ok done { before with db := after } := by
        simp only [onDatabase, ran]
      rw [bind_of_ok counted, bind_of_ok ran]
      rfl
  | error raised after =>
      have counted : onDatabase saving before = .error raised { before with db := after } := by
        simp only [onDatabase, ran]
      rw [bind_of_error counted, bind_of_error ran]
      rfl

/-- Counting the calls changes nothing else. -/
theorem generateMetered_uncounted (now : Timestamp) (request : Request) :
    uncounted (generateMetered now provider request ⟨db, 0⟩) = generateStructured now provider request db := by
  have same : uncounted (retryMetered provider (List.range request.attempts) "unknown" ⟨db, 0⟩) =
      (lift (retry provider (List.range request.attempts) "unknown") : Session _) db := by
    rw [List.range_eq_range']
    exact retryMetered_uncounted request.attempts 0 "unknown"
  cases tried : retryMetered provider (List.range request.attempts) "unknown" ⟨db, 0⟩ with
  | error reason middle =>
      rw [tried] at same
      rw [generateMetered, generateStructured, bind_of_error tried, bind_of_error same.symm]
      rfl
  | ok found middle =>
      rw [tried] at same
      rw [generateMetered, generateStructured, bind_of_ok tried, bind_of_ok same.symm]
      cases found with
      | ok value => rfl
      | error last => exact onDatabase_uncounted

/-- The loop stops at the first usable output. -/
theorem retryMetered_usable {value : α} (failed : Nat) (enough : failed < attempts.length)
    (earlier : ∀ call < failed, ∃ shown, provider (calls + call) = .providerError shown ∨
      provider (calls + call) = .invalidOutput shown)
    (usable : provider (calls + failed) = .usable value) :
    retryMetered provider attempts lastError ⟨db, calls⟩ = .ok (.ok value) ⟨db, calls + failed + 1⟩ := by
  induction attempts generalizing calls failed lastError with
  | nil => exact absurd enough (Nat.not_lt_zero failed)
  | cons attempt rest ih =>
      rw [retryMetered_cons]
      cases failed with
      | zero =>
          rw [Nat.add_zero] at usable
          rw [usable]
      | succ failed =>
          have later (lastError : String) : retryMetered provider rest lastError ⟨db, calls + 1⟩ =
              .ok (.ok value) ⟨db, calls + (failed + 1) + 1⟩ := by
            have shift (call : Nat) : calls + 1 + call = calls + (call + 1) := by omega
            rw [← shift failed]
            refine ih failed (Nat.lt_of_succ_lt_succ enough) (fun call before => ?_) ?_
            · rw [shift call]
              exact earlier (call + 1) (Nat.succ_lt_succ before)
            · rw [shift failed]
              exact usable
          obtain ⟨shown, first | first⟩ := earlier 0 (Nat.succ_pos failed)
          all_goals
            rw [Nat.add_zero] at first
            rw [first]
            exact later _

/-- It makes every call when no output is usable. -/
theorem retryMetered_exhausted (failing : ∀ call < attempts.length, ∃ shown,
      provider (calls + call) = .providerError shown ∨ provider (calls + call) = .invalidOutput shown) :
    ∃ final, retryMetered provider attempts lastError ⟨db, calls⟩ = .ok (.error final) ⟨db, calls + attempts.length⟩ := by
  induction attempts generalizing calls lastError with
  | nil => exact ⟨lastError, rfl⟩
  | cons attempt rest ih =>
      rw [retryMetered_cons]
      have later (lastError : String) : ∃ final, retryMetered provider rest lastError ⟨db, calls + 1⟩ =
          .ok (.error final) ⟨db, calls + (rest.length + 1)⟩ := by
        have shift (call : Nat) : calls + 1 + call = calls + (call + 1) := by omega
        rw [← shift rest.length]
        refine ih fun call before => ?_
        rw [shift call]
        exact failing (call + 1) (Nat.succ_lt_succ before)
      obtain ⟨shown, first | first⟩ := failing 0 (Nat.succ_pos rest.length)
      all_goals
        rw [Nat.add_zero] at first
        rw [first]
        exact later _

theorem failed_of_not_valid {outcomes : Nat → Outcome α} {call : Nat} (failed : (outcomes call).isValid = false) :
    ∃ shown, scripted outcomes call = .providerError shown ∨ scripted outcomes call = .invalidOutput shown := by
  unfold scripted
  cases outcome : outcomes call with
  | unavailable shown => exact ⟨shown, .inl rfl⟩
  | timedOut shown => exact ⟨shown, .inl rfl⟩
  | notJson shown => exact ⟨shown, .inr rfl⟩
  | schemaInvalid shown => exact ⟨shown, .inr rfl⟩
  | valid value =>
      rw [outcome] at failed
      cases failed

/-- A fail-safe that meets at most one open gap is written, and touches only the two tables. -/
theorem failSafe_returns (now : Timestamp) (request : Request) (outcome : List (String × String))
    (single : ((aiUnavailable request.enterpriseId request.capabilityKey).openGaps db).length ≤ 1) :
    ∃ gaps records, failSafe now request outcome db =
      .ok ⟨⟩ { db with observabilityGap := gaps, auditRecord := records } := by
  obtain ⟨done, opened, opening⟩ : ∃ done opened,
      openGap now (aiUnavailable request.enterpriseId request.capabilityKey) db = .ok done opened := openGap_returns single
  obtain ⟨_, gaps, rfl⟩ := openGap_ok opening
  exact ⟨gaps, _, bind_of_ok opening⟩

/-- The k-th output is returned after k calls if it is the first valid one, and nothing is
written; without one, every attempt is a call and the fail-safe is written. -/
theorem generateMetered_exact (now : Timestamp) (outcomes : Nat → Outcome α) (request : Request) (before : DB)
    (single : ((aiUnavailable request.enterpriseId request.capabilityKey).openGaps before).length ≤ 1) :
    (∀ k value, k < request.attempts → outcomes k = .valid value → (∀ earlier < k, (outcomes earlier).isValid = false) →
      generateMetered now (scripted outcomes) request ⟨before, 0⟩ = .ok value ⟨before, k + 1⟩) ∧
    ((∀ k < request.attempts, (outcomes k).isValid = false) →
      ∃ lastError gaps records,
        generateMetered now (scripted outcomes) request ⟨before, 0⟩ = .error (unavailable request lastError)
          ⟨{ before with observabilityGap := gaps, auditRecord := records }, request.attempts⟩ ∧
        FailSafe request before { before with observabilityGap := gaps, auditRecord := records }) := by
  constructor
  · intro k value bound valid first
    have usable : scripted outcomes k = .usable value := congrArg Outcome.attempt valid
    have tried : retryMetered (scripted outcomes) (List.range request.attempts) "unknown" ⟨before, 0⟩ =
        .ok (.ok value) ⟨before, 0 + k + 1⟩ := by
      refine retryMetered_usable k (by simpa using bound) (fun call earlier => ?_) ?_
      · rw [Nat.zero_add]
        exact failed_of_not_valid (first call earlier)
      · rw [Nat.zero_add]
        exact usable
    rw [Nat.zero_add] at tried
    exact bind_of_ok tried
  · intro failing
    obtain ⟨final, tried⟩ : ∃ final, retryMetered (scripted outcomes) (List.range request.attempts) "unknown" ⟨before, 0⟩ =
        .ok (.error final) ⟨before, 0 + (List.range request.attempts).length⟩ := by
      refine retryMetered_exhausted fun call bound => ?_
      rw [Nat.zero_add]
      exact failed_of_not_valid (failing call (bound.trans_eq List.length_range))
    rw [Nat.zero_add, List.length_range] at tried
    obtain ⟨gaps, records, saved⟩ :=
      failSafe_returns now request [("error", final), ("attempts", toString request.attempts)] single
    refine ⟨final, gaps, records, ?_, failSafe_ok saved⟩
    have counted : onDatabase (failSafe now request [("error", final), ("attempts", toString request.attempts)])
        ⟨before, request.attempts⟩ =
        .ok ⟨⟩ ⟨{ before with observabilityGap := gaps, auditRecord := records }, request.attempts⟩ := by
      simp only [onDatabase, saved]
    rw [generateMetered, bind_of_ok tried]
    exact bind_of_ok counted

end Results

theorem generateMetered_exact_secondCall :
    generateMetered 0 (scripted fun call => if call = 0 then .timedOut "TimeoutError()" else .valid call)
      { enterpriseId := 1, capabilityKey := "proc.inventory.observe", schema := "MappingSuggestionSet" } ⟨default, 0⟩ =
      .ok 1 ⟨default, 2⟩ :=
  (generateMetered_exact 0 _ _ default (by decide)).1 1 1 (by decide) rfl fun earlier before => by
    rw [Nat.lt_one_iff.mp before]
    rfl

end SmartProcurement.Ai
