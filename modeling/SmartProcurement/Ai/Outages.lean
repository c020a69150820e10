import SmartProcurement.Analysis.Explain

namespace SmartProcurement.Ai

open Relational Transaction Observation

/-! # Outages of the AI

A failure opens the gap of its capability.  No call closes it, so it outlasts the
outage.
-/

/-- `except (LLMUnavailable, TimeoutError)`: the exceptions that escape the retry
loop are others. -/
def Catches {α : Type} (provider : Provider α) : Prop :=
  ∀ attempt message, provider attempt ≠ .raised (.llmUnavailable message)

/-- The fail-safe is written: one gap is open for the capability, and there is one
audit record more. -/
structure FailSafe (request : Request) (before after : DB) : Prop where
  gap : ((aiUnavailable request.enterpriseId request.capabilityKey).openGaps after).length = 1
  others : ∀ key, key ≠ aiUnavailable request.enterpriseId request.capabilityKey →
    key.openGaps after = key.openGaps before
  record : ∃ entry : AuditRecord, after.auditRecord = before.auditRecord.insert entry ∧
    entry.enterpriseId = request.enterpriseId ∧ entry.eventType = "ai_unavailable" ∧
    entry.capabilityKey = some request.capabilityKey

section Results

variable {now : Timestamp} {request : Request} {outcome : List (String × String)} {before after : DB} {α : Type}
variable {provider : Provider α} {message : String} {done : PUnit}

theorem openGap_records {key : GapKey} (ran : openGap now key before = .ok done after) :
    after.auditRecord = before.auditRecord := by
  obtain ⟨_, _, rfl⟩ := openGap_ok ran
  rfl

theorem failSafe_ok (ran : failSafe now request outcome before = .ok done after) : FailSafe request before after := by
  simp only [failSafe, Audit.record, bind_eq_ok, lift_eq_ok, write_eq_ok] at ran
  obtain ⟨_, opened, opening, _, _, ⟨_, rfl⟩, rfl⟩ := ran
  have others (key : GapKey) (different : key ≠ aiUnavailable request.enterpriseId request.capabilityKey) :
      key.openGaps opened = key.openGaps before := openGap_frame opening different
  have single : ((aiUnavailable request.enterpriseId request.capabilityKey).openGaps opened).length = 1 :=
    openGap_single opening
  exact ⟨single, others, _, congrArg (Table.insert · _) (openGap_records opening), rfl, rfl, rfl⟩

theorem failSafe_met (ran : failSafe now request outcome before = .ok done after) :
    ((aiUnavailable request.enterpriseId request.capabilityKey).openGaps before).length ≤ 1 := by
  obtain ⟨_, _, opening, _⟩ := bind_eq_ok.mp ran
  exact openGap_met opening

/-- A fail-safe that raises has met several open gaps, and writes nothing. -/
theorem failSafe_raised {reason : Error} (raised : failSafe now request outcome before = .error reason after) :
    after = before ∧ ¬ ((aiUnavailable request.enterpriseId request.capabilityKey).openGaps before).length ≤ 1 := by
  have passes : Audit.check {
      eventType := "ai_unavailable", capabilityKey := some request.capabilityKey
      action := some ("generate_structured:" ++ request.schema), outcome } = .ok ⟨⟩ := rfl
  simp only [failSafe, Audit.record, bind_eq_error, lift_eq_error, write_eq_error, and_false, exists_false,
    or_false] at raised
  rcases raised with opening | ⟨_, _, _, checked, _⟩
  · exact openGap_error opening
  · cases passes.symm.trans checked

theorem retry_raised (catches : Catches provider) (attempts : List Nat) (lastError : String) :
    retry provider attempts lastError ≠ .error (.llmUnavailable message) := by
  induction attempts generalizing lastError with
  | nil => exact nofun
  | cons attempt rest ih =>
      unfold retry
      cases tried : provider attempt with
      | usable value => exact nofun
      | providerError shown => exact ih _
      | invalidOutput shown => exact ih _
      | raised reason =>
          rintro ⟨⟩
          exact catches attempt message tried

theorem generateStructured_unavailable (catches : Catches provider)
    (ran : generateStructured now provider request before = .error (.llmUnavailable message) after) :
    FailSafe request before after := by
  simp only [generateStructured, bind_eq_error, lift_eq_error, lift_eq_ok] at ran
  rcases ran with ⟨raised, _⟩ | ⟨tried, _, ⟨_, rfl⟩, ran⟩
  · exact absurd raised (retry_raised catches _ _)
  · cases tried with
    | ok value => simp at ran
    | error lastError =>
        simp only [bind_eq_error, raise_eq_error] at ran
        rcases ran with failing | ⟨_, _, written, _, rfl⟩
        · cases failSafe_error failing
        · exact failSafe_ok written

end Results

end SmartProcurement.Ai

namespace SmartProcurement.Analysis

open Relational Transaction Observation

section Results

variable {now : Timestamp} {provider : Ai.Provider Ai.RiskExplanation} {enterpriseId riskFindingId : Uuid}
variable {before after : DB} {message : String}

theorem generateExplanation_failSafe (catches : Ai.Catches provider)
    (ran : generateExplanation now provider enterpriseId riskFindingId before = .error (.llmUnavailable message) after) :
    Ai.FailSafe (explanationRequest enterpriseId) before after := by
  unfold generateExplanation handle at ran
  cases generated : Ai.generateStructured now provider (explanationRequest enterpriseId) before with
  | ok value middle =>
      rw [generated] at ran
      cases ran
  | error reason middle =>
      rw [generated] at ran
      cases reason with
      | llmUnavailable shown =>
          simp only [setAiStatus, bind_eq_error, write_eq_error, write_eq_ok, raise_eq_error, false_or] at ran
          obtain ⟨_, _, rfl, _, rfl⟩ := ran
          exact { Ai.generateStructured_unavailable catches generated with }
      | _ => simp at ran

theorem rejectGrounding_failSafe
    (ran : rejectGrounding now enterpriseId riskFindingId before = .error (.llmUnavailable message) after) :
    Ai.FailSafe (explanationRequest enterpriseId) before after := by
  simp only [rejectGrounding, markUnavailable, setAiStatus, bind_eq_error, write_eq_error, write_eq_ok,
    raise_eq_error, false_or] at ran
  rcases ran with failing | ⟨_, middle, marked, _, _, rfl, _, rfl⟩
  · cases Ai.failSafe_error failing
  · exact { Ai.failSafe_ok marked with }

/-- Whichever way an explanation run finds the AI unavailable, the fail-safe is written. -/
theorem explainRisk_failSafe (catches : Ai.Catches provider)
    (ran : explainRisk now provider enterpriseId riskFindingId before = .error (.llmUnavailable message) after) :
    Ai.FailSafe (explanationRequest enterpriseId) before after := by
  simp only [explainRisk, bind_eq_error, read_eq_error, false_or, read_eq_ok] at ran
  obtain ⟨found, _, ⟨_, rfl⟩, ran⟩ := ran
  cases found with
  | none => simp at ran
  | some finding =>
      dsimp only at ran
      split at ran
      · simp at ran
      · simp only [bind_eq_error, read_eq_error, false_or, read_eq_ok] at ran
        obtain ⟨valid, _, ⟨_, rfl⟩, generating | ⟨parsed, _, generated, ran⟩⟩ := ran
        · exact generateExplanation_failSafe catches generating
        · obtain rfl := generateExplanation_ok generated
          cases kept : parsed.dataUsed.filter (· ∈ valid) with
          | nil =>
              rw [kept] at ran
              exact rejectGrounding_failSafe ran
          | cons first rest =>
              rw [kept] at ran
              exact absurd ran addExplanation_available

end Results

end SmartProcurement.Analysis

namespace SmartProcurement.Ai

open Relational Transaction Observation

/-! ## Calls one after another -/

/-- A call that asks the AI, for an output of its own or for an explanation. -/
inductive Call where
  | generateStructured {α : Type} (now : Timestamp) (provider : Provider α) (catches : Catches provider) (request : Request)
  | explainRisk (now : Timestamp) (provider : Provider RiskExplanation) (catches : Catches provider)
      (enterpriseId riskFindingId : Uuid)

def Call.request : Call → Request
  | .generateStructured _ _ _ request => request
  | .explainRisk _ _ _ enterpriseId _ => Analysis.explanationRequest enterpriseId

def Call.run : Call → Session PUnit
  | .generateStructured now provider _ request => do
      let _ ← Ai.generateStructured now provider request
  | .explainRisk now provider _ enterpriseId riskFindingId => do
      let _ ← Analysis.explainRisk now provider enterpriseId riskFindingId

/-- The caller commits what the call has written, also when the AI was
unavailable; any other exception rolls back. -/
def Call.commit (db : DB) (call : Call) : DB :=
  match call.run db with
  | .ok _ after => after
  | .error (.llmUnavailable _) after => after
  | .error _ _ => db

def commitAll (calls : List Call) (initial : DB) : DB := calls.foldl Call.commit initial

/-- An explanation of a finding that the enterprise does not have asks nothing. -/
def Call.asks (db : DB) : Call → Bool
  | .generateStructured _ _ _ _ => true
  | .explainRisk _ _ _ enterpriseId riskFindingId =>
      (db.riskFinding.find? riskFindingId).any fun finding => finding.enterpriseId = enterpriseId

inductive Verdict where
  | succeeded
  | unavailable
  | crashed
deriving DecidableEq, Repr

def verdictOf {α : Type} : EStateM.Result Error DB α → Verdict
  | .ok _ _ => .succeeded
  | .error (.llmUnavailable _) _ => .unavailable
  | .error _ _ => .crashed

/-- The capability that was asked and what came of it. -/
abbrev Answer := GapKey × Verdict

def Call.key (call : Call) : GapKey := aiUnavailable call.request.enterpriseId call.request.capabilityKey

def Call.answer (db : DB) (call : Call) : List Answer :=
  if call.asks db then [(call.key, verdictOf (call.run db))] else []

def answers : DB → List Call → List Answer
  | _, [] => []
  | db, call :: rest => call.answer db ++ answers (call.commit db) rest

/-- The latest call for the capability failed. -/
def failing (key : GapKey) (given : List Answer) : Bool :=
  (given.filter (·.1 = key)).getLast?.any (·.2 ≠ .succeeded)

/-- The gap of each capability says whether its latest call failed. -/
def FollowsHealth (initial : DB) (calls : List Call) : Prop :=
  ∀ enterpriseId capabilityKey, ((aiUnavailable enterpriseId capabilityKey).openGaps (commitAll calls initial)).length =
    if failing (aiUnavailable enterpriseId capabilityKey) (answers initial calls) then 1 else 0

/-- For no capability does a call succeed after the AI was unavailable, nor end
with an exception of another kind before it was. -/
def Unrecovered (given : List Answer) : Prop :=
  ∀ earlier key verdict later, given = earlier ++ (key, verdict) :: later →
    match verdict with
    | .succeeded => (key, .unavailable) ∉ earlier
    | .unavailable => True
    | .crashed => (key, .unavailable) ∈ earlier

section Runs

variable {db initial after : DB} {call : Call} {calls : List Call} {key : GapKey} {message : String} {given : List Answer}
variable {verdict : Verdict}

theorem Call.run_ok {done : PUnit} (ran : call.run db = .ok done after) : after.observabilityGap = db.observabilityGap := by
  cases call with
  | generateStructured now provider catches request =>
      simp only [Call.run, bind_eq_ok, pure_eq_ok] at ran
      obtain ⟨_, _, generated, _, rfl⟩ := ran
      rw [generateStructured_ok generated]
  | explainRisk now provider catches enterpriseId riskFindingId =>
      simp only [Call.run, bind_eq_ok, pure_eq_ok] at ran
      obtain ⟨_, _, explained, _, rfl⟩ := ran
      obtain ⟨_, _, _, _, _, _, rfl⟩ := Analysis.explainRisk_ok explained
      rfl

theorem Call.run_unavailable (ran : call.run db = .error (.llmUnavailable message) after) :
    call.asks db = true ∧ FailSafe call.request db after := by
  cases call with
  | generateStructured now provider catches request =>
      simp only [Call.run, bind_eq_error, pure_eq_error, and_false, exists_false, or_false] at ran
      exact ⟨rfl, generateStructured_unavailable catches ran⟩
  | explainRisk now provider catches enterpriseId riskFindingId =>
      simp only [Call.run, bind_eq_error, pure_eq_error, and_false, exists_false, or_false] at ran
      refine ⟨?_, Analysis.explainRisk_failSafe catches ran⟩
      simp only [Analysis.explainRisk, bind_eq_error, read_eq_error, false_or, read_eq_ok] at ran
      obtain ⟨found, _, ⟨looked, rfl⟩, ran⟩ := ran
      cases found with
      | none => simp at ran
      | some finding =>
          dsimp only at ran
          split at ran
          · simp at ran
          · next own => simp [Call.asks, looked, not_not.mp own]

theorem Call.mem_answer : (key, verdict) ∈ call.answer db ↔
    call.asks db = true ∧ key = call.key ∧ verdict = verdictOf (call.run db) := by
  unfold Call.answer
  split
  · next asks => simp [asks]
  · next silent => simp [silent]

/-- What one call does to the gaps of a capability. -/
theorem Call.commit_gaps (db : DB) (call : Call) (key : GapKey) : (key.openGaps (call.commit db)).length =
    if (key, .unavailable) ∈ call.answer db then 1 else (key.openGaps db).length := by
  cases ran : call.run db with
  | ok done after =>
      have gaps : key.openGaps after = key.openGaps db := by rw [GapKey.openGaps, Call.run_ok ran, ← GapKey.openGaps]
      rw [if_neg (by simp [Call.mem_answer, ran, verdictOf]), Call.commit, ran]
      exact congrArg List.length gaps
  | error reason after =>
      cases reason with
      | llmUnavailable message =>
          obtain ⟨asks, written⟩ := Call.run_unavailable ran
          rw [Call.commit, ran]
          by_cases own : key = call.key
          · rw [if_pos (Call.mem_answer.mpr ⟨asks, own, by rw [ran]; rfl⟩), own]
            exact written.gap
          · rw [if_neg fun listed => own (Call.mem_answer.mp listed).2.1]
            exact congrArg List.length (written.others key own)
      | _ =>
          rw [if_neg (by simp [Call.mem_answer, ran, verdictOf]), Call.commit, ran]

theorem commitAll_gaps (calls : List Call) (initial : DB) (key : GapKey) :
    (key.openGaps (commitAll calls initial)).length =
      if (key, .unavailable) ∈ answers initial calls then 1 else (key.openGaps initial).length := by
  induction calls generalizing initial with
  | nil => rfl
  | cons call rest ih =>
      change (key.openGaps (commitAll rest (call.commit initial))).length = _
      rw [ih, Call.commit_gaps, answers]
      by_cases first : (key, Verdict.unavailable) ∈ call.answer initial <;> simp [first]

theorem answers_append (calls : List Call) (call : Call) (initial : DB) :
    answers initial (calls ++ [call]) = answers initial calls ++ call.answer (commitAll calls initial) := by
  induction calls generalizing initial with
  | nil => exact List.append_nil _
  | cons first rest ih =>
      rw [List.cons_append, answers, answers, ih, List.append_assoc]
      rfl

/-! ## Health and gaps -/

theorem unrecovered_nil : Unrecovered [] := fun _ _ _ _ split => by simp at split

theorem unrecovered_append : Unrecovered (given ++ [(key, verdict)]) ↔ Unrecovered given ∧
    match verdict with
    | .succeeded => (key, .unavailable) ∉ given
    | .unavailable => True
    | .crashed => (key, .unavailable) ∈ given := by
  constructor
  · intro steady
    refine ⟨fun earlier other otherVerdict later split => ?_, steady given key verdict [] rfl⟩
    exact steady earlier other otherVerdict (later ++ [(key, verdict)]) (by simp [split])
  · rintro ⟨steady, last⟩ earlier other otherVerdict later split
    rcases List.eq_nil_or_concat later with rfl | ⟨front, final, rfl⟩
    · obtain ⟨rfl, same⟩ := List.append_inj' split rfl
      cases same
      exact last
    · rw [List.concat_eq_append, ← List.cons_append, ← List.append_assoc] at split
      exact steady earlier other otherVerdict front (List.append_inj' split rfl).1

theorem failing_append (given : List Answer) (key other : GapKey) (verdict : Verdict) :
    failing key (given ++ [(other, verdict)]) = if other = key then decide (verdict ≠ .succeeded) else failing key given := by
  unfold failing
  rw [List.filter_append]
  by_cases own : other = key
  · simp [own]
  · simp [own]

/-- The answer of a call for the capability itself. -/
theorem agrees_append (given : List Answer) (key : GapKey) (verdict : Verdict) :
    ((key, .unavailable) ∈ given ++ [(key, verdict)] ↔ failing key (given ++ [(key, verdict)]) = true) ↔
      match verdict with
      | .succeeded => (key, .unavailable) ∉ given
      | .unavailable => True
      | .crashed => (key, .unavailable) ∈ given := by
  rw [failing_append, if_pos rfl]
  cases verdict <;> simp

/-- The gaps of fresh capabilities after the calls. -/
theorem followsHealth_iff (fresh : ∀ enterpriseId capabilityKey, (aiUnavailable enterpriseId capabilityKey).openGaps initial = []) :
    FollowsHealth initial calls ↔ ∀ enterpriseId capabilityKey,
      (aiUnavailable enterpriseId capabilityKey, .unavailable) ∈ answers initial calls ↔
        failing (aiUnavailable enterpriseId capabilityKey) (answers initial calls) = true := by
  refine forall₂_congr fun enterpriseId capabilityKey => ?_
  rw [commitAll_gaps, fresh, List.length_nil]
  split <;> split <;> simp_all

/-- The gaps of all capabilities follow their health in every state of the run
exactly if no capability recovers. -/
theorem followsHealth_iff_unrecovered
    (fresh : ∀ enterpriseId capabilityKey, (aiUnavailable enterpriseId capabilityKey).openGaps initial = [])
    (calls : List Call) :
    (∀ done, done <+: calls → FollowsHealth initial done) ↔ Unrecovered (answers initial calls) := by
  induction calls using List.reverseRecOn with
  | nil =>
      refine iff_of_true (fun done isStart => ?_) unrecovered_nil
      rw [List.prefix_nil.mp isStart, followsHealth_iff fresh]
      simp [answers, failing]
  | append_singleton calls call ih =>
      have prefixes : (∀ done, done <+: calls ++ [call] → FollowsHealth initial done) ↔
          (∀ done, done <+: calls → FollowsHealth initial done) ∧ FollowsHealth initial (calls ++ [call]) := by
        constructor
        · exact fun all => ⟨fun done isStart => all done (isStart.trans (List.prefix_append _ _)), all _ List.prefix_rfl⟩
        · rintro ⟨before, whole⟩ done isStart
          rcases List.prefix_concat_iff.mp isStart with rfl | isStart
          · exact whole
          · exact before done isStart
      rw [prefixes, ih, answers_append]
      cases asks : call.asks (commitAll calls initial) with
      | false =>
          have silent : call.answer (commitAll calls initial) = [] := by simp [Call.answer, asks]
          rw [silent, List.append_nil]
          refine and_iff_left_of_imp fun steady => ?_
          have follows := (followsHealth_iff fresh).mp (ih.mpr steady calls List.prefix_rfl)
          rwa [followsHealth_iff fresh, answers_append, silent, List.append_nil]
      | true =>
          have given : call.answer (commitAll calls initial) =
              [(call.key, verdictOf (call.run (commitAll calls initial)))] := by simp [Call.answer, asks]
          rw [given, unrecovered_append]
          refine and_congr_right fun steady => ?_
          have follows := (followsHealth_iff fresh).mp (ih.mpr steady calls List.prefix_rfl)
          rw [followsHealth_iff fresh, answers_append, given, ← agrees_append]
          constructor
          · exact fun agrees => agrees call.request.enterpriseId call.request.capabilityKey
          · intro agrees enterpriseId capabilityKey
            by_cases own : call.key = aiUnavailable enterpriseId capabilityKey
            · rw [← own]
              exact agrees
            · rw [failing_append, if_neg own, ← follows enterpriseId capabilityKey]
              simp [Ne.symm own]

end Runs

/-! ## An outage -/

def outage : Provider Unit := fun _ => .providerError "timeout"

def answering : Provider Unit := fun _ => .usable ()

theorem outage_catches : Catches outage := nofun

theorem answering_catches : Catches answering := nofun

def diagnosis : Request where
  enterpriseId := 1
  capabilityKey := "proc.risk.diagnose"
  schema := "RiskExplanation"

/-- The AI answers once, and is then unavailable twice. -/
theorem follows_health_into_outage : FollowsHealth default
    [.generateStructured 0 answering answering_catches diagnosis,
      .generateStructured 1 outage outage_catches diagnosis,
      .generateStructured 2 outage outage_catches diagnosis] := by
  refine (followsHealth_iff_unrecovered (fun _ _ => rfl) _).mpr ?_ _ List.prefix_rfl
  have given : answers default [.generateStructured 0 answering answering_catches diagnosis,
      .generateStructured 1 outage outage_catches diagnosis, .generateStructured 2 outage outage_catches diagnosis] =
      (([] ++ [(aiUnavailable 1 "proc.risk.diagnose", .succeeded)]) ++
        [(aiUnavailable 1 "proc.risk.diagnose", .unavailable)]) ++
        [(aiUnavailable 1 "proc.risk.diagnose", .unavailable)] := rfl
  rw [given, unrecovered_append, unrecovered_append, unrecovered_append]
  exact ⟨⟨⟨unrecovered_nil, List.not_mem_nil⟩, trivial⟩, trivial⟩

/-- The AI recovers, and its gap is still open. -/
theorem recovery_leaves_gap : ¬ FollowsHealth default
    [.generateStructured 0 outage outage_catches diagnosis, .generateStructured 1 answering answering_catches diagnosis] := by
  intro follows
  have closed := follows 1 "proc.risk.diagnose"
  revert closed
  decide

end SmartProcurement.Ai
