import SmartProcurement.Analysis.RiskRuns

namespace SmartProcurement.Analysis

open Relational Transaction Observation Api

/-! # Detection after a dismissal

A detection looks for ongoing findings only, so a condition that a person has
just dismissed is as new to it as any other.
-/

/-- The domain rows, the aggregates and the signals are the same. -/
structure SameInputs (before after : DB) : Prop where
  canonical : after.canonical = before.canonical
  aggregates : after.skuAggregate = before.skuAggregate
  signals : after.observationSignal = before.observationSignal

def Fires (now : Timestamp) (finding : RiskFinding) (db : DB) : Prop :=
  ∃ probe ∈ probes now finding.enterpriseId db, ∃ candidate, probe.evaluate db = .ok (some candidate) ∧
    candidate.riskType = finding.riskType ∧ candidate.itemId = finding.itemId ∧
    candidate.supplierId = finding.supplierId

def Ongoing (finding row : RiskFinding) : Prop :=
  row.enterpriseId = finding.enterpriseId ∧ row.riskType = finding.riskType ∧ row.status.terminal = false ∧
    row.itemId = finding.itemId ∧ row.supplierId = finding.supplierId

/-- A rule cannot compute with its numbers, or finds a condition with two ongoing findings. -/
def Blocked (now : Timestamp) (enterpriseId : Uuid) (inputs db : DB) : Prop :=
  ∃ probe ∈ probes now enterpriseId inputs, (∃ reason, probe.evaluate inputs = .error reason) ∨
    ∃ candidate, probe.evaluate inputs = .ok (some candidate) ∧
      1 < (db.riskFinding.rows.filter (matchesCandidate enterpriseId candidate)).length

def NotFoundAgain (finding : RiskFinding) (before after : DB) : Prop :=
  ∀ row ∈ after.riskFinding.rows, Ongoing finding row → row ∈ before.riskFinding.rows

section Inputs

variable {now : Timestamp} {enterpriseId : Uuid} {before after : DB} {finding : RiskFinding}

theorem SameInputs.probes_eq (same : SameInputs before after) :
    probes now enterpriseId after = probes now enterpriseId before := by
  simp only [probes, aggregatesOf, supplierDelaySamples, qualitySamples, trustedOf, same.canonical, same.aggregates]

theorem SameInputs.evaluate_eq (same : SameInputs before after) {probe : Probe} {db : DB}
    (member : probe ∈ probes now enterpriseId db) : probe.evaluate after = probe.evaluate before := by
  have leadTimes (itemId : Uuid) : latestLeadTimeDays after itemId = latestLeadTimeDays before itemId := by
    simp only [latestLeadTimeDays, trustedRows, same.canonical]
  have demands (itemId : Uuid) : productionDemands after itemId = productionDemands before itemId := by
    simp only [productionDemands, trustedRows, same.canonical]
  rcases List.mem_append.mp member with aggregate | rest
  · obtain ⟨row, _, member⟩ := List.mem_flatMap.mp aggregate
    simp only [aggregateProbes, List.mem_cons, List.not_mem_nil, or_false] at member
    rcases member with rfl | rfl | rfl | rfl
    · simp only [leadTimes]
    · rfl
    · simp only [demands]
    · rfl
  · rcases List.mem_append.mp rest with delay | quality
    · obtain ⟨sample, _, rfl⟩ := List.mem_map.mp delay
      rfl
    · obtain ⟨sample, _, rfl⟩ := List.mem_map.mp quality
      rfl

end Inputs

/-! ## The findings that a detection adds -/

section Added

variable {now : Timestamp} {enterpriseId : Uuid} {before after : DB} {findings results : List RiskFinding}
variable {candidate other : RiskCandidate} {finding : RiskFinding} {itemId supplierId : Option Uuid}

theorem Applied.rows (step : Applied now enterpriseId candidate itemId supplierId before finding after) :
    (after.riskFinding = before.riskFinding ∧ finding ∈ before.riskFinding.rows) ∨
      (before.riskFinding.rows.filter (matchesCandidate enterpriseId candidate) = [] ∧
        after.riskFinding.rows = before.riskFinding.rows ++ [finding]) := by
  obtain ⟨middle, first, requested⟩ := step.steps
  obtain ⟨ids, same, _⟩ := withEvidence_eq candidate finding itemId supplierId middle
  obtain ⟨jobs, rfl, _⟩ := requested.jobs
  rw [same]
  have member := first.member
  cases first with
  | found _ => exact .inl ⟨rfl, member⟩
  | created unknown => exact .inr ⟨unknown, rfl⟩

theorem Applied.matched (step : Applied now enterpriseId candidate itemId supplierId before finding after) :
    matchesCandidate enterpriseId candidate finding = true := by
  obtain ⟨_, first, _⟩ := step.steps
  exact first.matched

/-- What the rules of a list add: ongoing findings of conditions that they find. -/
structure Added (enterpriseId : Uuid) (list : List Probe) (before after : DB) : Prop where
  kept : before.riskFinding.rows.Sublist after.riskFinding.rows
  found : ∀ row ∈ after.riskFinding.rows, row ∈ before.riskFinding.rows ∨
    ∃ probe ∈ list, ∃ candidate, probe.evaluate before = .ok (some candidate) ∧
      matchesCandidate enterpriseId candidate row = true

theorem runProbes_added {list : List Probe} (sounds : ∀ probe ∈ list, probe.Sound)
    (ran : list.foldlM (runProbe now enterpriseId) findings before = .ok results after) :
    Added enterpriseId list before after := by
  induction list generalizing findings before with
  | nil =>
      obtain ⟨_, rfl⟩ := pure_eq_ok.mp ran
      exact ⟨List.Sublist.refl _, fun row member => .inl member⟩
  | cons probe rest ih =>
      rw [List.foldlM_cons] at ran
      obtain ⟨_, middle, first, ran⟩ := bind_eq_ok.mp ran
      have step := runProbe_ok first
      have later := ih (fun probe member => sounds probe (List.mem_cons_of_mem _ member)) ran
      have readsBefore {other : Probe} (member : other ∈ rest) : other.evaluate middle = other.evaluate before :=
        (sounds other (List.mem_cons_of_mem _ member)).reads step.risksOnly
      have laterFound (row : RiskFinding) (member : row ∈ after.riskFinding.rows) :
          row ∈ middle.riskFinding.rows ∨ ∃ other ∈ probe :: rest, ∃ candidate,
            other.evaluate before = .ok (some candidate) ∧ matchesCandidate enterpriseId candidate row = true := by
        rcases later.found row member with old | ⟨other, isOther, candidate, found, matched⟩
        · exact .inl old
        · exact .inr ⟨other, List.mem_cons_of_mem _ isOther, candidate, readsBefore isOther ▸ found, matched⟩
      cases step with
      | quiet none => exact ⟨later.kept, laterFound⟩
      | @applied candidate finding _ found step =>
          rcases step.rows with ⟨same, _⟩ | ⟨unknown, rows⟩
          · exact ⟨same ▸ later.kept, fun row member => by rw [← same]; exact laterFound row member⟩
          · have kept : before.riskFinding.rows.Sublist middle.riskFinding.rows := by
              rw [rows]
              exact List.sublist_append_left _ _
            refine ⟨kept.trans later.kept, fun row member => ?_⟩
            rcases laterFound row member with old | isNew
            · rw [rows] at old
              rcases List.mem_append.mp old with old | added
              · exact .inl old
              · rw [List.mem_singleton.mp added]
                exact .inr ⟨probe, List.mem_cons_self, candidate, found, step.matched⟩
            · exact .inr isNew

theorem Applied.single (step : Applied now enterpriseId candidate itemId supplierId before finding after)
    (single : (before.riskFinding.rows.filter (matchesCandidate enterpriseId other)).length ≤ 1) :
    (after.riskFinding.rows.filter (matchesCandidate enterpriseId other)).length ≤ 1 := by
  rcases step.rows with ⟨same, _⟩ | ⟨unknown, rows⟩
  · rw [same]
    exact single
  · rw [rows, List.filter_append]
    by_cases matchesOther : matchesCandidate enterpriseId other finding = true
    · rw [matchesCandidate_congr step.matched matchesOther] at unknown
      simp [unknown, matchesOther]
    · simpa [matchesOther] using single

theorem runProbes_returns {list : List Probe} (sounds : ∀ probe ∈ list, probe.Sound)
    (computes : ∀ probe ∈ list, ∃ found, probe.evaluate before = .ok found)
    (single : ∀ probe ∈ list, ∀ candidate, probe.evaluate before = .ok (some candidate) →
      (before.riskFinding.rows.filter (matchesCandidate enterpriseId candidate)).length ≤ 1)
    (findings : List RiskFinding) :
    ∃ results after, list.foldlM (runProbe now enterpriseId) findings before = .ok results after := by
  induction list generalizing findings before with
  | nil => exact ⟨findings, before, rfl⟩
  | cons probe rest ih =>
      have first : ∃ results middle, runProbe now enterpriseId findings probe before = .ok results middle := by
        obtain ⟨found, evaluated⟩ := computes probe List.mem_cons_self
        simp only [runProbe, bind_eq_ok, read_eq_ok, lift_eq_ok]
        cases found with
        | none => exact ⟨findings, before, _, _, ⟨rfl, rfl⟩, _, _, ⟨evaluated, rfl⟩, rfl⟩
        | some candidate =>
            have looked : findNonTerminal enterpriseId candidate before = .ok _ before :=
              scalarOrNone_eq_ok.mpr ⟨scalarOneOrNone_of_length_le _
                (single probe List.mem_cons_self candidate evaluated), rfl⟩
            obtain ⟨finding, after, applied⟩ := applyCandidate_of_looked now looked probe.itemId probe.supplierId
            refine ⟨findings ++ [finding], after, _, _, ⟨rfl, rfl⟩, _, _, ⟨evaluated, rfl⟩, ?_⟩
            simp only [bind_eq_ok, pure_eq_ok]
            exact ⟨finding, after, applied, rfl, rfl⟩
      obtain ⟨middleFindings, middle, first⟩ := first
      have step := runProbe_ok first
      have reads {other : Probe} (member : other ∈ rest) : other.evaluate middle = other.evaluate before :=
        (sounds other (List.mem_cons_of_mem _ member)).reads step.risksOnly
      have stillSingle : ∀ other ∈ rest, ∀ candidate, other.evaluate middle = .ok (some candidate) →
          (middle.riskFinding.rows.filter (matchesCandidate enterpriseId candidate)).length ≤ 1 := by
        intro other member candidate evaluated
        have before := single other (List.mem_cons_of_mem _ member) candidate (reads member ▸ evaluated)
        cases step with
        | quiet _ => exact before
        | applied _ step => exact step.single before
      obtain ⟨results, after, later⟩ := ih (fun other member => sounds other (List.mem_cons_of_mem _ member))
        (fun other member => by rw [reads member]; exact computes other (List.mem_cons_of_mem _ member))
        stillSingle middleFindings
      refine ⟨results, after, ?_⟩
      rw [List.foldlM_cons, bind_of_ok first]
      exact later

end Added

/-! ## After a dismissal -/

section Dismissal

variable {now : Timestamp} {enterpriseId : Uuid} {before after : DB} {results : List RiskFinding}
variable {finding : RiskFinding}

theorem blocked_raises (blocked : Blocked now enterpriseId before before) :
    ∀ results after, detectRisks now enterpriseId before ≠ .ok results after := by
  intro results after ran
  have detected := detectRisks_ok ran
  rw [detectRisks_eq] at ran
  have added := runProbes_added (probes_sound now enterpriseId before) ran
  obtain ⟨probe, member, fails⟩ := blocked
  have sound := probes_sound now enterpriseId before probe member
  rcases fails with ⟨reason, raised⟩ | ⟨candidate, found, twice⟩
  · obtain ⟨found, computed⟩ := detected.computes member sound
    cases computed.symm.trans raised
  · obtain ⟨finding, only⟩ := detected.single member sound found
    have short := (added.kept.filter (matchesCandidate enterpriseId candidate)).length_le
    rw [only, List.length_singleton] at short
    exact absurd twice (Nat.not_lt.mpr short)

theorem detectRisks_returns (free : ¬ Blocked now enterpriseId before before) :
    ∃ results after, detectRisks now enterpriseId before = .ok results after := by
  rw [detectRisks_eq]
  refine runProbes_returns (probes_sound now enterpriseId before) (fun probe member => ?_)
    (fun probe member candidate evaluated => ?_) []
  · cases evaluated : probe.evaluate before with
    | ok found => exact ⟨found, rfl⟩
    | error reason => exact absurd ⟨probe, member, .inl ⟨reason, evaluated⟩⟩ free
  · exact Nat.le_of_not_lt fun twice => free ⟨probe, member, .inr ⟨candidate, evaluated, twice⟩⟩

theorem matchesCandidate_iff_ongoing {candidate : RiskCandidate} {row : RiskFinding} (type : candidate.riskType = finding.riskType)
    (item : candidate.itemId = finding.itemId) (supplier : candidate.supplierId = finding.supplierId) :
    matchesCandidate finding.enterpriseId candidate row = true ↔ Ongoing finding row := by
  rw [matchesCandidate_iff, Ongoing, type, item, supplier]

/-- After a detection that finds the condition there is one ongoing finding of it. -/
theorem Fires.single (fires : Fires now finding before) (ran : detectRisks now finding.enterpriseId before = .ok results after) :
    ∃ row ∈ after.riskFinding.rows, ∀ other ∈ after.riskFinding.rows, Ongoing finding other ↔ other = row := by
  obtain ⟨probe, member, candidate, found, type, item, supplier⟩ := fires
  obtain ⟨row, only⟩ := (detectRisks_ok ran).single member (probes_sound now finding.enterpriseId before probe member) found
  have listed (other : RiskFinding) : (other ∈ after.riskFinding.rows ∧ Ongoing finding other) ↔ other = row := by
    rw [← matchesCandidate_iff_ongoing type item supplier, ← List.mem_filter, only, List.mem_singleton]
  exact ⟨row, ((listed row).mpr rfl).1, fun other otherMember => (and_iff_right otherMember).symm.trans (listed other)⟩

/-- A detection adds no ongoing finding of a condition exactly if it cannot run,
does not find the condition, or knows it already. -/
theorem notFoundAgain_iff (now : Timestamp) (finding : RiskFinding) (before : DB) :
    NotFoundAgain finding before ((RiskCall.detectRisks now finding.enterpriseId).commit before) ↔
      Blocked now finding.enterpriseId before before ∨ ¬ Fires now finding before ∨
        ∃ row ∈ before.riskFinding.rows, Ongoing finding row := by
  by_cases blocked : Blocked now finding.enterpriseId before before
  · refine iff_of_true ?_ (.inl blocked)
    cases ran : detectRisks now finding.enterpriseId before with
    | ok results after => exact absurd ran (blocked_raises blocked results after)
    | error reason after =>
        rw [RiskCall.commit, transact_of_error ran]
        exact fun row member _ => member
  · obtain ⟨results, after, ran⟩ := detectRisks_returns blocked
    have added := runProbes_added (probes_sound now finding.enterpriseId before) ((detectRisks_eq ..).symm.trans ran)
    rw [RiskCall.commit, transact_of_ok ran, or_iff_right blocked]
    constructor
    · intro sticks
      by_contra open_
      rw [not_or, not_not] at open_
      obtain ⟨fires, none⟩ := open_
      obtain ⟨row, rowMember, only⟩ := fires.single ran
      have ongoing := (only row rowMember).mpr rfl
      exact none ⟨row, sticks row rowMember ongoing, ongoing⟩
    · intro known row rowMember ongoing
      rcases added.found row rowMember with old | ⟨probe, member, candidate, found, matched⟩
      · exact old
      · obtain ⟨_, type, _, item, supplier⟩ := matchesCandidate_iff.mp matched
        have fires : Fires now finding before := ⟨probe, member, candidate, found, type.symm.trans ongoing.2.1,
          item.symm.trans ongoing.2.2.2.1, supplier.symm.trans ongoing.2.2.2.2⟩
        rcases known with silent | ⟨other, otherMember, otherOngoing⟩
        · exact absurd fires silent
        · obtain ⟨only, _, single⟩ := fires.single ran
          rw [(single row rowMember).mp ongoing, ← (single other (added.kept.subset otherMember)).mp otherOngoing]
          exact otherMember

end Dismissal

/-- A dismissed condition is not found again exactly if the rules cannot run on
the inputs of the dismissal, do not find it in them, or it is already ongoing. -/
theorem dismissed_notFoundAgain_iff {at_ : Timestamp} {user : CurrentUser} {riskId : Uuid} {body : DismissIn}
    {before closed : DB} {finding : RiskFinding}
    (_dismissed : Api.dismissRisk at_ user riskId body before = .ok finding closed)
    {db : DB} (same : SameInputs closed db) (now : Timestamp) :
    NotFoundAgain finding db ((RiskCall.detectRisks now finding.enterpriseId).commit db) ↔
      Blocked now finding.enterpriseId closed db ∨ ¬ Fires now finding closed ∨
        ∃ row ∈ db.riskFinding.rows, Ongoing finding row := by
  have blocked : Blocked now finding.enterpriseId db db ↔ Blocked now finding.enterpriseId closed db := by
    unfold Blocked
    rw [same.probes_eq]
    refine exists_congr fun probe => and_congr_right fun member => ?_
    rw [same.evaluate_eq member]
  have fires : Fires now finding db ↔ Fires now finding closed := by
    unfold Fires
    rw [same.probes_eq]
    refine exists_congr fun probe => and_congr_right fun member => ?_
    rw [same.evaluate_eq member]
  rw [notFoundAgain_iff, blocked, fires]

def foundJump : DB := (RiskCall.detectRisks 0 1).commit priceJump

def jump : RiskFinding := { newFinding 0 1 (itemCandidate .priceAnomaly 1 .high) with id := 1 }

def dismissedJump : DB := (RiskCall.dismissRisk 5 ⟨9, 1⟩ 1 ⟨"known", by decide⟩).commit foundJump

theorem jump_dismissed : Api.dismissRisk 5 ⟨9, 1⟩ 1 ⟨"known", by decide⟩ foundJump =
    .ok (Api.dismissed 5 ⟨9, 1⟩ "known" jump) dismissedJump := by
  have stored : foundJump.riskFinding.find? 1 = some jump := by decide +kernel
  have returns : returned (Api.dismissRisk 5 ⟨9, 1⟩ 1 ⟨"known", by decide⟩ foundJump) = true := by decide +kernel
  obtain ⟨finding, ran⟩ := exists_of_returned returns
  obtain ⟨⟨old, found, _, _, rfl⟩, _⟩ := dismissRisk_ok ran
  obtain rfl := Option.some.inj (stored.symm.trans found)
  rw [dismissedJump, RiskCall.commit, transact_of_ok ran, ← ran]

theorem jump_notFoundAgain_iff :
    NotFoundAgain (Api.dismissed 5 ⟨9, 1⟩ "known" jump) dismissedJump
        ((RiskCall.detectRisks 5 1).commit dismissedJump) ↔
      Blocked 5 1 dismissedJump dismissedJump ∨
        ¬ Fires 5 (Api.dismissed 5 ⟨9, 1⟩ "known" jump) dismissedJump ∨
        ∃ row ∈ dismissedJump.riskFinding.rows, Ongoing (Api.dismissed 5 ⟨9, 1⟩ "known" jump) row :=
  dismissed_notFoundAgain_iff jump_dismissed ⟨rfl, rfl, rfl⟩ 5

theorem jump_found_again :
    ¬ ∀ (at_ : Timestamp) (user : CurrentUser) (riskId : Uuid) (body : DismissIn) (before closed : DB)
      (finding : RiskFinding), Api.dismissRisk at_ user riskId body before = .ok finding closed →
      ∀ db, SameInputs closed db → ∀ now,
        NotFoundAgain finding db ((RiskCall.detectRisks now finding.enterpriseId).commit db) := by
  intro always
  have sticks := always _ _ _ _ _ _ _ jump_dismissed dismissedJump ⟨rfl, rfl, rfl⟩ 5
  have again : { newFinding 5 1 (itemCandidate .priceAnomaly 1 .high) with id := 2 } ∈
      ((RiskCall.detectRisks 5 1).commit dismissedJump).riskFinding.rows := by decide +kernel
  have stored := sticks _ again ⟨rfl, rfl, rfl, rfl, rfl⟩
  have unknown : { newFinding 5 1 (itemCandidate .priceAnomaly 1 .high) with id := 2 } ∉
      dismissedJump.riskFinding.rows := by decide +kernel
  exact unknown stored

end SmartProcurement.Analysis
