import SmartProcurement.Analysis.Findings

namespace SmartProcurement.Analysis

open Relational Transaction Numeric Observation

/-! # Whole detections -/

section Application

variable {now : Timestamp} {enterpriseId : Uuid} {candidate other : RiskCandidate}
variable {finding : RiskFinding} {itemId supplierId : Option Uuid} {before after db : DB}

theorem FoundOrCreated.sound (step : FoundOrCreated now enterpriseId candidate before finding after)
    (sound : FindingsSound before) : FindingsSound after := by
  cases step with
  | found _ => exact sound
  | created unknown =>
      have strangers : ∀ old ∈ before.riskFinding.rows,
          matchesCandidate enterpriseId candidate old = false := by
        intro old member
        exact Bool.eq_false_iff.mpr (List.filter_eq_nil_iff.mp unknown old member)
      -- an old row with the identity of the new one would have been found
      have clash : ∀ old ∈ before.riskFinding.rows, old.status.terminal = false →
          old.enterpriseId = enterpriseId → old.riskType = candidate.riskType →
          old.itemId = candidate.itemId → old.supplierId = candidate.supplierId → False := by
        intro old member ongoing enterprise type item supplier
        have matched := matchesCandidate_iff.mpr ⟨enterprise, type, ongoing, item, supplier⟩
        rw [strangers old member] at matched
        cases matched
      refine ⟨?_, sound.linkedOnce, ?_⟩
      · intro first firstMember second secondMember firstOngoing secondOngoing enterprise type item supplier
        rcases List.mem_append.mp firstMember with firstOld | firstNew
        · rcases List.mem_append.mp secondMember with secondOld | secondNew
          · exact sound.single first firstOld second secondOld firstOngoing secondOngoing enterprise type
              item supplier
          · obtain rfl := List.mem_singleton.mp secondNew
            exact (clash first firstOld firstOngoing enterprise type item supplier).elim
        · obtain rfl := List.mem_singleton.mp firstNew
          rcases List.mem_append.mp secondMember with secondOld | secondNew
          · exact (clash second secondOld secondOngoing enterprise.symm type.symm item.symm
              supplier.symm).elim
          · exact (List.mem_singleton.mp secondNew).symm
      · intro link member
        obtain ⟨ground, groundMember, rest⟩ := sound.grounded link member
        exact ⟨ground, List.mem_append_left _ groundMember, rest⟩

theorem evidence_of_supports {signal : ObservationSignal} (suits : Suits candidate itemId supplierId)
    (matched : matchesCandidate enterpriseId candidate finding = true)
    (supported : supports finding itemId supplierId signal = true) : Evidence finding signal := by
  obtain ⟨enterprise, type, item, supplier⟩ := supports_iff.mp supported
  obtain ⟨_, sameType, _, sameItem, sameSupplier⟩ := matchesCandidate_iff.mp matched
  refine ⟨enterprise, type, ?_, fun quality => ?_⟩
  · have named : itemId ≠ none := by
      refine suits.identified.item fun none => ?_
      rw [sameType, none] at type
      cases type
    rw [item.resolve_left named, sameItem, suits.item]
  · have identified := suits.identified
    rw [← sameType, quality] at identified
    rw [supplier.resolve_left identified.2, sameSupplier, suits.supplier]

theorem FindingsSound.linked (sound : FindingsSound db) (suits : Suits candidate itemId supplierId)
    (matched : matchesCandidate enterpriseId candidate finding = true)
    (member : finding ∈ db.riskFinding.rows) :
    FindingsSound (addLinks finding (newEvidence finding itemId supplierId db) db) := by
  refine ⟨sound.single, ?_, ?_⟩
  · refine insertLinks_once newEvidence_nodup ?_ sound.linkedOnce
    intro id listed link linkMember sameFinding sameSignal
    have unlinked := (mem_newEvidence listed).1
    rw [linked_iff.mpr ⟨link, linkMember, sameFinding, sameSignal⟩] at unlinked
    cases unlinked
  · intro link linkMember
    rcases mem_insertLinks linkMember with old | ⟨sameFinding, listed⟩
    · exact sound.grounded link old
    · obtain ⟨_, signal, signalMember, sameSignal, supported⟩ := mem_newEvidence listed
      exact ⟨finding, member, signal, signalMember, sameFinding.symm, sameSignal,
        evidence_of_supports suits matched supported⟩

theorem Requested.sound (step : Requested now finding before after) (sound : FindingsSound before) :
    FindingsSound after := by
  obtain ⟨jobs, rfl, _⟩ := step.jobs
  exact ⟨sound.single, sound.linkedOnce, sound.grounded⟩

theorem Applied.sound (step : Applied now enterpriseId candidate itemId supplierId before finding after)
    (suits : Suits candidate itemId supplierId) (sound : FindingsSound before) : FindingsSound after := by
  obtain ⟨middle, first, requested⟩ := step.steps
  refine requested.sound ?_
  unfold withEvidence
  split
  · exact first.sound sound
  · exact (first.sound sound).linked suits first.matched first.member

theorem Applied.risksOnly (step : Applied now enterpriseId candidate itemId supplierId before finding after) :
    risksOnly.rel before after := by
  obtain ⟨middle, first, requested⟩ := step.steps
  obtain ⟨ids, same, _⟩ := withEvidence_eq candidate finding itemId supplierId middle
  obtain ⟨jobs, rfl, _⟩ := requested.jobs
  rw [same]
  cases first with
  | found _ => exact ⟨_, _, _, rfl⟩
  | created _ => exact ⟨_, _, _, rfl⟩

/-! ## Terminal findings -/

/-- A terminal finding keeps its row and its links. -/
def terminalFrame : Frame DB where
  rel before after := ∀ closed ∈ before.riskFinding.rows, closed.status.terminal = true →
    closed ∈ after.riskFinding.rows ∧
      ∀ link, link.riskFindingId = closed.id →
        (link ∈ after.riskSignalLink.rows ↔ link ∈ before.riskSignalLink.rows)
  refl _ := fun _ member _ => ⟨member, fun _ _ => Iff.rfl⟩
  trans first second := fun closed member terminal => by
    obtain ⟨middleMember, firstLinks⟩ := first closed member terminal
    obtain ⟨afterMember, secondLinks⟩ := second closed middleMember terminal
    exact ⟨afterMember, fun link same => (secondLinks link same).trans (firstLinks link same)⟩

theorem FoundOrCreated.terminal (step : FoundOrCreated now enterpriseId candidate before finding after) :
    terminalFrame.rel before after := by
  cases step with
  | found _ => exact terminalFrame.refl _
  | created _ => exact fun closed member _ => ⟨List.mem_append_left _ member, fun _ _ => Iff.rfl⟩

theorem addLinks_terminal (ids : List Uuid) (member : finding ∈ db.riskFinding.rows)
    (ongoing : finding.status.terminal = false) : terminalFrame.rel db (addLinks finding ids db) := by
  intro closed closedMember terminal
  refine ⟨closedMember, fun link same => ⟨fun linked => ?_, subset_insertLinks _ _ _ link⟩⟩
  rcases mem_insertLinks linked with old | ⟨sameFinding, _⟩
  · exact old
  · have equal : closed = finding := Table.eq_of_key_eq closedMember member (same.symm.trans sameFinding)
    rw [equal, ongoing] at terminal
    cases terminal

theorem Applied.terminal (step : Applied now enterpriseId candidate itemId supplierId before finding after) :
    terminalFrame.rel before after := by
  obtain ⟨middle, first, requested⟩ := step.steps
  obtain ⟨ids, same, _⟩ := withEvidence_eq candidate finding itemId supplierId middle
  have ongoing := (matchesCandidate_iff.mp first.matched).2.2.1
  have linking : terminalFrame.rel middle (addLinks finding ids middle) :=
    addLinks_terminal ids first.member ongoing
  obtain ⟨jobs, rfl, _⟩ := requested.jobs
  rw [same]
  exact terminalFrame.trans first.terminal linking

/-! ## Settled candidates -/

def Settled (enterpriseId : Uuid) (candidate : RiskCandidate) (itemId supplierId : Option Uuid) (db : DB) :
    Prop :=
  ∃ finding, db.riskFinding.rows.filter (matchesCandidate enterpriseId candidate) = [finding] ∧
    (evidenceSignalTypes candidate.riskType ≠ [] → newEvidence finding itemId supplierId db = []) ∧
    explained finding db

theorem applyCandidate_of_settled (now : Timestamp) (settled : Settled enterpriseId candidate itemId supplierId db) :
    ∃ finding, applyCandidate now enterpriseId candidate itemId supplierId db = .ok finding db := by
  obtain ⟨finding, only, nothing, known⟩ := settled
  refine ⟨finding, ?_⟩
  have linking : linkEvidenceOf candidate.riskType finding itemId supplierId db = .ok ⟨⟩ db := by
    unfold linkEvidenceOf
    by_cases none : evidenceSignalTypes candidate.riskType = []
    · rw [if_pos none]
      exact pure_eq_ok.mpr ⟨rfl, rfl⟩
    · simp only [if_neg none, linkNewEvidence, bind_eq_ok, read_eq_ok, write_eq_ok]
      exact ⟨[], db, ⟨nothing none, rfl⟩, rfl⟩
  simp only [applyCandidate, bind_eq_ok, pure_eq_ok]
  exact ⟨_, _, findOrCreate_of_known only, _, _, linking, _, _,
    maybeEnqueueExplanation_of_explained known, rfl, rfl⟩

theorem Applied.settled (step : Applied now enterpriseId candidate itemId supplierId before finding after) :
    Settled enterpriseId candidate itemId supplierId after := by
  obtain ⟨middle, first, requested⟩ := step.steps
  have known := requested.explained
  obtain ⟨jobs, rfl, _⟩ := requested.jobs
  refine ⟨finding, ?_, fun evidence => ?_, known⟩
  · obtain ⟨ids, same, _⟩ := withEvidence_eq candidate finding itemId supplierId middle
    rw [same]
    exact first.known
  · have none : newEvidence finding itemId supplierId
        (addLinks finding (newEvidence finding itemId supplierId middle) middle) = [] :=
      newEvidence_addLinks
    rw [withEvidence, if_neg evidence]
    exact none

theorem Applied.keeps_settled {otherItem otherSupplier : Option Uuid}
    (step : Applied now enterpriseId candidate itemId supplierId before finding after)
    (settled : Settled enterpriseId other otherItem otherSupplier before) :
    Settled enterpriseId other otherItem otherSupplier after := by
  obtain ⟨middle, first, requested⟩ := step.steps
  obtain ⟨ids, same, _⟩ := withEvidence_eq candidate finding itemId supplierId middle
  obtain ⟨known, only, nothing, isExplained⟩ := settled
  obtain ⟨jobs, rfl, grow⟩ := requested.jobs
  rw [same] at grow ⊢
  refine ⟨known, first.keeps_known only, fun evidence => ?_, ?_⟩
  · have before := newEvidence_eq_nil.mp (nothing evidence)
    refine newEvidence_eq_nil.mpr fun signal member supported => ?_
    have still : linked known middle signal.id = true := by
      cases first with
      | found _ => exact before signal member supported
      | created _ => exact before signal member supported
    exact linked_addLinks_of_linked finding still
  · cases first with
    | found _ => exact explained_of_jobs_grow grow isExplained
    | created _ => exact explained_of_jobs_grow grow isExplained

end Application

/-! ## Probes -/

/-- A probe asks one rule about the subject it names and reads nothing that
detection writes. -/
structure Probe.Sound (probe : Probe) : Prop where
  judges : ∃ riskType, Identified riskType probe.itemId probe.supplierId ∧
    ∀ db, Judges riskType probe.itemId probe.supplierId (probe.evaluate db)
  reads : ∀ {before after : DB}, risksOnly.rel before after → probe.evaluate after = probe.evaluate before

theorem Probe.Sound.suits {probe : Probe} (sound : probe.Sound) {db : DB} {candidate : RiskCandidate}
    (found : probe.evaluate db = .ok (some candidate)) :
    Suits candidate probe.itemId probe.supplierId := by
  obtain ⟨riskType, identified, judges⟩ := sound.judges
  obtain ⟨type, item, supplier⟩ := (judges db).ok found candidate rfl
  exact ⟨item, supplier, type ▸ identified⟩

theorem aggregateProbes_sound (now : Timestamp) (row : SkuAggregate) :
    ∀ probe ∈ aggregateProbes now row, probe.Sound := by
  have item (riskType : RiskType) (identified : Identified riskType (some row.itemId) none)
      (evaluate : DB → Except Error (Option RiskCandidate))
      (judges : ∀ db, Judges riskType (some row.itemId) none (evaluate db))
      (reads : ∀ {before after : DB}, risksOnly.rel before after → evaluate after = evaluate before) :
      Probe.Sound ⟨evaluate, some row.itemId, none⟩ := ⟨⟨riskType, identified, judges⟩, reads⟩
  have some_identified : some row.itemId ≠ none ∧ (none : Option Uuid) = none := ⟨by simp, rfl⟩
  intro probe member
  simp only [aggregateProbes, List.mem_cons, List.not_mem_nil, or_false] at member
  rcases member with rfl | rfl | rfl | rfl
  · refine item .likelyShortage some_identified _ (fun db => ?_) ?_
    · split
      · exact judges_none
      · exact Ends.bind (toDecimal_computes _) fun days _ => evaluateLikelyShortage_judges ..
    · rintro _ _ ⟨_, _, _, rfl⟩
      rfl
  · exact item .insufficientUntilNextDelivery some_identified _
      (fun _ => evaluateInsufficientUntilNextDelivery_judges ..) fun _ => rfl
  · refine item .productionStopRisk some_identified _
      (fun _ => evaluateProductionStopRisk_judges ..) ?_
    rintro _ _ ⟨_, _, _, rfl⟩
    rfl
  · exact item .priceAnomaly some_identified _ (fun _ => evaluatePriceAnomaly_judges ..) fun _ => rfl

theorem delayProbe_sound (sample : Uuid × List Decimal) : (delayProbe sample).Sound where
  judges := ⟨.systematicSupplierDelay, ⟨rfl, by simp [delayProbe]⟩,
    fun _ => evaluateSystematicSupplierDelay_judges ..⟩
  reads := fun _ => rfl

theorem qualityProbe_sound (sample : (Uuid × Uuid) × List Decimal) : (qualityProbe sample).Sound where
  judges := ⟨.qualityDegradation, ⟨by simp [qualityProbe], by simp [qualityProbe]⟩,
    fun _ => evaluateQualityDegradation_judges ..⟩
  reads := fun _ => rfl

def probes (now : Timestamp) (enterpriseId : Uuid) (db : DB) : List Probe :=
  (aggregatesOf enterpriseId db).flatMap (aggregateProbes now) ++
    ((supplierDelaySamples enterpriseId db).map delayProbe ++
      (qualitySamples enterpriseId db).map qualityProbe)

theorem probes_sound (now : Timestamp) (enterpriseId : Uuid) (db : DB) :
    ∀ probe ∈ probes now enterpriseId db, probe.Sound := by
  intro probe member
  rcases List.mem_append.mp member with aggregate | rest
  · obtain ⟨row, _, member⟩ := List.mem_flatMap.mp aggregate
    exact aggregateProbes_sound now row probe member
  · rcases List.mem_append.mp rest with delay | quality
    · obtain ⟨sample, _, rfl⟩ := List.mem_map.mp delay
      exact delayProbe_sound sample
    · obtain ⟨sample, _, rfl⟩ := List.mem_map.mp quality
      exact qualityProbe_sound sample

theorem probes_of_risksOnly {now : Timestamp} {enterpriseId : Uuid} {before after : DB}
    (only : risksOnly.rel before after) : probes now enterpriseId after = probes now enterpriseId before := by
  obtain ⟨_, _, _, rfl⟩ := only
  rfl

/-! ## Detections -/

section Detection

variable {now : Timestamp} {enterpriseId : Uuid} {before after : DB} {findings results : List RiskFinding}
variable {probe : Probe}

inductive Probed (now : Timestamp) (enterpriseId : Uuid) (probe : Probe) (before : DB) :
    DB → Prop where
  | quiet (none : probe.evaluate before = .ok none) : Probed now enterpriseId probe before before
  | applied {candidate : RiskCandidate} {finding : RiskFinding} {after : DB}
      (found : probe.evaluate before = .ok (some candidate))
      (step : Applied now enterpriseId candidate probe.itemId probe.supplierId before finding after) :
      Probed now enterpriseId probe before after

theorem runProbe_ok (ran : runProbe now enterpriseId findings probe before = .ok results after) :
    Probed now enterpriseId probe before after := by
  simp only [runProbe, bind_eq_ok, read_eq_ok, lift_eq_ok] at ran
  obtain ⟨_, _, ⟨rfl, rfl⟩, found, _, ⟨evaluated, rfl⟩, ran⟩ := ran
  cases found with
  | none =>
      obtain ⟨_, rfl⟩ := pure_eq_ok.mp ran
      exact .quiet evaluated
  | some candidate =>
      simp only [bind_eq_ok, pure_eq_ok] at ran
      obtain ⟨finding, _, applied, _, rfl⟩ := ran
      exact .applied evaluated (applyCandidate_ok applied)

theorem Probed.risksOnly (step : Probed now enterpriseId probe before after) :
    risksOnly.rel before after := by
  cases step with
  | quiet _ => exact Analysis.risksOnly.refl _
  | applied _ step => exact step.risksOnly

theorem Probed.sound (step : Probed now enterpriseId probe before after) (probeSound : probe.Sound)
    (sound : FindingsSound before) : FindingsSound after := by
  cases step with
  | quiet _ => exact sound
  | applied found step => exact step.sound (probeSound.suits found) sound

theorem Probed.terminal (step : Probed now enterpriseId probe before after) :
    terminalFrame.rel before after := by
  cases step with
  | quiet _ => exact terminalFrame.refl _
  | applied _ step => exact step.terminal

/-- Running the probe again would change nothing. -/
def ProbeSettled (enterpriseId : Uuid) (probe : Probe) (db : DB) : Prop :=
  probe.evaluate db = .ok none ∨ ∃ candidate, probe.evaluate db = .ok (some candidate) ∧
    Settled enterpriseId candidate probe.itemId probe.supplierId db

theorem Probed.settled (step : Probed now enterpriseId probe before after) (probeSound : probe.Sound) :
    ProbeSettled enterpriseId probe after := by
  have reads := probeSound.reads step.risksOnly
  cases step with
  | quiet none => exact .inl none
  | applied found step => exact .inr ⟨_, reads.trans found, step.settled⟩

theorem Probed.keeps_settled {other : Probe} (step : Probed now enterpriseId probe before after)
    (otherSound : other.Sound) (settled : ProbeSettled enterpriseId other before) :
    ProbeSettled enterpriseId other after := by
  have reads := otherSound.reads step.risksOnly
  cases step with
  | quiet _ => exact settled
  | applied _ step =>
      rcases settled with none | ⟨candidate, found, settled⟩
      · exact .inl (reads.trans none)
      · exact .inr ⟨candidate, reads.trans found, step.keeps_settled settled⟩

theorem runProbe_of_settled (now : Timestamp) (findings : List RiskFinding)
    (settled : ProbeSettled enterpriseId probe before) :
    ∃ results, runProbe now enterpriseId findings probe before = .ok results before := by
  simp only [runProbe, bind_eq_ok, read_eq_ok, lift_eq_ok]
  rcases settled with none | ⟨candidate, found, settled⟩
  · exact ⟨findings, _, _, ⟨rfl, rfl⟩, _, _, ⟨none, rfl⟩, rfl⟩
  · obtain ⟨finding, applied⟩ := applyCandidate_of_settled now settled
    refine ⟨findings ++ [finding], _, _, ⟨rfl, rfl⟩, _, _, ⟨found, rfl⟩, ?_⟩
    simp only [bind_eq_ok, pure_eq_ok]
    exact ⟨finding, before, applied, rfl, rfl⟩

/-- What a run over several probes preserves and reaches. -/
structure Detected (enterpriseId : Uuid) (ran : List Probe) (before after : DB) : Prop where
  only : risksOnly.rel before after
  sound : FindingsSound before → FindingsSound after
  terminal : terminalFrame.rel before after
  settled : ∀ probe ∈ ran, ProbeSettled enterpriseId probe after
  keeps : ∀ probe : Probe, probe.Sound → ProbeSettled enterpriseId probe before →
    ProbeSettled enterpriseId probe after

theorem runProbes_ok {list : List Probe} (sounds : ∀ probe ∈ list, probe.Sound)
    (ran : list.foldlM (runProbe now enterpriseId) findings before = .ok results after) :
    Detected enterpriseId list before after := by
  induction list generalizing findings before with
  | nil =>
      obtain ⟨_, rfl⟩ := pure_eq_ok.mp ran
      exact ⟨risksOnly.refl _, id, terminalFrame.refl _, by simp, fun _ _ settled => settled⟩
  | cons probe rest ih =>
      rw [List.foldlM_cons] at ran
      obtain ⟨_, middle, first, ran⟩ := bind_eq_ok.mp ran
      have step := runProbe_ok first
      have probeSound := sounds probe (by simp)
      have later := ih (fun probe member => sounds probe (List.mem_cons_of_mem _ member)) ran
      refine ⟨risksOnly.trans step.risksOnly later.only, fun sound => later.sound (step.sound probeSound sound),
        terminalFrame.trans step.terminal later.terminal, ?_,
        fun other otherSound settled => later.keeps other otherSound (step.keeps_settled otherSound settled)⟩
      intro other member
      rcases List.mem_cons.mp member with rfl | member
      · exact later.keeps other probeSound (step.settled probeSound)
      · exact later.settled other member

/-- The orchestrator runs the probes that the state it started from determines. -/
theorem detectRisks_eq (now : Timestamp) (enterpriseId : Uuid) (before : DB) :
    detectRisks now enterpriseId before =
      (probes now enterpriseId before).foldlM (runProbe now enterpriseId) [] before := by
  have sounds := probes_sound now enterpriseId before
  unfold probes at sounds ⊢
  rw [List.foldlM_append]
  change (((aggregatesOf enterpriseId before).flatMap (aggregateProbes now)).foldlM
    (runProbe now enterpriseId) [] >>= _) before = _
  cases first : ((aggregatesOf enterpriseId before).flatMap (aggregateProbes now)).foldlM
      (runProbe now enterpriseId) [] before with
  | error reason after => rw [bind_of_error first, bind_of_error first]
  | ok findings middle =>
      have only := (runProbes_ok (fun probe member => sounds probe (by simp [member])) first).only
      have delays : supplierDelaySamples enterpriseId middle = supplierDelaySamples enterpriseId before := by
        obtain ⟨_, _, _, rfl⟩ := only
        rfl
      rw [bind_of_ok first, bind_of_ok first, List.foldlM_append, ← delays]
      change (((supplierDelaySamples enterpriseId middle).map delayProbe).foldlM
        (runProbe now enterpriseId) findings >>= _) middle = _
      cases second : ((supplierDelaySamples enterpriseId middle).map delayProbe).foldlM
          (runProbe now enterpriseId) findings middle with
      | error reason after => rw [bind_of_error second, bind_of_error second]
      | ok findings last =>
          have onlySecond := (runProbes_ok (fun probe member => sounds probe (by simp [← delays, member])) second).only
          have qualities : qualitySamples enterpriseId last = qualitySamples enterpriseId before := by
            obtain ⟨_, _, _, rfl⟩ := risksOnly.trans only onlySecond
            rfl
          rw [bind_of_ok second, bind_of_ok second, ← qualities]
          rfl

theorem detectRisks_ok (ran : detectRisks now enterpriseId before = .ok results after) :
    Detected enterpriseId (probes now enterpriseId before) before after := by
  rw [detectRisks_eq] at ran
  exact runProbes_ok (probes_sound now enterpriseId before) ran

/-- A rule of a detection that returns had computed with its inputs. -/
theorem Detected.computes {list : List Probe} (detected : Detected enterpriseId list before after) (member : probe ∈ list)
    (sound : probe.Sound) : ∃ found, probe.evaluate before = .ok found := by
  have reads := sound.reads detected.only
  rcases detected.settled probe member with none | ⟨candidate, found, _⟩
  · exact ⟨_, reads.symm.trans none⟩
  · exact ⟨_, reads.symm.trans found⟩

/-- What it found has one ongoing finding. -/
theorem Detected.single {list : List Probe} (detected : Detected enterpriseId list before after) (member : probe ∈ list)
    (sound : probe.Sound) {candidate : RiskCandidate} (found : probe.evaluate before = .ok (some candidate)) :
    ∃ finding, after.riskFinding.rows.filter (matchesCandidate enterpriseId candidate) = [finding] := by
  have reads := sound.reads detected.only
  rcases detected.settled probe member with none | ⟨again, foundAgain, finding, only, _⟩
  · cases (reads.symm.trans none).symm.trans found
  · obtain rfl : again = candidate := Option.some.inj (Except.ok.inj ((reads.symm.trans foundAgain).symm.trans found))
    exact ⟨finding, only⟩

theorem runProbes_of_settled {list : List Probe}
    (settled : ∀ probe ∈ list, ProbeSettled enterpriseId probe before) (findings : List RiskFinding) :
    ∃ results, list.foldlM (runProbe now enterpriseId) findings before = .ok results before := by
  induction list generalizing findings with
  | nil => exact ⟨findings, rfl⟩
  | cons probe rest ih =>
      obtain ⟨next, first⟩ := runProbe_of_settled now findings (settled probe (by simp))
      obtain ⟨results, later⟩ := ih (fun probe member => settled probe (List.mem_cons_of_mem _ member)) next
      refine ⟨results, ?_⟩
      rw [List.foldlM_cons, bind_of_ok first]
      exact later

theorem detectRisks_again (ran : detectRisks now enterpriseId before = .ok results after) :
    ∃ again, detectRisks now enterpriseId after = .ok again after := by
  have detected := detectRisks_ok ran
  rw [detectRisks_eq, probes_of_risksOnly detected.only]
  exact runProbes_of_settled detected.settled []

/-! ## The exceptions of a detection -/

theorem findNonTerminal_of_unique (unique : Unique ongoingKey before.riskFinding) (enterpriseId : Uuid)
    (candidate : RiskCandidate) :
    ∃ found, findNonTerminal enterpriseId candidate before = .ok found before := by
  refine ⟨_, scalarOrNone_eq_ok.mpr ⟨scalarOneOrNone_of_length_le _ ?_, rfl⟩⟩
  rw [filter_matchesCandidate]
  exact unique.filter_length _

theorem applyCandidate_of_looked (now : Timestamp) {enterpriseId : Uuid} {candidate : RiskCandidate}
    {found : Option RiskFinding} (looked : findNonTerminal enterpriseId candidate before = .ok found before)
    (itemId supplierId : Option Uuid) :
    ∃ finding after, applyCandidate now enterpriseId candidate itemId supplierId before =
      .ok finding after := by
  have created : ∃ finding middle, findOrCreate now enterpriseId candidate before = .ok finding middle := by
    unfold findOrCreate
    rw [bind_of_ok looked]
    cases found with
    | some finding => exact ⟨_, _, rfl⟩
    | none => exact ⟨_, _, rfl⟩
  obtain ⟨finding, middle, created⟩ := created
  have linking : ∃ state, linkEvidenceOf candidate.riskType finding itemId supplierId middle = .ok ⟨⟩ state := by
    unfold linkEvidenceOf
    split
    · exact ⟨_, rfl⟩
    · exact ⟨_, rfl⟩
  obtain ⟨state, linking⟩ := linking
  have requested : ∃ after, maybeEnqueueExplanation now finding state = .ok ⟨⟩ after := by
    by_cases known : explained finding state
    · exact ⟨state, maybeEnqueueExplanation_of_explained known⟩
    · have notReady : finding.aiStatus ≠ .ready := fun ready => known (.inl ready)
      have notQueued : explanationQueued finding state = false :=
        Bool.eq_false_iff.mpr fun queued => known (.inr queued)
      unfold maybeEnqueueExplanation
      rw [if_neg notReady, bind_of_ok (read_eq_ok.mpr ⟨notQueued, rfl⟩)]
      exact ⟨_, rfl⟩
  obtain ⟨after, requested⟩ := requested
  refine ⟨finding, after, ?_⟩
  simp only [applyCandidate, bind_eq_ok, pure_eq_ok]
  exact ⟨_, _, created, _, _, linking, _, _, requested, rfl, rfl⟩

theorem applyCandidate_returns (now : Timestamp) (enterpriseId : Uuid) (unique : Unique ongoingKey before.riskFinding)
    (candidate : RiskCandidate) (itemId supplierId : Option Uuid) :
    ∃ finding after, applyCandidate now enterpriseId candidate itemId supplierId before =
      .ok finding after := by
  obtain ⟨found, looked⟩ := findNonTerminal_of_unique unique enterpriseId candidate
  exact applyCandidate_of_looked now looked itemId supplierId

theorem runProbe_error {reason : Error} (unique : Unique ongoingKey before.riskFinding)
    (raised : runProbe now enterpriseId findings probe before = .error reason after) :
    probe.evaluate before = .error reason := by
  change (lift (probe.evaluate before) >>= _) before = _ at raised
  cases evaluated : probe.evaluate before with
  | error _ =>
      rw [evaluated] at raised
      cases raised
      rfl
  | ok found =>
      rw [evaluated] at raised
      cases found with
      | none => cases raised
      | some candidate =>
          obtain ⟨finding, applied, returns⟩ := applyCandidate_returns now enterpriseId unique candidate
            probe.itemId probe.supplierId
          change ((applyCandidate now enterpriseId candidate probe.itemId probe.supplierId) >>= _)
            before = _ at raised
          rw [bind_of_ok returns] at raised
          cases raised

theorem FoundOrCreated.unique {candidate : RiskCandidate} {finding : RiskFinding}
    (step : FoundOrCreated now enterpriseId candidate before finding after)
    (unique : Unique ongoingKey before.riskFinding) : Unique ongoingKey after.riskFinding := by
  cases step with
  | found _ => exact unique
  | created unknown =>
      have missing := List.filter_eq_nil_iff.mp unknown
      refine unique.insert fun other member key newHas otherHas => ?_
      have isKey := matchesCandidate_iff_key.mp (matches_newFinding now enterpriseId before.riskFinding.freshKey candidate)
      obtain rfl := Option.some.inj (isKey.symm.trans newHas)
      exact missing other member (matchesCandidate_iff_key.mpr otherHas)

theorem Probed.unique (step : Probed now enterpriseId probe before after)
    (unique : Unique ongoingKey before.riskFinding) : Unique ongoingKey after.riskFinding := by
  cases step with
  | quiet _ => exact unique
  | @applied candidate finding _ _ applied =>
      obtain ⟨middle, created, requested⟩ := applied.steps
      obtain ⟨ids, same, _⟩ := withEvidence_eq candidate finding probe.itemId probe.supplierId middle
      rw [same] at requested
      obtain ⟨_, rfl, _⟩ := requested.jobs
      exact created.unique unique

theorem detectRisks_error {reason : Error} (unique : Unique ongoingKey before.riskFinding)
    (raised : detectRisks now enterpriseId before = .error reason after) :
    ∃ probe ∈ probes now enterpriseId before, probe.evaluate before = .error reason := by
  have guarded : Guarded (fun db => Unique ongoingKey db.riskFinding ∧ risksOnly.rel before db)
      (fun reason => ∃ probe ∈ probes now enterpriseId before, probe.evaluate before = .error reason)
      ((probes now enterpriseId before).foldlM (runProbe now enterpriseId) []) := by
    refine Guarded.foldlM (fun probe member findings db holds => ?_) []
    have sound := probes_sound now enterpriseId before probe member
    cases ran : runProbe now enterpriseId findings probe db with
    | ok results later =>
        have step := runProbe_ok ran
        exact ⟨step.unique holds.1, risksOnly.trans holds.2 step.risksOnly⟩
    | error reason later => exact ⟨probe, member, (sound.reads holds.2).symm.trans (runProbe_error holds.1 ran)⟩
  rw [detectRisks_eq] at raised
  exact guarded.error ⟨unique, risksOnly.refl before⟩ raised

theorem runProbe_guarded (sound : probe.Sound) (findings : List RiskFinding) :
    Guarded FindingsSound arithmetic (runProbe now enterpriseId findings probe) := by
  intro before holds
  cases ran : runProbe now enterpriseId findings probe before with
  | ok results after => exact (runProbe_ok ran).sound sound holds
  | error reason after =>
      obtain ⟨riskType, _, judges⟩ := sound.judges
      exact (judges before).error (runProbe_error holds.unique ran)

/-- A detection that raises met a number its rules cannot compute with. -/
theorem detectRisks_guarded : Guarded FindingsSound arithmetic (detectRisks now enterpriseId) := by
  intro before holds
  rw [detectRisks_eq]
  exact Guarded.foldlM (fun probe member findings =>
    runProbe_guarded (probes_sound now enterpriseId before probe member) findings) [] before holds

end Detection

end SmartProcurement.Analysis
