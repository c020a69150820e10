import SmartProcurement.Analysis.Rules
import SmartProcurement.Analysis.Returns
import SmartProcurement.Numeric.Monotone
import Mathlib.Data.List.ReduceOption

namespace SmartProcurement.Analysis

open Numeric Transaction

/-! # Severity is monotone

The rules over the rationals, with the rounding of their arithmetic left open: no
rounding gives the exact rules, the rounding of the context gives the ones of the
code.  Whatever the rounding, a worse number never makes a rule say less.
-/

/-- No candidate, low, med, high. -/
def rank : Option Severity → ℕ
  | none => 0
  | some .low => 1
  | some .med => 2
  | some .high => 3

section Rules

variable (rounding : Rounding)

def severityOver (ratio high med : ℚ) : Severity :=
  if high ≤ ratio then .high
  else if med ≤ ratio then .med
  else .low

/-- `1 - cover / needed`, and its severity. -/
def shortfallOver (cover needed : ℚ) : Severity :=
  severityOver (rounding.round (1 - rounding.round (cover / needed))) (3 / 4) (1 / 4)

/-- The part that three rules share. -/
def shortageOver (cover needed : ℚ) : Option Severity :=
  if needed ≤ 0 then none
  else if needed ≤ cover then none
  else some (shortfallOver rounding cover needed)

def likelyShortageOver (daysOfCover leadTime : Option ℚ) : Option Severity :=
  match daysOfCover, leadTime with
  | some cover, some lead => shortageOver rounding cover lead
  | _, _ => none

def insufficientUntilNextDeliveryOver (daysOfCover : Option ℚ) (nextExpectedDeliveryAt : Option Timestamp)
    (now : Timestamp) : Option Severity :=
  match daysOfCover, nextExpectedDeliveryAt with
  | some cover, some delivery => shortageOver rounding cover ((delivery - now) / Text.microsecondsPerDay : ℤ)
  | _, _ => none

def productionStopRiskOver (daysOfCover : Option ℚ) (itemId : Uuid) (demands : List ProductionDemandSnapshot)
    (now : Timestamp) : Option Severity :=
  match daysOfCover, soonestNeed itemId (now / Text.microsecondsPerDay) demands with
  | some cover, some days => shortageOver rounding cover days
  | _, _ => none

/-- `sum(values, Decimal(0)) / Decimal(len(values))`. -/
def averageOver (values : List ℚ) : ℚ :=
  rounding.round (values.foldl (fun total value => rounding.round (total + value)) 0 / values.length)

/-- The severity of a magnitude over its threshold; a threshold of zero divides by zero. -/
def excessOver (magnitude threshold : ℚ) : Except Signal (Option Severity) :=
  if threshold = 0 then .error (if magnitude = 0 then .invalidOperation else .divisionByZero)
  else .ok (some (severityOver (rounding.round (magnitude / threshold)) 2 (3 / 2)))

/-- The part that two rules share. -/
def excessiveAverageOver (samples : List (Option ℚ)) (threshold : ℚ) : Except Signal (Option Severity) :=
  let values := samples.reduceOption
  if values.isEmpty then .ok none
  else if averageOver rounding values ≤ threshold then .ok none
  else excessOver rounding (averageOver rounding values) threshold

def systematicSupplierDelayOver (delaySamples : List (Option ℚ)) (thresholdDays : ℚ) (minSamples : ℕ) :
    Except Signal (Option Severity) :=
  if delaySamples.length < minSamples then .ok none
  else excessiveAverageOver rounding delaySamples thresholdDays

def priceAnomalyOver (priceTrend : Option ℚ) (thresholdPct : ℚ) : Except Signal (Option Severity) :=
  match priceTrend with
  | none => .ok none
  | some trend =>
      let magnitude := rounding.round |trend|
      if magnitude < thresholdPct then .ok none
      else excessOver rounding magnitude thresholdPct

def qualityDegradationOver (defectSamples : List (Option ℚ)) (thresholdDefectRate : ℚ) : Except Signal (Option Severity) :=
  if defectSamples.isEmpty then .ok none
  else excessiveAverageOver rounding defectSamples thresholdDefectRate

/-- Where both return, the second result is no lower. -/
def NoLower (first second : Except Signal (Option Severity)) : Prop :=
  ∀ found other, first = .ok found → second = .ok other → rank found ≤ rank other

/-- What growing does to the result of each rule, the other inputs fixed. -/
structure SeverityMonotone : Prop where
  shortageCover : ∀ cover more leadTime, cover ≤ more →
    rank (likelyShortageOver rounding (some more) leadTime) ≤ rank (likelyShortageOver rounding (some cover) leadTime)
  deliveryCover : ∀ cover more delivery now, cover ≤ more →
    rank (insufficientUntilNextDeliveryOver rounding (some more) delivery now) ≤
      rank (insufficientUntilNextDeliveryOver rounding (some cover) delivery now)
  stopCover : ∀ cover more itemId demands now, cover ≤ more →
    rank (productionStopRiskOver rounding (some more) itemId demands now) ≤
      rank (productionStopRiskOver rounding (some cover) itemId demands now)
  leadTime : ∀ daysOfCover lead longer, lead ≤ longer →
    rank (likelyShortageOver rounding daysOfCover (some lead)) ≤ rank (likelyShortageOver rounding daysOfCover (some longer))
  delivery : ∀ daysOfCover delivery later now, delivery ≤ later →
    rank (insufficientUntilNextDeliveryOver rounding daysOfCover (some delivery) now) ≤
      rank (insufficientUntilNextDeliveryOver rounding daysOfCover (some later) now)
  trend : ∀ trend steeper threshold, |trend| ≤ |steeper| →
    NoLower (priceAnomalyOver rounding (some trend) threshold) (priceAnomalyOver rounding (some steeper) threshold)
  delay : ∀ front sample more back threshold minSamples, sample ≤ more →
    NoLower (systematicSupplierDelayOver rounding (front ++ some sample :: back) threshold minSamples)
      (systematicSupplierDelayOver rounding (front ++ some more :: back) threshold minSamples)
  defects : ∀ front sample more back threshold, sample ≤ more →
    NoLower (qualityDegradationOver rounding (front ++ some sample :: back) threshold)
      (qualityDegradationOver rounding (front ++ some more :: back) threshold)

end Rules

section Monotone

variable {rounding : Rounding} {ratio larger high med cover more needed longer threshold magnitude : ℚ}
variable {values front back : List ℚ}

theorem severityOver_mono (le : ratio ≤ larger) :
    rank (some (severityOver ratio high med)) ≤ rank (some (severityOver larger high med)) := by
  unfold severityOver
  split
  · next reached =>
    rw [if_pos (reached.trans le)]
  · split
    · next reached =>
      split
      · exact Nat.le_succ 2
      · rw [if_pos (reached.trans le)]
    · split
      · decide
      · split <;> decide

theorem severityOver_high (reached : high ≤ ratio) : severityOver ratio high med = .high := if_pos reached

/-! ## Shortfalls -/

theorem shortfallOver_anti (positive : 0 < needed) (le : cover ≤ more) :
    rank (some (shortfallOver rounding more needed)) ≤ rank (some (shortfallOver rounding cover needed)) := by
  have ratios : rounding.round (cover / needed) ≤ rounding.round (more / needed) :=
    rounding.monotone (div_le_div_of_nonneg_right le positive.le)
  exact severityOver_mono (rounding.monotone (sub_le_sub_left ratios 1))

/-- Without any cover the shortfall is high, however long it lasts. -/
theorem shortfallOver_of_nonpos (positive : 0 < needed) (none : cover ≤ 0) : shortfallOver rounding cover needed = .high := by
  have ratio : rounding.round (cover / needed) ≤ 0 := rounding.nonpos (div_nonpos_of_nonpos_of_nonneg none positive.le)
  have missing : 1 ≤ rounding.round (1 - rounding.round (cover / needed)) := rounding.one_le (by linarith)
  exact severityOver_high (le_trans (by norm_num) missing)

theorem shortfallOver_mono (positive : 0 < needed) (le : needed ≤ longer) :
    rank (some (shortfallOver rounding cover needed)) ≤ rank (some (shortfallOver rounding cover longer)) := by
  rcases le_total cover 0 with none | covered
  · rw [shortfallOver_of_nonpos positive none, shortfallOver_of_nonpos (positive.trans_le le) none]
  · have ratios : rounding.round (cover / longer) ≤ rounding.round (cover / needed) :=
      rounding.monotone (div_le_div_of_nonneg_left covered positive le)
    exact severityOver_mono (rounding.monotone (sub_le_sub_left ratios 1))

theorem shortageOver_anti (le : cover ≤ more) :
    rank (shortageOver rounding more needed) ≤ rank (shortageOver rounding cover needed) := by
  unfold shortageOver
  split
  · exact Nat.le_refl 0
  · next positive =>
    split
    · exact Nat.zero_le _
    · next short =>
      rw [if_neg fun enough => short (enough.trans le)]
      exact shortfallOver_anti (not_le.mp positive) le

theorem shortageOver_mono (le : needed ≤ longer) :
    rank (shortageOver rounding cover needed) ≤ rank (shortageOver rounding cover longer) := by
  unfold shortageOver
  split
  · exact Nat.zero_le _
  · next positive =>
    split
    · exact Nat.zero_le _
    · next short =>
      have positive := not_le.mp positive
      rw [if_neg (not_le.mpr (positive.trans_le le)), if_neg fun enough => short (le.trans enough)]
      exact shortfallOver_mono positive le

/-! ## Magnitudes and averages -/

/-- Above its threshold a larger magnitude is no less severe; a negative threshold makes every
one of them low. -/
theorem excessOver_mono (above : threshold ≤ magnitude) (le : magnitude ≤ larger) :
    NoLower (excessOver rounding magnitude threshold) (excessOver rounding larger threshold) := by
  intro found other foundEq otherEq
  unfold excessOver at foundEq otherEq
  split at foundEq
  · cases foundEq
  · next nonzero =>
    rw [if_neg nonzero] at otherEq
    cases foundEq
    cases otherEq
    rcases lt_or_gt_of_ne nonzero with negative | positive
    · have low (value : ℚ) (above : threshold ≤ value) : severityOver (rounding.round (value / threshold)) 2 (3 / 2) = .low := by
        have ratio : rounding.round (value / threshold) ≤ 1 :=
          rounding.le_one ((div_le_one_of_neg negative).mpr above)
        rw [severityOver, if_neg (by linarith), if_neg (by linarith)]
      rw [low magnitude above, low larger (above.trans le)]
    · exact severityOver_mono (rounding.monotone (div_le_div_of_nonneg_right le positive.le))

theorem sumOver_mono (values : List ℚ) (le : cover ≤ more) :
    values.foldl (fun total value => rounding.round (total + value)) cover ≤
      values.foldl (fun total value => rounding.round (total + value)) more := by
  induction values generalizing cover more with
  | nil => exact le
  | cons value rest ih => exact ih (rounding.monotone (add_le_add_left le value))

theorem averageOver_mono (le : cover ≤ more) :
    averageOver rounding (front ++ cover :: back) ≤ averageOver rounding (front ++ more :: back) := by
  have length : (front ++ cover :: back).length = (front ++ more :: back).length := by simp
  unfold averageOver
  rw [length]
  refine rounding.monotone (div_le_div_of_nonneg_right ?_ (Nat.cast_nonneg _))
  rw [List.foldl_append, List.foldl_append, List.foldl_cons, List.foldl_cons]
  exact sumOver_mono back (rounding.monotone (add_le_add_right le _))

theorem NoLower.of_none {second : Except Signal (Option Severity)} : NoLower (.ok none) second := by
  rintro _ other ⟨⟩ _
  exact Nat.zero_le _

theorem excessiveAverageOver_mono {front back : List (Option ℚ)} (le : cover ≤ more) :
    NoLower (excessiveAverageOver rounding (front ++ some cover :: back) threshold)
      (excessiveAverageOver rounding (front ++ some more :: back) threshold) := by
  have split (sample : ℚ) : (front ++ some sample :: back).reduceOption = front.reduceOption ++ sample :: back.reduceOption := by
    rw [List.reduceOption_append, List.reduceOption_cons_of_some]
  have nonempty (sample : ℚ) : ¬ (front.reduceOption ++ sample :: back.reduceOption).isEmpty = true := by simp
  unfold excessiveAverageOver
  simp only [split, if_neg (nonempty _)]
  have averages : averageOver rounding (front.reduceOption ++ cover :: back.reduceOption) ≤
      averageOver rounding (front.reduceOption ++ more :: back.reduceOption) := averageOver_mono le
  split
  · exact .of_none
  · next above =>
    have above := (not_le.mp above).le
    have still : ¬ averageOver rounding (front.reduceOption ++ more :: back.reduceOption) ≤ threshold :=
      fun below => ‹¬ _› (averages.trans below)
    rw [if_neg still]
    exact excessOver_mono above averages

end Monotone

/-! ## The code's own rounding -/

section Context

variable {aggregate : AggregateSnapshot} {cover needed ratio high med magnitude threshold trend : ℚ} {values : List ℚ}

theorem severityFromRatio_eq :
    severityFromRatio (.finite ratio) (.finite high) (.finite med) = .ok (severityOver ratio high med) := by
  simp only [severityFromRatio, severityOver, atLeast, trap_le, bind, Except.bind, Bool.not_eq_true', decide_eq_false_iff_not,
    not_lt]
  split
  · rfl
  · split <;> rfl

theorem shortfallSeverity_eq (nonzero : needed ≠ 0) :
    shortfallSeverity (.finite cover) (.finite needed) = .ok (shortfallOver .context cover needed) := by
  simp only [shortfallSeverity, trap_div cover nonzero, bind, Except.bind]
  rw [shortfallOver, sub_eq_add_neg]
  exact severityFromRatio_eq

theorem excessSeverity_eq (nonzero : threshold ≠ 0) (candidate : Severity → RiskCandidate) :
    (excessSeverity (.finite magnitude) (.finite threshold) >>= fun severity => .ok (some (candidate severity))) =
      trap ((excessOver .context magnitude threshold).map (Option.map candidate)) := by
  simp only [excessSeverity, trap_div magnitude nonzero, bind, Except.bind]
  rw [severityFromRatio_eq, excessOver, if_neg nonzero]
  rfl

/-- The guards and the shortfall of a rule about days. -/
theorem shortage_eq (candidate : Severity → RiskCandidate) :
    (do
      if ← atMost (.finite needed) .zero then return none
      if ← atLeast (.finite cover) (.finite needed) then return none
      return some (candidate (← shortfallSeverity (.finite cover) (.finite needed))) : Except Error (Option RiskCandidate)) =
      .ok ((shortageOver .context cover needed).map candidate) := by
  simp only [atMost, atLeast, Decimal.zero, trap_le, bind, Except.bind, shortageOver, Bool.not_eq_true',
    decide_eq_false_iff_not, not_lt]
  split
  · rfl
  · next positive =>
    split
    · rfl
    · rw [shortfallSeverity_eq (not_le.mp positive).ne']
      rfl

theorem shortage_days_eq (days : ℤ) (candidate : Severity → RiskCandidate) :
    (do
      if days ≤ 0 then return none
      if ← atLeast (.finite cover) (.finite days) then return none
      return some (candidate (← shortfallSeverity (.finite cover) (.finite days))) : Except Error (Option RiskCandidate)) =
      .ok ((shortageOver .context cover days).map candidate) := by
  rw [← shortage_eq]
  simp only [atMost, Decimal.zero, trap_le, bind, Except.bind, Bool.not_eq_true', decide_eq_false_iff_not, not_lt]
  by_cases due : days ≤ 0
  · rw [if_pos due, if_pos (by exact_mod_cast due)]
  · rw [if_neg due, if_neg (by exact_mod_cast due)]

theorem evaluateLikelyShortage_eq (known : aggregate.values.daysOfCover = some (.finite cover)) (lead : ℚ) :
    evaluateLikelyShortage aggregate (.finite lead) = .ok
      ((likelyShortageOver .context (some cover) (some lead)).map (itemCandidate .likelyShortage aggregate.itemId)) := by
  simp only [evaluateLikelyShortage, known]
  exact shortage_eq _

theorem evaluateInsufficientUntilNextDelivery_eq (known : aggregate.values.daysOfCover = some (.finite cover))
    (now : Timestamp) : evaluateInsufficientUntilNextDelivery aggregate now = .ok
      ((insufficientUntilNextDeliveryOver .context (some cover) aggregate.values.nextExpectedDeliveryAt now).map
        (itemCandidate .insufficientUntilNextDelivery aggregate.itemId)) := by
  unfold evaluateInsufficientUntilNextDelivery
  rw [known]
  cases expected : aggregate.values.nextExpectedDeliveryAt with
  | none => rfl
  | some delivery => exact shortage_days_eq _ _

theorem evaluateProductionStopRisk_eq_over (known : aggregate.values.daysOfCover = some (.finite cover))
    (demands : List ProductionDemandSnapshot) (now : Timestamp) : evaluateProductionStopRisk aggregate demands now = .ok
      ((productionStopRiskOver .context (some cover) aggregate.itemId demands now).map
        (itemCandidate .productionStopRisk aggregate.itemId)) := by
  unfold evaluateProductionStopRisk productionStopRiskOver
  rw [known]
  cases demands with
  | nil => rfl
  | cons first rest =>
      dsimp only
      cases soonestNeed aggregate.itemId (now / Text.microsecondsPerDay) (first :: rest) with
      | none => rfl
      | some days => exact shortage_days_eq days _

theorem evaluatePriceAnomaly_eq (known : aggregate.values.priceTrend = some (.finite trend)) :
    evaluatePriceAnomaly aggregate = trap
      ((priceAnomalyOver .context (some trend) (1 / 10)).map (Option.map (itemCandidate .priceAnomaly aggregate.itemId))) := by
  have magnitude : trap (Decimal.finite trend).abs = .ok (.finite (roundContext |trend|)) := rfl
  have compared : trap ((Decimal.finite (roundContext |trend|)).lt priceAnomalyThresholdPct) =
      .ok (decide (roundContext |trend| < 1 / 10)) := rfl
  have rounded : Rounding.context.round |trend| = roundContext |trend| := rfl
  unfold evaluatePriceAnomaly priceAnomalyOver
  simp only [known, magnitude, compared, rounded, bind, Except.bind, decide_eq_true_eq]
  by_cases small : roundContext |trend| < 1 / 10
  · rw [if_pos small, if_pos small]
    rfl
  · rw [if_neg small, if_neg small]
    exact excessSeverity_eq (by norm_num) _

theorem average_eq (nonempty : values ≠ []) :
    average (values.map .finite) = .ok (.finite (averageOver .context values)) := by
  have count : ((values.map Decimal.finite).length : ℚ) ≠ 0 := by simpa using nonempty
  rw [average, trap_sum]
  refine (trap_div _ count).trans ?_
  rw [List.length_map]
  rfl

theorem excessiveAverage_eq (nonempty : values ≠ []) (nonzero : threshold ≠ 0) (candidate : Severity → RiskCandidate) :
    (do
      let mean ← average (values.map .finite)
      if ← atMost mean (.finite threshold) then return none
      return some (candidate (← excessSeverity mean (.finite threshold))) : Except Error (Option RiskCandidate)) =
      trap ((excessiveAverageOver .context (values.map some) threshold).map (Option.map candidate)) := by
  have present : (values.map some).reduceOption = values := by simp [List.reduceOption]
  have filled : ¬ values.isEmpty = true := by simpa using nonempty
  simp only [average_eq nonempty, atMost, trap_le, bind, Except.bind, excessiveAverageOver, present, if_neg filled,
    Bool.not_eq_true', decide_eq_false_iff_not, not_lt]
  by_cases small : averageOver .context values ≤ threshold
  · rw [if_pos small, if_pos small]
    rfl
  · rw [if_neg small, if_neg small]
    exact excessSeverity_eq nonzero _

theorem evaluateSystematicSupplierDelay_eq (supplierId : Uuid) (values : List ℚ) :
    evaluateSystematicSupplierDelay supplierId (values.map .finite) = trap
      ((systematicSupplierDelayOver .context (values.map some) 3 systematicDelayMinSamples).map (Option.map fun severity =>
        { riskType := .systematicSupplierDelay, itemId := none, supplierId := some supplierId, severity })) := by
  unfold evaluateSystematicSupplierDelay systematicSupplierDelayOver
  rw [List.length_map, List.length_map]
  split
  · rfl
  · next enough =>
    have nonempty : values ≠ [] := by
      rintro rfl
      exact enough (by decide)
    rw [if_neg (by simpa using nonempty)]
    exact excessiveAverage_eq nonempty (by norm_num) _

theorem evaluateQualityDegradation_eq (itemId supplierId : Uuid) (values : List ℚ) :
    evaluateQualityDegradation itemId supplierId (values.map .finite) = trap
      ((qualityDegradationOver .context (values.map some) (1 / 20)).map (Option.map fun severity =>
        { riskType := .qualityDegradation, itemId := some itemId, supplierId := some supplierId, severity })) := by
  unfold evaluateQualityDegradation qualityDegradationOver
  cases values with
  | nil => rfl
  | cons first rest =>
      rw [if_neg (by simp), if_neg (by simp)]
      exact excessiveAverage_eq (by simp) (by norm_num) _

end Context

theorem severity_monotone (rounding : Rounding) : SeverityMonotone rounding where
  shortageCover cover more leadTime le := by
    cases leadTime with
    | none => exact Nat.le_refl 0
    | some lead => exact shortageOver_anti le
  deliveryCover cover more delivery now le := by
    cases delivery with
    | none => exact Nat.le_refl 0
    | some delivery => exact shortageOver_anti le
  stopCover cover more itemId demands now le := by
    unfold productionStopRiskOver
    cases soonestNeed itemId (now / Text.microsecondsPerDay) demands with
    | none => exact Nat.le_refl 0
    | some days => exact shortageOver_anti le
  leadTime daysOfCover lead longer le := by
    cases daysOfCover with
    | none => exact Nat.le_refl 0
    | some cover => exact shortageOver_mono le
  delivery daysOfCover delivery later now le := by
    cases daysOfCover with
    | none => exact Nat.le_refl 0
    | some cover =>
        have days : (delivery - now) / Text.microsecondsPerDay ≤ (later - now) / Text.microsecondsPerDay :=
          Int.ediv_le_ediv (by decide) (Int.sub_le_sub_right le now)
        exact shortageOver_mono (Int.cast_le.mpr days)
  trend trend steeper threshold le := by
    have magnitudes : rounding.round |trend| ≤ rounding.round |steeper| := rounding.monotone le
    unfold priceAnomalyOver
    dsimp only
    split
    · exact .of_none
    · next reached =>
      have reached := not_lt.mp reached
      rw [if_neg (not_lt.mpr (reached.trans magnitudes))]
      exact excessOver_mono reached magnitudes
  delay front sample more back threshold minSamples le := by
    have length : (front ++ some sample :: back).length = (front ++ some more :: back).length := by simp
    unfold systematicSupplierDelayOver
    rw [length]
    split
    · exact .of_none
    · exact excessiveAverageOver_mono le
  defects front sample more back threshold le := by
    unfold qualityDegradationOver
    rw [if_neg (by simp), if_neg (by simp)]
    exact excessiveAverageOver_mono le

end SmartProcurement.Analysis
