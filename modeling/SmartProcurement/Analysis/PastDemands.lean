import SmartProcurement.Analysis.Returns

namespace SmartProcurement.Analysis

open Numeric Transaction

/-! # Demands that are past

Demands are never removed, so a rule sees past and future needs of an item
together, and takes the soonest of them all before it asks whether it is still to
come.
-/

section Demands

variable {itemId : Uuid} {today : Date} {now : Timestamp} {cover : Decimal} {days : ℤ}
variable {aggregate : AggregateSnapshot} {demands : List ProductionDemandSnapshot}

/-! ## The soonest need -/

theorem soonestNeed_from (soonest : Option Int) :
    demands.foldl (fun soonest demand =>
        if demand.itemId ≠ itemId then soonest
        else
          let days := demand.needBy - today
          match soonest with
          | none => some days
          | some least => if days < least then some days else some least) soonest =
      (soonest.toList ++ (demands.filter (·.itemId = itemId)).map (·.needBy - today)).min? := by
  induction demands generalizing soonest with
  | nil => cases soonest <;> rfl
  | cons demand rest ih =>
      rw [List.foldl_cons, ih]
      by_cases own : demand.itemId = itemId
      · rw [List.filter_cons_of_pos (by simpa using own), List.map_cons, if_neg (not_not.mpr own)]
        cases soonest with
        | none => rfl
        | some least =>
            simp only [Option.toList_some, List.singleton_append, List.min?_cons', List.foldl_cons]
            split
            · next less => rw [min_eq_right less.le]; rfl
            · next least => rw [min_eq_left (not_lt.mp least)]; rfl
      · rw [List.filter_cons_of_neg (by simpa using own), if_pos own]

theorem soonestNeed_eq_min? :
    soonestNeed itemId today demands = ((demands.filter (·.itemId = itemId)).map (·.needBy - today)).min? :=
  soonestNeed_from none

theorem soonestNeed_eq_none : soonestNeed itemId today demands = none ↔ ∀ demand ∈ demands, demand.itemId ≠ itemId := by
  rw [soonestNeed_eq_min?, List.min?_eq_none_iff, List.map_eq_nil_iff, List.filter_eq_nil_iff]
  simp

theorem soonestNeed_eq_some :
    soonestNeed itemId today demands = some days ↔
      ∃ demand ∈ demands, demand.itemId = itemId ∧ days = demand.needBy - today ∧
        ∀ other ∈ demands, other.itemId = itemId → demand.needBy ≤ other.needBy := by
  rw [soonestNeed_eq_min?, List.min?_eq_some_iff]
  simp only [List.mem_map, List.mem_filter, decide_eq_true_eq, forall_exists_index, and_imp]
  constructor
  · rintro ⟨⟨demand, ⟨member, own⟩, rfl⟩, least⟩
    exact ⟨demand, member, own, rfl, fun other otherMember otherOwn =>
      (Int.sub_le_sub_right_iff).mp (least _ other otherMember otherOwn rfl)⟩
  · rintro ⟨demand, member, own, rfl, least⟩
    refine ⟨⟨demand, ⟨member, own⟩, rfl⟩, ?_⟩
    rintro _ other otherMember otherOwn rfl
    exact Int.sub_le_sub_right (least other otherMember otherOwn) today

/-! ## What follows from it -/

/-- The rest of the rule, once the soonest need is known. -/
def stopVerdict (itemId : Uuid) (cover : Decimal) : Option Int → Except Error (Option RiskCandidate)
  | none => .ok none
  | some days => do
      if days ≤ 0 then return none
      if ← atLeast cover (.finite days) then return none
      return some (itemCandidate .productionStopRisk itemId (← shortfallSeverity cover (.finite days)))

theorem evaluateProductionStopRisk_eq (known : aggregate.values.daysOfCover = some cover) :
    evaluateProductionStopRisk aggregate demands now =
      stopVerdict aggregate.itemId cover (soonestNeed aggregate.itemId (now / Text.microsecondsPerDay) demands) := by
  unfold evaluateProductionStopRisk
  rw [known]
  cases demands with
  | nil => rfl
  | cons first rest =>
      cases soonest : soonestNeed aggregate.itemId (now / Text.microsecondsPerDay) (first :: rest) with
      | none => simp only [soonest, stopVerdict]
      | some days => simp only [soonest, stopVerdict]

theorem stopVerdict_due (due : days ≤ 0) : stopVerdict itemId cover (some days) = .ok none := by
  rw [stopVerdict, if_pos due]
  rfl

/-- A cover that is below a number of days is a number or infinitely small. -/
theorem shortfallSeverity_of_lt (later : 0 < days) (short : cover.lt (.finite days) = .ok true) :
    ∃ severity, shortfallSeverity cover (.finite days) = .ok severity := by
  cases cover with
  | finite value => exact shortfallSeverity_returns value (by exact_mod_cast later.ne')
  | nan => cases short
  | snan => cases short
  | infinity negative =>
      obtain rfl : negative = true := by simpa [Decimal.lt, Decimal.nanOperand] using short
      have positive : ¬ (days : ℚ) < 0 := by exact_mod_cast later.not_gt
      refine ⟨.high, ?_⟩
      simp [shortfallSeverity, severityFromRatio, atLeast, Decimal.div, Decimal.sub, Decimal.neg, Decimal.add, Decimal.le,
        Decimal.lt, Decimal.negative, Decimal.nanOperand, trap, bind, Except.bind, pure, Except.pure, positive]

theorem stopVerdict_later (later : 0 < days) :
    (stopVerdict itemId cover (some days) = .ok none ↔ cover.lt (.finite days) = .ok false) ∧
      ((∃ candidate, stopVerdict itemId cover (some days) = .ok (some candidate)) ↔
        cover.lt (.finite days) = .ok true) := by
  rw [stopVerdict, if_neg (not_le.mpr later)]
  cases below : cover.lt (.finite days) with
  | error signal => simp [atLeast, Decimal.le, below, trap, bind, Except.bind]
  | ok short =>
      cases short with
      | false => simp [atLeast, Decimal.le, below, trap, bind, Except.bind, pure, Except.pure]
      | true =>
          obtain ⟨severity, returns⟩ := shortfallSeverity_of_lt later below
          simp [atLeast, Decimal.le, below, trap, bind, Except.bind, pure, Except.pure, returns]

/-- A cover that is enough for a number of days is enough for less of them. -/
theorem lt_false_mono {fewer : ℤ} (enough : cover.lt (.finite days) = .ok false) (less : fewer ≤ days) :
    cover.lt (.finite fewer) = .ok false := by
  cases cover with
  | finite value =>
      simp only [Decimal.lt, Decimal.nanOperand, Except.ok.injEq, decide_eq_false_iff_not, not_lt] at enough ⊢
      exact (Int.cast_le.mpr less).trans enough
  | nan => cases enough
  | snan => cases enough
  | infinity negative => exact enough

/-! ## Past and upcoming demands -/

/-- The demands for the item that are needed after today. -/
def upcoming (itemId : Uuid) (today : Date) (demands : List ProductionDemandSnapshot) : List ProductionDemandSnapshot :=
  demands.filter fun demand => demand.itemId = itemId ∧ today < demand.needBy

/-- The cover is less than the days until the soonest of the demands. -/
def FallsShort (cover : Decimal) (today : Date) (demands : List ProductionDemandSnapshot) : Prop :=
  ∃ demand ∈ demands, (∀ other ∈ demands, demand.needBy ≤ other.needBy) ∧
    cover.lt (.finite (demand.needBy - today : ℤ)) = .ok true

/-- What is past or due today is as if it were not there. -/
structure LooksAhead (aggregate : AggregateSnapshot) (cover : Decimal) (demands : List ProductionDemandSnapshot)
    (now : Timestamp) : Prop where
  same : evaluateProductionStopRisk aggregate demands now =
    evaluateProductionStopRisk aggregate (upcoming aggregate.itemId (now / Text.microsecondsPerDay) demands) now
  fires : (∃ candidate, evaluateProductionStopRisk aggregate demands now = .ok (some candidate)) ↔
    FallsShort cover (now / Text.microsecondsPerDay)
      (upcoming aggregate.itemId (now / Text.microsecondsPerDay) demands)

/-- Nothing of the item is due, nothing of it is still to come, or the cover lasts
until one of the needs to come. -/
def Unhidden (itemId : Uuid) (cover : Decimal) (today : Date) (demands : List ProductionDemandSnapshot) : Prop :=
  (∀ demand ∈ demands, demand.itemId = itemId → today < demand.needBy) ∨ upcoming itemId today demands = [] ∨
    ∃ demand ∈ upcoming itemId today demands, cover.lt (.finite (demand.needBy - today : ℤ)) = .ok false

theorem mem_upcoming {demand : ProductionDemandSnapshot} :
    demand ∈ upcoming itemId today demands ↔ demand ∈ demands ∧ demand.itemId = itemId ∧ today < demand.needBy := by
  simp [upcoming]

theorem soonestNeed_upcoming :
    soonestNeed itemId today (upcoming itemId today demands) = some days ↔
      ∃ demand ∈ upcoming itemId today demands, days = demand.needBy - today ∧
        ∀ other ∈ upcoming itemId today demands, demand.needBy ≤ other.needBy := by
  rw [soonestNeed_eq_some]
  constructor
  · rintro ⟨demand, member, _, rfl, least⟩
    exact ⟨demand, member, rfl, fun other otherMember => least other otherMember (mem_upcoming.mp otherMember).2.1⟩
  · rintro ⟨demand, member, rfl, least⟩
    exact ⟨demand, member, (mem_upcoming.mp member).2.1, rfl, fun other otherMember _ => least other otherMember⟩

theorem soonestNeed_upcoming_none :
    soonestNeed itemId today (upcoming itemId today demands) = none ↔ upcoming itemId today demands = [] := by
  rw [soonestNeed_eq_none, List.eq_nil_iff_forall_not_mem]
  exact ⟨fun other demand member => other demand member (mem_upcoming.mp member).2.1,
    fun empty demand member => absurd member (empty demand)⟩

theorem soonestNeed_later (soonest : soonestNeed itemId today (upcoming itemId today demands) = some days) : 0 < days := by
  obtain ⟨demand, member, rfl, _⟩ := soonestNeed_upcoming.mp soonest
  exact Int.sub_pos.mpr (mem_upcoming.mp member).2.2

/-- Over demands to come the rule fires as it is meant to. -/
theorem fires_upcoming (known : aggregate.values.daysOfCover = some cover) :
    (∃ candidate, evaluateProductionStopRisk aggregate
        (upcoming aggregate.itemId (now / Text.microsecondsPerDay) demands) now = .ok (some candidate)) ↔
      FallsShort cover (now / Text.microsecondsPerDay)
        (upcoming aggregate.itemId (now / Text.microsecondsPerDay) demands) := by
  rw [evaluateProductionStopRisk_eq known]
  generalize now / Text.microsecondsPerDay = today
  cases soonest : soonestNeed aggregate.itemId today (upcoming aggregate.itemId today demands) with
  | none => simp [stopVerdict, FallsShort, soonestNeed_upcoming_none.mp soonest]
  | some days =>
      rw [(stopVerdict_later (soonestNeed_later soonest)).2]
      obtain ⟨demand, member, rfl, least⟩ := soonestNeed_upcoming.mp soonest
      constructor
      · exact fun short => ⟨demand, member, least, short⟩
      · rintro ⟨other, otherMember, otherLeast, short⟩
        rwa [le_antisymm (least other otherMember) (otherLeast demand member)]

/-- Once one demand for the item is due, the soonest is. -/
theorem soonestNeed_due {demand : ProductionDemandSnapshot} (member : demand ∈ demands) (own : demand.itemId = itemId)
    (due : demand.needBy ≤ today) : ∃ days ≤ 0, soonestNeed itemId today demands = some days := by
  cases soonest : soonestNeed itemId today demands with
  | none => exact absurd own (soonestNeed_eq_none.mp soonest demand member)
  | some days =>
      obtain ⟨first, _, _, rfl, least⟩ := soonestNeed_eq_some.mp soonest
      exact ⟨_, Int.sub_nonpos_of_le ((least demand member own).trans due), rfl⟩

theorem soonestNeed_undue (undue : ∀ demand ∈ demands, demand.itemId = itemId → today < demand.needBy) :
    soonestNeed itemId today demands = soonestNeed itemId today (upcoming itemId today demands) := by
  have own : (upcoming itemId today demands).filter (·.itemId = itemId) = demands.filter (·.itemId = itemId) := by
    rw [upcoming, List.filter_filter]
    refine List.filter_congr fun demand member => ?_
    simp only [Bool.decide_and, Bool.and_eq_left_iff_imp, Bool.and_eq_true, decide_eq_true_eq]
    exact fun own => ⟨own, undue demand member own⟩
  rw [soonestNeed_eq_min?, soonestNeed_eq_min?, own]

theorem same_iff_unhidden (known : aggregate.values.daysOfCover = some cover) :
    evaluateProductionStopRisk aggregate demands now =
        evaluateProductionStopRisk aggregate (upcoming aggregate.itemId (now / Text.microsecondsPerDay) demands) now ↔
      Unhidden aggregate.itemId cover (now / Text.microsecondsPerDay) demands := by
  rw [evaluateProductionStopRisk_eq known, evaluateProductionStopRisk_eq known]
  generalize now / Text.microsecondsPerDay = today
  by_cases undue : ∀ demand ∈ demands, demand.itemId = aggregate.itemId → today < demand.needBy
  · exact iff_of_true (by rw [soonestNeed_undue undue]) (.inl undue)
  · rw [Unhidden, or_iff_right undue]
    push Not at undue
    obtain ⟨demand, member, own, due⟩ := undue
    obtain ⟨days, isDue, soonest⟩ := soonestNeed_due member own due
    rw [soonest, stopVerdict_due isDue]
    cases next : soonestNeed aggregate.itemId today (upcoming aggregate.itemId today demands) with
    | none => exact iff_of_true rfl (.inl (soonestNeed_upcoming_none.mp next))
    | some later =>
        obtain ⟨first, firstMember, rfl, least⟩ := soonestNeed_upcoming.mp next
        rw [eq_comm, (stopVerdict_later (soonestNeed_later next)).1, or_iff_right (List.ne_nil_of_mem firstMember)]
        constructor
        · exact fun enough => ⟨first, firstMember, enough⟩
        · rintro ⟨other, otherMember, enough⟩
          exact lt_false_mono enough (Int.sub_le_sub_right (least other otherMember) today)

/-- A past demand hides no future one exactly if there is none of the item, or
there is nothing to hide. -/
theorem looksAhead_iff (known : aggregate.values.daysOfCover = some cover) :
    LooksAhead aggregate cover demands now ↔
      Unhidden aggregate.itemId cover (now / Text.microsecondsPerDay) demands := by
  rw [← same_iff_unhidden known]
  constructor
  · exact fun ahead => ahead.same
  · intro same
    refine ⟨same, ?_⟩
    rw [same]
    exact fires_upcoming known

end Demands

/-- Five days of cover. -/
def coveredItem : AggregateSnapshot where
  itemId := 1
  warehouseId := none
  values := ⟨none, some (.finite 5), none, none, none, none⟩
  computedAt := 0

theorem looksAhead_comfortable :
    LooksAhead coveredItem (.finite 5) [⟨1, 3⟩, ⟨1, 13⟩, ⟨2, 30⟩] (10 * Text.microsecondsPerDay) :=
  (looksAhead_iff rfl).mpr (.inr (.inr ⟨⟨1, 13⟩, mem_upcoming.mpr ⟨by simp, rfl, by decide⟩, by decide +kernel⟩))

/-- A need of a week ago, and the production that stops in twenty days is not seen. -/
theorem past_demand_hides_stop :
    ¬ LooksAhead coveredItem (.finite 5) [⟨1, 3⟩, ⟨1, 30⟩] (10 * Text.microsecondsPerDay) := by
  intro ahead
  have short : FallsShort (.finite 5) 10 [⟨1, 30⟩] := ⟨⟨1, 30⟩, by simp, by simp, by decide +kernel⟩
  obtain ⟨candidate, fires⟩ := ahead.fires.mpr short
  have silent : evaluateProductionStopRisk coveredItem [⟨1, 3⟩, ⟨1, 30⟩] (10 * Text.microsecondsPerDay) = .ok none := rfl
  rw [silent] at fires
  cases fires

end SmartProcurement.Analysis
