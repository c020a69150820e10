import SmartProcurement.Integration.RowEvents
import SmartProcurement.Transition.Replay

namespace SmartProcurement.Integration

open Relational Transaction Transition Numeric

/-! # Signals replay the history of a row

The signals of a row lead from the watched value it was created with to the one
it has, one change after the other.
-/

namespace RowEvent

def signal : RowEvent → Option ObservationSignal
  | .created _ _ => none
  | .updated _ _ _ signal => signal

def creation : RowEvent → Option Row
  | .created _ row => some row
  | .updated _ _ _ _ => none

/-- The event is one of the row. -/
def concerns (entity : Entity) (id : Uuid) : RowEvent → Bool
  | .created other row => other = entity ∧ row.id = id
  | .updated other old _ _ => other = entity ∧ old.id = id

end RowEvent

def historyOf (entity : Entity) (id : Uuid) (events : List RowEvent) : List RowEvent :=
  events.filter (·.concerns entity id)

def signalsFor (entity : Entity) (id : Uuid) (events : List RowEvent) : List ObservationSignal :=
  (historyOf entity id events).filterMap (·.signal)

/-- The row as it was created, or as it was before the first event. -/
def firstVersion (initial : DB) (entity : Entity) (id : Uuid) (events : List RowEvent) : Option Row :=
  (initial.canonical entity).find? id <|> (historyOf entity id events).findSome? (·.creation)

/-- The row has been led to its watched value by its signals. -/
structure LedTo (initial : DB) (events : List RowEvent) (entity : Entity) (row : Row) : Prop where
  leads : ∃ first, firstVersion initial entity row.id events = some first ∧ ∀ watch ∈ signalWatch entity,
    Leads (fun signal : ObservationSignal => signal.payload.old) (fun signal => signal.payload.new)
      (first.col watch.1).decimal? (signalsFor entity row.id events) (row.col watch.1).decimal?

structure SignalsReplay (initial : DB) (events : List RowEvent) (db : DB) : Prop where
  signals : db.observationSignal.rows = initial.observationSignal.rows ++ events.filterMap (·.signal)
  rows : ∀ entity, ∀ row ∈ (db.canonical entity).rows, LedTo initial events entity row
  changes : ∀ event ∈ events, ∀ signal ∈ event.signal, signal.payload.new ≠ signal.payload.old
  exact : ∀ entity old new signal, .updated entity old new signal ∈ events → ∀ watch ∈ signalWatch entity,
    (signal = none ↔ new.col watch.1 = old.col watch.1)

/-! ## One update -/

section Updates

variable {attr : String} {accepted : Accepted} {existing stored : Row} {signal : Option ObservationSignal}
variable {old new : Value}

theorem number_cases (bound : ColumnType.numeric.bind attr old = .ok new) :
    old = .null ∨ ∃ number, old = .decimal number := by
  cases old with
  | null => exact .inl rfl
  | decimal number => exact .inr ⟨number, rfl⟩
  | _ => cases bound

/-- Numbers that a signal shows alike are alike. -/
theorem eq_of_decimal? {other stored : Value} (bound : ColumnType.numeric.bind attr old = .ok new)
    (otherBound : ColumnType.numeric.bind attr other = .ok stored) (same : old.decimal? = other.decimal?) :
    old = other := by
  rcases number_cases bound with rfl | ⟨number, rfl⟩
  · rcases number_cases otherBound with rfl | ⟨number, rfl⟩
    · rfl
    · cases same
  · rcases number_cases otherBound with rfl | ⟨number, rfl⟩
    · cases same
    · exact congrArg Value.decimal (Option.some.inj same)

theorem Steady.kept (steady : Steady new) (bound : ColumnType.numeric.bind attr new = .ok old) :
    old = new ∧ sameValue new new = .ok true := by
  obtain ⟨same, compared, isSteady⟩ := compares_of_bound bound (by rintro rfl; exact steady)
  rw [isSteady.mpr steady] at compared
  obtain rfl := sameValue_true compared
  exact ⟨rfl, compared⟩

/-- An update of the watched value is silent exactly if the value stays. -/
theorem Watched.outcome (watched : Watched attr accepted existing stored signal) (number : StoredNumber attr existing)
    (steady : ∀ new ∈ accepted.attrs.lookup attr, Steady new) :
    (signal = none ∧ stored.col attr = existing.col attr) ∨ ∃ emitted, signal = some emitted ∧
      emitted.payload.old = (existing.col attr).decimal? ∧ emitted.payload.new = (stored.col attr).decimal? ∧
      emitted.payload.new ≠ emitted.payload.old ∧ stored.col attr ≠ existing.col attr := by
  cases watched with
  | absent missing kept =>
      rw [StoredNumber, kept] at number
      exact .inl ⟨rfl, Except.ok.inj number⟩
  | @same new given compared kept =>
      rw [← sameValue_true compared, number] at kept
      exact .inl ⟨rfl, (Except.ok.inj kept).symm⟩
  | @changed new emitted given compared kept payload =>
      obtain ⟨holds, reflexive⟩ := (steady new given).kept kept
      have differs : stored.col attr ≠ existing.col attr := by
        intro same
        rw [← same, holds, reflexive] at compared
        cases compared
      refine .inr ⟨emitted, rfl, by rw [payload], by rw [payload, holds], ?_, differs⟩
      rw [payload, ← holds]
      exact fun same => differs (eq_of_decimal? (ColumnType.bind_idem kept) number same)

end Updates

/-! ## One event more -/

section Events

variable {initial before after : DB} {events : List RowEvent} {event : RowEvent} {entity : Entity} {row : Row}
variable {accepted : Accepted} {id : Uuid}

theorem historyOf_snoc : historyOf entity id (events ++ [event]) =
    historyOf entity id events ++ if event.concerns entity id then [event] else [] := by
  rw [historyOf, List.filter_append]
  congr 1
  cases concerned : event.concerns entity id <;> simp [concerned]

/-- An event of another row changes nothing for this one. -/
theorem LedTo.other (led : LedTo initial events entity row) (other : event.concerns entity row.id = false) :
    LedTo initial (events ++ [event]) entity row := by
  have same : historyOf entity row.id (events ++ [event]) = historyOf entity row.id events := by
    rw [historyOf_snoc, other]
    exact List.append_nil _
  obtain ⟨first, isFirst, leads⟩ := led.leads
  refine ⟨first, ?_, ?_⟩
  · rwa [firstVersion, same]
  · rwa [signalsFor, same]

/-- A row that is created has been led nowhere yet. -/
theorem ledTo_created (absent : (initial.canonical entity).find? row.id = none)
    (fresh : historyOf entity row.id events = []) : LedTo initial (events ++ [.created entity row]) entity row := by
  have own : historyOf entity row.id (events ++ [.created entity row]) = [.created entity row] := by
    rw [historyOf_snoc, fresh]
    simp [RowEvent.concerns]
  refine ⟨row, ?_, ?_⟩
  · rw [firstVersion, absent, own]
    rfl
  · intro watch _
    rw [signalsFor, own]
    rfl

theorem LedTo.updated {existing stored : Row} {signal : Option ObservationSignal} (led : LedTo initial events entity existing)
    (same : stored.id = existing.id)
    (watched : ∀ watch ∈ signalWatch entity, (signal = none ∧ stored.col watch.1 = existing.col watch.1) ∨
      ∃ emitted, signal = some emitted ∧ emitted.payload.old = (existing.col watch.1).decimal? ∧
        emitted.payload.new = (stored.col watch.1).decimal?) :
    LedTo initial (events ++ [.updated entity existing stored signal]) entity stored := by
  have own : historyOf entity existing.id (events ++ [.updated entity existing stored signal]) =
      historyOf entity existing.id events ++ [.updated entity existing stored signal] := by
    rw [historyOf_snoc]
    simp [RowEvent.concerns]
  obtain ⟨first, isFirst, leads⟩ := led.leads
  refine ⟨first, ?_, fun watch isWatch => ?_⟩
  · rw [same, firstVersion, own, List.findSome?_append]
    rw [firstVersion] at isFirst
    cases found : (initial.canonical entity).find? existing.id with
    | some known => rwa [found] at isFirst
    | none =>
        rw [found] at isFirst
        change (historyOf entity existing.id events).findSome? _ = some first at isFirst
        rw [isFirst]
        rfl
  · have before := leads watch isWatch
    rw [same, signalsFor, own, List.filterMap_append]
    rcases watched watch isWatch with ⟨rfl, value⟩ | ⟨emitted, rfl, old, new⟩
    · rw [value]
      simpa [RowEvent.signal, signalsFor] using before
    · have further := before.snoc old
      rw [← new]
      simpa [RowEvent.signal, signalsFor] using further

end Events

/-! ## The invariant of a run -/

def HasRow (db : DB) (entity : Entity) (id : Uuid) : Prop := ∃ row ∈ (db.canonical entity).rows, row.id = id

/-- Numbers are as they are stored, and every row of before or of an event is there. -/
structure HistoryKept (initial : DB) (events : List RowEvent) (db : DB) : Prop where
  replay : SignalsReplay initial events db
  numbers : Numbers db
  known : ∀ entity id, HasRow initial entity id ∨ (∃ event ∈ events, event.concerns entity id = true) →
    HasRow db entity id

section Invariant

variable {initial before after : DB} {events : List RowEvent} {event : RowEvent} {accepted : Accepted}

theorem historyKept_start (numbers : Numbers initial) : HistoryKept initial [] initial := by
  refine ⟨⟨by simp, fun entity row member => ⟨row, ?_, fun _ _ => rfl⟩, by simp, by simp⟩, numbers, ?_⟩
  · have found : (initial.canonical entity).find? row.id = some row := Table.find?_of_mem member
    rw [firstVersion, found]
    rfl
  · intro entity id known
    simpa using known

theorem HasRow.step {entity : Entity} {id : Uuid} (has : HasRow before entity id)
    (supplied : SuppliedTo accepted before after) (step : RowStep accepted before event after) :
    HasRow after entity id := by
  by_cases same : entity = accepted.entity
  · subst same
    obtain ⟨row, member, rfl⟩ := has
    cases step with
    | created _ table _ => exact ⟨row, table ▸ List.mem_append_left _ member, rfl⟩
    | @updated existing stored _ _ only id table _ _ _ =>
        have isExisting : existing ∈ holders accepted.entity accepted.identity before := by simp [only]
        have rowsAfter (row : Row) := @Table.mem_update_const _ _ _ row _ _ (List.mem_filter.mp isExisting).1 id
        rw [HasRow, table]
        by_cases hit : row.id = existing.id
        · exact ⟨stored, (rowsAfter stored).mpr (.inr rfl), id.trans hit.symm⟩
        · exact ⟨row, (rowsAfter row).mpr (.inl ⟨member, hit⟩), rfl⟩
  · rw [HasRow, supplied.others entity same]
    exact has

/-- The event is one of a row of its record's table that is there afterwards. -/
theorem RowStep.concerned {entity : Entity} {id : Uuid} (step : RowStep accepted before event after)
    (concerned : event.concerns entity id = true) : entity = accepted.entity ∧ HasRow after entity id := by
  cases step with
  | created _ table _ =>
      obtain ⟨rfl, rfl⟩ := of_decide_eq_true concerned
      exact ⟨rfl, _, table ▸ List.mem_append_right _ (List.mem_singleton_self _), rfl⟩
  | @updated existing stored _ _ only id table _ _ _ =>
      obtain ⟨rfl, rfl⟩ := of_decide_eq_true concerned
      have isExisting : existing ∈ holders accepted.entity accepted.identity before := by simp [only]
      refine ⟨rfl, stored, ?_, id⟩
      rw [table]
      exact (Table.mem_update_const (List.mem_filter.mp isExisting).1 id).mpr (.inr rfl)

/-- The row that is created is led to, and so are the others still. -/
theorem HistoryKept.created_led {entity : Entity} {stored : Row} (kept : HistoryKept initial events before) :
    ∀ row ∈ ((before.canonical entity).insert stored).rows,
      LedTo initial (events ++ [.created entity ((before.canonical entity).newRow stored)]) entity row := by
  have fresh : ¬ HasRow before entity ((before.canonical entity).newRow stored).id := by
    rintro ⟨other, otherMember, same⟩
    exact absurd same (Nat.ne_of_lt (Table.key_lt_freshKey otherMember))
  intro row member
  rcases List.mem_append.mp member with old | new
  · refine (kept.replay.rows _ row old).other (Bool.eq_false_iff.mpr fun concerned => ?_)
    exact fresh ⟨row, old, (of_decide_eq_true concerned).2.symm⟩
  · obtain rfl := List.mem_singleton.mp new
    refine ledTo_created ?_ ?_
    · refine Option.eq_none_iff_forall_not_mem.mpr fun first found => fresh (kept.known _ _ (.inl ?_))
      obtain ⟨firstMember, isFirst⟩ := Table.find?_some found
      exact ⟨first, firstMember, isFirst⟩
    · refine List.filter_eq_nil_iff.mpr fun event eventMember concerned => ?_
      exact fresh (kept.known _ _ (.inr ⟨event, eventMember, concerned⟩))

/-- The row that is updated is led on, and the others stay where they are. -/
theorem SignalsReplay.updated_led {entity : Entity} {existing stored : Row} {signal : Option ObservationSignal}
    (replay : SignalsReplay initial events before) (isExisting : existing ∈ (before.canonical entity).rows)
    (id : stored.id = existing.id)
    (watched : ∀ watch ∈ signalWatch entity, (signal = none ∧ stored.col watch.1 = existing.col watch.1) ∨
      ∃ emitted, signal = some emitted ∧ emitted.payload.old = (existing.col watch.1).decimal? ∧
        emitted.payload.new = (stored.col watch.1).decimal?) :
    ∀ row ∈ ((before.canonical entity).update existing.id fun _ => stored).rows,
      LedTo initial (events ++ [.updated entity existing stored signal]) entity row := by
  intro row member
  rcases (Table.mem_update_const isExisting id).mp member with ⟨old, other⟩ | rfl
  · refine (replay.rows _ row old).other (Bool.eq_false_iff.mpr fun concerned => ?_)
    exact other (of_decide_eq_true concerned).2.symm
  · exact (replay.rows _ existing isExisting).updated id watched

theorem SignalsReplay.step (kept : HistoryKept initial events before) (steady : accepted.Steady)
    (supplied : SuppliedTo accepted before after) (step : RowStep accepted before event after) :
    SignalsReplay initial (events ++ [event]) after := by
  have replay := kept.replay
  have elsewhere {entity : Entity} (other : entity ≠ accepted.entity) :
      ∀ row ∈ (after.canonical entity).rows, LedTo initial (events ++ [event]) entity row := by
    intro row member
    rw [supplied.others entity other] at member
    refine (replay.rows entity row member).other (Bool.eq_false_iff.mpr fun concerned => ?_)
    exact other (step.concerned concerned).1
  cases step with
  | @created stored _ missing table signals =>
      refine ⟨?_, fun entity row member => ?_, ?_, ?_⟩
      · rw [signals, replay.signals]
        simp [RowEvent.signal]
      · by_cases same : entity = accepted.entity
        · subst same
          exact kept.created_led row (table ▸ member)
        · exact elsewhere same row member
      · intro event member signal isSignal
        rcases List.mem_append.mp member with old | new
        · exact replay.changes event old signal isSignal
        · rw [List.mem_singleton.mp new] at isSignal
          cases isSignal
      · intro entity old new signal member
        rcases List.mem_append.mp member with old | new
        · exact replay.exact _ _ _ _ old
        · cases List.mem_singleton.mp new
  | @updated existing stored signal _ only id table signals watched unwatched =>
      have isExisting : existing ∈ (before.canonical accepted.entity).rows := by
        have listed : existing ∈ holders accepted.entity accepted.identity before := by simp [only]
        exact (List.mem_filter.mp listed).1
      have outcome {watch : String × SignalType} (isWatch : watch ∈ signalWatch accepted.entity) :=
        (watched watch isWatch).outcome (kept.numbers _ watch isWatch existing isExisting) (steady watch isWatch)
      refine ⟨?_, fun entity row member => ?_, ?_, ?_⟩
      · rw [signals, replay.signals]
        cases signal <;> simp [RowEvent.signal]
      · by_cases same : entity = accepted.entity
        · subst same
          refine replay.updated_led isExisting id (fun watch isWatch => ?_) row (table ▸ member)
          exact (outcome isWatch).imp_right fun ⟨emitted, isSignal, old, new, _⟩ => ⟨emitted, isSignal, old, new⟩
        · exact elsewhere same row member
      · intro event member emitted isSignal
        rcases List.mem_append.mp member with old | new
        · exact replay.changes event old emitted isSignal
        · rw [List.mem_singleton.mp new] at isSignal
          obtain rfl : signal = some emitted := isSignal
          cases watch : signalWatch accepted.entity with
          | none => cases unwatched watch
          | some watch' =>
              rcases outcome watch with ⟨silent, _⟩ | ⟨_, same, _, _, differs, _⟩
              · cases silent
              · cases same
                exact differs
      · intro entity old new other member watch isWatch
        rcases List.mem_append.mp member with earlier | last
        · exact replay.exact _ _ _ _ earlier watch isWatch
        · obtain ⟨rfl, rfl, rfl, rfl⟩ := RowEvent.updated.inj (List.mem_singleton.mp last)
          rcases outcome isWatch with ⟨silent, same⟩ | ⟨emitted, isSignal, _, _, _, differs⟩
          · exact iff_of_true silent same
          · exact iff_of_false (by simp [isSignal]) differs

theorem HistoryKept.step (kept : HistoryKept initial events before) (steady : accepted.Steady)
    (supplied : SuppliedTo accepted before after) (step : RowStep accepted before event after)
    (numbers : Numbers before → Numbers after) : HistoryKept initial (events ++ [event]) after := by
  refine ⟨.step kept steady supplied step, numbers kept.numbers, fun entity id known => ?_⟩
  rcases known with old | ⟨one, member, concerned⟩
  · exact (kept.known entity id (.inl old)).step supplied step
  · rcases List.mem_append.mp member with earlier | last
    · exact (kept.known entity id (.inr ⟨one, earlier, concerned⟩)).step supplied step
    · rw [List.mem_singleton.mp last] at concerned
      exact (step.concerned concerned).2

theorem HistoryKept.congr {other : DB} (canonical : other.canonical = before.canonical)
    (signals : other.observationSignal = before.observationSignal) (kept : HistoryKept initial events before) :
    HistoryKept initial events other := by
  refine ⟨⟨?_, ?_, kept.replay.changes, kept.replay.exact⟩, ?_, ?_⟩
  · rw [signals]
    exact kept.replay.signals
  · rw [canonical]
    exact kept.replay.rows
  · rw [Numbers, canonical]
    exact kept.numbers
  · intro entity id known
    rw [HasRow, canonical]
    exact kept.known entity id known

theorem historyKept_of_calls (calls : List SyncCall) (steady : ∀ accepted ∈ acceptedBy calls before, accepted.Steady)
    (kept : HistoryKept initial events before) :
    HistoryKept initial (events ++ rowEventsOf calls before) (calls.foldl (fun db call => call.commit db) before) := by
  induction calls generalizing before events with
  | nil => simpa [rowEventsOf] using kept
  | cons call rest ih =>
      rw [acceptedBy] at steady
      rw [rowEventsOf, ← List.append_assoc, List.foldl_cons]
      refine ih (fun accepted member => steady accepted (List.mem_append_right _ member)) ?_
      refine SyncCall.events_invariant (HistoryKept initial) HistoryKept.congr ?_ kept
      intro accepted member events event db next kept supplied step numbers
      exact kept.step (steady accepted (List.mem_append_left _ member)) supplied step numbers

end Invariant

/-- The signals of every row lead from the watched value it was created with to
the one it has, and an update is silent exactly if it leaves that value alone. -/
theorem signals_replay_history (initial : DB) (numbers : Numbers initial) (calls : List SyncCall)
    (steady : ∀ accepted ∈ acceptedBy calls initial, accepted.Steady) :
    SignalsReplay initial (rowEventsOf calls initial) (calls.foldl (fun db call => call.commit db) initial) := by
  have kept := historyKept_of_calls calls steady (historyKept_start numbers)
  rw [List.nil_append] at kept
  exact kept.replay

/-! ## A sheet that names an item twice -/

/-- A sheet with one record a quantity, all of one item. -/
def stockCall (quantities : List String) : SyncCall where
  now := 1
  connectors := delivering {
    records := quantities.map fun quantity => Dict.ofList [("sku", .text "bolt"), ("qty", .text quantity)]
    fetchedAt := 0 }
  enterpriseId := 1
  dataSourceId := 1

def stockCalls (runs : List (List String)) : List SyncCall := runs.map stockCall

def stockAfter (runs : List (List String)) : DB :=
  (stockCalls runs).foldl (fun db call => call.commit db) sheetWithSource

theorem signals_replay_stock :
    SignalsReplay sheetWithSource (rowEventsOf (stockCalls [["10"], ["5"]]) sheetWithSource) (stockAfter [["10"], ["5"]]) :=
  signals_replay_history _ sheetWithSource_numbers _ (by decide +kernel)

/-- The second run leaves the stock at 10 and has emitted two signals. -/
theorem detour_signals_twice :
    (∀ accepted ∈ acceptedBy (stockCalls [["10"], ["20", "10"]]) sheetWithSource, accepted.Steady) ∧
      ((stockAfter [["10"]]).canonical .stockLevel).rows.map (·.col "quantity") = [.decimal (.finite 10)] ∧
      ((stockAfter [["10"], ["20", "10"]]).canonical .stockLevel).rows.map (·.col "quantity") =
        [.decimal (.finite 10)] ∧
      (stockAfter [["10"]]).observationSignal.rows.length = 0 ∧
      (stockAfter [["10"], ["20", "10"]]).observationSignal.rows.map (fun signal => (signal.payload.old, signal.payload.new)) =
        [(some (.finite 10), some (.finite 20)), (some (.finite 20), some (.finite 10))] := by
  decide +kernel

end SmartProcurement.Integration
