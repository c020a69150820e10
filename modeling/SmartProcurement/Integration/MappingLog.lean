import SmartProcurement.Integration.MappingService
import SmartProcurement.Transition.Replay

namespace SmartProcurement.Integration

open Relational Transaction Transition

/-! # The log of a mapping replays it

Seven operations write mappings and events.  Each event starts from the snapshot
that the last one left, and only a human's confirmation makes a mapping that
sync applies.
-/

inductive MappingCall where
  | suggestMappingsForSource (now : Timestamp) (provider : Ai.Provider Ai.MappingSuggestionSet)
      (enterpriseId dataSourceId : Uuid)
  | createMapping (now : Timestamp) (enterpriseId dataSourceId : Uuid) (new : NewMapping) (actorId : Option Uuid)
  | confirmMapping (now : Timestamp) (enterpriseId mappingId actorId : Uuid)
  | confirmMappingsBulk (now : Timestamp) (enterpriseId dataSourceId : Uuid) (mappingIds : List Uuid)
      (actorId : Uuid)
  | rejectMapping (now : Timestamp) (enterpriseId mappingId actorId : Uuid)
  | retireMapping (now : Timestamp) (enterpriseId mappingId actorId : Uuid)
  | editMapping (now : Timestamp) (enterpriseId mappingId actorId : Uuid) (edit : MappingEdit)

def MappingCall.now : MappingCall → Timestamp
  | .suggestMappingsForSource now .. | .createMapping now .. | .confirmMapping now ..
  | .confirmMappingsBulk now .. | .rejectMapping now .. | .retireMapping now .. | .editMapping now .. => now

def MappingCall.commit (db : DB) : MappingCall → DB
  | .suggestMappingsForSource now provider enterpriseId dataSourceId =>
      (transact (Integration.suggestMappingsForSource now provider enterpriseId dataSourceId) db).2
  | .createMapping now enterpriseId dataSourceId new actorId =>
      (transact (Integration.createMapping now enterpriseId dataSourceId new actorId) db).2
  | .confirmMapping now enterpriseId mappingId actorId =>
      (transact (Integration.confirmMapping now enterpriseId mappingId actorId) db).2
  | .confirmMappingsBulk now enterpriseId dataSourceId mappingIds actorId =>
      (transact (Integration.confirmMappingsBulk now enterpriseId dataSourceId mappingIds actorId) db).2
  | .rejectMapping now enterpriseId mappingId actorId =>
      (transact (Integration.rejectMapping now enterpriseId mappingId actorId) db).2
  | .retireMapping now enterpriseId mappingId actorId =>
      (transact (Integration.retireMapping now enterpriseId mappingId actorId) db).2
  | .editMapping now enterpriseId mappingId actorId edit =>
      (transact (Integration.editMapping now enterpriseId mappingId actorId edit) db).2

/-! ## The invariant -/

/-- The last event of a mapping that is about more than its contents. -/
def lastTransition (events : List MappingChangeEvent) : Option MappingChangeEvent :=
  (events.filter (·.action ≠ .edited)).getLast?

/-- The mapping's last transition is a confirmation by the human it names. -/
def ConfirmedByHuman (mapping : FieldMapping) (events : List MappingChangeEvent) : Prop :=
  ∃ event actor, lastTransition events = some event ∧ event.action = .confirmed ∧
    event.actorId = some actor ∧ mapping.confirmedBy = some actor ∧ mapping.confirmedAt.isSome

/-- A mapping and its events in the order of their time. -/
structure Logged (mapping : FieldMapping) (events : List MappingChangeEvent) : Prop where
  replays : Replays MappingChangeEvent.before MappingChangeEvent.after events (snapshot mapping)
  suggested : ∃ first, events.head? = some first ∧ first.action = .suggested
  confirmed : mapping.status = .confirmed → ConfirmedByHuman mapping events

def eventsOf (db : DB) (mappingId : Uuid) : List MappingChangeEvent :=
  db.mappingChangeEvent.rows.filter (·.fieldMappingId = mappingId)

/-- The logs of all mappings, with no event later than the clock. -/
structure MappingLog (clock : Timestamp) (db : DB) : Prop where
  logged : ∀ mapping ∈ db.fieldMapping.rows, Logged mapping (eventsOf db mapping.id)
  ordered : ∀ mappingId, (eventsOf db mappingId).Pairwise fun first second => first.at_ < second.at_
  about : ∀ event ∈ db.mappingChangeEvent.rows, ∃ mapping ∈ db.fieldMapping.rows, mapping.id = event.fieldMappingId
  past : ∀ event ∈ db.mappingChangeEvent.rows, event.at_ ≤ clock

section Steps

variable {clock now : Timestamp} {before after : DB} {mapping next : FieldMapping}
variable {events : List MappingChangeEvent} {event : MappingChangeEvent} {mappingId : Uuid}

theorem MappingLog.congr (log : MappingLog clock before) (mappings : after.fieldMapping = before.fieldMapping)
    (events : after.mappingChangeEvent = before.mappingChangeEvent) : MappingLog clock after := by
  obtain ⟨logged, ordered, about, past⟩ := log
  constructor
  · intro mapping member
    rw [mappings] at member
    rw [eventsOf, events]
    exact logged mapping member
  · intro mappingId
    rw [eventsOf, events]
    exact ordered mappingId
  · rw [events, mappings]
    exact about
  · rw [events]
    exact past

theorem MappingLog.later (log : MappingLog clock before) (later : clock ≤ now) : MappingLog now before :=
  { log with past := fun event member => le_trans (log.past event member) later }

theorem lastTransition_edited (isEdit : event.action = .edited) :
    lastTransition (events ++ [event]) = lastTransition events := by
  simp [lastTransition, isEdit]

theorem lastTransition_snoc (isTransition : event.action ≠ .edited) :
    lastTransition (events ++ [event]) = some event := by
  simp [lastTransition, isTransition]

def Justifies (event : MappingChangeEvent) (mapping next : FieldMapping) : Prop :=
  if event.action = .edited then
    next.status = mapping.status ∧ next.confirmedBy = mapping.confirmedBy ∧ next.confirmedAt = mapping.confirmedAt
  else next.status = .confirmed → event.action = .confirmed ∧ next.confirmedAt.isSome ∧
    ∃ actor, event.actorId = some actor ∧ next.confirmedBy = some actor

theorem Logged.snoc (logged : Logged mapping events) (continues : event.before = some (snapshot mapping))
    (closes : event.after = some (snapshot next)) (justified : Justifies event mapping next) :
    Logged next (events ++ [event]) := by
  obtain ⟨first, isHead, isSuggestion⟩ := logged.suggested
  refine ⟨logged.replays.snoc continues closes, ⟨first, ?_, isSuggestion⟩, fun isConfirmed => ?_⟩
  · rw [List.head?_append, isHead]
    rfl
  · unfold Justifies at justified
    split at justified
    · next isEdit =>
      obtain ⟨status, confirmedBy, confirmedAt⟩ := justified
      obtain ⟨last, actor, isLast, rest⟩ := logged.confirmed (status.symm.trans isConfirmed)
      rw [← confirmedBy, ← confirmedAt] at rest
      exact ⟨last, actor, (lastTransition_edited isEdit).trans isLast, rest⟩
    · next isTransition =>
      obtain ⟨isConfirmation, confirmedAt, actor, byActor, confirmedBy⟩ := justified isConfirmed
      exact ⟨event, actor, lastTransition_snoc isTransition, isConfirmation, byActor, confirmedBy, confirmedAt⟩

theorem eventsOf_recorded_self (db : DB) (mappings : Table FieldMapping) (event : MappingChangeEvent) :
    eventsOf (recorded db mappings event) event.fieldMappingId =
      eventsOf db event.fieldMappingId ++ [db.mappingChangeEvent.newRow event] := by
  have about : (db.mappingChangeEvent.newRow event).fieldMappingId = event.fieldMappingId := rfl
  rw [eventsOf, recorded, Table.filter_insert, if_pos (by simp [about]), ← eventsOf]

theorem eventsOf_recorded_other (db : DB) (mappings : Table FieldMapping)
    (other : mappingId ≠ event.fieldMappingId) : eventsOf (recorded db mappings event) mappingId = eventsOf db mappingId := by
  have about : (db.mappingChangeEvent.newRow event).fieldMappingId = event.fieldMappingId := rfl
  rw [eventsOf, recorded, Table.filter_insert, if_neg (by simp [about, other.symm]), List.append_nil, ← eventsOf]

theorem MappingLog.recorded (log : MappingLog now before) {mappings : Table FieldMapping} (at_ : event.at_ = now)
    (earlier : ∀ stored ∈ eventsOf before event.fieldMappingId, stored.at_ < now)
    (kept : ∀ mapping ∈ before.fieldMapping.rows, ∃ row ∈ mappings.rows, row.id = mapping.id)
    (about : ∃ row ∈ mappings.rows, row.id = event.fieldMappingId)
    (logged : ∀ row ∈ mappings.rows, if row.id = event.fieldMappingId then
      Logged row (eventsOf before row.id ++ [before.mappingChangeEvent.newRow event])
      else row ∈ before.fieldMapping.rows) :
    MappingLog now (recorded before mappings event) := by
  constructor
  · intro row member
    have isLogged := logged row member
    by_cases same : row.id = event.fieldMappingId
    · rw [if_pos same] at isLogged
      rw [same, eventsOf_recorded_self, ← same]
      exact isLogged
    · rw [if_neg same] at isLogged
      rw [eventsOf_recorded_other _ _ same]
      exact log.logged row isLogged
  · intro mappingId
    by_cases same : mappingId = event.fieldMappingId
    · rw [same, eventsOf_recorded_self, List.pairwise_append]
      refine ⟨log.ordered _, List.pairwise_singleton _ _, fun stored member new isNew => ?_⟩
      rw [List.mem_singleton.mp isNew]
      exact lt_of_lt_of_eq (earlier stored member) at_.symm
    · rw [eventsOf_recorded_other _ _ same]
      exact log.ordered mappingId
  · intro stored member
    rcases List.mem_append.mp member with old | new
    · obtain ⟨mapping, mappingMember, same⟩ := log.about stored old
      obtain ⟨row, rowMember, sameRow⟩ := kept mapping mappingMember
      exact ⟨row, rowMember, sameRow.trans same⟩
    · rw [List.mem_singleton.mp new]
      exact about
  · intro stored member
    rcases List.mem_append.mp member with old | new
    · exact log.past stored old
    · rw [List.mem_singleton.mp new]
      exact le_of_eq at_

theorem MappingLog.created (log : MappingLog now before) (suggested : mapping.status = .suggested)
    (about : event.fieldMappingId = before.fieldMapping.freshKey) (action : event.action = .suggested)
    (opens : event.before = none) (closes : event.after = some (snapshot mapping)) (at_ : event.at_ = now) :
    MappingLog now (Integration.recorded before (before.fieldMapping.insert mapping) event) := by
  have key : (before.fieldMapping.newRow mapping).id = before.fieldMapping.freshKey :=
    Table.key_newRow before.fieldMapping mapping
  have unlogged : eventsOf before event.fieldMappingId = [] := by
    refine List.filter_eq_nil_iff.mpr fun stored member same => ?_
    obtain ⟨row, rowMember, sameRow⟩ := log.about stored member
    have below : row.id < before.fieldMapping.freshKey := Table.key_lt_freshKey rowMember
    rw [sameRow, of_decide_eq_true same, about] at below
    exact Nat.lt_irrefl _ below
  refine log.recorded at_ (by simp [unlogged]) (fun row member => ⟨row, List.mem_append_left _ member, rfl⟩)
    ⟨_, List.mem_append_right _ (List.mem_singleton_self _), key.trans about.symm⟩ fun row member => ?_
  rcases List.mem_append.mp member with old | new
  · have below : row.id < before.fieldMapping.freshKey := Table.key_lt_freshKey old
    rw [if_neg (fun same => Nat.ne_of_lt below (same.trans about))]
    exact old
  · obtain rfl := List.mem_singleton.mp new
    rw [if_pos (key.trans about.symm), key.trans about.symm, unlogged]
    refine ⟨.single opens closes, ⟨_, rfl, action⟩, fun isConfirmed => ?_⟩
    have stillSuggested : (before.fieldMapping.newRow mapping).status = .suggested := suggested
    rw [stillSuggested] at isConfirmed
    cases isConfirmed

theorem MappingLog.changed (log : MappingLog now before) {change : FieldMapping → FieldMapping}
    {action : MappingAction} {actorId : Uuid} (stored : before.fieldMapping.find? mapping.id = some mapping)
    (earlier : ∀ stored ∈ eventsOf before mapping.id, stored.at_ < now)
    (justified : Justifies (changeEvent now (Table.assign change mapping) action (some actorId) (some (snapshot mapping)))
      mapping (Table.assign change mapping)) :
    MappingLog now (Integration.recorded before (before.fieldMapping.update mapping.id change)
      (changeEvent now (Table.assign change mapping) action (some actorId) (some (snapshot mapping)))) := by
  have key : (Table.assign change mapping).id = mapping.id := Table.key_assign change mapping
  have about : (changeEvent now (Table.assign change mapping) action (some actorId)
    (some (snapshot mapping))).fieldMappingId = mapping.id := key
  have member := (Table.find?_some stored).1
  refine log.recorded rfl (by rwa [about]) (fun row rowMember => ?_) ⟨Table.assign change mapping, ?_, rfl⟩
    fun row rowMember => ?_
  · refine ⟨_, Table.mem_updateWhere.mpr ⟨row, rowMember, rfl⟩, ?_⟩
    split
    · exact Table.key_assign change row
    · rfl
  · exact Table.mem_update.mpr (.inl ⟨mapping, member, rfl, rfl⟩)
  · rw [about]
    rcases Table.mem_update.mp rowMember with ⟨old, oldMember, hit, rfl⟩ | ⟨kept, different⟩
    · obtain rfl : old = mapping := Table.eq_of_key_eq oldMember member hit
      rw [if_pos key, key]
      exact (log.logged old member).snoc rfl rfl justified
    · have other : row.id ≠ mapping.id := different
      rw [if_neg other]
      exact kept

end Steps

/-! ## One call -/

section Calls

variable {clock now : Timestamp} {before after : DB} {mapping result : FieldMapping} {actorId : Uuid}

theorem MappingLog.changeMapping (log : MappingLog now before) {action : MappingAction}
    {change : FieldMapping → FieldMapping} (stored : before.fieldMapping.find? mapping.id = some mapping)
    (earlier : ∀ event ∈ eventsOf before mapping.id, event.at_ < now)
    (ran : Integration.changeMapping now action actorId change mapping before = .ok result after)
    (justified : Justifies (changeEvent now (Table.assign change mapping) action (some actorId) (some (snapshot mapping)))
      mapping (Table.assign change mapping)) :
    MappingLog now after := by
  rw [changeMapping_ok ran]
  exact log.changed stored earlier justified

theorem justifies_confirmed : Justifies
    (changeEvent now (Table.assign (confirmed now actorId) mapping) .confirmed (some actorId) (some (snapshot mapping)))
    mapping (Table.assign (confirmed now actorId) mapping) :=
  fun _ => ⟨rfl, rfl, actorId, rfl, rfl⟩

theorem justifies_unconfirmed {action : MappingAction} {change : FieldMapping → FieldMapping} (transition : action ≠ .edited)
    (unconfirmed : (change mapping).status ≠ .confirmed) : Justifies
      (changeEvent now (Table.assign change mapping) action (some actorId) (some (snapshot mapping)))
      mapping (Table.assign change mapping) := by
  have moves : (changeEvent now (Table.assign change mapping) action (some actorId) (some (snapshot mapping))).action ≠ .edited :=
    transition
  rw [Justifies, if_neg moves]
  exact fun isConfirmed => absurd isConfirmed unconfirmed

theorem MappingLog.earlier (log : MappingLog clock before) (later : clock < now) (mappingId : Uuid) :
    ∀ event ∈ eventsOf before mappingId, event.at_ < now :=
  fun event member => lt_of_le_of_lt (log.past event (List.mem_filter.mp member).1) later

/-- A call that finds a mapping of the enterprise and changes it. -/
theorem MappingLog.transitioned (log : MappingLog clock before) (later : clock < now) {enterpriseId called : Uuid}
    {body : FieldMapping → Session FieldMapping}
    (changes : ∀ mapping result after, body mapping before = .ok result after → ∃ action actorId change,
      Integration.changeMapping now action actorId change mapping before = .ok result after ∧
        Justifies (changeEvent now (Table.assign change mapping) action (some actorId) (some (snapshot mapping)))
          mapping (Table.assign change mapping)) :
    MappingLog now (transact (getMapping enterpriseId called >>= body) before).2 := by
  have started := log.later (le_of_lt later)
  refine transact_preserves started fun result after ran => ?_
  simp only [bind_eq_ok, getMapping_eq_ok] at ran
  obtain ⟨mapping, _, ⟨⟨stored, _⟩, rfl⟩, ran⟩ := ran
  have key : mapping.id = called := (Table.find?_some stored).2
  obtain ⟨action, actorId, change, changed, justified⟩ := changes mapping result after ran
  exact started.changeMapping (key ▸ stored) (log.earlier later _) changed justified

/-- Mappings still suggested have no event of the running bulk confirmation. -/
def SuggestedEarlier (now : Timestamp) (db : DB) : Prop :=
  ∀ mapping ∈ db.fieldMapping.rows, mapping.status = .suggested → ∀ event ∈ eventsOf db mapping.id, event.at_ < now

theorem SuggestedEarlier.confirmed (earlier : SuggestedEarlier now before)
    (ran : applyConfirm now actorId mapping before = .ok result after) : SuggestedEarlier now after := by
  rw [changeMapping_ok ran]
  have key : (Table.assign (Integration.confirmed now actorId) mapping).id = mapping.id := rfl
  intro row member suggested
  rcases Table.mem_update.mp member with ⟨old, oldMember, hit, rfl⟩ | ⟨kept, different⟩
  · cases suggested
  · have other : row.id ≠ mapping.id := different
    rw [eventsOf_recorded_other _ _ (by exact other)]
    exact earlier row kept suggested

theorem MappingLog.confirmOne (log : MappingLog now before) (earlier : SuggestedEarlier now before)
    {candidates : List Uuid} {acc next : BulkConfirmResult} {mappingId : Uuid}
    (ran : Integration.confirmOne now actorId candidates acc mappingId before = .ok next after) :
    MappingLog now after ∧ SuggestedEarlier now after := by
  rcases confirmOne_ok ran with rfl | ⟨mapping, result, stored, suggested, applied⟩
  · exact ⟨log, earlier⟩
  · exact ⟨log.changeMapping stored (earlier mapping (Table.find?_some stored).1 suggested) applied justifies_confirmed,
      earlier.confirmed applied⟩

theorem MappingLog.suggestOne (log : MappingLog now before) {dataSourceId : Uuid} {known : List String}
    {acc next : Suggesting} {suggestion : Ai.MappingSuggestion}
    (ran : Integration.suggestOne now dataSourceId known acc suggestion before = .ok next after) :
    MappingLog now after := by
  unfold Integration.suggestOne at ran
  split at ran
  · exact (pure_eq_ok.mp ran).2 ▸ log
  · split at ran
    · exact (pure_eq_ok.mp ran).2 ▸ log
    · simp only [bind_eq_ok, pure_eq_ok] at ran
      obtain ⟨added, _, ran, _, rfl⟩ := ran
      rw [addSuggestion_ok ran]
      exact log.created rfl rfl rfl rfl rfl rfl

theorem MappingCall.commit_log (log : MappingLog clock before) (call : MappingCall) (later : clock < call.now) :
    MappingLog call.now (call.commit before) := by
  have started := log.later (le_of_lt later)
  cases call with
  | suggestMappingsForSource now provider enterpriseId dataSourceId =>
      refine transact_preserves started fun _ _ ran => ?_
      obtain ⟨suggestions, source, known, init, final, middle, same, looped⟩ := suggestMappingsForSource_ok ran
      exact foldlM_ok_invariant (fun _ db => MappingLog now db)
        (fun acc suggestion before next after log ran => log.suggestOne ran) (started.congr same.1 same.2.1) looped
  | createMapping now enterpriseId dataSourceId new actorId =>
      refine transact_preserves started fun _ _ ran => ?_
      obtain ⟨entity, rfl⟩ := createMapping_ok ran
      exact started.created rfl rfl rfl rfl rfl rfl
  | confirmMapping now enterpriseId mappingId actorId =>
      refine log.transitioned later fun mapping result after ran => ?_
      split at ran
      · simp at ran
      · exact ⟨_, _, _, ran, justifies_confirmed⟩
  | confirmMappingsBulk now enterpriseId dataSourceId mappingIds actorId =>
      refine transact_preserves started fun _ _ ran => ?_
      simp only [Integration.confirmMappingsBulk, bind_eq_ok, read_eq_ok] at ran
      obtain ⟨source, _, owned, candidates, _, ⟨_, rfl⟩, looped⟩ := ran
      obtain ⟨rfl, _⟩ := getDataSource_ok owned
      have bulk := foldlM_ok_invariant (fun _ db => MappingLog now db ∧ SuggestedEarlier now db)
        (fun acc mappingId before next after holds ran => holds.1.confirmOne holds.2 ran)
        ⟨started, fun mapping _ _ => log.earlier later mapping.id⟩ looped
      exact bulk.1
  | rejectMapping now enterpriseId mappingId actorId =>
      exact log.transitioned later fun mapping result after ran =>
        ⟨_, _, _, ran, justifies_unconfirmed (by decide) (by simp [rejected])⟩
  | retireMapping now enterpriseId mappingId actorId =>
      exact log.transitioned later fun mapping result after ran =>
        ⟨_, _, _, ran, justifies_unconfirmed (by decide) (by simp [retired])⟩
  | editMapping now enterpriseId mappingId actorId edit =>
      refine log.transitioned later fun mapping result after ran => ?_
      simp only [bind_eq_ok, lift_eq_ok] at ran
      obtain ⟨entity, _, ⟨_, rfl⟩, _, _, ⟨_, rfl⟩, _, _, ⟨_, rfl⟩, ran⟩ := ran
      exact ⟨_, _, _, ran, rfl, rfl, rfl⟩

end Calls

/-! ## Runs -/

/-- No mapping has been suggested yet. -/
structure Unmapped (db : DB) : Prop where
  mappings : db.fieldMapping.rows = []
  events : db.mappingChangeEvent.rows = []

def commitCalls (calls : List MappingCall) (db : DB) : DB := calls.foldl MappingCall.commit db

theorem MappingLog.history_eq {clock : Timestamp} {db : DB} (log : MappingLog clock db) (mappingId : Uuid) :
    mappingHistory db mappingId = eventsOf db mappingId :=
  List.Pairwise.insertionSort_eq ((log.ordered mappingId).imp le_of_lt)

theorem commitCalls_log {clock : Timestamp} {calls : List MappingCall} {before : DB} (log : MappingLog clock before)
    (ordered : (clock :: calls.map MappingCall.now).Pairwise (· < ·)) :
    ∃ clock, MappingLog clock (commitCalls calls before) := by
  induction calls generalizing clock before with
  | nil => exact ⟨clock, log⟩
  | cons call rest ih =>
      obtain ⟨later, ordered⟩ := List.pairwise_cons.mp ordered
      exact ih (call.commit_log log (later _ List.mem_cons_self)) ordered

/-- After any calls, each later than the ones before it, the history of every
mapping replays it, and those that sync applies were confirmed by a human. -/
theorem mappingHistory_replays (initial : DB) (unmapped : Unmapped initial) (calls : List MappingCall)
    (ordered : (calls.map MappingCall.now).Pairwise (· < ·)) :
    (∀ mapping ∈ (commitCalls calls initial).fieldMapping.rows,
      Logged mapping (mappingHistory (commitCalls calls initial) mapping.id)) ∧
    ∀ dataSourceId, ∀ mapping ∈ confirmedMappings dataSourceId (commitCalls calls initial),
      ConfirmedByHuman mapping (mappingHistory (commitCalls calls initial) mapping.id) := by
  have start (clock : Timestamp) : MappingLog clock initial := by
    have none : ∀ mappingId, eventsOf initial mappingId = [] := fun _ => by rw [eventsOf, unmapped.events, List.filter_nil]
    constructor
    · simp [unmapped.mappings]
    · simp [none]
    · simp [unmapped.events]
    · simp [unmapped.events]
  obtain ⟨clock, log⟩ : ∃ clock, MappingLog clock (commitCalls calls initial) := by
    cases calls with
    | nil => exact ⟨0, start 0⟩
    | cons first rest =>
        have before : first.now - 1 < first.now := sub_one_lt first.now
        refine commitCalls_log (start (first.now - 1)) (List.pairwise_cons.mpr ⟨fun now member => ?_, ordered⟩)
        rcases List.mem_cons.mp member with rfl | later
        · exact before
        · exact lt_trans before ((List.pairwise_cons.mp ordered).1 now later)
  have logged : ∀ mapping ∈ (commitCalls calls initial).fieldMapping.rows,
      Logged mapping (mappingHistory (commitCalls calls initial) mapping.id) := by
    intro mapping member
    rw [log.history_eq]
    exact log.logged mapping member
  refine ⟨logged, fun dataSourceId mapping selected => ?_⟩
  obtain ⟨member, isSelected⟩ := List.mem_filter.mp selected
  exact (logged mapping member).confirmed (of_decide_eq_true isSelected).2

def unmappedSheet : DB :=
  { (default : DB) with enterprise := [1], dataSource := Table.empty.insert (newSource 1 stockSheet none) }

def confirmedQuantity : List MappingCall := [
  .createMapping 10 1 1 ⟨"qty", "stock_level", "quantity", none⟩ none,
  .confirmMapping 20 1 1 7,
  .editMapping 30 1 1 7 ⟨none, some "reserved", none⟩]

theorem confirmedQuantity_replays :
    (commitCalls confirmedQuantity unmappedSheet).fieldMapping.rows.map (·.status) = [.confirmed] ∧
      ∀ mapping ∈ (commitCalls confirmedQuantity unmappedSheet).fieldMapping.rows,
        Logged mapping (mappingHistory (commitCalls confirmedQuantity unmappedSheet) mapping.id) :=
  ⟨by decide +kernel,
    (mappingHistory_replays unmappedSheet ⟨rfl, rfl⟩ confirmedQuantity (by decide)).1⟩

end SmartProcurement.Integration
