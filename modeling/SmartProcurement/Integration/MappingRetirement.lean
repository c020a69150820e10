import SmartProcurement.Integration.MappingLog
import SmartProcurement.Transition.Runs

namespace SmartProcurement.Integration

open Relational Transaction Transition

/-! # What becomes of a retired mapping

A retired mapping cannot be confirmed, but it can be rejected, as any mapping
can, and a rejected one can be confirmed.
-/

def Standing (enterpriseId mappingId : Uuid) (status : MappingStatus) (db : DB) : Prop :=
  ∃ mapping, db.fieldMapping.find? mappingId = some mapping ∧ Owns db enterpriseId mapping ∧ mapping.status = status

inductive Attempted where
  | confirm
  | reject
  | retire
deriving DecidableEq

/-- What a call tries with the mapping of the enterprise. -/
def MappingCall.attempts (enterpriseId mappingId : Uuid) : MappingCall → Option Attempted
  | .confirmMapping _ enterprise mapping _ => if enterprise = enterpriseId ∧ mapping = mappingId then some .confirm else none
  | .rejectMapping _ enterprise mapping _ => if enterprise = enterpriseId ∧ mapping = mappingId then some .reject else none
  | .retireMapping _ enterprise mapping _ => if enterprise = enterpriseId ∧ mapping = mappingId then some .retire else none
  | _ => none

def statusAfter (status : MappingStatus) : Option Attempted → MappingStatus
  | some .confirm => if status = .retired then .retired else .confirmed
  | some .reject => .rejected
  | some .retire => .retired
  | none => status

/-- Whether the mapping was rejected since its last retirement. -/
def reopened (enterpriseId mappingId : Uuid) (open_ : Bool) (call : MappingCall) : Bool :=
  match call.attempts enterpriseId mappingId with
  | some .reject => true
  | some .retire => false
  | _ => open_

section Standing

variable {enterpriseId mappingId other actorId : Uuid} {status : MappingStatus} {db after : DB} {now : Timestamp}
variable {mapping target result : FieldMapping}

theorem Owns.unique (owns : Owns db enterpriseId mapping) (owned : Owns db other mapping) : enterpriseId = other := by
  obtain ⟨source, member, isSource, rfl⟩ := owns
  obtain ⟨second, secondMember, isSecond, rfl⟩ := owned
  rw [Table.eq_of_key_eq member secondMember (isSource.trans isSecond.symm)]

theorem Standing.changed (standing : Standing enterpriseId mappingId status db) {change : FieldMapping → FieldMapping}
    {event : MappingChangeEvent} (source : ∀ row, (change row).dataSourceId = row.dataSourceId)
    (stored : db.fieldMapping.find? target.id = some target) :
    Standing enterpriseId mappingId (if target.id = mappingId then (change target).status else status)
      (recorded db (db.fieldMapping.update target.id change) event) := by
  obtain ⟨mapping, found, owns, isStatus⟩ := standing
  by_cases hit : target.id = mappingId
  · subst hit
    obtain rfl := Option.some.inj (stored.symm.trans found)
    refine ⟨Table.assign change target, ?_, ?_, ?_⟩
    · exact (Table.find?_update_self ..).trans (congrArg _ found)
    · have same : (Table.assign change target).dataSourceId = target.dataSourceId := source target
      rw [Owns, same]
      exact owns
    · rw [if_pos rfl]
      rfl
  · refine ⟨mapping, ?_, owns, ?_⟩
    · exact (Table.find?_update_other _ _ (Ne.symm hit)).trans found
    · rw [if_neg hit]
      exact isStatus

theorem Standing.inserted (standing : Standing enterpriseId mappingId status db) (added : FieldMapping)
    (event : MappingChangeEvent) :
    Standing enterpriseId mappingId status (recorded db (db.fieldMapping.insert added) event) := by
  obtain ⟨mapping, found, owns, isStatus⟩ := standing
  exact ⟨mapping, Table.find?_insert_of_find? found added, owns, isStatus⟩

theorem Standing.enterprise_eq (standing : Standing enterpriseId mappingId status db)
    (found : db.fieldMapping.find? target.id = some target) (owns : Owns db other target) :
    target.id = mappingId → other = enterpriseId := by
  rintro rfl
  obtain ⟨mapping, foundMapping, owned, _⟩ := standing
  obtain rfl := Option.some.inj (found.symm.trans foundMapping)
  exact owns.unique owned

theorem changeMapping_eq (action : MappingAction) (change : FieldMapping → FieldMapping) (mapping : FieldMapping) :
    changeMapping now action actorId change mapping db =
      .ok (Table.assign change mapping) (recorded db (db.fieldMapping.update mapping.id change)
        (changeEvent now (Table.assign change mapping) action (some actorId) (some (snapshot mapping)))) := by
  have key : (Table.assign change mapping).id = mapping.id := Table.key_assign change mapping
  rw [recorded, ← key]
  rfl

/-- A call that changes the mapping it finds, seen from a mapping that it does not find. -/
theorem Standing.apart (standing : Standing enterpriseId mappingId status db) {called : Uuid}
    (isOther : ¬ (other = enterpriseId ∧ called = mappingId)) {body : FieldMapping → Session FieldMapping}
    (changes : ∀ mapping result after, body mapping db = .ok result after → after = db ∨
      ∃ change event, (∀ row, (change row).dataSourceId = row.dataSourceId) ∧
        after = recorded db (db.fieldMapping.update mapping.id change) event) :
    Standing enterpriseId mappingId status (transact (getMapping other called >>= body) db).2 := by
  refine transact_preserves standing fun result after ran => ?_
  simp only [bind_eq_ok, getMapping_eq_ok] at ran
  obtain ⟨target, _, ⟨⟨found, owns⟩, rfl⟩, ran⟩ := ran
  obtain rfl : target.id = called := (Table.find?_some found).2
  rcases changes target result after ran with rfl | ⟨change, event, source, rfl⟩
  · exact standing
  · have differs : target.id ≠ mappingId := fun same => isOther ⟨standing.enterprise_eq found owns same, same⟩
    have unmoved : (if target.id = mappingId then (change target).status else status) = status := if_neg differs
    rw [← unmoved]
    exact standing.changed source found

/-- A call that changes the mapping it finds, whatever its status. -/
theorem Standing.transitioned (standing : Standing enterpriseId mappingId status db) {called : Uuid}
    {action : MappingAction} {change : FieldMapping → FieldMapping} {next : MappingStatus}
    (source : ∀ row, (change row).dataSourceId = row.dataSourceId) (sets : ∀ row, (change row).status = next) :
    Standing enterpriseId mappingId (if other = enterpriseId ∧ called = mappingId then next else status)
      (transact (getMapping other called >>= changeMapping now action actorId change) db).2 := by
  by_cases isIt : other = enterpriseId ∧ called = mappingId
  · obtain ⟨rfl, rfl⟩ := isIt
    have found := standing
    obtain ⟨mapping, stored, owns, _⟩ := found
    have key : mapping.id = called := (Table.find?_some stored).2
    have self : getMapping other called db = .ok mapping db := getMapping_eq_ok.mpr ⟨⟨stored, owns⟩, rfl⟩
    have moved : (if mapping.id = called then (change mapping).status else status) = next :=
      (if_pos key).trans (sets mapping)
    rw [transact_of_ok ((bind_of_ok self).trans (changeMapping_eq ..)), if_pos ⟨rfl, rfl⟩, ← moved]
    exact standing.changed source (key ▸ stored)
  · rw [if_neg isIt]
    exact standing.apart isIt fun target result after ran => .inr ⟨change, _, source, changeMapping_ok ran⟩

theorem confirmMapping_retired (found : getMapping enterpriseId mappingId db = .ok mapping db) (isRetired : mapping.status = .retired) :
    confirmMapping now enterpriseId mappingId actorId db = .error (.conflict "a retired mapping cannot be confirmed") db := by
  rw [confirmMapping, bind_of_ok found, if_pos isRetired]
  rfl

theorem confirmMapping_of_not_retired (found : getMapping enterpriseId mappingId db = .ok mapping db)
    (passes : mapping.status ≠ .retired) :
    confirmMapping now enterpriseId mappingId actorId db = .ok (Table.assign (confirmed now actorId) mapping)
      (recorded db (db.fieldMapping.update mapping.id (confirmed now actorId))
        (changeEvent now (Table.assign (confirmed now actorId) mapping) .confirmed (some actorId) (some (snapshot mapping)))) := by
  rw [confirmMapping, bind_of_ok found, if_neg passes]
  exact changeMapping_eq ..

/-- A confirmation moves any mapping but a retired one. -/
theorem Standing.confirmMapping (standing : Standing enterpriseId mappingId status db) {called : Uuid} :
    Standing enterpriseId mappingId (if other = enterpriseId ∧ called = mappingId then
      (if status = .retired then .retired else .confirmed) else status)
      (transact (Integration.confirmMapping now other called actorId) db).2 := by
  by_cases isIt : other = enterpriseId ∧ called = mappingId
  · obtain ⟨rfl, rfl⟩ := isIt
    have found := standing
    obtain ⟨mapping, stored, owns, isStatus⟩ := found
    have self : getMapping other called db = .ok mapping db := getMapping_eq_ok.mpr ⟨⟨stored, owns⟩, rfl⟩
    rw [if_pos ⟨rfl, rfl⟩]
    by_cases isRetired : status = .retired
    · rw [if_pos isRetired, ← isRetired, transact_of_error (confirmMapping_retired self (isStatus.trans isRetired))]
      exact standing
    · have key : mapping.id = called := (Table.find?_some stored).2
      have moved : (if mapping.id = called then (confirmed now actorId mapping).status else status) = .confirmed :=
        if_pos key
      rw [if_neg isRetired, transact_of_ok (confirmMapping_of_not_retired self (isStatus.trans_ne isRetired)), ← moved]
      exact standing.changed (fun _ => rfl) (key ▸ stored)
  · rw [if_neg isIt]
    refine standing.apart isIt fun target result after ran => ?_
    split at ran
    · simp at ran
    · exact .inr ⟨confirmed now actorId, _, fun _ => rfl, changeMapping_ok ran⟩

theorem Standing.suggestOne (standing : Standing enterpriseId mappingId status db) {dataSourceId : Uuid}
    {known : List String} {acc next : Suggesting} {suggestion : Ai.MappingSuggestion}
    (ran : Integration.suggestOne now dataSourceId known acc suggestion db = .ok next after) :
    Standing enterpriseId mappingId status after := by
  unfold Integration.suggestOne at ran
  split at ran
  · exact (pure_eq_ok.mp ran).2 ▸ standing
  · split at ran
    · exact (pure_eq_ok.mp ran).2 ▸ standing
    · simp only [bind_eq_ok, pure_eq_ok] at ran
      obtain ⟨added, _, ran, _, rfl⟩ := ran
      rw [addSuggestion_ok ran]
      exact standing.inserted _ _

theorem Standing.confirmOne (standing : Standing enterpriseId mappingId status db) (passed : status ≠ .suggested)
    {candidates : List Uuid} {acc next : BulkConfirmResult} {called : Uuid}
    (ran : Integration.confirmOne now actorId candidates acc called db = .ok next after) :
    Standing enterpriseId mappingId status after := by
  rcases confirmOne_ok ran with rfl | ⟨target, result, stored, suggested, applied⟩
  · exact standing
  · have differs : target.id ≠ mappingId := by
      rintro rfl
      obtain ⟨mapping, found, _, isStatus⟩ := standing
      obtain rfl := Option.some.inj (stored.symm.trans found)
      exact passed (isStatus.symm.trans suggested)
    rw [changeMapping_ok applied]
    have unmoved : (if target.id = mappingId then (confirmed now actorId target).status else status) = status :=
      if_neg differs
    rw [← unmoved]
    exact standing.changed (fun _ => rfl) stored

end Standing

/-- What a call does to the status of a mapping that is no longer a suggestion. -/
theorem MappingCall.commit_standing {enterpriseId mappingId : Uuid} {status : MappingStatus} {db : DB}
    (standing : Standing enterpriseId mappingId status db) (passed : status ≠ .suggested) (call : MappingCall) :
    Standing enterpriseId mappingId (statusAfter status (call.attempts enterpriseId mappingId)) (call.commit db) := by
  have found := standing
  obtain ⟨mapping, stored, owns, isStatus⟩ := found
  cases call with
  | suggestMappingsForSource now provider enterprise dataSourceId =>
      refine transact_preserves standing fun _ _ ran => ?_
      obtain ⟨suggestions, source, known, init, final, middle, same, looped⟩ := suggestMappingsForSource_ok ran
      have begun : Standing enterpriseId mappingId status middle := by
        refine ⟨mapping, same.1 ▸ stored, ?_, isStatus⟩
        rw [Owns, same.2.2]
        exact owns
      exact foldlM_ok_invariant (fun _ db => Standing enterpriseId mappingId status db)
        (fun _ _ _ _ _ standing ran => standing.suggestOne ran) begun looped
  | createMapping now enterprise dataSourceId new actorId =>
      refine transact_preserves standing fun _ _ ran => ?_
      obtain ⟨entity, rfl⟩ := createMapping_ok ran
      exact standing.inserted _ _
  | confirmMapping now enterprise called actorId =>
      have after : statusAfter status ((MappingCall.confirmMapping now enterprise called actorId).attempts enterpriseId
          mappingId) = if enterprise = enterpriseId ∧ called = mappingId then
            (if status = .retired then .retired else .confirmed) else status :=
        apply_ite (statusAfter status) _ _ _
      rw [after]
      exact standing.confirmMapping
  | confirmMappingsBulk now enterprise dataSourceId mappingIds actorId =>
      refine transact_preserves standing fun _ _ ran => ?_
      simp only [Integration.confirmMappingsBulk, bind_eq_ok, read_eq_ok] at ran
      obtain ⟨source, _, owned, candidates, _, ⟨_, rfl⟩, looped⟩ := ran
      obtain ⟨rfl, _⟩ := getDataSource_ok owned
      exact foldlM_ok_invariant (fun _ db => Standing enterpriseId mappingId status db)
        (fun _ _ _ _ _ standing ran => standing.confirmOne passed ran) standing looped
  | rejectMapping now enterprise called actorId =>
      have after : statusAfter status ((MappingCall.rejectMapping now enterprise called actorId).attempts enterpriseId
          mappingId) = if enterprise = enterpriseId ∧ called = mappingId then .rejected else status :=
        apply_ite (statusAfter status) _ _ _
      rw [after]
      exact standing.transitioned (fun _ => rfl) fun _ => rfl
  | retireMapping now enterprise called actorId =>
      have after : statusAfter status ((MappingCall.retireMapping now enterprise called actorId).attempts enterpriseId
          mappingId) = if enterprise = enterpriseId ∧ called = mappingId then .retired else status :=
        apply_ite (statusAfter status) _ _ _
      rw [after]
      exact standing.transitioned (fun _ => rfl) fun _ => rfl
  | editMapping now enterprise called actorId edit =>
      refine transact_preserves standing fun result after ran => ?_
      simp only [Integration.editMapping, bind_eq_ok, getMapping_eq_ok, lift_eq_ok] at ran
      obtain ⟨target, _, ⟨⟨found, _⟩, rfl⟩, entity, _, ⟨_, rfl⟩, _, _, ⟨_, rfl⟩, _, _, ⟨_, rfl⟩, ran⟩ := ran
      obtain rfl : target.id = called := (Table.find?_some found).2
      have unmoved : (if target.id = mappingId then (edited entity edit target).status else status) = status := by
        split
        · next same =>
          subst same
          obtain rfl := Option.some.inj (found.symm.trans stored)
          exact isStatus
        · rfl
      change Standing enterpriseId mappingId status after
      rw [changeMapping_ok ran, ← unmoved]
      exact standing.changed (fun _ => rfl) found

/-! ## After a retirement -/

/-- The mapping is not confirmed, and no sync applies it. -/
def Unconfirmed (mappingId : Uuid) (db : DB) : Prop :=
  (∀ mapping ∈ db.fieldMapping.rows, mapping.id = mappingId → mapping.status ≠ .confirmed) ∧
    ∀ dataSourceId, ∀ mapping ∈ confirmedMappings dataSourceId db, mapping.id ≠ mappingId

/-- A rejected mapping is not confirmed. -/
def NotReconfirmed (enterpriseId mappingId : Uuid) (open_ : Bool) (call : MappingCall) : Prop :=
  open_ = true → call.attempts enterpriseId mappingId ≠ some .confirm

section Retirement

variable {enterpriseId mappingId : Uuid} {status : MappingStatus} {open_ : Bool} {db : DB}

theorem Standing.unconfirmed_iff (standing : Standing enterpriseId mappingId status db) :
    Unconfirmed mappingId db ↔ status ≠ .confirmed := by
  obtain ⟨mapping, found, _, rfl⟩ := standing
  obtain ⟨member, key⟩ := Table.find?_some found
  have isIt {row : FieldMapping} (rowMember : row ∈ db.fieldMapping.rows) (same : row.id = mappingId) : row = mapping :=
    Table.eq_of_key_eq rowMember member (same.trans key.symm)
  constructor
  · exact fun unconfirmed => unconfirmed.1 mapping member key
  · refine fun isNot => ⟨fun row rowMember same => isIt rowMember same ▸ isNot, fun source row selected same => ?_⟩
    obtain ⟨rowMember, isConfirmed⟩ := List.mem_filter.mp selected
    exact isNot (isIt rowMember same ▸ (of_decide_eq_true isConfirmed).2)

/-- Retired, or rejected since. -/
def laidAside (open_ : Bool) : MappingStatus := if open_ then .rejected else .retired

theorem statusAfter_laidAside (call : MappingCall) (kept : NotReconfirmed enterpriseId mappingId open_ call) :
    statusAfter (laidAside open_) (call.attempts enterpriseId mappingId) =
      laidAside (reopened enterpriseId mappingId open_ call) := by
  unfold NotReconfirmed at kept
  unfold reopened
  cases attempt : call.attempts enterpriseId mappingId with
  | none => rfl
  | some attempted =>
      rw [attempt] at kept
      cases attempted with
      | confirm =>
          cases open_ with
          | false => rfl
          | true => exact absurd rfl (kept rfl)
      | reject | retire => rfl

theorem laidAside_iff (standing : Standing enterpriseId mappingId (laidAside open_) db) (calls : List MappingCall) :
    (∀ done rest, calls = done ++ rest → Unconfirmed mappingId (commitCalls done db)) ↔
      Along (reopened enterpriseId mappingId) (NotReconfirmed enterpriseId mappingId) open_ calls := by
  have aside : laidAside open_ ≠ .confirmed ∧ laidAside open_ ≠ .suggested := by cases open_ <;> decide
  have unconfirmed : Unconfirmed mappingId db := standing.unconfirmed_iff.mpr aside.1
  induction calls generalizing db open_ with
  | nil =>
      refine iff_of_true (fun done rest split => ?_) trivial
      obtain ⟨rfl, _⟩ := List.append_eq_nil_iff.mp split.symm
      exact unconfirmed
  | cons call rest ih =>
      have next := call.commit_standing standing aside.2
      rw [Along]
      by_cases kept : NotReconfirmed enterpriseId mappingId open_ call
      · rw [statusAfter_laidAside call kept] at next
        have aside : laidAside (reopened enterpriseId mappingId open_ call) ≠ .confirmed ∧
            laidAside (reopened enterpriseId mappingId open_ call) ≠ .suggested := by
          cases reopened enterpriseId mappingId open_ call <;> decide
        refine Iff.trans ?_ ((ih next aside (next.unconfirmed_iff.mpr aside.1)).trans (and_iff_right kept).symm)
        constructor
        · exact fun always done more split => always (call :: done) more (by rw [split, List.cons_append])
        · intro always done more split
          cases done with
          | nil => exact unconfirmed
          | cons first done =>
              obtain ⟨rfl, tail⟩ := List.cons_eq_cons.mp split
              exact always done more tail
      · refine iff_of_false (fun always => ?_) fun along => kept along.1
        simp only [NotReconfirmed, Classical.not_imp, not_not] at kept
        obtain ⟨rfl, attempt⟩ := kept
        rw [attempt] at next
        exact next.unconfirmed_iff.mp (always [call] rest rfl) rfl

end Retirement

/-- Whatever calls follow a retirement, the mapping is not confirmed again. -/
def StaysRetired (mappingId : Uuid) (retirement : MappingCall) (before : DB) (calls : List MappingCall) : Prop :=
  ∀ done rest, calls = done ++ rest → Unconfirmed mappingId (commitCalls (retirement :: done) before)

/-- It is not exactly while no confirmation of the mapping comes with a rejection
since its last retirement. -/
theorem staysRetired_iff (now : Timestamp) (enterpriseId mappingId actorId : Uuid) (before : DB)
    (succeeds : returned (retireMapping now enterpriseId mappingId actorId before) = true)
    (calls : List MappingCall) :
    StaysRetired mappingId (.retireMapping now enterpriseId mappingId actorId) before calls ↔
      Along (reopened enterpriseId mappingId) (NotReconfirmed enterpriseId mappingId) false calls := by
  refine laidAside_iff ?_ calls
  cases ran : retireMapping now enterpriseId mappingId actorId before with
  | error reason after =>
      rw [ran] at succeeds
      cases succeeds
  | ok mapping after =>
      rw [MappingCall.commit, transact_of_ok ran]
      simp only [retireMapping, bind_eq_ok, getMapping_eq_ok] at ran
      obtain ⟨target, _, ⟨⟨found, owns⟩, rfl⟩, ran⟩ := ran
      obtain rfl : target.id = mappingId := (Table.find?_some found).2
      have standing : Standing enterpriseId target.id target.status _ := ⟨target, found, owns, rfl⟩
      have moved : (if target.id = target.id then (retired target).status else target.status) = laidAside false :=
        if_pos rfl
      rw [changeMapping_ok ran, ← moved]
      exact standing.changed (fun _ => rfl) found

def quantityConfirmed : DB := commitCalls confirmedQuantity unmappedSheet

theorem quantity_staysRetired :
    StaysRetired 1 (.retireMapping 40 1 1 7) quantityConfirmed [.confirmMapping 50 1 1 7, .rejectMapping 60 1 1 7] :=
  (staysRetired_iff 40 1 1 7 quantityConfirmed (by decide +kernel) _).mpr ⟨nofun, nofun, trivial⟩

/-- A retired mapping is rejected and then confirmed. -/
theorem rejected_quantity_confirmed_again :
    returned (retireMapping 40 1 1 7 quantityConfirmed) = true ∧
      ¬ StaysRetired 1 (.retireMapping 40 1 1 7) quantityConfirmed [.rejectMapping 50 1 1 7, .confirmMapping 60 1 1 7] := by
  refine ⟨by decide +kernel, fun stays => ?_⟩
  have unconfirmed := (stays [.rejectMapping 50 1 1 7, .confirmMapping 60 1 1 7] [] rfl).1
  have confirmed : ∃ mapping ∈ (commitCalls [.retireMapping 40 1 1 7, .rejectMapping 50 1 1 7,
      .confirmMapping 60 1 1 7] quantityConfirmed).fieldMapping.rows, mapping.id = 1 ∧ mapping.status = .confirmed := by
    decide +kernel
  obtain ⟨mapping, member, isIt, isConfirmed⟩ := confirmed
  exact unconfirmed mapping member isIt isConfirmed

end SmartProcurement.Integration
