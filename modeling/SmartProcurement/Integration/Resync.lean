import SmartProcurement.Integration.Traces

namespace SmartProcurement.Integration

open Relational Transaction Observation

/-! # Syncing a batch again

Masters come before the rows that refer to them, so the second run of a batch
resolves every record as the first run did, and then meets the trace of it.
-/

/-! ## Resolving again -/

section Resolving

variable {enterpriseId : Uuid} {entity : Entity} {reference : Reference} {attrs : Dict Raw}
variable {acc result : Resolution} {cache : Cache} {db other : DB} {key : String} {found : Option Uuid}

theorem lookupReference_congr (same : other.canonical reference.target = db.canonical reference.target)
    (ran : lookupReference enterpriseId reference key db = .ok found db) :
    lookupReference enterpriseId reference key other = .ok found other := by
  simp only [lookupReference, bind_eq_ok, lift_eq_ok, scalarOrNone_eq_ok, pure_eq_ok] at ran ⊢
  obtain ⟨text, _, ⟨bound, rfl⟩, row, _, ⟨single, rfl⟩, mapped, _⟩ := ran
  exact ⟨text, other, ⟨bound, rfl⟩, row, other, ⟨by rwa [same], rfl⟩, mapped, rfl⟩

theorem resolveOne_congr (same : other.canonical reference.target = db.canonical reference.target)
    (ran : resolveOne enterpriseId entity attrs acc reference db = .ok result db) :
    resolveOne enterpriseId entity attrs acc reference other = .ok result other := by
  unfold resolveOne at ran ⊢
  cases resolved : acc.resolved with
  | none =>
      simp only [resolved, pure_eq_ok, and_true] at ran ⊢
      exact ran
  | some attributes =>
      cases given : attrs.lookup reference.attr with
      | none =>
          simp only [resolved, given, pure_eq_ok, and_true] at ran ⊢
          exact ran
      | some raw =>
          simp only [resolved, given] at ran ⊢
          by_cases blank : raw.blank = true
          · simp only [if_pos blank, pure_eq_ok, and_true] at ran ⊢
            exact ran
          rw [if_neg blank] at ran ⊢
          cases cached : acc.cache.lookup (reference.target, raw.str) with
          | some id =>
              simp only [cached, pure_eq_ok, and_true] at ran ⊢
              exact ran
          | none =>
              simp only [cached, bind_eq_ok] at ran ⊢
              obtain ⟨found, middle, looked, ran⟩ := ran
              obtain rfl := (lookupReference_ok looked).1
              refine ⟨found, other, lookupReference_congr same looked, ?_⟩
              cases found with
              | some id => exact pure_eq_ok.mpr ⟨(pure_eq_ok.mp ran).1, rfl⟩
              | none =>
                  by_cases required : foreignKey reference.target ∈ requiredIdentity entity
                  · simp only [if_pos required, pure_eq_ok, and_true] at ran ⊢
                    exact ran
                  · simp only [if_neg required, pure_eq_ok, and_true] at ran ⊢
                    exact ran

theorem resolveRefs_congr
    (same : ∀ reference ∈ (specs entity).refs, other.canonical reference.target = db.canonical reference.target)
    (ran : resolveRefs enterpriseId entity attrs cache db = .ok result db) :
    resolveRefs enterpriseId entity attrs cache other = .ok result other := by
  have folds : ∀ (list : List Reference) (acc : Resolution),
      (∀ reference ∈ list, other.canonical reference.target = db.canonical reference.target) →
      list.foldlM (resolveOne enterpriseId entity attrs) acc db = .ok result db →
      list.foldlM (resolveOne enterpriseId entity attrs) acc other = .ok result other := by
    intro list
    induction list with
    | nil => exact fun acc _ ran => pure_eq_ok.mpr ⟨(pure_eq_ok.mp ran).1, rfl⟩
    | cons reference rest ih =>
        intro acc same ran
        rw [List.foldlM_cons] at ran ⊢
        obtain ⟨next, middle, first, later⟩ := bind_eq_ok.mp ran
        obtain rfl := (resolveOne_state first).1
        rw [bind_of_ok (resolveOne_congr (same reference List.mem_cons_self) first)]
        exact ih next (fun other member => same other (List.mem_cons_of_mem _ member)) later
  exact folds _ _ same ran

end Resolving

/-! ## The rest of a run -/

def MastersFirst (steps : List (Entity × Record)) : Prop :=
  steps.Pairwise fun earlier later => ∀ reference ∈ (specs earlier.1).refs, later.1 ≠ reference.target

theorem target_ne (entity : Entity) : ∀ reference ∈ (specs entity).refs, entity ≠ reference.target := by
  cases entity <;> decide

theorem schedule_mastersFirst (mappings : List FieldMapping) (records : List Record) :
    MastersFirst (schedule mappings records) := by
  have ordered : entityOrder.Pairwise fun earlier later =>
      ∀ reference ∈ (specs earlier).refs, later ≠ reference.target := by decide
  have entityOf (entity : Entity) (next : Entity × Record)
      (listed : next ∈ if (mappingsOf mappings entity).isEmpty then []
        else records.map fun record => (entity, record)) : next.1 = entity := by
    split at listed
    · cases listed
    · obtain ⟨record, _, rfl⟩ := List.mem_map.mp listed
      rfl
  refine List.pairwise_flatMap.mpr ⟨fun entity _ => ?_, ordered.imp fun {earlier later} apart => ?_⟩
  · split
    · exact .nil
    · exact List.pairwise_map.mpr (List.pairwise_of_forall fun _ _ => target_ne entity)
  · intro first firstListed second secondListed
    rw [entityOf earlier first firstListed, entityOf later second secondListed]
    exact apart

section Rest

variable {context : SyncContext} {mappings : List FieldMapping} {before after : DB} {accepted : Accepted}
variable {progress later : Progress} {next : Entity × Record} {rest : List (Entity × Record)} {entity : Entity}
variable {resolved : Dict Raw} {provenance : Provenance}

theorem syncNext_grown (ran : syncNext context mappings progress next before = .ok later after) :
    growing.rel before after := by
  cases syncRecord_ok ran with
  | empty _ _ => exact growing.refl _
  | skipped _ _ _ => exact growing.refl _
  | upserted _ _ _ _ _ stored => exact stored.respects (batchFrame_growing _)

theorem syncNext_numbers (numbers : Numbers before)
    (ran : syncNext context mappings progress next before = .ok later after) : Numbers after := by
  cases syncRecord_ok ran with
  | empty _ _ => exact numbers
  | skipped _ _ _ => exact numbers
  | upserted _ _ _ _ _ stored => exact stored.numbers numbers

theorem Trace.along (trace : Trace provenance accepted resolved before)
    (ran : rest.foldlM (syncNext context mappings) progress before = .ok later after)
    (enterprise : accepted.enterpriseId = context.enterpriseId)
    (different : ∀ other ∈ acceptedAlong context mappings rest progress before,
      other.entity = accepted.entity → other.identity ≠ accepted.identity) :
    Trace provenance accepted resolved after := by
  induction rest generalizing progress before with
  | nil =>
      obtain ⟨_, rfl⟩ := pure_eq_ok.mp ran
      exact trace
  | cons next rest ih =>
      rw [List.foldlM_cons] at ran
      obtain ⟨mid, middle, first, ran⟩ := bind_eq_ok.mp ran
      rw [acceptedAlong, first] at different
      refine ih ?_ ran fun other member => different other (List.mem_append_right _ member)
      rcases syncNext_ok first with ⟨_, rfl⟩ | ⟨other, accepts, _, own, supplied⟩
      · exact trace
      · refine trace.keep (syncNext_grown first) supplied (own.trans enterprise.symm) (different other ?_)
        rw [accepts]
        exact List.mem_append_left _ (List.mem_singleton_self _)

end Rest

/-! ## The records again -/

def SyncContext.again (context : SyncContext) (now : Timestamp) : SyncContext := { context with now }

/-- A part of the repeated run that returns changes nothing, and adds signals. -/
structure Repeated (accepted : List Accepted) (count : Nat) (progress : Progress) (db : DB) (later : Progress)
    (after : DB) : Prop where
  repeatable : ∀ record ∈ accepted, record.Repeatable
  steady : count = 0 ↔ ∀ record ∈ accepted, record.Steady
  counted : later.signalsCreated = progress.signalsCreated + count
  others : after = { db with observationSignal := after.observationSignal }
  signals : after.observationSignal.rows.length = db.observationSignal.rows.length + count
  unchanged : count = 0 → after = db

/-- How a part of the repeated run ends; the cache is the one of the first run. -/
def Repeats (accepted : List Accepted) (cache : Cache) (progress : Progress) (db : DB) :
    EStateM.Result Error DB Progress → Prop
  | .error _ _ => ∃ record ∈ accepted, ¬ record.Repeatable
  | .ok later after => later.cache = cache ∧ ∃ count, Repeated accepted count progress db later after

section Again

variable {context : SyncContext} {mappings : List FieldMapping} {before after db middle last : DB}
variable {progress later again mid final : Progress} {next : Entity × Record} {rest : List (Entity × Record)}
variable {accepted others : List Accepted} {cache : Cache} {count more : Nat} {now : Timestamp}

theorem Repeated.nothing (same : later.signalsCreated = progress.signalsCreated) :
    Repeated [] 0 progress db later db where
  repeatable := nofun
  steady := iff_of_true rfl nofun
  counted := same
  others := rfl
  signals := rfl
  unchanged _ := rfl

theorem Repeated.append (first : Repeated accepted count progress db mid middle)
    (second : Repeated others more mid middle final last) :
    Repeated (accepted ++ others) (count + more) progress db final last where
  repeatable record member := (List.mem_append.mp member).elim (first.repeatable record) (second.repeatable record)
  steady := by
    rw [List.forall_mem_append, ← first.steady, ← second.steady, Nat.add_eq_zero_iff]
  counted := by rw [second.counted, first.counted, Nat.add_assoc]
  others := second.others.trans (by rw [first.others])
  signals := by rw [second.signals, first.signals, Nat.add_assoc]
  unchanged none := by
    obtain ⟨noneFirst, noneSecond⟩ := Nat.add_eq_zero_iff.mp none
    rw [second.unchanged noneSecond, first.unchanged noneFirst]

theorem Repeats.bind {first : Session Progress} {following : Progress → Session Progress} {lastCache : Cache}
    (head : Repeats accepted cache progress db (first db))
    (tail : ∀ mid middle count, mid.cache = cache → Repeated accepted count progress db mid middle →
      Repeats others lastCache mid middle (following mid middle)) :
    Repeats (accepted ++ others) lastCache progress db ((first >>= following) db) := by
  cases ran : first db with
  | error reason middle =>
      rw [ran] at head
      rw [bind_of_error ran]
      obtain ⟨record, member, refused⟩ := head
      exact ⟨record, List.mem_append_left _ member, refused⟩
  | ok mid middle =>
      rw [ran] at head
      rw [bind_of_ok ran]
      obtain ⟨cached, count, repeated⟩ := head
      have later := tail mid middle count cached repeated
      cases ended : following mid middle with
      | error reason last =>
          rw [ended] at later
          obtain ⟨record, member, refused⟩ := later
          exact ⟨record, List.mem_append_right _ member, refused⟩
      | ok final last =>
          rw [ended] at later
          obtain ⟨cached, more, followed⟩ := later
          exact ⟨cached, _, repeated.append followed⟩

theorem Echoes.repeats {record : Accepted} {entity : Entity} {upserting : Session (Bool × Option ObservationSignal)}
    (echoes : Echoes record db (upserting db)) (same : again.signalsCreated = progress.signalsCreated) :
    Repeats [record] again.cache progress db
      ((upserting >>= fun result => pure (again.record entity result.1 result.2) : Session Progress) db) := by
  cases ran : upserting db with
  | error reason after =>
      rw [ran] at echoes
      rw [bind_of_error ran]
      exact ⟨record, List.mem_singleton_self _, echoes⟩
  | ok result after =>
      obtain ⟨created, signal⟩ := result
      rw [ran] at echoes
      rw [bind_of_ok ran]
      cases signal with
      | none =>
          obtain ⟨repeatable, steady, rfl⟩ := echoes
          exact ⟨rfl, 0, by simpa using repeatable, by simpa using steady, same, rfl, rfl, fun _ => rfl⟩
      | some signal =>
          obtain ⟨repeatable, unsteady, rfl⟩ := echoes
          exact ⟨rfl, 1, by simpa using repeatable, by simpa using unsteady, congrArg (· + 1) same, rfl, by simp, nofun⟩

theorem Upserted.identified {entity : Entity} {resolved : Dict Raw} {provenance : Provenance}
    {signal : Option ObservationSignal} (step : Upserted context entity resolved provenance before signal after) :
    ∃ identity, identityValues entity (coerced entity resolved) = .ok identity := by
  cases step with
  | inserted identified _ _ _ => exact ⟨_, identified⟩
  | updated identified _ _ _ _ => exact ⟨_, identified⟩

theorem syncNext_repeats (ran : syncNext context mappings progress next before = .ok later after)
    (masters : ∀ reference ∈ (specs next.1).refs, db.canonical reference.target = before.canonical reference.target)
    (cached : again.cache = progress.cache)
    (traced : ∀ resolved signal, acceptedOf context mappings progress next before =
        some ⟨next.1, context.enterpriseId, coerced next.1 resolved⟩ →
      Upserted context next.1 resolved (provenanceOf context (mappingsOf mappings next.1)) before signal after →
      Trace (provenanceOf context (mappingsOf mappings next.1))
        ⟨next.1, context.enterpriseId, coerced next.1 resolved⟩ resolved db) :
    Repeats (acceptedOf context mappings progress next before).toList later.cache again db
      (syncNext (context.again now) mappings again next db) := by
  unfold acceptedOf at traced ⊢
  unfold syncNext syncRecord at ran ⊢
  obtain ⟨attrs, _, computed, body⟩ := bind_eq_ok.mp ran
  obtain ⟨extracted, rfl⟩ := lift_eq_ok.mp computed
  rw [bind_of_ok (lift_eq_ok.mpr ⟨extracted, rfl⟩)]
  simp only [extracted] at traced ⊢
  cases nothing : attrs.entries.isEmpty with
  | true =>
      simp only [nothing, if_true, pure_eq_ok] at body ⊢
      obtain ⟨rfl, rfl⟩ := body
      exact ⟨cached, 0, .nothing rfl⟩
  | false =>
      simp only [nothing, Bool.false_eq_true, if_false, bind_eq_ok] at body traced ⊢
      obtain ⟨resolution, middle, resolving, body⟩ := body
      obtain rfl := resolveRefs_state resolving
      have resolvingAgain : resolveRefs (context.again now).enterpriseId next.1 attrs again.cache db =
          .ok resolution db := cached ▸ resolveRefs_congr masters resolving
      rw [bind_of_ok resolvingAgain]
      simp only [resolving] at traced ⊢
      cases accepted : resolution.resolved with
      | none =>
          simp only [accepted, pure_eq_ok] at body ⊢
          obtain ⟨rfl, rfl⟩ := body
          exact ⟨rfl, 0, .nothing rfl⟩
      | some resolved =>
          simp only [accepted] at body traced ⊢
          cases lacks : lacksIdentity next.1 resolved with
          | true =>
              simp only [lacks, if_true, pure_eq_ok] at body ⊢
              obtain ⟨rfl, rfl⟩ := body
              exact ⟨rfl, 0, .nothing rfl⟩
          | false =>
              simp only [lacks, Bool.false_eq_true, if_false] at body traced ⊢
              obtain ⟨⟨created, signal⟩, middle, upserting, body⟩ := bind_eq_ok.mp body
              obtain ⟨rfl, rfl⟩ := pure_eq_ok.mp body
              have upserted := (upsert_ok upserting).2
              obtain ⟨identity, identified⟩ := upserted.identified
              rw [Progress.record_cache]
              have echoes : Echoes ⟨next.1, context.enterpriseId, coerced next.1 resolved⟩ db
                  (upsert (context.again now) next.1 resolved (provenanceOf context (mappingsOf mappings next.1)) db) :=
                (traced resolved signal rfl upserted).echoes rfl identified
              exact echoes.repeats rfl

/-- No two records are looked up by the same identity. -/
def Apart (accepted : List Accepted) : Prop :=
  accepted.Pairwise fun first second => second.entity = first.entity → second.identity ≠ first.identity

instance : DecidablePred Apart := fun _ => inferInstanceAs (Decidable (List.Pairwise _ _))

/-- A run that starts where the same run has ended before. -/
theorem rest_repeats (ordered : MastersFirst rest) (numbers : Numbers before)
    (apart : Apart (acceptedAlong context mappings rest progress before))
    (ran : rest.foldlM (syncNext context mappings) progress before = .ok final last)
    (rows : db.canonical = last.canonical) (enterprises : db.enterprise = last.enterprise)
    (cached : again.cache = progress.cache) :
    Repeats (acceptedAlong context mappings rest progress before) final.cache again db
      (rest.foldlM (syncNext (context.again now) mappings) again db) := by
  induction rest generalizing progress before again db with
  | nil =>
      obtain ⟨rfl, rfl⟩ := pure_eq_ok.mp ran
      exact ⟨cached, 0, .nothing rfl⟩
  | cons next rest ih =>
      rw [List.foldlM_cons] at ran ⊢
      obtain ⟨mid, middle, first, ran⟩ := bind_eq_ok.mp ran
      rw [acceptedAlong, first] at apart ⊢
      obtain ⟨later, ordered⟩ := List.pairwise_cons.mp ordered
      obtain ⟨_, apartRest, apartHere⟩ := List.pairwise_append.mp apart
      have masters : ∀ reference ∈ (specs next.1).refs,
          db.canonical reference.target = before.canonical reference.target := by
        intro reference listed
        rw [rows, rest_others ran fun other member => later other member reference listed]
        exact syncNext_others first (target_ne next.1 reference listed)
      refine Repeats.bind (syncNext_repeats first masters cached fun resolved signal accepts upserted => ?_)
        fun mid middle count cached repeated => ?_
      · have left := upserted.trace numbers (syncNext_grown first)
        have still := left.along ran rfl fun other member => apartHere _ (by rw [accepts]; simp) other member
        exact still.grow ⟨enterprises, fun _ _ found => rows ▸ found⟩ (by rw [rows])
      · exact ih ordered (syncNext_numbers numbers first) apartRest ran (by rw [repeated.others, rows])
          (by rw [repeated.others, enterprises]) cached

end Again

/-! ## The call again -/

/-- A source that answers, with this batch. -/
def delivering (batch : FetchBatch) : Connectors where
  loadCredential _ := .ok ⟨⟩
  build _ := .ok ⟨⟩
  testConnection _ := .ok { health := "available", detail := "", checkedAt := batch.fetchedAt }
  fetch _ := .ok batch

section Calls

variable {batch : FetchBatch} {enterpriseId dataSourceId : Uuid} {now later : Timestamp} {before after batched : DB}
variable {source : DataSource} {progress : Progress}

theorem syncSource_returns (found : before.dataSource.find? dataSourceId = some source)
    (owned : source.enterpriseId = enterpriseId)
    (ran : syncBatch { now, enterpriseId, dataSourceId, fetchedAt := batch.fetchedAt }
      (confirmedMappings dataSourceId before) batch.records before = .ok progress batched)
    (single : ((sourceUnavailable enterpriseId source.id).openGaps batched).length ≤ 1) :
    ∃ result after, syncSource now (delivering batch) enterpriseId dataSourceId before = .ok result after := by
  unfold syncSource
  refine exists_ok_bind (ownedSource_of_found found owned) ?_
  refine exists_ok_bind (lift_eq_ok.mpr ⟨rfl, rfl⟩) ?_
  refine exists_ok_bind (read_eq_ok.mpr ⟨rfl, rfl⟩) (exists_ok_bind ran ?_)
  have succeeded : ∃ done after, recordSuccess now enterpriseId source batch.fetchedAt batched = .ok done after :=
    exists_ok_bind rfl (closeGap_returns single)
  obtain ⟨_, state, succeeded⟩ := succeeded
  refine exists_ok_bind succeeded ?_
  unfold enqueueRecompute
  split
  · exact ⟨_, _, rfl⟩
  · exact ⟨_, _, rfl⟩

theorem fixesSources_batch (dataSourceId : Uuid) : BatchFrame dataSourceId (Frame.fixes (·.dataSource)) where
  signal _ _ := rfl
  insert _ _ _ _ := rfl
  update _ _ _ _ _ := rfl

theorem Synced.source_after (synced : Synced now (delivering batch) enterpriseId dataSourceId before after) :
    ∃ source, after.dataSource.find? dataSourceId = some source ∧ source.enterpriseId = enterpriseId ∧
      (sourceUnavailable enterpriseId source.id).isOpen after = false := by
  have kept : synced.batched.dataSource = before.dataSource :=
    syncBatch_frame (fixesSources_batch dataSourceId) synced.ran
  have id : synced.source.id = dataSourceId := (Table.find?_some synced.found).2
  have found := congrArg (fun db => db.dataSource.find? dataSourceId) synced.final
  simp only [id, Table.find?_update_self, kept, synced.found, Option.map_some] at found
  refine ⟨_, found, synced.owned, ?_⟩
  have gaps := congrArg DB.observabilityGap synced.final
  rw [GapKey.isOpen, gaps]
  exact synced.closed

theorem Synced.repeats (synced : Synced now (delivering batch) enterpriseId dataSourceId before after)
    (numbers : Numbers before)
    (apart : Apart (acceptedAlong { now, enterpriseId, dataSourceId, fetchedAt := batch.fetchedAt }
      (confirmedMappings dataSourceId before) (schedule (confirmedMappings dataSourceId before) batch.records)
      .start before)) :
    Repeats (acceptedAlong { now, enterpriseId, dataSourceId, fetchedAt := batch.fetchedAt }
        (confirmedMappings dataSourceId before) (schedule (confirmedMappings dataSourceId before) batch.records)
        .start before) synced.progress.cache .start after
      (syncBatch { now := later, enterpriseId, dataSourceId, fetchedAt := batch.fetchedAt }
        (confirmedMappings dataSourceId after) batch.records after) := by
  have isBatch : synced.batch = batch := (Except.ok.inj synced.fetched).symm
  have ran := synced.ran
  rw [isBatch, syncBatch_schedule] at ran
  have mappings : confirmedMappings dataSourceId after = confirmedMappings dataSourceId before := by
    have kept : after.fieldMapping = before.fieldMapping :=
      (congrArg DB.fieldMapping synced.final).trans
        (syncBatch_frame (fixesMappings_sync dataSourceId).toBatchFrame synced.ran)
    rw [confirmedMappings, confirmedMappings, kept]
  rw [mappings, syncBatch_schedule]
  have rows := congrArg DB.canonical synced.final
  have enterprises := congrArg DB.enterprise synced.final
  exact rest_repeats (schedule_mastersFirst _ _) numbers apart ran rows enterprises rfl

end Calls

/-- No row is created or changed, no signal emitted and no job enqueued. -/
structure Silent (before after : DB) : Prop where
  rows : after.canonical = before.canonical
  signals : after.observationSignal = before.observationSignal
  jobs : after.job = before.job

namespace SyncCall

def delivery (batch : FetchBatch) (enterpriseId dataSourceId : Uuid) (now : Timestamp) : SyncCall where
  now
  connectors := delivering batch
  enterpriseId
  dataSourceId

variable {batch : FetchBatch} {enterpriseId dataSourceId : Uuid} {now later : Timestamp} {before after : DB}
variable {result : SyncResult}

theorem accepted_delivery (ran : (delivery batch enterpriseId dataSourceId now).session before = .ok result after) :
    (delivery batch enterpriseId dataSourceId now).accepted before =
      acceptedAlong { now, enterpriseId, dataSourceId, fetchedAt := batch.fetchedAt }
        (confirmedMappings dataSourceId before) (schedule (confirmedMappings dataSourceId before) batch.records)
        .start before := by
  obtain ⟨synced⟩ := syncSource_ok ran
  unfold accepted
  rw [ran, returned, if_pos rfl, synced.found]
  rfl

theorem commit_of_error {reason : Error}
    (raised : syncBatch { now, enterpriseId, dataSourceId, fetchedAt := batch.fetchedAt }
      (confirmedMappings dataSourceId before) batch.records before = .error reason after) :
    (delivery batch enterpriseId dataSourceId now).commit before = before := by
  unfold commit
  cases ran : (delivery batch enterpriseId dataSourceId now).session before with
  | error reason last => rw [transact_of_error ran]
  | ok result last =>
      obtain ⟨synced⟩ := syncSource_ok ran
      have isBatch : synced.batch = batch := (Except.ok.inj synced.fetched).symm
      have returned := synced.ran
      rw [isBatch] at returned
      cases raised.symm.trans returned

theorem silent_of_repeated {records : List Accepted} {count : Nat} {progress : Progress} {source : DataSource}
    {batched : DB} (found : before.dataSource.find? dataSourceId = some source)
    (owned : source.enterpriseId = enterpriseId)
    (closed : (sourceUnavailable enterpriseId source.id).isOpen before = false)
    (ran : syncBatch { now, enterpriseId, dataSourceId, fetchedAt := batch.fetchedAt }
      (confirmedMappings dataSourceId before) batch.records before = .ok progress batched)
    (repeated : Repeated records count .start before progress batched) :
    Silent before ((delivery batch enterpriseId dataSourceId now).commit before) ↔ count = 0 := by
  have stillClosed : (sourceUnavailable enterpriseId source.id).isOpen batched = false := by
    rw [repeated.others]
    exact closed
  have single : ((sourceUnavailable enterpriseId source.id).openGaps batched).length ≤ 1 := by
    rw [isOpen_eq_false_iff.mp stillClosed]
    exact Nat.zero_le 1
  obtain ⟨result, after, ended⟩ := syncSource_returns found owned ran single
  obtain ⟨synced⟩ := syncSource_ok ended
  have isBatch : synced.batch = batch := (Except.ok.inj synced.fetched).symm
  have again := synced.ran
  rw [isBatch] at again
  obtain ⟨isProgress, isBatched⟩ := EStateM.Result.ok.inj (ran.symm.trans again)
  have committed : (delivery batch enterpriseId dataSourceId now).commit before = after :=
    congrArg Prod.snd (transact_of_ok ended)
  rw [committed]
  have final := synced.final
  rw [← isProgress, ← isBatched] at final
  constructor
  · intro silent
    have grown := repeated.signals
    have signals := congrArg DB.observationSignal final
    have still := congrArg (fun table => table.rows.length) (signals.symm.trans silent.signals)
    simp only at still
    omega
  · intro none
    have unchanged := repeated.unchanged none
    have uncounted : progress.signalsCreated = 0 := by
      rw [repeated.counted, none]
      rfl
    rw [unchanged, if_pos uncounted] at final
    rw [final]
    exact ⟨rfl, rfl, rfl⟩

/-- A batch that is synced again is silent exactly when some record cannot be
upserted again, and the run rolled back, or no watched number is rounded. -/
theorem silent_iff (batch : FetchBatch) (enterpriseId dataSourceId : Uuid) (now later : Timestamp) (before : DB)
    (numbers : Numbers before)
    (returns : returned ((delivery batch enterpriseId dataSourceId now).session before) = true)
    (apart : Apart ((delivery batch enterpriseId dataSourceId now).accepted before)) :
    Silent ((delivery batch enterpriseId dataSourceId now).commit before)
        ((delivery batch enterpriseId dataSourceId later).commit
          ((delivery batch enterpriseId dataSourceId now).commit before)) ↔
      (∃ record ∈ (delivery batch enterpriseId dataSourceId now).accepted before, ¬ record.Repeatable) ∨
        ∀ record ∈ (delivery batch enterpriseId dataSourceId now).accepted before, record.Steady := by
  obtain ⟨result, ran⟩ := exists_of_returned returns
  generalize state ((delivery batch enterpriseId dataSourceId now).session before) = middle at ran
  have committed : (delivery batch enterpriseId dataSourceId now).commit before = middle := by
    rw [commit, transact_of_ok ran]
  rw [accepted_delivery ran] at apart ⊢
  rw [committed]
  obtain ⟨synced⟩ := syncSource_ok ran
  obtain ⟨source, found, owned, closed⟩ := synced.source_after
  have repeats : Repeats _ _ _ _ (syncBatch { now := later, enterpriseId, dataSourceId, fetchedAt := batch.fetchedAt }
    (confirmedMappings dataSourceId middle) batch.records middle) := synced.repeats numbers apart
  cases again : syncBatch { now := later, enterpriseId, dataSourceId, fetchedAt := batch.fetchedAt }
      (confirmedMappings dataSourceId middle) batch.records middle with
  | error reason last =>
      rw [again] at repeats
      rw [commit_of_error again]
      exact iff_of_true ⟨rfl, rfl, rfl⟩ (.inl repeats)
  | ok progress batched =>
      rw [again] at repeats
      obtain ⟨_, count, repeated⟩ := repeats
      have silent : Silent middle ((delivery batch enterpriseId dataSourceId later).commit middle) ↔ count = 0 :=
        silent_of_repeated found owned closed again repeated
      rw [silent, repeated.steady]
      refine ⟨.inr, fun either => either.resolve_left ?_⟩
      rintro ⟨record, member, refused⟩
      exact refused (repeated.repeatable record member)

end SyncCall

/-! ## A quantity with five fractional digits -/

def stockBatch (quantity : String) : FetchBatch where
  records := [Dict.ofList [("sku", .text "bolt"), ("qty", .text quantity)]]
  fetchedAt := 0

theorem sheetWithSource_numbers : Numbers sheetWithSource := by
  intro entity watch _ row member
  cases member

theorem silent_wholeQuantity :
    Silent ((SyncCall.delivery (stockBatch "10") 1 1 1).commit sheetWithSource)
      ((SyncCall.delivery (stockBatch "10") 1 1 2).commit
        ((SyncCall.delivery (stockBatch "10") 1 1 1).commit sheetWithSource)) :=
  (SyncCall.silent_iff (stockBatch "10") 1 1 1 2 sheetWithSource sheetWithSource_numbers
    (by decide +kernel) (by decide +kernel)).mpr (.inr (by decide +kernel))

/-- 1.23456 is stored as 1.2346, so the same sheet seems to change the stock again. -/
theorem rounded_quantity_signals_again :
    Numbers sheetWithSource ∧
      returned ((SyncCall.delivery (stockBatch "1.23456") 1 1 1).session sheetWithSource) = true ∧
      Apart ((SyncCall.delivery (stockBatch "1.23456") 1 1 1).accepted sheetWithSource) ∧
      ¬ Silent ((SyncCall.delivery (stockBatch "1.23456") 1 1 1).commit sheetWithSource)
        ((SyncCall.delivery (stockBatch "1.23456") 1 1 2).commit
          ((SyncCall.delivery (stockBatch "1.23456") 1 1 1).commit sheetWithSource)) := by
  refine ⟨sheetWithSource_numbers, by decide +kernel, by decide +kernel, fun silent => ?_⟩
  have jobs := congrArg (fun table => table.rows.length) silent.jobs
  exact absurd jobs (by decide +kernel)

end SmartProcurement.Integration
