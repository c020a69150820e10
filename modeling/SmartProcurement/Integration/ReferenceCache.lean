import SmartProcurement.Integration.Resync
import SmartProcurement.Transaction.Forgetting

namespace SmartProcurement.Integration

open Relational Transaction

/-! # The reference cache of a run

A run remembers the masters that it has found.  Masters are written before the rows
that refer to them, so what the cache says is what a lookup would still say, and a
run that looks every reference up again takes the same course.
-/

/-- `natural_cache`, then the database. -/
def cachedLookup (enterpriseId : Uuid) (cache : Cache) (reference : Reference) (key : String) : Session (Option Uuid) :=
  match cache.lookup (reference.target, key) with
  | some id => return some id
  | none => lookupReference enterpriseId reference key

/-! ## Runs without a cache -/

def resolveOneFresh (enterpriseId : Uuid) (entity : Entity) (attrs : Dict Raw) (resolved : Option (Dict Raw))
    (reference : Reference) : Session (Option (Dict Raw)) :=
  match resolved with
  | none => return none
  | some resolved =>
      match attrs.lookup reference.attr with
      | none => return some resolved
      | some raw => do
          if raw.blank then return some resolved
          match ← lookupReference enterpriseId reference raw.str with
          | some id => return some (resolved.insert (foreignKey reference.target) (.uuid id))
          | none =>
              if foreignKey reference.target ∈ requiredIdentity entity then return none
              else return some resolved

def resolveRefsFresh (enterpriseId : Uuid) (entity : Entity) (attrs : Dict Raw) : Session (Option (Dict Raw)) :=
  let refs := (specs entity).refs
  let plain := attrs.restrict fun key => !(refs.any fun reference => reference.attr == key)
  refs.foldlM (resolveOneFresh enterpriseId entity attrs) (some plain)

def syncResolved (context : SyncContext) (entity : Entity) (mappings : List FieldMapping) (progress : Progress)
    (resolved : Option (Dict Raw)) : Session Progress :=
  match resolved with
  | none => return progress
  | some resolved => do
      if lacksIdentity entity resolved then return progress
      let (created, signal) ← upsert context entity resolved (provenanceOf context mappings)
      return progress.record entity created signal

def syncRecordFresh (context : SyncContext) (mappings : List FieldMapping) (progress : Progress)
    (next : Entity × Record) : Session Progress := do
  let attrs ← lift (extract next.2 (mappingsOf mappings next.1))
  if attrs.entries.isEmpty then return progress
  let resolved ← resolveRefsFresh context.enterpriseId next.1 attrs
  syncResolved context next.1 (mappingsOf mappings next.1) progress resolved

def syncBatchFresh (context : SyncContext) (mappings : List FieldMapping) (records : List Record) : Session Progress :=
  (schedule mappings records).foldlM (syncRecordFresh context mappings) .start

/-- `sync_source` over one way of syncing its batch. -/
def syncSourceWith (batchOf : SyncContext → List FieldMapping → List Record → Session Progress) (call : SyncCall) :
    Session SyncResult := do
  match ← ownedSource call.enterpriseId call.dataSourceId with
  | none => raise (.upstream "data source not found")
  | some source =>
      lift (call.connectors.loadCredential source)
      match call.connectors.build source >>= fun _ => call.connectors.fetch source with
      | .error (.connector detail) =>
          recordOutage call.now call.enterpriseId source detail
          raise (.upstream ("sync failed for data source '" ++ source.name ++ "': " ++ detail))
      | .error reason => raise reason
      | .ok batch =>
          let mappings ← read (confirmedMappings call.dataSourceId)
          let progress ← batchOf (call.context batch) mappings batch.records
          recordSuccess call.now call.enterpriseId source batch.fetchedAt
          enqueueRecompute call.now call.enterpriseId progress
          return {
            fetchedAt := batch.fetchedAt
            recordsSeen := batch.records.length
            upserts := progress.upserts
            signalsCreated := progress.signalsCreated }

theorem session_with (call : SyncCall) : call.session = syncSourceWith syncBatch call := rfl

/-! ## Entries -/

/-- The entry is what a lookup finds. -/
def Current (enterpriseId : Uuid) (db : DB) (entry : (Entity × String) × Uuid) : Prop :=
  ∃ reference ∈ masterReferences, reference.target = entry.1.1 ∧
    lookupReference enterpriseId reference entry.1.2 db = .ok (some entry.2) db

/-- Nothing that is left to sync writes the table of the entry. -/
def Retired (steps : List (Entity × Record)) (entry : (Entity × String) × Uuid) : Prop :=
  ∀ next ∈ steps, next.1 ≠ entry.1.1

section Entries

variable {enterpriseId : Uuid} {entity : Entity} {reference other : Reference} {attrs : Dict Raw} {key : String}
variable {acc result : Resolution} {cache : Cache} {db before after : DB} {id : Uuid}

theorem mem_of_lookup (hit : cache.lookup (reference.target, key) = some id) :
    ((reference.target, key), id) ∈ cache := by
  obtain ⟨earlier, later, rfl, _⟩ := List.lookup_eq_some_iff.mp hit
  exact List.mem_append_right earlier List.mem_cons_self

theorem cachedLookup_eq (master : reference ∈ masterReferences)
    (current : ∀ entry ∈ cache, Current enterpriseId db entry)
    (key : String) : cachedLookup enterpriseId cache reference key db = lookupReference enterpriseId reference key db := by
  unfold cachedLookup
  cases hit : cache.lookup (reference.target, key) with
  | none => rfl
  | some id =>
      obtain ⟨other, otherMaster, same, looked⟩ := current _ (mem_of_lookup hit)
      rw [master_unique master otherMaster same] at looked
      exact looked.symm

/-- What holds of the cache and of the masters that are found holds of the new cache. -/
theorem resolveOne_cache {holds : (Entity × String) × Uuid → Prop} (start : ∀ entry ∈ acc.cache, holds entry)
    (finds : ∀ key id, lookupReference enterpriseId reference key before = .ok (some id) before →
      holds ((reference.target, key), id))
    (ran : resolveOne enterpriseId entity attrs acc reference before = .ok result after) :
    ∀ entry ∈ result.cache, holds entry := by
  cases resolveOne_ok ran with
  | skipped _ => exact start
  | unnamed _ => exact start
  | cached _ _ _ _ => exact start
  | found _ _ _ looked => exact List.forall_mem_cons.mpr ⟨finds _ _ looked, start⟩
  | missing _ _ _ _ => exact start
  | «optional» _ _ _ => exact start

/-- ... and so after any part of the loop. -/
theorem resolveRefs_cache {holds : (Entity × String) × Uuid → Prop} {list done rest : List Reference}
    (start : ∀ entry ∈ acc.cache, holds entry)
    (finds : ∀ reference ∈ list, ∀ key id, lookupReference enterpriseId reference key before = .ok (some id) before →
      holds ((reference.target, key), id))
    (split : list = done ++ rest)
    (ran : done.foldlM (resolveOne enterpriseId entity attrs) acc before = .ok result after) :
    after = before ∧ ∀ entry ∈ result.cache, holds entry := by
  refine foldlM_ok_of_reached (fun result db => db = before ∧ ∀ entry ∈ result.cache, holds entry) ⟨rfl, start⟩ ?_ split ran
  rintro reference acc reached next later ⟨_, _, inside, _⟩ ⟨rfl, holding⟩ stepped
  have listed : reference ∈ list := by simp [inside]
  exact ⟨(resolveOne_state stepped).1, resolveOne_cache holding (finds reference listed) stepped⟩

theorem Current.congr {entry : (Entity × String) × Uuid} (current : Current enterpriseId before entry)
    (same : after.canonical entry.1.1 = before.canonical entry.1.1) : Current enterpriseId after entry := by
  obtain ⟨reference, master, target, looked⟩ := current
  exact ⟨reference, master, target, lookupReference_congr (target ▸ same) looked⟩

theorem Retired.tail {next : Entity × Record} {steps : List (Entity × Record)} {entry : (Entity × String) × Uuid}
    (retired : Retired (next :: steps) entry) : Retired steps entry :=
  fun other listed => retired other (List.mem_cons_of_mem _ listed)

end Entries

/-! ## Resolving -/

section Resolving

variable {enterpriseId : Uuid} {entity : Entity} {reference : Reference} {attrs : Dict Raw} {acc : Resolution} {db : DB}

theorem resolveOne_fresh (master : reference ∈ masterReferences)
    (current : ∀ entry ∈ acc.cache, Current enterpriseId db entry) :
    (Resolution.resolved <$> resolveOne enterpriseId entity attrs acc reference) db =
      resolveOneFresh enterpriseId entity attrs acc.resolved reference db := by
  obtain ⟨resolved, cache⟩ := acc
  unfold resolveOne resolveOneFresh
  cases resolved with
  | none => rfl
  | some resolved =>
      cases given : attrs.lookup reference.attr with
      | none => simp only [map_pure]
      | some raw =>
          cases blank : raw.blank with
          | true => simp only [blank, if_true, map_pure]
          | false =>
              have same := cachedLookup_eq master current raw.str
              unfold cachedLookup at same
              simp only [blank, Bool.false_eq_true, if_false]
              cases hit : cache.lookup (reference.target, raw.str) with
              | some id =>
                  simp only [hit] at same
                  rw [bind_of_ok same.symm]
                  rfl
              | none =>
                  rw [map_bind]
                  refine congrFun (congrArg (lookupReference enterpriseId reference raw.str >>= ·) (funext fun found => ?_)) db
                  cases found with
                  | some id => rfl
                  | none =>
                      by_cases required : foreignKey reference.target ∈ requiredIdentity entity
                      · simp only [if_pos required, map_pure]
                      · simp only [if_neg required, map_pure]

/-- The loop over the references of a record, from a cache that is current. -/
theorem reached_current {resolved : Option (Dict Raw)} {cache : Cache} {reached : DB}
    (current : ∀ entry ∈ cache, Current enterpriseId db entry)
    (reaches : Transaction.Reaches (resolveOne enterpriseId entity attrs) (specs entity).refs ⟨resolved, cache⟩ db reference
      acc reached) :
    reached = db ∧ reference ∈ masterReferences ∧ ∀ entry ∈ acc.cache, Current enterpriseId db entry := by
  obtain ⟨done, rest, inside, ran⟩ := reaches
  obtain ⟨rfl, holding⟩ := resolveRefs_cache current (fun reference listed key id looked =>
    ⟨reference, refs_masters entity reference listed, rfl, looked⟩) inside ran
  exact ⟨rfl, refs_masters entity reference (by simp [inside]), holding⟩

theorem resolveRefs_fresh {cache : Cache} (current : ∀ entry ∈ cache, Current enterpriseId db entry)
    (attrs : Dict Raw) :
    (Resolution.resolved <$> resolveRefs enterpriseId entity attrs cache) db = resolveRefsFresh enterpriseId entity attrs db := by
  refine map_foldlM fun reference acc reached reaches => ?_
  obtain ⟨rfl, master, holding⟩ := reached_current current reaches
  exact resolveOne_fresh master holding

end Resolving

/-! ## Records -/

def Progress.forget (progress : Progress) : Progress := { progress with cache := [] }

section Records

variable {context : SyncContext} {mappings : List FieldMapping} {progress later : Progress} {next : Entity × Record}
variable {steps : List (Entity × Record)} {before after : DB}

theorem syncResolved_forget (context : SyncContext) (entity : Entity) (mappings : List FieldMapping)
    (progress : Progress) (resolved : Option (Dict Raw)) :
    Progress.forget <$> syncResolved context entity mappings progress resolved =
      syncResolved context entity mappings progress.forget resolved := by
  unfold syncResolved
  cases resolved with
  | none => simp only [map_pure]
  | some resolved =>
      by_cases lacks : lacksIdentity entity resolved = true
      · simp only [if_pos lacks, map_pure]
      · simp only [if_neg lacks, map_bind, map_pure]
        refine congrArg (upsert context entity resolved (provenanceOf context mappings) >>= ·) (funext fun (_, signal) => ?_)
        cases signal with
        | none => rfl
        | some signal => rfl

theorem record_cache {entity : Entity} {created : Bool} {signal : Option ObservationSignal} :
    (progress.record entity created signal).cache = progress.cache := by
  cases signal with
  | none => rfl
  | some _ => rfl

theorem syncNext_resolves : syncNext context mappings progress next =
    lift (extract next.2 (mappingsOf mappings next.1)) >>= fun attrs =>
      if attrs.entries.isEmpty then pure progress
      else resolveRefs context.enterpriseId next.1 attrs progress.cache >>= fun resolution =>
        syncResolved context next.1 (mappingsOf mappings next.1) { progress with cache := resolution.cache }
          resolution.resolved := rfl

theorem syncNext_fresh (current : ∀ entry ∈ progress.cache, Current context.enterpriseId before entry) :
    (Progress.forget <$> syncNext context mappings progress next) before =
      syncRecordFresh context mappings progress.forget next before := by
  rw [syncNext_resolves]
  unfold syncRecordFresh
  cases extract next.2 (mappingsOf mappings next.1) with
  | error reason => rfl
  | ok attrs =>
      simp only [lift, pure_bind]
      by_cases nothing : attrs.entries.isEmpty = true
      · rw [if_pos nothing, if_pos nothing, map_pure]
      · rw [if_neg nothing, if_neg nothing, map_bind]
        exact bind_of_map (resolveRefs_fresh current attrs) fun resolution => syncResolved_forget ..

/-- A record adds masters that are found and that no later record writes. -/
theorem syncNext_cache (ordered : MastersFirst (next :: steps))
    (holding : ∀ entry ∈ progress.cache, Current context.enterpriseId before entry ∧ Retired (next :: steps) entry)
    (ran : syncNext context mappings progress next before = .ok later after) :
    ∀ entry ∈ later.cache, Current context.enterpriseId after entry ∧ Retired steps entry := by
  have resolves {attrs : Dict Raw} {resolution : Resolution}
      (resolving : resolveRefs context.enterpriseId next.1 attrs progress.cache before = .ok resolution before) :
      ∀ entry ∈ resolution.cache, Current context.enterpriseId before entry ∧ Retired (next :: steps) entry := by
    refine (resolveRefs_cache holding (fun reference listed key id looked =>
      ⟨⟨reference, refs_masters next.1 reference listed, rfl, looked⟩, ?_⟩) (List.append_nil _).symm resolving).2
    exact List.forall_mem_cons.mpr ⟨target_ne next.1 reference listed, fun other later =>
      (List.pairwise_cons.mp ordered).1 other later reference listed⟩
  cases syncRecord_ok ran with
  | empty _ _ => exact fun entry member => (holding entry member).imp_right Retired.tail
  | skipped _ resolving _ =>
      exact fun entry member => (resolves resolving entry member).imp_right Retired.tail
  | @upserted _ _ resolution signal _ _ _ resolving _ _ stored =>
      intro entry member
      rw [record_cache] at member
      obtain ⟨current, retired⟩ := resolves resolving entry member
      exact ⟨current.congr (stored.written.2 _ (retired next List.mem_cons_self).symm), retired.tail⟩

theorem steps_cache {rest : List (Entity × Record)} (ordered : MastersFirst (steps ++ rest))
    (holding : ∀ entry ∈ progress.cache, Current context.enterpriseId before entry ∧ Retired (steps ++ rest) entry)
    (ran : steps.foldlM (syncNext context mappings) progress before = .ok later after) :
    ∀ entry ∈ later.cache, Current context.enterpriseId after entry ∧ Retired rest entry := by
  induction steps generalizing progress before with
  | nil =>
      obtain ⟨rfl, rfl⟩ := pure_eq_ok.mp ran
      exact holding
  | cons next steps ih =>
      rw [List.foldlM_cons] at ran
      obtain ⟨middle, reached, first, ran⟩ := bind_eq_ok.mp ran
      exact ih (List.pairwise_cons.mp ordered).2 (syncNext_cache ordered holding first) ran

/-- The cache is current between any two records of a batch. -/
theorem batch_current {records : List Record} {done rest : List (Entity × Record)}
    (split : schedule mappings records = done ++ rest)
    (ran : done.foldlM (syncNext context mappings) .start before = .ok progress after) :
    ∀ entry ∈ progress.cache, Current context.enterpriseId after entry := by
  have ordered := schedule_mastersFirst mappings records
  rw [split] at ordered
  exact fun entry member => (steps_cache ordered (List.forall_mem_nil _) ran entry member).1

theorem syncBatch_fresh (context : SyncContext) (mappings : List FieldMapping) (records : List Record) :
    Progress.forget <$> syncBatch context mappings records = syncBatchFresh context mappings records := by
  funext before
  rw [syncBatch_schedule]
  refine map_foldlM fun next progress reached reaches => ?_
  obtain ⟨done, rest, split, ran⟩ := reaches
  exact syncNext_fresh (batch_current split ran)

end Records

/-! ## Calls -/

/-- The cache of a call is transparent: between any two of its records and at any
reference of a record it says what a lookup would say then, and the call ends as it
would if it looked up every reference. -/
structure CacheTransparent (call : SyncCall) (before : DB) : Prop where
  records : ∀ batch, call.Fetches before batch → ∀ done rest progress db,
    schedule (confirmedMappings call.dataSourceId before) batch.records = done ++ rest →
    done.foldlM (syncNext (call.context batch) (confirmedMappings call.dataSourceId before)) .start before = .ok progress db →
    ∀ entry ∈ progress.cache, Current call.enterpriseId db entry
  references : ∀ step, call.Reaches before step → ∀ attrs resolved reference acc db,
    Transaction.Reaches (resolveOne call.enterpriseId step.entity attrs) (specs step.entity).refs
      ⟨resolved, step.progress.cache⟩ step.db reference acc db →
    (∀ entry ∈ acc.cache, Current call.enterpriseId db entry) ∧
    (∀ key, cachedLookup call.enterpriseId acc.cache reference key db =
      lookupReference call.enterpriseId reference key db) ∧
    (Resolution.resolved <$> resolveOne call.enterpriseId step.entity attrs acc reference) db =
      resolveOneFresh call.enterpriseId step.entity attrs acc.resolved reference db
  resolves : ∀ step, call.Reaches before step → ∀ attrs,
    (Resolution.resolved <$> resolveRefs call.enterpriseId step.entity attrs step.progress.cache) step.db =
      resolveRefsFresh call.enterpriseId step.entity attrs step.db
  ends : call.session before = syncSourceWith syncBatchFresh call before

theorem step_current {call : SyncCall} {before : DB} {step : RecordStep} (reached : call.Reaches before step) :
    ∀ entry ∈ step.progress.cache, Current call.enterpriseId step.db entry := by
  obtain ⟨batch, _, _, _, done, rest, split, ran⟩ := reached
  exact batch_current split ran

/-- What follows the batch does not see the cache. -/
theorem session_fresh (call : SyncCall) (before : DB) :
    call.session before = syncSourceWith syncBatchFresh call before := by
  rw [session_with]
  refine congrFun (bind_congr fun found => ?_) before
  cases found with
  | none => rfl
  | some source =>
      refine bind_congr fun _ => ?_
      cases call.connectors.build source >>= fun _ => call.connectors.fetch source with
      | error reason => cases reason <;> rfl
      | ok batch =>
          refine bind_congr fun mappings => ?_
          rw [← syncBatch_fresh, bind_map_left]
          rfl

theorem cache_transparent (call : SyncCall) (before : DB) : CacheTransparent call before where
  records _ _ _ _ _ _ split ran := batch_current split ran
  references step reached attrs resolved reference acc db reaches := by
    obtain ⟨rfl, master, current⟩ := reached_current (step_current reached) reaches
    exact ⟨current, cachedLookup_eq master current, resolveOne_fresh master current⟩
  resolves step reached attrs := resolveRefs_fresh (step_current reached) attrs
  ends := session_fresh call before

end SmartProcurement.Integration
