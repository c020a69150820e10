import Mathlib.Data.String.Basic
import SmartProcurement.Integration.FiniteMap
import SmartProcurement.Integration.MappingLog
import SmartProcurement.Integration.SyncLockstep

namespace SmartProcurement.Integration

open Relational Transaction Text Observation

/-! # The order of the mappings

The query for the confirmed mappings has no order.  Two mappings may feed the same
attribute, and then the one that comes last wins.
-/

/-- Mappings to one attribute that take something from the record take the same. -/
def Agreeing (record : Record) (mappings : List FieldMapping) : Prop :=
  ∀ first ∈ mappings, ∀ second ∈ mappings, first.canonicalAttribute = second.canonicalAttribute →
    ∀ value other, supplied record first = .ok (some value) → supplied record second = .ok (some other) → value = other

section Extract

variable {record : Record} {mappings others : List FieldMapping} {mapping : FieldMapping} {out next : Dict Raw}

/-- The attributes are what the mappings take. -/
structure Extracted (record : Record) (mappings : List FieldMapping) (out : Dict Raw) : Prop where
  given : ∀ mapping ∈ mappings, ∀ value, supplied record mapping = .ok (some value) →
    out.lookup mapping.canonicalAttribute = some value
  only : ∀ key value, out.lookup key = some value →
    ∃ mapping ∈ mappings, mapping.canonicalAttribute = key ∧ supplied record mapping = .ok (some value)

theorem extract_extracted (agreeing : Agreeing record mappings) (ran : extract record mappings = .ok out) :
    Extracted record mappings out := by
  induction mappings using List.reverseRecOn generalizing out with
  | nil =>
      rw [extract, List.foldlM_nil] at ran
      obtain rfl := except_pure_eq_ok.mp ran
      refine ⟨fun mapping member => absurd member List.not_mem_nil, fun key value found => ?_⟩
      rw [AList.lookup_empty] at found
      cases found
  | append_singleton front last ih =>
      have inFront {mapping : FieldMapping} (member : mapping ∈ front) : mapping ∈ front ++ [last] :=
        List.mem_append_left _ member
      have isLast : last ∈ front ++ [last] := List.mem_append_right _ List.mem_cons_self
      obtain ⟨before, frontRan, stepped⟩ := extract_append_ok ran
      have extracted := ih (fun first firstIn second secondIn =>
        agreeing first (inFront firstIn) second (inFront secondIn)) frontRan
      rcases extractOne_eq_ok.mp stepped with ⟨took, rfl⟩ | ⟨value, took, rfl⟩
      · constructor
        · intro mapping member value gives
          rcases List.mem_append.mp member with old | new
          · exact extracted.given mapping old value gives
          · rw [List.mem_singleton.mp new] at gives
            cases gives.symm.trans took
        · intro key value found
          obtain ⟨mapping, member, facts⟩ := extracted.only key value found
          exact ⟨mapping, inFront member, facts⟩
      · constructor
        · intro mapping member other gives
          by_cases same : mapping.canonicalAttribute = last.canonicalAttribute
          · rw [same, AList.lookup_insert, agreeing mapping member last isLast same other value gives took]
          · rw [AList.lookup_insert_ne same]
            rcases List.mem_append.mp member with old | new
            · exact extracted.given mapping old other gives
            · exact absurd (congrArg FieldMapping.canonicalAttribute (List.mem_singleton.mp new)) same
        · intro key other found
          by_cases same : key = last.canonicalAttribute
          · subst same
            rw [AList.lookup_insert] at found
            obtain rfl := Option.some.inj found
            exact ⟨last, isLast, rfl, took⟩
          · rw [AList.lookup_insert_ne same] at found
            obtain ⟨mapping, member, facts⟩ := extracted.only key other found
            exact ⟨mapping, inFront member, facts⟩

theorem Extracted.same (extracted : Extracted record mappings out) (other : Extracted record others next)
    (reordered : mappings.Perm others) : out.Same next := by
  intro key
  apply Option.ext
  intro value
  constructor
  · intro found
    obtain ⟨mapping, member, rfl, took⟩ := extracted.only key value found
    exact other.given mapping (reordered.mem_iff.mp member) value took
  · intro found
    obtain ⟨mapping, member, rfl, took⟩ := other.only key value found
    exact extracted.given mapping (reordered.mem_iff.mpr member) value took

theorem Agreeing.perm (agreeing : Agreeing record mappings) (reordered : mappings.Perm others) : Agreeing record others :=
  fun first firstIn second secondIn =>
    agreeing first (reordered.mem_iff.mpr firstIn) second (reordered.mem_iff.mpr secondIn)

/-- The mappings may come in any order if those to one attribute agree. -/
theorem extract_alike (agreeing : Agreeing record mappings) (reordered : mappings.Perm others) :
    Alike Dict.Same (extract record mappings) (extract record others) := by
  have returns : (∃ out, extract record mappings = .ok out) ↔ ∃ out, extract record others = .ok out := by
    rw [extract_returns_iff, extract_returns_iff]
    simp only [reordered.mem_iff]
  exact alike_of_returns returns fun out next ran otherRan =>
    (extract_extracted agreeing ran).same (extract_extracted (agreeing.perm reordered) otherRan) reordered

/-- ... and not in any order if they do not. -/
theorem agreeing_of_alike (ran : extract record mappings = .ok out)
    (alike : ∀ others, mappings.Perm others → Alike Dict.Same (extract record mappings) (extract record others)) :
    Agreeing record mappings := by
  have wins {last : FieldMapping} (member : last ∈ mappings) {value : Raw} (took : supplied record last = .ok (some value)) :
      out.lookup last.canonicalAttribute = some value := by
    have reordered : mappings.Perm (mappings.erase last ++ [last]) :=
      (List.perm_cons_erase member).trans (List.perm_append_singleton _ _).symm
    have alike := alike _ reordered
    rw [ran] at alike
    cases otherRan : extract record (mappings.erase last ++ [last]) with
    | error reason =>
        rw [otherRan] at alike
        cases alike
    | ok next =>
        rw [otherRan] at alike
        cases alike with
        | ok same =>
            obtain ⟨before, _, stepped⟩ := extract_append_ok otherRan
            rcases extractOne_eq_ok.mp stepped with ⟨none, _⟩ | ⟨other, given, rfl⟩
            · cases none.symm.trans took
            · cases given.symm.trans took
              rw [same, AList.lookup_insert]
  intro first firstIn second secondIn same value other firstTook secondTook
  have found := wins firstIn firstTook
  rw [same, wins secondIn secondTook] at found
  exact (Option.some.inj found).symm

end Extract

/-! ## Runs -/

theorem provenanceOf_perm (context : SyncContext) {mappings others : List FieldMapping} (reordered : mappings.Perm others) :
    provenanceOf context mappings = provenanceOf context others := by
  have total : Std.Total fun first second : String => ¬ second < first :=
    ⟨fun first second => (le_total first second).imp not_lt_of_ge not_lt_of_ge⟩
  have trans : IsTrans String fun first second => ¬ second < first :=
    ⟨fun _ _ _ head tail => not_lt_of_ge ((not_lt.mp head).trans (not_lt.mp tail))⟩
  have antisymm : Std.Antisymm fun first second : String => ¬ second < first :=
    ⟨fun _ _ head tail => le_antisymm (not_lt.mp head) (not_lt.mp tail)⟩
  have paths : ((mappings.map (·.sourceFieldPath)).dedup.insertionSort fun first second => ¬ second < first) =
      (others.map (·.sourceFieldPath)).dedup.insertionSort fun first second => ¬ second < first := by
    refine List.Perm.eq_of_pairwise' (List.pairwise_insertionSort _ _) (List.pairwise_insertionSort _ _) ?_
    exact (List.perm_insertionSort _ _).trans ((reordered.map _).dedup.trans (List.perm_insertionSort _ _).symm)
  unfold provenanceOf
  rw [paths]

/-- The same database, whose query returns the mappings in another order. -/
structure Reordered (db other : DB) : Prop where
  mappings : db.fieldMapping.rows.Perm other.fieldMapping.rows
  others : other = { db with fieldMapping := other.fieldMapping }

section Runs

variable {db other before : DB} {context : SyncContext} {mappings others : List FieldMapping} {records : List Record}

theorem Reordered.write (change : DB → DB) (frame : ∀ (db : DB) (table : Table FieldMapping),
    change { db with fieldMapping := table } = { change db with fieldMapping := table }) (reordered : Reordered db other) :
    Reordered (change db) (change other) := by
  have mappings : (change db).fieldMapping = db.fieldMapping := by
    have framed := congrArg DB.fieldMapping (frame db db.fieldMapping)
    exact framed
  have changed : change other = { change db with fieldMapping := other.fieldMapping } := by
    rw [← frame, ← reordered.others]
  constructor
  · rw [changed, mappings]
    exact reordered.mappings
  · rw [changed]

theorem Reordered.query {α : Type} {find : DB → α} (frame : ∀ (db : DB) (table : Table FieldMapping),
    find { db with fieldMapping := table } = find db) (reordered : Reordered db other) : find other = find db := by
  rw [reordered.others, frame]

theorem reordered_scalarOrNone {α : Type} {states : DB → DB → Prop} {find : DB → List α}
    (reordered : ∀ db other, states db other → Reordered db other) (frame : ∀ (db : DB) (table : Table FieldMapping),
      find { db with fieldMapping := table } = find db) : Lockstep Eq states states (scalarOrNone find) (scalarOrNone find) :=
  lockstep_scalarOrNone fun db other related => (reordered db other related).query frame

theorem reordered_view : SyncView Reordered where
  canonical reordered := reordered.query fun _ _ => rfl
  enterprise reordered := reordered.query fun _ _ => rfl
  signal signal reordered := reordered.write
    (fun db => { db with observationSignal := db.observationSignal.insert signal }) fun _ _ => rfl
  stores entity table reordered := reordered.write (fun db => db.setCanonical entity table) fun _ _ => rfl

theorem Reordered.confirmedMappings (reordered : Reordered db other) (dataSourceId : Uuid) :
    (Integration.confirmedMappings dataSourceId db).Perm (Integration.confirmedMappings dataSourceId other) :=
  reordered.mappings.filter _

theorem schedule_perm (reordered : mappings.Perm others) : schedule mappings records = schedule others records := by
  unfold schedule
  refine List.flatMap_congr fun entity _ => ?_
  have grouped : (mappingsOf mappings entity).Perm (mappingsOf others entity) := reordered.filter _
  have same : (mappingsOf mappings entity).isEmpty = (mappingsOf others entity).isEmpty := by
    rw [Bool.eq_iff_iff, List.isEmpty_iff_length_eq_zero, List.isEmpty_iff_length_eq_zero, grouped.length_eq]
  rw [same]

theorem syncBatch_lockstep (reordered : mappings.Perm others)
    (agreeing : ∀ record ∈ records, ∀ entity, Agreeing record (mappingsOf mappings entity)) :
    Lockstep Eq Reordered Reordered (syncBatch context mappings records) (syncBatch context others records) := by
  have grouped (entity : Entity) : (mappingsOf mappings entity).Perm (mappingsOf others entity) := reordered.filter _
  rw [syncBatch_schedule, syncBatch_schedule, ← schedule_perm reordered]
  have listed : List.Forall₂ (fun next mate => next = mate ∧ next.2 ∈ records) (schedule mappings records)
      (schedule mappings records) := by
    refine List.forall₂_same.mpr fun next member => ⟨rfl, ?_⟩
    obtain ⟨entity, _, member⟩ := List.mem_flatMap.mp member
    split at member
    · cases member
    · obtain ⟨record, own, rfl⟩ := List.mem_map.mp member
      exact own
  refine Lockstep.foldlM listed ?_ rfl
  rintro progress _ next _ rfl ⟨rfl, own⟩
  exact syncRecord_lockstep_of_same reordered_view eq_progressView (extract_alike (agreeing next.2 own next.1) (grouped next.1))
    (provenanceOf_perm context (grouped next.1)) rfl

theorem recordSuccess_lockstep (now : Timestamp) (enterpriseId : Uuid) (source : DataSource) (fetchedAt : Timestamp) :
    Lockstep Eq Reordered Reordered (recordSuccess now enterpriseId source fetchedAt)
      (recordSuccess now enterpriseId source fetchedAt) := by
  unfold recordSuccess closeGap
  refine (lockstep_write fun db other reordered => ?_).bind ?_
  · exact reordered.write (fun db => { db with
      dataSource := db.dataSource.update source.id fun row =>
        { row with
          health := .available, lastError := none, lastSuccessAt := some fetchedAt,
          lastCheckAt := some now } }) fun _ _ => rfl
  · rintro _ _ rfl
    refine (reordered_scalarOrNone (fun _ _ => id) fun _ _ => rfl).bind ?_
    rintro gap _ rfl
    cases gap with
    | none => exact lockstep_pure rfl
    | some gap =>
        exact lockstep_write fun db other reordered => reordered.write (fun db => { db with
          observabilityGap := db.observabilityGap.update gap.id fun row => { row with closedAt := some now } }) fun _ _ => rfl

theorem enqueueRecompute_lockstep (now : Timestamp) (enterpriseId : Uuid) (progress : Progress) :
    Lockstep Eq Reordered Reordered (enqueueRecompute now enterpriseId progress) (enqueueRecompute now enterpriseId progress) := by
  unfold enqueueRecompute
  split
  · exact lockstep_pure rfl
  · exact lockstep_write fun db other reordered => reordered.write (fun db => { db with
      job := db.job.insert (Jobs.newJob now "recompute_aggregates"
        { enterpriseId := some enterpriseId, itemIds := some progress.touchedItemIds } none (some enterpriseId)
        Jobs.defaultMaxAttempts) }) fun _ _ => rfl

/-- In every record that the call fetches, the mappings to one attribute agree. -/
def Concordant (call : SyncCall) (before : DB) : Prop :=
  ∀ batch, call.Fetches before batch → ∀ record ∈ batch.records, ∀ entity,
    Agreeing record (mappingsOf (confirmedMappings call.dataSourceId before) entity)

theorem session_lockstep (call : SyncCall) (concordant : Concordant call before) :
    Lockstep Eq (fun db other => db = before ∧ Reordered db other) Reordered call.session call.session := by
  obtain ⟨now, connectors, enterpriseId, dataSourceId⟩ := call
  unfold SyncCall.session syncSource
  dsimp only
  have looks : Lockstep (fun (source other : Option DataSource) => source = other ∧
        ∀ row, source = some row → before.dataSource.find? dataSourceId = some row)
      (fun db other => db = before ∧ Reordered db other) (fun db other => db = before ∧ Reordered db other)
      (ownedSource enterpriseId dataSourceId) (ownedSource enterpriseId dataSourceId) := by
    refine (reordered_scalarOrNone (fun _ _ => And.right) fun _ _ => rfl).with_facts ?_
    rintro _ other found after ⟨rfl, _⟩ ran row rfl
    exact ((ownedSource_ok ran).2 row rfl).1
  refine looks.bind ?_
  rintro source _ ⟨rfl, found⟩
  cases source with
  | none => exact lockstep_raise
  | some source =>
      refine (lockstep_lift (alike_refl _)).bind ?_
      rintro _ _ rfl
      cases fetched : connectors.build source >>= fun _ => connectors.fetch source with
      | error reason =>
          cases reason with
          | connector detail =>
              exact lockstep_of_raises (exists_error_bind_raise _ _) (exists_error_bind_raise _ _)
          | _ => exact lockstep_raise
      | ok batch =>
          have fetches : SyncCall.Fetches ⟨now, connectors, enterpriseId, dataSourceId⟩ before batch :=
            ⟨source, found source rfl, fetched⟩
          have reads : Lockstep (fun mappings others => mappings = confirmedMappings dataSourceId before ∧ mappings.Perm others)
              (fun db other => db = before ∧ Reordered db other) (fun db other => db = before ∧ Reordered db other)
              (read (confirmedMappings dataSourceId) : Session _) (read (confirmedMappings dataSourceId)) := by
            refine lockstep_read ?_
            rintro _ other ⟨rfl, reordered⟩
            exact ⟨rfl, reordered.confirmedMappings dataSourceId⟩
          refine reads.bind ?_
          rintro _ others ⟨rfl, reordered⟩
          refine Lockstep.bind ((syncBatch_lockstep reordered (concordant batch fetches)).strengthen
            fun _ _ related => related.2) ?_
          rintro progress _ rfl
          refine (recordSuccess_lockstep now enterpriseId source batch.fetchedAt).bind ?_
          rintro _ _ rfl
          refine (enqueueRecompute_lockstep now enterpriseId progress).bind ?_
          rintro _ _ rfl
          exact lockstep_pure rfl

/-- The sync leaves the same rows and signals in whatever order the query returns the
mappings. -/
def OrderFree (call : SyncCall) (before : DB) : Prop :=
  ∀ other, Reordered before other → (call.commit other).canonical = (call.commit before).canonical ∧
    (call.commit other).observationSignal = (call.commit before).observationSignal

theorem orderFree_of_concordant (call : SyncCall) (before : DB) (concordant : Concordant call before) :
    OrderFree call before := by
  intro other reordered
  have ends : Reordered (call.commit before) (call.commit other) :=
    (session_lockstep call concordant before other ⟨rfl, reordered⟩).transact reordered
  exact ⟨ends.query fun _ _ => rfl, ends.query fun _ _ => rfl⟩

end Runs

/-! ## Two columns for one quantity -/

def confirmedColumn (id : Uuid) (path entity attr : String) : List MappingCall := [
  .createMapping 10 1 1 ⟨path, entity, attr, none⟩ none,
  .confirmMapping 20 1 id 7]

/-- A sheet with a quantity and a count, both confirmed as the quantity in stock. -/
def countedSheet (counted : Bool) : DB :=
  commitCalls (confirmedColumn 1 "sku" "item" "sku" ++ confirmedColumn 2 "sku" "stock_level" "item_sku" ++
    confirmedColumn 3 "qty" "stock_level" "quantity" ++
      if counted then confirmedColumn 4 "count" "stock_level" "quantity" else []) unmappedSheet

def countedCall : SyncCall where
  now := 100
  connectors := {
    loadCredential := fun _ => .ok ⟨⟩
    build := fun _ => .ok ⟨⟩
    testConnection := fun _ => .error (.connector "timeout")
    fetch := fun _ => .ok {
      records := [Dict.ofList [("sku", .text "bolt"), ("qty", .text "10"), ("count", .text "20")]]
      fetchedAt := 0 } }
  enterpriseId := 1
  dataSourceId := 1

def reverseMappings (db : DB) : DB :=
  { db with
    fieldMapping := ⟨db.fieldMapping.rows.reverse, by
      rw [List.map_reverse]
      exact List.nodup_reverse.mpr db.fieldMapping.distinct⟩ }

theorem reverseMappings_reordered (db : DB) : Reordered db (reverseMappings db) where
  mappings := (List.reverse_perm _).symm
  others := rfl

theorem one_column_orderFree : OrderFree countedCall (countedSheet false) := by
  refine orderFree_of_concordant countedCall (countedSheet false) ?_
  rintro batch ⟨source, _, fetched⟩ record member entity
  obtain rfl := Except.ok.inj fetched
  obtain rfl := List.mem_singleton.mp member
  have single : ∀ entity, ∀ first ∈ mappingsOf (confirmedMappings 1 (countedSheet false)) entity,
      ∀ second ∈ mappingsOf (confirmedMappings 1 (countedSheet false)) entity,
        first.canonicalAttribute = second.canonicalAttribute → first = second := by
    intro entity
    cases entity <;> decide +kernel
  intro first firstIn second secondIn same value other firstTook secondTook
  obtain rfl := single entity first firstIn second secondIn same
  exact Option.some.inj (Except.ok.inj (firstTook.symm.trans secondTook))

/-- The last mapping wins, so the stock is 20 in one order and 10 in the other. -/
theorem two_columns_not_orderFree : ¬ OrderFree countedCall (countedSheet true) := by
  intro orderFree
  have same := congrFun (orderFree _ (reverseMappings_reordered _)).1 .stockLevel
  have quantities := congrArg (fun table => table.rows.map fun row => row.col "quantity") same
  exact absurd quantities (by decide +kernel)

end SmartProcurement.Integration
