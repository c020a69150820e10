import SmartProcurement.Integration.FiniteMap
import SmartProcurement.Transaction.ReadCommitted
import SmartProcurement.Transition.Runs

namespace SmartProcurement.Integration.Concurrent

open Relational Transaction Transition

/-! # Two transactions of sync

Two workers sync two data sources at once.  Every statement sees the committed
rows and the rows that its own transaction has written; between two statements
the other transaction may go on.  Of what a transaction writes, the canonical
rows are kept: sync reads none of its signals, gaps and jobs back.
-/

/-! ## A transaction between two statements -/

/-- What a run of sync has still to do. -/
structure Work where
  context : SyncContext
  mappings : List FieldMapping
  records : List (Entity × Record)
  cache : Cache

inductive Phase where
  | ready
  | next (work : Work)
  | resolving (work : Work) (entity : Entity) (attrs : Dict Raw) (acc : Resolution) (references : List Reference)
  | looking (work : Work) (entity : Entity) (resolved : Dict Raw)
  | writing (work : Work) (entity : Entity) (resolved : Dict Raw) (existing : Option Row)
  | ended (committed : Bool)

/-- The statements before the loops: source, credential, batch and mappings. -/
def begin (call : SyncCall) : Session Work := do
  match ← ownedSource call.enterpriseId call.dataSourceId with
  | none => raise (.upstream "data source not found")
  | some source =>
      lift (call.connectors.loadCredential source)
      let batch ← lift (call.connectors.build source >>= fun _ => call.connectors.fetch source)
      let mappings ← read (confirmedMappings call.dataSourceId)
      return { context := call.context batch, mappings, records := schedule mappings batch.records, cache := [] }

/-- The next record of the loops, up to its first statement. -/
def Work.take (work : Work) (entity : Entity) (record : Record) (rest : List (Entity × Record)) :
    Except Error Phase := do
  let attrs ← extract record (mappingsOf work.mappings entity)
  if attrs.entries.isEmpty then return .next { work with records := rest }
  else
    let references := (specs entity).refs
    let plain := attrs.restrict fun key => !(references.any fun reference => reference.attr == key)
    return .resolving { work with records := rest } entity attrs { resolved := some plain, cache := work.cache } references

/-- The references are resolved: the record is skipped or looked up. -/
def Work.accept (work : Work) (entity : Entity) (acc : Resolution) : Phase :=
  match acc.resolved with
  | none => .next { work with cache := acc.cache }
  | some resolved =>
      if lacksIdentity entity resolved then .next { work with cache := acc.cache }
      else .looking { work with cache := acc.cache } entity resolved

def Work.provenance (work : Work) (entity : Entity) : Provenance :=
  provenanceOf work.context (mappingsOf work.mappings entity)

def lookupRow (context : SyncContext) (entity : Entity) (resolved : Dict Raw) : Session (Option Row) := do
  let identity ← lift (identityValues entity (coerced entity resolved))
  scalarOrNone fun db => (db.canonical entity).rows.filter (hasIdentity context.enterpriseId identity)

/-- The row that an upsert inserts under a new id. -/
def newRow (work : Work) (entity : Entity) (resolved : Dict Raw) (id : Uuid) : Session Row := do
  let row ← lift (construct entity work.context.now work.context.enterpriseId (work.provenance entity)
    (coerced entity resolved))
  lift (← read fun db => storeRow db entity { row with id })

/-- An UPDATE sets the columns of a row that were changed since it was loaded. -/
def overwrite (loaded changed current : Row) : Row :=
  { current with
    enterpriseId := if changed.enterpriseId = loaded.enterpriseId then current.enterpriseId else changed.enterpriseId
    sourceProvenance := changed.sourceProvenance
    observability := changed.observability
    col := fun name => if changed.col name = loaded.col name then current.col name else changed.col name }

/-- The row that an upsert leaves of the one it has loaded. -/
def changedRow (work : Work) (entity : Entity) (resolved : Dict Raw) (existing : Row) : Session Row := do
  let attrs := coerced entity resolved
  let _ ← diffSignal work.context entity existing attrs resolved
  let changed ← lift (assignAttrs entity existing attrs)
  let changed := { changed with sourceProvenance := some (work.provenance entity), observability := .fresh }
  match ← read fun db => (db.canonical entity).find? existing.id with
  | none => raise (.other "StaleDataError")
  | some current => lift (← read fun db => storeRow db entity (overwrite existing changed current))

/-! ## Both transactions -/

structure State where
  committed : DB
  own : Bool → Entity → Table Row
  phase : Bool → Phase

inductive Event where
  | run (party : Bool) (id : Uuid)
  | abort (party : Bool)

namespace State

variable (state : State) (party : Bool)

def seen (entity : Entity) : Table Row := (state.committed.canonical entity).overlay (state.own party entity)

def view : DB := { state.committed with canonical := state.seen party }

def start (initial : DB) : State := ⟨initial, fun _ _ => .empty, fun _ => .ready⟩

def enter (phase : Phase) : State := { state with phase := Function.update state.phase party phase }

def finish (canonical : Entity → Table Row) (committed : Bool) : State where
  committed := { state.committed with canonical }
  own := Function.update state.own party fun _ => .empty
  phase := Function.update state.phase party (.ended committed)

def commit : State := state.finish party (state.seen party) true

def abort : State := state.finish party state.committed.canonical false

def put (entity : Entity) (row : Row) (phase : Phase) : State :=
  { state with
    own := Function.update state.own party
      (Function.update (state.own party) entity ((state.own party entity).put row))
    phase := Function.update state.phase party phase }

def taken (entity : Entity) (id : Uuid) : Bool :=
  ((state.seen party entity).rows ++ (state.own (!party) entity).rows).any (·.id = id)

def locked (entity : Entity) (id : Uuid) : Bool := (state.own (!party) entity).rows.any (·.id = id)

/-- A unique constraint waits for the end of the other transaction. -/
def waits (entity : Entity) (row : Row) : Bool :=
  match uniqueColumn entity with
  | none => false
  | some name => (state.own (!party) entity).rows.any fun other =>
      other.enterpriseId = row.enterpriseId ∧ other.col name = row.col name

def proceed : Except Error Phase → State
  | .error _ => state.abort party
  | .ok phase => state.enter party phase

def flush (entity : Entity) (phase : Phase) : Except Error Row → State
  | .error _ => state.abort party
  | .ok row => if state.waits party entity row then state else state.put party entity row phase

end State

/-- One statement of a transaction, with the code up to the next; a statement
that has to wait for the other transaction leaves the state as it is. -/
def advance (call : SyncCall) (state : State) (party : Bool) (id : Uuid) : State :=
  match state.phase party with
  | .ended _ => state
  | .ready => state.proceed party ((outcome (begin call (state.view party))).map .next)
  | .next work =>
      match work.records with
      | [] => state.commit party
      | (entity, record) :: rest => state.proceed party (work.take entity record rest)
  | .resolving work entity _ acc [] => state.enter party (work.accept entity acc)
  | .resolving work entity attrs acc (reference :: rest) =>
      state.proceed party ((outcome (resolveOne work.context.enterpriseId entity attrs acc reference
        (state.view party))).map fun acc => .resolving work entity attrs acc rest)
  | .looking work entity resolved =>
      state.proceed party ((outcome (lookupRow work.context entity resolved (state.view party))).map
        (.writing work entity resolved))
  | .writing work entity resolved none =>
      if state.taken party entity id then state
      else state.flush party entity (.next work) (outcome (newRow work entity resolved id (state.view party)))
  | .writing work entity resolved (some existing) =>
      if state.locked party entity existing.id then state
      else state.flush party entity (.next work) (outcome (changedRow work entity resolved existing (state.view party)))

def step (calls : Bool → SyncCall) (state : State) : Event → State
  | .run party id => advance (calls party) state party id
  | .abort party =>
      match state.phase party with
      | .ended _ => state
      | _ => state.abort party

/-! ## What is awaited -/

/-- A transaction that has found no row is about to insert one.  Where a unique
constraint guards the table, nothing depends on it. -/
def Phase.awaited (entity : Entity) : Phase → Option Identity
  | .writing work written resolved none =>
      if written = entity ∧ uniqueColumn entity = none then
        some (Accepted.identity ⟨written, work.context.enterpriseId, coerced written resolved⟩)
      else none
  | _ => none

def State.shared (state : State) (entity : Entity) : Shared Row Identity where
  committed := state.committed.canonical entity
  own party := state.own party entity
  awaited party := (state.phase party).awaited entity

/-- The enterprise that an upsert moves the row to, if it does. -/
def movedTo (existing : Row) (resolved : Dict Raw) : Option Uuid :=
  match resolved.lookup "enterprise_id" with
  | none => none
  | some raw =>
      match bindUuid "enterprise_id" (.ofRaw raw) with
      | .ok (some enterpriseId) => if enterpriseId = existing.enterpriseId then none else some enterpriseId
      | _ => none

/-- A lookup that finds no row does not miss one that the other has written or awaits. -/
def MissesNone (state : State) (party : Bool) (work : Work) (entity : Entity) (resolved : Dict Raw) : Prop :=
  let identity := Accepted.identity ⟨entity, work.context.enterpriseId, coerced entity resolved⟩
  (∀ row ∈ (state.seen party entity).rows, identityOf entity row ≠ identity) →
    Untouched (candidateKey entity) (state.shared entity) party identity

/-- A row that moves to another enterprise meets no row with its identity there. -/
def MeetsNone (state : State) (party : Bool) (entity : Entity) (resolved : Dict Raw) (existing : Row) : Prop :=
  ∀ enterpriseId ∈ movedTo existing resolved, ∀ current ∈ (state.seen party entity).rows, current.id = existing.id →
    let identity := (enterpriseId, (specs entity).identity.map current.col)
    (∀ row ∈ (state.seen party entity).rows, identityOf entity row = identity → row.id = current.id) ∧
      Untouched (candidateKey entity) (state.shared entity) party identity

/-- The transactions do not meet in a table without a unique constraint. -/
def Separate (state : State) : Event → Prop
  | .abort _ => True
  | .run party _ =>
      match state.phase party with
      | .looking work entity resolved => uniqueColumn entity = none → MissesNone state party work entity resolved
      | .writing _ entity resolved (some existing) =>
          uniqueColumn entity = none → MeetsNone state party entity resolved existing
      | _ => True

section Decidable

variable (state : State) (party : Bool) (work : Work) (entity : Entity) (resolved : Dict Raw) (existing : Row)

instance : Decidable (MissesNone state party work entity resolved) := by
  unfold MissesNone
  infer_instance

instance : Decidable (MeetsNone state party entity resolved existing) := by
  unfold MeetsNone
  infer_instance

instance : (event : Event) → Decidable (Separate state event)
  | .abort _ => .isTrue trivial
  | .run party _ => by
      simp only [Separate]
      split <;> infer_instance

end Decidable

/-- Everything that is or may be committed is settled and told apart. -/
structure Invariant (state : State) : Prop where
  exclusive : ∀ entity, Exclusive (candidateKey entity) (state.shared entity)
  committed : ∀ entity, ∀ row ∈ (state.committed.canonical entity).rows, Settled entity row
  own : ∀ party entity, ∀ row ∈ (state.own party entity).rows, Settled entity row

/-! ## The moves of a transaction -/

section Moves

variable {state : State} {party : Bool} {phase : Phase} {entity : Entity} {row stored existing : Row} {work : Work}
variable {resolved : Dict Raw} {view : DB} {id : Uuid}

theorem Invariant.seen (invariant : Invariant state) (party : Bool) (entity : Entity) :
    ∀ row ∈ (state.seen party entity).rows, Settled entity row := by
  intro row member
  rcases Table.mem_overlay.mp member with isOwn | ⟨isCommitted, _⟩
  · exact invariant.own party entity row isOwn
  · exact invariant.committed entity row isCommitted

theorem awaited_update (phase : Phase) (entity : Entity) :
    (fun other => (Function.update state.phase party phase other).awaited entity) =
      Function.update (fun other => (state.phase other).awaited entity) party (phase.awaited entity) :=
  Function.comp_update (Phase.awaited entity) state.phase party phase

theorem own_update (tables : Entity → Table Row) (entity : Entity) :
    (fun other => Function.update state.own party tables other entity) =
      Function.update (fun other => state.own other entity) party (tables entity) :=
  Function.comp_update (fun tables : Entity → Table Row => tables entity) state.own party tables

theorem shared_enter (entity : Entity) :
    (state.enter party phase).shared entity = (state.shared entity).await party (phase.awaited entity) :=
  congrArg (fun awaited => (⟨_, _, awaited⟩ : Shared Row Identity)) (awaited_update phase entity)

theorem Invariant.enter (invariant : Invariant state) (party : Bool) (idle : ∀ entity, phase.awaited entity = none) :
    Invariant (state.enter party phase) where
  exclusive entity := by
    rw [shared_enter, idle entity]
    exact (invariant.exclusive entity).release party
  committed := invariant.committed
  own := invariant.own

theorem shared_finish (canonical : Entity → Table Row) (committed : Bool) (entity : Entity) :
    (state.finish party canonical committed).shared entity =
      (state.shared entity).finish party (canonical entity) :=
  congrArg₂ (fun own awaited => (⟨canonical entity, own, awaited⟩ : Shared Row Identity))
    (own_update (fun _ => .empty) entity) (awaited_update (.ended committed) entity)

theorem own_finish {canonical : Entity → Table Row} {committed other : Bool}
    (member : row ∈ ((state.finish party canonical committed).own other entity).rows) :
    row ∈ (state.own other entity).rows := by
  simp only [State.finish] at member
  by_cases same : other = party
  · subst same
    rw [Function.update_self] at member
    exact absurd member List.not_mem_nil
  · rwa [Function.update_of_ne same] at member

theorem Invariant.abort (invariant : Invariant state) (party : Bool) : Invariant (state.abort party) where
  exclusive entity := by
    rw [State.abort, shared_finish]
    exact (invariant.exclusive entity).abort party
  committed := invariant.committed
  own other entity row member := invariant.own other entity row (own_finish member)

theorem Invariant.commit (invariant : Invariant state) (party : Bool) : Invariant (state.commit party) where
  exclusive entity := by
    rw [State.commit, shared_finish]
    exact (invariant.exclusive entity).commit party
  committed := invariant.seen party
  own other entity row member := invariant.own other entity row (own_finish member)

theorem Invariant.proceed (invariant : Invariant state) (party : Bool) {result : Except Error Phase}
    (idle : ∀ phase, result = .ok phase → ∀ entity, phase.awaited entity = none) :
    Invariant (state.proceed party result) := by
  cases result with
  | error reason => exact invariant.abort party
  | ok phase => exact invariant.enter party (idle phase rfl)

theorem shared_put (other : Entity) :
    (state.put party entity row (.next work)).shared other =
      if other = entity then (state.shared entity).write party row
      else (state.shared other).await party none := by
  have own : (fun p => Function.update state.own party (Function.update (state.own party) entity
        ((state.own party entity).put row)) p other) = _ := own_update _ other
  by_cases same : other = entity
  · subst same
    rw [Function.update_self] at own
    rw [if_pos rfl]
    exact congrArg₂ (fun own awaited => (⟨state.committed.canonical other, own, awaited⟩ : Shared Row Identity)) own
      (awaited_update (.next work) other)
  · rw [Function.update_of_ne same, Function.update_eq_self] at own
    rw [if_neg same]
    exact congrArg₂ (fun own awaited => (⟨state.committed.canonical other, own, awaited⟩ : Shared Row Identity)) own
      (awaited_update (.next work) other)

theorem Invariant.put (invariant : Invariant state) (settled : Settled entity row)
    (exclusive : Exclusive (candidateKey entity) ((state.shared entity).write party row)) :
    Invariant (state.put party entity row (.next work)) where
  exclusive other := by
    rw [shared_put]
    by_cases same : other = entity
    · subst same
      rwa [if_pos rfl]
    · rw [if_neg same]
      exact (invariant.exclusive other).release party
  committed := invariant.committed
  own := by
    intro p other old member
    simp only [State.put] at member
    by_cases isParty : p = party
    · subst isParty
      rw [Function.update_self] at member
      by_cases same : other = entity
      · subst same
        rw [Function.update_self] at member
        rcases Table.mem_put.mp member with rfl | ⟨earlier, _⟩
        · exact settled
        · exact invariant.own p other old earlier
      · rw [Function.update_of_ne same] at member
        exact invariant.own p other old member
    · rw [Function.update_of_ne isParty] at member
      exact invariant.own p other old member

end Moves

/-! ## The statements -/

section Statements

variable {work : Work} {context : SyncContext} {entity : Entity} {resolved : Dict Raw} {id : Uuid}
variable {stored existing : Row} {found : Option Row} {before after : DB}

theorem lookupRow_none (ran : lookupRow context entity resolved before = .ok none after) :
    ∀ row ∈ (before.canonical entity).rows, candidateKey entity row ≠
      some (Accepted.identity ⟨entity, context.enterpriseId, coerced entity resolved⟩) := by
  simp only [lookupRow, bind_eq_ok, lift_eq_ok, scalarOrNone_eq_ok] at ran
  obtain ⟨identity, _, ⟨identified, rfl⟩, single, rfl⟩ := ran
  have nobody := scalarOneOrNone_ok single
  rw [filter_hasIdentity identified] at nobody
  intro row member
  simpa using List.filter_eq_nil_iff.mp nobody row member

theorem storeRow_unique {row : Row} (kept : storeRow before entity row = .ok stored) :
    duplicates before entity stored = false := by
  unfold storeRow at kept
  split at kept
  · cases kept
  · simp only [except_bind_eq_ok] at kept
    obtain ⟨columns, _, kept⟩ := kept
    split at kept
    · cases kept
    · next unique =>
      obtain rfl := except_pure_eq_ok.mp kept
      exact Bool.eq_false_iff.mpr unique

theorem newRow_ok (ran : newRow work entity resolved id before = .ok stored after) :
    Inserted ⟨entity, work.context.enterpriseId, coerced entity resolved⟩ id stored ∧
      duplicates before entity stored = false := by
  simp only [newRow, bind_eq_ok, lift_eq_ok, read_eq_ok] at ran
  obtain ⟨row, _, ⟨constructed, rfl⟩, _, _, ⟨rfl, rfl⟩, kept, rfl⟩ := ran
  exact ⟨storeRow_inserted constructed kept, storeRow_unique kept⟩

/-- The row that an update leaves of the current version. -/
structure Changed (entity : Entity) (resolved : Dict Raw) (existing current stored : Row) : Prop where
  id : stored.id = existing.id
  identity : Settled entity current → (specs entity).identity.map stored.col = (specs entity).identity.map current.col
  settled : Settled entity current → Settled entity stored
  owner : stored.enterpriseId = (movedTo existing resolved).getD current.enterpriseId

theorem changedRow_ok (ran : changedRow work entity resolved existing before = .ok stored after) :
    ∃ current ∈ (before.canonical entity).rows, current.id = existing.id ∧
      Changed entity resolved existing current stored ∧ duplicates before entity stored = false := by
  simp only [changedRow, bind_eq_ok, lift_eq_ok, read_eq_ok] at ran
  obtain ⟨_, middle, diffed, changed, _, ⟨assigned, rfl⟩, found, _, ⟨rfl, rfl⟩, ran⟩ := ran
  have canonical := (diffSignal_ok diffed).canonical
  have assigned := assignAttrs_ok assigned
  cases current : (middle.canonical entity).find? existing.id with
  | none => simp [current] at ran
  | some row =>
      simp only [current, bind_eq_ok, lift_eq_ok, read_eq_ok] at ran
      obtain ⟨_, _, ⟨rfl, rfl⟩, kept, rfl⟩ := ran
      obtain ⟨member, sameId⟩ := Table.find?_some current
      rw [canonical] at member
      have unique := storeRow_unique kept
      have sameUnique : duplicates middle entity stored = duplicates before entity stored := by
        unfold duplicates
        rw [canonical]
      have untouched {name : String} (same : changed.col name = existing.col name) :
          (overwrite existing { changed with
            sourceProvenance := some (work.provenance entity), observability := .fresh } row).col name = row.col name :=
        if_pos same
      refine ⟨row, member, sameId, ⟨(storeRow_ok kept).2.1.id.trans sameId, fun settled => ?_, fun settled => ?_, ?_⟩,
        sameUnique.symm.trans unique⟩
      · refine List.map_congr_left fun name listed => ?_
        obtain ⟨column, own, _⟩ := identity_column listed
        simp only [storeRow_col kept, own, untouched (assigned.identity name listed), settled.still own]
      · refine storeRow_settled kept fun name foreign => ?_
        rw [untouched (assigned.foreign name foreign)]
        exact settled.others name foreign
      · rw [(storeRow_ok kept).2.1.enterprise]
        simp only [overwrite, movedTo]
        cases given : resolved.lookup "enterprise_id" with
        | none =>
            have stays := assigned.sameEnterprise (by rw [lookup_coerced_enterprise, given]; rfl)
            simp [stays]
        | some raw =>
            have moved := assigned.otherEnterprise (.ofRaw raw) (by rw [lookup_coerced_enterprise, given]; rfl)
            simp only [moved]
            by_cases same : changed.enterpriseId = existing.enterpriseId
            · simp [same]
            · simp [same]

end Statements

/-! ## Every step -/

section Steps

variable {calls : Bool → SyncCall} {state : State} {party : Bool} {entity : Entity} {row : Row} {id : Uuid}

/-- Where a unique constraint guards the table, no condition is needed. -/
theorem Invariant.write_constrained (invariant : Invariant state) {name : String}
    (constrained : uniqueColumn entity = some name)
    (unlocked : ∀ other ∈ (state.own (!party) entity).rows, other.id ≠ row.id)
    (unique : duplicates (state.view party) entity row = false) (free : state.waits party entity row = false) :
    Exclusive (candidateKey entity) ((state.shared entity).write party row) := by
  have sameIdentity {other : Row} {identity : Identity} (rowHas : candidateKey entity row = some identity)
      (otherHas : candidateKey entity other = some identity) :
      other.enterpriseId = row.enterpriseId ∧ other.col name = row.col name := by
    have same := Option.some.inj (otherHas.trans rowHas.symm)
    simp only [identityOf, identity_of_unique constrained, List.map_cons, List.map_nil, Prod.mk.injEq,
      List.cons.injEq, and_true] at same
    exact same
  refine (invariant.exclusive entity).write unlocked fun identity rowHas => ⟨fun other member otherHas => ?_,
    fun other member otherHas => ?_, ?_⟩
  · by_contra different
    simp only [duplicates, constrained, List.any_eq_false, decide_eq_true_eq] at unique
    exact unique other member ⟨different, sameIdentity rowHas otherHas⟩
  · simp only [State.waits, constrained, List.any_eq_false, decide_eq_true_eq] at free
    exact free other member (sameIdentity rowHas otherHas)
  · change (state.phase !party).awaited entity ≠ some identity
    unfold Phase.awaited
    split
    · rw [if_neg]
      · exact (Option.some_ne_none identity).symm
      · rintro ⟨rfl, unguarded⟩
        rw [constrained] at unguarded
        cases unguarded
    · exact (Option.some_ne_none identity).symm

theorem Invariant.flush (invariant : Invariant state) {work : Work} {result : Except Error Row}
    (unlocked : ∀ stored, result = .ok stored → ∀ other ∈ (state.own (!party) entity).rows, other.id ≠ stored.id)
    (settled : ∀ stored, result = .ok stored → Settled entity stored)
    (unique : ∀ stored, result = .ok stored → duplicates (state.view party) entity stored = false)
    (unguarded : ∀ stored, result = .ok stored → uniqueColumn entity = none →
      Exclusive (candidateKey entity) ((state.shared entity).write party stored)) :
    Invariant (state.flush party entity (.next work) result) := by
  cases result with
  | error reason => exact invariant.abort party
  | ok stored =>
      simp only [State.flush]
      split
      · exact invariant
      · next free =>
        refine invariant.put (settled stored rfl) ?_
        cases constrained : uniqueColumn entity with
        | some name =>
            exact invariant.write_constrained constrained (unlocked stored rfl) (unique stored rfl)
              (Bool.eq_false_iff.mpr free)
        | none => exact unguarded stored rfl constrained

theorem Invariant.inserted (invariant : Invariant state) {work : Work} {resolved : Dict Raw}
    (available : state.taken party entity id = false) (phase : state.phase party = .writing work entity resolved none) :
    Invariant (state.flush party entity (.next work) (outcome (newRow work entity resolved id (state.view party)))) := by
  have facts {stored : Row} (flushed : outcome (newRow work entity resolved id (state.view party)) = .ok stored) :
      Inserted ⟨entity, work.context.enterpriseId, coerced entity resolved⟩ id stored ∧
        duplicates (state.view party) entity stored = false := by
    obtain ⟨after, ran⟩ := outcome_eq_ok flushed
    exact newRow_ok ran
  have fresh {stored : Row} (flushed : outcome (newRow work entity resolved id (state.view party)) = .ok stored) :
      ∀ other ∈ (state.own (!party) entity).rows, other.id ≠ stored.id := by
    intro other member same
    simp only [State.taken, List.any_eq_false, decide_eq_true_eq] at available
    exact available other (List.mem_append_right _ member) (same.trans (facts flushed).1.id)
  refine invariant.flush (fun stored => fresh) (fun stored flushed => (facts flushed).1.settled)
    (fun stored flushed => (facts flushed).2) fun stored flushed unguarded => ?_
  refine (invariant.exclusive entity).insert ?_ (congrArg some (facts flushed).1.identity) (fresh flushed)
  change (state.phase party).awaited entity = _
  rw [phase, Phase.awaited, if_pos ⟨rfl, unguarded⟩]

theorem Invariant.updated (invariant : Invariant state) {work : Work} {resolved : Dict Raw} {existing : Row}
    (unlocked : state.locked party entity existing.id = false)
    (separate : uniqueColumn entity = none → MeetsNone state party entity resolved existing) :
    Invariant (state.flush party entity (.next work)
      (outcome (changedRow work entity resolved existing (state.view party)))) := by
  have facts {stored : Row} (flushed : outcome (changedRow work entity resolved existing (state.view party)) = .ok stored) :
      ∃ current ∈ (state.seen party entity).rows, current.id = existing.id ∧
        Changed entity resolved existing current stored ∧ duplicates (state.view party) entity stored = false := by
    obtain ⟨after, ran⟩ := outcome_eq_ok flushed
    exact changedRow_ok ran
  have others {stored : Row} (flushed : outcome (changedRow work entity resolved existing (state.view party)) = .ok stored) :
      ∀ other ∈ (state.own (!party) entity).rows, other.id ≠ stored.id := by
    intro other member same
    obtain ⟨current, _, _, changed, _⟩ := facts flushed
    simp only [State.locked, List.any_eq_false, decide_eq_true_eq] at unlocked
    exact unlocked other member (same.trans changed.id)
  refine invariant.flush (fun stored => others) (fun stored flushed => ?_) (fun stored flushed => ?_)
    fun stored flushed unguarded => ?_
  · obtain ⟨current, member, _, changed, _⟩ := facts flushed
    exact changed.settled (invariant.seen party entity current member)
  · obtain ⟨_, _, _, _, unique⟩ := facts flushed
    exact unique
  · obtain ⟨current, member, sameId, changed, _⟩ := facts flushed
    have identity := changed.identity (invariant.seen party entity current member)
    have sameKey : stored.id = current.id := changed.id.trans sameId.symm
    cases moved : movedTo existing resolved with
    | none =>
        have owner := changed.owner
        rw [moved, Option.getD_none] at owner
        exact (invariant.exclusive entity).replace member (others flushed) sameKey
          (congrArg some (Prod.ext owner identity))
    | some enterpriseId =>
        have owner := changed.owner
        rw [moved, Option.getD_some] at owner
        have isIdentity : identityOf entity stored = (enterpriseId, (specs entity).identity.map current.col) :=
          Prod.ext owner identity
        obtain ⟨free, untouched⟩ := separate unguarded enterpriseId moved current member sameId
        refine (invariant.exclusive entity).write (others flushed) fun value has => ?_
        obtain rfl := Option.some.inj ((congrArg some isIdentity).symm.trans has)
        refine ⟨fun row rowMember rowHas => ?_, untouched⟩
        exact (free row rowMember (Option.some.inj rowHas)).trans sameKey.symm

theorem take_idle {work : Work} {record : Record} {rest : List (Entity × Record)} {phase : Phase}
    (taken : work.take entity record rest = .ok phase) (other : Entity) : phase.awaited other = none := by
  simp only [Work.take, except_bind_eq_ok] at taken
  obtain ⟨attrs, _, taken⟩ := taken
  split at taken
  · obtain rfl := except_pure_eq_ok.mp taken
    rfl
  · obtain rfl := except_pure_eq_ok.mp taken
    rfl

theorem accept_idle (work : Work) (entity : Entity) (acc : Resolution) (other : Entity) :
    (work.accept entity acc).awaited other = none := by
  unfold Work.accept
  split
  · rfl
  · split
    · rfl
    · rfl

/-- A call that finds no row waits to insert one. -/
theorem Invariant.missed (invariant : Invariant state) {work : Work} {resolved : Dict Raw} {after : DB}
    (ran : lookupRow work.context entity resolved (state.view party) = .ok none after)
    (separate : uniqueColumn entity = none → MissesNone state party work entity resolved) :
    Invariant (state.enter party (.writing work entity resolved none)) := by
  refine ⟨fun other => ?_, invariant.committed, invariant.own⟩
  rw [shared_enter]
  by_cases same : entity = other ∧ uniqueColumn other = none
  · obtain ⟨rfl, unguarded⟩ := same
    rw [Phase.awaited, if_pos ⟨rfl, unguarded⟩]
    have missing := lookupRow_none ran
    exact (invariant.exclusive entity).look missing
      (separate unguarded fun row member same => missing row member (congrArg some same))
  · rw [Phase.awaited, if_neg same]
    exact (invariant.exclusive other).release party

theorem Invariant.advance (invariant : Invariant state) (call : SyncCall) (party : Bool) (id : Uuid)
    (separate : Separate state (.run party id)) : Invariant (Concurrent.advance call state party id) := by
  unfold Concurrent.advance
  simp only [Separate] at separate
  cases phase : state.phase party with
  | ended _ => exact invariant
  | ready =>
      refine invariant.proceed party fun phase began entity => ?_
      obtain ⟨work, _, rfl⟩ := except_map_eq_ok.mp began
      rfl
  | next work =>
      cases records : work.records with
      | nil =>
          simp only [records]
          exact invariant.commit party
      | cons first rest =>
          simp only [records]
          exact invariant.proceed party fun phase taken => take_idle taken
  | resolving work entity attrs acc references =>
      cases references with
      | nil => exact invariant.enter party (accept_idle work entity acc)
      | cons reference rest =>
          refine invariant.proceed party fun phase resolved other => ?_
          obtain ⟨acc, _, rfl⟩ := except_map_eq_ok.mp resolved
          rfl
  | looking work entity resolved =>
      simp only [phase] at separate ⊢
      cases looked : outcome (lookupRow work.context entity resolved (state.view party)) with
      | error reason => exact invariant.abort party
      | ok existing =>
          change Invariant (state.enter party (.writing work entity resolved existing))
          cases existing with
          | some row => exact invariant.enter party fun _ => rfl
          | none =>
              obtain ⟨after, ran⟩ := outcome_eq_ok looked
              exact invariant.missed ran separate
  | writing work entity resolved existing =>
      simp only [phase] at separate ⊢
      cases existing with
      | none =>
          simp only
          split
          · exact invariant
          · next available => exact invariant.inserted (by simpa using available) phase
      | some existing =>
          simp only
          split
          · exact invariant
          · next unlocked => exact invariant.updated (by simpa using unlocked) (separate ·)

theorem Invariant.step (invariant : Invariant state) (event : Event) (separate : Separate state event) :
    Invariant (Concurrent.step calls state event) := by
  cases event with
  | run party id => exact invariant.advance (calls party) party id separate
  | abort party =>
      simp only [Concurrent.step]
      split
      · exact invariant
      · exact invariant.abort party

theorem Invariant.start {initial : DB} (mapped : Mapped initial) : Invariant (.start initial) where
  exclusive entity := Exclusive.start (initial.canonical entity) (mapped.unique entity)
  committed := mapped.settled
  own _ _ _ member := absurd member List.not_mem_nil

theorem Invariant.mapped (invariant : Invariant state) : Mapped state.committed :=
  ⟨fun entity => (invariant.exclusive entity).committed, invariant.committed⟩

end Steps

/-! ## Runs -/

/-- Identities are unique, and a later sync that moves no row to an enterprise comes
to no ambiguous lookup. -/
structure Unambiguous (db : DB) : Prop where
  unique : ∀ entity, Unique (candidateKey entity) (db.canonical entity)
  lookup : ∀ (call : SyncCall) (step : RecordStep), Tenantless (confirmedMappings call.dataSourceId db) →
    call.Reaches db step → ∀ entity enterpriseId attrs identity, identityValues entity attrs = .ok identity →
      ∃ found, scalarOrNone (fun db => (db.canonical entity).rows.filter (hasIdentity enterpriseId identity))
        step.db = .ok found step.db

theorem unambiguous_of_mapped {db : DB} (mapped : Mapped db) : Unambiguous db where
  unique := mapped.unique
  lookup _ _ tenantless reached _ _ _ _ identified :=
    (SyncCall.Reaches.mapped tenantless mapped reached).lookup identified

/-- What two transactions commit, whatever the order of their statements. -/
theorem unambiguous_of_separate (calls : Bool → SyncCall) (initial : DB) (events : List Event) (mapped : Mapped initial)
    (separate : Along (step calls) Separate (.start initial) events) :
    Unambiguous (events.foldl (step calls) (.start initial)).committed := by
  have invariant : Invariant (events.foldl (step calls) (.start initial)) :=
    separate.invariant (Invariant.start mapped) fun _ event holds meets => holds.step event meets
  exact unambiguous_of_mapped invariant.mapped

/-! ## Two sheets of one stock -/

/-- The items of the enterprise come from a sheet. -/
def itemSheet : DB :=
  { sheetWithSource with fieldMapping := Table.empty.insert (confirmedMapping "sku" .item "sku") }

def stockMappings (dataSourceId : Uuid) : List FieldMapping := [
  { confirmedMapping "sku" .stockLevel "item_sku" with dataSourceId },
  { confirmedMapping "qty" .stockLevel "quantity" with dataSourceId }]

/-- Their stock comes from two. -/
def twoSheets : DB :=
  { (sheetCall 1 "10").commit itemSheet with
    dataSource := (Table.empty.insert (newSource 1 stockSheet none)).insert (newSource 1 stockSheet none)
    fieldMapping := (stockMappings 1 ++ stockMappings 2).foldl Table.insert .empty }

def sheetCalls (party : Bool) : SyncCall :=
  { sheetCall 2 "10" with dataSourceId := if party then 2 else 1 }

def alone (party : Bool) (id : Uuid) (statements : Nat) : List Event := List.replicate statements (.run party id)

theorem twoSheets_mapped : Mapped twoSheets := by
  have names : NamesColumns itemSheet := by
    unfold NamesColumns
    decide +kernel
  have mapped := ((sheetCall 1 "10").commit_supplies names (⟨fun _ => unique_empty, fun _ _ => nofun⟩ : Mapped itemSheet)).1
  exact ⟨mapped.unique, mapped.settled⟩

/-- One transaction after the other, the second updates the row of the first. -/
theorem unambiguous_twoSheets :
    let final := (alone false 1 8 ++ alone true 2 8).foldl (step sheetCalls) (.start twoSheets)
    (final.committed.canonical .stockLevel).rows.length = 1 ∧ Unambiguous final.committed :=
  ⟨by decide +kernel, unambiguous_of_separate _ _ _ twoSheets_mapped (by decide +kernel)⟩

/-- Both look the stock of the bolt up before either has inserted it; a third sync fails. -/
theorem interleaved_lookups_duplicate :
    let final := (alone false 1 6 ++ alone true 2 6 ++ alone false 1 2 ++ alone true 2 2).foldl (step sheetCalls)
      (.start twoSheets)
    (∀ party, final.phase party matches .ended true) ∧ ¬ Unambiguous final.committed ∧
      outcome ((sheetCall 3 "10").session final.committed) matches .error .multipleResultsFound := by
  refine ⟨by decide +kernel, fun unambiguous => ?_, by decide +kernel⟩
  have single := (unambiguous.unique .stockLevel).filter_length (1, [.uuid 1, .null])
  exact absurd single (by decide +kernel)

end SmartProcurement.Integration.Concurrent
