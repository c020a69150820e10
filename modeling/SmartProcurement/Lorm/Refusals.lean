import SmartProcurement.Lorm.PromotionHistory
import SmartProcurement.Relational.Identity

namespace SmartProcurement.Lorm

open Relational Transaction

/-! # Refused calls

A call is refused before it writes.  The refusal of a target names the level
above the one that earlier promotions have reached, and above the highest there is
none.  A text with a NUL passes the service and stops at the driver.
-/

def Call.run : Call → Session PUnit
  | .createPromotionRequest enterpriseId key proposedToLevel rationale createdBy => do
      let _ ← Lorm.createPromotionRequest enterpriseId key proposedToLevel rationale createdBy
  | .approvePromotion now enterpriseId requestId decidedBy => do
      let _ ← Lorm.approvePromotion now enterpriseId requestId decidedBy
  | .rejectPromotion now enterpriseId requestId decidedBy => do
      let _ ← Lorm.rejectPromotion now enterpriseId requestId decidedBy

/-- The errors by which the service refuses a call. -/
def Declared : Error → Prop
  | .notFound _ | .conflict _ | .domainRule _ => True
  | _ => False

/-- The call returns, or it raises a declared error and has written nothing. -/
def Clean (db : Tables) (call : Call) : Prop :=
  ∀ reason after, call.run db = .error reason after → Declared reason ∧ after = db

/-- The call checks a level against a capability that stands at the top. -/
def ChecksAtTop (db : Tables) : Call → Prop
  | .createPromotionRequest enterpriseId key proposedToLevel _ _ =>
      (level? proposedToLevel).isSome = true ∧
        ∃ cap ∈ db.capability.rows, cap.enterpriseId = enterpriseId ∧ cap.key = key ∧ cap.level = .l5
  | .approvePromotion _ enterpriseId requestId _ =>
      ∃ req ∈ db.promotionRequest.rows, req.id = requestId ∧ req.enterpriseId = enterpriseId ∧ req.status = .pending ∧
        ∃ cap ∈ db.capability.rows, cap.id = req.capabilityId ∧ cap.level = .l5
  | .rejectPromotion _ _ _ _ => False

/-- The call gives the database a text that it does not take: the key that it looks for, or
the rationale of a request that is about to be added. -/
def BindsNul (db : Tables) : Call → Prop
  | .createPromotionRequest enterpriseId key proposedToLevel rationale _ =>
      storableText key = false ∨
        storableText rationale = false ∧
          ∃ cap ∈ db.capability.rows, cap.enterpriseId = enterpriseId ∧ cap.key = key ∧
            ∃ level, level? proposedToLevel = some level ∧ NextLevel cap level
  -- approving writes the stored rationale again
  | .approvePromotion _ _ _ _ | .rejectPromotion _ _ _ _ => False

/-! ## Keys -/

def Capability.identity (cap : Capability) : Option (Uuid × String) := some (cap.enterpriseId, cap.key)

/-- An enterprise has one capability of a key. -/
def UniqueKeys (db : Tables) : Prop := Unique Capability.identity db.capability

section Keys

variable {before after : Tables} {enterpriseId : Uuid} {created : Nat}

theorem seeds_uniqueKeys {seeds : List (String × Level × Bool)} (distinct : (seeds.map (·.1)).Nodup)
    (missing : ∀ seed ∈ seeds, ∀ cap ∈ before.capability.rows, cap.identity ≠ some (enterpriseId, seed.1))
    (unique : UniqueKeys before)
    (ran : (seeds.forM fun (key, level, l5Allowed) => write fun db => { db with
      capability := db.capability.insert { id := 0, enterpriseId, key, level, l5Allowed } } : Session PUnit) before =
        .ok ⟨⟩ after) : UniqueKeys after := by
  induction seeds generalizing before with
  | nil =>
      obtain ⟨_, rfl⟩ := pure_eq_ok.mp ran
      exact unique
  | cons seed rest ih =>
      obtain ⟨_, middle, first, ran⟩ := bind_eq_ok.mp ran
      obtain rfl := write_eq_ok.mp first
      rw [List.map_cons, List.nodup_cons] at distinct
      refine ih distinct.2 (fun other otherMember cap member => ?_) ?_ ran
      · rcases List.mem_append.mp member with old | added
        · exact missing other (List.mem_cons_of_mem _ otherMember) cap old
        · rw [List.mem_singleton.mp added]
          intro same
          have sameKey : seed.1 = other.1 := (Prod.mk.inj (Option.some.inj same)).2
          exact distinct.1 (sameKey ▸ List.mem_map_of_mem otherMember)
      · refine unique.insert fun cap member key same => ?_
        rw [← same]
        exact missing seed List.mem_cons_self cap member

theorem seedCapabilities_uniqueKeys (unique : UniqueKeys before)
    (ran : seedCapabilities enterpriseId before = .ok created after) : UniqueKeys after := by
  simp only [seedCapabilities, bind_eq_ok, read_eq_ok, pure_eq_ok] at ran
  obtain ⟨_, _, ⟨rfl, rfl⟩, ⟨⟩, _, inserted, _, rfl⟩ := ran
  have distinct : (seedLevels.map (·.1)).Nodup := by decide
  refine seeds_uniqueKeys (distinct.sublist (List.filter_sublist.map _)) (fun seed listed cap member same => ?_) unique inserted
  obtain ⟨own, key⟩ := Prod.mk.inj (Option.some.inj same)
  have absent := of_decide_eq_true (List.mem_filter.mp listed).2
  exact absent (List.mem_map.mpr ⟨cap, List.mem_filter.mpr ⟨member, decide_eq_true own⟩, key⟩)

theorem seeded_uniqueKeys (enterprises : List Uuid) : UniqueKeys (seeded enterprises) := by
  unfold seeded
  have start : UniqueKeys .empty := unique_empty
  generalize Tables.empty = db at start ⊢
  induction enterprises generalizing db with
  | nil => exact start
  | cons first rest ih =>
      exact ih _ (transact_preserves start fun _ _ ran => seedCapabilities_uniqueKeys start ran)

theorem Committed.uniqueKeys (committed : Committed before after) (unique : UniqueKeys before) : UniqueKeys after := by
  cases committed with
  | refused => exact unique
  | requested req pending => exact unique
  | approved approvable => exact unique.update fun _ => rfl
  | rejected stored pending => exact unique

theorem commitAll_uniqueKeys (calls : List Call) (unique : UniqueKeys before) : UniqueKeys (commitAll calls before) := by
  induction calls generalizing before with
  | nil => exact unique
  | cons call rest ih => exact ih ((call.committed before).uniqueKeys unique)

end Keys

/-! ## What is raised -/

section Errors

variable {before after : Tables} {now : Timestamp} {enterpriseId requestId decidedBy capabilityId : Uuid} {reason : Error}
variable {cap : Capability} {req : PromotionRequest} {key target : String}

theorem selectOne_of_length_le {α : Type} (query : Tables → List α) (single : (query before).length ≤ 1) :
    selectOne query before = .ok (query before).head? before := by
  rw [selectOne, bind_of_ok (read_eq_ok.mpr ⟨rfl, rfl⟩)]
  exact lift_eq_ok.mpr ⟨scalarOneOrNone_of_length_le _ single, rfl⟩

/-- What a query by a key yields, and what the service makes of it. -/
theorem selectOne_cases {α : Type} (query : Tables → List α) (single : (query before).length ≤ 1) :
    (∃ row ∈ query before, selectOne query before = .ok (some row) before) ∨
      (query before = [] ∧ selectOne query before = .ok none before) := by
  rw [selectOne_of_length_le query single]
  cases head : (query before).head? with
  | none => exact .inr ⟨List.head?_eq_none_iff.mp head, rfl⟩
  | some row => exact .inl ⟨row, List.mem_of_head? head, rfl⟩

theorem wrongStep_declared (level : Level) : Declared (wrongStep level) ↔ level ≠ .l5 := by
  cases level <;> simp [wrongStep, levels, Level.index, Declared]

/-- The check of a target raises a declared error unless it looks above the top. -/
theorem validateTarget_declared :
    (∀ reason, validateTarget cap target = .error reason → Declared reason) ↔
      ¬ ((level? target).isSome = true ∧ cap.level = .l5) := by
  unfold validateTarget
  cases found : level? target with
  | none => simp [Declared]
  | some level =>
      by_cases top : cap.level = .l5
      · have wrong : level.index ≠ cap.level.index + 1 := by rw [top]; cases level <;> decide
        refine iff_of_false (fun declared => ?_) (not_not.mpr ⟨rfl, top⟩)
        exact (wrongStep_declared cap.level).mp (declared _ (if_pos wrong)) top
      · have declared := (wrongStep_declared cap.level).mpr top
        simp only [Option.isSome_some, top, and_false, not_false_eq_true, iff_true]
        intro reason raised
        split at raised
        · cases raised
          exact declared
        · split at raised
          · cases raised
            trivial
          · cases raised

theorem getCapability_cases (unique : UniqueKeys before) (enterpriseId : Uuid) {key : String}
    (storable : storableText key = true) :
    (∃ cap ∈ before.capability.rows, cap.enterpriseId = enterpriseId ∧ cap.key = key ∧
        getCapability enterpriseId key before = .ok cap before) ∨
      (∀ cap ∈ before.capability.rows, ¬ (cap.enterpriseId = enterpriseId ∧ cap.key = key)) ∧
        ∃ message, getCapability enterpriseId key before = .error (.notFound message) before := by
  have single : (before.capability.rows.filter fun row => row.enterpriseId = enterpriseId ∧ row.key = key).length ≤ 1 := by
    simpa [Capability.identity] using unique.filter_length (enterpriseId, key)
  rw [getCapability, bind_of_ok (lift_eq_ok.mpr ⟨bindText_ok storable, rfl⟩)]
  rcases selectOne_cases (fun db : Tables => db.capability.rows.filter fun row =>
    row.enterpriseId = enterpriseId ∧ row.key = key) single with ⟨cap, selected, found⟩ | ⟨empty, missing⟩
  · obtain ⟨member, isRow⟩ := List.mem_filter.mp selected
    simp only [decide_eq_true_eq] at isRow
    exact .inl ⟨cap, member, isRow.1, isRow.2, bind_of_ok found⟩
  · exact .inr ⟨by simpa [List.filter_eq_nil_iff] using empty, _, bind_of_ok missing⟩

theorem getCapabilityById_cases (before : Tables) (capabilityId : Uuid) :
    (∃ cap ∈ before.capability.rows, cap.id = capabilityId ∧
        getCapabilityById capabilityId before = .ok cap before) ∨
      (∀ cap ∈ before.capability.rows, cap.id ≠ capabilityId) ∧
        ∃ message, getCapabilityById capabilityId before = .error (.notFound message) before := by
  have single : (before.capability.rows.filter (·.id = capabilityId)).length ≤ 1 := Table.filter_key_length _ _
  unfold getCapabilityById
  rcases selectOne_cases (fun db : Tables => db.capability.rows.filter (·.id = capabilityId)) single with
    ⟨cap, selected, found⟩ | ⟨empty, missing⟩
  · obtain ⟨member, isRow⟩ := List.mem_filter.mp selected
    exact .inl ⟨cap, member, of_decide_eq_true isRow, bind_of_ok found⟩
  · exact .inr ⟨by simpa [List.filter_eq_nil_iff] using empty, _, bind_of_ok missing⟩

theorem getPromotionRequest_cases (before : Tables) (enterpriseId requestId : Uuid) :
    (∃ req ∈ before.promotionRequest.rows, req.id = requestId ∧ req.enterpriseId = enterpriseId ∧
        getPromotionRequest enterpriseId requestId before = .ok req before) ∨
      (∀ req ∈ before.promotionRequest.rows, ¬ (req.id = requestId ∧ req.enterpriseId = enterpriseId)) ∧
        ∃ message, getPromotionRequest enterpriseId requestId before = .error (.notFound message) before := by
  have single : (before.promotionRequest.rows.filter fun row =>
      row.id = requestId ∧ row.enterpriseId = enterpriseId).length ≤ 1 := by
    refine le_trans (List.Sublist.length_le ?_) (Table.filter_key_length before.promotionRequest requestId)
    exact List.monotone_filter_right _ fun row isRow => decide_eq_true (of_decide_eq_true isRow).1
  unfold getPromotionRequest
  rcases selectOne_cases (fun db : Tables => db.promotionRequest.rows.filter fun row =>
    row.id = requestId ∧ row.enterpriseId = enterpriseId) single with ⟨req, selected, found⟩ | ⟨empty, missing⟩
  · obtain ⟨member, isRow⟩ := List.mem_filter.mp selected
    simp only [decide_eq_true_eq] at isRow
    exact .inl ⟨req, member, isRow.1, isRow.2, bind_of_ok found⟩
  · exact .inr ⟨by simpa [List.filter_eq_nil_iff] using empty, _, bind_of_ok missing⟩

theorem requirePending_error (raised : requirePending req = .error reason) :
    Declared reason := by
  unfold requirePending at raised
  split at raised
  · cases raised
    trivial
  · cases raised

/-- The calls of a session that looks something up and then refuses or goes on. -/
theorem clean_bind {α β : Type} {lookup : Session α} {next : α → Session β} {found : α}
    (ran : lookup before = .ok found before) :
    (∀ reason after, (lookup >>= next) before = .error reason after → Declared reason ∧ after = before) ↔
      ∀ reason after, next found before = .error reason after → Declared reason ∧ after = before := by
  rw [bind_of_ok ran]

theorem clean_of_missing {α β : Type} {lookup : Session α} {next : α → Session β} {message : String}
    (missing : lookup before = .error (.notFound message) before) :
    ∀ reason after, (lookup >>= next) before = .error reason after → Declared reason ∧ after = before := by
  intro reason after raised
  rw [bind_of_error missing] at raised
  cases raised
  exact ⟨trivial, rfl⟩

theorem clean_check {α β : Type} {check : Except Error α} {next : α → Session β} :
    (∀ reason after, (lift check >>= next) before = .error reason after → Declared reason ∧ after = before) ↔
      (∀ reason, check = .error reason → Declared reason) ∧
        ∀ value, check = .ok value →
          ∀ reason after, next value before = .error reason after → Declared reason ∧ after = before := by
  simp only [bind_eq_error, lift_eq_error, lift_eq_ok]
  constructor
  · intro clean
    refine ⟨fun reason raised => (clean reason before (.inl ⟨raised, rfl⟩)).1, fun value checked reason after raised => ?_⟩
    exact clean reason after (.inr ⟨value, before, ⟨checked, rfl⟩, raised⟩)
  · rintro ⟨declared, rest⟩ reason after (⟨raised, rfl⟩ | ⟨value, _, ⟨checked, rfl⟩, raised⟩)
    · exact ⟨declared reason raised, rfl⟩
    · exact rest value checked reason after raised

/-- A check before a part that cannot raise. -/
theorem clean_lift {α β : Type} {check : Except Error α} {next : α → Session β}
    (returns : ∀ value middle reason after, next value middle ≠ .error reason after) :
    (∀ reason after, (lift check >>= next) before = .error reason after → Declared reason ∧ after = before) ↔
      ∀ reason, check = .error reason → Declared reason := by
  rw [clean_check, and_iff_left]
  exact fun value _ reason after raised => absurd raised (returns value before reason after)

/-- A text is bound cleanly only if the database takes it. -/
theorem bindText_declared {column text : String} :
    (∀ reason, bindText column text = .error reason → Declared reason) ↔ storableText text = true := by
  cases storable : storableText text with
  | true => simp [bindText_ok storable]
  | false => simp [bindText_error storable, Declared]

end Errors

/-! ## From the seed on -/

section Calls

variable {db : Tables}

/-- What is said of the capability of a key is said of one row. -/
theorem UniqueKeys.exists_iff (unique : UniqueKeys db) {enterpriseId : Uuid} {key : String} {cap : Capability}
    (member : cap ∈ db.capability.rows) (own : cap.enterpriseId = enterpriseId) (same : cap.key = key)
    (holds : Capability → Prop) :
    (∃ other ∈ db.capability.rows, other.enterpriseId = enterpriseId ∧ other.key = key ∧ holds other) ↔ holds cap := by
  constructor
  · rintro ⟨other, otherMember, otherOwn, otherSame, held⟩
    have single := unique other otherMember cap member (enterpriseId, key)
      (by rw [Capability.identity, otherOwn, otherSame]) (by rw [Capability.identity, own, same])
    rwa [single] at held
  · exact fun held => ⟨cap, member, own, same, held⟩

theorem createPromotionRequest_clean (unique : UniqueKeys db) (enterpriseId : Uuid)
    (key proposedToLevel rationale : String) (createdBy : Uuid) :
    Clean db (.createPromotionRequest enterpriseId key proposedToLevel rationale createdBy) ↔
      ¬ (ChecksAtTop db (.createPromotionRequest enterpriseId key proposedToLevel rationale createdBy) ∨
        BindsNul db (.createPromotionRequest enterpriseId key proposedToLevel rationale createdBy)) := by
  simp only [Clean, Call.run, createPromotionRequest, bind_assoc, ChecksAtTop, BindsNul]
  cases storable : storableText key with
  | false =>
      refine iff_of_false (fun clean => ?_) (not_not.mpr (.inr (.inl rfl)))
      have refused : (getCapability enterpriseId key) db = .error (.database (.invalidInput "key")) db :=
        bind_of_error (lift_eq_error.mpr ⟨bindText_error storable, rfl⟩)
      exact (clean _ _ (bind_of_error refused)).1
  | true =>
    rcases getCapability_cases unique enterpriseId storable with
      ⟨cap, member, own, same, found⟩ | ⟨absent, message, missing⟩
    · have onRow := unique.exists_iff member own same
      rw [clean_bind found, clean_check, validateTarget_declared, onRow, onRow]
      refine (and_congr_right fun _ => forall₂_congr fun level _ => (clean_lift (by simp)).trans bindText_declared).trans ?_
      simp only [validateTarget_eq_ok, Bool.true_eq_false, false_or, not_or]
      cases storableText rationale <;> simp
    · refine iff_of_true (clean_of_missing missing) ?_
      rintro (⟨_, cap, member, own, same, _⟩ | unstorable | ⟨_, cap, member, own, same, _⟩)
      · exact absent cap member ⟨own, same⟩
      · simp at unstorable
      · exact absent cap member ⟨own, same⟩

theorem approvePromotion_clean (db : Tables) (now : Timestamp) (enterpriseId requestId decidedBy : Uuid) :
    Clean db (.approvePromotion now enterpriseId requestId decidedBy) ↔
      ¬ ChecksAtTop db (.approvePromotion now enterpriseId requestId decidedBy) := by
  simp only [Clean, Call.run, approvePromotion, bind_assoc, ChecksAtTop]
  rcases getPromotionRequest_cases db enterpriseId requestId with
    ⟨req, member, isId, own, found⟩ | ⟨absent, message, missing⟩
  · have single {other : PromotionRequest} (otherMember : other ∈ db.promotionRequest.rows) (same : other.id = requestId) :
        other = req := Table.eq_of_key_eq otherMember member (same.trans isId.symm)
    rw [clean_bind found]
    cases pending : requirePending req with
    | error reason =>
        refine iff_of_true ?_ ?_
        · intro raised after ran
          rw [bind_of_error (lift_eq_error.mpr ⟨rfl, rfl⟩)] at ran
          cases ran
          exact ⟨requirePending_error pending, rfl⟩
        · rintro ⟨other, otherMember, same, _, isPending, _⟩
          rw [single otherMember same] at isPending
          simp [requirePending, isPending] at pending
    | ok done =>
        rw [clean_bind (lift_eq_ok.mpr ⟨rfl, rfl⟩)]
        rcases getCapabilityById_cases db req.capabilityId with ⟨cap, capMember, isCap, foundCap⟩ | ⟨absent, message, missing⟩
        · rw [clean_bind foundCap, clean_lift (by simp), validateTarget_declared, not_iff_not, level?_name]
          constructor
          · rintro ⟨_, top⟩
            exact ⟨req, member, isId, own, requirePending_ok pending, cap, capMember, isCap, top⟩
          · rintro ⟨other, otherMember, same, _, _, otherCap, otherCapMember, isOther, top⟩
            rw [single otherMember same] at isOther
            rw [Table.eq_of_key_eq otherCapMember capMember (isOther.trans isCap.symm)] at top
            exact ⟨rfl, top⟩
        · refine iff_of_true (clean_of_missing missing) ?_
          rintro ⟨other, otherMember, same, _, _, cap, capMember, isCap, _⟩
          rw [single otherMember same] at isCap
          exact absent cap capMember isCap
  · refine iff_of_true (clean_of_missing missing) ?_
    rintro ⟨req, member, same, own, _⟩
    exact absent req member ⟨same, own⟩

theorem rejectPromotion_clean (db : Tables) (now : Timestamp) (enterpriseId requestId decidedBy : Uuid) :
    Clean db (.rejectPromotion now enterpriseId requestId decidedBy) := by
  simp only [Clean, Call.run, rejectPromotion, bind_assoc]
  rcases getPromotionRequest_cases db enterpriseId requestId with ⟨req, _, _, _, found⟩ | ⟨_, message, missing⟩
  · rw [clean_bind found, clean_lift (by simp)]
    exact fun reason raised => requirePending_error raised
  · exact clean_of_missing missing

theorem clean_iff (unique : UniqueKeys db) (call : Call) :
    Clean db call ↔ ¬ (ChecksAtTop db call ∨ BindsNul db call) := by
  cases call with
  | createPromotionRequest enterpriseId key proposedToLevel rationale createdBy =>
      exact createPromotionRequest_clean unique ..
  | approvePromotion now enterpriseId requestId decidedBy =>
      exact (approvePromotion_clean ..).trans (not_congr (or_iff_left not_false).symm)
  | rejectPromotion now enterpriseId requestId decidedBy =>
      exact iff_of_true (rejectPromotion_clean db now enterpriseId requestId decidedBy) (by simp [ChecksAtTop, BindsNul])

end Calls

/-- In every state that calls reach from the seed, the next call is refused
cleanly unless it checks a level above the highest or binds a NUL. -/
theorem clean_after_calls (enterprises : List Uuid) (calls : List Call) (call : Call) :
    Clean (commitAll calls (seeded enterprises)) call ↔
      ¬ (ChecksAtTop (commitAll calls (seeded enterprises)) call ∨ BindsNul (commitAll calls (seeded enterprises)) call) :=
  clean_iff (commitAll_uniqueKeys calls (seeded_uniqueKeys enterprises)) call

/-- Replenishment is promoted to the top. -/
def promotedToTop : List Call :=
  [.createPromotionRequest 1 "proc.replenish.routine" "L5" "routine" 7, .approvePromotion 1 1 1 7]

theorem request_at_top_unclean :
    ¬ Clean (commitAll promotedToTop (seeded [1])) (.createPromotionRequest 1 "proc.replenish.routine" "L5" "again" 7) := by
  intro clean
  exact (clean (.other "IndexError('tuple index out of range')") (commitAll promotedToTop (seeded [1])) (by rfl)).1

end SmartProcurement.Lorm
