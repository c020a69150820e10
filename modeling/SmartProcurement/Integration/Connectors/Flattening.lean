import SmartProcurement.Integration.Connectors.Rest
import SmartProcurement.Text.Separated

namespace SmartProcurement.Integration.Connectors

open Relational Text

/-! # What flattening keeps

A row is a tree of objects.  Flattening names each leaf by the keys that lead to it,
and keys without a dot can be told apart in such a name.
-/

/-! ## Leaves -/

mutual
/-- The leaves below a value, with the keys that lead there. -/
def leavesOf : Json → List (List String × Json)
  | .object fields => leaves fields
  | value => [([], value)]

def fieldLeaves : String × Json → List (List String × Json)
  | (key, value) => (leavesOf value).map fun leaf => (key :: leaf.1, leaf.2)

def leaves : JsonObject → List (List String × Json)
  | [] => []
  | field :: rest => fieldLeaves field ++ leaves rest
end

mutual
/-- The objects that flattening goes through. -/
def branchesOf : Json → List JsonObject
  | .object fields => fields :: branches fields
  | _ => []

def fieldBranches : String × Json → List JsonObject
  | (_, value) => branchesOf value

def branches : JsonObject → List JsonObject
  | [] => []
  | field :: rest => fieldBranches field ++ branches rest
end

/-- The value at the end of a path of keys, which is no object. -/
inductive LeafAt : JsonObject → List String → Json → Prop where
  | here {fields : JsonObject} {key : String} {value : Json} (member : (key, value) ∈ fields) (leaf : object? value = none) :
      LeafAt fields [key] value
  | inside {fields inner : JsonObject} {key : String} {path : List String} {value : Json} (member : (key, .object inner) ∈ fields)
      (leaf : LeafAt inner path value) : LeafAt fields (key :: path) value

def dotted (path : List String) : String := String.intercalate "." path

/-- A list is kept as the text of its scalar elements. -/
def leafValue (builtins : Builtins) : Json → Json
  | .array items => .string (joined builtins items)
  | value => value

/-- The row and the objects in it, which are dictionaries, have no key twice, and no key has a dot. -/
structure Undotted (row : JsonObject) : Prop where
  distinct : ∀ branch ∈ row :: branches row, (branch.map Prod.fst).Nodup
  whole : ∀ branch ∈ row :: branches row, ∀ key ∈ branch.map Prod.fst, '.' ∉ key.toList

/-- Each leaf has one entry, under its own name, and there is no other entry. -/
structure KeepsLeaves (builtins : Builtins) (row flat : JsonObject) : Prop where
  distinct : (flat.map Prod.fst).Nodup
  exact : ∀ name value, (name, value) ∈ flat ↔
    ∃ path leaf, LeafAt row path leaf ∧ name = dotted path ∧ value = leafValue builtins leaf
  apart : ∀ path leaf other otherLeaf, LeafAt row path leaf → LeafAt row other otherLeaf → dotted path = dotted other →
    path = other ∧ leaf = otherLeaf

section Paths

variable {key : String} {path other : List String} {value leaf : Json} {fields rest : JsonObject}

theorem mem_leaves_cons {field : String × Json} :
    (path, leaf) ∈ leaves (field :: rest) ↔ (path, leaf) ∈ fieldLeaves field ∨ (path, leaf) ∈ leaves rest := by
  rw [leaves, List.mem_append]

theorem mem_fieldLeaves : (path, leaf) ∈ fieldLeaves (key, value) ↔
    ∃ below, path = key :: below ∧ (below, leaf) ∈ leavesOf value := by
  rw [fieldLeaves, List.mem_map]
  constructor
  · rintro ⟨⟨below, _⟩, member, same⟩
    obtain ⟨rfl, rfl⟩ := Prod.mk.inj same
    exact ⟨below, rfl, member⟩
  · rintro ⟨below, rfl, member⟩
    exact ⟨(below, leaf), member, rfl⟩

theorem leavesOf_leaf (isLeaf : object? value = none) : leavesOf value = [([], value)] := by
  cases value with
  | object fields => cases isLeaf
  | _ => rfl

/-- Every field is a leaf or leads to the leaves of an object. -/
theorem mem_leaves : (path, leaf) ∈ leaves fields ↔
    ∃ key value below, (key, value) ∈ fields ∧ path = key :: below ∧ (below, leaf) ∈ leavesOf value := by
  induction fields with
  | nil => simp [leaves]
  | cons field rest ih =>
      obtain ⟨key, value⟩ := field
      rw [mem_leaves_cons, mem_fieldLeaves, ih]
      constructor
      · rintro (⟨below, rfl, member⟩ | ⟨other, value, below, listed, rfl, member⟩)
        · exact ⟨key, value, below, List.mem_cons_self, rfl, member⟩
        · exact ⟨other, value, below, List.mem_cons_of_mem _ listed, rfl, member⟩
      · rintro ⟨other, value, below, listed, rfl, member⟩
        rcases List.mem_cons.mp listed with same | listed
        · obtain ⟨rfl, rfl⟩ := Prod.mk.inj same
          exact .inl ⟨below, rfl, member⟩
        · exact .inr ⟨other, value, below, listed, rfl, member⟩

theorem mem_leaves_iff : (path, leaf) ∈ leaves fields ↔ LeafAt fields path leaf := by
  constructor
  · intro member
    induction path generalizing fields with
    | nil =>
        obtain ⟨_, _, _, _, same, _⟩ := mem_leaves.mp member
        cases same
    | cons first path ih =>
        obtain ⟨key, value, below, listed, same, inside⟩ := mem_leaves.mp member
        obtain ⟨rfl, rfl⟩ := List.cons.inj same
        cases shape : object? value with
        | none =>
            rw [leavesOf_leaf shape, List.mem_singleton] at inside
            obtain ⟨rfl, rfl⟩ := Prod.mk.inj inside
            exact .here listed shape
        | some inner =>
            cases value with
            | object fields => exact .inside listed (ih inside)
            | _ => cases shape
  · intro isLeaf
    induction isLeaf with
    | here member leaf => exact mem_leaves.mpr ⟨_, _, [], member, rfl, by simp [leavesOf_leaf leaf]⟩
    | inside member _ ih => exact mem_leaves.mpr ⟨_, _, _, member, rfl, ih⟩

theorem LeafAt.ne_nil (isLeaf : LeafAt fields path leaf) : path ≠ [] := by
  cases isLeaf <;> simp

end Paths

/-! ## Names -/

section Names

variable {builtins : Builtins} {key : String} {path other : List String} {value leaf : Json}
    {row flat fields : JsonObject}

/-- What stands behind the name of a value. -/
def tail (path : List String) : String := if path = [] then "" else "." ++ dotted path

theorem dotted_cons (key : String) (path : List String) : dotted (key :: path) = key ++ tail path := by
  unfold dotted tail
  cases path with
  | nil => simp
  | cons second rest => simp [dotted, String.append_assoc]

/-- The leaves below a value under their names. -/
def entriesOf (builtins : Builtins) (name : String) (value : Json) : JsonObject :=
  (leavesOf value).map fun leaf => (name ++ tail leaf.1, leafValue builtins leaf.2)

def entries (builtins : Builtins) (stem : String) (fields : JsonObject) : JsonObject :=
  (leaves fields).map fun leaf => (stem ++ dotted leaf.1, leafValue builtins leaf.2)

theorem entries_cons (stem : String) (field : String × Json) (rest : JsonObject) :
    entries builtins stem (field :: rest) = entriesOf builtins (stem ++ field.1) field.2 ++ entries builtins stem rest := by
  obtain ⟨key, value⟩ := field
  simp only [entries, entriesOf, leaves, fieldLeaves, List.map_append, List.map_map, Function.comp_def, dotted_cons,
    String.append_assoc]

theorem entriesOf_object (name : String) (fields : JsonObject) :
    entriesOf builtins name (.object fields) = entries builtins (name ++ ".") fields := by
  unfold entriesOf entries
  apply List.map_congr_left
  rintro ⟨path, leaf⟩ member
  have filled : path ≠ [] := (mem_leaves_iff.mp member).ne_nil
  simp [tail, filled, String.append_assoc]

theorem entriesOf_leaf (name : String) (isLeaf : object? value = none) :
    entriesOf builtins name value = [(name, leafValue builtins value)] := by
  simp [entriesOf, leavesOf_leaf isLeaf, tail]

mutual
theorem flattenValue_eq (flat : JsonObject) (name : String) (value : Json)
    (distinct : ((flat ++ entriesOf builtins name value).map Prod.fst).Nodup) :
    flattenValue builtins flat name value = flat ++ entriesOf builtins name value := by
  cases value with
  | object fields =>
      rw [entriesOf_object] at distinct ⊢
      have inner : ((([] : JsonObject) ++ entries builtins (name ++ ".") fields).map Prod.fst).Nodup := by
        rw [List.map_append] at distinct
        exact distinct.of_append_right
      rw [flattenValue, flattenFields_eq [] (name ++ ".") fields inner]
      exact foldl_assign_of_nodup distinct
  | _ =>
      rw [entriesOf_leaf name rfl] at distinct ⊢
      apply assign_of_not_mem
      rw [List.map_append] at distinct
      exact fun member => List.disjoint_of_nodup_append distinct member (by simp)

theorem flattenField_eq (flat : JsonObject) (stem : String) (field : String × Json)
    (distinct : ((flat ++ entriesOf builtins (stem ++ field.1) field.2).map Prod.fst).Nodup) :
    flattenField builtins flat stem field = flat ++ entriesOf builtins (stem ++ field.1) field.2 := by
  obtain ⟨key, value⟩ := field
  exact flattenValue_eq flat (stem ++ key) value distinct

theorem flattenFields_eq (flat : JsonObject) (stem : String) (fields : JsonObject)
    (distinct : ((flat ++ entries builtins stem fields).map Prod.fst).Nodup) :
    flattenFields builtins flat stem fields = flat ++ entries builtins stem fields := by
  cases fields with
  | nil => simp [flattenFields, entries, leaves]
  | cons field rest =>
      rw [entries_cons, ← List.append_assoc] at distinct ⊢
      have first := distinct
      rw [List.map_append] at first
      rw [flattenFields, flattenField_eq flat stem field first.of_append_left]
      exact flattenFields_eq _ stem rest distinct
end

theorem branches_of_mem (member : (key, .object fields) ∈ row) :
    ∀ branch ∈ fields :: branches fields, branch ∈ branches row := by
  induction row with
  | nil => cases member
  | cons field rest ih =>
      intro branch listed
      rw [branches, List.mem_append]
      rcases List.mem_cons.mp member with rfl | member
      · exact .inl listed
      · exact .inr (ih member branch listed)

theorem Undotted.object (undotted : Undotted row) (member : (key, .object fields) ∈ row) : Undotted fields where
  distinct branch listed := undotted.distinct branch (List.mem_cons_of_mem _ (branches_of_mem member branch listed))
  whole branch listed := undotted.whole branch (List.mem_cons_of_mem _ (branches_of_mem member branch listed))

theorem LeafAt.whole (isLeaf : LeafAt row path leaf) (undotted : Undotted row) : ∀ key ∈ path, '.' ∉ key.toList := by
  induction isLeaf with
  | here member _ =>
      intro key listed
      rw [List.mem_singleton.mp listed]
      exact undotted.whole _ List.mem_cons_self _ (List.mem_map_of_mem member)
  | inside member _ ih =>
      intro key listed
      rcases List.mem_cons.mp listed with rfl | listed
      · exact undotted.whole _ List.mem_cons_self _ (List.mem_map_of_mem member)
      · exact ih (undotted.object member) key listed

theorem dotted_inj (isLeaf : LeafAt row path leaf) {otherLeaf : Json} (isOther : LeafAt row other otherLeaf)
    (undotted : Undotted row) (same : dotted path = dotted other) : path = other := by
  have separated {keys : List String} (whole : ∀ key ∈ keys, '.' ∉ key.toList) : ∀ chars ∈ keys.map String.toList, '.' ∉ chars := by
    intro chars listed
    obtain ⟨key, member, rfl⟩ := List.mem_map.mp listed
    exact whole key member
  have chars : (['.'] : List Char).intercalate (path.map String.toList) = ['.'].intercalate (other.map String.toList) := by
    simpa [dotted, String.toList_intercalate] using congrArg String.toList same
  apply (List.map_injective_iff.mpr fun _ _ => String.toList_injective).eq_iff.mp
  apply intercalate_inj (separated (isLeaf.whole undotted)) (separated (isOther.whole undotted)) _ _ chars
  · simpa using isLeaf.ne_nil
  · simpa using isOther.ne_nil

theorem value_unique {fields : JsonObject} {other : Json} (distinct : (fields.map Prod.fst).Nodup)
    (member : (key, value) ∈ fields) (otherMember : (key, other) ∈ fields) : value = other :=
  congrArg Prod.snd (List.inj_on_of_nodup_map distinct member otherMember rfl)

theorem LeafAt.unique {other : Json} (isLeaf : LeafAt row path leaf) (isOther : LeafAt row path other)
    (undotted : Undotted row) :
    leaf = other := by
  induction isLeaf with
  | here member isValue =>
      cases isOther with
      | here otherMember _ => exact value_unique (undotted.distinct _ List.mem_cons_self) member otherMember
      | inside _ nothing => exact absurd rfl nothing.ne_nil
  | inside member inner ih =>
      cases isOther with
      | here _ _ => exact absurd rfl inner.ne_nil
      | inside otherMember isOther =>
          have same := value_unique (undotted.distinct _ List.mem_cons_self) member otherMember
          obtain rfl := Json.object.inj same
          exact ih isOther (undotted.object member)

mutual
theorem leavesOf_nodup (value : Json) (distinct : ∀ branch ∈ branchesOf value, (branch.map Prod.fst).Nodup) :
    ((leavesOf value).map Prod.fst).Nodup := by
  cases value with
  | object fields => exact leaves_nodup fields distinct
  | _ => simp [leavesOf]

theorem fieldLeaves_nodup (field : String × Json)
    (distinct : ∀ branch ∈ fieldBranches field, (branch.map Prod.fst).Nodup) :
    ((fieldLeaves field).map Prod.fst).Nodup := by
  obtain ⟨key, value⟩ := field
  have paths : (fieldLeaves (key, value)).map Prod.fst = ((leavesOf value).map Prod.fst).map (key :: ·) := by
    simp [fieldLeaves, Function.comp_def]
  rw [paths]
  exact (leavesOf_nodup value distinct).map (List.cons_injective)

theorem leaves_nodup (fields : JsonObject)
    (distinct : ∀ branch ∈ fields :: branches fields, (branch.map Prod.fst).Nodup) :
    ((leaves fields).map Prod.fst).Nodup := by
  cases fields with
  | nil => simp [leaves]
  | cons field rest =>
      obtain ⟨own, later⟩ := List.nodup_cons.mp (distinct _ List.mem_cons_self)
      have below : ∀ branch ∈ fieldBranches field ++ branches rest, (branch.map Prod.fst).Nodup :=
        fun branch listed => distinct branch (List.mem_cons_of_mem _ listed)
      have first := fieldLeaves_nodup field fun branch listed => below branch (List.mem_append_left _ listed)
      have others := leaves_nodup rest fun branch listed => by
        rcases List.mem_cons.mp listed with rfl | listed
        · exact later
        · exact below branch (List.mem_append_right _ listed)
      rw [leaves, List.map_append]
      apply first.append others
      intro path inFirst inOthers
      obtain ⟨⟨_, leaf⟩, listed, rfl⟩ := List.mem_map.mp inFirst
      obtain ⟨⟨_, other⟩, otherListed, same⟩ := List.mem_map.mp inOthers
      obtain ⟨key, value⟩ := field
      obtain ⟨_, rfl, _⟩ := mem_fieldLeaves.mp listed
      obtain ⟨otherKey, _, _, member, path, _⟩ := mem_leaves.mp otherListed
      obtain rfl : otherKey = key := (List.cons.inj (path.symm.trans same)).1
      exact own (List.mem_map.mpr ⟨_, member, rfl⟩)
end

theorem entries_nodup (undotted : Undotted row) (stem : String) : ((entries builtins stem row).map Prod.fst).Nodup := by
  have names : (entries builtins stem row).map Prod.fst = ((leaves row).map Prod.fst).map fun path => stem ++ dotted path := by
    simp [entries, Function.comp_def]
  rw [names]
  apply List.Nodup.map_on _ (leaves_nodup row undotted.distinct)
  intro path listed other otherListed same
  obtain ⟨⟨_, leaf⟩, member, rfl⟩ := List.mem_map.mp listed
  obtain ⟨⟨_, otherLeaf⟩, otherMember, rfl⟩ := List.mem_map.mp otherListed
  exact dotted_inj (mem_leaves_iff.mp member) (mem_leaves_iff.mp otherMember) undotted (String.append_right_inj stem |>.mp same)

theorem flatten_eq (undotted : Undotted row) : flatten builtins row = entries builtins "" row :=
  flattenFields_eq [] "" row (entries_nodup undotted "")

/-- Flattening keeps every leaf of a row under the path of its keys, and nothing else. -/
theorem flatten_keeps_leaves (builtins : Builtins) {row : JsonObject} (undotted : Undotted row) :
    KeepsLeaves builtins row (flatten builtins row) := by
  rw [flatten_eq undotted]
  constructor
  · exact entries_nodup undotted ""
  · intro name value
    rw [entries, List.mem_map]
    constructor
    · rintro ⟨⟨path, leaf⟩, member, same⟩
      obtain ⟨rfl, rfl⟩ := Prod.mk.inj same
      exact ⟨path, leaf, mem_leaves_iff.mp member, String.empty_append, rfl⟩
    · rintro ⟨path, leaf, isLeaf, rfl, rfl⟩
      exact ⟨(path, leaf), mem_leaves_iff.mpr isLeaf, by rw [String.empty_append]⟩
  · intro path leaf other otherLeaf isLeaf isOther same
    obtain rfl := dotted_inj isLeaf isOther undotted same
    exact ⟨rfl, isLeaf.unique isOther undotted⟩

/-- So no field of a record that is fetched has the name of another. -/
theorem record_nodup {interpreter : Interpreter} (connector : RestSourceConnector) (resource : String)
    (undotted : Undotted row) :
    ((connector.record interpreter resource row).map Prod.fst).Nodup := by
  have names : (connector.record interpreter resource row).map Prod.fst =
      ((flatten interpreter.toBuiltins row).map Prod.fst).map (connector.stem resource ++ ·) := by
    simp [RestSourceConnector.record, Function.comp_def]
  rw [names]
  exact (flatten_keeps_leaves _ undotted).distinct.map fun _ _ => (String.append_right_inj _).mp

end Names

/-- Empty keys and empty objects: the names are `sku`, `.`, `stock.qty` and `stock.bins`. -/
def deepRow : JsonObject := [
  ("sku", .string "A-1"),
  ("", .object [("", .number "5")]),
  ("nothing", .object []),
  ("stock", .object [("qty", .number "7"), ("bins", .array [.string "b1", .object [], .string "b2"])])]

theorem deepRow_keeps_leaves : KeepsLeaves python deepRow
    [("sku", .string "A-1"), (".", .number "5"), ("stock.qty", .number "7"), ("stock.bins", .string "b1,b2")] := by
  have kept : KeepsLeaves python deepRow (flatten python deepRow) := flatten_keeps_leaves python ⟨by decide, by decide⟩
  exact kept

end SmartProcurement.Integration.Connectors
