import SmartProcurement.Core.Values
import SmartProcurement.Text.Integers

namespace SmartProcurement

open Text

/-! # Reading UUIDs

`uuid.UUID(text)`: prefixes, braces and hyphens are dropped, and `int` reads what is
left, if that is 32 characters.
-/

/-- `str.replace(pattern, "")`; a match that is under way is skipped. -/
def withoutAll (pattern : List Char) : (skipped : Nat) → List Char → List Char
  | _, [] => []
  | skipped + 1, _ :: rest => withoutAll pattern skipped rest
  | 0, char :: rest =>
      if pattern.isPrefixOf (char :: rest) then withoutAll pattern (pattern.length - 1) rest
      else char :: withoutAll pattern 0 rest

def isBrace (char : Char) : Bool := char = '\x7b' || char = '\x7d'

/-- The characters of a UUID that are read as a number. -/
def uuidDigits (text : String) : List Char :=
  let named := withoutAll "uuid:".toList 0 (withoutAll "urn:".toList 0 text.toList)
  let bare := ((named.dropWhile isBrace).reverse.dropWhile isBrace).reverse
  bare.filter (· ≠ '-')

/-- `uuid.UUID(text).int`, nothing for a `ValueError`. -/
def uuidOf? (text : String) : Option Uuid :=
  if (uuidDigits text).length ≠ 32 then none
  else
    match int? 0 16 (.ofList (uuidDigits text)) with
    | none => none
    | some value => if 0 ≤ value ∧ value < 2 ^ 128 then some value.toNat else none

section RoundTrip

variable {id : Uuid} {chars pattern : List Char}

theorem withoutAll_eq {first : Char} (headed : pattern.head? = some first) (absent : first ∉ chars) :
    withoutAll pattern 0 chars = chars := by
  induction chars with
  | nil => rfl
  | cons char rest ih =>
      rw [List.mem_cons, not_or] at absent
      have different : pattern.isPrefixOf (char :: rest) = false := by
        cases pattern with
        | nil => cases headed
        | cons other _ =>
            obtain rfl := Option.some.inj headed
            simp [List.isPrefixOf, absent.1]
      rw [withoutAll, different, ih absent.2]
      rfl

theorem dropWhile_eq {drops : Char → Bool} (solid : ∀ char ∈ chars, drops char = false) :
    chars.dropWhile drops = chars := by
  cases chars with
  | nil => rfl
  | cons first rest => rw [List.dropWhile_cons_of_neg (by simp [solid first List.mem_cons_self])]

/-- The hexadecimal digits of a number that needs no more of them, with zeros in front. -/
theorem hexDigits_digits_of_lt {width n : Nat} (filled : width ≠ 0) (small : n < 16 ^ width) :
    ∃ digits : List Nat, digits.length = width ∧ (∀ digit ∈ digits, digit < 16) ∧
    hexDigits width n = digits.map Nat.digitChar ∧ number 16 digits = n := by
  obtain ⟨digits, _, inBase, written, same⟩ := toDigits_digits (show 1 < 16 by decide) n
  have short : digits.length ≤ width := by
    have bound := (Nat.length_toDigits_le_iff (b := 16) (n := n) (k := width) (by decide) (by omega)).mpr small
    rwa [written, List.length_map] at bound
  refine ⟨List.replicate (width - digits.length) 0 ++ digits, ?_, ?_, ?_, ?_⟩
  · rw [List.length_append, List.length_replicate]
    omega
  · intro digit member
    rcases List.mem_append.mp member with member | member
    · rw [(List.mem_replicate.mp member).2]
      decide
    · exact inBase digit member
  · simp only [hexDigits, written, List.length_map, List.map_append, List.map_replicate]
    rfl
  · have zeros : ∀ count, (List.replicate count 0).foldl (fun acc digit => acc * 16 + digit) 0 = 0 := by
      intro count
      induction count with
      | zero => rfl
      | succ count ih => rw [List.replicate_succ, List.foldl_cons]; exact ih
    rw [number, List.foldl_append, zeros]
    exact same

/-- The digits of a UUID, with zeros in front. -/
theorem hexDigits_digits (small : id < 2 ^ 128) :
    ∃ digits : List Nat, digits.length = 32 ∧ (∀ digit ∈ digits, digit < 16) ∧
    hexDigits 32 id = digits.map Nat.digitChar ∧ number 16 digits = id :=
  hexDigits_digits_of_lt (by decide) (by omega)

/-- The text of a UUID is its digits with hyphens between them. -/
theorem mem_uuidText {char : Char} (member : char ∈ (uuidText id).toList) : char ∈ hexDigits 32 id ∨ char = '-' := by
  have part {list : List Char} (sub : list.Sublist (hexDigits 32 id)) (inside : char ∈ list) : char ∈ hexDigits 32 id :=
    sub.subset inside
  have taken (count skip : Nat) : (((hexDigits 32 id).drop skip).take count).Sublist (hexDigits 32 id) :=
    (List.take_sublist _ _).trans (List.drop_sublist _ _)
  simp only [uuidText, String.toList_ofList, List.mem_append, List.mem_cons] at member
  rcases member with (((inside | hyphen | inside) | hyphen | inside) | hyphen | inside) | hyphen | inside
  · exact .inl (part (List.take_sublist _ _) inside)
  · exact .inr hyphen
  · exact .inl (part (taken _ _) inside)
  · exact .inr hyphen
  · exact .inl (part (taken _ _) inside)
  · exact .inr hyphen
  · exact .inl (part (taken _ _) inside)
  · exact .inr hyphen
  · exact .inl (part (List.drop_sublist _ _) inside)

theorem uuidText_filter (plain : '-' ∉ hexDigits 32 id) : (uuidText id).toList.filter (· ≠ '-') = hexDigits 32 id := by
  have kept {list : List Char} (sub : list.Sublist (hexDigits 32 id)) : list.filter (· ≠ '-') = list := by
    rw [List.filter_eq_self]
    intro char member
    simpa using fun same : char = '-' => plain (same ▸ sub.subset member)
  have taken (count skip : Nat) : (((hexDigits 32 id).drop skip).take count).Sublist (hexDigits 32 id) :=
    (List.take_sublist _ _).trans (List.drop_sublist _ _)
  simp only [uuidText, String.toList_ofList, List.filter_append, List.filter_cons, kept (taken _ _), kept (List.take_sublist _ _),
    kept (List.drop_sublist _ _)]
  have joined (count skip : Nat) : ((hexDigits 32 id).drop skip).take count ++ (hexDigits 32 id).drop (skip + count) =
      (hexDigits 32 id).drop skip := by
    rw [← List.drop_drop, List.take_append_drop]
  simp [joined 4 16, joined 4 12, joined 4 8]

theorem uuidDigits_of_digits {digits : List Nat} (written : hexDigits 32 id = digits.map Nat.digitChar) :
    uuidDigits (uuidText id) = hexDigits 32 id := by
  have plain {mark : Char} (isMark : mark ∈ ['u', '\x7b', '\x7d', '-']) : mark ∉ hexDigits 32 id := by
    rw [written, List.mem_map]
    rintro ⟨digit, _, same⟩
    simp only [List.mem_cons, List.not_mem_nil, or_false] at isMark
    apply Nat.digitChar_ne mark _ same
    rcases isMark with rfl | rfl | rfl | rfl <;> decide
  have absent {mark : Char} (isMark : mark ∈ ['u', '\x7b', '\x7d', '-']) (notHyphen : mark ≠ '-') : mark ∉ (uuidText id).toList :=
    fun member => (mem_uuidText member).elim (plain isMark) notHyphen
  have solid : ∀ char ∈ (uuidText id).toList, isBrace char = false := by
    intro char member
    have notOpen : char ≠ '\x7b' := fun same => absent (by decide) (by decide) (same ▸ member)
    have notClose : char ≠ '\x7d' := fun same => absent (by decide) (by decide) (same ▸ member)
    simp [isBrace, notOpen, notClose]
  have named : 'u' ∉ (uuidText id).toList := absent (by decide) (by decide)
  have unnamed := withoutAll_eq (show "urn:".toList.head? = some 'u' from rfl) named
  unfold uuidDigits
  rw [unnamed, withoutAll_eq (show "uuid:".toList.head? = some 'u' from rfl) named]
  dsimp only
  rw [dropWhile_eq solid, dropWhile_eq fun char member => solid char (List.mem_reverse.mp member), List.reverse_reverse]
  exact uuidText_filter (plain (by decide))

theorem uuidDigits_uuidText (small : id < 2 ^ 128) : uuidDigits (uuidText id) = hexDigits 32 id := by
  obtain ⟨digits, _, _, written, _⟩ := hexDigits_digits small
  exact uuidDigits_of_digits written

/-- `uuid.UUID(str(id)) == id`. -/
theorem uuidOf?_uuidText (small : id < 2 ^ 128) : uuidOf? (uuidText id) = some id := by
  obtain ⟨digits, long, inBase, written, same⟩ := hexDigits_digits small
  have filled : digits ≠ [] := by
    rintro rfl
    cases long
  unfold uuidOf?
  rw [uuidDigits_uuidText small, written, int?_digits filled inBase (by decide) (by rintro ⟨⟩), same]
  rw [if_neg (by simp [long])]
  dsimp only
  rw [if_pos ⟨by omega, by exact_mod_cast small⟩]
  simp

/-- The text of a number that is too large is no UUID, so a text that is read is read
as the number that was written. -/
theorem eq_of_uuidOf? {other : Uuid} (found : uuidOf? (uuidText id) = some other) : other = id := by
  by_cases small : id < 2 ^ 128
  · rw [uuidOf?_uuidText small] at found
    exact (Option.some.inj found).symm
  · obtain ⟨digits, _, inBase, written, same⟩ := toDigits_digits (show 1 < 16 by decide) id
    have long : 32 < digits.length := by
      have bound := (Nat.length_toDigits_le_iff (b := 16) (n := id) (k := 32) (by decide) (by decide)).not.mpr (by omega)
      rw [written, List.length_map] at bound
      omega
    have padded : hexDigits 32 id = digits.map Nat.digitChar := by
      simp only [hexDigits, written, List.length_map]
      rw [Nat.sub_eq_zero_of_le (Nat.le_of_lt long)]
      rfl
    unfold uuidOf? at found
    rw [uuidDigits_of_digits padded, padded, List.length_map, if_pos (by omega)] at found
    cases found

end RoundTrip

end SmartProcurement
