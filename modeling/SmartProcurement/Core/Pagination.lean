import Mathlib.Algebra.Order.Floor.Div
import SmartProcurement.Text.Integers

namespace SmartProcurement.Pagination

open Text

/-! # Pages of a listing

A cursor is the offset of the page it leads to, in decimal digits.
-/

def defaultLimit : Nat := 50

def maxLimit : Nat := 200

def clampLimit : Option Int → Nat
  | none => defaultLimit
  | some limit => if limit < 1 then defaultLimit else (min limit maxLimit).toNat

section Paginate

variable {α : Type*} (maxDigits : Nat)

def decodeCursor : Option String → Nat
  | none => 0
  | some cursor =>
      if cursor = "" then 0
      else
        match int? maxDigits 10 cursor with
        | none => 0
        | some offset => (max offset 0).toNat

/-- `paginate` on the rows of the statement: a page and the cursor of the next one. -/
def paginate (rows : List α) (limit : Option Int) (cursor : Option String) : List α × Option String :=
  let size := clampLimit limit
  let offset := decodeCursor maxDigits cursor
  ((rows.drop offset).take size, if offset + size < rows.length then some (toString (offset + size)) else none)

/-- The pages of a client that starts at a cursor and follows those that are returned. -/
inductive Followed (rows : List α) (limit : Option Int) : Option String → List (List α) → Prop where
  | last {cursor : Option String} {page : List α} (answered : paginate maxDigits rows limit cursor = (page, none)) :
      Followed rows limit cursor [page]
  | next {cursor : Option String} {page : List α} {following : String} {pages : List (List α)}
      (answered : paginate maxDigits rows limit cursor = (page, some following))
      (rest : Followed rows limit (some following) pages) : Followed rows limit cursor (page :: pages)

/-- A cursor that is no number, or a negative one. -/
def Unusable (cursor : String) : Prop :=
  int? maxDigits 10 cursor = none ∨ ∃ offset < 0, int? maxDigits 10 cursor = some offset

/-- A client that starts without a cursor gets every row once, on as few pages as there can be. -/
structure ListsOnce (rows : List α) (limit : Option Int) : Prop where
  ends : ∃ pages, Followed maxDigits rows limit none pages
  lists : ∀ pages, Followed maxDigits rows limit none pages →
    pages.length = max 1 (rows.length ⌈/⌉ clampLimit limit) ∧ pages.flatten = rows
  decodes : ∀ cursor page next, paginate maxDigits rows limit cursor = (page, some next) →
    decodeCursor maxDigits (some next) = decodeCursor maxDigits cursor + clampLimit limit
  restarts : ∀ cursor, Unusable maxDigits cursor →
    paginate maxDigits rows limit (some cursor) = paginate maxDigits rows limit none

end Paginate

section Walk

variable {α : Type*} {maxDigits : Nat} {rows page : List α} {limit : Option Int} {cursor : Option String}
    {next : String}
variable {pages : List (List α)}

theorem clampLimit_pos (limit : Option Int) : 0 < clampLimit limit := by
  cases limit with
  | none => decide
  | some limit =>
      unfold clampLimit defaultLimit maxLimit
      dsimp only
      split <;> omega

theorem decodeCursor_unusable {cursor : String} (unusable : Unusable maxDigits cursor) :
    decodeCursor maxDigits (some cursor) = 0 := by
  unfold decodeCursor
  dsimp only
  split
  · rfl
  · rcases unusable with rejected | ⟨offset, negative, read⟩
    · rw [rejected]
    · rw [read]
      dsimp only
      omega

theorem decodeCursor_toString {offset : Nat} (legible : Legible maxDigits offset) :
    decodeCursor maxDigits (some (toString offset)) = offset := by
  unfold decodeCursor
  dsimp only
  rw [if_neg (by simp), int?_toString legible]
  dsimp only
  omega

/-- The cursor of a page leads to the rows right behind it. -/
theorem decodeCursor_next (legible : Legible maxDigits rows.length)
    (answered : paginate maxDigits rows limit cursor = (page, some next)) :
    decodeCursor maxDigits (some next) = decodeCursor maxDigits cursor + clampLimit limit ∧
      decodeCursor maxDigits cursor + clampLimit limit < rows.length := by
  unfold paginate at answered
  dsimp only at answered
  obtain ⟨_, following⟩ := Prod.mk.inj answered
  split at following
  · next more =>
    obtain rfl := Option.some.inj following
    exact ⟨decodeCursor_toString (legible.mono (Nat.le_of_lt more)), more⟩
  · cases following

theorem Followed.lists (legible : Legible maxDigits rows.length)
    (followed : Followed maxDigits rows limit cursor pages) :
    pages.flatten = rows.drop (decodeCursor maxDigits cursor) ∧
      pages.length = max 1 ((rows.length - decodeCursor maxDigits cursor) ⌈/⌉ clampLimit limit) := by
  have positive := clampLimit_pos limit
  induction followed with
  | @last cursor page answered =>
      unfold paginate at answered
      obtain ⟨rfl, ended⟩ := Prod.mk.inj answered
      have few : rows.length ≤ decodeCursor maxDigits cursor + clampLimit limit := by
        by_contra more
        rw [if_pos (by omega)] at ended
        cases ended
      constructor
      · rw [List.flatten_singleton, List.take_of_length_le]
        rw [List.length_drop]
        omega
      · have one : (rows.length - decodeCursor maxDigits cursor) ⌈/⌉ clampLimit limit ≤ 1 := by
          rw [ceilDiv_le_iff_le_mul positive]
          omega
        rw [List.length_singleton]
        omega
  | @next cursor page following pages answered _ ih =>
      obtain ⟨decoded, more⟩ := decodeCursor_next legible answered
      obtain ⟨listed, counted⟩ := ih
      rw [decoded] at listed counted
      have first : page = (rows.drop (decodeCursor maxDigits cursor)).take (clampLimit limit) :=
        (congrArg Prod.fst answered).symm
      constructor
      · rw [List.flatten_cons, listed, first, ← List.drop_drop, List.take_append_drop]
      · rw [List.length_cons, counted, Nat.ceilDiv_eq_add_pred_div, Nat.ceilDiv_eq_add_pred_div]
        have split : rows.length - decodeCursor maxDigits cursor + clampLimit limit - 1 =
            (rows.length - (decodeCursor maxDigits cursor + clampLimit limit) + clampLimit limit - 1) + clampLimit limit := by
          omega
        have second : 1 ≤ (rows.length - (decodeCursor maxDigits cursor + clampLimit limit) + clampLimit limit - 1) /
            clampLimit limit := by
          rw [Nat.le_div_iff_mul_le positive]
          omega
        rw [split, Nat.add_div_right _ positive]
        omega

theorem exists_followed (legible : Legible maxDigits rows.length) (cursor : Option String) :
    ∃ pages, Followed maxDigits rows limit cursor pages := by
  have positive := clampLimit_pos limit
  generalize left : rows.length - decodeCursor maxDigits cursor = remaining
  induction remaining using Nat.strongRecOn generalizing cursor with
  | ind remaining ih =>
      rcases answered : paginate maxDigits rows limit cursor with ⟨page, _ | next⟩
      · exact ⟨[page], .last answered⟩
      · obtain ⟨decoded, more⟩ := decodeCursor_next legible answered
        obtain ⟨pages, rest⟩ := ih _ (by omega) (some next) rfl
        exact ⟨page :: pages, .next answered rest⟩

theorem paginate_unusable {cursor : String} (unusable : Unusable maxDigits cursor) :
    paginate maxDigits rows limit (some cursor) = paginate maxDigits rows limit none := by
  unfold paginate
  rw [decodeCursor_unusable unusable]
  rfl

/-- Following the cursors lists everything once. -/
theorem lists_once {maxDigits : Nat} (rows : List α) (limit : Option Int) (legible : Legible maxDigits rows.length) :
    ListsOnce maxDigits rows limit where
  ends := exists_followed legible none
  lists pages followed := by
    obtain ⟨listed, counted⟩ := followed.lists legible
    exact ⟨counted, listed⟩
  decodes _ _ _ answered := (decodeCursor_next legible answered).1
  restarts _ unusable := paginate_unusable unusable

end Walk

theorem five_rows_listed_once : ListsOnce 4300 [1, 2, 3, 4, 5] (some 2) :=
  lists_once _ _ (by decide +kernel)

end SmartProcurement.Pagination
