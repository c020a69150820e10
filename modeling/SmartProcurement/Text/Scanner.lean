import Mathlib.Data.List.Infix

namespace SmartProcurement.Text

/-! # Scanners

A scanner reads a value off the front of a text.  What it returns carries that
something was read, which is what a loop over scanned items ends by.
-/

/-- `rest` is what is left of a text of which something was read. -/
def Proper (rest text : List Char) : Prop := ∃ char, char :: rest <:+ text

section Proper

variable {char : Char} {rest inner text : List Char}

theorem Proper.suffix (proper : Proper rest text) : rest <:+ text := by
  obtain ⟨char, read⟩ := proper
  exact (List.suffix_cons char rest).trans read

theorem Proper.length_lt (proper : Proper rest text) : rest.length < text.length := by
  obtain ⟨char, read⟩ := proper
  exact Nat.lt_of_succ_le read.length_le

theorem proper_cons (suffix : rest <:+ text) : Proper rest (char :: text) := by
  obtain ⟨front, rfl⟩ := suffix
  induction front generalizing char with
  | nil => exact ⟨char, List.suffix_rfl⟩
  | cons first others ih =>
      obtain ⟨last, read⟩ : Proper rest (first :: (others ++ rest)) := ih
      exact ⟨last, read.trans (List.suffix_cons char _)⟩

theorem Proper.of_suffix (proper : Proper inner text) (suffix : rest <:+ inner) : Proper rest text := by
  obtain ⟨char, read⟩ := proper
  obtain ⟨last, own⟩ : Proper rest (char :: inner) := proper_cons suffix
  exact ⟨last, own.trans read⟩

theorem Proper.trans (proper : Proper rest inner) (before : Proper inner text) : Proper rest text :=
  before.of_suffix proper.suffix

theorem proper_drop {count : Nat} (filled : text ≠ []) (positive : 0 < count) : Proper (text.drop count) text := by
  obtain ⟨first, others, rfl⟩ := List.exists_cons_of_ne_nil filled
  obtain ⟨fewer, rfl⟩ := Nat.exists_eq_succ_of_ne_zero positive.ne'
  exact proper_cons (List.drop_suffix fewer others)

end Proper

structure Scanned (α : Type) (text : List Char) where
  value : α
  rest : List Char
  proper : Proper rest text

abbrev Scanner (ε α : Type) := (text : List Char) → Except ε (Scanned α text)

namespace Scanned

variable {α β : Type} {text inner : List Char}

def map (f : α → β) (scanned : Scanned α text) : Scanned β text := ⟨f scanned.value, scanned.rest, scanned.proper⟩

/-- What was scanned behind the beginning of a text was scanned in it. -/
def behind (scanned : Scanned α inner) (suffix : inner <:+ text) : Scanned α text where
  value := scanned.value
  rest := scanned.rest
  proper := by
    obtain ⟨char, read⟩ := scanned.proper
    exact ⟨char, read.trans suffix⟩

end Scanned

section Loops

variable {ε α : Type}

/-- Values up to the first `none`. -/
def untilNone (scan : Scanner ε (Option α)) (text : List Char) : Except ε (Scanned (List α) text) :=
  match scan text with
  | .error reason => .error reason
  | .ok ⟨none, rest, proper⟩ => .ok ⟨[], rest, proper⟩
  | .ok ⟨some value, rest, proper⟩ =>
      match untilNone scan rest with
      | .error reason => .error reason
      | .ok others => .ok ((others.map (value :: ·)).behind proper.suffix)
termination_by text.length
decreasing_by exact proper.length_lt

/-- Items with commas between them, up to the closing mark.  Anything else behind an
item is an error, which gets the text from there. -/
def items (skip : List Char → List Char) (skips : ∀ text, skip text <:+ text) (failure : List Char → ε) (close : Char)
    (scan : Scanner ε α) (text : List Char) : Except ε (Scanned (List α) text) :=
  match scan text with
  | .error reason => .error reason
  | .ok ⟨value, rest, proper⟩ =>
      match after : skip rest with
      | [] => .error (failure [])
      | mark :: inner =>
          have read : Proper inner text := proper.of_suffix ((List.suffix_cons mark inner).trans (after ▸ skips rest))
          if mark = close then .ok ⟨[value], inner, read⟩
          else if mark = ',' then
            have next : Proper (skip inner) text := read.of_suffix (skips inner)
            match items skip skips failure close scan (skip inner) with
            | .error reason => .error reason
            | .ok others => .ok ((others.map (value :: ·)).behind next.suffix)
          else .error (failure (mark :: inner))
termination_by text.length
decreasing_by exact next.length_lt

end Loops

end SmartProcurement.Text
