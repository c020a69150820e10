import SmartProcurement.Text.Literals

namespace SmartProcurement.Text

/-! # Reading integers from text

`int(text, base)`: white space around the number, a sign, decimal digits of any
script, letters as further digits and single underscores between the digits.
-/

def letterDigit? (char : Char) : Option Nat :=
  let code := char.toNat
  if 97 ≤ code ∧ code ≤ 122 then some (code - 87)
  else if 65 ≤ code ∧ code ≤ 90 then some (code - 55)
  else none

def digitOf? (base : Nat) (char : Char) : Option Nat :=
  ((decimalDigit? char).or (letterDigit? char)).filter (· < base)

/-- White space around a number, which the separators of ASCII are not. -/
def isMargin (char : Char) : Bool := isSpace char && !(28 ≤ char.toNat && char.toNat ≤ 31)

def withoutMargins (chars : List Char) : List Char :=
  ((chars.dropWhile isMargin).reverse.dropWhile isMargin).reverse

/-- Whether a minus stands in front, and what stands behind the sign. -/
def splitSign : List Char → Bool × List Char
  | '-' :: rest => (true, rest)
  | '+' :: rest => (false, rest)
  | chars => (false, chars)

/-- `0x` in front of hexadecimal digits. -/
def withoutMark (base : Nat) : List Char → List Char
  | '0' :: mark :: rest =>
      if base = 16 ∧ (mark = 'x' ∨ mark = 'X') then
        match rest with
        | '_' :: rest => rest
        | _ => rest
      else '0' :: mark :: rest
  | chars => chars

/-- At least one digit, with single underscores between the digits. -/
def digitRun? (base : Nat) : List Char → Option (List Nat)
  | [] => none
  | [char] => (digitOf? base char).map ([·])
  | char :: '_' :: rest => do return (← digitOf? base char) :: (← digitRun? base rest)
  | char :: rest => do return (← digitOf? base char) :: (← digitRun? base rest)

def number (base : Nat) (digits : List Nat) : Nat := digits.foldl (fun acc digit => acc * base + digit) 0

/-- `int(text, base)`; more decimal digits than the interpreter allows are refused, zero for no limit. -/
def int? (maxDigits base : Nat) (text : String) : Option Int := do
  let (negative, body) := splitSign (withoutMargins text.toList)
  let digits ← digitRun? base (withoutMark base body)
  if base = 10 ∧ maxDigits ≠ 0 ∧ maxDigits < digits.length then none
  else if negative then some (-(number base digits : Int))
  else some (number base digits)

/-- The interpreter reads and writes numbers as long as this one. -/
def Legible (maxDigits n : Nat) : Prop := maxDigits ≠ 0 → (toString n).length ≤ maxDigits

instance (maxDigits n : Nat) : Decidable (Legible maxDigits n) :=
  inferInstanceAs (Decidable (maxDigits ≠ 0 → (toString n).length ≤ maxDigits))

section Numerals

variable {base maxDigits n digit : Nat} {chars : List Char}

theorem Legible.mono {few many : Nat} (legible : Legible maxDigits many) (le : few ≤ many) : Legible maxDigits few := by
  intro limited
  have allowed := legible limited
  have positive : 0 < maxDigits := by omega
  rw [Nat.toString_eq_repr, Nat.length_repr_le_iff positive] at allowed ⊢
  omega

/-- The digits that are written read back. -/
theorem digitOf?_digitChar (inBase : digit < base) (hexadecimal : base ≤ 16) :
    digitOf? base digit.digitChar = some digit := by
  have values : ∀ digit < 16, (decimalDigit? digit.digitChar).or (letterDigit? digit.digitChar) = some digit := by
    decide +kernel
  rw [digitOf?, values digit (by omega), Option.filter_some, if_pos (by simpa using inBase)]

theorem not_isMargin_digitChar (hexadecimal : digit < 16) : isMargin digit.digitChar = false := by
  have values : ∀ digit < 16, isMargin digit.digitChar = false := by decide +kernel
  exact values digit hexadecimal

/-- Every numeral consists of digits. -/
theorem toDigits_digits (large : 1 < base) (n : Nat) :
    ∃ digits : List Nat, digits ≠ [] ∧ (∀ digit ∈ digits, digit < base) ∧
    Nat.toDigits base n = digits.map Nat.digitChar ∧ number base digits = n := by
  induction n using Nat.strongRecOn with
  | ind n ih =>
      rw [Nat.toDigits_eq_if large]
      split
      · next small => exact ⟨[n], by simp, by simpa using small, rfl, by simp [number]⟩
      · next big =>
        have smaller : n / base < n := Nat.div_lt_self (by omega) large
        obtain ⟨digits, _, inBase, written, same⟩ := ih (n / base) smaller
        refine ⟨digits ++ [n % base], by simp, ?_, by simp [written], ?_⟩
        · intro digit member
          rcases List.mem_append.mp member with member | member
          · exact inBase digit member
          · rw [List.mem_singleton.mp member]
            exact Nat.mod_lt n (by omega)
        · rw [number, List.foldl_append]
          change number base digits * base + n % base = n
          rw [same, Nat.div_add_mod']

theorem digitRun?_digits {digits : List Nat} (filled : digits ≠ []) (inBase : ∀ digit ∈ digits, digit < base)
    (hexadecimal : base ≤ 16) : digitRun? base (digits.map Nat.digitChar) = some digits := by
  induction digits with
  | nil => exact absurd rfl filled
  | cons first rest ih =>
      obtain ⟨small, others⟩ := List.forall_mem_cons.mp inBase
      have read := digitOf?_digitChar small hexadecimal
      cases rest with
      | nil => simp [digitRun?, read]
      | cons second rest =>
          have joined : second.digitChar ≠ '_' := by
            apply Nat.digitChar_ne
            decide
          have later := ih (by simp) others
          rw [List.map_cons] at later
          rw [List.map_cons, List.map_cons, digitRun?, read, later]
          · rfl
          · simp
          · exact fun _ same => joined (List.cons.inj same).1

theorem withoutMargins_eq (solid : ∀ char ∈ chars, isMargin char = false) : withoutMargins chars = chars := by
  have kept {list : List Char} (solid : ∀ char ∈ list, isMargin char = false) : list.dropWhile isMargin = list := by
    cases list with
    | nil => rfl
    | cons first rest => rw [List.dropWhile_cons_of_neg (by simp [solid first List.mem_cons_self])]
  unfold withoutMargins
  rw [kept solid, kept fun char member => solid char (List.mem_reverse.mp member), List.reverse_reverse]

/-- Digits stand behind no sign and no mark. -/
theorem bare_digits (base : Nat) (digits : List Nat) :
    splitSign (digits.map Nat.digitChar) = (false, digits.map Nat.digitChar) ∧
      withoutMark base (digits.map Nat.digitChar) = digits.map Nat.digitChar := by
  have bare {mark : Char} (isMark : mark ∈ ['-', '+', 'x', 'X']) (digit : Nat) : digit.digitChar ≠ mark := by
    simp only [List.mem_cons, List.not_mem_nil, or_false] at isMark
    apply Nat.digitChar_ne
    rcases isMark with rfl | rfl | rfl | rfl <;> decide
  constructor
  · unfold splitSign
    split
    · next first => cases digits <;> simp [bare (show '-' ∈ ['-', '+', 'x', 'X'] by decide)] at first
    · next first => cases digits <;> simp [bare (show '+' ∈ ['-', '+', 'x', 'X'] by decide)] at first
    · rfl
  · unfold withoutMark
    split
    · next mark _ written =>
      match digits with
      | [] | [_] => simp at written
      | _ :: second :: _ =>
          simp only [List.map_cons, List.cons.injEq] at written
          rw [if_neg]
          · simp [written.1, written.2.1, written.2.2]
          · rintro ⟨_, rfl | rfl⟩
            · exact bare (by decide) second written.2.1
            · exact bare (by decide) second written.2.1
    · rfl

/-- A numeral is read as its number, with zeros in front as well. -/
theorem int?_digits {digits : List Nat} (filled : digits ≠ []) (inBase : ∀ digit ∈ digits, digit < base)
    (hexadecimal : base ≤ 16) (legible : base = 10 → maxDigits ≠ 0 → digits.length ≤ maxDigits) :
    int? maxDigits base (.ofList (digits.map Nat.digitChar)) = some (number base digits : Int) := by
  have solid : ∀ char ∈ digits.map Nat.digitChar, isMargin char = false := by
    intro char member
    obtain ⟨digit, listed, rfl⟩ := List.mem_map.mp member
    exact not_isMargin_digitChar (Nat.lt_of_lt_of_le (inBase digit listed) hexadecimal)
  have short : ¬ (base = 10 ∧ maxDigits ≠ 0 ∧ maxDigits < digits.length) := by
    rintro ⟨ten, limited, long⟩
    have enough := legible ten limited
    omega
  obtain ⟨unsigned, unmarked⟩ := bare_digits base digits
  unfold int?
  rw [String.toList_ofList, withoutMargins_eq solid, unsigned]
  dsimp only
  rw [unmarked, digitRun?_digits filled inBase hexadecimal]
  simp only [Option.bind_eq_bind, Option.bind_some, if_neg short, Bool.false_eq_true, if_false]

/-- `int(str(n))`. -/
theorem int?_toString (legible : Legible maxDigits n) : int? maxDigits 10 (toString n) = some (n : Int) := by
  obtain ⟨digits, filled, inBase, written, same⟩ := toDigits_digits (show 1 < 10 by decide) n
  have text : toString n = .ofList (digits.map Nat.digitChar) := by
    rw [← written]
    exact Nat.toString_eq_ofList_toDigits
  have long : digits.length = (toString n).length := by
    rw [text, String.length_ofList, List.length_map]
  rw [text, int?_digits filled inBase (by decide), same]
  intro _ limited
  rw [long]
  exact legible limited

end Numerals

end SmartProcurement.Text
