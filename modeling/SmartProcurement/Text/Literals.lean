import Mathlib.Data.Rat.Floor
import SmartProcurement.Numeric.Decimal
import SmartProcurement.Text.Casing

namespace SmartProcurement.Text

open SmartProcurement.Numeric

/-! # Reading numbers from text

White space, digits and the decimal literals of the `decimal` module:
what `Decimal(text)` accepts, the exact product of two literals, and the text
`str` gives back for it.
-/

/-- `str.isspace` on one character. -/
def isSpace (char : Char) : Bool :=
  let code := char.toNat
  (9 ≤ code && code ≤ 13) || (28 ≤ code && code ≤ 32) || code == 133 || code == 160 ||
    code == 5760 || (8192 ≤ code && code ≤ 8202) || code == 8232 || code == 8233 ||
    code == 8239 || code == 8287 || code == 12288

def strip (text : String) : String :=
  .ofList ((text.toList.dropWhile isSpace).reverse.dropWhile isSpace).reverse

/-- The zeros of Unicode; each stands before its nine other digits. -/
def zeros : List Nat := [
  48, 1632, 1776, 1984, 2406, 2534, 2662, 2790, 2918, 3046, 3174, 3302, 3430, 3558, 3664, 3792, 3872, 4160, 4240, 6112,
  6160, 6470, 6608, 6784, 6800, 6992, 7088, 7232, 7248, 42528, 43216, 43264, 43472, 43504, 43600, 44016, 65296, 66720,
  68912, 69734, 69872, 69942, 70096, 70384, 70736, 70864, 71248, 71360, 71472, 71904, 72016, 72784, 73040, 73120, 73552,
  92768, 92864, 93008, 120782, 120792, 120802, 120812, 120822, 123200, 123632, 124144, 125264, 130032]

def decimalDigit? (char : Char) : Option Nat :=
  (zeros.find? fun first => first ≤ char.toNat ∧ char.toNat < first + 10).map (char.toNat - ·)

/-- The number a list of digits writes, `none` when one of them is no digit. -/
def digits? (chars : List Char) : Option Nat :=
  chars.foldlM (fun acc char => (decimalDigit? char).map (acc * 10 + ·)) 0

/-- The number written by exactly `width` digits. -/
def fixedDigits? (width : Nat) (chars : List Char) : Option Nat :=
  if chars.length = width then digits? chars else none

/-- A finite decimal literal: sign, coefficient and exponent. -/
structure DecimalLiteral where
  negative : Bool
  coefficient : Nat
  exponent : Int
deriving DecidableEq, Repr

inductive DecimalText where
  | finite (literal : DecimalLiteral)
  | infinity (negative : Bool)
  | nan (signalling : Bool)
deriving DecidableEq, Repr

def DecimalLiteral.value (literal : DecimalLiteral) : ℚ :=
  (if literal.negative then -1 else 1) * literal.coefficient * 10 ^ literal.exponent

def DecimalText.value : DecimalText → Decimal
  | .finite literal => .finite literal.value
  | .infinity negative => .infinity negative
  | .nan true => .snan
  | .nan false => .nan

def DecimalLiteral.digitCount (literal : DecimalLiteral) : Nat :=
  (Nat.toDigits 10 literal.coefficient).length

/-- The exponent of the leading digit. -/
def DecimalLiteral.adjusted (literal : DecimalLiteral) : Int :=
  literal.exponent + literal.digitCount - 1

def maxLiteralExponent : Int := 999999999999999999

/-- The largest exponent of a result in the default context. -/
def maxContextExponent : Int := 999999

def exponent? : List Char → Option Int
  | [] => some 0
  | mark :: rest =>
      if mark.toLower = 'e' then
        match rest with
        | '-' :: digits => if digits.isEmpty then none else (digits? digits).map fun n => -(n : Int)
        | '+' :: digits => if digits.isEmpty then none else (digits? digits).map fun n => (n : Int)
        | digits => if digits.isEmpty then none else (digits? digits).map fun n => (n : Int)
      else none

def unsignedDecimal? (negative : Bool) (chars : List Char) : Option DecimalText :=
  let text := chars.map Char.toLower
  if text = "inf".toList ∨ text = "infinity".toList then some (.infinity negative)
  else if "nan".toList <+: text then
    (digits? (text.drop 3)).map fun _ => .nan false
  else if "snan".toList <+: text then
    (digits? (text.drop 4)).map fun _ => .nan true
  else
    let isDigit := fun char => (decimalDigit? char).isSome
    let whole := text.takeWhile isDigit
    let afterWhole := text.dropWhile isDigit
    let (fraction, tail) :=
      match afterWhole with
      | '.' :: rest => (rest.takeWhile isDigit, rest.dropWhile isDigit)
      | rest => ([], rest)
    if whole.isEmpty && fraction.isEmpty then none
    else do
      let coefficient ← digits? (whole ++ fraction)
      let exponent ← exponent? tail
      let literal : DecimalLiteral := ⟨negative, coefficient, exponent - fraction.length⟩
      if -maxLiteralExponent ≤ literal.adjusted ∧ literal.adjusted ≤ maxLiteralExponent then
        some (.finite literal)
      else none

/-- `Decimal(text)`, `none` for the conversion syntax error. -/
def decimal? (text : String) : Option DecimalText :=
  match (strip text).toList.filter (· ≠ '_') with
  | '-' :: rest => unsignedDecimal? true rest
  | '+' :: rest => unsignedDecimal? false rest
  | rest => unsignedDecimal? false rest

/-- Round a literal to the digits of the context. -/
def DecimalLiteral.round (literal : DecimalLiteral) : DecimalLiteral :=
  let excess := literal.digitCount - contextDigits.toNat
  if excess = 0 then literal
  else
    let rounded := (roundHalfEven ((literal.coefficient : ℚ) / 10 ^ excess)).toNat
    if rounded = 10 ^ contextDigits.toNat then
      ⟨literal.negative, rounded / 10, literal.exponent + excess + 1⟩
    else ⟨literal.negative, rounded, literal.exponent + excess⟩

/-- `left * right`. -/
def DecimalText.mul : DecimalText → DecimalText → Except Signal DecimalText
  | .nan true, _ | _, .nan true => .error .invalidOperation
  | .nan false, _ | _, .nan false => .ok (.nan false)
  | .infinity a, .infinity b => .ok (.infinity (a != b))
  | .infinity a, .finite b | .finite b, .infinity a =>
      if b.coefficient = 0 then .error .invalidOperation
      else .ok (.infinity (a != b.negative))
  | .finite a, .finite b =>
      let product : DecimalLiteral :=
        ⟨a.negative != b.negative, a.coefficient * b.coefficient, a.exponent + b.exponent⟩
      let rounded := product.round
      if maxContextExponent < rounded.adjusted then .error .overflow else .ok (.finite rounded)

/-- `str(value)` of a decimal: plain notation where it is short enough, an
exponent otherwise. -/
def DecimalText.str : DecimalText → String
  | .infinity negative => (if negative then "-" else "") ++ "Infinity"
  | .nan signalling => if signalling then "sNaN" else "NaN"
  | .finite literal =>
      let digits := Nat.toDigits 10 literal.coefficient
      let leftDigits : Int := literal.exponent + digits.length
      let point : Int := if literal.exponent ≤ 0 ∧ -6 < leftDigits then leftDigits else 1
      let sign := if literal.negative then "-" else ""
      let body :=
        if point ≤ 0 then "0." ++ .ofList (List.replicate (-point).toNat '0' ++ digits)
        else if (digits.length : Int) ≤ point then
          .ofList (digits ++ List.replicate (point - digits.length).toNat '0')
        else .ofList (digits.take point.toNat) ++ "." ++ .ofList (digits.drop point.toNat)
      let shift := leftDigits - point
      let exponent :=
        if shift = 0 then ""
        else "E" ++ (if shift < 0 then "-" else "+") ++ .ofList (Nat.toDigits 10 shift.natAbs)
      sign ++ body ++ exponent

/-- A UUID in the text form the database driver accepts: 32 hexadecimal digits,
with hyphens anywhere among them, of at most 36 characters. -/
def uuid? (text : String) : Option Nat :=
  let chars := text.toList
  let hex := chars.filter (· ≠ '-')
  if chars.length ≤ 36 ∧ hex.length = 32 then
    hex.foldlM (fun acc char =>
      let code := char.toLower.toNat
      if 48 ≤ code ∧ code ≤ 57 then some (acc * 16 + (code - 48))
      else if 97 ≤ code ∧ code ≤ 102 then some (acc * 16 + (code - 87))
      else none) 0
  else none

end SmartProcurement.Text
