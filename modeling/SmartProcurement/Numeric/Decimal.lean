import Mathlib.Data.Int.Log
import Mathlib.Data.Rat.Floor
import Mathlib.Tactic.Positivity
import Mathlib.Tactic.NormNum

namespace SmartProcurement.Numeric

/-! # Decimal arithmetic

Decimal numbers as a program computes with them: results are rounded to the
significant digits of the context, special values propagate, and the operations
that have no result signal.  A column of type `Numeric(p, s)` is the other half:
it keeps a fixed number of fractional digits and a bounded magnitude.
-/

inductive Decimal where
  | finite (value : ℚ)
  | nan
  | snan
  | infinity (negative : Bool)
deriving DecidableEq

/-- The trapped conditions of the default context. -/
inductive Signal where
  | invalidOperation
  | divisionByZero
  | overflow
deriving DecidableEq, Repr

def roundHalfEven (value : ℚ) : ℤ :=
  let down := ⌊value⌋
  let rest := value - down
  if rest < 1 / 2 then down
  else if 1 / 2 < rest then down + 1
  else if down % 2 = 0 then down
  else down + 1

def roundHalfAway (value : ℚ) : ℤ :=
  if 0 ≤ value then ⌊value + 1 / 2⌋ else -⌊-value + 1 / 2⌋

/-- The default context works with 28 significant digits. -/
def contextDigits : ℤ := 28

def roundContext (value : ℚ) : ℚ :=
  if value = 0 then 0
  else
    let scale : ℚ := 10 ^ (contextDigits - 1 - Int.log 10 |value|)
    roundHalfEven (value * scale) / scale

namespace Decimal

def zero : Decimal := .finite 0

/-- A quiet or signalling NaN operand decides the result of an operation. -/
def nanOperand : Decimal → Decimal → Option (Except Signal Decimal)
  | .snan, _ | _, .snan => some (.error .invalidOperation)
  | .nan, _ | _, .nan => some (.ok .nan)
  | _, _ => none

def add (left right : Decimal) : Except Signal Decimal :=
  match nanOperand left right with
  | some result => result
  | none =>
      match left, right with
      | .infinity a, .infinity b => if a = b then .ok (.infinity a) else .error .invalidOperation
      | .infinity a, _ => .ok (.infinity a)
      | _, .infinity b => .ok (.infinity b)
      | .finite a, .finite b => .ok (.finite (roundContext (a + b)))
      | _, _ => .ok .nan

def neg : Decimal → Decimal
  | .finite a => .finite (-a)
  | .infinity negative => .infinity (!negative)
  | special => special

def sub (left right : Decimal) : Except Signal Decimal :=
  add left (neg right)

def negative : Decimal → Bool
  | .finite a => decide (a < 0)
  | .infinity negative => negative
  | _ => false

def div (left right : Decimal) : Except Signal Decimal :=
  match nanOperand left right with
  | some result => result
  | none =>
      match left, right with
      | .infinity _, .infinity _ => .error .invalidOperation
      | .infinity a, divisor => .ok (.infinity (a != divisor.negative))
      | _, .infinity _ => .ok (.finite 0)
      | .finite a, .finite b =>
          if b = 0 then .error (if a = 0 then .invalidOperation else .divisionByZero)
          else .ok (.finite (roundContext (a / b)))
      | _, _ => .ok .nan

/-- `abs`, which rounds like every other operation. -/
def abs : Decimal → Except Signal Decimal
  | .finite a => .ok (.finite (roundContext |a|))
  | .infinity _ => .ok (.infinity false)
  | .nan => .ok .nan
  | .snan => .error .invalidOperation

/-- `sum(values, Decimal(0))`. -/
def sum (values : List Decimal) : Except Signal Decimal :=
  values.foldlM add zero

/-- `left == right`; only a signalling NaN makes equality raise. -/
def eq (left right : Decimal) : Except Signal Bool :=
  match nanOperand left right with
  | some (.error signal) => .error signal
  | some (.ok _) => .ok false
  | none => .ok (left = right)

/-- `left < right`; ordering comparisons raise on any NaN. -/
def lt (left right : Decimal) : Except Signal Bool :=
  match nanOperand left right with
  | some _ => .error .invalidOperation
  | none =>
      match left, right with
      | .infinity a, .infinity b => .ok (a && !b)
      | .infinity a, _ => .ok a
      | _, .infinity b => .ok (!b)
      | .finite a, .finite b => .ok (decide (a < b))
      | _, _ => .error .invalidOperation

def le (left right : Decimal) : Except Signal Bool := do
  return !(← lt right left)

/-- `bool(value)`. -/
def truthy : Decimal → Bool
  | .finite a => decide (a ≠ 0)
  | _ => true

/-! ## Fixed-point columns -/

/-- Precision and scale of a `Numeric(p, s)` column. -/
structure FixedPoint where
  precision : Nat
  scale : Nat

def FixedPoint.quantize (column : FixedPoint) (value : ℚ) : ℚ :=
  roundHalfAway (value * 10 ^ column.scale) / 10 ^ column.scale

/-- What the column stores for a value, `none` for a numeric field overflow.
Both kinds of NaN are stored as the column's one `NaN`. -/
def FixedPoint.store (column : FixedPoint) : Decimal → Option Decimal
  | .finite value =>
      let rounded := column.quantize value
      if |rounded| < 10 ^ (column.precision - column.scale) then some (.finite rounded) else none
  | .nan | .snan => some .nan
  | .infinity _ => none

theorem roundHalfAway_intCast (n : ℤ) : roundHalfAway n = n := by
  have half : ⌊(1 / 2 : ℚ)⌋ = 0 := by norm_num
  unfold roundHalfAway
  split
  · rw [Int.floor_intCast_add, half, add_zero]
  · rw [← Int.cast_neg, Int.floor_intCast_add, half, add_zero, neg_neg]

theorem FixedPoint.quantize_quantize (column : FixedPoint) (value : ℚ) :
    column.quantize (column.quantize value) = column.quantize value := by
  have unit : (10 : ℚ) ^ column.scale ≠ 0 := by positivity
  unfold FixedPoint.quantize
  rw [div_mul_cancel₀ _ unit, roundHalfAway_intCast]

/-- What a column keeps, it keeps unchanged. -/
theorem FixedPoint.store_store {column : FixedPoint} {value stored : Decimal}
    (kept : column.store value = some stored) : column.store stored = some stored := by
  cases value with
  | finite value =>
      simp only [FixedPoint.store] at kept
      split at kept
      · next bounded =>
          cases kept
          simp only [FixedPoint.store, FixedPoint.quantize_quantize, if_pos bounded]
      · cases kept
  | nan => cases kept; rfl
  | snan => cases kept; rfl
  | infinity _ => cases kept

end Decimal

end SmartProcurement.Numeric
