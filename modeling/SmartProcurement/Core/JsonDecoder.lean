import Mathlib.Data.List.DropRight
import SmartProcurement.Core.Values
import SmartProcurement.Relational.Entries
import SmartProcurement.Text.Scanner
import SmartProcurement.Transaction.Raises

namespace SmartProcurement.JsonDecoder

open Relational Text Transaction

/-! # Decoding JSON

`json.loads` on a text.  A syntax error is a `JSONDecodeError`; an integer of too many
digits and a value that is nested too deep raise other exceptions.
-/

/-- The exceptions of `json.loads`; the position of a syntax error is known by the
number of characters left there. -/
inductive LoadsError where
  | decode (message : String) (left : Nat)
  | tooManyDigits (count : Nat)
  | recursion
deriving DecidableEq, Repr

/-- `sys.get_int_max_str_digits()` and the levels left for recursion. -/
structure Limits where
  digits : Nat
  levels : Nat

def isBlank (char : Char) : Bool := char = ' ' || char = '\t' || char = '\n' || char = '\r'

def skipBlanks (text : List Char) : List Char := text.dropWhile isBlank

theorem skipBlanks_suffix (text : List Char) : skipBlanks text <:+ text := List.dropWhile_suffix isBlank

/-! ## Strings -/

def hexDigit? (char : Char) : Option Nat :=
  let code := char.toNat
  if 48 ≤ code ∧ code ≤ 57 then some (code - 48)
  else if 65 ≤ code ∧ code ≤ 70 then some (code - 55)
  else if 97 ≤ code ∧ code ≤ 102 then some (code - 87)
  else none

def hex? (digits : List Char) : Option Nat :=
  digits.foldlM (fun acc char => (hexDigit? char).map (acc * 16 + ·)) 0

def isHighSurrogate (code : Nat) : Bool := 0xd800 ≤ code && code ≤ 0xdbff

def isLowSurrogate (code : Nat) : Bool := 0xdc00 ≤ code && code ≤ 0xdfff

/-- A surrogate that stands alone is no character and reads as the replacement character. -/
def character (code : Nat) : Char :=
  if isHighSurrogate code || isLowSurrogate code then '\ufffd' else .ofNat code

def join (high low : Nat) : Char := .ofNat (0x10000 + (high - 0xd800) * 0x400 + (low - 0xdc00))

def invalidUnicode (digits : List Char) : LoadsError := .decode "Invalid \\uXXXX escape" (digits.length + 1)

/-- The four digits of an escape, with at least one character behind them. -/
def unicodeDigits (text : List Char) : Except LoadsError (Scanned Nat text) :=
  if filled : 4 < text.length then
    match hex? (text.take 4) with
    | none => .error (invalidUnicode text)
    | some code => .ok ⟨code, text.drop 4, proper_drop (List.ne_nil_of_length_pos (Nat.zero_lt_of_lt filled)) (by decide)⟩
  else .error (invalidUnicode text)

/-- Behind `\u`: a code point, or a surrogate pair in two escapes. -/
def scanUnicode (text : List Char) : Except LoadsError (Scanned Char text) :=
  match unicodeDigits text with
  | .error reason => .error reason
  | .ok ⟨high, rest, proper⟩ =>
      match rest with
      | '\\' :: 'u' :: digits =>
          if isHighSurrogate high ∧ 4 < digits.length then
            match hex? (digits.take 4) with
            | none => .error (invalidUnicode digits)
            | some low =>
                if isLowSurrogate low then
                  have dropped : digits.drop 4 <:+ '\\' :: 'u' :: digits :=
                    (List.drop_suffix 4 digits).trans ((List.suffix_cons _ _).trans (List.suffix_cons _ _))
                  .ok ⟨join high low, digits.drop 4, proper.of_suffix dropped⟩
                else .ok ⟨character high, '\\' :: 'u' :: digits, proper⟩
          else .ok ⟨character high, '\\' :: 'u' :: digits, proper⟩
      | rest => .ok ⟨character high, rest, proper⟩

def escapes : List (Char × Char) := [
  ('"', '"'), ('\\', '\\'), ('/', '/'), ('b', '\x08'), ('f', '\x0c'), ('n', '\n'), ('r', '\r'), ('t', '\t')]

/-- Behind a backslash. -/
def scanEscape (start : Nat) : (text : List Char) → Except LoadsError (Scanned Char text)
  | [] => .error (.decode "Unterminated string starting at" start)
  | mark :: rest =>
      if mark = 'u' then (scanUnicode rest).map (·.behind (List.suffix_cons mark rest))
      else
        match escapes.lookup mark with
        | none => .error (.decode "Invalid \\escape" (rest.length + 2))
        | some char => .ok ⟨char, rest, proper_cons List.suffix_rfl⟩

/-- One character of a string, `none` for the quote that ends it. -/
def scanChar (start : Nat) : Scanner LoadsError (Option Char)
  | [] => .error (.decode "Unterminated string starting at" start)
  | char :: rest =>
      if char = '"' then .ok ⟨none, rest, proper_cons List.suffix_rfl⟩
      else if char = '\\' then
        (scanEscape start rest).map fun scanned => (scanned.map some).behind (List.suffix_cons char rest)
      else if char.toNat < 32 then .error (.decode "Invalid control character at" (rest.length + 1))
      else .ok ⟨some char, rest, proper_cons List.suffix_rfl⟩

/-- Behind the quote at `start`. -/
def scanString (start : Nat) (text : List Char) : Except LoadsError (Scanned String text) :=
  (untilNone (scanChar start) text).map (·.map .ofList)

/-! ## Numbers -/

def isDigit (char : Char) : Bool := '0' ≤ char && char ≤ '9'

def wholePart (text : List Char) : List Char :=
  if text.head? = some '0' then ['0'] else text.takeWhile isDigit

def fractionPart : List Char → List Char
  | '.' :: rest => if rest.takeWhile isDigit = [] then [] else '.' :: rest.takeWhile isDigit
  | _ => []

def signPart (signs : List Char) (text : List Char) : List Char :=
  (text.head?.filter (· ∈ signs)).toList

def exponentPart : List Char → List Char
  | [] => []
  | mark :: rest =>
      let sign := signPart ['+', '-'] rest
      let digits := (rest.drop sign.length).takeWhile isDigit
      if (mark = 'e' ∨ mark = 'E') ∧ digits ≠ [] then mark :: (sign ++ digits) else []

def expectingValue (text : List Char) : LoadsError := .decode "Expecting value" text.length

def scanNumber (digits : Nat) (text : List Char) : Except LoadsError (Scanned Json text) :=
  let sign := signPart ['-'] text
  let whole := wholePart (text.drop sign.length)
  let rest := text.drop (sign.length + whole.length)
  let fraction := fractionPart rest
  let exponent := exponentPart (rest.drop fraction.length)
  let read := sign.length + whole.length + fraction.length + exponent.length
  if none : whole = [] then .error (expectingValue text)
  else if fraction = [] ∧ exponent = [] ∧ digits < whole.length then .error (.tooManyDigits whole.length)
  else
    have filled : text ≠ [] := by
      rintro rfl
      exact none rfl
    have positive : 0 < read := by
      have digit := List.length_pos_of_ne_nil none
      omega
    .ok ⟨.number (.ofList (text.take read)), text.drop read, proper_drop filled positive⟩

/-! ## Values -/

def constants : List (String × Json) := [
  ("null", .null), ("true", .bool true), ("false", .bool false), ("NaN", .number "NaN"),
  ("Infinity", .number "Infinity"), ("-Infinity", .number "-Infinity")]

def scanConstant? (text : List Char) (filled : text ≠ []) : Option (Scanned Json text) :=
  constants.findSome? fun (word, value) =>
    if starts : 0 < word.length ∧ word.toList <+: text then
      some ⟨value, text.drop word.length, proper_drop filled starts.1⟩
    else none

/-- Items behind an opening bracket, none if it is closed at once. -/
def enclosed {α : Type} (close : Char) (scan : Scanner LoadsError α) (text : List Char) :
    Except LoadsError (Scanned (List α) text) :=
  if closed : (skipBlanks text).head? = some close then
    .ok ⟨[], (skipBlanks text).tail, close, by rw [List.cons_head?_tail closed]; exact skipBlanks_suffix text⟩
  else
    (items skipBlanks skipBlanks_suffix (fun rest => .decode "Expecting ',' delimiter" rest.length) close scan
      (skipBlanks text)).map (·.behind (skipBlanks_suffix text))

theorem suffix_behind_colon {after inner rest : List Char} (proper : Proper after rest)
    (colon : skipBlanks after = ':' :: inner) :
    skipBlanks inner <:+ rest := by
  have value : skipBlanks inner <:+ skipBlanks after := by
    rw [colon]
    exact (skipBlanks_suffix inner).trans (List.suffix_cons ':' inner)
  exact value.trans ((skipBlanks_suffix after).trans proper.suffix)

/-- A member of an object, on the text from its name. -/
def scanMember (scan : Scanner LoadsError Json) : Scanner LoadsError (String × Json)
  | '"' :: rest =>
      match scanString (rest.length + 1) rest with
      | .error reason => .error reason
      | .ok ⟨key, after, proper⟩ =>
          match colon : skipBlanks after with
          | ':' :: inner =>
              (scan (skipBlanks inner)).map fun scanned =>
                (scanned.map (key, ·)).behind ((suffix_behind_colon proper colon).trans (List.suffix_cons '"' rest))
          | other => .error (.decode "Expecting ':' delimiter" other.length)
  | text => .error (.decode "Expecting property name enclosed in double quotes" text.length)

/-- `scan_once`. -/
def scanOnce (digits : Nat) (levels : Nat) : Scanner LoadsError Json
  | [] => .error (expectingValue [])
  | first :: rest =>
      if first = '"' then
        (scanString (rest.length + 1) rest).map fun scanned => (scanned.map .string).behind (List.suffix_cons first rest)
      else if first = '{' then
        match levels with
        | 0 => .error .recursion
        | levels + 1 =>
            (enclosed '}' (scanMember (scanOnce digits levels)) rest).map fun scanned =>
              (scanned.map (.object <| fromPairs ·)).behind (List.suffix_cons first rest)
      else if first = '[' then
        match levels with
        | 0 => .error .recursion
        | levels + 1 =>
            (enclosed ']' (scanOnce digits levels) rest).map fun scanned =>
              (scanned.map .array).behind (List.suffix_cons first rest)
      else
        match scanConstant? (first :: rest) (List.cons_ne_nil first rest) with
        | some constant => .ok constant
        | none => scanNumber digits (first :: rest)

/-- `json.loads`. -/
def loads (limits : Limits) (content : String) : Except LoadsError Json :=
  let text := content.toList
  if text.head? = some '\ufeff' then .error (.decode "Unexpected UTF-8 BOM (decode using utf-8-sig)" text.length)
  else
    match scanOnce limits.digits limits.levels (skipBlanks text) with
    | .error reason => .error reason
    | .ok scanned =>
        match skipBlanks scanned.rest with
        | [] => .ok scanned.value
        | rest => .error (.decode "Extra data" rest.length)

/-- `str` of a `JSONDecodeError`. -/
def errorText (content message : String) (left : Nat) : String :=
  let read := content.toList.take (content.length - left)
  let line := read.count '\n' + 1
  let column := (read.rtakeWhile (· ≠ '\n')).length + 1
  message ++ ": line " ++ toString line ++ " column " ++ toString column ++ " (char " ++ toString read.length ++ ")"

/-! ## Texts within the limits -/

section Loops

variable {ε α : Type} {allowed : ε → Prop} {text : List Char}

theorem refuses_untilNone {scan : Scanner ε (Option α)} (steps : ∀ inner, Refuses allowed (scan inner)) (text : List Char) :
    Refuses allowed (untilNone scan text) := by
  fun_induction untilNone scan text with
  | case1 text reason failed => exact refuses_error (steps text reason failed)
  | case2 => exact refuses_ok _
  | case3 text value rest proper scanned reason failed ih => exact refuses_error (ih reason failed)
  | case4 => exact refuses_ok _

theorem refuses_items {skip : List Char → List Char} {skips : ∀ text, skip text <:+ text} {failure : List Char → ε}
    {close : Char}
    {scan : Scanner ε α} (steps : ∀ inner, inner <:+ text → Refuses allowed (scan inner)) (fails : ∀ rest, allowed (failure rest)) :
    Refuses allowed (items skip skips failure close scan text) := by
  fun_induction items skip skips failure close scan text with
  | case1 text reason failed => exact refuses_error (steps text List.suffix_rfl reason failed)
  | case2 => exact refuses_error (fails [])
  | case3 => exact refuses_ok _
  | case4 text value rest proper scanned inner reason failed after read open_ next ih =>
      exact refuses_error (ih (fun last suffix => steps last (suffix.trans next.suffix)) reason failed)
  | case5 => exact refuses_ok _
  | case6 text value rest proper scanned mark inner => exact refuses_error (fails (mark :: inner))

end Loops

def IsDecode (reason : LoadsError) : Prop := ∃ message left, reason = .decode message left

def opens (char : Char) : Bool := char = '{' || char = '['

/-- No run of digits and no nesting goes over the limits. -/
structure Within (limits : Limits) (text : List Char) : Prop where
  digits : ∀ run, run <:+: text → (∀ char ∈ run, isDigit char = true) → run.length ≤ limits.digits
  levels : text.countP opens ≤ limits.levels

section Within

variable {limits : Limits} {digits levels : Nat} {first : Char} {inner rest text : List Char}

theorem Within.suffix (within : Within limits text) (suffix : inner <:+ text) : Within limits inner :=
  ⟨fun run contains => within.digits run (contains.trans suffix.isInfix), suffix.sublist.countP_le.trans within.levels⟩

/-- An opening bracket takes a level. -/
theorem Within.behind (within : Within ⟨digits, levels⟩ (first :: rest)) (opening : opens first = true) :
    ∃ lower, levels = lower + 1 ∧ Within ⟨digits, lower⟩ rest := by
  have count := within.levels
  rw [List.countP_cons_of_pos opening] at count
  obtain ⟨lower, rfl⟩ := Nat.exists_eq_succ_of_ne_zero (Nat.ne_zero_of_lt count)
  exact ⟨lower, rfl, (within.suffix (List.suffix_cons first rest)).digits, Nat.le_of_succ_le_succ count⟩

theorem isDecode_decode (message : String) (left : Nat) : IsDecode (.decode message left) := ⟨message, left, rfl⟩

theorem refuses_unicodeDigits (text : List Char) : Refuses IsDecode (unicodeDigits text) := by
  unfold unicodeDigits
  split
  · split
    · exact refuses_error (isDecode_decode _ _)
    · exact refuses_ok _
  · exact refuses_error (isDecode_decode _ _)

theorem refuses_scanUnicode (text : List Char) : Refuses IsDecode (scanUnicode text) := by
  unfold scanUnicode
  split
  · next reason failed => exact refuses_error (refuses_unicodeDigits text reason failed)
  · split
    · split
      · split
        · exact refuses_error (isDecode_decode _ _)
        · split <;> exact refuses_ok _
      · exact refuses_ok _
    · exact refuses_ok _

theorem refuses_scanEscape (start : Nat) (text : List Char) : Refuses IsDecode (scanEscape start text) := by
  cases text with
  | nil => exact refuses_error (isDecode_decode _ _)
  | cons mark rest =>
      rw [scanEscape]
      split
      · exact (refuses_scanUnicode rest).map
      · split
        · exact refuses_error (isDecode_decode _ _)
        · exact refuses_ok _

theorem refuses_scanChar (start : Nat) (text : List Char) : Refuses IsDecode (scanChar start text) := by
  cases text with
  | nil => exact refuses_error (isDecode_decode _ _)
  | cons char rest =>
      rw [scanChar]
      split
      · exact refuses_ok _
      · split
        · exact (refuses_scanEscape start rest).map
        · split
          · exact refuses_error (isDecode_decode _ _)
          · exact refuses_ok _

theorem refuses_scanString (start : Nat) (text : List Char) : Refuses IsDecode (scanString start text) :=
  (refuses_untilNone (refuses_scanChar start) text).map

/-- The digits of a whole part stand together in the text. -/
theorem wholePart_run (text : List Char) : wholePart text <+: text ∧ ∀ char ∈ wholePart text, isDigit char = true := by
  unfold wholePart
  split
  · next zero =>
    obtain ⟨rest, rfl⟩ := List.head?_eq_some_iff.mp zero
    exact ⟨⟨rest, rfl⟩, by simp [isDigit]⟩
  · exact ⟨List.takeWhile_prefix _, fun char member => List.mem_takeWhile_imp member⟩

theorem refuses_scanNumber (within : Within ⟨digits, levels⟩ text) : Refuses IsDecode (scanNumber digits text) := by
  obtain ⟨begins, isRun⟩ := wholePart_run (text.drop (signPart ['-'] text).length)
  have few := within.digits _ (begins.isInfix.trans (List.drop_suffix _ text).isInfix) isRun
  unfold scanNumber
  dsimp only
  split
  · exact refuses_error (isDecode_decode _ _)
  · rw [if_neg fun long => absurd long.2.2 few.not_gt]
    exact refuses_ok _

theorem refuses_enclosed {α : Type} {close : Char} {scan : Scanner LoadsError α}
    (steps : ∀ inner, inner <:+ text → Refuses IsDecode (scan inner)) : Refuses IsDecode (enclosed close scan text) := by
  unfold enclosed
  split
  · exact refuses_ok _
  · exact (refuses_items (fun inner suffix => steps inner (suffix.trans (skipBlanks_suffix text)))
      fun rest => isDecode_decode _ _).map

theorem refuses_scanMember {scan : Scanner LoadsError Json} (steps : ∀ inner, inner <:+ text → Refuses IsDecode (scan inner)) :
    Refuses IsDecode (scanMember scan text) := by
  unfold scanMember
  split
  · next rest =>
    split
    · next reason failed => exact refuses_error (refuses_scanString _ _ reason failed)
    · next key after proper scanned =>
      split
      · next inner colon =>
        exact (steps _ ((suffix_behind_colon proper colon).trans (List.suffix_cons '"' rest))).map
      · exact refuses_error (isDecode_decode _ _)
  · exact refuses_error (isDecode_decode _ _)

theorem refuses_level (within : Within ⟨digits, levels⟩ text) (inside : ∀ lower, levels = lower + 1 → ∀ inner,
    Within ⟨digits, lower⟩ inner → Refuses IsDecode (scanOnce digits lower inner)) :
    Refuses IsDecode (scanOnce digits levels text) := by
  cases text with
  | nil =>
      unfold scanOnce
      exact refuses_error (isDecode_decode _ _)
  | cons first rest =>
      unfold scanOnce
      split
      · exact (refuses_scanString _ rest).map
      · split
        · next brace =>
          obtain ⟨lower, rfl, fits⟩ := within.behind (by simp [opens, brace])
          refine (refuses_enclosed fun inner suffix => refuses_scanMember fun value own => ?_).map
          exact inside lower rfl value (fits.suffix (own.trans suffix))
        · split
          · next bracket =>
            obtain ⟨lower, rfl, fits⟩ := within.behind (by simp [opens, bracket])
            exact (refuses_enclosed fun inner suffix => inside lower rfl inner (fits.suffix suffix)).map
          · split
            · exact refuses_ok _
            · exact refuses_scanNumber within

/-- Within the limits there are no exceptions but syntax errors. -/
theorem refuses_scanOnce (within : Within ⟨digits, levels⟩ text) : Refuses IsDecode (scanOnce digits levels text) := by
  induction levels generalizing text with
  | zero => exact refuses_level within nofun
  | succ levels ih =>
      refine refuses_level within fun lower same inner fits => ?_
      obtain rfl := Nat.succ.inj same
      exact ih fits

theorem refuses_loads {content : String} (within : Within limits content.toList) : Refuses IsDecode (loads limits content) := by
  unfold loads
  dsimp only
  split
  · exact refuses_error (isDecode_decode _ _)
  · split
    · next reason failed => exact refuses_error (refuses_scanOnce (within.suffix (skipBlanks_suffix _)) reason failed)
    · split
      · exact refuses_ok _
      · exact refuses_error (isDecode_decode _ _)

end Within

end SmartProcurement.JsonDecoder
