import SmartProcurement.Core.JsonDecoder
import SmartProcurement.Core.Uuids

namespace SmartProcurement.JsonEncoder

open Relational Text JsonDecoder

/-! # Encoding JSON

`json.dumps` with its default arguments: ASCII characters only, one blank behind every
separator, members in the order of the dict.  What it writes, `json.loads` reads back.
-/

/-- `'\\u{0:04x}'.format(code)`. -/
def unicodeEscape (code : Nat) : List Char := '\\' :: 'u' :: hexDigits 4 code

/-- `ESCAPE_DCT`, without the control characters that it writes in hexadecimal. -/
def shortEscapes : List (Char × Char) := [
  ('\\', '\\'), ('"', '"'), ('\x08', 'b'), ('\x0c', 'f'), ('\n', 'n'), ('\r', 'r'), ('\t', 't')]

/-- A character beyond the basic plane is written as a surrogate pair. -/
def encodeChar (char : Char) : List Char :=
  match shortEscapes.lookup char with
  | some mark => ['\\', mark]
  | none =>
      if 32 ≤ char.toNat ∧ char.toNat ≤ 126 then [char]
      else if char.toNat < 0x10000 then unicodeEscape char.toNat
      else
        let code := char.toNat - 0x10000
        unicodeEscape (0xd800 + code / 0x400) ++ unicodeEscape (0xdc00 + code % 0x400)

def encodeString (text : String) : List Char := '"' :: (text.toList.flatMap encodeChar ++ ['"'])

mutual

def encode : Json → List Char
  | .null => "null".toList
  | .bool true => "true".toList
  | .bool false => "false".toList
  | .number text => text.toList
  | .string text => encodeString text
  | .array [] => "[]".toList
  | .array (item :: rest) => '[' :: (encode item ++ encodeItems rest)
  | .object [] => "{}".toList
  | .object ((key, value) :: rest) => '{' :: (encodeString key ++ ": ".toList ++ encode value ++ encodeMembers rest)

/-- The items behind the first one, and the bracket. -/
def encodeItems : List Json → List Char
  | [] => [']']
  | item :: rest => ", ".toList ++ encode item ++ encodeItems rest

def encodeMembers : List (String × Json) → List Char
  | [] => ['}']
  | (key, value) :: rest => ", ".toList ++ encodeString key ++ ": ".toList ++ encode value ++ encodeMembers rest

end

/-- `json.dumps`. -/
def dumps (value : Json) : String := .ofList (encode value)

example : dumps (.object [("kind", .string "bearer"), ("token", .string "é\n"), ("scopes", .array [.number "1", .null])]) =
    "\x7b\"kind\": \"bearer\", \"token\": \"\\u00e9\\n\", \"scopes\": [1, null]\x7d" := by decide

/-! ## What can be encoded -/

def Digits (text : List Char) : Prop := text ≠ [] ∧ ∀ char ∈ text, isDigit char = true

def IsWhole (text : List Char) : Prop := text = ['0'] ∨ (Digits text ∧ text.head? ≠ some '0')

def IsFraction (text : List Char) : Prop := text = [] ∨ ∃ digits, Digits digits ∧ text = '.' :: digits

def IsExponent (text : List Char) : Prop :=
  text = [] ∨ ∃ mark sign digits, (mark = 'e' ∨ mark = 'E') ∧ (sign = [] ∨ sign = ['+'] ∨ sign = ['-']) ∧
    Digits digits ∧ text = mark :: (sign ++ digits)

/-- `NUMBER_RE`; an integer has at most so many digits. -/
def IsNumber (limit : Nat) (text : List Char) : Prop :=
  ∃ sign whole fraction exponent, (sign = [] ∨ sign = ['-']) ∧ IsWhole whole ∧ IsFraction fraction ∧ IsExponent exponent ∧
    (fraction = [] → exponent = [] → whole.length ≤ limit) ∧ text = sign ++ (whole ++ (fraction ++ exponent))

/-- A value that Python holds: numbers as it prints them, distinct keys, and no more
levels than the decoder can recurse. -/
inductive Fits (digits : Nat) : Nat → Json → Prop where
  | null {levels : Nat} : Fits digits levels .null
  | bool {levels : Nat} (value : Bool) : Fits digits levels (.bool value)
  | number {levels : Nat} {text : String} (isNumber : IsNumber digits text.toList) : Fits digits levels (.number text)
  | special {levels : Nat} {text : String} (isSpecial : text ∈ ["NaN", "Infinity", "-Infinity"]) : Fits digits levels (.number text)
  | string {levels : Nat} (text : String) : Fits digits levels (.string text)
  | array {levels : Nat} {items : List Json} (fit : ∀ item ∈ items, Fits digits levels item) :
      Fits digits (levels + 1) (.array items)
  | object {levels : Nat} {fields : List (String × Json)} (distinct : (fields.map Prod.fst).Nodup)
      (fit : ∀ field ∈ fields, Fits digits levels field.2) : Fits digits (levels + 1) (.object fields)

/-! ## Reading back -/

/-- The scanner reads the value and leaves the rest. -/
def Reads {α : Type} (scan : Scanner LoadsError α) (text : List Char) (value : α) (rest : List Char) : Prop :=
  ∃ proper, scan text = .ok ⟨value, rest, proper⟩

/-- What is left begins with one of the marks, or nothing is left. -/
def Stops (marks rest : List Char) : Prop := ∀ char, rest.head? = some char → char ∈ marks

/-- What stands behind a value, and is part of none outside of strings. -/
def valueEnds : List Char := [',', ']', '}']

theorem stops_nil (marks : List Char) : Stops marks [] := nofun

theorem stops_cons {marks rest : List Char} {mark : Char} (isMark : mark ∈ marks) : Stops marks (mark :: rest) := by
  intro char head
  obtain rfl := Option.some.inj head
  exact isMark

theorem Stops.append {marks text rest : List Char} (inside : Stops marks text) (behind : Stops marks rest) :
    Stops marks (text ++ rest) := by
  cases text with
  | nil => exact behind
  | cons first others => exact inside

theorem Stops.mono {marks more rest : List Char} (stops : Stops marks rest) (sub : marks ⊆ more) :
    Stops more rest := fun char head => sub (stops char head)

/-! ### Strings -/

section Strings

variable {inner rest : List Char} {char : Char} {start code : Nat}

theorem hexDigit?_digitChar : ∀ digit < 16, hexDigit? (Nat.digitChar digit) = some digit := by decide

theorem hex?_digits {digits : List Nat} (inBase : ∀ digit ∈ digits, digit < 16) :
    hex? (digits.map Nat.digitChar) = some (number 16 digits) := by
  have folds : ∀ acc, (digits.map Nat.digitChar).foldlM (fun acc char => (hexDigit? char).map (acc * 16 + ·)) acc =
      some (digits.foldl (fun acc digit => acc * 16 + digit) acc) := by
    induction digits with
    | nil => exact fun acc => rfl
    | cons first others ih =>
        intro acc
        obtain ⟨small, inBase⟩ := List.forall_mem_cons.mp inBase
        rw [List.map_cons, List.foldlM_cons, hexDigit?_digitChar first small]
        exact ih inBase (acc * 16 + first)
  exact folds 0

/-- The digits of an escape, with something behind them. -/
theorem escapeDigits (small : code < 0x10000) (filled : rest ≠ []) :
    4 < (hexDigits 4 code ++ rest).length ∧ hex? ((hexDigits 4 code ++ rest).take 4) = some code ∧
      (hexDigits 4 code ++ rest).drop 4 = rest := by
  obtain ⟨digits, count, inBase, written, same⟩ := hexDigits_digits_of_lt (show 4 ≠ 0 by decide) (show code < 16 ^ 4 by omega)
  have length : (hexDigits 4 code).length = 4 := by rw [written, List.length_map, count]
  have behind : 0 < rest.length := List.length_pos_of_ne_nil filled
  refine ⟨?_, ?_, List.drop_left' length⟩
  · rw [List.length_append, length]
    omega
  · rw [List.take_left' length, written, hex?_digits inBase, same]

theorem reads_unicodeDigits (small : code < 0x10000) (filled : rest ≠ []) :
    Reads unicodeDigits (hexDigits 4 code ++ rest) code rest := by
  obtain ⟨long, front, left⟩ := escapeDigits small filled
  have proper : Proper rest (hexDigits 4 code ++ rest) := by
    have dropped := proper_drop (List.ne_nil_of_length_pos (Nat.zero_lt_of_lt long)) (show 0 < 4 by decide)
    rwa [left] at dropped
  refine ⟨proper, ?_⟩
  unfold unicodeDigits
  rw [dif_pos long]
  simp only [front, left]

theorem reads_scanUnicode (small : code < 0x10000) (noSurrogate : (isHighSurrogate code || isLowSurrogate code) = false)
    (filled : rest ≠ []) : Reads scanUnicode (hexDigits 4 code ++ rest) (.ofNat code) rest := by
  obtain ⟨proper, read⟩ := reads_unicodeDigits small filled
  have noHigh : isHighSurrogate code = false := (Bool.or_eq_false_iff.mp noSurrogate).1
  have same : character code = .ofNat code := by simp [character, noSurrogate]
  refine ⟨proper, ?_⟩
  unfold scanUnicode
  rw [read]
  dsimp only
  split
  · rw [if_neg (by simp [noHigh]), same]
  · rw [same]

theorem reads_scanUnicode_pair {high low : Nat} (isHigh : isHighSurrogate high = true) (isLow : isLowSurrogate low = true)
    (filled : rest ≠ []) :
    Reads scanUnicode (hexDigits 4 high ++ '\\' :: 'u' :: (hexDigits 4 low ++ rest)) (join high low) rest := by
  have highBound : high < 0x10000 := by
    simp only [isHighSurrogate, Bool.and_eq_true, decide_eq_true_eq] at isHigh
    omega
  have lowBound : low < 0x10000 := by
    simp only [isLowSurrogate, Bool.and_eq_true, decide_eq_true_eq] at isLow
    omega
  obtain ⟨long, front, left⟩ := escapeDigits lowBound filled
  obtain ⟨proper, read⟩ := reads_unicodeDigits highBound (List.cons_ne_nil '\\' ('u' :: (hexDigits 4 low ++ rest)))
  have behind : rest <:+ '\\' :: 'u' :: (hexDigits 4 low ++ rest) :=
    (List.suffix_append _ rest).trans ((List.suffix_cons 'u' _).trans (List.suffix_cons '\\' _))
  refine ⟨proper.of_suffix behind, ?_⟩
  unfold scanUnicode
  rw [read]
  dsimp only
  split
  · next digits _ same _ =>
    obtain rfl := (List.cons.inj (List.cons.inj same).2).2
    rw [if_pos ⟨isHigh, long⟩]
    simp only [front, isLow, if_true, left]
  · next other => exact (other _ proper rfl HEq.rfl).elim

theorem shortEscapes_inverse : ∀ pair ∈ shortEscapes, pair.2 ≠ 'u' ∧ escapes.lookup pair.2 = some pair.1 := by decide

theorem reads_scanEscape_unicode (read : Reads scanUnicode rest char inner) :
    Reads (scanChar start) ('\\' :: 'u' :: rest) (some char) inner := by
  obtain ⟨proper, read⟩ := read
  refine ⟨proper_cons (proper.suffix.trans (List.suffix_cons 'u' rest)), ?_⟩
  rw [scanChar, if_neg (by decide), if_pos rfl, scanEscape, if_pos rfl, read]
  rfl

/-- The surrogate pair of a code point beyond the basic plane. -/
theorem surrogates {code : Nat} (large : 0x10000 ≤ code) (small : code < 0x110000) :
    isHighSurrogate (0xd800 + (code - 0x10000) / 0x400) = true ∧ isLowSurrogate (0xdc00 + (code - 0x10000) % 0x400) = true ∧
      join (0xd800 + (code - 0x10000) / 0x400) (0xdc00 + (code - 0x10000) % 0x400) = .ofNat code := by
  refine ⟨?_, ?_, ?_⟩
  · simp only [isHighSurrogate, Bool.and_eq_true, decide_eq_true_eq]
    omega
  · simp only [isLowSurrogate, Bool.and_eq_true, decide_eq_true_eq]
    omega
  · have same : 0x10000 + (0xd800 + (code - 0x10000) / 0x400 - 0xd800) * 0x400 +
        (0xdc00 + (code - 0x10000) % 0x400 - 0xdc00) = code := by omega
    rw [join, same]

theorem code_valid (char : Char) : char.toNat < 0xd800 ∨ (0xdfff < char.toNat ∧ char.toNat < 0x110000) := char.valid

theorem reads_scanEscape_pair {high low : Nat} (start : Nat) (isHigh : isHighSurrogate high = true)
    (isLow : isLowSurrogate low = true) (filled : rest ≠ []) :
    Reads (scanChar start) (unicodeEscape high ++ unicodeEscape low ++ rest) (some (join high low)) rest := by
  simp only [unicodeEscape, List.cons_append, List.append_assoc]
  exact reads_scanEscape_unicode (reads_scanUnicode_pair isHigh isLow filled)

/-- A character, as it is written, reads back. -/
theorem reads_scanChar (start : Nat) (char : Char) (filled : rest ≠ []) :
    Reads (scanChar start) (encodeChar char ++ rest) (some char) rest := by
  unfold encodeChar
  cases short : shortEscapes.lookup char with
  | some mark =>
      have listed : (char, mark) ∈ shortEscapes := by
        obtain ⟨front, back, split, _⟩ := List.lookup_eq_some_iff.mp short
        exact split ▸ List.mem_append_right front List.mem_cons_self
      obtain ⟨notUnicode, inverse⟩ := shortEscapes_inverse (char, mark) listed
      refine ⟨proper_cons (List.suffix_cons mark rest), ?_⟩
      simp only [List.cons_append, List.nil_append]
      rw [scanChar, if_neg (by decide), if_pos rfl, scanEscape, if_neg notUnicode, inverse]
      rfl
  | none =>
      dsimp only
      split
      · next printable =>
        have plain : char ≠ '"' ∧ char ≠ '\\' := by
          constructor
          · rintro rfl
            revert short
            decide
          · rintro rfl
            revert short
            decide
        refine ⟨proper_cons List.suffix_rfl, ?_⟩
        change scanChar start (char :: rest) = _
        rw [scanChar, if_neg plain.1, if_neg plain.2, if_neg (by omega)]
      · have valid := code_valid char
        split
        · next small =>
          have noSurrogate : (isHighSurrogate char.toNat || isLowSurrogate char.toNat) = false := by
            simp only [isHighSurrogate, isLowSurrogate, Bool.or_eq_false_iff, Bool.and_eq_false_iff, decide_eq_false_iff_not]
            omega
          have read := reads_scanUnicode small noSurrogate filled
          rw [Char.ofNat_toNat] at read
          exact reads_scanEscape_unicode read
        · next large =>
          obtain ⟨isHigh, isLow, joined⟩ := surrogates (Nat.le_of_not_lt large) (by omega)
          have read := reads_scanEscape_pair start isHigh isLow filled
          rwa [joined, Char.ofNat_toNat] at read

theorem reads_untilNone (start : Nat) (chars rest : List Char) :
    Reads (untilNone (scanChar start)) (chars.flatMap encodeChar ++ '"' :: rest) chars rest := by
  induction chars with
  | nil =>
      refine ⟨proper_cons List.suffix_rfl, ?_⟩
      change untilNone (scanChar start) ('"' :: rest) = _
      unfold untilNone
      rw [scanChar, if_pos rfl]
  | cons char others ih =>
      obtain ⟨proper, read⟩ := ih
      obtain ⟨first, scanned⟩ := reads_scanChar start char (List.append_ne_nil_of_right_ne_nil
        (others.flatMap encodeChar) (List.cons_ne_nil '"' rest))
      rw [List.flatMap_cons, List.append_assoc]
      refine ⟨proper.trans first, ?_⟩
      unfold untilNone
      simp only [scanned, read]
      rfl

/-- Behind its quote, a string reads back. -/
theorem reads_scanString (start : Nat) (text : String) (rest : List Char) :
    Reads (scanString start) (text.toList.flatMap encodeChar ++ '"' :: rest) text rest := by
  obtain ⟨proper, read⟩ := reads_untilNone start text.toList rest
  refine ⟨proper, ?_⟩
  rw [scanString, read]
  simp only [Except.map, Scanned.map, String.ofList_toList]

end Strings

/-! ### Numbers -/

section Numbers

variable {marks rest text sign whole fraction exponent digits : List Char} {limit : Nat}

theorem ne_of_isDigit {char other : Char} (digit : isDigit char = true) (notDigit : isDigit other = false) : char ≠ other := by
  rintro rfl
  rw [digit] at notDigit
  cases notDigit

theorem takeWhile_digits (all : ∀ char ∈ digits, isDigit char = true) (stops : Stops marks rest)
    (noDigit : marks.any isDigit = false) : (digits ++ rest).takeWhile isDigit = digits := by
  rw [List.takeWhile_append_of_pos all]
  cases rest with
  | nil => simp
  | cons first others => simp [List.any_eq_false.mp noDigit first (stops first rfl)]

theorem wholePart_append (isWhole : IsWhole whole) (stops : Stops marks rest) (noDigit : marks.any isDigit = false) :
    wholePart (whole ++ rest) = whole := by
  unfold wholePart
  rcases isWhole with rfl | ⟨⟨filled, all⟩, notZero⟩
  · rfl
  · obtain ⟨first, others, rfl⟩ := List.exists_cons_of_ne_nil filled
    rw [if_neg (show (first :: others ++ rest).head? ≠ some '0' from notZero)]
    exact takeWhile_digits all stops noDigit

theorem fractionPart_append (isFraction : IsFraction fraction) (stops : Stops marks rest)
    (noDigit : marks.any isDigit = false) (noPoint : '.' ∉ marks) : fractionPart (fraction ++ rest) = fraction := by
  rcases isFraction with rfl | ⟨digits, ⟨filled, all⟩, rfl⟩
  · rw [List.nil_append]
    unfold fractionPart
    split
    · next digits => exact absurd (stops '.' rfl) noPoint
    · rfl
  · rw [List.cons_append, fractionPart, takeWhile_digits all stops noDigit, if_neg filled]

theorem exponentPart_append (isExponent : IsExponent exponent) (stops : Stops valueEnds rest) :
    exponentPart (exponent ++ rest) = exponent := by
  rcases isExponent with rfl | ⟨mark, sign, digits, isMark, isSign, ⟨filled, all⟩, rfl⟩
  · cases rest with
    | nil => rfl
    | cons first others =>
        have notMark : ¬ (first = 'e' ∨ first = 'E') := by
          have ends := stops first rfl
          rintro (rfl | rfl) <;> revert ends <;> decide
        simp only [List.nil_append, exponentPart, notMark, false_and, if_false]
  · obtain ⟨first, others, rfl⟩ := List.exists_cons_of_ne_nil filled
    have digit := all first List.mem_cons_self
    have signed : signPart ['+', '-'] (sign ++ (first :: others ++ rest)) = sign := by
      rcases isSign with rfl | rfl | rfl
      · have unsigned : first ≠ '+' ∧ first ≠ '-' := by
          constructor <;> (rintro rfl; revert digit; decide)
        simp [signPart, unsigned]
      · rfl
      · rfl
    rw [List.cons_append, exponentPart, List.append_assoc, signed]
    simp only [List.drop_left, takeWhile_digits all stops (show valueEnds.any isDigit = false by decide)]
    rw [if_pos ⟨isMark, filled⟩]

theorem IsWhole.first (isWhole : IsWhole whole) : ∃ first others, whole = first :: others ∧ isDigit first = true := by
  rcases isWhole with rfl | ⟨⟨filled, all⟩, _⟩
  · exact ⟨'0', [], rfl, by decide⟩
  · obtain ⟨first, others, rfl⟩ := List.exists_cons_of_ne_nil filled
    exact ⟨first, others, rfl, all first List.mem_cons_self⟩

theorem signPart_append (isSign : sign = [] ∨ sign = ['-']) (isWhole : IsWhole whole) (rest : List Char) :
    signPart ['-'] (sign ++ (whole ++ rest)) = sign := by
  rcases isSign with rfl | rfl
  · obtain ⟨first, others, rfl, digit⟩ := isWhole.first
    have unsigned : first ≠ '-' := by
      rintro rfl
      revert digit
      decide
    simp [signPart, unsigned]
  · rfl

theorem reads_scanNumber (isNumber : IsNumber limit text) (stops : Stops valueEnds rest) :
    Reads (scanNumber limit) (text ++ rest) (.number (.ofList text)) rest := by
  obtain ⟨sign, whole, fraction, exponent, isSign, isWhole, isFraction, isExponent, short, rfl⟩ := isNumber
  have exponentStops : Stops ['e', 'E'] exponent := by
    rcases isExponent with rfl | ⟨mark, _, _, isMark, _, _, rfl⟩
    · exact stops_nil _
    · exact stops_cons (by simpa using isMark)
  have fractionStops : Stops ['.'] fraction := by
    rcases isFraction with rfl | ⟨_, _, rfl⟩
    · exact stops_nil _
    · exact stops_cons List.mem_cons_self
  have behindFraction : Stops ('e' :: 'E' :: valueEnds) (exponent ++ rest) :=
    (exponentStops.mono (by decide)).append (stops.mono (by decide))
  have behindWhole : Stops ('.' :: 'e' :: 'E' :: valueEnds) (fraction ++ (exponent ++ rest)) :=
    (fractionStops.mono (by decide)).append (behindFraction.mono (by decide))
  have signRead := signPart_append isSign isWhole (fraction ++ (exponent ++ rest))
  have wholeRead := wholePart_append isWhole behindWhole (by decide)
  have fractionRead := fractionPart_append isFraction behindFraction (by decide) (by decide)
  have exponentRead := exponentPart_append isExponent stops
  obtain ⟨first, others, same, _⟩ := isWhole.first
  have filled : whole ≠ [] := by simp [same]
  have joined : sign ++ (whole ++ (fraction ++ exponent)) ++ rest = sign ++ (whole ++ (fraction ++ (exponent ++ rest))) := by
    simp only [List.append_assoc]
  have length : (sign ++ (whole ++ (fraction ++ exponent))).length =
      sign.length + whole.length + fraction.length + exponent.length := by
    simp only [List.length_append, Nat.add_assoc]
  have taken : (sign ++ (whole ++ (fraction ++ exponent)) ++ rest).take
      (sign.length + whole.length + fraction.length + exponent.length) = sign ++ (whole ++ (fraction ++ exponent)) :=
    List.take_left' length
  have left : (sign ++ (whole ++ (fraction ++ exponent)) ++ rest).drop
      (sign.length + whole.length + fraction.length + exponent.length) = rest := List.drop_left' length
  have positive : 0 < sign.length + whole.length + fraction.length + exponent.length := by
    have positive := List.length_pos_of_ne_nil filled
    omega
  have proper : Proper rest (sign ++ (whole ++ (fraction ++ exponent)) ++ rest) := by
    have dropped := proper_drop (List.append_ne_nil_of_left_ne_nil (List.append_ne_nil_of_right_ne_nil sign
      (List.append_ne_nil_of_left_ne_nil filled (fraction ++ exponent))) rest) positive
    rwa [left] at dropped
  rw [joined] at taken left proper ⊢
  have behindSign : (sign ++ (whole ++ (fraction ++ (exponent ++ rest)))).drop sign.length =
      whole ++ (fraction ++ (exponent ++ rest)) := List.drop_left
  have behindBoth : (sign ++ (whole ++ (fraction ++ (exponent ++ rest)))).drop (sign.length + whole.length) =
      fraction ++ (exponent ++ rest) := by
    rw [← List.drop_drop, behindSign, List.drop_left]
  refine ⟨proper, ?_⟩
  unfold scanNumber
  simp only [signRead, behindSign, wholeRead, behindBoth, fractionRead, List.drop_left, exponentRead, taken, left]
  rw [dif_neg filled, if_neg]
  rintro ⟨noFraction, noExponent, long⟩
  have fits := short noFraction noExponent
  omega

end Numbers

/-! ### Values -/

section Values

variable {α : Type} {digits levels : Nat} {value : Json} {rest : List Char}

/-- What is written behind the first item of a list. -/
def behind (close : Char) (write : α → List Char) : List α → List Char
  | [] => [close]
  | item :: others => ", ".toList ++ write item ++ behind close write others

theorem skipBlanks_of_solid {text : List Char} (solid : ∀ char, text.head? = some char → isBlank char = false) :
    skipBlanks text = text := by
  cases text with
  | nil => rfl
  | cons first others => simp [skipBlanks, solid first rfl]

/-- The item is written without a blank, a byte order mark or an end in front, and reads
back wherever it may stand. -/
structure Readable (scan : Scanner LoadsError α) (write : α → List Char) (item : α) : Prop where
  begins : ∃ first others, write item = first :: others ∧ isBlank first = false ∧ first ∉ '\ufeff' :: valueEnds
  reads : ∀ rest, Stops valueEnds rest → Reads scan (write item ++ rest) item rest

theorem stops_behind {close : Char} (isClose : close ∈ valueEnds) (write : α → List Char) (items : List α) (rest : List Char) :
    Stops valueEnds (behind close write items ++ rest) := by
  cases items with
  | nil => exact stops_cons isClose
  | cons item others => exact stops_cons List.mem_cons_self

theorem Readable.skipBlanks {scan : Scanner LoadsError α} {write : α → List Char} {item : α}
    (readable : Readable scan write item) (rest : List Char) :
    skipBlanks (write item ++ rest) = write item ++ rest := by
  obtain ⟨first, others, same, solid, _⟩ := readable.begins
  rw [same]
  refine skipBlanks_of_solid fun char head => ?_
  obtain rfl := Option.some.inj head
  exact solid

theorem reads_items {scan : Scanner LoadsError α} {write : α → List Char} {close : Char} (isClose : close = ']' ∨ close = '}')
    {failure : List Char → LoadsError} (item : α) (others : List α)
    (readable : ∀ other ∈ item :: others, Readable scan write other)
    (rest : List Char) :
    Reads (items JsonDecoder.skipBlanks skipBlanks_suffix failure close scan) (write item ++ (behind close write others ++ rest))
      (item :: others) rest := by
  have closes : close ∈ valueEnds ∧ isBlank close = false ∧ ',' ≠ close := by
    rcases isClose with rfl | rfl <;> decide
  induction others generalizing item with
  | nil =>
      obtain ⟨proper, read⟩ := (readable item List.mem_cons_self).reads _ (stops_behind closes.1 write [] rest)
      have solid : JsonDecoder.skipBlanks (behind close write [] ++ rest) = close :: rest := by
        refine skipBlanks_of_solid fun char head => ?_
        obtain rfl := Option.some.inj head
        exact closes.2.1
      refine ⟨proper.of_suffix (List.suffix_cons close rest), ?_⟩
      unfold items
      simp only [read]
      split
      · next none => simp [solid] at none
      · next mark inner same =>
        rw [solid, List.cons.injEq] at same
        obtain ⟨rfl, rfl⟩ := same
        rw [if_pos rfl]
  | cons second others ih =>
      obtain ⟨later, readLater⟩ := ih second fun other member => readable other (List.mem_cons_of_mem item member)
      have first := (readable item List.mem_cons_self).reads _ (stops_behind closes.1 write (second :: others) rest)
      have next := readable second (List.mem_cons_of_mem item List.mem_cons_self)
      have written : behind close write (second :: others) ++ rest =
          ',' :: ' ' :: (write second ++ (behind close write others ++ rest)) := by
        simp only [behind, List.append_assoc]
        rfl
      have solid : JsonDecoder.skipBlanks (',' :: ' ' :: (write second ++ (behind close write others ++ rest))) =
          ',' :: ' ' :: (write second ++ (behind close write others ++ rest)) := by
        refine skipBlanks_of_solid fun char head => ?_
        obtain rfl := Option.some.inj head
        rfl
      have blank : JsonDecoder.skipBlanks (' ' :: (write second ++ (behind close write others ++ rest))) =
          write second ++ (behind close write others ++ rest) := by
        have skipped := next.skipBlanks (behind close write others ++ rest)
        unfold JsonDecoder.skipBlanks at skipped ⊢
        rw [List.dropWhile_cons_of_pos rfl, skipped]
      have again : Reads (items JsonDecoder.skipBlanks skipBlanks_suffix failure close scan)
          (JsonDecoder.skipBlanks (' ' :: (write second ++ (behind close write others ++ rest)))) (second :: others) rest := by
        rw [blank]
        exact ⟨later, readLater⟩
      rw [written] at first ⊢
      obtain ⟨proper, read⟩ := first
      refine ⟨later.trans (proper.of_suffix ((List.suffix_cons ' ' _).trans (List.suffix_cons ',' _))), ?_⟩
      unfold items
      simp only [read]
      split
      · next none => simp [solid] at none
      · next mark inner same =>
        rw [solid, List.cons.injEq] at same
        obtain ⟨rfl, rfl⟩ := same
        rw [if_neg closes.2.2, if_pos rfl]
        obtain ⟨_, readNext⟩ := again
        rw [readNext]
        rfl

theorem reads_enclosed {scan : Scanner LoadsError α} {write : α → List Char} {close : Char} (isClose : close = ']' ∨ close = '}')
    (item : α) (others : List α) (readable : ∀ other ∈ item :: others, Readable scan write other) (rest : List Char) :
    Reads (enclosed close scan) (write item ++ (behind close write others ++ rest)) (item :: others) rest := by
  have solid := (readable item List.mem_cons_self).skipBlanks (behind close write others ++ rest)
  have notClosed : (skipBlanks (write item ++ (behind close write others ++ rest))).head? ≠ some close := by
    obtain ⟨first, chars, same, _, inside⟩ := (readable item List.mem_cons_self).begins
    rw [solid, same]
    intro closed
    obtain rfl := Option.some.inj closed
    rcases isClose with rfl | rfl
    · exact inside (by decide)
    · exact inside (by decide)
  have listed : Reads (items skipBlanks skipBlanks_suffix (fun rest => .decode "Expecting ',' delimiter" rest.length) close scan)
      (skipBlanks (write item ++ (behind close write others ++ rest))) (item :: others) rest := by
    rw [solid]
    exact reads_items isClose item others readable rest
  obtain ⟨proper, read⟩ := listed
  refine ⟨solid ▸ proper, ?_⟩
  unfold enclosed
  rw [dif_neg notClosed, read]
  rfl

theorem reads_enclosed_nil (scan : Scanner LoadsError α) {close : Char} (solid : isBlank close = false) (rest : List Char) :
    Reads (enclosed close scan) (close :: rest) [] rest := by
  have same : skipBlanks (close :: rest) = close :: rest := by
    refine skipBlanks_of_solid fun char head => ?_
    obtain rfl := Option.some.inj head
    exact solid
  refine ⟨proper_cons List.suffix_rfl, ?_⟩
  unfold enclosed
  rw [dif_pos (by rw [same]; rfl)]
  simp only [same, List.tail_cons]

theorem encodeItems_eq (items : List Json) : encodeItems items = behind ']' encode items := by
  induction items with
  | nil => rfl
  | cons item rest ih => rw [encodeItems, ih, behind]

def encodeMember (member : String × Json) : List Char := encodeString member.1 ++ ": ".toList ++ encode member.2

theorem encodeMembers_eq (fields : List (String × Json)) : encodeMembers fields = behind '}' encodeMember fields := by
  induction fields with
  | nil => rfl
  | cons field rest ih =>
      rw [encodeMembers, ih, behind, encodeMember]
      simp only [List.append_assoc]

theorem readable_string (text : String) : Readable (scanOnce digits levels) encode (.string text) where
  begins := ⟨'"', text.toList.flatMap encodeChar ++ ['"'], rfl, by decide, by decide⟩
  reads rest _ := by
    obtain ⟨proper, read⟩ := reads_scanString ((text.toList.flatMap encodeChar ++ '"' :: rest).length + 1) text rest
    have written : encode (.string text) ++ rest = '"' :: (text.toList.flatMap encodeChar ++ '"' :: rest) := by
      simp [encode, encodeString]
    rw [written]
    refine ⟨proper_cons proper.suffix, ?_⟩
    unfold scanOnce
    rw [if_pos rfl, read]
    rfl

/-- A word that the decoder knows stands for its constant. -/
theorem reads_constant {word : String} (listed : (word, value) ∈ constants) (rest : List Char) :
    Reads (scanOnce digits levels) (word.toList ++ rest) value rest := by
  simp only [constants, List.mem_cons, Prod.mk.injEq, List.not_mem_nil, or_false] at listed
  have found {first : Char} {others : List Char} (proper : Proper rest (first :: others))
      (plain : first ≠ '"' ∧ first ≠ '{' ∧ first ≠ '[')
      (scanned : scanConstant? (first :: others) (List.cons_ne_nil first others) = some ⟨value, rest, proper⟩) :
      Reads (scanOnce digits levels) (first :: others) value rest := by
    refine ⟨proper, ?_⟩
    unfold scanOnce
    rw [if_neg plain.1, if_neg plain.2.1, if_neg plain.2.2, scanned]
  rcases listed with ⟨rfl, rfl⟩ | ⟨rfl, rfl⟩ | ⟨rfl, rfl⟩ | ⟨rfl, rfl⟩ | ⟨rfl, rfl⟩ | ⟨rfl, rfl⟩
  · change Reads _ (['n', 'u', 'l', 'l'] ++ rest) _ _
    exact found (proper_cons ⟨['u', 'l', 'l'], rfl⟩) (by decide) rfl
  · change Reads _ (['t', 'r', 'u', 'e'] ++ rest) _ _
    exact found (proper_cons ⟨['r', 'u', 'e'], rfl⟩) (by decide) rfl
  · change Reads _ (['f', 'a', 'l', 's', 'e'] ++ rest) _ _
    exact found (proper_cons ⟨['a', 'l', 's', 'e'], rfl⟩) (by decide) rfl
  · change Reads _ (['N', 'a', 'N'] ++ rest) _ _
    exact found (proper_cons ⟨['a', 'N'], rfl⟩) (by decide) rfl
  · change Reads _ ("Infinity".toList ++ rest) _ _
    exact found (proper_cons ⟨['n', 'f', 'i', 'n', 'i', 't', 'y'], rfl⟩) (by decide) rfl
  · change Reads _ ("-Infinity".toList ++ rest) _ _
    exact found (proper_cons ⟨['I', 'n', 'f', 'i', 'n', 'i', 't', 'y'], rfl⟩) (by decide) rfl

theorem scanConstant?_number {first : Char} (digit : isDigit first = true) {sign : List Char}
    (isSign : sign = [] ∨ sign = ['-']) (others : List Char) (filled : sign ++ first :: others ≠ []) :
    scanConstant? (sign ++ first :: others) filled = none := by
  have different (mark : Char) (notDigit : isDigit mark = false) : mark ≠ first := (ne_of_isDigit digit notDigit).symm
  unfold scanConstant?
  rw [List.findSome?_eq_none_iff]
  intro entry listed
  refine dif_neg fun starts => ?_
  have begins := starts.2
  simp only [constants, List.mem_cons, List.not_mem_nil, or_false] at listed
  rcases isSign with rfl | rfl
  · rcases listed with rfl | rfl | rfl | rfl | rfl | rfl <;>
      exact different _ (by decide) (List.cons_prefix_cons.mp begins).1
  · rcases listed with rfl | rfl | rfl | rfl | rfl | rfl
    all_goals first
      | exact absurd (List.cons_prefix_cons.mp begins).1 (by decide)
      | exact different _ (by decide) (List.cons_prefix_cons.mp (List.cons_prefix_cons.mp begins).2).1

theorem reads_scanOnce_number {mark : Char} {text : List Char} (plain : mark ≠ '"' ∧ mark ≠ '\x7b' ∧ mark ≠ '[')
    (noConstant : scanConstant? (mark :: text) (List.cons_ne_nil mark text) = none)
    (read : Reads (scanNumber digits) (mark :: text) value rest) : Reads (scanOnce digits levels) (mark :: text) value rest := by
  obtain ⟨proper, read⟩ := read
  refine ⟨proper, ?_⟩
  unfold scanOnce
  rw [if_neg plain.1, if_neg plain.2.1, if_neg plain.2.2, noConstant]
  exact read

theorem plain_of_isDigit {char : Char} (digit : isDigit char = true) : isBlank char = false ∧ char ∉ '\ufeff' :: valueEnds ∧
    (char ≠ '"' ∧ char ≠ '\x7b' ∧ char ≠ '[') := by
  have outside : char ∉ [' ', '\t', '\n', '\r', '\ufeff', ',', ']', '\x7d', '"', '\x7b', '['] := by
    intro listed
    have noDigit : [' ', '\t', '\n', '\r', '\ufeff', ',', ']', '\x7d', '"', '\x7b', '['].any isDigit = false := by decide
    exact List.any_eq_false.mp noDigit char listed digit
  simp only [List.mem_cons, List.not_mem_nil, or_false, not_or] at outside
  simp [isBlank, valueEnds, outside]

theorem readable_number {text : String} (isNumber : IsNumber digits text.toList) :
    Readable (scanOnce digits levels) encode (.number text) := by
  have reads (rest : List Char) (stops : Stops valueEnds rest) := reads_scanNumber isNumber stops
  simp only [String.ofList_toList] at reads
  obtain ⟨sign, whole, fraction, exponent, isSign, isWhole, _, _, _, same⟩ := isNumber
  obtain ⟨first, others, rfl, digit⟩ := isWhole.first
  have noConstant := scanConstant?_number digit isSign
  rcases isSign with rfl | rfl
  · have written : text.toList = first :: (others ++ (fraction ++ exponent)) := same
    obtain ⟨solid, inside, plain⟩ := plain_of_isDigit digit
    rw [written] at reads
    refine ⟨⟨first, others ++ (fraction ++ exponent), by rw [encode, written], solid, inside⟩, ?_⟩
    intro rest stops
    rw [encode, written]
    exact reads_scanOnce_number plain (noConstant _ (List.cons_ne_nil _ _)) (reads rest stops)
  · have written : text.toList = '-' :: first :: (others ++ (fraction ++ exponent)) := same
    rw [written] at reads
    refine ⟨⟨'-', first :: (others ++ (fraction ++ exponent)), by rw [encode, written], by decide, by decide⟩, ?_⟩
    intro rest stops
    rw [encode, written]
    exact reads_scanOnce_number (by decide) (noConstant _ (List.cons_ne_nil _ _)) (reads rest stops)

theorem readable_constant {word : String} (listed : (word, value) ∈ constants) (written : encode value = word.toList)
    (begins : ∃ first others, word.toList = first :: others ∧ isBlank first = false ∧ first ∉ '\ufeff' :: valueEnds) :
    Readable (scanOnce digits levels) encode value where
  begins := by rwa [written]
  reads rest _ := by
    rw [written]
    exact reads_constant listed rest

theorem readable_member {key : String} (readable : Readable (scanOnce digits levels) encode value) :
    Readable (scanMember (scanOnce digits levels)) encodeMember (key, value) where
  begins := ⟨'"', key.toList.flatMap encodeChar ++ ['"'] ++ ": ".toList ++ encode value, rfl, by decide, by decide⟩
  reads rest stops := by
    obtain ⟨proper, read⟩ := readable.reads rest stops
    obtain ⟨keyProper, keyRead⟩ := reads_scanString
      ((key.toList.flatMap encodeChar ++ '"' :: ':' :: ' ' :: (encode value ++ rest)).length + 1) key
      (':' :: ' ' :: (encode value ++ rest))
    have written : encodeMember (key, value) ++ rest =
        '"' :: (key.toList.flatMap encodeChar ++ '"' :: ':' :: ' ' :: (encode value ++ rest)) := by
      simp [encodeMember, encodeString]
    have colon : skipBlanks (':' :: ' ' :: (encode value ++ rest)) = ':' :: ' ' :: (encode value ++ rest) := by
      refine skipBlanks_of_solid fun char head => ?_
      obtain rfl := Option.some.inj head
      rfl
    have blank : skipBlanks (' ' :: (encode value ++ rest)) = encode value ++ rest := by
      have skipped := readable.skipBlanks rest
      unfold JsonDecoder.skipBlanks at skipped ⊢
      rw [List.dropWhile_cons_of_pos rfl, skipped]
    have again : Reads (scanOnce digits levels) (skipBlanks (' ' :: (encode value ++ rest))) value rest := by
      rw [blank]
      exact ⟨proper, read⟩
    rw [written]
    refine ⟨proper_cons ?_, ?_⟩
    · exact proper.suffix.trans ((List.suffix_cons ' ' _).trans ((List.suffix_cons ':' _).trans keyProper.suffix))
    · unfold scanMember
      simp only [keyRead]
      split
      · next inner same =>
        rw [colon, List.cons.injEq] at same
        obtain ⟨_, rfl⟩ := same
        obtain ⟨_, read⟩ := again
        rw [read]
        rfl
      · next notColon => exact (notColon _ colon).elim

theorem readable_array {items : List Json} (readable : ∀ item ∈ items, Readable (scanOnce digits levels) encode item) :
    Readable (scanOnce digits (levels + 1)) encode (.array items) := by
  cases items with
  | nil =>
      refine ⟨⟨'[', [']'], rfl, by decide, by decide⟩, fun rest _ => ⟨proper_cons (List.suffix_cons ']' rest), ?_⟩⟩
      obtain ⟨_, read⟩ := reads_enclosed_nil (scanOnce digits levels) (show isBlank ']' = false by decide) rest
      change scanOnce digits (levels + 1) ('[' :: ']' :: rest) = _
      unfold scanOnce
      rw [if_neg (by decide), if_neg (by decide), if_pos rfl]
      simp only [read]
      rfl
  | cons item others =>
      refine ⟨⟨'[', encode item ++ encodeItems others, rfl, by decide, by decide⟩, fun rest _ => ?_⟩
      obtain ⟨proper, read⟩ := reads_enclosed (.inl rfl) item others readable rest
      have written : encode (.array (item :: others)) ++ rest =
          '[' :: (encode item ++ (behind ']' encode others ++ rest)) := by
        rw [encode, encodeItems_eq, List.cons_append, List.append_assoc]
      rw [written]
      refine ⟨proper_cons proper.suffix, ?_⟩
      unfold scanOnce
      rw [if_neg (by decide), if_neg (by decide), if_pos rfl]
      simp only [read]
      rfl

theorem readable_object {fields : List (String × Json)} (distinct : (fields.map Prod.fst).Nodup)
    (readable : ∀ field ∈ fields, Readable (scanOnce digits levels) encode field.2) :
    Readable (scanOnce digits (levels + 1)) encode (.object fields) := by
  cases fields with
  | nil =>
      refine ⟨⟨'\x7b', ['\x7d'], rfl, by decide, by decide⟩, fun rest _ => ⟨proper_cons (List.suffix_cons '\x7d' rest), ?_⟩⟩
      obtain ⟨_, read⟩ := reads_enclosed_nil (scanMember (scanOnce digits levels)) (show isBlank '\x7d' = false by decide) rest
      change scanOnce digits (levels + 1) ('\x7b' :: '\x7d' :: rest) = _
      unfold scanOnce
      rw [if_neg (by decide), if_pos rfl]
      simp only [read]
      rfl
  | cons field others =>
      have members : ∀ member ∈ field :: others, Readable (scanMember (scanOnce digits levels)) encodeMember member :=
        fun member listed => readable_member (readable member listed)
      refine ⟨⟨'\x7b', encodeMember field ++ encodeMembers others, rfl, by decide, by decide⟩, fun rest _ => ?_⟩
      obtain ⟨proper, read⟩ := reads_enclosed (.inr rfl) field others members rest
      have written : encode (.object (field :: others)) ++ rest =
          '\x7b' :: (encodeMember field ++ (behind '\x7d' encodeMember others ++ rest)) := by
        rw [encode, encodeMembers_eq, encodeMember, List.cons_append, List.append_assoc]
      have same : fromPairs (field :: others) = field :: others := foldl_assign_of_nodup distinct
      rw [written]
      refine ⟨proper_cons proper.suffix, ?_⟩
      unfold scanOnce
      rw [if_neg (by decide), if_pos rfl]
      simp only [read, Except.map, Scanned.map, Scanned.behind, same]

theorem readable_of_fits (fits : Fits digits levels value) : Readable (scanOnce digits levels) encode value := by
  induction fits with
  | null => exact readable_constant (.head _) rfl ⟨'n', ['u', 'l', 'l'], rfl, by decide, by decide⟩
  | bool value =>
      cases value with
      | true => exact readable_constant (.tail _ (.head _)) rfl ⟨'t', ['r', 'u', 'e'], rfl, by decide, by decide⟩
      | false => exact readable_constant (.tail _ (.tail _ (.head _))) rfl ⟨'f', ['a', 'l', 's', 'e'], rfl, by decide, by decide⟩
  | number isNumber => exact readable_number isNumber
  | special isSpecial =>
      simp only [List.mem_cons, List.not_mem_nil, or_false] at isSpecial
      rcases isSpecial with rfl | rfl | rfl
      · exact readable_constant (show ("NaN", Json.number "NaN") ∈ constants by simp [constants]) rfl
          ⟨'N', ['a', 'N'], rfl, by decide, by decide⟩
      · exact readable_constant (show ("Infinity", Json.number "Infinity") ∈ constants by simp [constants]) rfl
          ⟨'I', "nfinity".toList, rfl, by decide, by decide⟩
      · exact readable_constant (show ("-Infinity", Json.number "-Infinity") ∈ constants by simp [constants]) rfl
          ⟨'-', "Infinity".toList, rfl, by decide, by decide⟩
  | string text => exact readable_string text
  | array _ ih => exact readable_array ih
  | object distinct _ ih => exact readable_object distinct ih

/-- What `json.dumps` writes of a value, `json.loads` reads back as that value. -/
theorem loads_dumps {limits : Limits} (fits : Fits limits.digits limits.levels value) :
    loads limits (dumps value) = .ok value := by
  have readable := readable_of_fits fits
  have text : (dumps value).toList = encode value := String.toList_ofList
  have read := readable.reads [] (stops_nil valueEnds)
  have solid := readable.skipBlanks []
  rw [List.append_nil] at read solid
  rw [← solid, ← text] at read
  obtain ⟨first, others, begins, _, plain⟩ := readable.begins
  have noMark : (dumps value).toList.head? ≠ some '\ufeff' := by
    rw [text, begins]
    rintro same
    obtain rfl := Option.some.inj same
    exact plain List.mem_cons_self
  obtain ⟨_, read⟩ := read
  unfold loads
  rw [if_neg noMark, read]
  rfl

end Values

end SmartProcurement.JsonEncoder
