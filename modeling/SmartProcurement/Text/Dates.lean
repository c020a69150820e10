import SmartProcurement.Text.Literals

namespace SmartProcurement.Text

/-! # Reading dates and times from text

Dates are day numbers and points in time microseconds, both counted from
1970-01-01 UTC.  `isoDate?` and `isoDatetime?` follow `datetime.fromisoformat`,
`slashed?` and its siblings the three `strptime` formats with numeric fields.
-/

abbrev Date := Int

abbrev Timestamp := Int

def microsecondsPerDay : Int := 86400000000

def isLeap (year : Int) : Bool :=
  year % 4 = 0 && (year % 100 ≠ 0 || year % 400 = 0)

def daysInMonth (year month : Int) : Int :=
  if month = 2 then (if isLeap year then 29 else 28)
  else if month = 4 ∨ month = 6 ∨ month = 9 ∨ month = 11 then 30
  else 31

/-- The day number of a date of the proleptic Gregorian calendar. -/
def dayNumber (year month day : Int) : Date :=
  let shifted := if month ≤ 2 then year - 1 else year
  let era := shifted / 400
  let yearOfEra := shifted - era * 400
  let dayOfYear := (153 * (month + (if 2 < month then -3 else 9)) + 2) / 5 + day - 1
  era * 146097 + (yearOfEra * 365 + yearOfEra / 4 - yearOfEra / 100 + dayOfYear) - 719468

/-- `date(year, month, day)`. -/
def date? (year month day : Int) : Option Date :=
  if 1 ≤ year ∧ year ≤ 9999 ∧ 1 ≤ month ∧ month ≤ 12 ∧ 1 ≤ day ∧ day ≤ daysInMonth year month then
    some (dayNumber year month day)
  else none

/-- The day number of an ISO year, week and weekday. -/
def isoWeekDate? (year week day : Int) : Option Date :=
  let first := dayNumber year 1 1
  -- 1970-01-01 was a Thursday; weekdays count from Monday = 0
  let firstWeekday := (first + 3) % 7
  let longYear := firstWeekday = 3 ∨ (firstWeekday = 2 ∧ isLeap year)
  let monday := first - firstWeekday + (if 3 < firstWeekday then 7 else 0)
  let found := monday + (week - 1) * 7 + (day - 1)
  -- the last week of 9999 reaches into the next year
  if 1 ≤ year ∧ year ≤ 9999 ∧ 1 ≤ week ∧ (week ≤ 52 ∨ (week = 53 ∧ longYear)) ∧ 1 ≤ day ∧ day ≤ 7 ∧
      found ≤ dayNumber 9999 12 31 then
    some found
  else none

/-! ## `strptime` -/

def asciiDigit? (char : Char) : Option Nat :=
  if 48 ≤ char.toNat ∧ char.toNat ≤ 57 then some (char.toNat - 48) else none

/-- `%m`: `1[0-2]|0[1-9]|[1-9]`. -/
def month? : List Char → Option Nat
  | [single] => (asciiDigit? single).filter (1 ≤ ·)
  | ['0', ones] => (asciiDigit? ones).filter (1 ≤ ·)
  | ['1', ones] => ((asciiDigit? ones).filter (· ≤ 2)).map (10 + ·)
  | _ => none

/-- `%d`: `3[0-1]|[1-2]\d|0[1-9]|[1-9]| [1-9]`, where `\d` is a digit of any script. -/
def day? : List Char → Option Nat
  | [single] => (asciiDigit? single).filter (1 ≤ ·)
  | [' ', single] => (asciiDigit? single).filter (1 ≤ ·)
  | ['0', ones] => (asciiDigit? ones).filter (1 ≤ ·)
  | ['1', ones] => (decimalDigit? ones).map (10 + ·)
  | ['2', ones] => (decimalDigit? ones).map (20 + ·)
  | ['3', ones] => ((asciiDigit? ones).filter (· ≤ 1)).map (30 + ·)
  | _ => none

/-- Split at the first two occurrences of a separator. -/
def threeFields (separator : Char) (chars : List Char) : Option (List Char × List Char × List Char) :=
  let notSeparator := fun char => char ≠ separator
  match chars.dropWhile notSeparator with
  | [] => none
  | _ :: rest =>
      match rest.dropWhile notSeparator with
      | [] => none
      | _ :: last => some (chars.takeWhile notSeparator, rest.takeWhile notSeparator, last)

/-- `%Y-%m-%d` and `%Y/%m/%d`. -/
def yearFirst? (separator : Char) (chars : List Char) : Option Date := do
  let (year, month, day) ← threeFields separator chars
  date? (← fixedDigits? 4 year) (← month? month) (← day? day)

/-- `%d.%m.%Y`. -/
def dayFirst? (separator : Char) (chars : List Char) : Option Date := do
  let (day, month, year) ← threeFields separator chars
  date? (← fixedDigits? 4 year) (← month? month) (← day? day)

/-! ## `datetime.fromisoformat` -/

/-- `parse_digits` of just these characters. -/
def isoDigits? (width : Nat) (chars : List Char) : Option Nat :=
  if chars.length = width then chars.foldlM (fun acc char => (asciiDigit? char).map (acc * 10 + ·)) 0 else none

/-- Where the date part of an ISO string ends. -/
def isoSeparator (chars : List Char) : Nat :=
  let at_ := fun index => chars[index]?
  let isDigit := fun char : Char => (asciiDigit? char).isSome
  if chars.length = 7 then 7
  else if at_ 4 = some '-' then
    if at_ 5 = some 'W' then
      if at_ 8 = some '-' then
        (if (at_ 10).any isDigit then 8 else 10)
      else 8
    else 10
  else if at_ 4 = some 'W' then
    let stop := 7 + ((chars.drop 7).takeWhile isDigit).length
    if stop < 9 then stop else if stop % 2 = 0 then 7 else 8
  else 8

def isoDate? (chars : List Char) : Option Date := do
  let year ← isoDigits? 4 (chars.take 4)
  let dashed := chars[4]? = some '-'
  let rest := chars.drop (if dashed then 5 else 4)
  match rest with
  | 'W' :: rest =>
      let week ← isoDigits? 2 (rest.take 2)
      match rest.drop 2 with
      | [] => isoWeekDate? year week 1
      | next :: tail =>
          if (next = '-') = dashed then
            isoWeekDate? year week (← isoDigits? 1 (if dashed then tail else next :: tail))
          else none
  | rest =>
      let month ← isoDigits? 2 (rest.take 2)
      match rest.drop 2 with
      | [] => none
      | next :: tail =>
          if (next = '-') = dashed then
            date? year month (← isoDigits? 2 (if dashed then tail else next :: tail))
          else none

/-- `[HH[:?MM[:?SS[{.,}fff[fff]]]]]`, and whether something is left to read behind it. -/
structure ClockText where
  hour : Nat
  minute : Nat
  second : Nat
  micro : Nat
  left : Bool

def ClockText.microseconds (clock : ClockText) : Nat :=
  ((clock.hour * 60 + clock.minute) * 60 + clock.second) * 1000000 + clock.micro

/-- The end of a C string, and a character of the text as well. -/
def nextOf (chars : List Char) : Char := chars.head?.getD '\x00'

/-- The loop over the fields: those read, and where the fraction starts, or whether
something is left where none can start. -/
def clockFields? (behind : List Char) : (fields : Nat) → (separated : Option Bool) → List Char → Option (List Nat × (Bool ⊕ List Char))
  | 0, _, part => some ([], .inr part)
  | fields + 1, separated, part => do
      let value ← isoDigits? 2 (part.take 2)
      let rest := part.drop 2
      let next := nextOf (rest ++ behind)
      let separated := separated.getD (next = ':')
      match rest with
      | [] | [_] => some ([value], .inl (next ≠ '\x00'))
      | _ :: tail =>
          if separated ∧ next = ':' then do
            let (values, ended) ← clockFields? behind fields (some separated) tail
            some (value :: values, ended)
          else if next = '.' ∨ next = ',' then some ([value], .inr tail)
          else if separated then none
          else do
            let (values, ended) ← clockFields? behind fields (some separated) rest
            some (value :: values, ended)

/-- `parse_hh_mm_ss_ff`: `part` ends where a zone starts, `behind` is the zone. -/
def clock? (part behind : List Char) : Option ClockText := do
  let (values, ended) ← clockFields? behind 3 none part
  let field := fun index => values[index]?.getD 0
  match ended with
  | .inl left => some ⟨field 0, field 1, field 2, 0, left⟩
  | .inr fraction =>
      let width := min 6 fraction.length
      let micro ← isoDigits? width (fraction.take width)
      let rest := (fraction.drop width ++ behind).dropWhile fun char => (asciiDigit? char).isSome
      some ⟨field 0, field 1, field 2, micro * 10 ^ (6 - width), nextOf rest ≠ '\x00'⟩

def ClockText.inDay (clock : ClockText) : Bool := clock.hour < 24 && clock.minute < 60 && clock.second < 60

/-- A clock time and the offset written behind it, `none` inside for a naive time. -/
def isoTime? (chars : List Char) : Option (Nat × Option Int) := do
  let isZone := fun char : Char => char = '+' || char = '-' || char = 'Z'
  let part := chars.takeWhile fun char => !isZone char
  let zone := chars.dropWhile fun char => !isZone char
  let clock ← clock? part zone
  if !clock.inDay then none
  else
    match zone with
    | [] => if clock.left then none else some (clock.microseconds, none)
    | 'Z' :: rest => if nextOf rest = '\x00' then some (clock.microseconds, some 0) else none
    | sign :: rest => do
        let offset ← clock? rest []
        -- `timezone` takes less than a day
        if offset.left ∨ microsecondsPerDay ≤ offset.microseconds then none
        else some (clock.microseconds, some (if sign = '-' then -(offset.microseconds : Int) else offset.microseconds))

/-- As many characters as the UTF-8 form of the text has bytes. -/
def utf8Chars (text : String) : List Char := text.toList.flatMap fun char => List.replicate char.utf8Size char

/-- `datetime.fromisoformat(text)`: the wall-clock time and its UTC offset.  It counts
bytes, of which a separator may have several. -/
def isoDatetime? (text : String) : Option (Timestamp × Option Int) := do
  let chars := utf8Chars text
  if chars.length < 7 then none
  else do
    let stop := isoSeparator chars
    let day ← isoDate? (chars.take stop)
    let rest := chars.drop (stop + (nextOf (chars.drop stop)).utf8Size)
    let (clock, offset) ← if rest = [] ∧ chars.length ≤ stop then some (0, none) else isoTime? rest
    some (day * microsecondsPerDay + clock, offset)

end SmartProcurement.Text
