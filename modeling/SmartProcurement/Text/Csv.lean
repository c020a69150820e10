import SmartProcurement.Text.Literals

namespace SmartProcurement.Text.Csv

/-! # Reading comma-separated values

The reader of the `csv` module in its default dialect, apart from the delimiter.
It goes through the lines of a text one character at a time; a quoted field goes on
over the end of its line.
-/

/-- `csv.Error`. -/
inductive Failure where
  | fieldLimit
  | newLine
deriving DecidableEq, Repr

def Failure.str : Failure → String
  | .fieldLimit => "field larger than field limit (131072)"
  | .newLine => "new-line character seen in unquoted field - do you need to open the file with newline=''?"

inductive State where
  | startRecord
  | startField
  | inField
  | inQuotedField
  | quoteInQuotedField
  | eatCrnl
deriving DecidableEq, Repr

structure Reader where
  state : State
  field : List Char
  fields : List String

/-- `csv.field_size_limit()`. -/
def fieldLimit : Nat := 131072

namespace Reader

def reset : Reader := ⟨.startRecord, [], []⟩

def enter (reader : Reader) (state : State) : Reader := { reader with state }

/-- `parse_add_char`. -/
def addChar (reader : Reader) (char : Char) (state : State) : Except Failure Reader :=
  if fieldLimit ≤ reader.field.length then .error .fieldLimit
  else .ok { reader with state, field := reader.field ++ [char] }

/-- `parse_save_field`. -/
def saveField (reader : Reader) (state : State) : Reader :=
  { state, field := [], fields := reader.fields ++ [.ofList reader.field] }

def endsRecord (char : Char) : Bool := char = '\n' || char = '\r'

variable (delimiter : Char)

def startField (reader : Reader) : Option Char → Except Failure Reader
  | none => .ok (reader.saveField .startRecord)
  | some char =>
      if endsRecord char then .ok (reader.saveField .eatCrnl)
      else if char = '"' then .ok (reader.enter .inQuotedField)
      else if char = delimiter then .ok (reader.saveField .startField)
      else reader.addChar char .inField

/-- `parse_process_char`; `none` is the end of a line. -/
def processChar (reader : Reader) (next : Option Char) : Except Failure Reader :=
  match reader.state with
  | .startRecord =>
      match next with
      | none => .ok reader
      | some char => if endsRecord char then .ok (reader.enter .eatCrnl) else startField delimiter reader next
  | .startField => startField delimiter reader next
  | .inField =>
      match next with
      | none => .ok (reader.saveField .startRecord)
      | some char =>
          if endsRecord char then .ok (reader.saveField .eatCrnl)
          else if char = delimiter then .ok (reader.saveField .startField)
          else reader.addChar char .inField
  | .inQuotedField =>
      match next with
      | none => .ok reader
      | some char =>
          if char = '"' then .ok (reader.enter .quoteInQuotedField) else reader.addChar char .inQuotedField
  | .quoteInQuotedField =>
      match next with
      | none => .ok (reader.saveField .startRecord)
      | some char =>
          if char = '"' then reader.addChar char .inQuotedField
          else if char = delimiter then .ok (reader.saveField .startField)
          else if endsRecord char then .ok (reader.saveField .eatCrnl)
          else reader.addChar char .inField
  | .eatCrnl =>
      match next with
      | none => .ok (reader.enter .startRecord)
      | some char => if endsRecord char then .ok reader else .error .newLine

def processLine (reader : Reader) (line : List Char) : Except Failure Reader := do
  let reader ← line.foldlM (fun reader char => processChar delimiter reader (some char)) reader
  processChar delimiter reader none

end Reader

/-- The lines of `io.StringIO(text)`, each with its line feed. -/
def lines : List Char → List (List Char)
  | [] => []
  | char :: rest =>
      if char = '\n' then [char] :: lines rest
      else
        match lines rest with
        | [] => [[char]]
        | line :: others => (char :: line) :: others

/-- The rows that the reader still finds in the lines. -/
def rowsFrom (delimiter : Char) (reader : Reader) : List (List Char) → Except Failure (List (List String))
  | [] =>
      if reader.field ≠ [] ∨ reader.state = .inQuotedField then .ok [(reader.saveField .startRecord).fields] else .ok []
  | line :: others => do
      let reader ← reader.processLine delimiter line
      if reader.state = .startRecord then return reader.fields :: (← rowsFrom delimiter .reset others)
      else rowsFrom delimiter reader others

/-- `list(csv.reader(io.StringIO(text), delimiter=delimiter))`. -/
def rows (delimiter : Char) (text : String) : Except Failure (List (List String)) :=
  rowsFrom delimiter .reset (lines text.toList)

end SmartProcurement.Text.Csv
