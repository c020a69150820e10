import SmartProcurement.Core.Values
import SmartProcurement.Text.Lines

namespace SmartProcurement.Integration.Connectors

open Text

/-! # The SQL connector

A query is accepted if it begins like a `SELECT` and a search for write keywords
finds none.  The search knows neither literals nor comments.
-/

/-- A letter of `str.lower`.  Letters that only become other letters outside ASCII
are left as they are, since no comparison here sees them. -/
def lowerChar (char : Char) : List Char :=
  if char = '\u212a' then ['k'] else if char = '\u0130' then ['i', '\u0307'] else [char.toLower]

def forbidden : List String := [
  "insert ", "update ", "delete ", "drop ", "alter ", "create ", "truncate ", "grant ", "revoke ", "merge ", "call ",
  "exec "]

/-- The lines that do not begin with two dashes. -/
def keptLines (sql : List Char) : List (List Char) :=
  (splitLines sql).filter fun line => ¬ ['-', '-'] <+: trimmed line

def stripped (sql : List Char) : List Char :=
  trimmed (((trimmed (['\n'].intercalate (keptLines sql))).rdropWhile (· = ';')).dropWhile (· = '('))

/-- `_assert_select_only`. -/
def assertSelectOnly (sql : String) : Except Error Unit :=
  let lowered := (stripped sql.toList).flatMap lowerChar
  if ¬ ("select".toList <+: lowered ∨ "with ".toList <+: lowered) then
    .error (.connector "SQL source accepts read-only SELECT/WITH queries only")
  else if ∃ token ∈ forbidden, token.toList <:+: ' ' :: (lowered ++ [' ']) then
    .error (.connector "SQL source query contains a forbidden write/DDL keyword")
  else .ok ()

structure SqlConfig where
  dsn : Option String
  dsnWithoutCredentials : Option String
  queries : List (String × String)

/-- A connector holds accepted queries only. -/
structure SqlSourceConnector where
  dsn : String
  queries : List (String × String)
  selectOnly : ∀ query ∈ queries, assertSelectOnly query.2 = .ok ()

def checkQueries (queries : List (String × String)) : Except Error Unit :=
  forM queries fun query => assertSelectOnly query.2

theorem checkQueries_ok {queries : List (String × String)} {done : Unit} (checked : checkQueries queries = .ok done) :
    ∀ query ∈ queries, assertSelectOnly query.2 = .ok () := by
  induction queries with
  | nil => nofun
  | cons first rest ih =>
      rw [checkQueries, List.forM_cons] at checked
      cases accepted : assertSelectOnly first.2 with
      | error reason =>
          rw [accepted] at checked
          cases checked
      | ok =>
          rw [accepted] at checked
          exact List.forall_mem_cons.mpr ⟨accepted, ih checked⟩

/-- `SqlSourceConnector.__init__`. -/
def SqlSourceConnector.init (config : SqlConfig) : Except Error SqlSourceConnector :=
  match (config.dsn.filter (· ≠ "")).or (config.dsnWithoutCredentials.filter (· ≠ "")) with
  | none => .error (.connector "sql connector requires config.dsn")
  | some dsn =>
      match checked : checkQueries config.queries with
      | .error reason => .error reason
      | .ok _ => .ok ⟨dsn, config.queries, checkQueries_ok checked⟩

/-! ## The regions of a statement -/

inductive Region where
  | code
  | quoted
  | comment
deriving DecidableEq, Repr

/-- Whether comments nest, and what ends a line comment. -/
structure Dialect where
  nested : Bool
  endsLine : Char → Bool

inductive Mode where
  | code
  | literal
  | identifier
  | line
  | block (depth : Nat)

/-- Every character with the region it stands in.  A doubled quote closes a
literal and opens the next one. -/
def regions (dialect : Dialect) : Mode → List Char → List (Char × Region)
  | _, [] => []
  | .code, '-' :: '-' :: rest => ('-', .comment) :: ('-', .comment) :: regions dialect .line rest
  | .code, '/' :: '*' :: rest => ('/', .comment) :: ('*', .comment) :: regions dialect (.block 0) rest
  | .code, char :: rest =>
      if char = '\'' then (char, .quoted) :: regions dialect .literal rest
      else if char = '"' then (char, .quoted) :: regions dialect .identifier rest
      else (char, .code) :: regions dialect .code rest
  | .literal, char :: rest => (char, .quoted) :: regions dialect (if char = '\'' then .code else .literal) rest
  | .identifier, char :: rest => (char, .quoted) :: regions dialect (if char = '"' then .code else .identifier) rest
  | .line, char :: rest =>
      if dialect.endsLine char then (char, .code) :: regions dialect .code rest
      else (char, .comment) :: regions dialect .line rest
  | .block depth, '*' :: '/' :: rest =>
      ('*', .comment) :: ('/', .comment) :: regions dialect (match depth with | 0 => .code | outer + 1 => .block outer) rest
  | .block depth, '/' :: '*' :: rest =>
      if dialect.nested then ('/', .comment) :: ('*', .comment) :: regions dialect (.block (depth + 1)) rest
      else ('/', .comment) :: regions dialect (.block depth) ('*' :: rest)
  | .block depth, char :: rest => (char, .comment) :: regions dialect (.block depth) rest

def writeKeywords : List String := [
  "insert", "update", "delete", "drop", "alter", "create", "truncate", "grant", "revoke", "merge", "call", "exec"]

/-- A character that goes on a word. -/
def wordChar (char : Char) : Bool := char.isAlphanum || char == '_' || 128 ≤ char.toNat

/-- A write keyword stands in the code as a whole word. -/
structure KeywordAt (dialect : Dialect) (sql front word rest : List Char) : Prop where
  split : sql = front ++ word ++ rest
  listed : ∃ keyword ∈ writeKeywords, word.map Char.toLower = keyword.toList
  inCode : ∀ entry ∈ ((regions dialect .code sql).drop front.length).take word.length, entry.2 = .code
  opens : ∀ char ∈ front.getLast?, wordChar char = false
  closes : ∀ char ∈ rest.head?, wordChar char = false

/-- Behind a semicolon there are only comments and white space. -/
def SingleStatement (dialect : Dialect) (sql : List Char) : Prop :=
  ∀ front rest, regions dialect .code sql = front ++ (';', .code) :: rest →
    ∀ entry ∈ rest, entry.2 = .comment ∨ isSpace entry.1 = true

/-- A single statement without write keywords. -/
structure ReadOnly (dialect : Dialect) (sql : List Char) : Prop where
  noKeyword : ∀ front word rest, ¬ KeywordAt dialect sql front word rest
  single : SingleStatement dialect sql

/-- What the search sees: a word before a space, in a line that does not begin with
two dashes. -/
structure Seen (front rest : List Char) : Prop where
  spaced : rest.head? = some ' '
  kept : ¬ ['-', '-'] <+: (lineStart front).dropWhile isSpace

/-! ## What the search finds -/

section Search

variable {dialect : Dialect} {sql front word rest : List Char}

theorem forbidden_eq : forbidden = writeKeywords.map (· ++ " ") := rfl

/-- The letters of the keywords, in either case. -/
def Letter (char : Char) : Prop := (65 ≤ char.toNat ∧ char.toNat ≤ 90) ∨ (97 ≤ char.toNat ∧ char.toNat ≤ 122)

instance : DecidablePred Letter := fun _ => inferInstanceAs (Decidable (_ ∨ _))

theorem letter_of_toLower {char : Char} (letter : Letter char.toLower) : Letter char := by
  unfold Char.toLower at letter
  split at letter
  · next upper =>
    left
    obtain ⟨low, high⟩ := upper
    exact ⟨low, high⟩
  · exact letter

theorem KeywordAt.letters (keyword : KeywordAt dialect sql front word rest) : ∀ char ∈ word, Letter char := by
  obtain ⟨listed, member, same⟩ := keyword.listed
  have letters : ∀ listed ∈ writeKeywords, listed.toList.all (Letter ·) = true := by decide
  intro char own
  have lower : char.toLower ∈ listed.toList := by
    rw [← same]
    exact List.mem_map_of_mem own
  exact letter_of_toLower (of_decide_eq_true (List.all_eq_true.mp (letters listed member) _ lower))

theorem KeywordAt.filled (keyword : KeywordAt dialect sql front word rest) : word ≠ [] := by
  rintro rfl
  obtain ⟨listed, member, same⟩ := keyword.listed
  have filled : ∀ listed ∈ writeKeywords, listed.toList ≠ [] := by decide
  exact filled listed member same.symm

theorem isBreak_letter {char : Char} (letter : Letter char) : isBreak char = false := by
  unfold Letter at letter
  simp [isBreak]
  omega

theorem isSpace_letter {char : Char} (letter : Letter char) : isSpace char = false := by
  unfold Letter at letter
  simp [isSpace]
  omega

theorem lowerChar_letter {char : Char} (letter : Letter char) : lowerChar char = [char.toLower] := by
  have kelvin : char ≠ '\u212a' := by
    rintro rfl
    revert letter
    decide
  have dotted : char ≠ '\u0130' := by
    rintro rfl
    revert letter
    decide
  rw [lowerChar, if_neg kelvin, if_neg dotted]

theorem flatMap_lowerChar (letters : ∀ char ∈ word, Letter char) : word.flatMap lowerChar = word.map Char.toLower := by
  rw [← List.flatMap_singleton' (word.map Char.toLower), List.flatMap_map]
  exact List.flatMap_congr fun char own => lowerChar_letter (letters char own)

/-- The line of a word that the search sees is kept. -/
theorem Seen.mem_keptLines (seen : Seen front rest) (filled : word ≠ []) (letters : ∀ char ∈ word, Letter char) :
    lineStart front ++ word ++ lineEnd rest ∈ keptLines (front ++ word ++ rest) := by
  refine List.mem_filter.mpr ⟨line_of_word filled fun char own => isBreak_letter (letters char own), ?_⟩
  obtain ⟨first, others, rfl⟩ := List.exists_cons_of_ne_nil filled
  have letter := letters first List.mem_cons_self
  have starts : (first :: others ++ lineEnd rest).dropWhile isSpace = first :: others ++ lineEnd rest := by
    simp [isSpace_letter letter]
  have noDash : first ≠ '-' := by
    rintro rfl
    revert letter
    decide
  rw [decide_eq_true_eq]
  intro dashes
  have dashes := dashes.trans (List.rdropWhile_prefix ..)
  rw [List.append_assoc, List.dropWhile_append, starts] at dashes
  split at dashes
  · exact noDash (List.cons_prefix_cons.mp dashes).1.symm
  · next nonblank =>
    have kept := seen.kept
    cases start : (lineStart front).dropWhile isSpace with
    | nil => simp [start] at nonblank
    | cons dash rest =>
        rw [start] at dashes kept
        obtain ⟨rfl, second⟩ := List.cons_prefix_cons.mp dashes
        cases rest with
        | nil => exact noDash (List.cons_prefix_cons.mp second).1.symm
        | cons other rest =>
            obtain ⟨rfl, _⟩ := List.cons_prefix_cons.mp second
            exact kept ⟨rest, rfl⟩

/-- What is stripped from a text leaves its words. -/
theorem standsBefore_stripped (stands : StandsBefore ' ' word (['\n'].intercalate (keptLines sql))) (filled : word ≠ [])
    (letters : ∀ char ∈ word, Letter char) : StandsBefore ' ' word (stripped sql) := by
  have spaces : ∀ char ∈ word, isSpace char = false := fun char own => isSpace_letter (letters char own)
  have other (mark : Char) (different : ¬ Letter mark) : ∀ char ∈ word, decide (char = mark) = false := by
    intro char own
    refine decide_eq_false ?_
    rintro rfl
    exact different (letters char own)
  have trims {text : List Char} (stands : StandsBefore ' ' word text) : StandsBefore ' ' word (trimmed text) :=
    (stands.dropWhile filled spaces).rdropWhile filled spaces
  have unended := (trims stands).rdropWhile filled (other ';' (by decide))
  exact trims (unended.dropWhile filled (other '(' (by decide)))

/-- An accepted text has none of the words the search is for. -/
theorem not_infix_of_accepted {text : String} (accepted : assertSelectOnly text = .ok ()) {token : String}
    (member : token ∈ forbidden) : ¬ token.toList <:+: ' ' :: ((stripped text.toList).flatMap lowerChar ++ [' ']) := by
  intro contains
  unfold assertSelectOnly at accepted
  dsimp only at accepted
  split at accepted
  · cases accepted
  · split at accepted
    · cases accepted
    · next absent => exact absent ⟨token, member, contains⟩

/-- A keyword that the search sees is found. -/
theorem KeywordAt.refused {text : String} (keyword : KeywordAt dialect text.toList front word rest) (seen : Seen front rest) :
    assertSelectOnly text ≠ .ok () := by
  have letters := keyword.letters
  have filled := keyword.filled
  obtain ⟨after, rfl⟩ := List.head?_eq_some_iff.mp seen.spaced
  have lines := seen.mem_keptLines filled letters
  rw [← keyword.split] at lines
  have spaced : word ++ [' '] <:+: lineStart front ++ word ++ lineEnd (' ' :: after) :=
    ⟨lineStart front, lineEnd after, by simp [lineEnd, show isBreak ' ' = false from rfl]⟩
  have joined : StandsBefore ' ' word (['\n'].intercalate (keptLines text.toList)) :=
    standsBefore_of_infix (spaced.trans (infix_intercalate lines))
  have lowered : StandsBefore ' ' (word.flatMap lowerChar) ((stripped text.toList).flatMap lowerChar) :=
    (standsBefore_stripped joined filled letters).flatMap (by decide)
  have found := lowered.infix
  rw [flatMap_lowerChar letters] at found
  obtain ⟨listed, member, same⟩ := keyword.listed
  have token : (listed ++ " ").toList = word.map Char.toLower ++ [' '] := by
    rw [String.toList_append, ← same]
    simp
  intro accepted
  refine not_infix_of_accepted accepted (?_ : listed ++ " " ∈ forbidden) ?_
  · rw [forbidden_eq]
    exact List.mem_map_of_mem member
  · rw [token]
    exact found.trans (List.suffix_cons ..).isInfix

/-- An accepted query is a single read-only statement exactly if the search sees
every write keyword in it and only the last statement ends with a semicolon. -/
theorem readOnly_iff {text : String} (accepted : assertSelectOnly text = .ok ()) (dialect : Dialect) :
    ReadOnly dialect text.toList ↔
      (∀ front word rest, KeywordAt dialect text.toList front word rest → Seen front rest) ∧
        SingleStatement dialect text.toList := by
  constructor
  · exact fun clean => ⟨fun front word rest keyword => absurd keyword (clean.noKeyword front word rest), clean.single⟩
  · rintro ⟨seen, single⟩
    exact ⟨fun front word rest keyword => keyword.refused (seen front word rest keyword) accepted, single⟩

theorem KeywordAt.infix (keyword : KeywordAt dialect sql front word rest) :
    ∃ listed ∈ writeKeywords, listed.toList <:+: sql.map Char.toLower := by
  obtain ⟨listed, member, same⟩ := keyword.listed
  refine ⟨listed, member, front.map Char.toLower, rest.map Char.toLower, ?_⟩
  rw [← same, keyword.split, List.map_append, List.map_append]

end Search

/-- Comments nest and end at a line feed or a carriage return. -/
def postgres : Dialect := ⟨true, fun char => char = '\n' || char = '\r'⟩

theorem readOnly_select : ReadOnly postgres "SELECT sku FROM item -- all; of them".toList := by
  refine (readOnly_iff (by decide +kernel) postgres).mpr ⟨fun front word rest keyword => ?_, fun front rest split => ?_⟩
  · obtain ⟨listed, member, found⟩ := keyword.infix
    exact absurd found (by revert listed; decide +kernel)
  · have absent : (';', Region.code) ∉ regions postgres .code "SELECT sku FROM item -- all; of them".toList := by
      decide +kernel
    exact absurd (split ▸ List.mem_append_right _ List.mem_cons_self) absent

/-- A line break behind the keyword hides it, and nothing looks for a second statement. -/
theorem hidden_writes_accepted :
    (assertSelectOnly "with gone as (delete\nfrom item returning *) select * from gone" = .ok () ∧
        ¬ ReadOnly postgres "with gone as (delete\nfrom item returning *) select * from gone".toList) ∧
      assertSelectOnly "select 1; drop\ttable item" = .ok () ∧
        ¬ SingleStatement postgres "select 1; drop\ttable item".toList := by
  refine ⟨⟨by decide +kernel, fun clean => ?_⟩, by decide +kernel, fun single => ?_⟩
  · refine clean.noKeyword "with gone as (".toList "delete".toList "\nfrom item returning *) select * from gone".toList
      ⟨by decide +kernel, ⟨"delete", by decide, by decide +kernel⟩, by decide +kernel, ?_, ?_⟩
    · intro char before
      obtain rfl : '(' = char := Option.some.inj before
      decide
    · intro char after
      obtain rfl : '\n' = char := Option.some.inj after
      decide
  · have blank := single ("select 1".toList.map (·, .code)) (" drop\ttable item".toList.map (·, .code)) (by decide +kernel)
      ('d', .code) (by decide +kernel)
    exact absurd blank (by decide)

end SmartProcurement.Integration.Connectors
