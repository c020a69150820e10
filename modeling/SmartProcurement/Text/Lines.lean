import Mathlib.Data.List.DropRight
import Mathlib.Data.List.Infix
import Mathlib.Data.List.TakeWhile
import SmartProcurement.Text.Literals

namespace SmartProcurement.Text

/-! # Lines and trimming

Splitting a text into lines, and what is left of a word when lines are dropped
and both ends of the text are trimmed.
-/

/-- Where `str.splitlines` ends a line. -/
def isBreak (char : Char) : Bool :=
  let code := char.toNat
  (10 ≤ code && code ≤ 13) || (28 ≤ code && code ≤ 30) || code == 133 || code == 8232 || code == 8233

/-- `str.splitlines`. -/
def splitLines : List Char → List (List Char)
  | [] => []
  | '\r' :: '\n' :: rest => [] :: splitLines rest
  | char :: rest =>
      if isBreak char then [] :: splitLines rest
      else
        match splitLines rest with
        | [] => [[char]]
        | line :: lines => (char :: line) :: lines

/-- The text since the last line break. -/
def lineStart (front : List Char) : List Char := front.rtakeWhile (!isBreak ·)

/-- The text up to the next line break. -/
def lineEnd (rest : List Char) : List Char := rest.takeWhile (!isBreak ·)

section Lines

variable {char : Char} {front text rest word : List Char}

theorem splitLines_break (isEnd : isBreak char = true) (single : char = '\r' → text.head? ≠ some '\n') :
    splitLines (char :: text) = [] :: splitLines text := by
  rw [splitLines.eq_3 char text fun rest isReturn isFeed => single isReturn (by rw [isFeed]; rfl), if_pos isEnd]

theorem splitLines_cons (inside : isBreak char = false) (text : List Char) : splitLines (char :: text) =
    match splitLines text with
    | [] => [[char]]
    | line :: lines => (char :: line) :: lines := by
  have different : char ≠ '\r' := by
    rintro rfl
    cases inside
  rw [splitLines.eq_3 char text fun rest isReturn _ => different isReturn, if_neg (by simp [inside])]

theorem splitLines_crlf (text : List Char) : splitLines ('\r' :: '\n' :: text) = [] :: splitLines text := rfl

/-- The first line. -/
theorem splitLines_head (filled : text ≠ []) : ∃ lines, splitLines text = lineEnd text :: lines := by
  induction text with
  | nil => exact absurd rfl filled
  | cons char rest ih =>
      cases inside : isBreak char with
      | true =>
          have ends : lineEnd (char :: rest) = [] := by simp [lineEnd, inside]
          rw [ends]
          by_cases crlf : char = '\r' ∧ rest.head? = some '\n'
          · obtain ⟨rfl, feed⟩ := crlf
            obtain ⟨after, rfl⟩ := List.head?_eq_some_iff.mp feed
            exact ⟨_, splitLines_crlf after⟩
          · exact ⟨_, splitLines_break inside fun isReturn feed => crlf ⟨isReturn, feed⟩⟩
      | false =>
          have goes : lineEnd (char :: rest) = char :: lineEnd rest := by simp [lineEnd, inside]
          rw [goes, splitLines_cons inside]
          cases rest with
          | nil => exact ⟨[], rfl⟩
          | cons next rest =>
              obtain ⟨lines, first⟩ := ih nofun
              exact ⟨lines, by rw [first]⟩

/-- Nothing crosses a line break. -/
theorem splitLines_append (isEnd : isBreak char = true) (single : char = '\r' → text.head? ≠ some '\n') (front : List Char) :
    splitLines (front ++ char :: text) = splitLines (front ++ [char]) ++ splitLines text := by
  have last : splitLines [char] = [[]] := splitLines_break isEnd nofun
  have inner {first : Char} {rest : List Char} (inside : isBreak first = false)
      (ih : splitLines (rest ++ char :: text) = splitLines (rest ++ [char]) ++ splitLines text) :
      splitLines (first :: rest ++ char :: text) = splitLines (first :: rest ++ [char]) ++ splitLines text := by
    obtain ⟨lines, head⟩ := splitLines_head (show rest ++ [char] ≠ [] by simp)
    rw [List.cons_append, List.cons_append, splitLines_cons inside, splitLines_cons inside, ih, head]
    rfl
  induction front using splitLines.induct with
  | case1 => rw [List.nil_append, List.nil_append, splitLines_break isEnd single, last, List.singleton_append]
  | case2 rest ih =>
      change [] :: splitLines (rest ++ char :: text) = [] :: splitLines (rest ++ [char]) ++ splitLines text
      rw [ih, List.cons_append]
  | case3 first rest notCrlf isBreak ih =>
      cases rest with
      | nil =>
          by_cases crlf : first = '\r' ∧ char = '\n'
          · obtain ⟨rfl, rfl⟩ := crlf
            rfl
          · have alone (after : List Char) : first = '\r' → (char :: after).head? ≠ some '\n' :=
              fun isReturn feed => crlf ⟨isReturn, Option.some.inj feed⟩
            rw [List.singleton_append, List.singleton_append, splitLines_break isBreak (alone _),
              splitLines_break isBreak (alone _), last, splitLines_break isEnd single]
            rfl
      | cons next rest =>
          have alone (after : List Char) : first = '\r' → (next :: after).head? ≠ some '\n' :=
            fun isReturn feed => notCrlf rest isReturn (by rw [Option.some.inj feed])
          rw [List.cons_append, List.cons_append, List.cons_append, List.cons_append, splitLines_break isBreak (alone _),
            splitLines_break isBreak (alone _), ← List.cons_append, ih]
          rfl
  | case4 first rest _ inside _ ih => exact inner (Bool.eq_false_iff.mpr inside) ih
  | case5 first rest _ inside _ _ _ ih => exact inner (Bool.eq_false_iff.mpr inside) ih

theorem lineStart_inside : ∀ char ∈ lineStart front, isBreak char = false := by
  intro char member
  simpa using List.mem_rtakeWhile_imp member

/-- A text is one line, or it has a last line break. -/
theorem lineStart_cases (front : List Char) :
    lineStart front = front ∨ ∃ before char, isBreak char = true ∧ front = before ++ char :: lineStart front := by
  induction front using List.reverseRecOn with
  | nil => exact .inl rfl
  | append_singleton front last ih =>
      cases inside : isBreak last with
      | true =>
          have ends : lineStart (front ++ [last]) = [] := List.rtakeWhile_concat_neg _ _ _ (by simp [inside])
          exact .inr ⟨front, last, inside, by rw [ends]⟩
      | false =>
          have goes : lineStart (front ++ [last]) = lineStart front ++ [last] :=
            List.rtakeWhile_concat_pos _ _ _ (by simp [inside])
          rw [goes]
          rcases ih with whole | ⟨before, char, isEnd, split⟩
          · exact .inl (by rw [whole])
          · refine .inr ⟨before, char, isEnd, ?_⟩
            conv_lhs => rw [split]
            simp

/-- The line in which a word stands. -/
theorem line_of_word (filled : word ≠ []) (inside : ∀ char ∈ word, isBreak char = false) :
    lineStart front ++ word ++ lineEnd rest ∈ splitLines (front ++ word ++ rest) := by
  have own : ∀ char ∈ lineStart front ++ word, isBreak char = false := by
    intro char member
    rcases List.mem_append.mp member with before | own
    · exact lineStart_inside char before
    · exact inside char own
  have ends : lineEnd (lineStart front ++ word ++ rest) = lineStart front ++ word ++ lineEnd rest :=
    List.takeWhile_append_of_pos fun char member => by simp [own char member]
  obtain ⟨lines, first⟩ := splitLines_head (show lineStart front ++ word ++ rest ≠ [] by simp [filled])
  rw [ends] at first
  have member : lineStart front ++ word ++ lineEnd rest ∈ splitLines (lineStart front ++ word ++ rest) := by
    rw [first]
    exact List.mem_cons_self
  rcases lineStart_cases front with whole | ⟨before, char, isEnd, split⟩
  · rwa [whole] at member ⊢
  · have single : char = '\r' → (lineStart front ++ word ++ rest).head? ≠ some '\n' := by
      intro _ feed
      obtain ⟨after, starts⟩ := List.head?_eq_some_iff.mp feed
      have nonempty : lineStart front ++ word ≠ [] := by simp [filled]
      obtain ⟨first, others, same⟩ := List.exists_cons_of_ne_nil nonempty
      rw [same, List.cons_append, List.cons.injEq] at starts
      have free := own first (by rw [same]; exact List.mem_cons_self)
      rw [starts.1] at free
      cases free
    have whole : front ++ word ++ rest = before ++ char :: (lineStart front ++ word ++ rest) := by
      conv_lhs => rw [split]
      simp
    rw [whole, splitLines_append isEnd single]
    exact List.mem_append_right _ member

end Lines

/-! ## Trimming around a word -/

/-- White space at both ends goes. -/
def trimmed (chars : List Char) : List Char := (chars.dropWhile isSpace).rdropWhile isSpace

theorem trimmed_subset (chars : List Char) : trimmed chars ⊆ chars :=
  fun _ member => (List.dropWhile_suffix _).subset ((List.rdropWhile_prefix ..).subset member)

theorem strip_ofList (chars : List Char) : strip (.ofList chars) = .ofList (trimmed chars) := by
  rw [strip, String.toList_ofList]
  rfl

section Trimming

variable {α : Type*} {front rest word text : List α} {drops : α → Bool} {after : α}

/-- The word stands in the text, at its end or before `after`. -/
def StandsBefore (after : α) (word text : List α) : Prop :=
  ∃ front rest, text = front ++ word ++ rest ∧ ∀ next ∈ rest.head?, next = after

theorem standsBefore_of_infix (contains : word ++ [after] <:+: text) : StandsBefore after word text := by
  obtain ⟨front, rest, rfl⟩ := contains
  exact ⟨front, after :: rest, by simp, fun next first => (Option.some.inj first).symm⟩

/-- Dropping at the left stops at the word. -/
theorem StandsBefore.dropWhile (stands : StandsBefore after word text) (filled : word ≠ [])
    (kept : ∀ value ∈ word, drops value = false) : StandsBefore after word (text.dropWhile drops) := by
  obtain ⟨front, rest, rfl, next⟩ := stands
  obtain ⟨first, others, rfl⟩ := List.exists_cons_of_ne_nil filled
  have stops : (first :: others ++ rest).dropWhile drops = first :: others ++ rest := by
    simp [kept first List.mem_cons_self]
  rw [List.append_assoc, List.dropWhile_append, stops]
  split
  · exact ⟨[], rest, rfl, next⟩
  · exact ⟨front.dropWhile drops, rest, by rw [List.append_assoc], next⟩

/-- ... and at the right too. -/
theorem StandsBefore.rdropWhile (stands : StandsBefore after word text) (filled : word ≠ [])
    (kept : ∀ value ∈ word, drops value = false) : StandsBefore after word (text.rdropWhile drops) := by
  obtain ⟨front, rest, rfl, next⟩ := stands
  have stops : (front ++ word ++ rest).rdropWhile drops = front ++ word ++ rest.rdropWhile drops := by
    clear next
    induction rest using List.reverseRecOn with
    | nil =>
        rw [List.rdropWhile_nil, List.append_nil, List.rdropWhile_eq_self_iff]
        intro nonempty
        rw [List.getLast_append_of_ne_nil nonempty filled, kept _ (List.getLast_mem filled)]
        exact Bool.false_ne_true
    | append_singleton rest last ih =>
        rw [← List.append_assoc]
        cases trailing : drops last with
        | true => rw [List.rdropWhile_concat_pos _ _ _ trailing, List.rdropWhile_concat_pos _ _ _ trailing, ih]
        | false =>
            have stays : ¬ drops last = true := by simp [trailing]
            rw [List.rdropWhile_concat_neg _ _ _ stays, List.rdropWhile_concat_neg _ _ _ stays, List.append_assoc]
  refine ⟨front, rest.rdropWhile drops, stops, fun first head => ?_⟩
  obtain ⟨dropped, same⟩ := rest.rdropWhile_prefix drops
  exact next first (by rw [← same, List.head?_append, head]; rfl)

/-- What is read one character at a time keeps its words. -/
theorem StandsBefore.flatMap {read : α → List α} (stands : StandsBefore after word text) (fixed : read after = [after]) :
    StandsBefore after (word.flatMap read) (text.flatMap read) := by
  obtain ⟨front, rest, rfl, next⟩ := stands
  refine ⟨front.flatMap read, rest.flatMap read, by simp, ?_⟩
  cases rest with
  | nil => nofun
  | cons first rest =>
      obtain rfl := next first rfl
      rw [List.flatMap_cons, fixed]
      exact fun next first => (Option.some.inj first).symm

/-- With one more `after` behind it, the word stands before it. -/
theorem StandsBefore.infix (stands : StandsBefore after word text) : word ++ [after] <:+: text ++ [after] := by
  obtain ⟨front, rest, rfl, next⟩ := stands
  cases rest with
  | nil => exact ⟨front, [], by simp⟩
  | cons first rest =>
      obtain rfl := next first rfl
      exact ⟨front, rest ++ [first], by simp⟩

theorem infix_intercalate {separator line : List α} {lines : List (List α)} (member : line ∈ lines) :
    line <:+: separator.intercalate lines := by
  induction lines with
  | nil => cases member
  | cons first others ih =>
      cases others with
      | nil =>
          rw [List.mem_singleton.mp member, List.intercalate_singleton]
      | cons second others =>
          rw [List.intercalate_cons_cons]
          rcases List.mem_cons.mp member with rfl | later
          · exact ⟨[], separator ++ separator.intercalate (second :: others), by simp⟩
          · exact (ih later).trans (List.suffix_append _ _).isInfix

end Trimming

end SmartProcurement.Text
