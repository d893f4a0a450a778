import Mathlib.Data.List.DropRight
import Scriptlet.Source

namespace Scriptlet

/-!
# Counting places

A place behind a text is counted one character after the other.  Its line is also
told by the line breaks of the text, its column by what stands behind the last of
them, and its byte by the sizes of the characters.  This module shows that the two
ways of counting agree, and that bytes and rows lead back to the characters.
-/

/-! ## Bytes -/

/-- The number of bytes of a text in its UTF-8 form. -/
def byteLength : List Char → Nat
  | [] => 0
  | character :: text => character.utf8Size + byteLength text

@[simp] theorem byteLength_nil :
    byteLength [] = 0 :=
  rfl

@[simp] theorem byteLength_cons (character : Char) (text : List Char) :
    byteLength (character :: text) = character.utf8Size + byteLength text :=
  rfl

@[simp] theorem byteLength_append (first second : List Char) :
    byteLength (first ++ second) = byteLength first + byteLength second := by
  induction first with
  | nil =>
      exact (Nat.zero_add _).symm
  | cons character rest inductionHypothesis =>
      rw [List.cons_append, byteLength_cons, byteLength_cons, inductionHypothesis,
        Nat.add_assoc]

/-- The bytes of a text in front of another one lead to the latter. -/
theorem dropBytes?_append (text rest : List Char) :
    dropBytes? (byteLength text) (text ++ rest) = some rest := by
  induction text with
  | nil =>
      cases rest <;> rfl
  | cons character text inductionHypothesis =>
      have isPositive := character.utf8Size_pos
      obtain ⟨count, isCount⟩ :
          ∃ count, character.utf8Size + byteLength text = count + 1 :=
        Nat.exists_eq_succ_of_ne_zero (by omega)
      have fits : character.utf8Size ≤ count + 1 := by omega
      have left : count + 1 - character.utf8Size = byteLength text := by omega
      rw [byteLength_cons, List.cons_append, isCount, dropBytes?, if_pos fits,
        left]
      exact inductionHypothesis

/-- The bytes of a text in front of another one are those of the text. -/
theorem takeBytes?_append (text rest : List Char) :
    takeBytes? (byteLength text) (text ++ rest) = some text := by
  induction text with
  | nil =>
      cases rest <;> rfl
  | cons character text inductionHypothesis =>
      have isPositive := character.utf8Size_pos
      obtain ⟨count, isCount⟩ :
          ∃ count, character.utf8Size + byteLength text = count + 1 :=
        Nat.exists_eq_succ_of_ne_zero (by omega)
      have fits : character.utf8Size ≤ count + 1 := by omega
      have left : count + 1 - character.utf8Size = byteLength text := by omega
      rw [byteLength_cons, List.cons_append, isCount, takeBytes?, if_pos fits,
        left, inductionHypothesis]
      rfl

/-- The text of a span whose bytes are those of a stretch of its source. -/
theorem Span.text_eq
    {span : Span}
    {before text rest : List Char}
    (isSource : span.source.code.toList = before ++ (text ++ rest))
    (startsAt : span.start.index = byteLength before)
    (stopsAt : span.stop.index = byteLength before + byteLength text) :
    span.text = String.ofList text := by
  have forwards : span.start.index ≤ span.stop.index := by
    rw [startsAt, stopsAt]
    exact Nat.le_add_right _ _
  have covered : span.characters? = some text := by
    rw [characters?, if_pos forwards, isSource, startsAt, stopsAt,
      dropBytes?_append, Nat.add_sub_cancel_left]
    exact takeBytes?_append text rest
  rw [Span.text, covered]
  rfl

/-! ## Lines and columns -/

/-- What stands behind the last line break of a text. -/
def lastRow (text : List Char) : List Char :=
  text.rtakeWhile (· ≠ '\n')

@[simp] theorem lastRow_nil :
    lastRow [] = [] :=
  rfl

theorem lastRow_concat (text : List Char) (character : Char) :
    lastRow (text ++ [character]) =
      if character = '\n' then [] else lastRow text ++ [character] := by
  simp [lastRow, List.rtakeWhile_concat]

/-- What follows on the same line adds to the last row. -/
theorem lastRow_append
    (text : List Char)
    {more : List Char}
    (noBreak : '\n' ∉ more) :
    lastRow (text ++ more) = lastRow text ++ more := by
  induction more using List.reverseRecOn with
  | nil => rw [List.append_nil, List.append_nil]
  | append_singleton more character inductionHypothesis =>
      rw [List.mem_append, not_or, List.mem_singleton] at noBreak
      rw [← List.append_assoc, lastRow_concat, if_neg (Ne.symm noBreak.2),
        inductionHypothesis noBreak.1, List.append_assoc]

/-- That a place is the one behind a text: its line is told by the line breaks of
the text, its column by what stands behind the last of them, and its byte by the
bytes of the text. -/
structure Position.Behind (position : Position) (text : List Char) : Prop where
  line_eq : position.line = 1 + text.count '\n'
  column_eq : position.column = (lastRow text).length
  index_eq : position.index = byteLength text

namespace Position.Behind

theorem origin : Position.origin.Behind [] :=
  ⟨rfl, rfl, rfl⟩

/-- One more character. -/
theorem step
    {position : Position}
    {text : List Char}
    (isBehind : position.Behind text)
    (character : Char) :
    (position.step character).Behind (text ++ [character]) := by
  obtain ⟨isLine, isColumn, isIndex⟩ := isBehind
  by_cases isBreak : character = '\n'
  · subst isBreak
    refine ⟨?_, ?_, ?_⟩
    · simp [Position.step, isLine, Nat.add_assoc]
    · simp [Position.step, lastRow_concat]
    · simp [Position.step, isIndex]
  · refine ⟨?_, ?_, ?_⟩
    · simp [Position.step, isBreak, isLine]
    · simp [Position.step, isBreak, isColumn, lastRow_concat]
    · simp [Position.step, isBreak, isIndex]

/-- A further text. -/
theorem after
    {position : Position}
    {text : List Char}
    (isBehind : position.Behind text)
    (more : List Char) :
    (position.after more).Behind (text ++ more) := by
  induction more generalizing position text with
  | nil =>
      rw [List.append_nil]
      exact isBehind
  | cons character rest inductionHypothesis =>
      rw [List.append_cons]
      exact inductionHypothesis (isBehind.step character)

/-- The place that is counted from the start of a text is the one behind it. -/
theorem after_origin (text : List Char) :
    (Position.origin.after text).Behind text :=
  origin.after text

/-- A text leads to just one place. -/
theorem unique
    {position other : Position}
    {text : List Char}
    (isBehind : position.Behind text)
    (isAlso : other.Behind text) :
    position = other := by
  have sameLine := isBehind.line_eq.trans isAlso.line_eq.symm
  have sameColumn := isBehind.column_eq.trans isAlso.column_eq.symm
  have sameIndex := isBehind.index_eq.trans isAlso.index_eq.symm
  cases position
  cases other
  simp only at sameLine sameColumn sameIndex
  rw [sameLine, sameColumn, sameIndex]

/-- Within a line, columns count characters. -/
theorem column_sub
    {start stop : Position}
    {before inside : List Char}
    (startsBehind : start.Behind before)
    (stopsBehind : stop.Behind (before ++ inside))
    (sameLine : stop.line = start.line) :
    stop.column - start.column = inside.length := by
  have noBreak : '\n' ∉ inside := by
    rw [stopsBehind.line_eq, startsBehind.line_eq, List.count_append] at sameLine
    exact List.count_eq_zero.mp (by omega)
  rw [stopsBehind.column_eq, startsBehind.column_eq, lastRow_append before noBreak,
    List.length_append, Nat.add_sub_cancel_left]

end Position.Behind

/-! ## The order of places -/

namespace Position

theorem index_le_after (position : Position) (text : List Char) :
    position.index ≤ (position.after text).index := by
  induction text generalizing position with
  | nil =>
      exact Nat.le_refl _
  | cons character rest inductionHypothesis =>
      have stepped : position.index ≤ (position.step character).index := by
        unfold step
        split <;> exact Nat.le_add_right _ _
      exact Nat.le_trans stepped (inductionHypothesis (position.step character))

theorem line_le_after (position : Position) (text : List Char) :
    position.line < (position.after text).line ∨
      position.line = (position.after text).line ∧
        position.column ≤ (position.after text).column := by
  induction text generalizing position with
  | nil =>
      exact .inr ⟨rfl, Nat.le_refl _⟩
  | cons character rest inductionHypothesis =>
      have later := inductionHypothesis (position.step character)
      rw [after_cons]
      generalize (position.step character).after rest = final at later
      by_cases isBreak : character = '\n'
      · simp only [step, isBreak, if_true] at later
        omega
      · simp only [step, isBreak, if_false] at later
        omega

/-- No place comes before one that is counted on from it. -/
theorem not_after_precedes (position : Position) (text : List Char) :
    (position.after text).precedes position = false := by
  have lineAtLeast := position.line_le_after text
  have indexAtLeast := position.index_le_after text
  simp only [precedes, Bool.or_eq_false_iff, Bool.and_eq_false_iff,
    decide_eq_false_iff_not, beq_eq_false_iff_ne]
  omega

/-- A place comes before one that is counted on from it by at least one character. -/
theorem precedes_after
    (position : Position)
    {text : List Char}
    (someText : text ≠ []) :
    position.precedes (position.after text) = true := by
  obtain ⟨character, rest, rfl⟩ := List.exists_cons_of_ne_nil someText
  have lineAtLeast := position.line_le_after (character :: rest)
  have indexGreater : position.index < (position.after (character :: rest)).index := by
    have sizePositive := character.utf8Size_pos
    have stepped : position.index < (position.step character).index := by
      unfold step
      split <;> exact Nat.lt_add_of_pos_right sizePositive
    exact Nat.lt_of_lt_of_le stepped ((position.step character).index_le_after rest)
  simp only [precedes, Bool.or_eq_true, Bool.and_eq_true, decide_eq_true_eq, beq_iff_eq]
  omega

end Position

/-! ## Rows -/

theorem rows_ne_nil (text : List Char) :
    rows text ≠ [] := by
  cases text with
  | nil =>
      exact nofun
  | cons character rest =>
      rw [rows]
      split
      · exact nofun
      · split <;> exact nofun

/-- The first row of a text ends at its first line break. -/
theorem head?_rows (text : List Char) :
    (rows text)[0]? = some (text.takeWhile (· ≠ '\n')) := by
  induction text with
  | nil =>
      rfl
  | cons character rest inductionHypothesis =>
      rw [rows]
      split
      case isTrue isBreak =>
        simp [isBreak]
      case isFalse notBreak =>
        split
        case h_1 noRow =>
          exact (rows_ne_nil rest noRow).elim
        case h_2 row later isRows =>
          rw [isRows] at inductionHypothesis
          cases inductionHypothesis
          simp [notBreak]

/-- A line break parts the rows of a text. -/
theorem rows_append_break (text rest : List Char) :
    rows (text ++ '\n' :: rest) = rows text ++ rows rest := by
  induction text with
  | nil =>
      rfl
  | cons character text inductionHypothesis =>
      rw [List.cons_append, rows, inductionHypothesis, rows]
      split
      case isTrue =>
        rfl
      case isFalse =>
        cases isRows : rows text with
        | nil => exact (rows_ne_nil text isRows).elim
        | cons row later => rfl

/-- A text has one row more than line breaks. -/
theorem length_rows (text : List Char) :
    (rows text).length = text.count '\n' + 1 := by
  induction text with
  | nil =>
      rfl
  | cons character rest inductionHypothesis =>
      rw [rows]
      split
      case isTrue isBreak =>
        simp [isBreak, inductionHypothesis]
      case isFalse notBreak =>
        rw [List.count_cons_of_ne notBreak, ← inductionHypothesis]
        cases isRows : rows rest with
        | nil => exact (rows_ne_nil rest isRows).elim
        | cons row later => rfl

/-- No row of a text has a line break. -/
theorem break_notMem_of_mem_rows
    {text row : List Char}
    (isRow : row ∈ rows text) :
    '\n' ∉ row := by
  induction text generalizing row with
  | nil =>
      rw [List.mem_singleton.mp isRow]
      exact List.not_mem_nil
  | cons character rest inductionHypothesis =>
      rw [rows] at isRow
      split at isRow
      case isTrue =>
        rcases List.mem_cons.mp isRow with rfl | isLater
        · exact List.not_mem_nil
        · exact inductionHypothesis isLater
      case isFalse notBreak =>
        split at isRow
        case h_1 noRow => exact (rows_ne_nil rest noRow).elim
        case h_2 first later isRows =>
          rw [isRows] at inductionHypothesis
          rcases List.mem_cons.mp isRow with rfl | isLater
          · exact List.not_mem_cons_of_ne_of_not_mem (Ne.symm notBreak)
              (inductionHypothesis List.mem_cons_self)
          · exact inductionHypothesis (List.mem_cons_of_mem _ isLater)

/-- A text without line breaks is its only row. -/
theorem rows_of_notMem
    {text : List Char}
    (noBreak : '\n' ∉ text) :
    rows text = [text] := by
  have isOnly : (rows text).length = 1 := by
    rw [length_rows, List.count_eq_zero.mpr noBreak]
  obtain ⟨row, isRows⟩ := List.length_eq_one_iff.mp isOnly
  have isFirst := head?_rows text
  rw [isRows] at isFirst
  have isWhole : text.takeWhile (· ≠ '\n') = text := by
    rw [List.takeWhile_eq_self_iff]
    intro character isInside
    exact decide_eq_true fun isBreak => noBreak (isBreak ▸ isInside)
  rw [isRows, Option.some.inj isFirst, isWhole]

/-- The row that a place in a text is on holds what stands before the place since the
last line break and what follows up to the next one. -/
theorem rows_getElem?_count (before rest : List Char) :
    (rows (before ++ rest))[before.count '\n']? =
      some (lastRow before ++ rest.takeWhile (· ≠ '\n')) := by
  induction before using List.reverseRecOn generalizing rest with
  | nil =>
      exact head?_rows rest
  | append_singleton before character inductionHypothesis =>
      rw [← List.append_cons, lastRow_concat]
      by_cases isBreak : character = '\n'
      · subst isBreak
        have isNext : (before ++ ['\n']).count '\n' = (rows before).length := by
          simp [length_rows]
        rw [rows_append_break, isNext, List.getElem?_append_right (Nat.le_refl _),
          Nat.sub_self, head?_rows]
        rfl
      · have sameRow : (before ++ [character]).count '\n' = before.count '\n' := by
          simp [isBreak]
        rw [sameRow, inductionHypothesis]
        simp [isBreak]

/-- The closing carriage return of a row takes no other character with it. -/
theorem withoutReturn_getElem?
    {character : Char}
    (notReturn : character ≠ '\r')
    (before rest : List Char) :
    (withoutReturn (before ++ character :: rest))[before.length]? =
      some character := by
  unfold withoutReturn
  split
  case isFalse =>
    simp
  case isTrue closed =>
    have someRest : rest ≠ [] := by
      rintro rfl
      simp only [List.getLast?_concat, Option.some.injEq] at closed
      exact notReturn closed
    rw [List.dropLast_append_of_ne_nil (List.cons_ne_nil _ _),
      List.dropLast_cons_of_ne_nil someRest]
    simp

/-- A line is shown without its line break. -/
theorem break_notMem_of_line?
    {source : SourceUnit}
    {number : Nat}
    {line : String}
    (isLine : source.line? number = some line) :
    '\n' ∉ line.toList := by
  cases number with
  | zero => cases isLine
  | succ number =>
      obtain ⟨row, isRow, rfl⟩ := Option.map_eq_some_iff.mp isLine
      have noBreak := break_notMem_of_mem_rows (List.mem_of_getElem? isRow)
      rw [String.toList_ofList, withoutReturn]
      split
      · exact fun isInside => noBreak ((List.dropLast_sublist row).subset isInside)
      · exact noBreak

/-- The line of a place in a source, and the character of the place in it. -/
theorem SourceUnit.line?_of_behind
    {source : SourceUnit}
    {position : Position}
    {before rest : List Char}
    (isSource : source.code.toList = before ++ rest)
    (isBehind : position.Behind before) :
    ∃ line, source.line? position.line = some line ∧
      ∀ character, rest.head? = some character →
        character ≠ '\n' → character ≠ '\r' →
        line.toList[position.column]? = some character := by
  have isRow := rows_getElem?_count before rest
  rw [← isSource] at isRow
  refine
    ⟨String.ofList
      (withoutReturn (lastRow before ++ rest.takeWhile (· ≠ '\n'))), ?_, ?_⟩
  · rw [isBehind.line_eq, Nat.add_comm, SourceUnit.line?, isRow]
    rfl
  · intro character isNext notBreak notReturn
    obtain ⟨later, rfl⟩ : ∃ later, rest = character :: later := by
      cases rest with
      | nil =>
          cases isNext
      | cons first later =>
          cases isNext
          exact ⟨later, rfl⟩
    rw [isBehind.column_eq, String.toList_ofList,
      List.takeWhile_cons_of_pos (by simpa using notBreak)]
    exact withoutReturn_getElem? notReturn _ _

theorem withoutReturn_prefix (row : List Char) :
    withoutReturn row <+: row := by
  unfold withoutReturn
  split
  · exact List.dropLast_prefix row
  · exact List.prefix_rfl

/-- In front of a place its line has what stands before the place since the last line
break. -/
theorem SourceUnit.take_line
    {source : SourceUnit}
    {position : Position}
    {before rest : List Char}
    {line : String}
    (isSource : source.code.toList = before ++ rest)
    (isBehind : position.Behind before)
    (isLine : source.line? position.line = some line)
    (inside : position.column ≤ line.toList.length) :
    line.toList.take position.column = lastRow before := by
  have isRow := rows_getElem?_count before rest
  rw [← isSource] at isRow
  rw [isBehind.line_eq, Nat.add_comm, SourceUnit.line?, isRow] at isLine
  obtain rfl := Option.some.inj isLine
  obtain ⟨taken, isTaken⟩ := withoutReturn_prefix
    (lastRow before ++ rest.takeWhile (· ≠ '\n'))
  rw [String.toList_ofList] at inside ⊢
  rw [← List.take_append_of_le_length inside, isTaken, isBehind.column_eq,
    List.take_left]

end Scriptlet
