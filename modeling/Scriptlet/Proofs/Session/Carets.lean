import Scriptlet.Proofs.Grammar.Extents
import Scriptlet.Proofs.Grammar.FirstFault
import Scriptlet.Proofs.Session.Stacks

namespace Scriptlet

/-!
# Carets stand under what a report is about

The span of every report is counted right: it is a stretch of its text, or a line break
alone.  Therefore the last two lines of a rendered report are the source line that the span
starts on and carets under the characters of the span.
-/

/-! ## Spans and what is shown of them -/

/-- That a span covers a line break alone.  It ends one column behind its start, on the line
that it closes. -/
def Span.IsLineBreak (span : Span) : Prop :=
  ∃ before rest,
    span.source.code.toList = before ++ '\n' :: rest ∧
    span.start.Behind before ∧
    span.stop = ⟨span.start.line, span.start.column + 1, span.start.index + 1⟩

/-- That a span is counted right: its line has the first character of the span, unless this
is a line break, at the column of the span. -/
structure Span.Counted (span : Span) : Prop where
  starts : ∃ rest line, span.source.Exact span.start rest ∧
    span.source.line? span.start.line = some line ∧
    ∀ character, rest.head? = some character → character ≠ '\n' →
      line.toList[span.start.column]? = some character
  covers : span.IsStretch ∨ span.IsLineBreak

/-- What stands in front of a source line that is shown. -/
def Span.lineLabel (span : Span) : List Char :=
  (toString span.start.line ++ " | ").toList

/-- That a line of carets, as it is shown under the line that a span starts on, points at
the span. -/
structure Span.Underlined (span : Span) (line marks : List Char) (carets : Nat) :
    Prop where
  /-- The line is the one that the span starts on. -/
  line_eq : span.source.line? span.start.line = some (String.ofList line)
  /-- Blanks stand under the label and under the line up to the span, with the tabs of the
  line among them, and then there are only carets. -/
  marks_eq : marks =
    List.replicate span.lineLabel.length ' ' ++
      (line.take (min span.start.column line.length)).map
        (fun character => if character = '\t' then '\t' else ' ') ++
      List.replicate carets '^'
  /-- Within a line there is a caret for each character of the span. -/
  oneLine : span.stop.line = span.start.line → carets = max 1 span.text.length
  /-- A span that goes on to later lines is marked up to the end of its first line. -/
  severalLines : span.stop.line ≠ span.start.line →
    carets = max 1 (line.length - span.start.column)
  /-- The first caret stands under the character at the first byte of the span, unless
  this is a line break, which no line shows.  It is as far behind the label as the column
  of the span says, and so much of the line stands before that byte. -/
  under : ∀ character rest,
    dropBytes? span.start.index span.source.code.toList = some (character :: rest) →
    character ≠ '\n' →
    let place := span.lineLabel.length + span.start.column
    (∃ before, takeBytes? span.start.index span.source.code.toList = some before ∧
        (span.lineLabel ++ line).take place = span.lineLabel ++ lastRow before) ∧
      (span.lineLabel ++ line)[place]? = some character ∧
      marks[place]? = some '^' ∧
      '^' ∉ marks.take place

/-! ## Renderings -/

theorem Span.break_notMem_lineLabel (span : Span) :
    '\n' ∉ span.lineLabel := by
  rw [lineLabel, String.toList_append, List.mem_append, not_or]
  refine ⟨?_, by decide⟩
  intro isInside
  have isDigit : '\n'.isDigit = true := by
    apply Nat.isDigit_of_mem_toDigits (b := 10) (by decide) (by decide)
    simpa using isInside
  cases isDigit

namespace Diagnostic

variable {diagnostic : Diagnostic} {line : String}

/-- What stands under a source line in front of the carets. -/
theorem padding_eq (line : List Char) (column : Nat) :
    padding line column =
      (line.take (min column line.length)).map fun character =>
        if character = '\t' then '\t' else ' ' := by
  rw [padding, List.take_eq_take_min]

theorem toList_caretLine
    (isLine : diagnostic.span.source.line? diagnostic.span.start.line = some line) :
    diagnostic.caretLine.toList =
      List.replicate diagnostic.span.lineLabel.length ' ' ++
        padding line.toList diagnostic.span.start.column ++
        List.replicate diagnostic.caretCount '^' := by
  have isShown : diagnostic.shownLine = line.toList := by
    rw [shownLine, isLine, Option.getD_some]
  rw [caretLine, String.toList_ofList, isShown]
  rfl

/-- In front of the carets there are only blanks and tabs. -/
theorem blank_of_mem_padding
    {count column : Nat}
    {line : List Char}
    {character : Char}
    (isInside : character ∈ List.replicate count ' ' ++ padding line column) :
    character = ' ' ∨ character = '\t' := by
  rcases List.mem_append.mp isInside with isInFront | isPadding
  · exact .inl (List.eq_of_mem_replicate isInFront)
  · obtain ⟨above, _, rfl⟩ := List.mem_map.mp isPadding
    split
    · exact .inr rfl
    · exact .inl rfl

theorem break_notMem_caretLine
    (isLine : diagnostic.span.source.line? diagnostic.span.start.line = some line) :
    '\n' ∉ diagnostic.caretLine.toList := by
  rw [toList_caretLine isLine, List.mem_append, not_or]
  exact ⟨fun isInside => absurd (blank_of_mem_padding isInside) (by decide),
    fun isCaret => absurd (List.eq_of_mem_replicate isCaret) (by decide)⟩

/-- The first caret stands as far behind the label as the span starts on its line. -/
theorem first_caret
    (isLine : diagnostic.span.source.line? diagnostic.span.start.line = some line)
    (inside : diagnostic.span.start.column ≤ line.toList.length) :
    let place := diagnostic.span.lineLabel.length + diagnostic.span.start.column
    diagnostic.caretLine.toList[place]? = some '^' ∧
      '^' ∉ diagnostic.caretLine.toList.take place := by
  intro place
  have isLength : (List.replicate diagnostic.span.lineLabel.length ' ' ++
      padding line.toList diagnostic.span.start.column).length = place := by
    rw [List.length_append, List.length_replicate, padding, List.length_map,
      List.length_take_of_le inside]
  have someCaret : 0 < diagnostic.caretCount := Nat.le_max_left _ _
  rw [toList_caretLine isLine]
  constructor
  · rw [List.getElem?_append_right (Nat.le_of_eq isLength), isLength, Nat.sub_self,
      List.getElem?_replicate, if_pos someCaret]
  · rw [List.take_append_of_le_length (Nat.le_of_eq isLength.symm),
      List.take_of_length_le (Nat.le_of_eq isLength)]
    exact fun isInside => absurd (blank_of_mem_padding isInside) (by decide)

/-- The last two lines of a rendering. -/
theorem rows_render
    (isLine : diagnostic.span.source.line? diagnostic.span.start.line = some line)
    (colors : Bool) :
    ∃ heading,
      rows (diagnostic.render colors).toList =
        heading ++ [diagnostic.span.lineLabel ++ line.toList,
          diagnostic.caretLine.toList] := by
  have isShown : diagnostic.gutter ++ String.ofList diagnostic.shownLine =
      String.ofList (diagnostic.span.lineLabel ++ line.toList) := by
    rw [shownLine, isLine, Option.getD_some, String.ofList_append, Span.lineLabel,
      String.ofList_toList, String.ofList_toList, gutter]
  have noBreak : '\n' ∉ diagnostic.span.lineLabel ++ line.toList := by
    rw [List.mem_append, not_or]
    exact ⟨diagnostic.span.break_notMem_lineLabel, break_notMem_of_line? isLine⟩
  rw [render, renderLines, isShown, String.intercalate_append_of_ne_nil (by simp) (by simp),
    String.intercalate_cons_cons, String.intercalate_singleton]
  generalize String.intercalate _ _ = front
  refine ⟨rows front.toList, ?_⟩
  have isText : (front ++ "\n" ++ (String.ofList (diagnostic.span.lineLabel ++ line.toList) ++
      "\n" ++ diagnostic.caretLine)).toList =
      front.toList ++ '\n' :: ((diagnostic.span.lineLabel ++ line.toList) ++
        '\n' :: diagnostic.caretLine.toList) := by
    simp
  rw [isText, rows_append_break, rows_append_break, rows_of_notMem noBreak,
    rows_of_notMem (break_notMem_caretLine isLine)]
  rfl

end Diagnostic

namespace Span.Counted

variable {diagnostic : Diagnostic} {line : String}

/-- Within a line the columns of a span are its characters. -/
theorem caretCount_eq
    (counted : diagnostic.span.Counted)
    (sameLine : diagnostic.span.stop.line = diagnostic.span.start.line) :
    diagnostic.caretCount = max 1 diagnostic.span.text.length := by
  have isCount : diagnostic.caretCount =
      max 1 (diagnostic.span.stop.column - diagnostic.span.start.column) := by
    rw [Diagnostic.caretCount]
    simp only [if_pos sameLine]
  rw [isCount]
  rcases counted.covers with ⟨before, inside, rest, _, startsBehind, stopsBehind, isText⟩ |
    ⟨before, rest, isSource, startsBehind, isStop⟩
  · rw [startsBehind.column_sub stopsBehind sameLine, isText, String.length_ofList]
  · have isText : diagnostic.span.text = String.ofList ['\n'] := by
      apply Span.text_eq isSource startsBehind.index_eq
      rw [isStop, startsBehind.index_eq]
      rfl
    rw [isText, isStop, Nat.add_sub_cancel_left]
    rfl

/-- A rendering underlines a span that is counted right. -/
theorem underlined
    (counted : diagnostic.span.Counted) :
    ∃ line,
      diagnostic.span.Underlined line diagnostic.caretLine.toList diagnostic.caretCount ∧
      ∀ colors, ∃ heading,
        rows (diagnostic.render colors).toList =
          heading ++ [diagnostic.span.lineLabel ++ line, diagnostic.caretLine.toList] := by
  obtain ⟨rest, line, ⟨before, isSource, startsBehind⟩, isLine, isShown⟩ :=
    counted.starts
  refine ⟨line.toList, ?_, Diagnostic.rows_render isLine⟩
  constructor
  · rw [isLine, String.ofList_toList]
  · rw [Diagnostic.toList_caretLine isLine, Diagnostic.padding_eq]
  · exact counted.caretCount_eq
  · intro severalLines
    rw [Diagnostic.caretCount, Diagnostic.shownLine, isLine]
    simp only [if_neg severalLines, Option.getD_some]
  · intro character later isFound notBreak
    rw [isSource, startsBehind.index_eq, dropBytes?_append] at isFound
    cases isFound
    have isAt := isShown character rfl notBreak
    have inside : diagnostic.span.start.column < line.toList.length :=
      (List.getElem?_eq_some_iff.mp isAt).1
    obtain ⟨isCaret, isFirst⟩ := Diagnostic.first_caret isLine (Nat.le_of_lt inside)
    refine ⟨⟨before, ?_, ?_⟩, ?_, isCaret, isFirst⟩
    · rw [isSource, startsBehind.index_eq, takeBytes?_append]
    · rw [List.take_length_add_append,
        SourceUnit.take_line isSource startsBehind isLine (Nat.le_of_lt inside)]
    · rw [List.getElem?_append_right (Nat.le_add_right _ _), Nat.add_sub_cancel_left, isAt]

end Span.Counted

/-! ## Reports -/

/-- A span that is shown right and ends at an exact place. -/
theorem Span.Shown.counted
    {source : SourceUnit}
    {span : Span}
    {rest : List Char}
    (shown : span.Shown source)
    (stopsExact : source.Exact span.stop rest) :
    span.Counted := by
  obtain ⟨_, _, startsExact, _⟩ := shown.starts
  have starts := shown.starts
  rw [← shown.source_eq] at starts
  exact ⟨starts, .inl (Span.isStretch_of_exact shown.source_eq startsExact stopsExact
    shown.forwards)⟩

/-- A token of a scan is a stretch of its text or a line break. -/
theorem Token.Placed.counted
    {source : SourceUnit}
    {token : Token}
    (placed : token.Placed source) :
    token.span.Counted := by
  by_cases isBreak : token.kind = .newline
  · have isSource : token.span.source = source := placed.shown.source_eq
    have starts := placed.shown.starts
    obtain ⟨⟨rest, before, isBefore, startsBehind⟩, isStop⟩ := placed.breaks isBreak
    rw [← isSource] at starts isBefore
    exact ⟨starts, .inr ⟨before, rest, isBefore, startsBehind, isStop⟩⟩
  · obtain ⟨_, stopsExact⟩ := placed.stops isBreak
    exact placed.shown.counted stopsExact

theorem Diagnostic.Placed.counted
    {source : SourceUnit}
    {diagnostic : Diagnostic}
    (placed : diagnostic.Placed source) :
    diagnostic.span.Counted := by
  obtain ⟨_, stopsExact⟩ := placed.stops
  exact placed.shown.counted stopsExact

/-- The span of a run of words is counted right. -/
theorem Span.Encloses.counted
    {source : SourceUnit}
    {span : Span}
    {used : List Token}
    (encloses : span.Encloses used)
    (isUsed : used <:+: withoutBreaks source.bodyTokens) :
    span.Counted := by
  have isStretch := encloses.isStretch isUsed
  obtain ⟨first, _, rfl, firstPlaced, _⟩ := encloses.exists_words isUsed
  exact ⟨firstPlaced.counted.starts, .inl isStretch⟩

/-- The spans of the phrases of a program are counted right. -/
theorem Occurs.counted
    {source : SourceUnit}
    {program : List Statement}
    {frames : List Frame}
    {phrase : Phrase}
    (occurs : Occurs program frames phrase)
    (reads : source.ReadAs program) :
    phrase.span.Counted := by
  obtain ⟨part, isPart, phraseMade⟩ := occurs.exists_madeOf reads.madeOf
  exact phraseMade.encloses.counted isPart

/-- A syntax fault is reported at a token of the scan. -/
theorem SourceUnit.exists_token_of_parse
    {source : SourceUnit}
    {diagnostic : Diagnostic}
    (refused : parse source.scan.tokens = .error diagnostic) :
    ∃ token ∈ source.scan.tokens, diagnostic.span = token.span := by
  obtain ⟨fault, token, isRefused, rfl⟩ := Parsed.of_result_eq_error refused
  have isStop := (TokenStream.ofTokens source.scan.tokens).isStop
  obtain ⟨used, rest, isBody, isToken, _⟩ :=
    (Parser.statementsPrompt isStop _).statements .outermost _ fault token isRefused
  obtain ⟨later, isMarked⟩ := TokenStream.marked_eq_append isBody isToken
  have alreadyMarked : TokenStream.marked source.scan.tokens = source.scan.tokens := by
    apply if_pos
    rw [scan, List.getLast?_concat]
    rfl
  rw [alreadyMarked] at isMarked
  exact ⟨token, isMarked ▸ List.mem_append_right _ List.mem_cons_self, rfl⟩

/-! ## Sessions of a host -/

/-- The phrases of all programs that source units are read as. -/
def Nesting.ofPrograms : Nesting where
  Holds _ phrase :=
    ∃ source program inner, SourceUnit.ReadAs source program ∧
      Occurs program inner phrase
  holds_part := by
    rintro _ phrase part ⟨source, program, inner, reads, occurs⟩ isPart
    exact ⟨source, program, inner, reads, .part occurs isPart⟩
  holds_inBlock := by
    rintro _ body span statement ⟨source, program, inner, reads, occurs⟩ isInside
    exact ⟨source, program, _, reads, .inBlock occurs isInside⟩
  holds_inFunction := by
    rintro _ name parameters body span statement ⟨source, program, inner, reads, occurs⟩
      isInside
    exact ⟨source, program, _, reads, .inFunction occurs isInside⟩

theorem Nesting.Reports.counted
    {diagnostic : Diagnostic}
    (reports : Nesting.ofPrograms.Reports diagnostic) :
    diagnostic.span.Counted := by
  cases reports with
  | expression holds isReport
  | declaration holds isReport
  | function holds isReport
  | parameter holds _ isReport =>
      obtain ⟨_, _, _, reads, occurs⟩ := holds
      rw [isReport]
      exact occurs.counted reads

namespace Store

/-- Whether a host can have a value at hand: a plain one, or a function that a scope binds.
All functions that a run gives are bound in the scope that they were declared in. -/
def Offers (store : Store) (value : Value) : Prop :=
  value.payload.isPlain = true ∨
    ∃ id name binding, store.binding? id name = some binding ∧
      binding.value.payload = value.payload

/-- The stores that a host comes to when it opens scopes, binds values in them and runs
source units in them, in any order.  All functions come from source units. -/
inductive Hosted : Store → Prop where
  | start :
      Hosted .empty
  | openScope
      (hosted : Hosted store)
      (isKnown : ∀ id, parent = some id → id < store.nextId) :
      Hosted (store.openScope frame parent)
  | declare
      (hosted : Hosted store)
      (isOffered : store.Offers value)
      (isDeclared : store.declare scope constant name value span = .ok later) :
      Hosted later
  | set
      (hosted : Hosted store)
      (isOffered : store.Offers value)
      (isSet : store.set scope name value span = .ok later) :
      Hosted later
  | run
      (hosted : Hosted store)
      (isKnown : scope < store.nextId)
      (isRun : store.run? steps scope source = some execution) :
      Hosted execution.store

variable {store : Store} {scope : ScopeId} {source : SourceUnit} {steps : Nat}
  {execution : Execution}

theorem Offers.placed
    {nesting : Nesting}
    {value : Value}
    (isOffered : store.Offers value)
    (placed : store.Placed nesting) :
    value.PlacedIn nesting store := by
  rcases isOffered with isPlain | ⟨id, name, binding, isBound, isPayload⟩
  · exact Value.placedIn_of_isPlain isPlain nesting store
  · obtain ⟨holder, isScope, isFound⟩ := Option.bind_eq_some_iff.mp isBound
    obtain ⟨backed, nested⟩ :=
      placed.value_placed isScope (List.mem_of_find?_eq_some isFound)
    unfold Value.BackedBy Value.NestedIn at *
    rw [isPayload] at backed nested
    exact ⟨backed, nested⟩

/-- What a source unit leaves behind in any scope, and what it reports. -/
theorem counted_of_run?
    (placed : store.Placed .ofPrograms)
    (isKnown : scope < store.nextId)
    (isRun : store.run? steps scope source = some execution) :
    execution.store.Placed .ofPrograms ∧
      ∀ diagnostic ∈ execution.diagnostics, diagnostic.span.Counted := by
  simp only [run?] at isRun
  split at isRun
  case isTrue scanned =>
    split at isRun
    case h_1 program accepted =>
      have reads : source.ReadAs program := ⟨List.isEmpty_iff.mp scanned, accepted⟩
      have holds : ∀ statement ∈ program,
          Nesting.ofPrograms.Holds (store.frames scope) (.statement statement) :=
        fun statement isStatement => ⟨source, program, [], reads, .top isStatement⟩
      obtain ⟨_, laterPlaced, report⟩ :=
        upheld_of_runProgram? placed ⟨isKnown, rfl⟩ holds isRun
      exact ⟨laterPlaced, fun diagnostic isReport => (report diagnostic isReport).counted⟩
    case h_2 diagnostic refused =>
      cases isRun
      obtain ⟨token, isToken, isSpan⟩ := SourceUnit.exists_token_of_parse refused
      refine ⟨placed, List.forall_mem_singleton.mpr ?_⟩
      rw [isSpan]
      exact (Token.placed_of_mem_scan isToken).counted
  case isFalse =>
    cases isRun
    exact ⟨placed, fun diagnostic isFault =>
      (Diagnostic.placed_of_mem_scan isFault).counted⟩

/-- The stores of a host keep functions in the places that they have in their programs. -/
theorem Hosted.placed (hosted : Hosted store) :
    store.Placed .ofPrograms := by
  induction hosted with
  | start =>
      refine ⟨.empty, ?_⟩
      intro _ _ _ isScope
      cases isScope
  | openScope _ isKnown placed => exact placed.openScope isKnown _
  | @declare store value scope constant name span later _ isOffered isDeclared placed =>
      have isPlaced := isOffered.placed placed
      unfold Store.declare at isDeclared
      split at isDeclared
      case h_1 isFree =>
        cases isDeclared
        have isNew := binding?_of_checkDeclare isFree
        exact placed.bindIn isNew isPlaced.nested (isPlaced.backed.evolves (.bindIn isNew))
      case h_2 => cases isDeclared
  | @set store value scope name span later _ isOffered isSet placed =>
      have isPlaced := isOffered.placed placed
      unfold Store.set at isSet
      split at isSet
      case h_1 owner isAssignee =>
        cases isSet
        exact placed.assignIn (constant_of_assignee isAssignee) isPlaced
      case h_2 => cases isSet
  | run _ isKnown isRun placed => exact (counted_of_run? placed isKnown isRun).1

/-- Whatever source unit is run, in whatever scope and after whatever else, every report of
the run is shown with carets under its span.  The last line but one of its rendering is the
source line that the span starts on, behind its number and a bar, and the last line
underlines the span.  This holds for reports of the scan, of the reading and of the run,
those of functions of earlier source units among them. -/
theorem run?_underlined
    (hosted : Hosted store)
    (isKnown : scope < store.nextId)
    (isRun : store.run? steps scope source = some execution) :
    ∀ diagnostic ∈ execution.diagnostics, ∃ line marks carets,
      diagnostic.span.Underlined line marks carets ∧
      ∀ colors, ∃ heading,
        rows (diagnostic.render colors).toList =
          heading ++ [diagnostic.span.lineLabel ++ line, marks] := by
  intro diagnostic isReport
  have counted := (counted_of_run? hosted.placed isKnown isRun).2 diagnostic isReport
  obtain ⟨line, underlined, rendered⟩ := counted.underlined
  exact ⟨line, _, _, underlined, rendered⟩

/-- A call fails in a function of an earlier source unit.  The carets stand under the
division there, behind a tab and a comment with a character of two bytes. -/
theorem run?_underlined_call :
    ∃ store execution diagnostic line marks carets,
      Hosted store ∧
      store.run? 9 0 ⟨"second", "f(1)"⟩ = some execution ∧
      diagnostic ∈ execution.diagnostics ∧
      diagnostic.caretLine = "    \t        ^^^^^" ∧
      diagnostic.span.Underlined line marks carets ∧
      ∀ colors, ∃ heading,
        rows (diagnostic.render colors).toList =
          heading ++ [diagnostic.span.lineLabel ++ line, marks] := by
  have areMarks :
      (((Store.empty.openFile "main").run? 9 0
          ⟨"first", "function f(n) \x7b\n\t#/ é /# n / 0\n\x7d"⟩).bind
        fun first => (first.store.run? 9 0 ⟨"second", "f(1)"⟩).map fun second =>
          second.diagnostics.map Diagnostic.caretLine) =
        some ["    \t        ^^^^^"] := by
    decide +kernel
  obtain ⟨first, isFirst, isSecond⟩ := Option.bind_eq_some_iff.mp areMarks
  obtain ⟨execution, isRun, areMarks⟩ := Option.map_eq_some_iff.mp isSecond
  obtain ⟨diagnostic, areDiagnostics, isMarks⟩ := List.map_eq_singleton_iff.mp areMarks
  have isReported : diagnostic ∈ execution.diagnostics := by
    rw [areDiagnostics]
    exact List.mem_singleton_self diagnostic
  have opened : Hosted (Store.empty.openFile "main") := .openScope .start nofun
  have hosted := opened.run Nat.zero_lt_one isFirst
  obtain ⟨_, _, leadsTo⟩ := points_evolve opened.placed.wellFormed Nat.zero_lt_one 9
    ⟨"first", "function f(n) \x7b\n\t#/ é /# n / 0\n\x7d"⟩
  have evolves := (leadsTo first isFirst).2 _ List.mem_cons_self
  have isKnown : 0 < first.store.nextId := evolves.lt_nextId Nat.zero_lt_one
  obtain ⟨line, marks, carets, underlined⟩ :=
    run?_underlined hosted isKnown isRun diagnostic isReported
  exact ⟨first.store, execution, diagnostic, line, marks, carets, hosted, isRun, isReported,
    isMarks, underlined⟩

end Store

end Scriptlet
