import Scriptlet.Proofs.Grammar.JoinedTexts
import Scriptlet.Proofs.Source.Counting

namespace Scriptlet

/-!
# Scanning line by line

From two texts with a line break between them, the tokens and diagnostics of the two texts
are scanned one after the other, unless the first one leaves an inline comment open.  What
the second text gives stands lower down, by the lines and the bytes that are now in front
of it.
-/

/-- The place of a text that has become that of another one, so many lines and bytes lower
down. -/
def Position.lowered (place : Position) (lines bytes : Nat) : Position :=
  ⟨place.line + lines, place.column, place.index + bytes⟩

/-- The span in another source, so many lines and bytes lower down. -/
def Span.lowered
    (span : Span)
    (source : SourceUnit)
    (lines bytes : Nat) :
    Span :=
  ⟨span.start.lowered lines bytes, span.stop.lowered lines bytes, source⟩

/-- The same token in another source, so many lines and bytes lower down. -/
def Token.lowered
    (token : Token)
    (source : SourceUnit)
    (lines bytes : Nat) :
    Token :=
  { token with span := token.span.lowered source lines bytes }

/-- The same report on another source, so many lines and bytes lower down. -/
def Diagnostic.lowered
    (diagnostic : Diagnostic)
    (source : SourceUnit)
    (lines bytes : Nat) :
    Diagnostic :=
  { diagnostic with span := diagnostic.span.lowered source lines bytes }

/-! ## Counting on from a lower place -/

namespace Position

theorem step_lowered
    (place : Position)
    (lines bytes : Nat)
    (character : Char) :
    (place.lowered lines bytes).step character =
      (place.step character).lowered lines bytes := by
  by_cases isBreak : character = '\n'
  · simp [step, lowered, isBreak, Nat.add_right_comm]
  · simp [step, lowered, isBreak, Nat.add_right_comm]

theorem after_lowered
    (place : Position)
    (lines bytes : Nat)
    (text : List Char) :
    (place.lowered lines bytes).after text =
      (place.after text).lowered lines bytes := by
  induction text generalizing place with
  | nil =>
      rfl
  | cons character rest inductionHypothesis =>
      rw [after_cons, after_cons, step_lowered, inductionHypothesis]

/-- The place at the start of the line behind a text. -/
theorem after_line (text : List Char) :
    (origin.after text).step '\n' =
      origin.lowered (1 + text.count '\n') (byteLength text + 1) := by
  obtain ⟨line_eq, _, index_eq⟩ := Position.Behind.after_origin text
  have isLine : 1 + text.count '\n' + 1 = 1 + (1 + text.count '\n') := by
    omega
  have isIndex : byteLength text + 1 = 0 + (byteLength text + 1) := by
    omega
  rw [step, if_pos rfl, line_eq, index_eq, isLine]
  exact congrArg (Position.mk _ 0) isIndex

end Position

namespace Segment

variable (source other : SourceUnit) (lines bytes : Nat)

theorem tokenStop_lowered
    (start : Position)
    (kind : TokenKind)
    (covered : List Char) :
    tokenStop (start.lowered lines bytes) kind covered =
      (tokenStop start kind covered).lowered lines bytes := by
  unfold tokenStop
  rw [Position.after_lowered]
  split <;> rfl

theorem token?_lowered (start : Position) (segment : Segment) :
    token? other (start.lowered lines bytes, segment) =
      (token? source (start, segment)).map
        (Token.lowered · other lines bytes) := by
  cases segment with
  | token kind lexeme covered =>
      rw [token?, tokenStop_lowered]
      rfl
  | _ => rfl

theorem diagnostic?_lowered (start : Position) (segment : Segment) :
    diagnostic? other (start.lowered lines bytes, segment) =
      (diagnostic? source (start, segment)).map
        (Diagnostic.lowered · other lines bytes) := by
  cases segment with
  | fault cause lead marked trail =>
      rw [diagnostic?, Position.after_lowered, Position.after_lowered]
      rfl
  | _ => rfl

/-- Segments that start lower down all stand lower down. -/
theorem placed_lowered (start : Position) (found : List Segment) :
    placed (start.lowered lines bytes) found =
      (placed start found).map
        (Prod.map (Position.lowered · lines bytes) id) := by
  induction found generalizing start with
  | nil =>
      rfl
  | cons segment later inductionHypothesis =>
      rw [placed, Position.after_lowered, inductionHypothesis]
      rfl

theorem tokens_lowered (start : Position) (found : List Segment) :
    (placed (start.lowered lines bytes) found).filterMap (token? other) =
      ((placed start found).filterMap (token? source)).map
        (Token.lowered · other lines bytes) := by
  rw [placed_lowered, List.filterMap_map, List.map_filterMap]
  apply List.filterMap_congr
  rintro ⟨place, segment⟩ _
  exact token?_lowered source other lines bytes place segment

theorem diagnostics_lowered (start : Position) (found : List Segment) :
    (placed (start.lowered lines bytes) found).filterMap (diagnostic? other) =
      ((placed start found).filterMap (diagnostic? source)).map
        (Diagnostic.lowered · other lines bytes) := by
  rw [placed_lowered, List.filterMap_map, List.map_filterMap]
  apply List.filterMap_congr
  rintro ⟨place, segment⟩ _
  exact diagnostic?_lowered source other lines bytes place segment

end Segment

namespace Segment

theorem exists_mem_placed
    {segment : Segment}
    {found : List Segment}
    (member : segment ∈ found)
    (start : Position) :
    ∃ place, (place, segment) ∈ placed start found := by
  induction found generalizing start with
  | nil => cases member
  | cons first later inductionHypothesis =>
      rcases List.mem_cons.mp member with rfl | isLater
      · exact ⟨start, List.mem_cons_self⟩
      · obtain ⟨place, isPlaced⟩ :=
          inductionHypothesis isLater (start.after first.text)
        exact ⟨place, List.mem_cons_of_mem _ isPlaced⟩

end Segment

namespace SourceUnit

/-- An inline comment that is left open is reported. -/
theorem not_isOpenComment_of_scan
    {source : SourceUnit}
    (closed : ∀ diagnostic ∈ source.scan.diagnostics,
      diagnostic.kind ≠ .unterminatedInlineComment) :
    ∀ segment ∈ segments source.code.toList, segment.isOpenComment = false := by
  intro segment member
  obtain ⟨place, isPlaced⟩ := Segment.exists_mem_placed member .origin
  cases segment with
  | fault cause lead marked trail =>
      have notOpen := closed _ (List.mem_filterMap.mpr ⟨_, isPlaced, rfl⟩)
      cases cause with
      | unterminatedInlineComment => exact absurd rfl notOpen
      | _ => rfl
  | _ => rfl

/-- The line break at the end of a text, as a token of another source that starts with the
text. -/
def lineBreak (source whole : SourceUnit) : Token :=
  let place := source.endPosition
  ⟨.newline, "\n", ⟨place, ⟨place.line, place.column + 1, place.index + 1⟩, whole⟩⟩

/-- The line break stands where the text ends, with one more column taken. -/
theorem token?_lineBreak (source whole : SourceUnit) :
    Segment.token? whole (source.endPosition, .plainToken .newline ['\n']) =
      some (source.lineBreak whole) := by
  have stop : Segment.tokenStop source.endPosition .newline ['\n'] =
      ⟨source.endPosition.line, source.endPosition.column + 1,
        source.endPosition.index + 1⟩ := by
    rw [Segment.tokenStop, if_pos rfl, Position.after_cons, Position.step,
      if_pos rfl]
    rfl
  rw [Segment.plainToken, Segment.token?, stop]
  rfl

section Joined

variable (name first second : String)

/-- Behind the line break, the second text starts in the first column. -/
theorem step_endPosition :
    (SourceUnit.mk name first).endPosition.step '\n' =
      Position.origin.lowered (1 + first.toList.count '\n')
        (byteLength first.toList + 1) :=
  Position.after_line first.toList

theorem code_joined :
    (joined name first second).code.toList =
      first.toList ++ '\n' :: second.toList := by
  simp [joined]

theorem endPosition_joined :
    (joined name first second).endPosition =
      (SourceUnit.mk name second).endPosition.lowered (1 + first.toList.count '\n')
        (byteLength first.toList + 1) := by
  rw [endPosition, code_joined, Position.after_append, Position.after_cons]
  exact (congrArg (Position.after · second.toList)
    (step_endPosition name first)).trans
    (Position.after_lowered .origin _ _ second.toList)

theorem placedSegments_joined
    (closed : ∀ diagnostic ∈ (SourceUnit.mk name first).scan.diagnostics,
      diagnostic.kind ≠ .unterminatedInlineComment) :
    (joined name first second).placedSegments =
      (SourceUnit.mk name first).placedSegments ++
        ((SourceUnit.mk name first).endPosition,
            Segment.plainToken .newline ['\n']) ::
          Segment.placed
            (Position.origin.lowered (1 + first.toList.count '\n')
              (byteLength first.toList + 1))
            (segments second.toList) := by
  rw [placedSegments, code_joined,
    segments_append_line _ _ (not_isOpenComment_of_scan closed),
    Segment.placed_append, flatMap_text_segments, Segment.placed,
    ← step_endPosition name first]
  rfl

end Joined

/-- The scan of two texts with a line break between them: the tokens of the first text
without the mark of its end, the line break, and the tokens of the second text; and the
diagnostics of both.  Those of the second text stand lower by the lines and the bytes of
the first text and of the line break. -/
theorem scan_line_by_line
    {name first second : String}
    (closed : ∀ diagnostic ∈ (SourceUnit.mk name first).scan.diagnostics,
      diagnostic.kind ≠ .unterminatedInlineComment) :
    let front : SourceUnit := ⟨name, first⟩
    let behind : SourceUnit := ⟨name, second⟩
    let whole := joined name first second
    let lines := 1 + first.toList.count '\n'
    let bytes := byteLength first.toList + 1
    whole.scan.tokens =
        front.scan.tokens.dropLast.map (Token.lowered · whole 0 0) ++
          front.lineBreak whole ::
            behind.scan.tokens.map (Token.lowered · whole lines bytes) ∧
      whole.scan.diagnostics =
        front.scan.diagnostics.map (Diagnostic.lowered · whole 0 0) ++
          behind.scan.diagnostics.map
            (Diagnostic.lowered · whole lines bytes) := by
  intro front behind whole lines bytes
  have placed := placedSegments_joined name first second closed
  constructor
  · have frontTokens := Segment.tokens_lowered front whole 0 0 .origin
      (segments first.toList)
    have behindTokens := Segment.tokens_lowered behind whole lines bytes .origin
      (segments second.toList)
    have noEnd : front.scan.tokens.dropLast =
        front.placedSegments.filterMap (Segment.token? front) :=
      List.dropLast_concat
    rw [noEnd, scan, placed, List.filterMap_append,
      List.filterMap_cons_some (front.token?_lineBreak whole), behindTokens,
      endPosition_joined, scan, List.map_append, List.append_assoc]
    exact congrArg (· ++ _) frontTokens
  · have frontDiagnostics := Segment.diagnostics_lowered front whole 0 0 .origin
      (segments first.toList)
    have behindDiagnostics := Segment.diagnostics_lowered behind whole lines bytes
      .origin (segments second.toList)
    have noFault : Segment.diagnostic? whole
        (front.endPosition, .plainToken .newline ['\n']) = none :=
      rfl
    show whole.placedSegments.filterMap (Segment.diagnostic? whole) = _
    rw [placed, List.filterMap_append, List.filterMap_cons_none noFault,
      behindDiagnostics]
    exact congrArg (· ++ _) frontDiagnostics

/-- An illegal character in front of a line break, and a string that is never closed behind
it. -/
theorem scan_line_by_line_faults :
    let front : SourceUnit := ⟨"main", "é 1.\n?"⟩
    let behind : SourceUnit := ⟨"main", "x 'y"⟩
    let whole := joined "main" "é 1.\n?" "x 'y"
    (∀ diagnostic ∈ front.scan.diagnostics,
        diagnostic.kind ≠ .unterminatedInlineComment) ∧
      whole.scan.tokens =
        front.scan.tokens.dropLast.map (Token.lowered · whole 0 0) ++
          front.lineBreak whole ::
            behind.scan.tokens.map (Token.lowered · whole 2 8) ∧
      whole.scan.diagnostics =
        front.scan.diagnostics.map (Diagnostic.lowered · whole 0 0) ++
          behind.scan.diagnostics.map (Diagnostic.lowered · whole 2 8) := by
  intro front behind whole
  have closed : ∀ diagnostic ∈ front.scan.diagnostics,
      diagnostic.kind ≠ .unterminatedInlineComment := by
    have kinds : front.scan.diagnostics.map Diagnostic.kind =
        [.illegalCharacter, .trailingDot, .illegalCharacter] := by
      decide +kernel
    intro diagnostic member isOpen
    have isKind := List.mem_map_of_mem (f := Diagnostic.kind) member
    rw [kinds, isOpen] at isKind
    simp at isKind
  obtain ⟨tokens, diagnostics⟩ := scan_line_by_line closed
  have isLines : 1 + "é 1.\n?".toList.count '\n' = 2 := by decide
  have isBytes : byteLength "é 1.\n?".toList + 1 = 8 := by decide
  rw [isLines, isBytes] at tokens diagnostics
  exact ⟨closed, tokens, diagnostics⟩

end SourceUnit

end Scriptlet
