import Scriptlet.Proofs.Token.Covering

namespace Scriptlet

/-!
# The places of tokens and diagnostics

All spans of a scan are counted right: their ends are places between characters of the
text, with the line, the column and the byte that the text before them tells.  Only a
line break ends on the line that it closes.  Also, the line that a span is shown on
exists, and has the first character of the span at the column of the span.
-/

/-- That a place is counted right in a source, and what stands behind the place. -/
def SourceUnit.Exact
    (source : SourceUnit)
    (position : Position)
    (rest : List Char) :
    Prop :=
  ∃ before, source.code.toList = before ++ rest ∧ position.Behind before

/-- That a span of a source starts at an exact place and ends at a byte between two
characters, but not before it starts.  Its line can be shown, and has the first
character of the span, unless this is a line break, at the column of the span. -/
structure Span.Shown (source : SourceUnit) (span : Span) : Prop where
  source_eq : span.source = source
  forwards : span.stop.precedes span.start = false
  boundary : ∃ before rest, source.code.toList = before ++ rest ∧
    span.stop.index = byteLength before
  starts : ∃ rest line, source.Exact span.start rest ∧
    source.line? span.start.line = some line ∧
    ∀ character, rest.head? = some character → character ≠ '\n' →
      line.toList[span.start.column]? = some character

/-- That a token of a source is shown where it stands.  It ends at an exact place, or
it is a line break and ends one column behind its start. -/
structure Token.Placed (source : SourceUnit) (token : Token) : Prop where
  shown : token.span.Shown source
  stops : token.kind ≠ .newline → ∃ rest, source.Exact token.span.stop rest
  breaks : token.kind = .newline →
    (∃ rest, source.Exact token.span.start ('\n' :: rest)) ∧
      token.span.stop =
        ⟨token.span.start.line, token.span.start.column + 1,
          token.span.start.index + 1⟩

/-- That a diagnostic of a source is shown where it stands, and ends at an exact
place. -/
structure Diagnostic.Placed (source : SourceUnit) (diagnostic : Diagnostic) :
    Prop where
  shown : diagnostic.span.Shown source
  stops : ∃ rest, source.Exact diagnostic.span.stop rest

namespace SourceUnit

theorem Exact.after
    {source : SourceUnit}
    {position : Position}
    {text rest : List Char}
    (isExact : source.Exact position (text ++ rest)) :
    source.Exact (position.after text) rest := by
  obtain ⟨before, isSource, isBehind⟩ := isExact
  rw [← List.append_assoc] at isSource
  exact ⟨before ++ text, isSource, isBehind.after text⟩

theorem exact_origin (source : SourceUnit) :
    source.Exact .origin source.code.toList :=
  ⟨[], rfl, .origin⟩

theorem exact_endPosition (source : SourceUnit) :
    source.Exact source.endPosition [] :=
  ⟨source.code.toList, (List.append_nil _).symm, .after_origin _⟩

end SourceUnit

/-- A span from an exact place to one that has the byte of an exact place.  A carriage
return in front could be missing from the line that is shown. -/
theorem Span.shown_of_exact
    {source : SourceUnit}
    {start stop : Position}
    {text rest : List Char}
    (isExact : source.Exact start (text ++ rest))
    (notReturn : (text ++ rest).head? ≠ some '\r')
    (forwards : stop.precedes start = false)
    (isStop : stop.index = (start.after text).index) :
    (Span.mk start stop source).Shown source := by
  obtain ⟨reached, isReached, isBehindReached⟩ := isExact.after
  obtain ⟨before, isSource, isBehind⟩ := isExact
  obtain ⟨line, isLine, isShown⟩ := source.line?_of_behind isSource isBehind
  refine ⟨rfl, forwards, ⟨reached, rest, isReached, ?_⟩,
    ⟨text ++ rest, line, ⟨before, isSource, isBehind⟩, isLine, ?_⟩⟩
  · exact isStop.trans isBehindReached.index_eq
  · intro character isNext notBreak
    apply isShown character isNext notBreak
    rintro rfl
    exact notReturn isNext

namespace Segment

theorem ne_return_of_notBlank
    {covered : List Char}
    (starts : ∃ first later, covered = first :: later ∧ isBlank first = false)
    (rest : List Char) :
    (covered ++ rest).head? ≠ some '\r' := by
  obtain ⟨first, later, rfl, notBlank⟩ := starts
  rintro ⟨⟩
  cases notBlank

/-- Segments stand at exact places, and are what they are taken for. -/
theorem exact_of_mem_placed
    {source : SourceUnit}
    {text : List Char}
    {start place : Position}
    {segment : Segment}
    (isExact : source.Exact start text)
    (member : (place, segment) ∈ placed start (segments text)) :
    ∃ rest, source.Exact place (segment.text ++ rest) ∧ segment.Fits rest := by
  fun_induction segments text generalizing start with
  | case1 =>
      cases member
  | case2 first rest inductionHypothesis =>
      rw [← cut_append first rest] at isExact
      rcases List.mem_cons.mp member with isFirst | isLater
      · cases isFirst
        exact ⟨_, isExact, fits_cut first rest⟩
      · exact inductionHypothesis isExact.after isLater

/-- A token stands where its segment is cut off. -/
theorem placed_token
    {source : SourceUnit}
    {kind : TokenKind}
    {lexeme covered rest : List Char}
    {place : Position}
    (isExact : source.Exact place (covered ++ rest))
    (spelling : Spelling kind lexeme covered) :
    Token.Placed source
      ⟨kind, String.ofList lexeme,
        ⟨place, tokenStop place kind covered, source⟩⟩ := by
  have notReturn := ne_return_of_notBlank spelling.starts rest
  by_cases isBreak : kind = .newline
  · obtain rfl := spelling.isBreak isBreak
    have isStop : tokenStop place kind ['\n'] =
        ⟨place.line, place.column + 1, place.index + 1⟩ :=
      if_pos isBreak
    rw [isStop]
    refine ⟨Span.shown_of_exact isExact notReturn ?_ rfl,
      fun notBreak => (notBreak isBreak).elim, fun _ => ⟨⟨rest, isExact⟩, rfl⟩⟩
    simp [Position.precedes]
  · have isStop : tokenStop place kind covered = place.after covered :=
      if_neg isBreak
    rw [isStop]
    exact ⟨Span.shown_of_exact isExact notReturn
        (place.not_after_precedes covered) rfl,
      fun _ => ⟨rest, isExact.after⟩, fun isBreak' => (isBreak isBreak').elim⟩

/-- A diagnostic stands at the marked characters of its segment. -/
theorem placed_diagnostic
    {source : SourceUnit}
    {fault : LexicalFault}
    {lead marked trail rest : List Char}
    {place : Position}
    (isExact : source.Exact place (lead ++ (marked ++ trail) ++ rest))
    (takes : fault.Takes lead marked trail rest) :
    Diagnostic.Placed source
      (fault.locate
        ⟨place.after lead, (place.after lead).after marked, source⟩) := by
  have atMarked : source.Exact (place.after lead) (marked ++ (trail ++ rest)) := by
    rw [List.append_assoc, List.append_assoc] at isExact
    exact isExact.after
  have notReturn := ne_return_of_notBlank takes.marked_eq (trail ++ rest)
  exact ⟨Span.shown_of_exact atMarked notReturn
      ((place.after lead).not_after_precedes marked) rfl,
    _, atMarked.after⟩

end Segment

/-- Every token of a scan is shown where it stands. -/
theorem Token.placed_of_mem_scan
    {source : SourceUnit}
    {token : Token}
    (member : token ∈ source.scan.tokens) :
    token.Placed source := by
  rcases List.mem_append.mp member with isInside | isLast
  · obtain ⟨⟨place, segment⟩, isPlaced, isToken⟩ :=
      List.mem_filterMap.mp isInside
    obtain ⟨rest, isExact, fits⟩ :=
      Segment.exact_of_mem_placed source.exact_origin isPlaced
    cases segment with
    | token kind lexeme covered =>
        cases isToken
        exact Segment.placed_token isExact fits
    | _ => cases isToken
  · rw [List.mem_singleton] at isLast
    subst isLast
    have isExact : source.Exact source.endPosition ([] ++ []) :=
      source.exact_endPosition
    exact ⟨Span.shown_of_exact isExact nofun
        (source.endPosition.not_after_precedes []) rfl,
      fun _ => ⟨[], isExact⟩, nofun⟩

/-- Every diagnostic of a scan is shown where it stands. -/
theorem Diagnostic.placed_of_mem_scan
    {source : SourceUnit}
    {diagnostic : Diagnostic}
    (member : diagnostic ∈ source.scan.diagnostics) :
    diagnostic.Placed source := by
  obtain ⟨⟨place, segment⟩, isPlaced, isDiagnostic⟩ :=
    List.mem_filterMap.mp member
  obtain ⟨rest, isExact, fits⟩ :=
    Segment.exact_of_mem_placed source.exact_origin isPlaced
  cases segment with
  | fault cause lead marked trail =>
      cases isDiagnostic
      exact Segment.placed_diagnostic isExact fits
  | _ => cases isDiagnostic

/-- All tokens and diagnostics of a scan are shown where they stand, with places that
are counted right. -/
theorem scan_placed (source : SourceUnit) :
    (∀ token ∈ source.scan.tokens, token.Placed source) ∧
      ∀ diagnostic ∈ source.scan.diagnostics, diagnostic.Placed source :=
  ⟨fun _ => Token.placed_of_mem_scan, fun _ => Diagnostic.placed_of_mem_scan⟩

/-! ## The order of diagnostics -/

namespace Segment

/-- A diagnostic among segments starts at or behind the place where they start. -/
theorem exists_after_of_diagnostic
    {source : SourceUnit}
    {start : Position}
    {found : List Segment}
    {diagnostic : Diagnostic}
    (member : diagnostic ∈ (placed start found).filterMap (diagnostic? source)) :
    ∃ text, diagnostic.span.start = start.after text := by
  induction found generalizing start with
  | nil => cases member
  | cons segment later inductionHypothesis =>
      rw [placed, List.mem_filterMap] at member
      obtain ⟨⟨place, item⟩, isPlaced, isDiagnostic⟩ := member
      rcases List.mem_cons.mp isPlaced with isFirst | isLater
      · cases isFirst
        cases segment with
        | fault cause lead marked trail =>
            cases isDiagnostic
            exact ⟨lead, rfl⟩
        | _ => cases isDiagnostic
      · obtain ⟨text, isAfter⟩ :=
          inductionHypothesis (List.mem_filterMap.mpr ⟨_, isLater, isDiagnostic⟩)
        exact ⟨segment.text ++ text, by rw [isAfter, Position.after_append]⟩

end Segment

/-- The diagnostics among the segments of a text start one behind the other. -/
theorem segments_ordered
    (source : SourceUnit)
    (start : Position)
    (text : List Char) :
    ((Segment.placed start (segments text)).filterMap
        (Segment.diagnostic? source)).Pairwise
      fun first second => first.span.start.precedes second.span.start = true := by
  fun_induction segments text generalizing start with
  | case1 =>
      exact .nil
  | case2 first rest inductionHypothesis =>
      have fits := Segment.fits_cut first rest
      generalize Segment.cut first rest = piece at *
      obtain ⟨segment, later⟩ := piece
      have others := inductionHypothesis (start.after segment.text)
      rw [Segment.placed]
      cases segment with
      | fault cause lead marked trail =>
          refine List.pairwise_cons.mpr ⟨?_, others⟩
          intro diagnostic member
          obtain ⟨behind, isAfter⟩ := Segment.exists_after_of_diagnostic member
          obtain ⟨character, characters, rfl, _⟩ := fits.marked_eq
          have isStart : diagnostic.span.start =
              (start.after lead).after
                (character :: (characters ++ trail ++ behind)) := by
            rw [isAfter, Segment.text_fault, ← Position.after_append,
              ← Position.after_append]
            simp
          show (start.after lead).precedes diagnostic.span.start = true
          rw [isStart]
          exact Position.precedes_after _ (List.cons_ne_nil _ _)
      | _ => exact others

end Scriptlet
