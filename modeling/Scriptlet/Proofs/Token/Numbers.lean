import Scriptlet.Proofs.Token.Recutting

namespace Scriptlet

/-!
# Numbers in a text

Where a digit starts a segment, the segment takes all digits and dots that follow.  If they
are digits alone, or digits with one dot between them, they are a number.  Otherwise they
are no token, and the first dot that cannot be part of a number is reported.
-/

/-- What a run of digits and dots at a place of a source gives: tokens and diagnostics. -/
inductive SourceUnit.ReadsNumber (source : SourceUnit) (place : Position) :
    List Char → List Token → List Diagnostic → Prop where
  /-- Digits alone are a whole number. -/
  | whole
      (areDigits : isDigits run = true) :
      ReadsNumber source place run
        [⟨.int, String.ofList run, ⟨place, place.after run, source⟩⟩] []
  /-- Digits on both sides of a single dot are a number with a fraction. -/
  | fraction
      (wholeDigits : isDigits whole = true)
      (fractionDigits : isDigits fraction = true)
      (isRun : run = whole ++ '.' :: fraction) :
      ReadsNumber source place run
        [⟨.float, String.ofList run, ⟨place, place.after run, source⟩⟩] []
  /-- The first dot has no digit behind it. -/
  | trailingDot
      (numberDigits : isDigits number = true)
      (noDigit : Stops Char.isDigit trail)
      (isRun : run = number ++ '.' :: trail)
      (isKind : diagnostic.kind = .trailingDot)
      (isTip : diagnostic.tip =
        some ("To define a float add a zero after: '" ++ String.ofList number ++ ".0'"))
      (isSpan : diagnostic.span =
        ⟨place.after number, place.after (number ++ ['.']), source⟩) :
      ReadsNumber source place run [] [diagnostic]
  /-- The first dot has digits behind it, and then a second one follows. -/
  | multipleDots
      (wholeDigits : isDigits whole = true)
      (fractionDigits : isDigits fraction = true)
      (isNumber : number = whole ++ '.' :: fraction)
      (isRun : run = number ++ '.' :: trail)
      (isKind : diagnostic.kind = .multipleDots)
      (isTip : diagnostic.tip =
        some ("Remove the dot: '" ++ String.ofList number ++ "'"))
      (isSpan : diagnostic.span =
        ⟨place.after number, place.after (number ++ ['.']), source⟩) :
      ReadsNumber source place run [] [diagnostic]

namespace Segment

/-! ## What is cut off -/

theorem isDigitOrDot_of_isDigits
    {digits : List Char}
    (areDigits : isDigits digits = true) :
    ∀ character ∈ digits, isDigitOrDot character = true :=
  fun character member =>
    isDigitOrDot_of_isDigit ((isDigits_iff.mp areDigits).2 character member)

/-- Digits and a dot with further digits behind it. -/
theorem isDigitOrDot_of_fraction
    {whole fraction : List Char}
    (wholeDigits : isDigits whole = true)
    (fractionDigits : isDigits fraction = true) :
    ∀ character ∈ whole ++ '.' :: fraction, isDigitOrDot character = true :=
  List.forall_mem_append.mpr
    ⟨isDigitOrDot_of_isDigits wholeDigits,
      List.forall_mem_cons.mpr ⟨rfl, isDigitOrDot_of_isDigits fractionDigits⟩⟩

/-- That a segment takes all digits and dots at the front of a text, and gives the number
that they are or the report of the dot that keeps them from being one. -/
structure TakesNumber (text : List Char) (piece : Segment × List Char) : Prop where
  text_eq : piece.1.text = text.takeWhile isDigitOrDot
  rest_eq : piece.2 = text.dropWhile isDigitOrDot
  reads : ∀ (source : SourceUnit) (place : Position),
    source.ReadsNumber place piece.1.text (token? source (place, piece.1)).toList
      (diagnostic? source (place, piece.1)).toList

/-- A number that neither a digit nor a dot follows is taken whole. -/
theorem takesNumber_plain
    {number rest : List Char}
    {kind : TokenKind}
    (notBreak : kind ≠ .newline)
    (isNumber : ∀ character ∈ number, isDigitOrDot character = true)
    (ends : Stops isDigitOrDot rest)
    (reads : ∀ (source : SourceUnit) (place : Position),
      source.ReadsNumber place number
        [⟨kind, String.ofList number, ⟨place, place.after number, source⟩⟩] []) :
    TakesNumber (number ++ rest) (plainToken kind number, rest) where
  text_eq := (takeWhile_append_stop isNumber ends).symm
  rest_eq := (dropWhile_append_stop isNumber ends).symm
  reads source place := by
    have isStop : tokenStop place kind number = place.after number := if_neg notBreak
    have found := reads source place
    rw [← isStop] at found
    exact found

/-- A number with a dot that cannot be part of it takes all digits and dots behind that
dot, too. -/
theorem takesNumber_faulty
    {number afterDot : List Char}
    (isNumber : ∀ character ∈ number, isDigitOrDot character = true)
    (fault : String → LexicalFault)
    (reads : ∀ (source : SourceUnit) (place : Position),
      source.ReadsNumber place (number ++ '.' :: afterDot.takeWhile isDigitOrDot) []
        [(fault (String.ofList number)).locate
          ⟨place.after number, place.after (number ++ ['.']), source⟩]) :
    TakesNumber (number ++ '.' :: afterDot)
      (cutFaultyNumber fault number afterDot) where
  text_eq := by
    rw [List.takeWhile_append_of_pos isNumber, List.takeWhile_cons_of_pos rfl]
    rfl
  rest_eq := by
    rw [List.dropWhile_append_of_pos isNumber, List.dropWhile_cons_of_pos rfl]
    rfl
  reads source place := by
    have found := reads source place
    rw [Position.after_append] at found
    exact found

/-- What is cut off a text that starts with a number. -/
theorem NumberCut.takesNumber
    {text : List Char}
    {piece : Segment × List Char}
    (isCut : NumberCut text piece) :
    TakesNumber text piece := by
  cases isCut with
  | whole wholeDigits ends =>
      have notBreak : TokenKind.int ≠ .newline := nofun
      apply takesNumber_plain notBreak (isDigitOrDot_of_isDigits wholeDigits) ends
      intro source place
      exact .whole wholeDigits
  | fraction wholeDigits fractionDigits ends =>
      have notBreak : TokenKind.float ≠ .newline := nofun
      apply takesNumber_plain notBreak
        (isDigitOrDot_of_fraction wholeDigits fractionDigits) ends
      intro source place
      exact .fraction wholeDigits fractionDigits rfl
  | trailingDot wholeDigits noDigit =>
      apply takesNumber_faulty (isDigitOrDot_of_isDigits wholeDigits)
      intro source place
      exact .trailingDot wholeDigits (stops_takeWhile noDigit) rfl rfl rfl rfl
  | multipleDots wholeDigits fractionDigits =>
      apply takesNumber_faulty (isDigitOrDot_of_fraction wholeDigits fractionDigits)
      intro source place
      exact .multipleDots wholeDigits fractionDigits rfl rfl rfl rfl rfl

end Segment

/-- What one item among others contributes. -/
theorem filterMap_between
    (extract : α → Option β)
    (front later : List α)
    (item : α) :
    (front ++ item :: later).filterMap extract =
      front.filterMap extract ++ (extract item).toList ++ later.filterMap extract := by
  rw [List.filterMap_append, List.filterMap_cons, List.append_assoc]
  cases extract item <;> rfl

/-- Wherever a digit starts a segment of a text, the segment takes exactly the digits and
dots that follow, as far as they go.  If they are digits alone, or digits, one dot and
digits, they are one token; otherwise they are none, and there is one diagnostic, which
points at the first dot that has no digit behind it, or else at the second dot. -/
theorem SourceUnit.scan_number
    {source : SourceUnit}
    {front behind : List Segment}
    {digit : Char}
    {rest : List Char}
    (isCut : segments source.code.toList = front ++ behind)
    (atDigit : behind.flatMap Segment.text = digit :: rest)
    (isDigit : digit.isDigit = true) :
    let place := Position.origin.after (front.flatMap Segment.text)
    let run := (digit :: rest).takeWhile Segment.isDigitOrDot
    ∃ segment later tokens diagnostics,
      behind = segment :: later ∧
      segment.text = run ∧
      later.flatMap Segment.text = (digit :: rest).dropWhile Segment.isDigitOrDot ∧
      source.ReadsNumber place run tokens diagnostics ∧
      source.scan.tokens =
        (Segment.placed .origin front).filterMap (Segment.token? source) ++ tokens ++
          (Segment.placed (place.after run) later).filterMap (Segment.token? source) ++
          [Token.endOfInput (Span.emptyAt source.endPosition source)] ∧
      source.scan.diagnostics =
        (Segment.placed .origin front).filterMap (Segment.diagnostic? source) ++
          diagnostics ++
          (Segment.placed (place.after run) later).filterMap
            (Segment.diagnostic? source) := by
  intro place run
  have isBehind := segments_behind isCut
  rw [atDigit, segments, Segment.cut_of_isDigit isDigit] at isBehind
  obtain ⟨text_eq, rest_eq, reads⟩ := (Segment.numberCut_cutNumber isDigit rest).takesNumber
  generalize Segment.cutNumber digit rest = piece at isBehind text_eq rest_eq reads
  obtain ⟨segment, remaining⟩ := piece
  have isPlaced : source.placedSegments =
      Segment.placed .origin front ++
        (place, segment) :: Segment.placed (place.after run) (segments remaining) := by
    rw [placedSegments, isCut, Segment.placed_append, ← isBehind, Segment.placed, text_eq]
  have isRead := reads source place
  rw [text_eq] at isRead
  refine ⟨segment, segments remaining, _, _, isBehind.symm, text_eq, ?_, isRead, ?_, ?_⟩
  · exact (flatMap_text_segments remaining).trans rest_eq
  · rw [scan, isPlaced, filterMap_between]
  · rw [scan, isPlaced]
    exact filterMap_between _ _ _ _

/-- A number with two dots in a row behind its fraction: the first of them is reported, and
the plus sign behind the last digit starts the next segment. -/
theorem SourceUnit.scan_number_dots :
    ∃ tokens diagnostics,
      (SourceUnit.mk "main" "1 + 2.50..3+4").ReadsNumber ⟨1, 4, 4⟩ "2.50..3".toList tokens
        diagnostics ∧
      diagnostics = (SourceUnit.mk "main" "1 + 2.50..3+4").scan.diagnostics ∧
      diagnostics.map Diagnostic.tip = [some "Remove the dot: '2.50'"] := by
  have isCut : segments (SourceUnit.mk "main" "1 + 2.50..3+4").code.toList =
      [.plainToken .int ['1'], .blank [' '], .plainToken .plus ['+'], .blank [' ']] ++
        [.fault (.multipleDots "2.50") "2.50".toList ['.'] ".3".toList,
          .plainToken .plus ['+'], .plainToken .int ['4']] := by
    decide +kernel
  obtain ⟨segment, later, tokens, diagnostics, isBehind, -, -, reads, -, isReport⟩ :=
    scan_number isCut rfl rfl
  cases isBehind
  have isOnly : diagnostics = (SourceUnit.mk "main" "1 + 2.50..3+4").scan.diagnostics := by
    rw [isReport]
    exact (List.append_nil diagnostics).symm
  refine ⟨tokens, diagnostics, ?_, isOnly, ?_⟩
  · have isPlace : Position.origin.after "1 + ".toList = ⟨1, 4, 4⟩ := by
      decide
    have isRun : "2.50..3+4".toList.takeWhile Segment.isDigitOrDot = "2.50..3".toList := by
      decide
    rw [← isPlace, ← isRun]
    exact reads
  · rw [isOnly, scan, placedSegments, isCut]
    rfl

end Scriptlet
