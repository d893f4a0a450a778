import Scriptlet.Proofs.Grammar.Repetition
import Scriptlet.Proofs.Token.Pieces

namespace Scriptlet

/-!
# Programs of joined texts

From two texts with a line break between them, the programs of the two texts are
read one after the other, up to spans.
-/

namespace Segment

theorem mem_of_mem_placed
    {start place : Position}
    {segment : Segment}
    {found : List Segment}
    (member : (place, segment) ∈ placed start found) :
    segment ∈ found := by
  induction found generalizing start with
  | nil => cases member
  | cons first later inductionHypothesis =>
      rcases List.mem_cons.mp member with isFirst | isLater
      · cases isFirst
        exact List.mem_cons_self
      · exact List.mem_cons_of_mem _ (inductionHypothesis isLater)

/-- The tokens among segments are repeated wherever the segments stand. -/
theorem repeatedBefore
    {more : List Token}
    (ends : more = [] ∨ EndsLine more)
    (source other : SourceUnit)
    (start place : Position)
    (found : List Segment) :
    RepeatedBefore more ((placed start found).filterMap (token? source))
      ((placed place found).filterMap (token? other) ++ more) := by
  induction found generalizing start place with
  | nil => exact .nil ends
  | cons segment later inductionHypothesis =>
      cases segment with
      | token => exact .cons ⟨rfl, rfl⟩ (inductionHypothesis _ _)
      | _ => exact inductionHypothesis _ _

end Segment

namespace SourceUnit

/-- The tokens of a source unit before the mark of its end. -/
def bodyTokens (source : SourceUnit) : List Token :=
  source.placedSegments.filterMap (Segment.token? source)

theorem kind_ne_endOfInput
    {source : SourceUnit}
    {token : Token}
    (member : token ∈ source.bodyTokens) :
    token.kind ≠ .endOfInput := by
  obtain ⟨⟨place, segment⟩, isPlaced, isToken⟩ := List.mem_filterMap.mp member
  obtain ⟨rest, fits⟩ := fits_of_mem_segments (Segment.mem_of_mem_placed isPlaced)
  cases segment with
  | token kind lexeme covered =>
      cases isToken
      exact Spelling.ne_endOfInput fits
  | _ => cases isToken

theorem body_scan (source : SourceUnit) :
    (TokenStream.ofTokens source.scan.tokens).body = source.bodyTokens := by
  have allInside : ∀ token ∈ source.bodyTokens,
      decide (token.kind ≠ .endOfInput) = true := fun token member =>
    decide_eq_true (kind_ne_endOfInput member)
  exact (List.takeWhile_append_of_pos allInside).trans (List.append_nil _)

/-- Whether a source unit is read as a program without any fault. -/
structure ReadAs (source : SourceUnit) (program : List Statement) : Prop where
  scanned : source.scan.diagnostics = []
  parsed : parse source.scan.tokens = .ok program

/-- A text whose program passes a check is read as one that does. -/
theorem exists_readAs
    (source : SourceUnit)
    (check : List Statement → Bool)
    (scanned : source.scan.diagnostics = [])
    (passes : (parse source.scan.tokens).toOption.any check = true) :
    ∃ program, source.ReadAs program ∧ check program = true := by
  cases parsed : parse source.scan.tokens with
  | error fault =>
      rw [parsed] at passes
      cases passes
  | ok program =>
      rw [parsed] at passes
      exact ⟨program, ⟨scanned, parsed⟩, passes⟩

/-- Two texts on lines of their own. -/
def joined (name first second : String) : SourceUnit :=
  ⟨name, first ++ "\n" ++ second⟩

section Joined

variable {name first second : String} {program next : List Statement}

theorem segments_joined
    (closed : ∀ segment ∈ segments first.toList, segment.isFault = false) :
    segments (joined name first second).code.toList =
      segments first.toList ++
        Segment.plainToken .newline ['\n'] :: segments second.toList := by
  have text : (joined name first second).code.toList =
      first.toList ++ '\n' :: second.toList := by
    simp [joined]
  rw [text]
  exact segments_append_line _ _ fun segment member =>
    Segment.not_isOpenComment (closed segment member)

/-- The tokens of the first text, a line break, and the tokens of the second text
at a later place. -/
theorem bodyTokens_joined
    (closed : ∀ segment ∈ segments first.toList, segment.isFault = false) :
    ∃ lineBreak place, lineBreak.kind = .newline ∧
      (joined name first second).bodyTokens =
        (Segment.placed .origin (segments first.toList)).filterMap
            (Segment.token? (joined name first second)) ++
          lineBreak ::
            (Segment.placed place (segments second.toList)).filterMap
              (Segment.token? (joined name first second)) := by
  refine ⟨?lineBreak, ?place, ?isBreak, ?tokens⟩
  case tokens =>
    rw [bodyTokens, placedSegments, segments_joined closed,
      Segment.placed_append, List.filterMap_append]
    rfl
  case isBreak => rfl

theorem scan_joined
    (sound : (SourceUnit.mk name first).scan.diagnostics = [])
    (nextSound : (SourceUnit.mk name second).scan.diagnostics = []) :
    (joined name first second).scan.diagnostics = [] := by
  have noFault := Segment.diagnostics_eq_nil_iff.mp sound
  have noNextFault := Segment.diagnostics_eq_nil_iff.mp nextSound
  apply Segment.diagnostics_eq_nil_iff.mpr
  rw [segments_joined noFault]
  intro segment member
  rcases List.mem_append.mp member with isFirst | isLater
  · exact noFault segment isFirst
  · rcases List.mem_cons.mp isLater with rfl | isNext
    · rfl
    · exact noNextFault segment isNext

/-- Texts that can be read are read, joined by a line break, as their programs one
after the other. -/
theorem ReadAs.join
    (reads : (SourceUnit.mk name first).ReadAs program)
    (nextReads : (SourceUnit.mk name second).ReadAs next) :
    ∃ whole : List Statement,
      (joined name first second).ReadAs whole ∧
      whole.map Statement.bare = (program ++ next).map Statement.bare := by
  have read := parse_eq_ok_iff.mp reads.parsed
  have nextRead := parse_eq_ok_iff.mp nextReads.parsed
  rw [body_scan] at read nextRead
  obtain ⟨lineBreak, place, isBreak, tokens⟩ :=
    bodyTokens_joined (Segment.diagnostics_eq_nil_iff.mp reads.scanned)
  -- The second program is read at its later place first, since the first one is
  -- only read where no branch follows.
  obtain ⟨nextFound, nextAlike, readNext⟩ :=
    nextRead.program_readElsewhere
      (Segment.repeatedBefore (.inl rfl) _ (joined name first second) _ place _)
  rw [List.append_nil] at readNext
  have endsLine : EndsLine (lineBreak :: _) := ⟨isBreak, readNext.not_atBranch⟩
  obtain ⟨found, alike, readWhole⟩ :=
    read.append (fun _ => kind_ne_endOfInput) isBreak readNext
      (Segment.repeatedBefore (.inr endsLine) _ (joined name first second) _
        .origin _)
  rw [← tokens, ← body_scan] at readWhole
  refine ⟨found ++ nextFound, ⟨?_, parse_eq_ok_iff.mpr readWhole⟩, ?_⟩
  · exact scan_joined reads.scanned nextReads.scanned
  · rw [List.map_append, List.map_append, alike, nextAlike]

end Joined

end SourceUnit

end Scriptlet
