import Mathlib.Data.List.TakeWhile
import Mathlib.Logic.Relation
import Scriptlet.Proofs.Grammar.LineBreaks
import Scriptlet.Token.Scan

namespace Scriptlet

/-!
# Blank lines, and branches on lines of their own

Blank lines can be put between the lines of a program, at the ends of its blocks and at
its own ends, and the program stays the same.  A further branch of a conditional can be
moved to a line of its own and back, but for one behind a bare `return`: there it has to
stand on a line of its own.
-/

/-! ## Tokens before the end of the input -/

namespace TokenStream

/-- Behind tokens that mark the end of the input nothing is read, and behind others
everything is read that is read alone. -/
theorem body_append (front : List Token) :
    (∃ token ∈ front, token.kind = .endOfInput ∧
        ∀ behind, (ofTokens (front ++ behind)).body = (ofTokens front).body) ∨
      ((∀ token ∈ front, token.kind ≠ .endOfInput) ∧
        ∀ behind, (ofTokens (front ++ behind)).body =
          front ++ (ofTokens behind).body) := by
  by_cases isMarked : ∃ token ∈ front, token.kind = .endOfInput
  · obtain ⟨token, isInside, isEnd⟩ := isMarked
    refine .inl ⟨token, isInside, isEnd, fun behind => ?_⟩
    simp only [ofTokens]
    rw [List.takeWhile_append, if_neg]
    intro isWhole
    have noEnd := List.takeWhile_eq_self_iff.mp
      ((List.takeWhile_prefix _).eq_of_length isWhole) token isInside
    simp [isEnd] at noEnd
  · push Not at isMarked
    exact .inr ⟨isMarked, fun behind =>
      List.takeWhile_append_of_pos (by simpa using isMarked)⟩

theorem body_cons
    {token : Token}
    (notEnd : token.kind ≠ .endOfInput)
    (rest : List Token) :
    (ofTokens (token :: rest)).body = token :: (ofTokens rest).body := by
  simp [ofTokens, notEnd]

theorem nextKind_body (tokens : List Token) :
    nextKind (ofTokens tokens).body = nextKind tokens := by
  cases tokens with
  | nil => rfl
  | cons token rest =>
      by_cases isEnd : token.kind = .endOfInput
      · simp [ofTokens, isEnd]
      · rw [body_cons isEnd]
        rfl

end TokenStream

/-- Programs are the same if the gaps between their words mean the same. -/
theorem StatementPart.ReadFrom.program_rebroken
    {program : List Statement}
    {tokens others : List Token}
    (reads : (StatementPart.statements .outermost program).ReadFrom tokens [])
    (same : Rebroken (skipBreaks tokens) (skipBreaks others)) :
    (StatementPart.statements .outermost program).ReadFrom others [] := by
  obtain ⟨left, otherReads, isEnd⟩ := reads.rebroken nofun same
  cases isEnd with
  | nil => exact otherReads

/-! ## Blank lines -/

/-- Where further line breaks make no difference: at the very beginning, right behind a
line break that no branch follows, right behind an opening brace, right before a closing
one, and right before the end of the input. -/
inductive BlankPlace : List Token → List Token → Prop where
  | beginning :
      BlankPlace [] behind
  | behindLine
      (isLast : front.getLast? = some last)
      (isBreak : last.kind = .newline)
      (notElif : nextKind behind ≠ .elifKeyword)
      (notElse : nextKind behind ≠ .elseKeyword) :
      BlankPlace front behind
  | behindOpening
      (isLast : front.getLast? = some last)
      (isOpening : last.kind = .leftBrace) :
      BlankPlace front behind
  | beforeClosing
      (isClosing : nextKind behind = .rightBrace) :
      BlankPlace front behind
  | beforeEnd
      (isEnd : nextKind behind = .endOfInput) :
      BlankPlace front behind

/-- That line breaks are added at one such place. -/
inductive AddsBlank : List Token → List Token → Prop where
  | add
      (place : BlankPlace front behind)
      (areBreaks : ∀ token ∈ breaks, token.kind = .newline) :
      AddsBlank (front ++ behind) (front ++ (breaks ++ behind))

section Breaks

variable {breaks : List Token} (areBreaks : ∀ token ∈ breaks, token.kind = .newline)

include areBreaks

theorem skipBreaks_append (rest : List Token) :
    skipBreaks (breaks ++ rest) = skipBreaks rest := by
  induction breaks with
  | nil => rfl
  | cons first breaks inductionHypothesis =>
      obtain ⟨isBreak, others⟩ := List.forall_mem_cons.mp areBreaks
      rw [List.cons_append, skipBreaks_cons_of_eq isBreak]
      exact inductionHypothesis others

theorem leadingBreaks_append (rest : List Token) :
    leadingBreaks (breaks ++ rest) = breaks.length + leadingBreaks rest := by
  induction breaks with
  | nil => exact (Nat.zero_add _).symm
  | cons first breaks inductionHypothesis =>
      obtain ⟨isBreak, others⟩ := List.forall_mem_cons.mp areBreaks
      rw [List.cons_append, leadingBreaks_cons_of_eq isBreak, inductionHypothesis others,
        List.length_cons]
      omega

end Breaks

/-- Tokens are line breaks, or there is a last word among them. -/
theorem breaks_or_exists_lastWord (tokens : List Token) :
    (∀ token ∈ tokens, token.kind = .newline) ∨
      ∃ front word breaks, tokens = front ++ word :: breaks ∧ word.kind ≠ .newline ∧
        ∀ token ∈ breaks, token.kind = .newline := by
  induction tokens with
  | nil => exact .inl nofun
  | cons token rest inductionHypothesis =>
      rcases inductionHypothesis with areBreaks | ⟨front, word, breaks, rfl, isWord⟩
      · by_cases isBreak : token.kind = .newline
        · exact .inl (List.forall_mem_cons.mpr ⟨isBreak, areBreaks⟩)
        · exact .inr ⟨[], token, rest, rfl, isBreak, areBreaks⟩
      · exact .inr ⟨token :: front, word, breaks, rfl, isWord⟩

/-- The last token is the last word, or a line break behind it. -/
theorem eq_word_or_break
    {front run : List Token}
    {word last : Token}
    (isLast : (front ++ word :: run).getLast? = some last)
    (isRun : ∀ token ∈ run, token.kind = .newline) :
    (run = [] ∧ last = word) ∨ (1 ≤ run.length ∧ last.kind = .newline) := by
  rw [List.getLast?_append_of_ne_nil _ (List.cons_ne_nil word run)] at isLast
  cases run with
  | nil => exact .inl ⟨rfl, (Option.some.inj isLast).symm⟩
  | cons first run =>
      rw [List.getLast?_cons_cons] at isLast
      exact .inr ⟨Nat.succ_pos _, isRun last (List.mem_of_getLast? isLast)⟩

/-- Behind a word and the line breaks that follow it, further ones mean the same where
they make no difference. -/
theorem BlankPlace.sameGap
    {front behind run breaks : List Token}
    {word : Token}
    (place : BlankPlace (front ++ word :: run) behind)
    (notBreak : word.kind ≠ .newline)
    (isRun : ∀ token ∈ run, token.kind = .newline)
    (areBreaks : ∀ token ∈ breaks, token.kind = .newline) :
    SameGap word.kind (nextKind (skipBreaks behind)) (leadingBreaks (run ++ behind))
      (leadingBreaks (run ++ (breaks ++ behind))) := by
  rw [leadingBreaks_append isRun, leadingBreaks_append isRun,
    leadingBreaks_append areBreaks]
  generalize isPlace : front ++ word :: run = before at place
  cases place with
  | beginning =>
      cases (List.append_eq_nil_iff.mp isPlace).2
  | behindLine isLast isBreak notElif notElse =>
      rw [← isPlace] at isLast
      rcases eq_word_or_break isLast isRun with ⟨_, rfl⟩ | ⟨someBreak, _⟩
      · exact (notBreak isBreak).elim
      · cases isBranch : (nextKind (skipBreaks behind)).startsBranch with
        | false => exact .line isBranch (by omega) (by omega)
        | true =>
            have more : 0 < leadingBreaks behind := by
              rw [Nat.pos_iff_ne_zero]
              intro noBreak
              rw [skipBreaks_of_leadingBreaks noBreak] at isBranch
              rcases TokenKind.startsBranch_iff.mp isBranch with isElif | isElse
              · exact notElif isElif
              · exact notElse isElse
            exact .apart (by omega) (by omega)
  | behindOpening isLast isOpening =>
      rw [← isPlace] at isLast
      rcases eq_word_or_break isLast isRun with ⟨_, rfl⟩ | ⟨_, isBreak⟩
      · exact .behindBrace isOpening
      · rw [isOpening] at isBreak
        cases isBreak
  | beforeClosing isClosing =>
      have notBreak : nextKind behind ≠ .newline := ne_of_eq_of_ne isClosing nofun
      rw [skipBreaks_of_ne notBreak]
      exact .closed (.inl isClosing)
  | beforeEnd isEnd =>
      have notBreak : nextKind behind ≠ .newline := ne_of_eq_of_ne isEnd nofun
      rw [skipBreaks_of_ne notBreak]
      exact .closed (.inr isEnd)

/-- Line breaks that are added where they make no difference do not part words. -/
theorem BlankPlace.rebroken
    {front behind breaks : List Token}
    (place : BlankPlace front behind)
    (areBreaks : ∀ token ∈ breaks, token.kind = .newline) :
    Rebroken (skipBreaks (front ++ behind))
      (skipBreaks (front ++ (breaks ++ behind))) := by
  rcases breaks_or_exists_lastWord front with
    isRun | ⟨front, word, run, rfl, notBreak, isRun⟩
  · rw [skipBreaks_append isRun, skipBreaks_append isRun, skipBreaks_append areBreaks]
    exact .refl behind
  · rw [List.append_assoc, List.append_assoc, List.cons_append, List.cons_append]
    apply Rebroken.behind
    have sameGap := place.sameGap notBreak isRun areBreaks
    refine .cons notBreak ?_ ?_
    · rw [skipBreaks_append isRun]
      exact sameGap
    · rw [skipBreaks_append isRun, skipBreaks_append isRun, skipBreaks_append areBreaks]
      exact .refl behind

/-- What follows a place matters by the kind of its first token only. -/
theorem BlankPlace.of_nextKind
    {front behind other : List Token}
    (place : BlankPlace front behind)
    (sameKind : nextKind other = nextKind behind) :
    BlankPlace front other := by
  cases place with
  | beginning => exact .beginning
  | behindLine isLast isBreak notElif notElse =>
      rw [← sameKind] at notElif notElse
      exact .behindLine isLast isBreak notElif notElse
  | behindOpening isLast isOpening => exact .behindOpening isLast isOpening
  | beforeClosing isClosing => exact .beforeClosing (sameKind.trans isClosing)
  | beforeEnd isEnd => exact .beforeEnd (sameKind.trans isEnd)

/-- Line breaks that are added at one place change no program. -/
theorem AddsBlank.parse_eq
    {tokens others : List Token}
    (adds : AddsBlank tokens others)
    {program : List Statement}
    (accepted : parse tokens = .ok program) :
    parse others = .ok program := by
  have reads := parse_eq_ok_iff.mp accepted
  apply parse_eq_ok_iff.mpr
  cases adds with
  | @add front behind breaks place areBreaks =>
      rcases TokenStream.body_append front with ⟨_, _, _, isPast⟩ | ⟨_, isBody⟩
      · rw [isPast] at reads ⊢
        exact reads
      · have breaksBody : (TokenStream.ofTokens (breaks ++ behind)).body =
            breaks ++ (TokenStream.ofTokens behind).body :=
          List.takeWhile_append_of_pos fun token member => by
            simp [areBreaks token member]
        rw [isBody] at reads ⊢
        rw [breaksBody]
        exact reads.program_rebroken
          ((place.of_nextKind (TokenStream.nextKind_body behind)).rebroken areBreaks)

/-- Blank lines do not matter: however many line breaks are added where they make no
difference, one place after the other, the same program is read. -/
theorem parse_blankLines
    {tokens others : List Token}
    (adds : Relation.ReflTransGen AddsBlank tokens others)
    {program : List Statement}
    (accepted : parse tokens = .ok program) :
    parse others = .ok program := by
  induction adds with
  | refl => exact accepted
  | tail _ adds accepted => exact adds.parse_eq accepted

/-- A block with line breaks at all places but the one behind a line. -/
theorem parse_blankLines_block :
    ∃ opening name closing stop lineBreak program,
      (SourceUnit.mk "main" "\x7b a \x7d").scan.tokens = [opening, name, closing, stop] ∧
        Token.kind lineBreak = .newline ∧
        parse [opening, name, closing, stop] = .ok program ∧
        parse [lineBreak, opening, lineBreak, lineBreak, name, lineBreak, closing,
          lineBreak, stop] = .ok program := by
  obtain ⟨tokens, areTokens, areKinds, isAccepted⟩ :
      ∃ tokens, (SourceUnit.mk "main" "\x7b a \x7d").scan.tokens = tokens ∧
        tokens.map Token.kind = [.leftBrace, .identifier, .rightBrace, .endOfInput] ∧
        (parse tokens).toOption.isSome = true :=
    ⟨_, rfl, by decide +kernel, by decide +kernel⟩
  obtain ⟨opening, _, rfl, isOpening, areKinds⟩ := List.map_eq_cons_iff.mp areKinds
  obtain ⟨name, _, rfl, -, areKinds⟩ := List.map_eq_cons_iff.mp areKinds
  obtain ⟨closing, _, rfl, isClosing, areKinds⟩ := List.map_eq_cons_iff.mp areKinds
  obtain ⟨stop, rfl, isStop⟩ := List.map_eq_singleton_iff.mp areKinds
  obtain ⟨program, accepted⟩ := exists_parse isAccepted
  let lineBreak : Token := ⟨.newline, "\n", .emptyAt .origin ⟨"main", "\n"⟩⟩
  have one : ∀ token ∈ [lineBreak], token.kind = .newline :=
    List.forall_mem_singleton.mpr rfl
  have two : ∀ token ∈ [lineBreak, lineBreak], token.kind = .newline :=
    List.forall_mem_cons.mpr ⟨rfl, one⟩
  have atStart : AddsBlank [opening, name, closing, stop]
      [lineBreak, opening, name, closing, stop] :=
    .add .beginning one
  have behindOpening : AddsBlank ([lineBreak, opening] ++ [name, closing, stop])
      ([lineBreak, opening] ++ ([lineBreak, lineBreak] ++ [name, closing, stop])) :=
    .add (.behindOpening rfl isOpening) two
  have beforeClosing :
      AddsBlank ([lineBreak, opening, lineBreak, lineBreak, name] ++ [closing, stop])
        ([lineBreak, opening, lineBreak, lineBreak, name] ++
          ([lineBreak] ++ [closing, stop])) :=
    .add (.beforeClosing isClosing) one
  have beforeEnd :
      AddsBlank
        ([lineBreak, opening, lineBreak, lineBreak, name, lineBreak, closing] ++ [stop])
        ([lineBreak, opening, lineBreak, lineBreak, name, lineBreak, closing] ++
          ([lineBreak] ++ [stop])) :=
    .add (.beforeEnd isStop) one
  exact ⟨opening, name, closing, stop, lineBreak, program, areTokens, rfl, accepted,
    parse_blankLines
      ((((Relation.ReflTransGen.single atStart).tail behindOpening).tail
        beforeClosing).tail beforeEnd)
      accepted⟩

/-! ## Branches on lines of their own -/

/-- That of the tokens in front of the rest none is a bare `return` right before a
further branch. -/
inductive NoBareReturn : List Token → List Token → Prop where
  | refl :
      NoBareReturn tokens tokens
  | cons
      (isClosed : token.kind = .returnKeyword → (nextKind tokens).startsBranch = false)
      (others : NoBareReturn tokens rest) :
      NoBareReturn (token :: tokens) rest

namespace NoBareReturn

theorem trans
    {tokens middle rest : List Token}
    (first : NoBareReturn tokens middle)
    (second : NoBareReturn middle rest) :
    NoBareReturn tokens rest := by
  induction first with
  | refl => exact second
  | cons isClosed _ inductionHypothesis =>
      exact .cons isClosed (inductionHypothesis second)

theorem word
    {token : Token}
    {kind : TokenKind}
    {tokens rest : List Token}
    (isKind : token.kind = kind)
    (notReturn : kind ≠ .returnKeyword)
    (others : NoBareReturn tokens rest) :
    NoBareReturn (token :: tokens) rest :=
  .cons (fun isReturn => (notReturn (isKind.symm.trans isReturn)).elim) others

theorem breaks (tokens : List Token) :
    NoBareReturn tokens (skipBreaks tokens) := by
  induction tokens with
  | nil => exact .refl
  | cons token rest inductionHypothesis =>
      by_cases isBreak : token.kind = .newline
      · rw [skipBreaks_cons_of_eq isBreak]
        exact .word isBreak nofun inductionHypothesis
      · rw [skipBreaks_cons_of_ne isBreak]
        exact .refl

theorem branchBreak (tokens : List Token) :
    NoBareReturn tokens (skipBranchBreak tokens) := by
  unfold skipBranchBreak
  split
  · split
    case isTrue atBranch => exact .word atBranch.1 nofun .refl
    case isFalse => exact .refl
  · exact .refl

theorem withinLine
    {tokens rest : List Token}
    (isInside : WithinLine tokens rest) :
    NoBareReturn tokens rest := by
  obtain ⟨used, rfl, areInner⟩ := isInside
  induction used with
  | nil => exact .refl
  | cons word used inductionHypothesis =>
      obtain ⟨isInner, othersInner⟩ := List.forall_mem_cons.mp areInner
      exact .word rfl (TokenKind.ne_of_isInner isInner .returnKeyword rfl)
        (inductionHypothesis othersInner)

/-- No branch stands behind a bare `return` anywhere among the tokens. -/
theorem not_startsBranch
    {front behind : List Token}
    {token : Token}
    (none : NoBareReturn (front ++ token :: behind) [])
    (isReturn : token.kind = .returnKeyword) :
    (nextKind behind).startsBranch = false := by
  induction front with
  | nil =>
      cases none with
      | cons isClosed _ => exact isClosed isReturn
  | cons first front inductionHypothesis =>
      cases none with
      | cons _ others => exact inductionHypothesis others

end NoBareReturn

theorem TokenKind.not_startsBranch_of_closedBy
    {around : Surroundings}
    {kind : TokenKind}
    (isClosed : around.closedBy kind = true) :
    kind.startsBranch = false := by
  cases kind <;> first | rfl | cases isClosed

theorem TokenKind.not_startsBranch_of_startsExpression
    {kind : TokenKind}
    (starts : kind.startsExpression = true) :
    kind.startsBranch = false := by
  cases kind <;> first | rfl | cases starts

theorem ExpressionPart.ReadFrom.noBareReturn
    {part : ExpressionPart}
    {tokens rest : List Token}
    (reads : part.ReadFrom tokens rest) :
    NoBareReturn tokens rest :=
  .withinLine reads.withinLine

theorem EndsStatement.noBareReturn
    {around : Surroundings}
    {tokens rest : List Token}
    (ends : EndsStatement around tokens rest) :
    NoBareReturn tokens rest := by
  cases ends with
  | newline isBreak => exact .word isBreak nofun .refl
  | closed _ _ => exact .refl

/-- No further branch is read right behind a bare `return`. -/
theorem StatementPart.ReadFrom.noBareReturn
    {part : StatementPart}
    {tokens rest : List Token}
    (reads : part.ReadFrom tokens rest) :
    NoBareReturn tokens rest := by
  induction reads with
  | variableDeclaration isVariable isName isEqual value =>
      have behindKeyword := NoBareReturn.word isName nofun
        (.word isEqual nofun value.noBareReturn)
      rcases isVariable with isVar | isConst
      · exact .word isVar nofun behindKeyword
      · exact .word isConst nofun behindKeyword
  | functionDeclaration isFunction isName parameters _ body =>
      have behindName := (NoBareReturn.withinLine parameters.withinLine).trans body
      exact .word isFunction nofun (.word isName nofun behindName)
  | simple _ statement => exact statement
  | block _ block => exact block
  | whileLoop isWhile test _ repeated =>
      exact .word isWhile nofun (test.noBareReturn.trans repeated)
  | conditional isIf test _ _ chosen more =>
      exact .word isIf nofun (test.noBareReturn.trans (chosen.trans more))
  | breakLoop isBreak _ => exact .word isBreak nofun .refl
  | continueLoop isContinue _ => exact .word isContinue nofun .refl
  | returnNothing _ _ isClosed =>
      exact .cons (fun _ => TokenKind.not_startsBranch_of_closedBy isClosed) .refl
  | returnValue _ _ result =>
      have starts := result.startsExpression rfl
      exact .cons (fun _ => TokenKind.not_startsBranch_of_startsExpression starts)
        result.noBareReturn
  | expression inner => exact inner.noBareReturn
  | elifBranch atBranch isElif test _ _ chosen more =>
      refine (NoBareReturn.branchBreak _).trans ?_
      rw [atBranch]
      exact .word isElif nofun (test.noBareReturn.trans (chosen.trans more))
  | elseBranch atBranch isElse _ chosen =>
      refine (NoBareReturn.branchBreak _).trans ?_
      rw [atBranch]
      exact .word isElse nofun chosen
  | noBranch => exact .refl
  | braces isOpening _ isClosing content =>
      exact .word isOpening nofun (content.trans (.word isClosing nofun .refl))
  | noStatement => exact .breaks _
  | moreStatements _ ends _ first others =>
      exact (NoBareReturn.breaks _).trans (first.trans (ends.noBareReturn.trans others))

/-- In front of a branch a line break may be added, unless a bare `return` is there. -/
theorem Rebroken.branch
    {before lineBreak keyword : Token}
    (notBreak : before.kind ≠ .newline)
    (notReturn : before.kind ≠ .returnKeyword)
    (isBreak : lineBreak.kind = .newline)
    (isBranch : keyword.kind.startsBranch = true)
    (behind : List Token) :
    Rebroken (before :: keyword :: behind)
      (before :: lineBreak :: keyword :: behind) := by
  have keywordNotBreak : keyword.kind ≠ .newline := by
    intro isKind
    rw [isKind] at isBranch
    cases isBranch
  have isSkipped := skipBreaks_cons_of_ne keywordNotBreak behind
  refine .cons notBreak ?_ ?_
  · rw [leadingBreaks_cons_of_eq isBreak, leadingBreaks_cons_of_ne keywordNotBreak,
      isSkipped]
    exact .branch isBranch notReturn (Nat.zero_le 1) (Nat.le_refl 1)
  · rw [skipBreaks_cons_of_eq isBreak]
    exact .refl _

/-- What is read with a branch on the same line is read with the branch on a line of its
own, and the other way round, unless a bare `return` stands in front of it. -/
theorem StatementPart.ReadFrom.branch_iff
    {program : List Statement}
    {front behind : List Token}
    {before lineBreak keyword : Token}
    (notBreak : before.kind ≠ .newline)
    (isBreak : lineBreak.kind = .newline)
    (isBranch : keyword.kind.startsBranch = true) :
    (statements .outermost program).ReadFrom (front ++ before :: keyword :: behind) [] ↔
      (statements .outermost program).ReadFrom
          (front ++ before :: lineBreak :: keyword :: behind) [] ∧
        before.kind ≠ .returnKeyword := by
  constructor
  · intro reads
    have notReturn : before.kind ≠ .returnKeyword := by
      intro isReturn
      have noBranch := reads.noBareReturn.not_startsBranch isReturn
      rw [nextKind_cons, isBranch] at noBranch
      cases noBranch
    have broken := Rebroken.branch notBreak notReturn isBreak isBranch behind
    exact ⟨reads.program_rebroken (broken.behind front), notReturn⟩
  · rintro ⟨reads, notReturn⟩
    have broken := Rebroken.branch notBreak notReturn isBreak isBranch behind
    exact reads.program_rebroken (broken.behind front).symm

/-- A further branch is read on the line of the branch in front of it exactly if it is
read on a line of its own, and the programs are the same.  The exception is a branch
behind a bare `return`, which is never read on the same line.  Behind the end of the
input nothing is read at all. -/
theorem parse_branchBreak
    {front behind : List Token}
    {before lineBreak keyword : Token}
    (notBreak : before.kind ≠ .newline)
    (isBreak : lineBreak.kind = .newline)
    (isBranch : keyword.kind = .elifKeyword ∨ keyword.kind = .elseKeyword)
    {program : List Statement} :
    parse (front ++ before :: keyword :: behind) = .ok program ↔
      parse (front ++ before :: lineBreak :: keyword :: behind) = .ok program ∧
        (before.kind = .returnKeyword → ∃ token ∈ front, token.kind = .endOfInput) := by
  rw [parse_eq_ok_iff, parse_eq_ok_iff,
    List.append_cons front before (keyword :: behind),
    List.append_cons front before (lineBreak :: keyword :: behind)]
  rcases TokenStream.body_append (front ++ [before]) with
    ⟨token, isInside, isEnd, isPast⟩ | ⟨noEnd, isBody⟩
  · rw [isPast, isPast]
    refine (and_iff_left fun isReturn => ?_).symm
    rcases List.mem_append.mp isInside with isFront | isBefore
    · exact ⟨token, isFront, isEnd⟩
    · rw [List.mem_singleton.mp isBefore, isReturn] at isEnd
      cases isEnd
  · have startsBranch := TokenKind.startsBranch_iff.mpr isBranch
    have keywordNoEnd : keyword.kind ≠ .endOfInput := by
      rcases isBranch with isKind | isKind <;> simp [isKind]
    have breakNoEnd : lineBreak.kind ≠ .endOfInput := by simp [isBreak]
    have noneInFront : ¬ ∃ token ∈ front, token.kind = .endOfInput := by
      rintro ⟨token, isFront, isEnd⟩
      exact noEnd token (List.mem_append_left _ isFront) isEnd
    rw [isBody, isBody, TokenStream.body_cons keywordNoEnd,
      TokenStream.body_cons breakNoEnd, TokenStream.body_cons keywordNoEnd,
      ← List.append_cons, ← List.append_cons, imp_iff_not noneInFront]
    exact StatementPart.ReadFrom.branch_iff notBreak isBreak startsBranch

/-- A branch behind a name, on the same line and on a line of its own. -/
theorem parse_branchBreak_else :
    ∃ front before keyword behind lineBreak program,
      (SourceUnit.mk "main" "if a b else c").scan.tokens =
          front ++ before :: keyword :: behind ∧
        Token.kind before = .identifier ∧
        Token.kind keyword = .elseKeyword ∧
        Token.kind lineBreak = .newline ∧
        parse (front ++ before :: keyword :: behind) = .ok program ∧
        parse (front ++ before :: lineBreak :: keyword :: behind) = .ok program := by
  obtain ⟨tokens, areTokens, areKinds, isAccepted⟩ :
      ∃ tokens, (SourceUnit.mk "main" "if a b else c").scan.tokens = tokens ∧
        (tokens.drop 2).map Token.kind =
          [.identifier, .elseKeyword, .identifier, .endOfInput] ∧
        (parse tokens).toOption.isSome = true :=
    ⟨_, rfl, by decide +kernel, by decide +kernel⟩
  have whole := List.take_append_drop 2 tokens
  obtain ⟨before, _, isBehind, isName, areKinds⟩ := List.map_eq_cons_iff.mp areKinds
  obtain ⟨keyword, behind, rfl, isElse, -⟩ := List.map_eq_cons_iff.mp areKinds
  rw [isBehind] at whole
  rw [← whole] at isAccepted
  obtain ⟨program, accepted⟩ := exists_parse isAccepted
  let lineBreak : Token := ⟨.newline, "\n", .emptyAt .origin ⟨"main", "\n"⟩⟩
  have isBreak : lineBreak.kind = .newline := rfl
  have notBreak : before.kind ≠ .newline := by simp [isName]
  have onItsOwn := (parse_branchBreak notBreak isBreak (.inr isElse)).mp accepted
  exact ⟨tokens.take 2, before, keyword, behind, lineBreak, program,
    areTokens.trans whole.symm, isName, isElse, isBreak, accepted, onItsOwn.1⟩

/-- A branch behind a bare `return` is refused on the same line, and read on a line of
its own. -/
theorem parse_branchBreak_return :
    ∃ front before keyword behind lineBreak program,
      (SourceUnit.mk "main"
          "\x7b function f() \x7b if true return else 5 \x7d \x7d").scan.tokens =
          front ++ before :: keyword :: behind ∧
        Token.kind before = .returnKeyword ∧
        Token.kind keyword = .elseKeyword ∧
        Token.kind lineBreak = .newline ∧
        (∀ other, parse (front ++ before :: keyword :: behind) ≠ .ok other) ∧
        parse (front ++ before :: lineBreak :: keyword :: behind) = .ok program := by
  obtain ⟨tokens, areTokens, areKinds, isRefused, isAccepted⟩ :
      ∃ tokens,
        (SourceUnit.mk "main"
          "\x7b function f() \x7b if true return else 5 \x7d \x7d").scan.tokens = tokens ∧
        (tokens.drop 8).map Token.kind =
          [.returnKeyword, .elseKeyword, .int, .rightBrace, .rightBrace, .endOfInput] ∧
        (parse tokens).toOption = none ∧
        (parse (tokens.take (8 + 1) ++
          ⟨.newline, "\n", .emptyAt .origin ⟨"main", "\n"⟩⟩ ::
            tokens.drop (8 + 1))).toOption.isSome = true :=
    ⟨_, rfl, by decide +kernel, by decide +kernel, by decide +kernel⟩
  have whole := List.take_append_drop 8 tokens
  obtain ⟨before, _, isBehind, isReturn, areKinds⟩ := List.map_eq_cons_iff.mp areKinds
  obtain ⟨keyword, behind, rfl, isElse, -⟩ := List.map_eq_cons_iff.mp areKinds
  rw [List.take_add, ← List.drop_drop, isBehind] at isAccepted
  rw [isBehind] at whole
  obtain ⟨program, accepted⟩ := exists_parse isAccepted
  rw [List.append_assoc] at accepted
  refine ⟨tokens.take 8, before, keyword, behind, _, program, areTokens.trans whole.symm,
    isReturn, isElse, rfl, ?_, accepted⟩
  intro other isOther
  rw [← whole, isOther] at isRefused
  cases isRefused

end Scriptlet
