import Scriptlet.Proofs.Grammar.Following

namespace Scriptlet

/-!
# Line breaks between words

Between two words of a program the number of line breaks matters little.  Behind an
opening brace, in front of a closing one and at the end of the input any number will do.
In front of a further branch, one is as good as none, unless a bare `return` stands there.
Everywhere else only the first of several line breaks means something.

So if two lists of tokens have the same words, and between these line breaks that mean
the same, then a program that is read from one of them is also read from the other.
-/

/-! ## Line breaks at the front -/

/-- The number of line breaks at the front of tokens. -/
def leadingBreaks (tokens : List Token) : Nat :=
  (tokens.takeWhile fun token => token.kind = .newline).length

theorem leadingBreaks_cons_of_eq
    {token : Token}
    (isBreak : token.kind = .newline)
    (rest : List Token) :
    leadingBreaks (token :: rest) = leadingBreaks rest + 1 := by
  simp [leadingBreaks, isBreak]

theorem leadingBreaks_cons_of_ne
    {token : Token}
    (notBreak : token.kind ≠ .newline)
    (rest : List Token) :
    leadingBreaks (token :: rest) = 0 := by
  simp [leadingBreaks, notBreak]

theorem leadingBreaks_of_ne
    {tokens : List Token}
    (notBreak : nextKind tokens ≠ .newline) :
    leadingBreaks tokens = 0 := by
  cases tokens with
  | nil => rfl
  | cons token rest => exact leadingBreaks_cons_of_ne notBreak rest

theorem leadingBreaks_append_word
    {word : Token}
    (notBreak : word.kind ≠ .newline)
    (front rest : List Token) :
    leadingBreaks (front ++ word :: rest) = leadingBreaks front := by
  induction front with
  | nil => exact leadingBreaks_cons_of_ne notBreak rest
  | cons token front inductionHypothesis =>
      by_cases isBreak : token.kind = .newline
      · rw [List.cons_append, leadingBreaks_cons_of_eq isBreak,
          leadingBreaks_cons_of_eq isBreak, inductionHypothesis]
      · rw [List.cons_append, leadingBreaks_cons_of_ne isBreak,
          leadingBreaks_cons_of_ne isBreak]

theorem nextKind_eq_newline_iff {tokens : List Token} :
    nextKind tokens = .newline ↔ 0 < leadingBreaks tokens := by
  constructor
  · intro isBreak
    cases tokens with
    | nil => cases isBreak
    | cons token rest =>
        rw [leadingBreaks_cons_of_eq isBreak]
        exact Nat.succ_pos _
  · intro someBreak
    by_contra notBreak
    rw [leadingBreaks_of_ne notBreak] at someBreak
    cases someBreak

/-- Without line breaks at the front there is nothing to skip. -/
theorem skipBreaks_of_leadingBreaks
    {tokens : List Token}
    (noBreak : leadingBreaks tokens = 0) :
    skipBreaks tokens = tokens := by
  apply skipBreaks_of_ne
  intro isBreak
  have someBreak := nextKind_eq_newline_iff.mp isBreak
  omega

/-- A line break at the front is one of those that are skipped. -/
theorem exists_of_leadingBreaks
    {tokens : List Token}
    (someBreak : 0 < leadingBreaks tokens) :
    ∃ token rest, tokens = token :: rest ∧ token.kind = .newline ∧
      skipBreaks tokens = skipBreaks rest := by
  have isBreak := nextKind_eq_newline_iff.mpr someBreak
  cases tokens with
  | nil => cases isBreak
  | cons token rest =>
      exact ⟨token, rest, rfl, isBreak, skipBreaks_cons_of_eq isBreak rest⟩

/-- Whether a further branch of a conditional starts with a token of the given kind. -/
def TokenKind.startsBranch : TokenKind → Bool
  | .elifKeyword | .elseKeyword => true
  | _ => false

theorem TokenKind.startsBranch_iff {kind : TokenKind} :
    kind.startsBranch = true ↔ kind = .elifKeyword ∨ kind = .elseKeyword := by
  cases kind <;> simp [startsBranch]

/-- At most one line break is skipped in front of a further branch. -/
theorem skipBranchBreak_eq_of_branch
    {tokens : List Token}
    (few : leadingBreaks tokens ≤ 1)
    (isBranch : (nextKind (skipBreaks tokens)).startsBranch = true) :
    skipBranchBreak tokens = skipBreaks tokens := by
  cases tokens with
  | nil => rfl
  | cons token rest =>
      by_cases isBreak : token.kind = .newline
      · rw [leadingBreaks_cons_of_eq isBreak] at few
        have noMore : skipBreaks rest = rest := skipBreaks_of_leadingBreaks (by omega)
        rw [skipBreaks_cons_of_eq isBreak, noMore] at isBranch ⊢
        rw [skipBranchBreak_eq_ite]
        exact if_pos ⟨isBreak, TokenKind.startsBranch_iff.mp isBranch⟩
      · rw [skipBranchBreak_cons_of_ne isBreak, skipBreaks_cons_of_ne isBreak]

/-- If a further branch follows, at most one line break stands in front of it. -/
theorem atBranch_of_skipBranchBreak
    {tokens : List Token}
    (isBranch : (nextKind (skipBranchBreak tokens)).startsBranch = true) :
    leadingBreaks tokens ≤ 1 ∧ skipBranchBreak tokens = skipBreaks tokens := by
  cases tokens with
  | nil => exact ⟨Nat.zero_le 1, rfl⟩
  | cons token rest =>
      by_cases isBreak : token.kind = .newline
      · rw [skipBranchBreak_eq_ite] at isBranch ⊢
        split at isBranch
        case isTrue atBranch =>
          have notBreak : nextKind rest ≠ .newline := by
            rcases atBranch.2 with isElif | isElse
            · exact ne_of_eq_of_ne isElif nofun
            · exact ne_of_eq_of_ne isElse nofun
          rw [if_pos atBranch, leadingBreaks_cons_of_eq isBreak,
            skipBreaks_cons_of_eq isBreak, leadingBreaks_of_ne notBreak,
            skipBreaks_of_ne notBreak]
          exact ⟨Nat.le_refl 1, rfl⟩
        case isFalse =>
          rw [nextKind_cons, isBreak] at isBranch
          cases isBranch
      · rw [skipBranchBreak_cons_of_ne isBreak, skipBreaks_cons_of_ne isBreak,
          leadingBreaks_cons_of_ne isBreak]
        exact ⟨Nat.zero_le 1, rfl⟩

/-! ## Gaps between words -/

/-- Whether a line can end with a token of the given kind or in front of it. -/
def TokenKind.endsLine : TokenKind → Bool
  | .newline | .rightBrace | .endOfInput | .elifKeyword | .elseKeyword => true
  | _ => false

/-- That two numbers of line breaks between words of the given kinds mean the same. -/
inductive SameGap (before next : TokenKind) : Nat → Nat → Prop where
  | same :
      SameGap before next count count
  | behindBrace
      (isOpening : before = .leftBrace) :
      SameGap before next count other
  | closed
      (isClosing : next = .rightBrace ∨ next = .endOfInput) :
      SameGap before next count other
  | line
      (notBranch : next.startsBranch = false)
      (someBreak : 1 ≤ count)
      (otherBreak : 1 ≤ other) :
      SameGap before next count other
  /-- Behind a bare `return` a line break cannot be left out, since nothing else ends
  it in front of a branch. -/
  | branch
      (isBranch : next.startsBranch = true)
      (notReturn : before ≠ .returnKeyword)
      (few : count ≤ 1)
      (otherFew : other ≤ 1) :
      SameGap before next count other
  /-- No branch follows several line breaks. -/
  | apart
      (several : 2 ≤ count)
      (otherSeveral : 2 ≤ other) :
      SameGap before next count other

namespace SameGap

variable {before next : TokenKind} {count other : Nat}

theorem symm
    (gap : SameGap before next count other) :
    SameGap before next other count := by
  cases gap with
  | same => exact .same
  | behindBrace isOpening => exact .behindBrace isOpening
  | closed isClosing => exact .closed isClosing
  | line notBranch someBreak otherBreak => exact .line notBranch otherBreak someBreak
  | branch isBranch notReturn few otherFew =>
      exact .branch isBranch notReturn otherFew few
  | apart several otherSeveral => exact .apart otherSeveral several

/-- Where no line break is needed, there is none, or a line ends anyway. -/
theorem eq_zero_or
    (gap : SameGap before next count 0)
    (notOpening : before ≠ .leftBrace) :
    count = 0 ∨ (next = .rightBrace ∨ next = .endOfInput) ∨
      (next.startsBranch = true ∧ before ≠ .returnKeyword) := by
  cases gap with
  | same => exact .inl rfl
  | behindBrace isOpening => exact (notOpening isOpening).elim
  | closed isClosing => exact .inr (.inl isClosing)
  | line _ _ otherBreak => cases otherBreak
  | branch isBranch notReturn _ _ => exact .inr (.inr ⟨isBranch, notReturn⟩)
  | apart _ otherSeveral => cases otherSeveral

/-- In front of a branch, several line breaks are not as good as one. -/
theorem few
    (gap : SameGap before next count other)
    (notOpening : before ≠ .leftBrace)
    (isBranch : next.startsBranch = true)
    (isFew : count ≤ 1) :
    other ≤ 1 := by
  cases gap with
  | same => exact isFew
  | behindBrace isOpening => exact (notOpening isOpening).elim
  | closed isClosing => rcases isClosing with rfl | rfl <;> cases isBranch
  | line notBranch _ _ =>
      rw [isBranch] at notBranch
      cases notBranch
  | branch _ _ _ otherFew => exact otherFew
  | apart several _ => omega

end SameGap

/-- That two lists of tokens, both without line breaks at the front, have the same words
and gaps between them that mean the same. -/
inductive Rebroken : List Token → List Token → Prop where
  | nil :
      Rebroken [] []
  | cons
      (notBreak : word.kind ≠ .newline)
      (gap : SameGap word.kind (nextKind (skipBreaks tokens)) (leadingBreaks tokens)
        (leadingBreaks others))
      (later : Rebroken (skipBreaks tokens) (skipBreaks others)) :
      Rebroken (word :: tokens) (word :: others)

/-- That two lists of tokens go on alike behind a word of the given kind. -/
structure SameTrail (before : TokenKind) (tokens others : List Token) : Prop where
  gap : SameGap before (nextKind (skipBreaks tokens)) (leadingBreaks tokens)
    (leadingBreaks others)
  later : Rebroken (skipBreaks tokens) (skipBreaks others)

/-- That two lists of tokens go on alike behind a part of a program, which never ends
with an opening brace. -/
def SameRest (tokens others : List Token) : Prop :=
  ∃ before, before ≠ .leftBrace ∧ SameTrail before tokens others

namespace Rebroken

variable {word : Token} {tokens others : List Token}

theorem nextKind_eq (same : Rebroken tokens others) :
    nextKind others = nextKind tokens := by
  cases same <;> rfl

theorem symm (same : Rebroken tokens others) :
    Rebroken others tokens := by
  induction same with
  | nil => exact .nil
  | cons notBreak gap later inductionHypothesis =>
      refine .cons notBreak ?_ inductionHypothesis
      rw [later.nextKind_eq]
      exact gap.symm

theorem refl (tokens : List Token) :
    Rebroken (skipBreaks tokens) (skipBreaks tokens) := by
  induction tokens with
  | nil => exact .nil
  | cons token rest inductionHypothesis =>
      by_cases isBreak : token.kind = .newline
      · rw [skipBreaks_cons_of_eq isBreak]
        exact inductionHypothesis
      · rw [skipBreaks_cons_of_ne isBreak]
        exact .cons isBreak .same inductionHypothesis

/-- The same tokens may stand in front. -/
theorem behind
    (same : Rebroken (word :: tokens) (word :: others))
    (front : List Token) :
    Rebroken (skipBreaks (front ++ word :: tokens))
      (skipBreaks (front ++ word :: others)) := by
  have notBreak : word.kind ≠ .newline := by
    cases same with
    | cons notBreak _ _ => exact notBreak
  induction front with
  | nil =>
      rw [List.nil_append, List.nil_append, skipBreaks_cons_of_ne notBreak,
        skipBreaks_cons_of_ne notBreak]
      exact same
  | cons first front inductionHypothesis =>
      rw [List.cons_append, List.cons_append]
      by_cases isBreak : first.kind = .newline
      · rw [skipBreaks_cons_of_eq isBreak, skipBreaks_cons_of_eq isBreak]
        exact inductionHypothesis
      · rw [skipBreaks_cons_of_ne isBreak, skipBreaks_cons_of_ne isBreak]
        refine .cons isBreak ?_ inductionHypothesis
        rw [leadingBreaks_append_word notBreak, leadingBreaks_append_word notBreak]
        exact .same

/-- What stands behind the first word. -/
theorem trail (same : Rebroken (word :: tokens) others) :
    ∃ later, others = word :: later ∧ SameTrail word.kind tokens later := by
  cases same with
  | cons notBreak gap later => exact ⟨_, rfl, gap, later⟩

end Rebroken

/-! ## Going on behind a word -/

theorem TokenKind.not_endsLine_of_startsDeclaration
    {kind : TokenKind}
    (starts : kind.startsDeclaration = true) :
    kind.endsLine = false := by
  cases kind <;> first | rfl | cases starts

theorem TokenKind.not_extendsExpression_of_endsLine
    {kind : TokenKind}
    (endsLine : kind.endsLine = true) :
    kind.extendsExpression = false := by
  cases kind <;> first | rfl | cases endsLine

theorem TokenKind.endsLine_of_closing
    {kind : TokenKind}
    (isClosing : kind = .rightBrace ∨ kind = .endOfInput) :
    kind.endsLine = true := by
  rcases isClosing with rfl | rfl <;> rfl

theorem TokenKind.endsLine_of_startsBranch
    {kind : TokenKind}
    (isBranch : kind.startsBranch = true) :
    kind.endsLine = true := by
  cases kind <;> first | rfl | cases isBranch

/-- Inside of a function there is a block, so a brace closes a `return` there. -/
def Surroundings.Sound (around : Surroundings) : Prop :=
  around.inFunction = true → around.inBlock = true

namespace SameTrail

variable {before : TokenKind} {tokens others : List Token}

/-- If one list starts with a word, so does the other one, unless a line ends. -/
theorem leadingBreaks_eq_zero_or
    (trail : SameTrail before tokens others)
    (notOpening : before ≠ .leftBrace)
    (noBreak : leadingBreaks others = 0) :
    nextKind others = nextKind (skipBreaks tokens) ∧
      (leadingBreaks tokens = 0 ∨
        (nextKind others = .rightBrace ∨ nextKind others = .endOfInput) ∨
        ((nextKind others).startsBranch = true ∧ before ≠ .returnKeyword)) := by
  obtain ⟨gap, later⟩ := trail
  have sameKind := later.nextKind_eq
  rw [skipBreaks_of_leadingBreaks noBreak] at sameKind
  rw [noBreak, ← sameKind] at gap
  exact ⟨sameKind, gap.eq_zero_or notOpening⟩

theorem symm (trail : SameTrail before tokens others) :
    SameTrail before others tokens := by
  obtain ⟨gap, later⟩ := trail
  refine ⟨?_, later.symm⟩
  rw [later.nextKind_eq]
  exact gap.symm

/-- No line break can be put in front of a word within a statement. -/
theorem rebroken
    (trail : SameTrail before tokens others)
    (notOpening : before ≠ .leftBrace)
    (staysInLine : (nextKind tokens).endsLine = false) :
    Rebroken tokens others := by
  have noBreak : leadingBreaks tokens = 0 := by
    apply leadingBreaks_of_ne
    intro isBreak
    rw [isBreak] at staysInLine
    cases staysInLine
  have noOther : leadingBreaks others = 0 := by
    rcases (trail.symm.leadingBreaks_eq_zero_or notOpening noBreak).2 with
      noOther | isClosing | ⟨isBranch, _⟩
    · exact noOther
    · rw [TokenKind.endsLine_of_closing isClosing] at staysInLine
      cases staysInLine
    · rw [TokenKind.endsLine_of_startsBranch isBranch] at staysInLine
      cases staysInLine
  have later := trail.later
  rwa [skipBreaks_of_leadingBreaks noBreak, skipBreaks_of_leadingBreaks noOther] at later

/-- The next token is the same, or a line ends. -/
theorem nextKind_eq_or
    (trail : SameTrail before tokens others)
    (notOpening : before ≠ .leftBrace) :
    nextKind others = nextKind tokens ∨ (nextKind others).endsLine = true := by
  rcases Nat.eq_zero_or_pos (leadingBreaks others) with noOther | someOther
  · obtain ⟨sameKind, noBreak | isClosing | ⟨isBranch, _⟩⟩ :=
      trail.leadingBreaks_eq_zero_or notOpening noOther
    · rw [skipBreaks_of_leadingBreaks noBreak] at sameKind
      exact .inl sameKind
    · exact .inr (TokenKind.endsLine_of_closing isClosing)
    · exact .inr (TokenKind.endsLine_of_startsBranch isBranch)
  · rw [nextKind_eq_newline_iff.mpr someOther]
    exact .inr rfl

/-- Behind a bare `return`, whatever closes it in one list closes it in the other one. -/
theorem closedBy
    {around : Surroundings}
    (trail : SameTrail .returnKeyword tokens others)
    (isSound : around.inBlock = true)
    (isClosed : around.closedBy (nextKind tokens) = true) :
    around.closedBy (nextKind others) = true := by
  rcases Nat.eq_zero_or_pos (leadingBreaks others) with noOther | someOther
  · obtain ⟨sameKind, noBreak | isClosing | ⟨_, notReturn⟩⟩ :=
      trail.leadingBreaks_eq_zero_or nofun noOther
    · rw [skipBreaks_of_leadingBreaks noBreak] at sameKind
      rwa [sameKind]
    · rcases isClosing with isBrace | isEnd
      · rw [isBrace]
        exact isSound
      · rw [isEnd]
        rfl
    · exact (notReturn rfl).elim
  · rw [nextKind_eq_newline_iff.mpr someOther]
    rfl

end SameTrail

namespace SameRest

variable {tokens others : List Token}

theorem rebroken
    (same : SameRest tokens others)
    (staysInLine : (nextKind tokens).endsLine = false) :
    Rebroken tokens others := by
  obtain ⟨_, notOpening, trail⟩ := same
  exact trail.rebroken notOpening staysInLine

/-- Behind an expression, what goes on with it in neither list goes on in the other. -/
theorem follows
    {result : Expression}
    (same : SameRest tokens others) :
    (ExpressionPart.expression result).Follows tokens others := by
  obtain ⟨_, notOpening, trail⟩ := same
  exact (trail.nextKind_eq_or notOpening).imp_right
    TokenKind.not_extendsExpression_of_endsLine

/-- A further branch follows in both lists or in none. -/
theorem skipBranchBreak
    (same : SameRest tokens others)
    (isBranch : (nextKind (Scriptlet.skipBranchBreak tokens)).startsBranch = true) :
    Rebroken (Scriptlet.skipBranchBreak tokens) (Scriptlet.skipBranchBreak others) := by
  obtain ⟨_, notOpening, gap, later⟩ := same
  obtain ⟨few, isSkipped⟩ := atBranch_of_skipBranchBreak isBranch
  rw [isSkipped] at isBranch ⊢
  have otherFew := gap.few notOpening isBranch few
  rwa [skipBranchBreak_eq_of_branch otherFew (later.nextKind_eq ▸ isBranch)]

theorem symm (same : SameRest tokens others) :
    SameRest others tokens := by
  obtain ⟨before, notOpening, trail⟩ := same
  exact ⟨before, notOpening, trail.symm⟩

/-- The keyword of a further branch, and what follows it. -/
theorem branch
    {keyword : Token}
    {afterKeyword : List Token}
    (same : SameRest tokens others)
    (atBranch : Scriptlet.skipBranchBreak tokens = keyword :: afterKeyword)
    (isBranch : keyword.kind = .elifKeyword ∨ keyword.kind = .elseKeyword) :
    ∃ later, Scriptlet.skipBranchBreak others = keyword :: later ∧
      SameRest afterKeyword later := by
  have branches := same.skipBranchBreak (by
    rw [atBranch]
    exact TokenKind.startsBranch_iff.mpr isBranch)
  rw [atBranch] at branches
  obtain ⟨later, isOther, trail⟩ := branches.trail
  have notOpening : keyword.kind ≠ .leftBrace := by
    rcases isBranch with isKind | isKind <;> rw [isKind] <;> nofun
  exact ⟨later, isOther, _, notOpening, trail⟩

/-- No further branch follows in one list if none follows in the other one. -/
theorem not_atBranch
    {keyword : TokenKind}
    (same : SameRest tokens others)
    (isBranch : keyword.startsBranch = true)
    (notBranch : nextKind (Scriptlet.skipBranchBreak tokens) ≠ keyword) :
    nextKind (Scriptlet.skipBranchBreak others) ≠ keyword := by
  intro isKeyword
  have branches := same.symm.skipBranchBreak (isKeyword ▸ isBranch)
  exact notBranch (branches.nextKind_eq.trans isKeyword)

end SameRest

/-- At words, two lists go on alike if they are alike. -/
theorem Rebroken.sameRest
    {tokens others : List Token}
    (same : Rebroken tokens others) :
    SameRest tokens others := by
  have notBreak : nextKind tokens ≠ .newline := by
    cases same with
    | nil => exact nofun
    | cons notBreak _ _ => exact notBreak
  have otherNotBreak : nextKind others ≠ .newline := by
    rw [same.nextKind_eq]
    exact notBreak
  -- Any kind but that of an opening brace will do, as there is no gap.
  refine ⟨.newline, nofun, ?_, ?_⟩
  · rw [leadingBreaks_of_ne notBreak, leadingBreaks_of_ne otherNotBreak]
    exact .same
  · rwa [skipBreaks_of_ne notBreak, skipBreaks_of_ne otherNotBreak]

/-! ## Words within a line -/

/-- Whether a token of the given kind is neither a brace nor a `return`, and no line can
end with it or in front of it. -/
def TokenKind.isInner : TokenKind → Bool
  | .newline | .endOfInput | .leftBrace | .rightBrace | .elifKeyword | .elseKeyword
  | .returnKeyword => false
  | _ => true

/-- That all tokens in front of the rest are such words within a line. -/
def WithinLine (tokens rest : List Token) : Prop :=
  ∃ used, tokens = used ++ rest ∧ ∀ token ∈ used, token.kind.isInner = true

namespace WithinLine

theorem refl (tokens : List Token) :
    WithinLine tokens tokens :=
  ⟨[], rfl, nofun⟩

theorem cons
    {token : Token}
    {kind : TokenKind}
    {tokens rest : List Token}
    (isKind : token.kind = kind)
    (isInner : kind.isInner = true)
    (others : WithinLine tokens rest) :
    WithinLine (token :: tokens) rest := by
  obtain ⟨used, rfl, areInner⟩ := others
  refine ⟨token :: used, rfl, List.forall_mem_cons.mpr ⟨?_, areInner⟩⟩
  rw [isKind]
  exact isInner

theorem trans
    {tokens middle rest : List Token}
    (first : WithinLine tokens middle)
    (second : WithinLine middle rest) :
    WithinLine tokens rest := by
  obtain ⟨used, rfl, areInner⟩ := first
  obtain ⟨more, rfl, moreInner⟩ := second
  exact ⟨used ++ more, (List.append_assoc used more rest).symm,
    List.forall_mem_append.mpr ⟨areInner, moreInner⟩⟩

end WithinLine

theorem TokenKind.isInner_of_level
    {kind : TokenKind}
    {level : Nat}
    (hasLevel : kind.level? = some level) :
    kind.isInner = true := by
  cases kind <;> first | rfl | cases hasLevel

theorem TokenKind.isInner_of_startsExpression
    {kind : TokenKind}
    (starts : kind.startsExpression = true) :
    kind.isInner = true := by
  cases kind <;> first | rfl | cases starts

/-- An expression stays within a line. -/
theorem ExpressionPart.ReadFrom.withinLine
    {part : ExpressionPart}
    {tokens rest : List Token}
    (reads : part.ReadFrom tokens rest) :
    WithinLine tokens rest := by
  induction reads with
  | plain _ _ target => exact target
  | assign _ isEqual _ target assigned => exact target.trans (.cons isEqual rfl assigned)
  | setAttribute _ isEqual _ target assigned =>
      exact target.trans (.cons isEqual rfl assigned)
  | operands _ _ _ first tail => exact first.trans tail
  | operand _ _ operand => exact operand
  | noOperator => exact .refl _
  | operator hasLevel _ _ second tail =>
      exact .cons rfl (TokenKind.isInner_of_level hasLevel) (second.trans tail)
  | sign isUnary _ operand =>
      have starts := startsExpression_of_isUnary isUnary
      exact .cons rfl (TokenKind.isInner_of_startsExpression starts) operand
  | noSign _ _ _ first tail => exact first.trans tail
  | noCall => exact .refl _
  | getAttribute isDot isName _ tail =>
      exact .cons isDot rfl (.cons isName rfl tail)
  | call isOpening _ isClosing _ given tail =>
      exact .cons isOpening rfl (given.trans (.cons isClosing rfl tail))
  | noArguments => exact .refl _
  | someArguments _ given => exact given
  | lastArgument _ _ last => exact last
  | moreArguments _ isComma _ first others => exact first.trans (.cons isComma rfl others)
  | grouping isOpening _ isClosing content =>
      exact .cons isOpening rfl (content.trans (.cons isClosing rfl (.refl _)))
  | atom isAtom =>
      have starts := startsExpression_of_atom isAtom
      exact .cons rfl (TokenKind.isInner_of_startsExpression starts) (.refl _)

theorem NamesReadFrom.withinLine
    {names : List String}
    {tokens rest : List Token}
    (reads : NamesReadFrom names tokens rest) :
    WithinLine tokens rest := by
  induction reads with
  | last isName _ => exact .cons isName rfl (.refl _)
  | more isName isComma _ others => exact .cons isName rfl (.cons isComma rfl others)

theorem ParametersReadFrom.withinLine
    {names : List String}
    {tokens rest : List Token}
    (reads : ParametersReadFrom names tokens rest) :
    WithinLine tokens rest := by
  cases reads with
  | none isOpening isClosing => exact .cons isOpening rfl (.cons isClosing rfl (.refl _))
  | some isOpening given isClosing =>
      exact .cons isOpening rfl (given.withinLine.trans (.cons isClosing rfl (.refl _)))

theorem TokenKind.ne_of_isInner
    {kind : TokenKind}
    (isInner : kind.isInner = true)
    (other : TokenKind)
    (never : other.isInner = false) :
    kind ≠ other := by
  rintro rfl
  rw [isInner] at never
  cases never

/-- A word that starts no new line stands at the front of both lists. -/
theorem SameRest.trail
    {word : Token}
    {kind : TokenKind}
    {tokens others : List Token}
    (same : SameRest (word :: tokens) others)
    (isKind : word.kind = kind)
    (staysInLine : kind.endsLine = false) :
    ∃ later, others = word :: later ∧ SameTrail kind tokens later := by
  subst isKind
  exact (same.rebroken staysInLine).trail

/-- The words within a line stand in both lists, without line breaks among them. -/
theorem SameRest.words
    {used rest others : List Token}
    (same : SameRest (used ++ rest) others)
    (areInner : ∀ token ∈ used, token.kind.isInner = true) :
    ∃ left, others = used ++ left ∧ SameRest rest left := by
  induction used generalizing others with
  | nil => exact ⟨others, rfl, same⟩
  | cons word used inductionHypothesis =>
      obtain ⟨wordInner, othersInner⟩ := List.forall_mem_cons.mp areInner
      have staysInLine : word.kind.endsLine = false := by
        cases kind : word.kind <;> rw [kind] at wordInner <;>
          first | rfl | cases wordInner
      obtain ⟨later, rfl, trail⟩ := same.trail rfl staysInLine
      have notOpening := TokenKind.ne_of_isInner wordInner .leftBrace rfl
      obtain ⟨left, rfl, sameRest⟩ :=
        inductionHypothesis ⟨_, notOpening, trail⟩ othersInner
      exact ⟨left, rfl, sameRest⟩

theorem SameRest.word
    {word : Token}
    {kind : TokenKind}
    {rest others : List Token}
    (same : SameRest (word :: rest) others)
    (isKind : word.kind = kind)
    (isInner : kind.isInner = true) :
    ∃ left, others = word :: left ∧ SameRest rest left :=
  SameRest.words (List.singleton_append.symm ▸ same)
    (List.forall_mem_singleton.mpr (isKind ▸ isInner))

/-- An expression is read from the same words in both lists. -/
theorem ExpressionPart.ReadFrom.rebroken
    {result : Expression}
    {tokens rest others : List Token}
    (reads : (ExpressionPart.expression result).ReadFrom tokens rest)
    (same : SameRest tokens others) :
    ∃ left, (ExpressionPart.expression result).ReadFrom others left ∧
      SameRest rest left := by
  obtain ⟨used, rfl, areInner⟩ := reads.withinLine
  obtain ⟨left, rfl, sameRest⟩ := same.words areInner
  exact ⟨left, reads.replaced left sameRest.follows, sameRest⟩

/-- The names in the parentheses of a function are read from the same words. -/
theorem ParametersReadFrom.rebroken
    {names : List String}
    {tokens rest others : List Token}
    (reads : ParametersReadFrom names tokens rest)
    (same : SameRest tokens others) :
    ∃ left, ParametersReadFrom names others left ∧ SameRest rest left := by
  obtain ⟨used, rfl, areInner⟩ := reads.withinLine
  obtain ⟨left, rfl, sameRest⟩ := same.words areInner
  exact ⟨left, reads.replaced left, sameRest⟩

/-! ## Statements -/

/-- Behind line breaks, a list of statements ends, or another one starts. -/
theorem StatementPart.ReadFrom.endedBy_or_starts
    {around : Surroundings}
    {results : List Statement}
    {tokens rest : List Token}
    (reads : (statements around results).ReadFrom tokens rest) :
    around.endedBy (nextKind (skipBreaks tokens)) = true ∨
      (nextKind (skipBreaks tokens)).startsDeclaration = true := by
  cases reads with
  | noStatement isEnded => exact .inl isEnded
  | moreStatements first _ _ => exact .inr first.startsWith

/-- A statement ends in both lists if further statements, or the end of the list that it
stands in, follow. -/
theorem EndsStatement.rebroken
    {around : Surroundings}
    {results : List Statement}
    {tokens next rest others : List Token}
    (ends : EndsStatement around tokens next)
    (following : (StatementPart.statements around results).ReadFrom next rest)
    (same : SameRest tokens others) :
    ∃ left, EndsStatement around others left ∧
      Rebroken (skipBreaks next) (skipBreaks left) := by
  obtain ⟨_, notOpening, trail⟩ := same
  have sameSkipped : skipBreaks next = skipBreaks tokens := by
    cases ends with
    | newline isBreak => exact (skipBreaks_cons_of_eq isBreak _).symm
    | closed _ _ => rfl
  have later := trail.later
  rw [← sameSkipped] at later
  rcases Nat.eq_zero_or_pos (leadingBreaks others) with noOther | someOther
  · have notBreak : nextKind others ≠ .newline := by
      intro isBreak
      have someOther := nextKind_eq_newline_iff.mp isBreak
      omega
    obtain ⟨sameKind, isClosed⟩ := trail.leadingBreaks_eq_zero_or notOpening noOther
    refine ⟨others, .closed notBreak ?_, later⟩
    -- Neither list has a statement in front of what ends a line here, so the list of
    -- statements ends.
    have closedOf (endsLine : (nextKind others).endsLine = true) :
        around.closedBy (nextKind others) = true := by
      rw [sameKind, ← sameSkipped] at endsLine ⊢
      rcases following.endedBy_or_starts with isEnded | starts
      · exact (Surroundings.closedBy_of_endedBy isEnded).2
      · rw [TokenKind.not_endsLine_of_startsDeclaration starts] at endsLine
        cases endsLine
    rcases isClosed with noBreak | isClosing | ⟨isBranch, _⟩
    · rw [skipBreaks_of_leadingBreaks noBreak] at sameKind
      cases ends with
      | newline isBreak => exact (notBreak (sameKind.trans isBreak)).elim
      | closed _ isClosed => rwa [sameKind]
    · exact closedOf (TokenKind.endsLine_of_closing isClosing)
    · exact closedOf (TokenKind.endsLine_of_startsBranch isBranch)
  · obtain ⟨lineBreak, left, rfl, isBreak, isSkipped⟩ :=
      exists_of_leadingBreaks someOther
    rw [isSkipped] at later
    exact ⟨left, .newline isBreak, later⟩

namespace StatementPart

/-- That a part can be read from other tokens in place of those it is read from. -/
def Rebreaks (tokens others : List Token) : StatementPart → Prop
  | .statements _ _ => Rebroken (skipBreaks tokens) (skipBreaks others)
  | _ => SameRest tokens others

/-- That what is left behind a part goes on alike. -/
def Leaves (rest left : List Token) : StatementPart → Prop
  | .statements _ _ => Rebroken rest left
  | _ => SameRest rest left

/-- That a brace closes whatever stands inside of a function, around a part. -/
def Sound : StatementPart → Prop
  | .declaration around _ | .statement around _ | .branches around _ _
  | .statements around _ => around.Sound
  | .block _ _ _ => True

/-- A part of a program is read from the same words, whatever line breaks that mean the
same stand between them. -/
theorem ReadFrom.rebroken
    {part : StatementPart}
    {tokens rest others : List Token}
    (reads : part.ReadFrom tokens rest)
    (isSound : part.Sound)
    (same : part.Rebreaks tokens others) :
    ∃ left, part.ReadFrom others left ∧ part.Leaves rest left := by
  induction reads generalizing others with
  | @variableDeclaration _ _ _ _ keyword _ _ isVariable isName isEqual value =>
      obtain ⟨kind, isKind, isInner⟩ :
          ∃ kind, keyword.kind = kind ∧ kind.isInner = true := by
        rcases isVariable with isVar | isConst
        · exact ⟨_, isVar, rfl⟩
        · exact ⟨_, isConst, rfl⟩
      obtain ⟨_, rfl, sameName⟩ := SameRest.word same isKind isInner
      obtain ⟨_, rfl, sameEquals⟩ := sameName.word isName rfl
      obtain ⟨_, rfl, sameValue⟩ := sameEquals.word isEqual rfl
      obtain ⟨left, readsValue, sameRest⟩ := value.rebroken sameValue
      exact ⟨left, .variableDeclaration isVariable isName isEqual readsValue, sameRest⟩
  | functionDeclaration isFunction isName parameters _ body =>
      obtain ⟨_, rfl, sameName⟩ := SameRest.word same isFunction rfl
      obtain ⟨_, rfl, sameParameters⟩ := sameName.word isName rfl
      obtain ⟨_, readsParameters, sameBody⟩ := parameters.rebroken sameParameters
      obtain ⟨left, readsBody, sameRest⟩ := body trivial sameBody
      exact ⟨left, .functionDeclaration isFunction isName readsParameters readsBody,
        sameRest⟩
  | simple _ statement =>
      obtain ⟨left, reads, sameRest⟩ := statement isSound same
      exact ⟨left, .simple reads, sameRest⟩
  | block _ block =>
      obtain ⟨left, reads, sameRest⟩ := block trivial same
      exact ⟨left, .block reads, sameRest⟩
  | whileLoop isWhile test _ repeated =>
      obtain ⟨later, rfl, sameTest⟩ := SameRest.word same isWhile rfl
      obtain ⟨_, readsTest, sameBody⟩ := test.rebroken sameTest
      obtain ⟨left, readsBody, sameRest⟩ := repeated isSound sameBody
      exact ⟨left, .whileLoop isWhile readsTest readsBody, sameRest⟩
  | conditional isIf test _ _ chosen more =>
      obtain ⟨later, rfl, sameTest⟩ := SameRest.word same isIf rfl
      obtain ⟨_, readsTest, sameBody⟩ := test.rebroken sameTest
      obtain ⟨_, readsBody, sameMore⟩ := chosen isSound sameBody
      obtain ⟨left, readsMore, sameRest⟩ := more isSound sameMore
      exact ⟨left, .conditional isIf readsTest readsBody readsMore, sameRest⟩
  | breakLoop isBreak inLoop =>
      obtain ⟨left, rfl, sameRest⟩ := SameRest.word same isBreak rfl
      exact ⟨left, .breakLoop isBreak inLoop, sameRest⟩
  | continueLoop isContinue inLoop =>
      obtain ⟨left, rfl, sameRest⟩ := SameRest.word same isContinue rfl
      exact ⟨left, .continueLoop isContinue inLoop, sameRest⟩
  | returnNothing isReturn inFunction isClosed =>
      obtain ⟨left, rfl, trail⟩ := SameRest.trail same isReturn rfl
      exact ⟨left,
        .returnNothing isReturn inFunction (trail.closedBy (isSound inFunction) isClosed),
        ⟨.returnKeyword, nofun, trail⟩⟩
  | returnValue isReturn inFunction result =>
      obtain ⟨later, rfl, trail⟩ := SameRest.trail same isReturn rfl
      obtain ⟨left, readsValue, sameRest⟩ :=
        result.rebroken ⟨.returnKeyword, nofun, trail⟩
      exact ⟨left, .returnValue isReturn inFunction readsValue, sameRest⟩
  | expression inner =>
      obtain ⟨left, reads, sameRest⟩ := inner.rebroken same
      exact ⟨left, .expression reads, sameRest⟩
  | elifBranch atBranch isElif test _ _ chosen more =>
      obtain ⟨later, isOther, sameTest⟩ := SameRest.branch same atBranch (.inl isElif)
      obtain ⟨_, readsTest, sameBody⟩ := test.rebroken sameTest
      obtain ⟨_, readsBody, sameMore⟩ := chosen isSound sameBody
      obtain ⟨left, readsMore, sameRest⟩ := more isSound sameMore
      exact ⟨left, .elifBranch isOther isElif readsTest readsBody readsMore, sameRest⟩
  | elseBranch atBranch isElse _ chosen =>
      obtain ⟨later, isOther, sameBody⟩ := SameRest.branch same atBranch (.inr isElse)
      obtain ⟨left, readsBody, sameRest⟩ := chosen isSound sameBody
      exact ⟨left, .elseBranch isOther isElse readsBody, sameRest⟩
  | noBranch notElif notElse =>
      exact ⟨others, .noBranch (SameRest.not_atBranch same rfl notElif)
        (SameRest.not_atBranch same rfl notElse), same⟩
  | braces isOpening _ isClosing content =>
      obtain ⟨later, rfl, trail⟩ := SameRest.trail same isOpening rfl
      obtain ⟨_, reads, sameClosing⟩ := content (fun _ => rfl) trail.later
      obtain ⟨left, rfl, closingTrail⟩ := Rebroken.trail sameClosing
      rw [isClosing] at closingTrail
      exact ⟨left, .braces isOpening reads isClosing, ⟨.rightBrace, nofun, closingTrail⟩⟩
  | noStatement isEnded =>
      exact ⟨_, .noStatement (same.nextKind_eq ▸ isEnded), same⟩
  | moreStatements _ ends following first later =>
      obtain ⟨_, readsFirst, sameEnd⟩ := first isSound (Rebroken.sameRest same)
      obtain ⟨_, endsOther, sameLater⟩ := ends.rebroken following sameEnd
      obtain ⟨left, readsLater, sameRest⟩ := later isSound sameLater
      exact ⟨left, .moreStatements readsFirst endsOther readsLater, sameRest⟩

end StatementPart

end Scriptlet
