import Scriptlet.Proofs.Grammar.WrittenPrograms

namespace Scriptlet

/-!
# What stands behind a part

A part of a program is read from the tokens that it consumes, and of the tokens
behind them only the kind of the first one matters; for conditionals, whose branches
may start the next line, also the kind of the token behind a line break.  So the
tokens behind a part may be replaced by others that start alike, or by others that
cannot go on with the part.
-/

theorem nextKind_append
    {used : List Token}
    (notEmpty : used ≠ [])
    (rest other : List Token) :
    nextKind (used ++ other) = nextKind (used ++ rest) := by
  cases used with
  | nil => exact (notEmpty rfl).elim
  | cons token used => rfl

/-! ## Expressions -/

namespace ExpressionPart

/-- Whether no token of the given kind goes on with a part. -/
def ClosedBy : ExpressionPart → TokenKind → Prop
  | .arguments _, kind => kind = .rightParen
  | .argumentList _, kind => kind = .rightParen
  | _, kind => kind.extendsExpression = false

/-- Whether other tokens may stand behind a part than those that do. -/
def Follows (part : ExpressionPart) (rest other : List Token) : Prop :=
  nextKind other = nextKind rest ∨ part.ClosedBy (nextKind other)

theorem Follows.append
    {part : ExpressionPart}
    {rest other : List Token}
    (follows : part.Follows rest other)
    (used : List Token) :
    part.Follows (used ++ rest) (used ++ other) := by
  cases used with
  | nil => exact follows
  | cons token used => exact .inl rfl

/-- What holds of the kind behind a part still holds for other tokens if it holds of
all kinds that close the part. -/
theorem Follows.kind
    {part : ExpressionPart}
    {rest other : List Token}
    {p : TokenKind → Prop}
    (follows : part.Follows rest other)
    (before : p (nextKind rest))
    (closed : ∀ kind, part.ClosedBy kind → p kind) :
    p (nextKind other) := by
  rcases follows with same | isClosed
  · rw [same]
    exact before
  · exact closed _ isClosed

theorem ReadFrom.ne_nil
    {part : ExpressionPart}
    {used rest : List Token}
    (read : part.ReadFrom (used ++ rest) rest)
    (solid : part.isSolid = true) :
    used ≠ [] := by
  rintro rfl
  exact Nat.lt_irrefl _ (read.length_lt solid)

/-- A part of an expression is read from the tokens that it consumes, whatever
follows them. -/
theorem ReadFrom.replaceable
    {part : ExpressionPart}
    {tokens rest : List Token}
    (read : part.ReadFrom tokens rest) :
    ∃ used, tokens = used ++ rest ∧
      ∀ other, part.Follows rest other → part.ReadFrom (used ++ other) other := by
  induction read with
  | plain _ notAssigned target =>
      obtain ⟨used, rfl, reads⟩ := target
      refine ⟨used, rfl, fun other follows => .plain (reads other follows) ?_⟩
      refine follows.kind (p := fun kind => kind = .equal → _) notAssigned ?_
      rintro kind isClosed rfl
      cases isClosed
  | assign _ isEqual _ target assigned =>
      obtain ⟨used, rfl, readsTarget⟩ := target
      obtain ⟨more, rfl, reads⟩ := assigned
      refine ⟨used ++ _ :: more, (List.append_assoc _ (_ :: more) _).symm,
        fun other follows => ?_⟩
      simpa using
        ReadFrom.assign (readsTarget (_ :: (more ++ other)) (.inl rfl)) isEqual
          (reads other follows)
  | setAttribute _ isEqual _ target assigned =>
      obtain ⟨used, rfl, readsTarget⟩ := target
      obtain ⟨more, rfl, reads⟩ := assigned
      refine ⟨used ++ _ :: more, (List.append_assoc _ (_ :: more) _).symm,
        fun other follows => ?_⟩
      simpa using
        ReadFrom.setAttribute (readsTarget (_ :: (more ++ other)) (.inl rfl))
          isEqual (reads other follows)
  | operands isBinary _ _ first tail =>
      obtain ⟨used, rfl, readsFirst⟩ := first
      obtain ⟨more, rfl, readsTail⟩ := tail
      refine ⟨used ++ more, by simp, fun other follows => ?_⟩
      rw [List.append_assoc]
      exact .operands isBinary
        (readsFirst (more ++ other) (follows.append more)) (readsTail other follows)
  | operand notBinary _ operand =>
      obtain ⟨used, rfl, reads⟩ := operand
      exact ⟨used, rfl, fun other follows => .operand notBinary (reads other follows)⟩
  | noOperator otherLevel =>
      refine ⟨[], rfl, fun other follows => .noOperator ?_⟩
      refine follows.kind (p := fun kind => kind.level? ≠ some _) otherLevel ?_
      intro kind isClosed hasLevel
      simp [ClosedBy, TokenKind.extendsExpression, hasLevel] at isClosed
  | operator hasLevel _ _ second tail =>
      obtain ⟨used, rfl, readsSecond⟩ := second
      obtain ⟨more, rfl, readsTail⟩ := tail
      refine ⟨_ :: (used ++ more), (List.append_assoc (_ :: used) more _).symm,
        fun other follows => ?_⟩
      rw [List.cons_append, List.append_assoc]
      exact .operator hasLevel
        (readsSecond (more ++ other) (follows.append more)) (readsTail other follows)
  | sign isUnary _ operand =>
      obtain ⟨used, rfl, reads⟩ := operand
      exact ⟨_ :: used, rfl, fun other follows => .sign isUnary (reads other follows)⟩
  | noSign notUnary firstRead tailRead first tail =>
      obtain ⟨used, rfl, readsFirst⟩ := first
      obtain ⟨more, rfl, readsTail⟩ := tail
      refine ⟨used ++ more, by simp, fun other follows => ?_⟩
      rw [nextKind_append (firstRead.ne_nil rfl) (more ++ other)] at notUnary
      rw [List.append_assoc]
      exact .noSign notUnary
        (readsFirst (more ++ other) (follows.append more)) (readsTail other follows)
  | noCall notDot notParen =>
      refine ⟨[], rfl, fun other follows => ?_⟩
      have neither := follows.kind
        (p := fun kind => kind ≠ .dot ∧ kind ≠ .leftParen) ⟨notDot, notParen⟩ (by
          intro kind isClosed
          constructor <;> rintro rfl <;> cases isClosed)
      exact .noCall neither.1 neither.2
  | getAttribute isDot isName _ tail =>
      obtain ⟨used, rfl, reads⟩ := tail
      exact ⟨_ :: _ :: used, rfl,
        fun other follows => .getAttribute isDot isName (reads other follows)⟩
  | call isOpening _ isClosing _ given tail =>
      obtain ⟨used, rfl, readsGiven⟩ := given
      obtain ⟨more, rfl, readsTail⟩ := tail
      refine ⟨_ :: (used ++ _ :: more),
        (List.append_assoc (_ :: used) (_ :: more) _).symm,
        fun other follows => ?_⟩
      simpa using
        ReadFrom.call isOpening (readsGiven (_ :: (more ++ other)) (.inl rfl))
          isClosing (readsTail other follows)
  | noArguments atClosing =>
      exact ⟨[], rfl, fun other follows => .noArguments
        (follows.kind (p := fun kind => kind = .rightParen) atClosing
          fun _ isClosed => isClosed)⟩
  | someArguments _ given =>
      obtain ⟨used, rfl, reads⟩ := given
      exact ⟨used, rfl, fun other follows => .someArguments (reads other follows)⟩
  | lastArgument _ notComma last =>
      obtain ⟨used, rfl, reads⟩ := last
      refine ⟨used, rfl, fun other follows => .lastArgument (reads other ?_) ?_⟩
      · exact follows.imp_right fun isClosed : nextKind other = .rightParen =>
          isClosed ▸ rfl
      · refine follows.kind (p := fun kind => kind ≠ .comma) notComma ?_
        rintro kind isClosed rfl
        cases isClosed
  | moreArguments _ isComma _ first others =>
      obtain ⟨used, rfl, readsFirst⟩ := first
      obtain ⟨more, rfl, readsOthers⟩ := others
      refine ⟨used ++ _ :: more, (List.append_assoc _ (_ :: more) _).symm,
        fun other follows => ?_⟩
      simpa using
        ReadFrom.moreArguments (readsFirst (_ :: (more ++ other)) (.inl rfl))
          isComma (readsOthers other follows)
  | grouping isOpening _ isClosing content =>
      obtain ⟨used, rfl, reads⟩ := content
      refine ⟨_ :: (used ++ [_]), (List.append_assoc (_ :: used) [_] _).symm,
        fun other _ => ?_⟩
      simpa using
        ReadFrom.grouping isOpening (reads (_ :: other) (.inl rfl)) isClosing
  | atom isAtom =>
      exact ⟨[_], rfl, fun other _ => .atom isAtom⟩

/-- The tokens behind a part may be replaced. -/
theorem ReadFrom.replaced
    {part : ExpressionPart}
    {used rest : List Token}
    (read : part.ReadFrom (used ++ rest) rest)
    (other : List Token)
    (follows : part.Follows rest other) :
    part.ReadFrom (used ++ other) other := by
  obtain ⟨consumed, isUsed, reads⟩ := read.replaceable
  rw [List.append_cancel_right isUsed]
  exact reads other follows

end ExpressionPart

/-! ## Names -/

/-- Names are read up to a token that is no comma, whatever follows them. -/
theorem NamesReadFrom.replaceable
    {names : List String}
    {tokens rest : List Token}
    (read : NamesReadFrom names tokens rest) :
    ∃ used, tokens = used ++ rest ∧
      ∀ other, nextKind other ≠ .comma →
        NamesReadFrom names (used ++ other) other := by
  induction read with
  | last isName _ =>
      exact ⟨[_], rfl, fun other notComma => .last isName notComma⟩
  | more isName isComma _ others =>
      obtain ⟨used, rfl, reads⟩ := others
      exact ⟨_ :: _ :: used, rfl,
        fun other notComma => .more isName isComma (reads other notComma)⟩

theorem ParametersReadFrom.replaceable
    {names : List String}
    {tokens rest : List Token}
    (read : ParametersReadFrom names tokens rest) :
    ∃ used, tokens = used ++ rest ∧
      ∀ other, ParametersReadFrom names (used ++ other) other := by
  cases read with
  | none isOpening isClosing =>
      exact ⟨[_, _], rfl, fun other => .none isOpening isClosing⟩
  | some isOpening given isClosing =>
      obtain ⟨used, rfl, reads⟩ := given.replaceable
      refine ⟨_ :: (used ++ [_]), (List.append_assoc (_ :: used) [_] _).symm,
        fun other => ?_⟩
      have names := reads (_ :: other) (by
        rw [nextKind_cons, isClosing]
        decide)
      simpa using ParametersReadFrom.some isOpening names isClosing

theorem NamesReadFrom.notComma
    {names : List String}
    {tokens rest : List Token}
    (read : NamesReadFrom names tokens rest) :
    nextKind rest ≠ .comma := by
  induction read with
  | last _ notComma => exact notComma
  | more _ _ _ notComma => exact notComma

/-- The tokens behind the parentheses of a function may be replaced. -/
theorem ParametersReadFrom.replaced
    {names : List String}
    {used rest : List Token}
    (read : ParametersReadFrom names (used ++ rest) rest)
    (other : List Token) :
    ParametersReadFrom names (used ++ other) other := by
  obtain ⟨consumed, isUsed, reads⟩ := read.replaceable
  rw [List.append_cancel_right isUsed]
  exact reads other

/-- The tokens behind names may be replaced. -/
theorem NamesReadFrom.replaced
    {names : List String}
    {used rest : List Token}
    (read : NamesReadFrom names (used ++ rest) rest)
    (other : List Token)
    (notComma : nextKind other ≠ .comma) :
    NamesReadFrom names (used ++ other) other := by
  obtain ⟨consumed, isUsed, reads⟩ := read.replaceable
  rw [List.append_cancel_right isUsed]
  exact reads other notComma

/-! ## Statements -/

/-- The line breaks at the front are skipped, whatever follows them. -/
theorem exists_of_skipBreaks (tokens : List Token) :
    ∃ breaks, tokens = breaks ++ skipBreaks tokens ∧
      ∀ other, nextKind other ≠ .newline → skipBreaks (breaks ++ other) = other := by
  induction tokens with
  | nil =>
      exact ⟨[], rfl, fun other => skipBreaks_of_ne⟩
  | cons token rest inductionHypothesis =>
      by_cases isBreak : token.kind = .newline
      · obtain ⟨breaks, isRest, behindBreaks⟩ := inductionHypothesis
        refine ⟨token :: breaks, ?_, fun other notBreak => ?_⟩
        · rw [skipBreaks_cons_of_eq isBreak, List.cons_append, ← isRest]
        · rw [List.cons_append, skipBreaks_cons_of_eq isBreak]
          exact behindBreaks other notBreak
      · exact ⟨[], (skipBreaks_cons_of_ne isBreak rest).symm,
          fun other => skipBreaks_of_ne⟩

/-- A line break is skipped if a further branch follows it. -/
theorem skipBranchBreak_eq_ite (tokens : List Token) :
    skipBranchBreak tokens =
      if nextKind tokens = .newline ∧
          (nextKind tokens.tail = .elifKeyword ∨
            nextKind tokens.tail = .elseKeyword) then
        tokens.tail
      else
        tokens := by
  match tokens with
  | [] => rfl
  | [token] => simp [skipBranchBreak]
  | first :: second :: rest => rfl

/-- The kind that decides whether a further branch follows. -/
theorem nextKind_skipBranchBreak (tokens : List Token) :
    nextKind (skipBranchBreak tokens) =
      if nextKind tokens = .newline ∧
          (nextKind tokens.tail = .elifKeyword ∨
            nextKind tokens.tail = .elseKeyword) then
        nextKind tokens.tail
      else
        nextKind tokens := by
  rw [skipBranchBreak_eq_ite]
  exact apply_ite nextKind _ _ _

/-- A further branch starts with its keyword, perhaps behind a line break. -/
theorem exists_of_skipBranchBreak
    {tokens rest : List Token}
    {keyword : Token}
    (atBranch : skipBranchBreak tokens = keyword :: rest)
    (isBranch : keyword.kind = .elifKeyword ∨ keyword.kind = .elseKeyword) :
    ∃ breaks, tokens = breaks ++ keyword :: rest ∧
      ∀ other, skipBranchBreak (breaks ++ keyword :: other) = keyword :: other := by
  have notBreak : keyword.kind ≠ .newline := by
    rcases isBranch with isElif | isElse
    · rw [isElif]
      decide
    · rw [isElse]
      decide
  unfold skipBranchBreak at atBranch
  split at atBranch
  · next first second later =>
      split at atBranch
      · next skipped =>
          obtain ⟨rfl, rfl⟩ := List.cons.inj atBranch
          exact ⟨[first], rfl, fun other => by simp [skipBranchBreak, skipped]⟩
      · exact ⟨[], atBranch, fun other => skipBranchBreak_cons_of_ne notBreak other⟩
  · exact ⟨[], atBranch, fun other => skipBranchBreak_cons_of_ne notBreak other⟩

/-- Whether tokens start alike: with tokens of the same kind, and if these are line
breaks, with the same kind behind them. -/
def StartsAlike (rest other : List Token) : Prop :=
  nextKind other = nextKind rest ∧
    (nextKind rest = .newline → nextKind other.tail = nextKind rest.tail)

theorem StartsAlike.of_append
    {used : List Token}
    (long : 2 ≤ used.length)
    (rest other : List Token) :
    StartsAlike (used ++ rest) (used ++ other) := by
  match used with
  | [] => cases long
  | [token] => exact (Nat.lt_irrefl _ long).elim
  | first :: second :: used => exact ⟨rfl, fun _ => rfl⟩

/-- Tokens that hold more than line breaks start alike whatever follows them. -/
theorem StartsAlike.of_word
    {used : List Token}
    (someWord : ∃ token ∈ used, token.kind ≠ .newline)
    (rest other : List Token) :
    StartsAlike (used ++ rest) (used ++ other) := by
  obtain ⟨word, member, notBreak⟩ := someWord
  match used with
  | [] => cases member
  | [token] =>
      rw [List.mem_singleton] at member
      exact ⟨rfl, fun isBreak => (notBreak (member ▸ isBreak)).elim⟩
  | first :: second :: used => exact ⟨rfl, fun _ => rfl⟩

theorem StartsAlike.of_ne
    {rest other : List Token}
    (same : nextKind other = nextKind rest)
    (notBreak : nextKind rest ≠ .newline) :
    StartsAlike rest other :=
  ⟨same, fun isBreak => (notBreak isBreak).elim⟩

theorem StartsAlike.skipBranchBreak
    {rest other : List Token}
    (alike : StartsAlike rest other) :
    nextKind (skipBranchBreak other) = nextKind (skipBranchBreak rest) := by
  obtain ⟨same, sameBehind⟩ := alike
  rw [nextKind_skipBranchBreak, nextKind_skipBranchBreak, same]
  by_cases isBreak : nextKind rest = .newline
  · rw [sameBehind isBreak]
  · simp [isBreak]

/-- Nothing that ends a list of statements goes on with an expression. -/
theorem Surroundings.not_extendsExpression_of_endedBy
    {around : Surroundings}
    {kind : TokenKind}
    (isEnded : around.endedBy kind = true) :
    kind.extendsExpression = false := by
  cases kind <;> first | rfl | cases isEnded

/-- Whatever ends a list of statements closes the last one of them, and is no line
break. -/
theorem Surroundings.closedBy_of_endedBy
    {around : Surroundings}
    {kind : TokenKind}
    (isEnded : around.endedBy kind = true) :
    kind ≠ .newline ∧ around.closedBy kind = true := by
  cases kind <;> first | exact ⟨nofun, isEnded⟩ | cases isEnded

/-- Whatever closes a statement and is no line break ends the list that it stands in. -/
theorem Surroundings.endedBy_of_closedBy
    {around : Surroundings}
    {kind : TokenKind}
    (isClosed : around.closedBy kind = true)
    (notBreak : kind ≠ .newline) :
    around.endedBy kind = true := by
  cases kind <;> first | exact isClosed | exact (notBreak rfl).elim

/-- No branch follows a line break behind which a list of statements ends. -/
theorem EndsLine.of_endedBy
    {around : Surroundings}
    {token : Token}
    {rest : List Token}
    (isBreak : token.kind = .newline)
    (isEnded : around.endedBy (nextKind rest) = true) :
    EndsLine (token :: rest) := by
  refine ⟨isBreak, ?_, ?_⟩ <;> intro isBranch <;> rw [isBranch] at isEnded <;>
    cases isEnded

/-- Whether other tokens may stand behind a statement than those that do. -/
def Surroundings.Follows (around : Surroundings) (rest other : List Token) : Prop :=
  StartsAlike rest other ∨ around.endedBy (nextKind other) = true ∨ EndsLine other

namespace Surroundings.Follows

variable {around : Surroundings} {rest other : List Token}

theorem expression
    (follows : around.Follows rest other) :
    nextKind other = nextKind rest ∨
      (nextKind other).extendsExpression = false := by
  rcases follows with alike | isEnded | ends
  · exact .inl alike.1
  · exact .inr (not_extendsExpression_of_endedBy isEnded)
  · exact .inr ends.not_extendsExpression

theorem closedBy
    (follows : around.Follows rest other)
    (isClosed : around.closedBy (nextKind rest) = true) :
    around.closedBy (nextKind other) = true := by
  rcases follows with alike | isEnded | ends
  · rw [alike.1]
    exact isClosed
  · exact (closedBy_of_endedBy isEnded).2
  · rw [ends.nextKind_eq]
    rfl

/-- No branch follows in place of tokens that start no branch. -/
theorem not_atBranch
    {keyword : TokenKind}
    (follows : around.Follows rest other)
    (isBranch : keyword = .elifKeyword ∨ keyword = .elseKeyword)
    (notBranch : nextKind (skipBranchBreak rest) ≠ keyword) :
    nextKind (skipBranchBreak other) ≠ keyword := by
  rcases follows with alike | isEnded | ends
  · rw [alike.skipBranchBreak]
    exact notBranch
  · rw [nextKind_skipBranchBreak, if_neg (by
      rintro ⟨isBreak, _⟩
      exact (closedBy_of_endedBy isEnded).1 isBreak)]
    rintro rfl
    rcases isBranch with isElif | isElse
    · rw [isElif] at isEnded
      cases isEnded
    · rw [isElse] at isEnded
      cases isEnded
  · rw [ends.skipBranchBreak_eq, ends.nextKind_eq]
    rcases isBranch with rfl | rfl <;> decide

theorem append
    {used : List Token}
    (follows : around.Follows rest other)
    (long : used = [] ∨ 2 ≤ used.length) :
    around.Follows (used ++ rest) (used ++ other) := by
  rcases long with rfl | long
  · exact follows
  · exact .inl (.of_append long rest other)

end Surroundings.Follows

/-- A statement ends with a line break, or in front of what ends the list that it stands
in. -/
theorem EndsStatement.cases
    {around : Surroundings}
    {used rest : List Token}
    (ends : EndsStatement around (used ++ rest) rest) :
    (∃ token, used = [token] ∧ token.kind = .newline) ∨
      (used = [] ∧ around.endedBy (nextKind rest) = true) := by
  generalize isTokens : used ++ rest = tokens at ends
  cases ends with
  | newline isBreak =>
      exact .inl ⟨_, List.append_cancel_right isTokens, isBreak⟩
  | closed notBreak isClosed =>
      exact .inr ⟨List.append_left_eq_self.mp isTokens,
        Surroundings.endedBy_of_closedBy isClosed notBreak⟩

/-- A statement still ends if the tokens far behind its end are replaced. -/
theorem EndsStatement.replaceable
    {around : Surroundings}
    {tokens more rest : List Token}
    (ends : EndsStatement around tokens (more ++ rest)) :
    ∃ used, tokens = used ++ (more ++ rest) ∧
      ∀ other, around.endedBy (nextKind other) = true →
        EndsStatement around (used ++ (more ++ other)) (more ++ other) ∧
          around.Follows tokens (used ++ (more ++ other)) := by
  cases ends with
  | newline isBreak =>
      refine ⟨[_], rfl, fun other isEnded => ⟨.newline isBreak, ?_⟩⟩
      cases more with
      | nil => exact .inr (.inr (.of_endedBy isBreak isEnded))
      | cons first more =>
          exact .inl ⟨rfl, fun _ => rfl⟩
  | closed notBreak isClosed =>
      refine ⟨[], rfl, fun other isEnded => ?_⟩
      cases more with
      | nil =>
          have closed := Surroundings.closedBy_of_endedBy isEnded
          exact ⟨.closed closed.1 closed.2, .inr (.inl isEnded)⟩
      | cons first more =>
          exact ⟨.closed notBreak isClosed, .inl (.of_ne rfl notBreak)⟩

namespace StatementPart

/-- Whether other tokens may stand behind a part than those that do. -/
def Follows (rest other : List Token) : StatementPart → Prop
  | .declaration around _ => around.Follows rest other
  | .statement around _ => around.Follows rest other
  | .branches around _ _ => around.Follows rest other
  | .block _ _ _ => True
  | .statements around _ => around.endedBy (nextKind other) = true

theorem ReadFrom.ne_nil
    {part : StatementPart}
    {used rest : List Token}
    (read : part.ReadFrom (used ++ rest) rest)
    (solid : part.isSolid = true) :
    used ≠ [] := by
  rintro rfl
  exact Nat.lt_irrefl _ (read.length_lt solid)

/-- Further branches consume nothing, or at least a keyword and what follows it. -/
theorem ReadFrom.branches_used
    {around : Surroundings}
    {others : List (Expression × Statement)}
    {otherwise : Option Statement}
    {used rest : List Token}
    (read : (branches around others otherwise).ReadFrom (used ++ rest) rest) :
    used = [] ∨ 2 ≤ used.length := by
  generalize isTokens : used ++ rest = tokens at read
  have length := congrArg List.length isTokens
  rw [List.length_append] at length
  cases read with
  | elifBranch atBranch _ test chosen more =>
      have behindKeyword := length_lt_of_skipBranchBreak atBranch
      have behindTest := test.length_lt rfl
      have behindBody := chosen.length_lt rfl
      have behindBranches := more.length_le
      rw [isSolid, Bool.toNat_false] at behindBranches
      exact .inr (by omega)
  | elseBranch atBranch _ chosen =>
      have behindKeyword := length_lt_of_skipBranchBreak atBranch
      have behindBody := chosen.length_lt rfl
      exact .inr (by omega)
  | noBranch _ _ =>
      exact .inl (List.append_left_eq_self.mp isTokens)

/-- What is read of a part when the tokens behind it are replaced. -/
def Replaceable (part : StatementPart) (tokens rest : List Token) : Prop :=
  ∃ used, tokens = used ++ rest ∧
    ∀ other, part.Follows rest other → part.ReadFrom (used ++ other) other

/-- A condition, what it guards and the further branches of a conditional. -/
theorem guarded
    {around : Surroundings}
    {condition : Expression}
    {body : Statement}
    {others : List (Expression × Statement)}
    {otherwise : Option Statement}
    {tokens afterTest afterBody rest : List Token}
    (testRead : (ExpressionPart.expression condition).ReadFrom tokens afterTest)
    (bodyRead : (statement around body).ReadFrom afterTest afterBody)
    (moreRead : (branches around others otherwise).ReadFrom afterBody rest)
    (bodyReplaceable : (statement around body).Replaceable afterTest afterBody)
    (moreReplaceable : (branches around others otherwise).Replaceable afterBody rest) :
    ∃ used, tokens = used ++ rest ∧
      ∀ other, around.Follows rest other →
        ∃ afterTest afterBody,
          (ExpressionPart.expression condition).ReadFrom (used ++ other) afterTest ∧
          (statement around body).ReadFrom afterTest afterBody ∧
          (branches around others otherwise).ReadFrom afterBody other := by
  obtain ⟨used, rfl, readsTest⟩ := testRead.replaceable
  obtain ⟨usedBody, rfl, readsBody⟩ := bodyReplaceable
  obtain ⟨more, rfl, readsMore⟩ := moreReplaceable
  refine ⟨used ++ (usedBody ++ more), by simp, fun other follows => ?_⟩
  have behindTest := nextKind_append (bodyRead.ne_nil rfl) (more ++ rest)
    (more ++ other)
  have behindBody := follows.append moreRead.branches_used
  rw [List.append_assoc, List.append_assoc]
  exact ⟨_, _, readsTest _ (.inl behindTest), readsBody _ behindBody,
    readsMore other follows⟩

/-- A part of a program is read from the tokens that it consumes, whatever follows
them. -/
theorem ReadFrom.replaceable
    {part : StatementPart}
    {tokens rest : List Token}
    (read : part.ReadFrom tokens rest) :
    part.Replaceable tokens rest := by
  induction read with
  | variableDeclaration isVariable isName isEqual value =>
      obtain ⟨used, rfl, reads⟩ := value.replaceable
      exact ⟨_ :: _ :: _ :: used, rfl, fun other follows =>
        .variableDeclaration isVariable isName isEqual
          (reads other follows.expression)⟩
  | functionDeclaration isFunction isName parameters _ block =>
      obtain ⟨used, rfl, readsParameters⟩ := parameters.replaceable
      obtain ⟨more, rfl, readsBlock⟩ := block
      refine ⟨_ :: _ :: (used ++ more),
        (List.append_assoc (_ :: _ :: used) more _).symm, fun other _ => ?_⟩
      rw [List.cons_append, List.cons_append, List.append_assoc]
      exact .functionDeclaration isFunction isName
        (readsParameters (more ++ other)) (readsBlock other trivial)
  | simple _ statement =>
      obtain ⟨used, rfl, reads⟩ := statement
      exact ⟨used, rfl, fun other follows => .simple (reads other follows)⟩
  | block _ block =>
      obtain ⟨used, rfl, reads⟩ := block
      exact ⟨used, rfl, fun other _ => .block (reads other trivial)⟩
  | whileLoop isWhile test bodyRead body =>
      obtain ⟨used, rfl, readsTest⟩ := test.replaceable
      obtain ⟨more, rfl, readsBody⟩ := body
      refine ⟨_ :: (used ++ more), (List.append_assoc (_ :: used) more _).symm,
        fun other follows => ?_⟩
      rw [List.cons_append, List.append_assoc]
      exact .whileLoop isWhile
        (readsTest (more ++ other)
          (.inl (nextKind_append (bodyRead.ne_nil rfl) _ _)))
        (readsBody other follows)
  | conditional isIf test bodyRead branchesRead body more =>
      obtain ⟨used, rfl, reads⟩ := guarded test bodyRead branchesRead body more
      refine ⟨_ :: used, rfl, fun other follows => ?_⟩
      obtain ⟨afterTest, afterBody, readsTest, readsBody, readsMore⟩ :=
        reads other follows
      exact .conditional isIf readsTest readsBody readsMore
  | breakLoop isBreak inLoop =>
      exact ⟨[_], rfl, fun other _ => .breakLoop isBreak inLoop⟩
  | continueLoop isContinue inLoop =>
      exact ⟨[_], rfl, fun other _ => .continueLoop isContinue inLoop⟩
  | returnNothing isReturn inFunction isClosed =>
      exact ⟨[_], rfl, fun other follows =>
        .returnNothing isReturn inFunction (follows.closedBy isClosed)⟩
  | returnValue isReturn inFunction result =>
      obtain ⟨used, rfl, reads⟩ := result.replaceable
      exact ⟨_ :: used, rfl, fun other follows =>
        .returnValue isReturn inFunction (reads other follows.expression)⟩
  | expression inner =>
      obtain ⟨used, rfl, reads⟩ := inner.replaceable
      exact ⟨used, rfl, fun other follows =>
        .expression (reads other follows.expression)⟩
  | elifBranch atBranch isElif test bodyRead branchesRead body more =>
      obtain ⟨breaks, rfl, behindBreaks⟩ :=
        exists_of_skipBranchBreak atBranch (.inl isElif)
      obtain ⟨used, rfl, reads⟩ := guarded test bodyRead branchesRead body more
      refine ⟨breaks ++ _ :: used, (List.append_assoc _ (_ :: used) _).symm,
        fun other follows => ?_⟩
      obtain ⟨afterTest, afterBody, readsTest, readsBody, readsMore⟩ :=
        reads other follows
      rw [List.append_assoc]
      exact .elifBranch (behindBreaks (used ++ other)) isElif readsTest readsBody
        readsMore
  | elseBranch atBranch isElse _ body =>
      obtain ⟨breaks, rfl, behindBreaks⟩ :=
        exists_of_skipBranchBreak atBranch (.inr isElse)
      obtain ⟨used, rfl, reads⟩ := body
      refine ⟨breaks ++ _ :: used, (List.append_assoc _ (_ :: used) _).symm,
        fun other follows => ?_⟩
      rw [List.append_assoc]
      exact .elseBranch (behindBreaks (used ++ other)) isElse (reads other follows)
  | noBranch notElif notElse =>
      exact ⟨[], rfl, fun other follows =>
        .noBranch (follows.not_atBranch (.inl rfl) notElif)
          (follows.not_atBranch (.inr rfl) notElse)⟩
  | braces isOpening _ isClosing content =>
      obtain ⟨used, rfl, reads⟩ := content
      refine ⟨_ :: (used ++ [_]), (List.append_assoc (_ :: used) [_] _).symm,
        fun other _ => ?_⟩
      have contentRead := reads (_ :: other) (by
        rw [Follows, nextKind_cons, isClosing]
        rfl)
      simpa using ReadFrom.braces isOpening contentRead isClosing
  | noStatement isEnded =>
      obtain ⟨breaks, isTokens, behindBreaks⟩ := exists_of_skipBreaks _
      refine ⟨breaks, isTokens, fun other follows => ?_⟩
      have skipped : skipBreaks (breaks ++ other) = other :=
        behindBreaks other (Surroundings.closedBy_of_endedBy follows).1
      have isEnded : _ = true := skipped.symm ▸ follows
      have read := ReadFrom.noStatement isEnded
      rwa [skipped] at read
  | moreStatements _ ends _ first others =>
      obtain ⟨breaks, isTokens, behindBreaks⟩ := exists_of_skipBreaks _
      obtain ⟨used, isUsed, readsFirst⟩ := first
      obtain ⟨more, rfl, readsOthers⟩ := others
      obtain ⟨usedEnd, rfl, replacedEnds⟩ := ends.replaceable
      refine ⟨breaks ++ (used ++ (usedEnd ++ more)), isTokens.trans ?_,
        fun other follows => ?_⟩
      · rw [isUsed]
        simp only [List.append_assoc]
      obtain ⟨endsHere, followsFirst⟩ := replacedEnds other follows
      have firstHere := readsFirst _ followsFirst
      have notBreak :=
        TokenKind.ne_of_startsDeclaration firstHere.startsWith .newline rfl
      rw [List.append_assoc, List.append_assoc, List.append_assoc]
      exact .moreStatements ((behindBreaks _ notBreak).symm ▸ firstHere) endsHere
        (readsOthers other follows)

/-- The tokens behind a part may be replaced. -/
theorem ReadFrom.replaced
    {part : StatementPart}
    {used rest : List Token}
    (read : part.ReadFrom (used ++ rest) rest)
    (other : List Token)
    (follows : part.Follows rest other) :
    part.ReadFrom (used ++ other) other := by
  obtain ⟨consumed, isUsed, reads⟩ := read.replaceable
  rw [List.append_cancel_right isUsed]
  exact reads other follows

end StatementPart

end Scriptlet
