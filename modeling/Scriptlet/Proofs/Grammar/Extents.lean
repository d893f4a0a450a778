import Scriptlet.Proofs.Grammar.Excerpts
import Scriptlet.Proofs.Tree.Layout

namespace Scriptlet

/-!
# How far nodes reach

Line breaks apart, every node of a tree is made of a run of tokens, and its span reaches
from the first of them to the last.  The run is made up as the layout of the node says: of
one token for each word of its own and of a run for each node directly inside of it, with
nothing left between them.  So the span of a node contains those inside of it, and these
follow one another without overlap.
-/

/-! ## Nodes and runs of tokens -/

namespace Phrase

mutual

/-- That a node is made of a run of tokens, from the first to the last of which its span
reaches. -/
inductive MadeOf : Phrase → List Token → Prop where
  | node
      (encloses : phrase.span.Encloses used)
      (inside : AllMadeOf phrase.layout used) :
      MadeOf phrase used

/-- That the items of a layout are made of a run of tokens, each right behind the one
before it: a word of one token, and a node of a run of its own. -/
inductive AllMadeOf : List Item → List Token → Prop where
  | none :
      AllMadeOf [] []
  | word
      (spells : token.Spells text)
      (others : AllMadeOf items behind) :
      AllMadeOf (.word text :: items) (token :: behind)
  | node
      (first : MadeOf phrase used)
      (others : AllMadeOf items behind) :
      AllMadeOf (.node phrase :: items) (used ++ behind)

end

theorem MadeOf.encloses
    {phrase : Phrase}
    {used : List Token}
    (made : phrase.MadeOf used) :
    phrase.span.Encloses used := by
  cases made with
  | node encloses _ => exact encloses

theorem MadeOf.inside
    {phrase : Phrase}
    {used : List Token}
    (made : phrase.MadeOf used) :
    AllMadeOf phrase.layout used := by
  cases made with
  | node _ inside => exact inside

mutual

/-- The tokens that a node is made of spell its words. -/
theorem MadeOf.spells
    {phrase : Phrase}
    {used : List Token} :
    phrase.MadeOf used → List.Forall₂ Token.Spells used phrase.words
  | .node _ inside => by
      rw [← phrase.words_layout]
      exact inside.spells

theorem AllMadeOf.spells
    {items : List Item}
    {tokens : List Token} :
    AllMadeOf items tokens → List.Forall₂ Token.Spells tokens (items.flatMap Item.words)
  | .none => .nil
  | .word spells others => .cons spells others.spells
  | .node first others => List.rel_append first.spells others.spells

end

namespace AllMadeOf

theorem single
    {phrase : Phrase}
    {used : List Token}
    (made : phrase.MadeOf used) :
    AllMadeOf [.node phrase] used := by
  have alone : AllMadeOf [.node phrase] (used ++ []) := .node made .none
  rwa [List.append_nil] at alone

/-- Words are made of the tokens that spell them. -/
theorem of_spells
    {texts : List Word}
    {tokens : List Token}
    (spells : List.Forall₂ Token.Spells tokens texts) :
    AllMadeOf (texts.map Item.word) tokens := by
  induction spells with
  | nil => exact .none
  | cons first _ inductionHypothesis => exact .word first inductionHypothesis

/-- Items in a run of tokens, and further items in the run behind it. -/
theorem append
    {items further : List Item}
    {tokens more : List Token}
    (made : AllMadeOf items tokens)
    (furtherMade : AllMadeOf further more) :
    AllMadeOf (items ++ further) (tokens ++ more) := by
  induction items generalizing tokens with
  | nil =>
      cases made
      exact furtherMade
  | cons item rest inductionHypothesis =>
      cases made with
      | word spells others => exact .word spells (inductionHypothesis others)
      | node first others =>
          rw [List.append_assoc]
          exact .node first (inductionHypothesis others)

/-- Each node among the items is made of a part of the run. -/
theorem exists_of_mem
    {items : List Item}
    {phrase : Phrase}
    {tokens : List Token}
    (made : AllMadeOf items tokens)
    (isAmong : phrase ∈ items.filterMap Item.node?) :
    ∃ used, used <:+: tokens ∧ phrase.MadeOf used := by
  induction items generalizing tokens with
  | nil => cases isAmong
  | cons item rest inductionHypothesis =>
      cases made with
      | word _ others =>
          obtain ⟨used, isPart, made⟩ := inductionHypothesis others isAmong
          exact ⟨used, isPart.trans (List.suffix_cons _ _).isInfix, made⟩
      | node first others =>
          rcases List.mem_cons.mp isAmong with rfl | isLater
          · exact ⟨_, (List.prefix_append _ _).isInfix, first⟩
          · obtain ⟨used, isPart, made⟩ := inductionHypothesis others isLater
            exact ⟨used, isPart.trans (List.suffix_append _ _).isInfix, made⟩

end AllMadeOf

/-- A node directly inside of another one is made of a part of its run. -/
theorem MadeOf.exists_child
    {phrase child : Phrase}
    {used : List Token}
    (made : phrase.MadeOf used)
    (isChild : child ∈ phrase.children) :
    ∃ part, part <:+: used ∧ child.MadeOf part := by
  rw [← phrase.nodes_layout] at isChild
  exact made.inside.exists_of_mem isChild

/-- What a phrase consists of is among the nodes inside of it. -/
theorem parts_subset_children (phrase : Phrase) : phrase.parts ⊆ phrase.children := by
  cases phrase with
  | expression inner => exact List.Subset.refl _
  | statement inner =>
      cases inner with
      | block | function => exact List.nil_subset _
      | _ => exact List.Subset.refl _

end Phrase

/-- Every phrase of a program is made of a part of the run of tokens that the program is
made of. -/
theorem Occurs.exists_madeOf
    {program : List Statement}
    {tokens : List Token}
    (made : Phrase.AllMadeOf (program.map Item.statement) tokens)
    {frames : List Frame}
    {phrase : Phrase}
    (occurs : Occurs program frames phrase) :
    ∃ used, used <:+: tokens ∧ phrase.MadeOf used := by
  have inside {phrase child : Phrase}
      (isMade : ∃ used, used <:+: tokens ∧ phrase.MadeOf used)
      (isChild : child ∈ phrase.children) :
      ∃ used, used <:+: tokens ∧ child.MadeOf used := by
    obtain ⟨used, isUsed, made⟩ := isMade
    obtain ⟨part, isPart, childMade⟩ := made.exists_child isChild
    exact ⟨part, isPart.trans isUsed, childMade⟩
  induction occurs with
  | top isStatement =>
      refine made.exists_of_mem ?_
      rw [Statement.nodes_body]
      exact List.mem_map_of_mem isStatement
  | part _ isPart isMade =>
      exact inside isMade (Phrase.parts_subset_children _ isPart)
  | inBlock _ isInside isMade =>
      exact inside isMade (List.mem_map_of_mem isInside)
  | inFunction _ isInside isMade =>
      exact inside isMade (List.mem_map_of_mem isInside)

/-! ## Expressions -/

namespace Composed

/-- That the expression, or the arguments with commas between them, are made of a run of
tokens. -/
def MadeOf (used : List Token) : Composed → Prop
  | .expression result => (Phrase.expression result).MadeOf used
  | .arguments results => Phrase.AllMadeOf (argumentLayout results) used

/-- A node that is built from tokens is made of them if all that stands in it is. -/
theorem BuiltFrom.node
    {source : SourceUnit}
    {result : Expression}
    {used : List Token}
    (built : (Composed.expression result).BuiltFrom used)
    (laidOut : LaidOut source used)
    (inside : Phrase.AllMadeOf result.layout used) :
    (Composed.expression result).MadeOf used :=
  .node (built.spans laidOut) inside

/-- An expression is made of the tokens that it is built from. -/
theorem BuiltFrom.madeOf
    {composed : Composed}
    {source : SourceUnit}
    {used : List Token}
    (built : composed.BuiltFrom used)
    (laidOut : LaidOut source used) :
    composed.MadeOf used := by
  induction built with
  | literal isLiteral =>
      exact (BuiltFrom.literal isLiteral).node laidOut (.word isLiteral .none)
  | reference isName =>
      exact (BuiltFrom.reference isName).node laidOut (.word ⟨isName, rfl⟩ .none)
  | assign target isEqual assigned targetMade valueMade =>
      -- The name is all that stands inside of the target.
      have name := (targetMade laidOut.first).inside
      have value := Phrase.AllMadeOf.single (valueMade laidOut.second.second)
      exact (target.assign isEqual assigned).node laidOut
        (name.append (.word isEqual value))
  | getAttribute callee isDot isName objectMade =>
      have object := Phrase.AllMadeOf.single (objectMade laidOut.first)
      exact (callee.getAttribute isDot isName).node laidOut
        (object.append (.word isDot (.word ⟨isName, rfl⟩ .none)))
  | setAttribute target isEqual assigned targetMade valueMade =>
      -- The object, the dot and the name are what stands inside of the target.
      have access := (targetMade laidOut.first).inside
      have value := Phrase.AllMadeOf.single (valueMade laidOut.second.second)
      exact (target.setAttribute isEqual assigned).node laidOut
        (access.append (.word isEqual value))
  | unary isUnary operand operandMade =>
      have inside := Phrase.AllMadeOf.single (operandMade laidOut.second.second)
      exact (BuiltFrom.unary isUnary operand).node laidOut (.word rfl inside)
  | combine hasLevel first second firstMade secondMade =>
      have left := Phrase.AllMadeOf.single (firstMade laidOut.first)
      have right := Phrase.AllMadeOf.single (secondMade laidOut.second.second)
      refine (first.combine hasLevel second).node laidOut ?_
      rw [Expression.layout_combine]
      exact left.append (.word rfl right)
  | grouping isOpening content isClosing contentMade =>
      have inside := Phrase.AllMadeOf.single (contentMade laidOut.second.first)
      exact (BuiltFrom.grouping isOpening content isClosing).node laidOut
        (.word isOpening (inside.append (.word isClosing .none)))
  | call called isOpening passed isClosing calleeMade givenMade =>
      have callee := Phrase.AllMadeOf.single (calleeMade laidOut.first)
      have given := givenMade laidOut.second.first.second
      exact (called.call isOpening passed isClosing).node laidOut
        (callee.append (.word isOpening (given.append (.word isClosing .none))))
  | noArguments =>
      exact .none
  | lastArgument _ lastMade =>
      exact .single (lastMade laidOut)
  | moreArguments _ isComma _ someOthers firstMade othersMade =>
      have others := othersMade laidOut.second.second
      rw [MadeOf, argumentLayout_cons _ someOthers]
      exact .node (firstMade laidOut.first) (.word isComma others)

/-- No line break is among the tokens that an expression is built from. -/
theorem BuiltFrom.withoutBreaks_eq
    {result : Expression}
    {tokens rest used : List Token}
    (reads : (ExpressionPart.expression result).ReadFrom tokens rest)
    (built : (Composed.expression result).BuiltFrom used)
    (isUsed : tokens = used ++ rest) :
    withoutBreaks used = used := by
  obtain ⟨_, isSplit, spells⟩ := reads.spelledBy
  obtain rfl := List.append_cancel_right (isUsed.symm.trans isSplit)
  have sameLength := spells.length_eq.trans built.spells.length_eq.symm
  exact List.filter_sublist.eq_of_length sameLength

end Composed

/-! ## What stands in front of a rest -/

/-- That the tokens in front of the rest are the given ones, line breaks apart. -/
def InFront (words tokens rest : List Token) : Prop :=
  ∃ used, tokens = used ++ rest ∧ withoutBreaks used = words

namespace InFront

theorem refl (tokens : List Token) :
    InFront [] tokens tokens :=
  ⟨[], rfl, rfl⟩

theorem trans
    {first second tokens middle rest : List Token}
    (before : InFront first tokens middle)
    (after : InFront second middle rest) :
    InFront (first ++ second) tokens rest := by
  obtain ⟨usedFirst, rfl, rfl⟩ := before
  obtain ⟨usedSecond, rfl, rfl⟩ := after
  exact ⟨usedFirst ++ usedSecond, (List.append_assoc _ _ _).symm,
    List.filter_append usedFirst usedSecond⟩

theorem word
    {token : Token}
    {kind : TokenKind}
    (isKind : token.kind = kind)
    (notBreak : kind ≠ .newline)
    (rest : List Token) :
    InFront [token] (token :: rest) rest :=
  ⟨[token], rfl, List.filter_cons_of_pos (by simpa [isKind] using notBreak)⟩

/-- The tokens that spell some words. -/
theorem of_spelled
    {texts : List Word}
    {tokens rest : List Token}
    (spelled : Spelled texts tokens rest) :
    ∃ words, InFront words tokens rest ∧ List.Forall₂ Token.Spells words texts := by
  obtain ⟨used, isSplit, spells⟩ := spelled
  exact ⟨withoutBreaks used, ⟨used, isSplit, rfl⟩, spells⟩

/-- Where no word is spelled, there are only line breaks. -/
theorem breaks
    {tokens rest : List Token}
    (spelled : Spelled [] tokens rest) :
    InFront [] tokens rest := by
  obtain ⟨words, isFront, spells⟩ := of_spelled spelled
  cases spells
  exact isFront

theorem laidOut
    {source : SourceUnit}
    {words tokens rest : List Token}
    (isFront : InFront words tokens rest)
    (areLaidOut : LaidOut source tokens) :
    LaidOut source words := by
  obtain ⟨used, rfl, rfl⟩ := isFront
  exact areLaidOut.first.of_sublist List.filter_sublist

theorem laidOut_rest
    {source : SourceUnit}
    {words tokens rest : List Token}
    (isFront : InFront words tokens rest)
    (areLaidOut : LaidOut source tokens) :
    LaidOut source rest := by
  obtain ⟨used, rfl, rfl⟩ := isFront
  exact areLaidOut.second

end InFront

/-! ## Statements -/

/-- An expression is made of the tokens that it is read from. -/
theorem ExpressionPart.ReadFrom.madeOf
    {source : SourceUnit}
    {result : Expression}
    {tokens rest : List Token}
    (reads : (ExpressionPart.expression result).ReadFrom tokens rest)
    (laidOut : LaidOut source tokens) :
    ∃ words, InFront words tokens rest ∧ (Phrase.expression result).MadeOf words := by
  obtain ⟨used, isUsed, built⟩ := reads.originatesIn
  refine ⟨used, ⟨used, isUsed, built.withoutBreaks_eq reads isUsed⟩, ?_⟩
  rw [isUsed] at laidOut
  exact built.madeOf laidOut.first

namespace StatementPart

/-- That the nodes of a part are made of the tokens in front of the rest, line breaks
apart.  The last of some branches ends where all of them end. -/
def MadeBetween (tokens rest : List Token) : StatementPart → Prop
  | .declaration _ result | .statement _ result =>
      ∃ words, InFront words tokens rest ∧ (Phrase.statement result).MadeOf words
  | .branches _ others otherwise =>
      ∃ words, InFront words tokens rest ∧
        Phrase.AllMadeOf
          (Statement.branchLayout .elifKeyword others ++
            Statement.otherwiseLayout otherwise) words ∧
        ∀ (first : Statement) before, first.span.Encloses before →
          ∃ front last, before ++ words = front ++ last ∧
            (Parser.lastBranch first others otherwise).span.Encloses last
  | .block _ body span =>
      ∃ words, InFront words tokens rest ∧ span.Encloses words ∧
        Phrase.AllMadeOf (Statement.blockLayout body) words
  | .statements _ body =>
      ∃ words, InFront words tokens rest ∧
        Phrase.AllMadeOf (body.map Item.statement) words

theorem lastBranch_cons
    (first body : Statement)
    (condition : Expression)
    (others : List (Expression × Statement))
    (otherwise : Option Statement) :
    Parser.lastBranch first ((condition, body) :: others) otherwise =
      Parser.lastBranch body others otherwise := by
  cases otherwise with
  | some last => rfl
  | none =>
      cases others with
      | nil => rfl
      | cons branch others =>
          simp only [Parser.lastBranch, List.getLast?_cons_cons,
            List.getLast?_eq_some_getLast (List.cons_ne_nil branch others)]

/-- A condition, what it guards and the further branches. -/
theorem guarded_madeBetween
    {source : SourceUnit}
    {around : Surroundings}
    {condition : Expression}
    {body : Statement}
    {others : List (Expression × Statement)}
    {otherwise : Option Statement}
    {tokens afterTest afterBody rest : List Token}
    (laidOut : LaidOut source tokens)
    (test : (ExpressionPart.expression condition).ReadFrom tokens afterTest)
    (chosen : LaidOut source afterTest →
      (statement around body).MadeBetween afterTest afterBody)
    (more : LaidOut source afterBody →
      (branches around others otherwise).MadeBetween afterBody rest) :
    ∃ words, InFront words tokens rest ∧
      Phrase.AllMadeOf
        (.expression condition :: .statement body ::
          (Statement.branchLayout .elifKeyword others ++
            Statement.otherwiseLayout otherwise))
        words ∧
      ∃ front last, words = front ++ last ∧
        (Parser.lastBranch body others otherwise).span.Encloses last := by
  obtain ⟨testWords, testFront, testMade⟩ := test.madeOf laidOut
  have afterTest := testFront.laidOut_rest laidOut
  obtain ⟨bodyWords, bodyFront, bodyMade⟩ := chosen afterTest
  obtain ⟨moreWords, moreFront, moreMade, lastEncloses⟩ :=
    more (bodyFront.laidOut_rest afterTest)
  obtain ⟨front, last, isEnd, encloses⟩ := lastEncloses body _ bodyMade.encloses
  refine ⟨_, testFront.trans (bodyFront.trans moreFront), ?_, testWords ++ front, last,
    ?_, encloses⟩
  · exact .node testMade (.node bodyMade moreMade)
  · rw [isEnd, List.append_assoc]

/-- A statement from its keyword on, if its span reaches to the end of the last part. -/
theorem keyword_madeBetween
    {source : SourceUnit}
    {result : Statement}
    {keyword : Token}
    {kind : TokenKind}
    {tokens rest front last : List Token}
    {items : List Item}
    {lastSpan : Span}
    (laidOut : LaidOut source (keyword :: tokens))
    (isKind : keyword.kind = kind)
    (notBreak : kind ≠ .newline)
    (isFront : InFront (front ++ last) tokens rest)
    (isSpan : result.span = keyword.span.through lastSpan)
    (encloses : lastSpan.Encloses last)
    (isLayout : result.layout = .mark kind :: items)
    (inside : Phrase.AllMadeOf items (front ++ last)) :
    ∃ words, InFront words (keyword :: tokens) rest ∧
      (Phrase.statement result).MadeOf words := by
  have whole : InFront ([keyword] ++ (front ++ last)) (keyword :: tokens) rest :=
    (InFront.word isKind notBreak tokens).trans isFront
  refine ⟨_, whole, .node ?_ ?_⟩
  · rw [Phrase.span, isSpan]
    exact (Span.Encloses.single keyword).through encloses front (whole.laidOut laidOut)
  · rw [Phrase.layout, isLayout]
    exact .word isKind inside

/-- The nodes of a part are made of the tokens that it is read from. -/
theorem ReadFrom.madeBetween
    {source : SourceUnit}
    {part : StatementPart}
    {tokens rest : List Token}
    (reads : part.ReadFrom tokens rest)
    (laidOut : LaidOut source tokens) :
    part.MadeBetween tokens rest := by
  induction reads with
  | @variableDeclaration _ tokens _ _ keyword name equals isVariable isName isEqual
      value =>
      have isKind : keyword.kind =
          if decide (keyword.kind = .constKeyword) then .constKeyword else .varKeyword := by
        rcases isVariable with isVar | isConst
        · rw [isVar]
          rfl
        · rw [isConst]
          rfl
      have notBreak : (if decide (keyword.kind = .constKeyword) then
          TokenKind.constKeyword else .varKeyword) ≠ .newline := by
        split <;> exact nofun
      have heading := (InFront.word isName nofun (equals :: tokens)).trans
        (.word isEqual nofun tokens)
      have behindKeyword := (InFront.word isKind notBreak _).laidOut_rest laidOut
      obtain ⟨words, isFront, valueMade⟩ :=
        value.madeOf (heading.laidOut_rest behindKeyword)
      exact keyword_madeBetween laidOut isKind notBreak (heading.trans isFront) rfl
        valueMade.encloses rfl
        (.word ⟨isName, rfl⟩ (.word isEqual (.single valueMade)))
  | @functionDeclaration names tokens later _ _ _ _ _ name isFunction isName parameters
      _ block =>
      have behindKeyword := (InFront.word isFunction nofun _).laidOut_rest laidOut
      obtain ⟨given, givenFront, givenSpells⟩ := InFront.of_spelled parameters.spelled
      have heading := (InFront.word isName nofun tokens).trans givenFront
      obtain ⟨words, isFront, encloses, inside⟩ :=
        block (heading.laidOut_rest behindKeyword)
      have givenMade := Phrase.AllMadeOf.of_spells givenSpells
      exact keyword_madeBetween laidOut isFunction nofun (heading.trans isFront) rfl
        encloses rfl (.word ⟨isName, rfl⟩ (givenMade.append inside))
  | simple _ statement =>
      exact statement laidOut
  | block _ block =>
      obtain ⟨words, isFront, encloses, inside⟩ := block laidOut
      exact ⟨words, isFront, .node encloses inside⟩
  | whileLoop isWhile test _ repeated =>
      have behindKeyword := (InFront.word isWhile nofun _).laidOut_rest laidOut
      obtain ⟨testWords, testFront, testMade⟩ := test.madeOf behindKeyword
      obtain ⟨words, isFront, bodyMade⟩ :=
        repeated (testFront.laidOut_rest behindKeyword)
      exact keyword_madeBetween laidOut isWhile nofun (testFront.trans isFront) rfl
        bodyMade.encloses rfl (.node testMade (.single bodyMade))
  | conditional isIf test _ _ chosen more =>
      have behindKeyword := (InFront.word isIf nofun _).laidOut_rest laidOut
      obtain ⟨_, isFront, inside, front, last, rfl, encloses⟩ :=
        guarded_madeBetween behindKeyword test chosen more
      exact keyword_madeBetween laidOut isIf nofun isFront rfl encloses rfl inside
  | @breakLoop _ keyword rest isBreak _ =>
      exact ⟨_, .word isBreak nofun rest, .node (.single keyword) (.word isBreak .none)⟩
  | @continueLoop _ keyword rest isContinue _ =>
      exact ⟨_, .word isContinue nofun rest,
        .node (.single keyword) (.word isContinue .none)⟩
  | @returnNothing _ keyword rest isReturn _ _ =>
      exact ⟨_, .word isReturn nofun rest, .node (.single keyword) (.word isReturn .none)⟩
  | returnValue isReturn _ result =>
      have behindKeyword := (InFront.word isReturn nofun _).laidOut_rest laidOut
      obtain ⟨words, isFront, valueMade⟩ := result.madeOf behindKeyword
      exact keyword_madeBetween laidOut isReturn nofun ((InFront.refl _).trans isFront) rfl
        valueMade.encloses rfl (.single valueMade)
  | expression inner =>
      obtain ⟨words, isFront, made⟩ := inner.madeOf laidOut
      exact ⟨words, isFront, .node made.encloses (.single made)⟩
  | @elifBranch tokens keyword afterKeyword _ _ _ _ _ _ _ _ atBranch isElif test _ _
      chosen more =>
      have toKeyword : InFront [] tokens (keyword :: afterKeyword) :=
        .breaks (.of_skipBranchBreak (atBranch ▸ .refl _))
      have heading := toKeyword.trans (.word isElif nofun afterKeyword)
      obtain ⟨words, isFront, inside, front, last, isEnd, encloses⟩ :=
        guarded_madeBetween (heading.laidOut_rest laidOut) test chosen more
      refine ⟨_, heading.trans isFront, .word isElif inside, fun first before _ => ?_⟩
      rw [lastBranch_cons]
      refine ⟨before ++ ([keyword] ++ front), last, ?_, encloses⟩
      rw [isEnd, List.nil_append, List.append_assoc, List.append_assoc]
  | @elseBranch tokens keyword afterKeyword _ _ _ atBranch isElse _ chosen =>
      have toKeyword : InFront [] tokens (keyword :: afterKeyword) :=
        .breaks (.of_skipBranchBreak (atBranch ▸ .refl _))
      have heading := toKeyword.trans (.word isElse nofun afterKeyword)
      obtain ⟨words, isFront, made⟩ := chosen (heading.laidOut_rest laidOut)
      refine ⟨_, heading.trans isFront, .word isElse (.single made),
        fun first before _ => ⟨before ++ [keyword], words, ?_, made.encloses⟩⟩
      rw [List.nil_append, List.append_assoc]
  | noBranch _ _ =>
      exact ⟨[], .refl _, .none, fun first before encloses =>
        ⟨[], before, List.append_nil before, encloses⟩⟩
  | @braces _ tokens closing rest _ opening isOpening _ isClosing content =>
      have heading := InFront.word isOpening nofun tokens
      obtain ⟨words, isFront, inside⟩ := content (heading.laidOut_rest laidOut)
      have whole := heading.trans (isFront.trans (.word isClosing nofun rest))
      exact ⟨_, whole,
        (Span.Encloses.single opening).through (.single closing) words
          (whole.laidOut laidOut),
        .word isOpening (inside.append (.word isClosing .none))⟩
  | noStatement _ =>
      exact ⟨[], .breaks (.of_skipBreaks (.refl _)), .none⟩
  | @moreStatements _ _ tokens _ _ _ _ _ ends _ firstMade othersMade =>
      have toFirst : InFront [] tokens (skipBreaks tokens) :=
        .breaks (.of_skipBreaks (.refl _))
      have fromFirst := toFirst.laidOut_rest laidOut
      obtain ⟨words, isFront, made⟩ := firstMade fromFirst
      have upToEnd := isFront.trans (.breaks ends.spelled)
      rw [List.append_nil] at upToEnd
      obtain ⟨others, othersFront, othersMade⟩ :=
        othersMade (upToEnd.laidOut_rest fromFirst)
      have bodyMade := Phrase.AllMadeOf.node made othersMade
      exact ⟨_, toFirst.trans (upToEnd.trans othersFront), bodyMade⟩

end StatementPart

/-! ## Spans -/

/-- That a span is a stretch of its text, from one place between characters to another,
and that this stretch is its text. -/
def Span.IsStretch (span : Span) : Prop :=
  ∃ before inside rest,
    span.source.code.toList = before ++ (inside ++ rest) ∧
    span.start.Behind before ∧
    span.stop.Behind (before ++ inside) ∧
    span.text = String.ofList inside

/-- A span from one exact place to another that is not in front of it. -/
theorem Span.isStretch_of_exact
    {source : SourceUnit}
    {span : Span}
    {behindStart behindStop : List Char}
    (isSource : span.source = source)
    (startsExact : source.Exact span.start behindStart)
    (stopsExact : source.Exact span.stop behindStop)
    (forwards : span.stop.NotBefore span.start) :
    span.IsStretch := by
  obtain ⟨before, isBefore, startsBehind⟩ := startsExact
  obtain ⟨reached, isReached, stopsBehind⟩ := stopsExact
  -- Of two beginnings of a text the shorter one is a beginning of the other.
  have isFront : before <+: reached := by
    rcases List.prefix_or_prefix_of_prefix ⟨_, isBefore.symm⟩ ⟨_, isReached.symm⟩
      with isFront | ⟨extra, rfl⟩
    · exact isFront
    · cases extra with
      | nil => simp
      | cons character extra =>
          have isStart := startsBehind.unique (stopsBehind.after (character :: extra))
          have isBehind := span.stop.precedes_after (List.cons_ne_nil character extra)
          rw [← isStart, forwards] at isBehind
          cases isBehind
  obtain ⟨inside, rfl⟩ := isFront
  rw [← isSource, List.append_assoc] at isReached
  refine ⟨before, inside, behindStop, isReached, startsBehind, stopsBehind, ?_⟩
  apply Span.text_eq
  · exact isReached
  · exact startsBehind.index_eq
  · rw [← byteLength_append]
    exact stopsBehind.index_eq

/-- That a span lies inside of another one. -/
structure Span.Within (span outer : Span) : Prop where
  source_eq : span.source = outer.source
  starts : span.start.NotBefore outer.start
  stops : outer.stop.NotBefore span.stop

/-- That a span lies behind another one. -/
def Span.Follows (span earlier : Span) : Prop :=
  span.start.NotBefore earlier.stop

namespace LaidOut

variable {source : SourceUnit} {tokens : List Token} {first last token : Token}

/-- No token starts before the first one. -/
theorem start_notBefore
    (laidOut : LaidOut source tokens)
    (isFirst : tokens.head? = some first)
    (isToken : token ∈ tokens) :
    token.span.start.NotBefore first.span.start := by
  obtain ⟨others, rfl⟩ := List.head?_eq_some_iff.mp isFirst
  rcases List.mem_cons.mp isToken with rfl | isLater
  · exact .refl _
  · have isBehind := List.rel_of_pairwise_cons laidOut.ordered isLater
    exact isBehind.trans (laidOut.forwards first List.mem_cons_self)

/-- No token ends behind the last one. -/
theorem stop_notBefore
    (laidOut : LaidOut source tokens)
    (isLast : tokens.getLast? = some last)
    (isToken : token ∈ tokens) :
    last.span.stop.NotBefore token.span.stop := by
  obtain ⟨others, rfl⟩ := List.getLast?_eq_some_iff.mp isLast
  rcases List.mem_append.mp isToken with isEarlier | isSame
  · have isBehind : last.span.start.NotBefore token.span.stop :=
      (List.pairwise_append.mp laidOut.ordered).2.2 token isEarlier last
        List.mem_cons_self
    exact (laidOut.forwards last (List.mem_of_getLast? isLast)).trans isBehind
  · obtain rfl := List.mem_singleton.mp isSame
    exact .refl _

end LaidOut

namespace Span.Encloses

/-- The span of a part of a run lies inside of the span of the run. -/
theorem within
    {source : SourceUnit}
    {span outer : Span}
    {part tokens : List Token}
    (encloses : span.Encloses part)
    (outerEncloses : outer.Encloses tokens)
    (laidOut : LaidOut source tokens)
    (isPart : part <:+: tokens) :
    span.Within outer := by
  obtain ⟨first, last, isFirst, isLast, rfl⟩ := encloses
  obtain ⟨opening, closing, isOpening, isClosing, rfl⟩ := outerEncloses
  have firstInside : first ∈ tokens := isPart.subset (List.mem_of_mem_head? isFirst)
  have lastInside : last ∈ tokens := isPart.subset (List.mem_of_getLast? isLast)
  have openingInside : opening ∈ tokens := List.mem_of_mem_head? isOpening
  refine ⟨?_, laidOut.start_notBefore isOpening firstInside,
    laidOut.stop_notBefore isClosing lastInside⟩
  rw [laidOut.source_eq first firstInside, laidOut.source_eq opening openingInside]

/-- The span of a later run lies behind the span of an earlier one. -/
theorem follows
    {source : SourceUnit}
    {span earlier : Span}
    {used behind : List Token}
    (earlierEncloses : earlier.Encloses used)
    (encloses : span.Encloses behind)
    (laidOut : LaidOut source (used ++ behind)) :
    span.Follows earlier := by
  obtain ⟨first, _, isFirst, _, rfl⟩ := encloses
  obtain ⟨_, last, _, isLast, rfl⟩ := earlierEncloses
  exact (List.pairwise_append.mp laidOut.ordered).2.2 last
    (List.mem_of_getLast? isLast) first (List.mem_of_mem_head? isFirst)

/-- The first and the last token of a run of words. -/
theorem exists_words
    {source : SourceUnit}
    {span : Span}
    {used : List Token}
    (encloses : span.Encloses used)
    (isUsed : used <:+: withoutBreaks source.bodyTokens) :
    ∃ first last : Token,
      span = ⟨first.span.start, last.span.stop, first.span.source⟩ ∧
      first.Placed source ∧
      last.Placed source ∧
      last.kind ≠ .newline ∧
      last.span.stop.NotBefore first.span.start := by
  obtain ⟨first, last, isFirst, isLast, rfl⟩ := encloses
  have someWord {token : Token} (isSome : token ∈ used) :
      token ∈ source.bodyTokens ∧ token.kind ≠ .newline := by
    simpa [withoutBreaks] using isUsed.subset isSome
  have isPlaced {token : Token} (isSome : token ∈ used) : token.Placed source :=
    Token.placed_of_mem_scan (List.mem_append_left _ (someWord isSome).1)
  have firstSome := List.mem_of_mem_head? isFirst
  have lastSome := List.mem_of_getLast? isLast
  have laidOut : LaidOut source used :=
    source.laidOut.of_sublist (isUsed.sublist.trans List.filter_sublist)
  exact ⟨first, last, rfl, isPlaced firstSome, isPlaced lastSome, (someWord lastSome).2,
    (laidOut.stop_notBefore isLast firstSome).trans (laidOut.forwards first firstSome)⟩

/-- The span of a run of words is a stretch of the text. -/
theorem isStretch
    {source : SourceUnit}
    {span : Span}
    {used : List Token}
    (encloses : span.Encloses used)
    (isUsed : used <:+: withoutBreaks source.bodyTokens) :
    span.IsStretch := by
  obtain ⟨first, last, rfl, firstPlaced, lastPlaced, isWord, forwards⟩ :=
    encloses.exists_words isUsed
  obtain ⟨_, _, startsExact, _⟩ := firstPlaced.shown.starts
  obtain ⟨_, stopsExact⟩ := lastPlaced.stops isWord
  exact Span.isStretch_of_exact firstPlaced.shown.source_eq startsExact stopsExact forwards

end Span.Encloses

namespace Phrase

/-- The nodes inside of a node lie inside of its span. -/
theorem MadeOf.within
    {source : SourceUnit}
    {phrase child : Phrase}
    {used : List Token}
    (made : phrase.MadeOf used)
    (laidOut : LaidOut source used)
    (isChild : child ∈ phrase.children) :
    child.span.Within phrase.span := by
  obtain ⟨part, isPart, childMade⟩ := made.exists_child isChild
  exact childMade.encloses.within made.encloses laidOut isPart

/-- The nodes among items that are made of a run of tokens follow one another. -/
theorem AllMadeOf.follow
    {source : SourceUnit}
    {items : List Item}
    {tokens : List Token}
    (made : AllMadeOf items tokens)
    (laidOut : LaidOut source tokens) :
    (items.filterMap Item.node?).Pairwise fun first second =>
      second.span.Follows first.span := by
  induction items generalizing tokens with
  | nil => exact .nil
  | cons item rest inductionHypothesis =>
      cases made with
      | word spells others =>
          exact inductionHypothesis others (laidOut.of_sublist (List.sublist_cons_self _ _))
      | node first others =>
          refine .cons ?_ (inductionHypothesis others laidOut.second)
          intro later isLater
          obtain ⟨part, isPart, laterMade⟩ := others.exists_of_mem isLater
          exact first.encloses.follows laterMade.encloses
            (laidOut.of_sublist (isPart.sublist.append_left _))

end Phrase

/-- A program is made of the words of the text that it is read from. -/
theorem SourceUnit.ReadAs.madeOf
    {source : SourceUnit}
    {program : List Statement}
    (reads : source.ReadAs program) :
    Phrase.AllMadeOf (program.map Item.statement) (withoutBreaks source.bodyTokens) := by
  have read := parse_eq_ok_iff.mp reads.parsed
  rw [body_scan] at read
  obtain ⟨_, ⟨used, isSplit, rfl⟩, made⟩ := read.madeBetween source.laidOut
  rw [isSplit, List.append_nil]
  exact made

/-- The spans of a program that is read without any fault are exact and nested.  Its
statements are made of all the words of the text, one right behind the other, and so is
what stands in a node of the words of the node.  Every node, wherever it occurs, is made of
a run of words in this way, and its span reaches from the first of them to the last, so its
text is what stands there.  The spans of the nodes inside of it lie inside of its own, one
behind the other, and so do those of the statements of the program. -/
theorem SourceUnit.ReadAs.spans_exact
    {source : SourceUnit}
    {program : List Statement}
    (reads : source.ReadAs program) :
    Phrase.AllMadeOf (program.map Item.statement) (withoutBreaks source.bodyTokens) ∧
    (∀ frames phrase, Occurs program frames phrase →
      (∃ used, used <:+: withoutBreaks source.bodyTokens ∧
        phrase.MadeOf used ∧
        List.Forall₂ Token.Spells used phrase.words ∧
        phrase.span.Encloses used) ∧
      phrase.span.source = source ∧
      phrase.span.IsStretch ∧
      (∀ child ∈ phrase.children, child.span.Within phrase.span) ∧
      phrase.children.Pairwise fun first second => second.span.Follows first.span) ∧
    program.Pairwise fun first second => second.span.Follows first.span := by
  have made := reads.madeOf
  have laidOut : LaidOut source (withoutBreaks source.bodyTokens) :=
    source.laidOut.of_sublist List.filter_sublist
  refine ⟨made, ?_, ?_⟩
  · intro frames phrase occurs
    obtain ⟨used, isUsed, phraseMade⟩ := occurs.exists_madeOf made
    have usedLaidOut := laidOut.of_part isUsed
    have follow := phraseMade.inside.follow usedLaidOut
    rw [phrase.nodes_layout] at follow
    refine ⟨⟨used, isUsed, phraseMade, phraseMade.spells, phraseMade.encloses⟩, ?_,
      phraseMade.encloses.isStretch isUsed, fun child => phraseMade.within usedLaidOut,
      follow⟩
    obtain ⟨first, _, isFirst, _, isSpan⟩ := phraseMade.encloses.reaches
    rw [isSpan]
    exact usedLaidOut.source_eq first (List.mem_of_mem_head? isFirst)
  · have follow := made.follow laidOut
    rw [Statement.nodes_body] at follow
    exact List.pairwise_map.mp follow

theorem readAs_branches :
    ∃ program,
      (SourceUnit.mk "main" "if a \x7b b = 1 \x7d\nelse -c(2)").ReadAs program ∧
      (match program with
      | [.conditional [(_, body)] (some otherwise) span] =>
          span.text = "if a \x7b b = 1 \x7d\nelse -c(2)" ∧
            body.span.text = "\x7b b = 1 \x7d" ∧ otherwise.span.text = "-c(2)"
      | _ => false) = true :=
  SourceUnit.exists_readAs _ _ (by decide +kernel) (by decide +kernel)

/-- A conditional whose branches stand on lines of their own. -/
theorem SourceUnit.ReadAs.spans_exact_conditional :
    ∃ condition body otherwise span,
      let conditional : Statement :=
        .conditional [(condition, body)] (some otherwise) span
      (SourceUnit.mk "main" "if a \x7b b = 1 \x7d\nelse -c(2)").ReadAs [conditional] ∧
        span.text = "if a \x7b b = 1 \x7d\nelse -c(2)" ∧
        body.span.text = "\x7b b = 1 \x7d" ∧
        otherwise.span.text = "-c(2)" ∧
        span.IsStretch ∧
        body.span.Within span ∧
        otherwise.span.Within span ∧
        body.span.Follows condition.span ∧
        otherwise.span.Follows body.span := by
  obtain ⟨program, reads, texts⟩ := readAs_branches
  split at texts
  case h_2 => cases texts
  case h_1 condition body otherwise span =>
    obtain ⟨isWhole, isBody, isOtherwise⟩ := of_decide_eq_true texts
    obtain ⟨_, _, isStretch, inside, follow⟩ :=
      reads.spans_exact.2.1 [] _ (.top List.mem_cons_self)
    have children : (Phrase.statement (.conditional [(condition, body)] (some otherwise)
          span)).children =
        [.expression condition, .statement body, .statement otherwise] :=
      rfl
    rw [children] at inside follow
    obtain ⟨behindCondition, behindBody⟩ := List.pairwise_cons.mp follow
    have isSecond : Phrase.statement body ∈ [.statement body, .statement otherwise] :=
      List.mem_cons_self
    have isThird : Phrase.statement otherwise ∈ [.statement body, .statement otherwise] :=
      List.mem_cons_of_mem _ List.mem_cons_self
    exact ⟨condition, body, otherwise, span, reads, isWhole, isBody, isOtherwise,
      isStretch, inside _ (List.mem_cons_of_mem _ isSecond),
      inside _ (List.mem_cons_of_mem _ isThird), behindCondition _ isSecond,
      List.rel_of_pairwise_cons behindBody List.mem_cons_self⟩

end Scriptlet
