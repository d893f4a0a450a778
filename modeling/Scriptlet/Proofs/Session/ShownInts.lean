import Scriptlet.Proofs.Grammar.IntegerLiterals
import Scriptlet.Proofs.Session.Split

namespace Scriptlet

/-!
# Integers that are shown are programs

An integer is shown by its digits, behind a minus sign if it is negative.  As a program
this is a number without a sign, or the negation of one: the sign is an operator, and the
digits have to stand for an integer by themselves.  They do, except for those of the least
integer, which is one more away from zero than the greatest one.
-/

/-! ## The two forms -/

/-- A minus sign is a token of its own. -/
theorem segments_minus (rest : List Char) :
    segments ('-' :: rest) = Segment.plainToken .dash ['-'] :: segments rest := by
  apply segments_of_cut
  have isSymbol : Segment.cut '-' rest = Segment.cutSymbol '-' rest := rfl
  have isDash : Segment.symbolOf? '-' = some .dash := rfl
  rw [isSymbol]
  unfold Segment.cutSymbol
  simp only [isDash]
  split <;> rfl

theorem digitsValue_toDigits (number : Nat) :
    digitsValue (Nat.toDigits 10 number) = number := by
  rw [digitsValue, Nat.ofDigitChars_ten_toDigits]

section Forms

variable {digits : List Char}

/-- The token of a minus sign at the front. -/
def Token.frontMinus (source : SourceUnit) : Token :=
  ⟨.dash, "-", ⟨.origin, ⟨1, 1, 1⟩, source⟩⟩

theorem bodyTokens_minus
    {source : SourceUnit}
    (isText : source.code.toList = '-' :: digits)
    (allDigits : isDigits digits = true) :
    source.bodyTokens =
        [Token.frontMinus source, Token.ofDigits source ⟨1, 1, 1⟩ digits] ∧
      source.scan.diagnostics = [] := by
  have isCut := (Spelling.whole allDigits).segments_eq
  simp only [SourceUnit.bodyTokens, SourceUnit.scan, SourceUnit.placedSegments, isText,
    segments_minus, isCut]
  exact ⟨rfl, rfl⟩

variable {source : SourceUnit} {size : Nat}

theorem readAs_digits
    (isText : source.code.toList = Nat.toDigits 10 size)
    (fits : (size : Int) ≤ Int64.maxValue.toInt) :
    ∃ span, source.ReadAs [.expression (.literal (.int (Int64.ofInt size)) span)] := by
  have isValue : digitsValue source.code.toList = size := by
    rw [isText, digitsValue_toDigits]
  have allDigits : isDigits source.code.toList = true := by
    rw [isText]
    exact isDigits_toDigits size
  have reads := SourceUnit.readAs_of_isDigits allDigits (by rwa [isValue])
  rw [isValue] at reads
  exact ⟨_, reads⟩

theorem readAs_minus
    (isText : source.code.toList = '-' :: Nat.toDigits 10 size)
    (fits : (size : Int) ≤ Int64.maxValue.toInt) :
    ∃ span, source.ReadAs
      [.expression (.ofUnary (.frontMinus source)
        (.literal (.int (Int64.ofInt size)) span))] := by
  obtain ⟨tokens, noFault⟩ := bodyTokens_minus isText (isDigits_toDigits size)
  have operand := Token.readBack_ofDigits (isDigits_toDigits size)
    (by rwa [digitsValue_toDigits]) source ⟨1, 1, 1⟩
  have binds : unaryLevel ≤ primaryLevel := by decide
  have isUnary : (Token.frontMinus source).kind.isUnary = true := rfl
  have atEnd : (nextKind []).extendsExpression = false := rfl
  have reads := (operand.unary binds isUnary).expression (Nat.succ_pos _) atEnd
  rw [List.append_nil, ← tokens, digitsValue_toDigits] at reads
  exact ⟨_, SourceUnit.readAs_expression noFault reads⟩

end Forms

/-! ## Running -/

namespace Store

theorem runProgram?_literal
    (store : Store)
    (steps : Nat)
    (scope : ScopeId)
    (number : Int64)
    (span : Span) :
    store.runProgram? (steps + 3) scope [.expression (.literal (.int number) span)] =
      some ⟨[⟨.int number, scope⟩], [], store⟩ :=
  rfl

/-- A number is negated by multiplying it by minus one. -/
theorem runProgram?_minus
    (store : Store)
    (steps : Nat)
    (scope : ScopeId)
    (source : SourceUnit)
    (number : Int64)
    (span : Span) :
    store.runProgram? (steps + 3) scope
        [.expression (.ofUnary (.frontMinus source) (.literal (.int number) span))] =
      some ⟨[⟨.int (number * -1), scope⟩], [], store⟩ :=
  rfl

end Store

theorem SourceUnit.bodyTokens_minValue (name : String) :
    (SourceUnit.mk name "-9223372036854775808").bodyTokens =
        [.frontMinus ⟨name, "-9223372036854775808"⟩,
          .ofDigits ⟨name, "-9223372036854775808"⟩ ⟨1, 1, 1⟩
            "9223372036854775808".toList] ∧
      (SourceUnit.mk name "-9223372036854775808").scan.diagnostics = [] := by
  have isText : "-9223372036854775808".toList = '-' :: "9223372036854775808".toList := by
    decide
  exact bodyTokens_minus isText (by decide)

/-- The digits of the least integer are refused. -/
theorem SourceUnit.parse_minValue (name : String) :
    parse (SourceUnit.mk name "-9223372036854775808").scan.tokens =
      .error (SyntaxFault.locate (.tooBigValue .int)
        ⟨⟨1, 1, 1⟩, ⟨1, 20, 20⟩, ⟨name, "-9223372036854775808"⟩⟩) := by
  obtain ⟨tokens, _⟩ := bodyTokens_minValue name
  have allDigits : isDigits "9223372036854775808".toList = true := by decide
  have tooBig : Int64.maxValue.toInt < digitsValue "9223372036854775808".toList := by decide
  have isSign (source : SourceUnit) : (Token.frontMinus source).kind.isUnary = true := rfl
  have refused (stop : Token) :=
    Parser.settles_unary_of_sign (isSign ⟨name, "-9223372036854775808"⟩)
      (Token.settles_unary_ofDigits allDigits tooBig
        ⟨name, "-9223372036854775808"⟩ ⟨1, 1, 1⟩ stop [])
  rw [← tokens] at refused
  have starts : (nextKind (bodyTokens ⟨name, "-9223372036854775808"⟩)).startsExpression =
      true := by
    rw [tokens]
    rfl
  exact parse_of_unary refused starts

namespace Store

theorem run?_minValue
    (store : Store)
    (steps : Nat)
    (scope : ScopeId)
    (name : String) :
    store.run? steps scope ⟨name, "-9223372036854775808"⟩ =
      some ⟨[], [SyntaxFault.locate (.tooBigValue .int)
        ⟨⟨1, 1, 1⟩, ⟨1, 20, 20⟩, ⟨name, "-9223372036854775808"⟩⟩], store⟩ := by
  obtain ⟨_, noFault⟩ := SourceUnit.bodyTokens_minValue name
  simp only [run?, noFault, SourceUnit.parse_minValue, List.isEmpty_nil, if_true]

/-- An integer that is shown, run as a program in any scope, gives just this integer;
only the least integer is refused, at its digits. -/
theorem run?_display_int
    (store : Store)
    (steps : Nat)
    (scope : ScopeId)
    (name : String)
    (number : Int64) :
    store.run? (steps + 3) scope ⟨name, (Payload.int number).display⟩ =
      some
        (if number = Int64.minValue then
          ⟨[], [SyntaxFault.locate (.tooBigValue .int)
            ⟨⟨1, 1, 1⟩, ⟨1, 20, 20⟩, ⟨name, (Payload.int number).display⟩⟩], store⟩
        else
          ⟨[⟨.int number, scope⟩], [], store⟩) := by
  by_cases isLeast : number = Int64.minValue
  · subst isLeast
    exact store.run?_minValue (steps + 3) scope name
  rw [if_neg isLeast]
  have isText : (SourceUnit.mk name (Payload.int number).display).code.toList =
      if 0 ≤ number.toInt then Nat.toDigits 10 number.toInt.toNat
      else '-' :: Nat.toDigits 10 (-number.toInt).toNat :=
    toList_toString number.toInt
  have atMost : number.toInt ≤ Int64.maxValue.toInt := number.toInt_le
  split at isText
  case isTrue nonneg =>
    have isSize : (number.toInt.toNat : Int) = number.toInt := Int.toNat_of_nonneg nonneg
    obtain ⟨span, reads⟩ := readAs_digits isText (isSize ▸ atMost)
    rw [isSize, Int64.ofInt_toInt] at reads
    rw [run?_of_readAs reads]
    exact store.runProgram?_literal steps scope number span
  case isFalse negative =>
    have isSize : ((-number.toInt).toNat : Int) = -number.toInt :=
      Int.toNat_of_nonneg (by omega)
    have fits : ((-number.toInt).toNat : Int) ≤ Int64.maxValue.toInt := by
      have notLeast : number.toInt ≠ Int64.minValue.toInt := by
        rwa [ne_eq, Int64.toInt_inj]
      have atLeast : Int64.minValue.toInt ≤ number.toInt := number.le_toInt
      have isLeastInt : Int64.minValue.toInt = -Int64.maxValue.toInt - 1 := by decide
      omega
    obtain ⟨span, reads⟩ := readAs_minus isText fits
    rw [isSize] at reads
    have isNegated : Int64.ofInt (-number.toInt) * -1 = number := by
      rw [Int64.ofInt_neg, Int64.ofInt_toInt, Int64.mul_neg, Int64.mul_one, Int64.neg_neg]
    rw [run?_of_readAs reads]
    have runs := store.runProgram?_minus steps scope
      ⟨name, (Payload.int number).display⟩ (Int64.ofInt (-number.toInt)) span
    rwa [isNegated] at runs

/-- The least integer is shown in a way that is refused, with the tip that integers may be
as little as this. -/
theorem run?_display_minValue :
    ∃ diagnostic,
      (Store.empty.openFile "main").run? ampleSteps 0
          ⟨"main", (Payload.int Int64.minValue).display⟩ =
        some ⟨[], [diagnostic], Store.empty.openFile "main"⟩ ∧
      diagnostic.tip =
        some "Integers must lie between -9223372036854775808 and 9223372036854775807" :=
  ⟨_, run?_minValue _ ampleSteps 0 "main", by decide⟩

end Store

end Scriptlet
