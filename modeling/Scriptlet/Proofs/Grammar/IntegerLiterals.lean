import Mathlib.Data.Nat.Digits.Defs
import Scriptlet.Proofs.Decimal.Layout
import Scriptlet.Proofs.Grammar.Excerpts
import Scriptlet.Proofs.Grammar.FirstFault
import Scriptlet.Proofs.Token.Numbers

namespace Scriptlet

/-!
# Integer literals are exact or refused

A text of digits, however long it is, is a single token.  If the number that the digits
stand for is less than two to the power of 63, then the text is read as a literal of
exactly this number; otherwise the token is refused as a whole.  Only the number counts
for this, not how many digits there are: zeros in front make it no bigger.
-/

/-! ## The number that digits stand for -/

/-- The number that digits stand for by their places: the last one counts ones, and each
of the others ten times as much as the one behind it. -/
def decimalValue (digits : List Char) : Nat :=
  Nat.ofDigits 10 (digits.reverse.map fun digit => digit.toNat - '0'.toNat)

theorem decimalValue_cons (digit : Char) (rest : List Char) :
    decimalValue (digit :: rest) =
      10 ^ rest.length * (digit.toNat - '0'.toNat) + decimalValue rest := by
  rw [decimalValue, List.reverse_cons, List.map_append, Nat.ofDigits_append,
    List.map_singleton, Nat.ofDigits_singleton, List.length_map, List.length_reverse,
    Nat.add_comm, decimalValue]

/-- Taking in the digits one after the other gives the number they stand for. -/
theorem digitsValue_eq_decimalValue (digits : List Char) :
    digitsValue digits = decimalValue digits := by
  induction digits with
  | nil => rfl
  | cons digit rest inductionHypothesis =>
      rw [digitsValue, Nat.ofDigitChars_cons, Nat.ofDigitChars_eq_ofDigitChars_zero,
        ← digitsValue, inductionHypothesis, decimalValue_cons, Nat.mul_zero, Nat.zero_add]

/-- Digits are an integer if the number they stand for is not too big. -/
theorem readInt?_of_isDigits
    {digits : List Char}
    (allDigits : isDigits digits = true) :
    readInt? (String.ofList digits) =
      if (digitsValue digits : Int) ≤ Int64.maxValue.toInt then
        some (Int64.ofInt (digitsValue digits))
      else
        none := by
  have isWhole : readWhole? digits = some (digitsValue digits : Int) := by
    simp only [readWhole?, splitSign_of_isDigits allDigits, allDigits, if_true,
      Bool.false_eq_true, if_false]
  have atLeast : Int64.minValue.toInt ≤ (digitsValue digits : Int) :=
    Int.le_trans (by decide) (Int.natCast_nonneg _)
  rw [readInt?, String.toList_ofList, isWhole, Option.bind_some]
  simp only [atLeast, true_and]

/-! ## Operands that are refused

An expression, a statement and a program are refused if their first operand is.
-/

namespace Parser

section

variable
  {stop token found : Token}
  {tokens rest : List Token}
  {fault : SyntaxFault}

/-- A token that is neither an operand nor the start of one is refused where an operand
should stand. -/
theorem settles_unary_of_atom
    (noAtom : atom token = .error fault)
    (notOpening : token.kind ≠ .leftParen)
    (notUnary : token.kind.isUnary = false) :
    Settles unary stop (token :: rest) (.refused fault token) := by
  have refused : Settles primary stop (token :: rest) (.refused fault token) := by
    have isHead : (List.headD (token :: rest) stop).kind ≠ .leftParen := notOpening
    have refusal : Settles (fun _ => (refuse fault token : Parser Expression)) stop rest
        (.refused fault token) :=
      ⟨0, fun _ _ => rfl⟩
    refine refusal.afterStep fun fuel => ?_
    rw [primary_of_ne isHead, List.headD_cons, noAtom]
    rfl
  refine .afterStep (fun fuel => ?_) (refused.bind_refused callTail)
  simp only [unary, bind_apply, peekKind_apply, Parsed.done_andThen, List.headD_cons,
    notUnary, Bool.false_eq_true, if_false]

/-- A sign does not make up for what is refused behind it. -/
theorem settles_unary_of_sign
    (isUnary : token.kind.isUnary = true)
    (refused : Settles unary stop rest (.refused fault found)) :
    Settles unary stop (token :: rest) (.refused fault found) := by
  refine .afterStep (fun fuel => ?_)
    (refused.bind_refused fun _ operand => pure (.ofUnary token operand))
  simp only [unary, bind_apply, peekKind_apply, advance_apply, Parsed.done_andThen,
    List.headD_cons, List.tail_cons, isUnary, if_true]

variable (refused : Settles unary stop tokens (.refused fault found))

include refused

theorem settles_operation_of_unary (level : Nat) :
    Settles (fun fuel => operation fuel level) stop tokens (.refused fault found) := by
  -- The first operand of a level is an operation of the next one, up to that of signs.
  by_cases isBinary : level < unaryLevel
  · have operand := settles_operation_of_unary (level + 1)
    apply (operand.bind_refused fun fuel first => operationTail fuel level first).step
    intro fuel
    simp only [operation, if_pos isBinary]
  · apply refused.step
    intro fuel
    simp only [operation, if_neg isBinary]
termination_by unaryLevel - level

theorem settles_expression_of_unary :
    Settles expression stop tokens (.refused fault found) := by
  apply Settles.step (fun fuel => by rw [expression])
  exact (settles_operation_of_unary refused 1).bind_refused _

variable
  (isStop : stop.kind = .endOfInput)
  (starts : (nextKind tokens).startsExpression = true)
  (around : Surroundings)

include isStop starts

theorem settles_statement_of_unary :
    Settles (fun fuel => statement fuel around) stop tokens (.refused fault found) := by
  have differs := TokenKind.ne_of_startsExpression starts
  refine .afterStep (fun fuel => ?_) ((settles_expression_of_unary refused).bind_refused
    fun _ inner => pure (.expression inner))
  simp only [statement, bind_apply, peekKind_eq isStop, Parsed.done_andThen,
    if_neg (differs .leftBrace rfl), if_neg (differs .whileKeyword rfl),
    if_neg (differs .ifKeyword rfl), if_neg (differs .breakKeyword rfl),
    if_neg (differs .continueKeyword rfl), if_neg (differs .returnKeyword rfl)]

theorem settles_declaration_of_unary :
    Settles (fun fuel => declaration fuel around) stop tokens
      (.refused fault found) := by
  have differs := TokenKind.ne_of_startsExpression starts
  refine .afterStep (fun fuel => ?_)
    (settles_statement_of_unary refused isStop starts around)
  simp only [declaration, bind_apply, peekKind_eq isStop, Parsed.done_andThen,
    differs .varKeyword rfl, differs .constKeyword rfl, or_self, if_false,
    if_neg (differs .functionKeyword rfl)]

theorem settles_statements_of_unary :
    Settles (fun fuel => statements fuel around) stop tokens
      (.refused fault found) := by
  have notBreak := TokenKind.ne_of_startsExpression starts .newline rfl
  have notEnded : around.endedBy (nextKind tokens) = false :=
    TokenKind.not_endedBy_of_startsDeclaration
      (TokenKind.startsDeclaration_of_startsStatement
        (TokenKind.startsStatement_of_startsExpression starts)) around
  have first := settles_declaration_of_unary refused isStop starts around
  refine .afterStep (fun fuel => ?_) (first.bind_refused fun fuel first => do
    terminate around
    let rest ← statements fuel around
    pure (first :: rest))
  simp only [statements, bind_apply, skipNewlines_eq, skipBreaks_of_ne notBreak,
    peekKind_eq isStop, Parsed.done_andThen, notEnded, Bool.false_eq_true, if_false]

end

end Parser

/-- A text whose first operand is refused is refused with the fault of this operand. -/
theorem SourceUnit.parse_of_unary
    {source : SourceUnit}
    {fault : SyntaxFault}
    {found : Token}
    (refused : ∀ stop,
      Parser.Settles Parser.unary stop source.bodyTokens (.refused fault found))
    (starts : (nextKind source.bodyTokens).startsExpression = true) :
    parse source.scan.tokens = .error (fault.locate found.span) := by
  have isStop := (TokenStream.ofTokens source.scan.tokens).isStop
  have settles := (TokenStream.ofTokens source.scan.tokens).settles
  rw [source.body_scan] at settles
  have isRefused := settles.unique
    (Parser.settles_statements_of_unary (refused _) isStop starts .outermost)
  exact Parsed.result_eq_error isRefused _

/-! ## Tokens of digits -/

/-- The token of digits that stand at a place. -/
def Token.ofDigits (source : SourceUnit) (start : Position) (digits : List Char) : Token :=
  ⟨.int, String.ofList digits, ⟨start, start.after digits, source⟩⟩

theorem Token.readBack_of_literal?
    {token : Token}
    {value : Literal}
    (isLiteral : token.literal? = some value) :
    (Expression.literal value token.span).ReadBack [token] := by
  apply Expression.ReadBack.of_primary
  · rw [Token.kind_of_literal? isLiteral]
    exact value.isUnary_tokenKind
  · intro rest
    exact .atom (Parser.atom_eq_ok_iff.mpr (.inl ⟨value, isLiteral, rfl⟩))

section

variable {digits : List Char} (allDigits : isDigits digits = true)

include allDigits

theorem Token.readBack_ofDigits
    (fits : (digitsValue digits : Int) ≤ Int64.maxValue.toInt)
    (source : SourceUnit)
    (start : Position) :
    (Expression.literal (.int (Int64.ofInt (digitsValue digits)))
      ⟨start, start.after digits, source⟩).ReadBack
        [Token.ofDigits source start digits] := by
  have isLiteral : (Token.ofDigits source start digits).literal? =
      some (.int (Int64.ofInt (digitsValue digits))) := by
    rw [Token.literal?]
    simp only [Token.ofDigits, readInt?_of_isDigits allDigits, if_pos fits,
      Option.map_some]
  exact Token.readBack_of_literal? isLiteral

/-- Digits that stand for too big a number are no operand. -/
theorem Token.settles_unary_ofDigits
    (tooBig : Int64.maxValue.toInt < digitsValue digits)
    (source : SourceUnit)
    (start : Position)
    (stop : Token)
    (rest : List Token) :
    Parser.Settles Parser.unary stop (Token.ofDigits source start digits :: rest)
      (.refused (.tooBigValue .int) (Token.ofDigits source start digits)) := by
  have noAtom : Parser.atom (Token.ofDigits source start digits) =
      .error (.tooBigValue .int) := by
    have isLiteral : Parser.atom (Token.ofDigits source start digits) =
        Parser.literal (Token.ofDigits source start digits)
          ((readInt? (String.ofList digits)).map .int) := rfl
    rw [isLiteral, readInt?_of_isDigits allDigits, if_neg (Int.not_le.mpr tooBig)]
    rfl
  exact Parser.settles_unary_of_atom noAtom nofun rfl

end

/-! ## Texts of digits -/

namespace SourceUnit

/-- The stretch of a whole text. -/
def wholeSpan (source : SourceUnit) : Span :=
  ⟨.origin, source.endPosition, source⟩

theorem text_wholeSpan (source : SourceUnit) :
    source.wholeSpan.text = source.code := by
  have isSource : source.code.toList = [] ++ (source.code.toList ++ []) := by
    rw [List.append_nil, List.nil_append]
  have stopsAt : source.endPosition.index = byteLength [] + byteLength source.code.toList := by
    rw [byteLength_nil, Nat.zero_add]
    exact (Position.Behind.after_origin source.code.toList).index_eq
  have isText : source.wholeSpan.text = String.ofList source.code.toList :=
    Span.text_eq isSource rfl stopsAt
  rw [isText, String.ofList_toList]

section

variable {source : SourceUnit} (allDigits : isDigits source.code.toList = true)

include allDigits

theorem bodyTokens_of_isDigits :
    source.bodyTokens = [Token.ofDigits source .origin source.code.toList] := by
  rw [bodyTokens, placedSegments, (Spelling.whole allDigits).segments_eq]
  rfl

theorem scan_of_isDigits :
    source.scan =
      ⟨[⟨.int, source.code, source.wholeSpan⟩,
        .endOfInput (.emptyAt source.endPosition source)], []⟩ := by
  have isToken : Token.ofDigits source .origin source.code.toList =
      ⟨.int, source.code, source.wholeSpan⟩ := by
    rw [Token.ofDigits, String.ofList_toList]
    rfl
  rw [← isToken, scan, placedSegments, (Spelling.whole allDigits).segments_eq]
  rfl

/-- Digits that stand for a number that is not too big are read as this number. -/
theorem readAs_of_isDigits
    (fits : (digitsValue source.code.toList : Int) ≤ Int64.maxValue.toInt) :
    source.ReadAs
      [.expression
        (.literal (.int (Int64.ofInt (digitsValue source.code.toList)))
          source.wholeSpan)] := by
  have readBack := Token.readBack_ofDigits allDigits fits source .origin
  rw [← bodyTokens_of_isDigits allDigits] at readBack
  have atEnd : (nextKind []).extendsExpression = false := rfl
  have reads := readBack.expression (Nat.succ_pos _) atEnd
  have noFault : source.scan.diagnostics = [] := by rw [scan_of_isDigits allDigits]
  rw [List.append_nil] at reads
  exact readAs_expression noFault reads

theorem parse_of_isDigits
    (tooBig : Int64.maxValue.toInt < digitsValue source.code.toList) :
    parse source.scan.tokens =
      .error ((SyntaxFault.tooBigValue .int).locate source.wholeSpan) := by
  have isBody := bodyTokens_of_isDigits allDigits
  have refused (stop : Token) : Parser.Settles Parser.unary stop source.bodyTokens
      (.refused (.tooBigValue .int)
        (Token.ofDigits source .origin source.code.toList)) := by
    rw [isBody]
    exact Token.settles_unary_ofDigits allDigits tooBig source .origin stop []
  have starts : (nextKind source.bodyTokens).startsExpression = true := by
    rw [isBody]
    rfl
  exact parse_of_unary refused starts

end

/-- A text of digits, as many as there may be, is one token for the whole text, without
any lexical fault.  If the number that the digits stand for is less than two to the power
of 63, then the program is a single literal of this very number; otherwise there is the
report of a number that is too big, and it points at the whole text. -/
theorem integers_exact_or_refused
    {source : SourceUnit}
    (notEmpty : source.code ≠ "")
    (areDigits : ∀ character ∈ source.code.toList, character.isDigit = true) :
    let value := decimalValue source.code.toList
    source.wholeSpan.text = source.code ∧
    source.scan =
      ⟨[⟨.int, source.code, source.wholeSpan⟩,
        .endOfInput (.emptyAt source.endPosition source)], []⟩ ∧
    (value < 2 ^ 63 →
      ∃ number : Int64, number.toInt = value ∧
        parse source.scan.tokens =
          .ok [.expression (.literal (.int number) source.wholeSpan)]) ∧
    (2 ^ 63 ≤ value →
      parse source.scan.tokens =
        .error ((SyntaxFault.tooBigValue .int).locate source.wholeSpan)) := by
  intro value
  have notNil : source.code.toList ≠ [] := by
    rwa [ne_eq, String.toList_eq_nil_iff]
  have allDigits := isDigits_iff.mpr ⟨notNil, areDigits⟩
  have isValue : digitsValue source.code.toList = value :=
    digitsValue_eq_decimalValue source.code.toList
  have isGreatest : Int64.maxValue.toInt = 2 ^ 63 - 1 := by decide
  refine ⟨source.text_wholeSpan, scan_of_isDigits allDigits, fun isSmall => ?_,
    fun isBig => ?_⟩
  · have fits : (digitsValue source.code.toList : Int) ≤ Int64.maxValue.toInt := by
      rw [isValue, isGreatest]
      omega
    have reads := readAs_of_isDigits allDigits fits
    rw [isValue] at reads
    exact ⟨Int64.ofInt value, Int64.toInt_ofInt_of_le (by omega) (by omega), reads.parsed⟩
  · apply parse_of_isDigits allDigits
    rw [isValue, isGreatest]
    omega

/-- The greatest integer behind a dozen zeros, and the least number that is too big. -/
theorem integers_exact_or_refused_greatest :
    let greatest := SourceUnit.mk "main" "0000000000009223372036854775807"
    let tooBig := SourceUnit.mk "main" "9223372036854775808"
    parse greatest.scan.tokens =
        .ok [.expression (.literal (.int Int64.maxValue)
          ⟨⟨1, 0, 0⟩, ⟨1, 31, 31⟩, greatest⟩)] ∧
      parse tooBig.scan.tokens =
        .error ((SyntaxFault.tooBigValue .int).locate
          ⟨⟨1, 0, 0⟩, ⟨1, 19, 19⟩, tooBig⟩) := by
  intro greatest tooBig
  have greatestDigits : isDigits greatest.code.toList = true := by decide
  have tooBigDigits : isDigits tooBig.code.toList = true := by decide
  have greatestValue : decimalValue greatest.code.toList = 2 ^ 63 - 1 := by decide
  have tooBigValue : decimalValue tooBig.code.toList = 2 ^ 63 := by decide
  have greatestSpan : greatest.wholeSpan = ⟨⟨1, 0, 0⟩, ⟨1, 31, 31⟩, greatest⟩ := by decide
  have tooBigSpan : tooBig.wholeSpan = ⟨⟨1, 0, 0⟩, ⟨1, 19, 19⟩, tooBig⟩ := by decide
  obtain ⟨-, -, isExact, -⟩ :=
    @integers_exact_or_refused greatest (by decide) (isDigits_iff.mp greatestDigits).2
  obtain ⟨-, -, -, isRefused⟩ :=
    @integers_exact_or_refused tooBig (by decide) (isDigits_iff.mp tooBigDigits).2
  obtain ⟨number, isValue, isRead⟩ := isExact (by omega)
  have isNumber : number = Int64.maxValue := by
    rw [← Int64.toInt_inj, isValue, greatestValue]
    decide
  rw [← greatestSpan, ← tooBigSpan, ← isNumber]
  exact ⟨isRead, isRefused (by omega)⟩

end SourceUnit

end Scriptlet
