import Scriptlet.Grammar.Progress

namespace Scriptlet

/-!
# Programs from tokens

A list of tokens is read as a program up to its first end-of-input token; one is
added behind the last token if there is none.  The first syntax fault stops the
reading.
-/

/-- Tokens before the end of the input, and the end-of-input token. -/
structure TokenStream where
  body : List Token
  stop : Token
  /-- The closing token marks the end of the input. -/
  isStop : stop.kind = .endOfInput

namespace TokenStream

/-- Where the end of the input is if no token marks it: behind the last token, or
at the start of an empty unit if there is no token at all. -/
def impliedStop (tokens : List Token) : Token :=
  match tokens.getLast? with
  | some last => Token.endOfInput (Span.emptyAt last.span.stop last.span.source)
  | none => Token.endOfInput (Span.emptyAt .origin ⟨"", ""⟩)

/-- The tokens before the first end-of-input token, and that token. -/
def ofTokens (tokens : List Token) : TokenStream where
  body := tokens.takeWhile fun token => token.kind ≠ .endOfInput
  stop :=
    (tokens.find? fun token => token.kind = .endOfInput).getD
      (impliedStop tokens)
  isStop := by
    cases found : tokens.find? fun token => token.kind = .endOfInput with
    | none =>
        unfold impliedStop
        simp only [Option.getD_none]
        split <;> rfl
    | some token =>
        simpa using List.find?_some found

end TokenStream

namespace Parsed

/-- What was read, or the report of the fault, of reading that came to an end. -/
def result : (parsed : Parsed α) → parsed ≠ .exhausted → Except Diagnostic α
  | .done value _, _ => .ok value
  | .refused fault token, _ => .error (fault.locate token.span)
  | .exhausted, finished => (finished rfl).elim

@[simp] theorem result_done
    (value : α)
    (rest : List Token)
    (finished : Parsed.done value rest ≠ .exhausted) :
    (Parsed.done value rest).result finished = .ok value :=
  rfl

@[simp] theorem result_refused
    (fault : SyntaxFault)
    (token : Token)
    (finished : (Parsed.refused fault token : Parsed α) ≠ .exhausted) :
    (Parsed.refused fault token : Parsed α).result finished =
      .error (fault.locate token.span) :=
  rfl

end Parsed

namespace TokenStream

/-- A number of steps that is enough to read a stream. -/
def steps (stream : TokenStream) : Nat :=
  13 * (stream.body.length + 1)

/-- Reading a stream as a program. -/
def parsed (stream : TokenStream) : Parsed (List Statement) :=
  Parser.statements stream.steps .outermost stream.stop stream.body

/-- Reading a stream always comes to an end. -/
theorem parsed_ne_exhausted (stream : TokenStream) :
    stream.parsed ≠ .exhausted :=
  ((Parser.statementsEnd stream.isStop stream.steps).statements .outermost
    stream.body (by unfold steps; omega)).ne_exhausted

end TokenStream

/-- The program that tokens spell, or the report of the first syntax fault. -/
def parse (tokens : List Token) : Except Diagnostic (List Statement) :=
  let stream := TokenStream.ofTokens tokens
  stream.parsed.result stream.parsed_ne_exhausted

end Scriptlet
