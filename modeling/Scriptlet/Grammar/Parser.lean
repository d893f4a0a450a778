import Scriptlet.Fault.Syntactic

namespace Scriptlet

/-!
# Reading tokens

Reading consumes tokens from the front of a list.  It ends in one of three ways:
with a value and the tokens that are left, with a fault at a token, or because the
number of steps that it was allowed is used up.  The end-of-input token is kept
beside the list, since it is never consumed.
-/

/-- How reading ends. -/
inductive Parsed (α : Type) where
  /-- A value was read, and these tokens are left. -/
  | done (value : α) (rest : List Token)
  /-- The tokens cannot go on like this from the given token on. -/
  | refused (fault : SyntaxFault) (token : Token)
  /-- The allowed number of steps is used up. -/
  | exhausted

namespace Parsed

/-- Going on with the value and the tokens that are left. -/
@[inline] def andThen
    (first : Parsed α)
    (next : α → List Token → Parsed β) :
    Parsed β :=
  match first with
  | .done value rest => next value rest
  | .refused fault token => .refused fault token
  | .exhausted => .exhausted

@[simp] theorem done_andThen
    (value : α)
    (rest : List Token)
    (next : α → List Token → Parsed β) :
    (Parsed.done value rest).andThen next = next value rest :=
  rfl

@[simp] theorem refused_andThen
    (fault : SyntaxFault)
    (token : Token)
    (next : α → List Token → Parsed β) :
    (Parsed.refused fault token : Parsed α).andThen next =
      .refused fault token :=
  rfl

@[simp] theorem exhausted_andThen (next : α → List Token → Parsed β) :
    (Parsed.exhausted : Parsed α).andThen next = .exhausted :=
  rfl

end Parsed

/-- A way of reading, given the end-of-input token and the tokens before it. -/
abbrev Parser (α : Type) :=
  Token → List Token → Parsed α

namespace Parser

@[always_inline, inline]
instance : Monad Parser where
  pure value := fun _ tokens => .done value tokens
  bind first next := fun stop tokens =>
    (first stop tokens).andThen fun value rest => next value stop rest

/-- Using up the allowed steps. -/
def exhausted : Parser α :=
  fun _ _ => .exhausted

/-- The next token, which stays where it is. -/
def peek : Parser Token :=
  fun stop tokens => .done (tokens.headD stop) tokens

/-- The kind of the next token, which stays where it is. -/
def peekKind : Parser TokenKind :=
  fun stop tokens => .done (tokens.headD stop).kind tokens

/-- The next token, which is consumed unless it is the end of the input. -/
def advance : Parser Token :=
  fun stop tokens => .done (tokens.headD stop) tokens.tail

/-- A fault at a token. -/
def refuse (fault : SyntaxFault) (token : Token) : Parser α :=
  fun _ _ => .refused fault token

/-- A token of the given kind, which is consumed; any other is a fault. -/
def expect (expected : TokenKind) : Parser Token :=
  fun stop tokens =>
    let found := tokens.headD stop
    if found.kind = expected then
      .done found tokens.tail
    else
      .refused (.expectedToken expected found.kind) found

/-- Whether the next token is of the given kind; if so it is consumed. -/
def accept (expected : TokenKind) : Parser Bool :=
  fun stop tokens =>
    if (tokens.headD stop).kind = expected then
      .done true tokens.tail
    else
      .done false tokens

/-- Skips the line breaks at the front. -/
def skipNewlines : Parser Unit :=
  fun _ tokens => .done () (tokens.dropWhile fun token => token.kind = .newline)

/-- Skips a single line break in front of a further branch of a conditional. -/
def skipNewlineBeforeBranch : Parser Unit :=
  fun _ tokens =>
    match tokens with
    | first :: second :: rest =>
        if first.kind = .newline ∧
            (second.kind = .elifKeyword ∨ second.kind = .elseKeyword) then
          .done () (second :: rest)
        else
          .done () tokens
    | _ => .done () tokens

end Parser

end Scriptlet
