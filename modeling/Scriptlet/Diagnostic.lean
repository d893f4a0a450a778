import Scriptlet.Diagnostic.Kind
import Scriptlet.Frame
import Scriptlet.Source

namespace Scriptlet

/-!
# Diagnostics

A diagnostic is an error together with the stretch of text it is about and, if it
was raised while statements ran, the frames of the scope it was raised in.  This
module also says how a diagnostic is shown: the stack, the kind with the message,
the tip, the source line, and carets under the stretch.
-/

/-- A located error report. -/
structure Diagnostic where
  /-- What kind of error it is. -/
  kind : ErrorKind
  /-- What went wrong. -/
  message : String
  /-- What could be done about it. -/
  tip : Option String
  /-- Where it went wrong. -/
  span : Span
  /-- The frames of the scope it was raised in, outermost first. -/
  stack : Option (List Frame)
  deriving Repr, DecidableEq, Inhabited

namespace Diagnostic

/-- The heading of the stack and its frames, each on a line of its own. -/
def stackLines (diagnostic : Diagnostic) : List String :=
  match diagnostic.stack with
  | some frames => "Stack with most recent last:" :: frames.map Frame.display
  | none => []

/-- The kind, in red if colors are on, and the message. -/
def headline (diagnostic : Diagnostic) (colors : Bool) : String :=
  let kind := diagnostic.kind.display
  (if colors then "\x1b[31m" ++ kind ++ "\x1b[0m" else kind) ++ ": " ++
    diagnostic.message

/-- The source line that the span starts on, empty if there is none. -/
def shownLine (diagnostic : Diagnostic) : List Char :=
  ((diagnostic.span.source.line? diagnostic.span.start.line).getD "").toList

/-- What stands before the shown line: its number and a bar. -/
def gutter (diagnostic : Diagnostic) : String :=
  toString diagnostic.span.start.line ++ " | "

/-- What stands under the part of a line before the carets: blanks, with tabs
kept so that the carets stay aligned whatever the width of a tab is. -/
def padding (line : List Char) (column : Nat) : List Char :=
  (line.take column).map fun character =>
    if character = '\t' then '\t' else ' '

/-- The number of carets: the columns of the span, or the rest of the line if the
span goes on to later lines, but at least one. -/
def caretCount (diagnostic : Diagnostic) : Nat :=
  let start := diagnostic.span.start
  let stop := diagnostic.span.stop
  max 1
    (if stop.line = start.line then
      stop.column - start.column
    else
      diagnostic.shownLine.length - start.column)

/-- The last line of a rendering: the carets under the span. -/
def caretLine (diagnostic : Diagnostic) : String :=
  String.ofList
    (List.replicate diagnostic.gutter.length ' ' ++
      padding diagnostic.shownLine diagnostic.span.start.column ++
      List.replicate diagnostic.caretCount '^')

/-- The lines that show a diagnostic. -/
def renderLines (diagnostic : Diagnostic) (colors : Bool) : List String :=
  diagnostic.stackLines ++
    [diagnostic.headline colors] ++
    diagnostic.tip.toList ++
    [diagnostic.gutter ++ String.ofList diagnostic.shownLine,
      diagnostic.caretLine]

/-- A diagnostic the way it is shown. -/
def render (diagnostic : Diagnostic) (colors : Bool) : String :=
  String.intercalate "\n" (diagnostic.renderLines colors)

/-- The plain rendering. -/
def display (diagnostic : Diagnostic) : String :=
  diagnostic.render false

end Diagnostic

end Scriptlet
