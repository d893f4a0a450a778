import Scriptlet.Diagnostic

namespace Scriptlet

/-!
# Reports

How the diagnostics of one run are shown together: the first few of them, and a
count if there are more.
-/

/-- How reports are shown. -/
structure ReportOptions where
  /-- Whether the kinds of errors are in color. -/
  colors : Bool
  /-- How many diagnostics of one run are shown at most. -/
  maxErrors : Nat
  deriving Repr, DecidableEq

/-- Reports are in color and show five diagnostics unless said otherwise. -/
instance : Inhabited ReportOptions where
  default := ⟨true, 5⟩

namespace ReportOptions

/-- The diagnostics of one run, at most as many as the options allow, with a
blank line between them. -/
def report (options : ReportOptions) (diagnostics : List Diagnostic) : String :=
  let shown := min diagnostics.length options.maxErrors
  let blocks :=
    (diagnostics.take shown).map fun diagnostic =>
      diagnostic.render options.colors
  let closing :=
    if shown < diagnostics.length then
      ["Showing " ++ toString shown ++ "/" ++ toString diagnostics.length ++
        " errors"]
    else
      []
  String.intercalate "\n\n" (blocks ++ closing)

end ReportOptions

/-- How many diagnostics a run gave, in words. -/
def reportSummary (diagnostics : List Diagnostic) : String :=
  "Generated " ++ toString diagnostics.length ++ " diagnostics"

end Scriptlet
