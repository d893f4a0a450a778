import Scriptlet.Text.Quoted

namespace Scriptlet

/-!
# Frames

A frame says what a scope was opened for.  The frames of a scope and of the
scopes around it, outermost first, are the stack that a report shows.
-/

/-- What a scope was opened for. -/
inductive Frame where
  /-- The outermost scope of a file. -/
  | file (fileName : String)
  /-- A block, with the line it starts on. -/
  | block (startLine : Nat) (fileName : String)
  /-- A call of a function, with the line its declaration starts on. -/
  | call (name : String) (startLine : Nat) (fileName : String)
  deriving Repr, DecidableEq, Inhabited

namespace Frame

/-- The name of the function called, if the frame is that of a call. -/
def name? : Frame → Option String
  | .call name _ _ => some name
  | _ => none

/-- The line where what the frame stands for starts. -/
def startLine : Frame → Nat
  | .file _ => 1
  | .block line _ => line
  | .call _ line _ => line

/-- The file of the frame. -/
def fileName : Frame → String
  | .file fileName => fileName
  | .block _ fileName => fileName
  | .call _ _ fileName => fileName

/-- Whether the frame stands for a whole file. -/
def isFile : Frame → Bool
  | .file _ => true
  | _ => false

/-- A nested frame: that of a call if there is a name, and of a block
otherwise. -/
def nested (name? : Option String) (startLine : Nat) (fileName : String) :
    Frame :=
  match name? with
  | some name => .call name startLine fileName
  | none => .block startLine fileName

/-- A frame as a line of the stack in a report. -/
def display : Frame → String
  | .file fileName =>
      "In file '" ++ fileName ++ "'"
  | .block line fileName =>
      "In anonymous block starting at line " ++ toString line ++
        " in file '" ++ fileName ++ "'"
  | .call name line fileName =>
      "In '" ++ name ++ "' starting at line " ++ toString line ++
        " in file '" ++ fileName ++ "'"

/-- All fields of a frame, for inspection. -/
def inspect (frame : Frame) : String :=
  let name :=
    match frame.name? with
    | some name => "Some(" ++ Text.quoted name ++ ")"
    | none => "None"
  "Frame \x7b name: " ++ name ++
    ", start_line: " ++ toString frame.startLine ++
    ", file_name: " ++ Text.quoted frame.fileName ++
    ", is_file: " ++ toString frame.isFile ++ " \x7d"

end Frame

end Scriptlet
