import Scriptlet.Report

namespace Scriptlet.CommandLine

/-!
# Command-line arguments

The program is told either to run a file or to start a prompt.  Two options may
stand before and after that word: how many errors are shown at most, and that there
are no colors.  Before and after the word are two levels: an option may be given
once at each of them, and the later one counts.

A value for an option or a path is only noted when it is met.  It is checked when
the next option of its level is met, or at the end of its level; the level behind
the mode word is read before what is still noted in front of it is checked.
-/

/-- What the program is to do. -/
inductive Mode where
  /-- Run a file. -/
  | file (path : String)
  /-- Start a prompt. -/
  | prompt
  deriving Repr, DecidableEq, Inhabited

/-- What the program is to do and how reports are shown. -/
structure Invocation where
  mode : Mode
  options : ReportOptions
  deriving Repr, DecidableEq, Inhabited

/-- Why the arguments do not say what to do. -/
inductive Refusal where
  /-- Help was asked for. -/
  | helpWanted
  /-- Nothing was given at all, which also gets help. -/
  | nothingGiven
  /-- The version was asked for. -/
  | versionWanted
  /-- There are options but no mode. -/
  | missingMode
  /-- The word is no mode. -/
  | unknownMode
  /-- The path of the file is missing. -/
  | missingPath
  /-- A value is missing or empty. -/
  | emptyValue
  /-- A value is no number, or too big. -/
  | invalidNumber
  /-- A value for an option that takes none. -/
  | unwantedValue
  /-- A word or an option too many. -/
  | unknownArgument
  /-- The same option twice at one level. -/
  | repeatedOption
  deriving Repr, DecidableEq, Inhabited

/-! ## Words -/

/-- An argument by its shape. -/
inductive Word where
  /-- Two dashes: only plain words follow. -/
  | escape
  /-- An option by its name, with a value if an equals sign follows. -/
  | long (name : List Char) (value : Option (List Char))
  /-- Options of one letter each. -/
  | short (letter : Char) (more : List Char)
  /-- Anything else. -/
  | plain
  deriving Repr, DecidableEq, Inhabited

/-- An option name and the value behind its first equals sign. -/
def splitValue (text : List Char) : List Char × Option (List Char) :=
  let name := text.takeWhile (· != '=')
  match text.dropWhile (· != '=') with
  | [] => (name, none)
  | _ :: value => (name, some value)

/-- The shape of an argument. -/
def Word.of (argument : String) : Word :=
  match argument.toList with
  | '-' :: '-' :: [] => .escape
  | '-' :: '-' :: text => .long (splitValue text).1 (splitValue text).2
  | '-' :: letter :: more => .short letter more
  | _ => .plain

/-- The words that decide what the program does. -/
def isModeWord (word : String) : Bool :=
  word == "file" || word == "repl" || word == "help"

/-- A number of at most 64 bits, with an optional plus sign. -/
def readCount? (text : List Char) : Option Nat :=
  let digits :=
    match text with
    | '+' :: rest => rest
    | _ => text
  if !digits.isEmpty && digits.all Char.isDigit then
    let value := Nat.ofDigitChars 10 digits 0
    if value < UInt64.size then some value else none
  else
    none

/-! ## One level -/

/-- A value that is noted but not checked yet. -/
inductive Noted where
  /-- Nothing. -/
  | nothing
  /-- The option for the number of errors, whose value is still to come. -/
  | maxErrors
  /-- The value of that option. -/
  | maxErrorsValue (text : List Char)
  /-- A path. -/
  | path (text : String)
  deriving Repr, DecidableEq, Inhabited

/-- What has been given at a level. -/
structure Given where
  maxErrors : Option Nat
  noColor : Bool
  path : Option String
  noted : Noted
  deriving Repr, DecidableEq, Inhabited

namespace Given

/-- Nothing has been given. -/
def nothing : Given :=
  ⟨none, false, none, .nothing⟩

/-- Whether anything has been given. -/
def isEmpty (given : Given) : Bool :=
  given.maxErrors.isNone && !given.noColor && given.path.isNone

/-- Whether a path has been given, checked or not. -/
def hasPath (given : Given) : Bool :=
  given.path.isSome ||
    match given.noted with
    | .path _ => true
    | _ => false

/-- Checks what is noted. -/
def settle (given : Given) : Except Refusal Given :=
  match given.noted with
  | .nothing => .ok given
  | .maxErrors => .error .emptyValue
  | .maxErrorsValue text =>
      if given.maxErrors.isSome then
        .error .repeatedOption
      else
        match readCount? text with
        | some count =>
            .ok { given with maxErrors := some count, noted := .nothing }
        | none => .error .invalidNumber
  | .path text =>
      if text.isEmpty then
        .error .emptyValue
      else
        .ok { given with path := some text, noted := .nothing }

/-- The option that reports have no colors. -/
def takeNoColor (given : Given) : Except Refusal Given := do
  let settled ← given.settle
  if settled.noColor then
    throw .repeatedOption
  else
    pure { settled with noColor := true }

/-- An option by its name; whether the version can be asked for depends on the
level. -/
def takeLong
    (given : Given)
    (versionKnown : Bool)
    (name : List Char)
    (value : Option (List Char)) :
    Except Refusal Given :=
  match String.ofList name, value with
  | "max-errors", none => do
      let settled ← given.settle
      pure { settled with noted := .maxErrors }
  | "max-errors", some text => do
      let settled ← given.settle
      settle { settled with noted := .maxErrorsValue text }
  | "no-color", none => given.takeNoColor
  | "no-color", some _ => throw .unwantedValue
  | "help", none => do
      let _ ← given.settle
      throw .helpWanted
  | "help", some _ => throw .unwantedValue
  | "version", none =>
      if versionKnown then do
        let _ ← given.settle
        throw .versionWanted
      else
        throw .unknownArgument
  | "version", some _ =>
      throw (if versionKnown then .unwantedValue else .unknownArgument)
  | _, _ => throw .unknownArgument

/-- Options of one letter: all of them end the reading. -/
def takeShort (given : Given) (versionKnown : Bool) (letter : Char) :
    Except Refusal Given :=
  if letter = 'h' then do
    let _ ← given.settle
    throw .helpWanted
  else if letter = 'V' ∧ versionKnown then do
    let _ ← given.settle
    throw .versionWanted
  else
    throw .unknownArgument

/-- A word that is no option and no value: a path, if one is wanted and none has
been given. -/
def takePlain (given : Given) (wantsPath : Bool) (word : String) :
    Except Refusal Given := do
  if wantsPath && !given.hasPath then
    let settled ← given.settle
    pure { settled with noted := .path word }
  else
    throw .unknownArgument

end Given

/-- The arguments behind the mode word. -/
def readLevel (wantsPath : Bool) :
    Given →
    List String →
    Except Refusal Given
  | given, [] => given.settle
  | given, word :: rest =>
      match Word.of word with
      | .escape => do
          let final ←
            rest.foldlM (fun before plain => before.takePlain wantsPath plain)
              given
          final.settle
      | .long name value => do
          readLevel wantsPath (← given.takeLong false name value) rest
      | .short letter _ => do
          readLevel wantsPath (← given.takeShort false letter) rest
      | .plain => do
          if given.noted = .maxErrors then
            readLevel wantsPath
              { given with noted := .maxErrorsValue word.toList } rest
          else
            readLevel wantsPath (← given.takePlain wantsPath word) rest

/-! ## Both levels -/

/-- The options of the two levels, of which the later one counts. -/
def mergeOptions (before behind : Given) : ReportOptions :=
  { colors := !(before.noColor || behind.noColor)
    maxErrors :=
      (behind.maxErrors.or before.maxErrors).getD
        (default : ReportOptions).maxErrors }

/-- Help on the program or on one of its modes. -/
def readHelp : List String → Refusal
  | [] => .helpWanted
  | [word] => if isModeWord word then .helpWanted else .unknownMode
  | _ => .unknownMode

/-- The arguments from the mode word on, given what stands before it. -/
def readMode (before : Given) (word : String) (rest : List String) :
    Except Refusal Invocation := do
  if word == "help" then
    throw (readHelp rest)
  else
    let wantsPath := word == "file"
    let behind ← readLevel wantsPath .nothing rest
    let mode ←
      match wantsPath, behind.path with
      | false, _ => pure Mode.prompt
      | true, some path => pure (Mode.file path)
      | true, none => throw .missingPath
    let settled ← before.settle
    pure ⟨mode, mergeOptions settled behind⟩

/-- The end of the arguments without a mode word. -/
def endWithoutMode (before : Given) : Except Refusal Invocation := do
  let settled ← before.settle
  throw (if settled.isEmpty then .nothingGiven else .missingMode)

/-- The arguments, given what has been read of them. -/
def readFrom : Given → List String → Except Refusal Invocation
  | before, [] => endWithoutMode before
  | before, word :: rest =>
      if before.noted ≠ .maxErrors ∧ isModeWord word then
        readMode before word rest
      else
        match Word.of word with
        | .escape =>
            match rest with
            | [] => endWithoutMode before
            | next :: _ =>
                .error
                  (if isModeWord next then .unknownArgument else .unknownMode)
        | .long name value => do
            readFrom (← before.takeLong true name value) rest
        | .short letter _ => do
            readFrom (← before.takeShort true letter) rest
        | .plain =>
            if before.noted = .maxErrors then
              readFrom { before with noted := .maxErrorsValue word.toList } rest
            else
              .error .unknownMode

/-- What the arguments say. -/
def read (arguments : List String) : Except Refusal Invocation :=
  readFrom .nothing arguments

end Scriptlet.CommandLine
