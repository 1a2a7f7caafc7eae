import XcfFlatten.Command.Options
import XcfFlatten.Render
import XcfFlatten.Report

/-!
# The command

`Command.run` does what a command line asks for: it renders a document, or describes it. What it
prints and how it ends is its `Outcome`.
-/

namespace XcfFlatten

/-- What a command leaves behind on the terminal. -/
structure Outcome where
  exitCode : Nat
  output : String
  /-- The lines of the error output. -/
  errors : List String
  deriving DecidableEq

/-- The lines of a text. -/
def textLines (text : String) : List String := (text.toList.splitOn '\n').map String.ofList

/-- One cause of an error. Its lines are indented, and it is numbered if there are several. -/
def causeLines (number : Option Nat) (cause : String) : List String :=
  let (first, further) :=
    match number with
    | some n => (padLeft 5 (toString n) ++ ": ", "       ")
    | none => ("    ", "    ")
  match textLines cause with
  | [] => []
  | line :: rest => (first ++ line) :: rest.map (further ++ ·)

/-- An error with what it was about and what caused it. -/
def errorLines (context : String) (causes : List String) : List String :=
  let numbered :=
    match causes with
    | [cause] => causeLines none cause
    | causes => causes.zipIdx.flatMap fun (cause, n) => causeLines (some n) cause
  textLines s!"Error: {context}" ++ ["", "Caused by:"] ++ numbered

namespace Command

/-- The line about the program's version. -/
def versionLine : String := "xcf-cli 0.3.0\n"

/-- The causes of a read error as such: bad positions are wrapped once more. -/
def readCauses (error : ReadError) : List String :=
  if error.errorClass = .access then [error.message, error.message] else [error.message]

/-- How a command line ends that is not carried out. -/
def usage (error : UsageError) : Outcome :=
  match error with
  | .help => ⟨0, error.message ++ "\n", []⟩
  | error => ⟨2, "", textLines error.message⟩

variable {m : Type → Type} [Monad m]

/-- Describes a document. A folder can be opened, but not read. -/
def inspect (files : FileAccess m) (input : String) (options : Options) : m Outcome := do
  let warnings :=
    if options.out.isSome then ["Warning: -o/--out has no effect with -i/--info"] else []
  match ← files.load input with
  | .error .isDirectory =>
    let message := FileError.isDirectory.message
    pure ⟨1, "", warnings ++ errorLines s!"could not read {input}" [message, message]⟩
  | .error error => pure ⟨1, "", warnings ++ errorLines s!"could not open {input}" [error.message]⟩
  | .ok data =>
    match Summary.decode data with
    | .error error =>
      pure ⟨1, "", warnings ++ errorLines s!"could not read {input}" (readCauses error)⟩
    | .ok summary => pure ⟨0, summary.report options.all, warnings⟩

/-- Renders a document, by default into a PNG file beside it. -/
def render (files : FileAccess m) (input : String) (options : Options) : m Outcome := do
  let warnings :=
    if options.all then ["Warning: -a/--all has no effect without -i/--info"] else []
  let output := options.out.getD (FileName.withExtension input "png")
  match ← files.render input output (Limits.withCaps options.maxLayers options.maxDimension) with
  | .error error => pure ⟨1, "", warnings ++ errorLines error.context error.cause.causes⟩
  | .ok () => pure ⟨0, "", warnings⟩

/-- Does what the arguments ask for. -/
def run (files : FileAccess m) (arguments : List String) : m Outcome := do
  match Options.parse arguments with
  | .error error => pure (usage error)
  | .ok options =>
    if options.version then pure ⟨0, versionLine, []⟩
    else
      match options.input with
      | none => pure ⟨2, "", ["No input given"]⟩
      | some input =>
        if options.info then inspect files input options else render files input options

end Command

end XcfFlatten
