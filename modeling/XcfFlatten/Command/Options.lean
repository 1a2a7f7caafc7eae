import XcfFlatten.Text.Quoted
import XcfFlatten.Text.Unsigned

/-!
# Command line options

`Options.parse` reads the arguments of the command line from the left, and stops at the first that
is wrong. What is asked for twice shows only at the end. After `--` no argument is an option.
-/

namespace XcfFlatten

/-- What the command line asks for. -/
structure Options where
  version : Bool
  verbose : Bool
  info : Bool
  all : Bool
  out : Option String
  maxLayers : Option Nat
  maxDimension : Option Nat
  input : Option String
  deriving DecidableEq

/-- Why a command line is not carried out. -/
inductive UsageError where
  /-- It asks for help. -/
  | help
  | unexpectedFlag (flag : String)
  | unexpectedArgument (argument : String)
  | missingValue (flag : String)
  | badValue (flag : String) (error : Unsigned.ParseError)
  | repeated (flag : String)
  deriving DecidableEq

/-- The help text. -/
def Options.help : String :=
"ARGS:
    [input]
      Input XCF file.

OPTIONS:
    -v, --version
      Displays version information and exits.

    -V, --verbose
      Print extra debugging information.

    -i, --info
      Print the layer structure of the input file instead of rendering it.

    -a, --all
      With --info, also list hidden layers.

    -o, --out <output>
      Output file. The format is chosen by the file extension. The default
      is the input file name with a .png extension.

    --max-layers <max_layers>
      Refuse files with more layers than this.

    --max-dimension <max_dimension>
      Refuse layers wider or taller than this.

    -h, --help
      Prints help information.
"

/-- The wording of an error. -/
def UsageError.message : UsageError → String
  | help => Options.help
  | unexpectedFlag flag => s!"unexpected flag: `{flag}`"
  | unexpectedArgument argument => s!"unexpected argument: {Quoted.quote argument}"
  | missingValue flag => s!"expected a value for `{flag}`"
  | badValue flag error => s!"can't parse `{flag}`, {error.message}"
  | repeated flag => s!"flag specified more than once: `{flag}`"

/-- The options without a value. -/
inductive Switch where
  | version
  | verbose
  | info
  | all
  deriving DecidableEq

/-- The options with a value. -/
inductive Setting where
  | out (file : String)
  | maxLayers (limit : Nat)
  | maxDimension (limit : Nat)
  deriving DecidableEq

/-- The arguments read so far, last first. -/
structure Options.Given where
  switches : List Switch := []
  settings : List Setting := []
  input : Option String := none

namespace Options

/-- The option that an argument without a value stands for. -/
def switch? : String → Option Switch
  | "-v" | "--version" => some .version
  | "-V" | "--verbose" => some .verbose
  | "-i" | "--info" => some .info
  | "-a" | "--all" => some .all
  | _ => none

/-- How the value of an option is read, for arguments that ask for one. -/
def setting? : String → Option (String → Except Unsigned.ParseError Setting)
  | "-o" | "--out" => some fun value => .ok (.out value)
  | "--max-layers" => some fun value => (Unsigned.parse value.toList).map .maxLayers
  | "--max-dimension" => some fun value => (Unsigned.parse value.toList).map .maxDimension
  | _ => none

/-- Takes the input file's name. There is only one. -/
def takeInput (given : Given) (argument : String) : Except UsageError Given :=
  match given.input with
  | none => .ok { given with input := some argument }
  | some _ => .error (.unexpectedArgument argument)

/-- Reads arguments from the left, after those read so far. -/
def read (given : Given) : List String → Except UsageError Given
  | [] => .ok given
  | "--" :: arguments => arguments.foldlM takeInput given
  | argument :: rest =>
    if argument.startsWith "-" then
      if argument = "-h" ∨ argument = "--help" then .error .help
      else
        match switch? argument, setting? argument, rest with
        | some switch, _, rest => read { given with switches := switch :: given.switches } rest
        | none, some _, [] => .error (.missingValue argument)
        | none, some parse, value :: rest =>
          match parse value with
          | .ok setting => read { given with settings := setting :: given.settings } rest
          | .error error => .error (.badValue argument error)
        | none, none, _ => .error (.unexpectedFlag argument)
    else
      match takeInput given argument with
      | .ok given => read given rest
      | .error error => .error error

/-- Whether a switch is given, which must be at most once. -/
def single (given : Given) (switch : Switch) (flag : String) : Except UsageError Bool :=
  if 1 < given.switches.count switch then .error (.repeated flag)
  else .ok (given.switches.contains switch)

/-- The value of a setting if it is given, which must be at most once. -/
def single? {α : Type} (given : Given) (value? : Setting → Option α) (flag : String) :
    Except UsageError (Option α) :=
  match given.settings.filterMap value? with
  | [] => .ok none
  | [value] => .ok (some value)
  | _ => .error (.repeated flag)

/-- What the arguments of a command line ask for. -/
def parse (arguments : List String) : Except UsageError Options := do
  let given ← read {} arguments
  pure
    { version := ← single given .version "--version"
      verbose := ← single given .verbose "--verbose"
      info := ← single given .info "--info"
      all := ← single given .all "--all"
      out := ← single? given (fun | .out file => some file | _ => none) "--out"
      maxLayers := ← single? given (fun | .maxLayers limit => some limit | _ => none) "--max-layers"
      maxDimension :=
        ← single? given (fun | .maxDimension limit => some limit | _ => none) "--max-dimension"
      input := given.input }

end Options

end XcfFlatten
