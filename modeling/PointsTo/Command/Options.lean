import PointsTo.Text.Blank
import PointsTo.Text.Numeral

/-!
# Command-line options

Options stand before the other arguments.  An option is written with one dash
or two; its value follows an equals sign or is the next argument.  The switch
`debug` takes a value only after an equals sign.  The first argument that is
no option, or a pair of dashes, ends the options.
-/

namespace PointsTo.Command

/-- What can be set on the command line. -/
structure Options where
  /-- Where to write a profile; empty if none is wanted. -/
  profile : String := ""
  /-- The file with the taint rules; empty if there is none. -/
  config : String := ""
  /-- The kind of context sensitivity. -/
  sensitivity : String := "ci"
  /-- The depth of contexts. -/
  depth : Int := 1
  /-- The signature of the entry method; empty means the main method. -/
  entry : String := ""
  debug : Bool := false
deriving DecidableEq, Repr

/-- What the arguments come to. -/
inductive Arguments where
  | ready (options : Options) (operands : List String)
  | help
  | rejected
deriving DecidableEq, Repr

/-- One argument by itself. -/
inductive Word where
  | operand
  | terminator
  | malformed
  | option (name : List Char) (value : Option (List Char))
deriving DecidableEq, Repr

/-- Split a name from the value after the first equals sign behind it. -/
def splitValue (text : List Char) : List Char × Option (List Char) :=
  match text with
  | [] => ([], none)
  | first :: rest =>
      match Text.cut? '=' rest with
      | some (before, value) => (first :: before, some value)
      | none => (first :: rest, none)

/-- The option whose text without dashes is given. -/
def Word.ofName (text : List Char) : Word :=
  match text with
  | [] | '-' :: _ | '=' :: _ => .malformed
  | text =>
      let (name, value) := splitValue text
      .option name value

/-- Classify an argument. -/
def Word.ofArgument (argument : String) : Word :=
  match argument.toList with
  | ['-', '-'] => .terminator
  | '-' :: '-' :: text => .ofName text
  | '-' :: first :: text => .ofName (first :: text)
  | _ => .operand

/-- The truth value that a word denotes. -/
def truth? (word : String) : Option Bool :=
  if ["1", "t", "T", "true", "TRUE", "True"].contains word then some true
  else if ["0", "f", "F", "false", "FALSE", "False"].contains word then
    some false
  else none

namespace Options

/-- Set the option called `name`, which takes a value. -/
def set? (options : Options) (name value : String) : Option Options :=
  match name with
  | "cpuprofile" => some { options with profile := value }
  | "config" => some { options with config := value }
  | "cs" => some { options with sensitivity := value }
  | "entry" => some { options with entry := value }
  | "k" =>
      (Text.literal? value.toList).map fun depth => { options with depth }
  | _ => none

/-- The options that take a value. -/
def valued : List String :=
  ["cpuprofile", "config", "cs", "entry", "k"]

/-- Read the arguments from the first on. -/
def parseFrom (options : Options) : List String → Arguments
  | [] => .ready options []
  | argument :: rest =>
      match Word.ofArgument argument with
      | .operand => .ready options (argument :: rest)
      | .terminator => .ready options rest
      | .malformed => .rejected
      | .option name value =>
          let name := String.ofList name
          if name = "debug" then
            match truth? ((value.map String.ofList).getD "true") with
            | some debug => parseFrom { options with debug } rest
            | none => .rejected
          else if valued.contains name then
            match value, rest with
            | some value, rest =>
                match options.set? name (String.ofList value) with
                | some options => parseFrom options rest
                | none => .rejected
            | none, value :: rest =>
                match options.set? name value with
                | some options => parseFrom options rest
                | none => .rejected
            | none, [] => .rejected
          else if name = "help" || name = "h" then .help
          else .rejected

/-- Read the arguments. -/
def parse (arguments : List String) : Arguments :=
  parseFrom {} arguments

/-- The name of the selector that the options ask for. -/
def selectorName (options : Options) : String :=
  if options.sensitivity = "ci" then "ci"
  else s!"{options.depth}-{options.sensitivity}"

end Options

end PointsTo.Command
