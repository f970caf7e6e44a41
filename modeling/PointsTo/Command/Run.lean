import PointsTo.Analysis.Query
import PointsTo.Command.Options
import PointsTo.Program.Load
import PointsTo.Taint.Description

/-!
# The command

The command loads a program, analyses it and prints a summary: how many
methods are reached, which of them are recursive, and the taint flows if there
are taint rules.  Everything else goes to the log.
-/

namespace PointsTo.Command

/-- What a run of the command leaves behind. -/
structure Transcript where
  exit : Nat
  output : String := ""
  log : Log := []

/-- Give up with a last entry in the log. -/
def fatal (log : Log) (message : String) : Transcript :=
  { exit := 1, log := log ++ [{ level := .fatal, message }] }

/-- The summary of a result. -/
def summary (result : Result) : String :=
  let calls := result.state.calls
  let line (text : String) : String := text ++ "\n"
  line (s!"{result.reachableMethods.length} reachable methods " ++
    s!"({calls.reachable.length} with contexts), " ++
    s!"{calls.edges.length} call edges") ++
  String.join (result.recursive.map fun group =>
    line ("recursive: " ++ ", ".intercalate (group.map ContextMethod.text))) ++
  match result.setup.rules with
  | none => ""
  | some _ =>
      if result.flows.isEmpty then line "no taint flows"
      else
        String.join (result.flows.map fun flow =>
          line ("taint flow: " ++ flow.text))

/-- Analyse and report. -/
def report (log : Log) (setup : Setup) (entries : List MethodId) :
    Transcript :=
  match setup.analyze entries with
  | .failure _ more => { exit := 2, log := log ++ more }
  | .success result more =>
      { exit := 0, output := summary result, log := log ++ more }

/--
The taint rules in a file with the log of reading them.  Without a file there
are no rules; a file that cannot be used counts as one without rules.
-/
def readRules (files : Files) (program : Program) (config : String) :
    Option Rules × Log :=
  if config.isEmpty then (none, [])
  else
    let (rules, log) : Rules × Log :=
      match program.rulesOfFile files config with
      | .ok read => read
      | .error cause =>
          ({}, [{ level := .warning
                  message := cause.message ++
                    "; continuing without taint rules" }])
    (some rules, log ++ [{ level := .debug, message := rules.text }])

/-- The entry methods that an option asks for. -/
def readEntries (program : Program) (entry : String) :
    Except Error (List MethodId) :=
  if entry.isEmpty then .ok []
  else (program.findMethod entry).map fun method => [method.id]

/-- Load the program called `name` and analyse it. -/
def analyzeFile (files : Files) (options : Options) (name : String) :
    Transcript :=
  match Program.ofFile files name with
  | .error cause => fatal [] ("Loading program failed: " ++ cause.message)
  | .ok program =>
      let log : Log :=
        [{ level := .info
           message := s!"Loaded {program.declarations.length} classes" }]
      match Selector.named options.selectorName with
      | .error cause => fatal log cause.message
      | .ok selector =>
          match readEntries program options.entry with
          | .error cause => fatal log ("Bad entry method: " ++ cause.message)
          | .ok entries =>
              let (rules, more) := readRules files program options.config
              report (log ++ more) { program, selector, rules } entries

/-- Run with the given options and operands. -/
def perform (files : Files) (options : Options) (operands : List String) :
    Transcript :=
  match operands with
  | [name] =>
      if options.profile.isEmpty then analyzeFile files options name
      else
        match files.create options.profile with
        | .ok files => analyzeFile files options name
        | .error cause =>
            fatal []
              ("could not create CPU profile: " ++
                cause.createMessage options.profile)
  | _ => fatal [] "Specify a program file on the command line"

/-- Whether an entry is shown. -/
def isShown (options : Options) (entry : Entry) : Bool :=
  options.debug || entry.level ≠ .debug

/-- Run the command with the given arguments. -/
def run (files : Files) (arguments : List String) : Transcript :=
  match Options.parse arguments with
  | .help => { exit := 0 }
  | .rejected => { exit := 2 }
  | .ready options operands =>
      let transcript := perform files options operands
      { transcript with log := transcript.log.filter (isShown options) }

end PointsTo.Command
