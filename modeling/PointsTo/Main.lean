import PointsTo.Command.Run

/-!
# The executable

Creates the profile and reads the files that the arguments name, runs the
command and passes on what it prints, its log and its exit code.
-/

namespace PointsTo.Command

/-- An entry of the log as a line of text. -/
def line (entry : Entry) : String :=
  "level=" ++ entry.level.name ++ " msg=" ++ Text.quoted entry.message ++
    String.join (entry.fields.map fun field => s!" {field.1}={field.2}")

/-- Create the file called `name`, if that is possible. -/
def createFile (name : String) : IO Files := do
  try
    IO.FS.writeFile name ""
    return [(name, "")]
  catch _ => return []

/-- Read the file called `name`, if that is possible. -/
def readFile (name : String) : IO Files := do
  try
    let content ← IO.FS.readFile name
    return [(name, content)]
  catch _ => return []

/-- The files that a run works on. -/
def gather (arguments : List String) : IO Files := do
  match Options.parse arguments with
  | .ready options [name] =>
      let profile ←
        if options.profile.isEmpty then pure [] else createFile options.profile
      return profile ++ (← readFile name) ++ (← readFile options.config)
  | _ => return []

end PointsTo.Command

open PointsTo.Command in
/-- Run the command. -/
def main (arguments : List String) : IO UInt32 := do
  let transcript := run (← gather arguments) arguments
  IO.print transcript.output
  for entry in transcript.log do
    IO.eprintln (line entry)
  return transcript.exit.toUInt32
