import DocComment.CommandLine.Command

/-!
The command line: reads what a command needs, runs it and prints the result.
-/

namespace DocComment.CommandLine

/-- The text of a settings file, whose ending may be left out. -/
def readSettingsFile (path : String) : IO (Option String) := do
  try
    return some (← IO.FS.readFile path)
  catch _ =>
    try
      return some (← IO.FS.readFile (path ++ ".toml"))
    catch _ => return none

def usage : String :=
  "Usage: docblock [-v] [-q] <render|inspect|tags|languages> [options] [line]"

def runMain (words : List String) : IO UInt32 := do
  match parse words with
  | .error .version => IO.print versionText; return 0
  | .error .help => IO.println usage; return 0
  | .error .misuse => IO.eprintln usage; return 2
  | .ok command =>
      let file ← match command.config? with
        | some path => readSettingsFile path
        | none => pure none
      let input ← if command.readsInput then (← IO.getStdin).getLine else pure ""
      match command.run file input with
      | .ok written => IO.print written; return 0
      | .error error => IO.eprintln ("Error: " ++ error.message); return 1

end DocComment.CommandLine

def main (words : List String) : IO UInt32 := DocComment.CommandLine.runMain words
