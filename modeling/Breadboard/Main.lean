import Breadboard.Console.Run

/-!
# The program

Runs the command line on the files of the operating system.
-/
namespace Breadboard.Console

/-- The reason that the operating system gives. -/
def FileError.ofIO : IO.Error → FileError
  | .noFileOrDirectory _ _ _ => .notFound
  | e => .other (toString e)

/-- The files of the operating system. -/
def systemDisk : Disk IO where
  File := IO.FS.Handle
  read path := do
    try
      match String.fromUTF8? (← IO.FS.readBinFile path) with
      | some text => return .ok text
      | none => return .error .notUtf8
    catch e => return .error (.ofIO e)
  create path := do
    try return .ok (← IO.FS.Handle.mk path .write)
    catch e => return .error (.ofIO e)
  write file text := do
    file.putStr text
    file.flush

def UsageError.message : UsageError → String
  | noArguments => "a command is needed"
  | unknownCommand => "there is no such command"
  | missingInput => "a definition file is needed"
  | unknownArgument => "an argument is not known"
  | repeatedOption => "an option is given twice"
  | invalidValue => "the value of an option is not valid"
  | missingValue => "a value is missing"
  | surplusValue => "a request for help takes no value"
  | help => "a definition can be checked or simulated"

def usage : String :=
  "usage: check FILE [--max-lines N]\n" ++
  "       simulate FILE [-n CYCLES] [--set NAME=0|1]... [--toggle SIGNAL]...\n" ++
  "                [-r REPORT] [--vcd FILE] [--dot FILE] [--max-passes N] [--max-lines N]\n"

end Breadboard.Console

open Breadboard.Console in
/-- Runs the command line and answers with the exit code. -/
def main (args : List String) : IO UInt32 := do
  match Command.ofArgs args with
  | .error .help =>
    IO.print usage
    return 0
  | .error e =>
    IO.eprint s!"error: {e.message}\n{usage}"
    return 2
  | .ok command =>
    let (result, output) ← command.run systemDisk
    for notice in output.notices do
      IO.eprintln notice.line
    IO.print output.out
    IO.eprint output.err
    match result with
    | .ok () => return 0
    | .error e =>
      IO.eprintln s!"Error: {e.message}"
      for cause in e.chain.drop 1 do
        IO.eprintln s!"Caused by: {cause}"
      return 1
