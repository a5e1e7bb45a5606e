import Breadboard.Console.SwitchSetting
import Breadboard.Session

/-!
# Command lines

A command line names a command, a definition file and options. An option takes its value
from the next argument, or from its own argument as in `--cycles=4` and `-n4`. After a lone
`--` every argument is taken for a file.

The value of an argument is looked at only when the next known argument has been found or the
line has ended. An argument that is not known therefore comes before a bad value right in
front of it, but after one further to the left.
-/
namespace Breadboard.Console

/-- Why a command line is refused. -/
inductive UsageError where
  /-- The line is empty. -/
  | noArguments
  | unknownCommand
  /-- There is no definition file. -/
  | missingInput
  | unknownArgument
  /-- An option that may be given once is given again. -/
  | repeatedOption
  | invalidValue
  | missingValue
  /-- A request for help is given a value. -/
  | surplusValue
  /-- The user asks for help. -/
  | help
  deriving DecidableEq, Repr

/-! ## Reading arguments -/

/-- An argument of a command, and how its value is put into the settings `σ`. -/
abbrev Store (σ : Type) := String → σ → Except UsageError σ

/-- An option of a command. -/
structure Flag (σ : Type) where
  long : String
  short : Option Char := none
  store : Store σ

/-- What a command accepts: its options and one file. -/
structure Grammar (σ : Type) where
  flags : List (Flag σ)
  file : Store σ

/-- An argument whose value has not been looked at. -/
structure Pending (σ : Type) where
  store : Store σ
  /-- The value, once it has been found. -/
  value : Option String

/-- How far a command line has been read. -/
structure Progress (σ : Type) where
  settings : σ
  pending : Option (Pending σ) := none
  fileSeen : Bool := false
  /-- Whether a lone `--` has been passed. -/
  literal : Bool := false

namespace Progress

variable {σ : Type}

/-- Looks at the value that is pending. -/
def resolve (p : Progress σ) : Except UsageError (Progress σ) :=
  match p.pending with
  | none => .ok p
  | some ⟨_, none⟩ => .error .missingValue
  | some ⟨store, some value⟩ =>
    (store value p.settings).map fun settings => { p with settings, pending := none }

def takeFile (g : Grammar σ) (p : Progress σ) (text : String) : Except UsageError (Progress σ) :=
  if p.fileSeen then .error .unknownArgument
  else p.resolve.map fun p => { p with pending := some ⟨g.file, some text⟩, fileSeen := true }

/-- Takes an option, with its value if that is in the same argument. -/
def takeFlag (f : Flag σ) (value : Option String) (p : Progress σ) :
    Except UsageError (Progress σ) :=
  p.resolve.bind fun p =>
    match value with
    | none => .ok { p with pending := some ⟨f.store, none⟩ }
    | some value => (f.store value p.settings).map fun settings => { p with settings }

/-- Answers a request for help, once the value in front of it is known to be good. -/
def takeHelp (p : Progress σ) : Except UsageError (Progress σ) :=
  p.resolve.bind fun _ => .error .help

/-- Takes an argument that is not an option: the value that is waited for, or the file. -/
def takeWord (g : Grammar σ) (p : Progress σ) (text : String) : Except UsageError (Progress σ) :=
  match p.pending with
  | some ⟨store, none⟩ => .ok { p with pending := some ⟨store, some text⟩ }
  | _ => p.takeFile g text

def take (g : Grammar σ) (p : Progress σ) (text : String) : Except UsageError (Progress σ) :=
  if p.literal then p.takeFile g text
  else
    match text.toList with
    | ['-', '-'] => .ok { p with literal := true }
    | '-' :: '-' :: body =>
      let (name, value) := match Text.cutAt? '=' (String.ofList body) with
        | some (name, value) => (name, some value)
        | none => (String.ofList body, none)
      match g.flags.find? (·.long == name) with
      | some f => p.takeFlag f value
      | none =>
        if name ≠ "help" then .error .unknownArgument
        else if value.isSome then .error .surplusValue
        else p.takeHelp
    | '-' :: c :: body =>
      match g.flags.find? (·.short == some c) with
      | some f =>
        match body with
        | [] => p.takeFlag f none
        | '=' :: value => p.takeFlag f (some (String.ofList value))
        | value => p.takeFlag f (some (String.ofList value))
      | none => if c = 'h' then p.takeHelp else .error .unknownArgument
    | _ => p.takeWord g text

end Progress

def Grammar.read {σ : Type} (g : Grammar σ) (start : σ) (args : List String) :
    Except UsageError σ := do
  let p ← args.foldlM (Progress.take g) { settings := start }
  let p ← p.resolve
  return p.settings

/-! ## Values -/

/-- Reads a count: decimal digits, with a plus sign allowed in front, that fit into 64
bits. -/
def readCount (text : String) : Except UsageError Nat :=
  let digits := match text.toList with
    | '+' :: digits => digits
    | digits => digits
  if digits = [] || !digits.all Char.isDigit then .error .invalidValue
  else
    let n := Definition.Token.digitsValue digits
    if n < UInt64.size then .ok n else .error .invalidValue

def readPath (text : String) : Except UsageError String :=
  if text = "" then .error .missingValue else .ok text

/-- Puts a value into a place that takes one value only. -/
def once {σ α : Type} (get : σ → Option α) (set : σ → α → σ)
    (read : String → Except UsageError α) : Store σ := fun text s =>
  if (get s).isSome then .error .repeatedOption else (read text).map (set s)

/-! ## Commands -/

/-- The arguments of the command that checks a definition. -/
structure CheckArguments where
  input : String
  maxLines : Option Nat
  deriving DecidableEq, Repr

/-- The cycles that are simulated when no number is given. -/
def defaultCycles : Nat := 10

/-- The arguments of the command that simulates a circuit. -/
structure SimulateArguments where
  input : String
  cycles : Nat
  switches : List SwitchSetting
  toggles : List String
  report : Option String
  vcd : Option String
  dot : Option String
  maxPasses : Option Nat
  maxLines : Option Nat
  deriving DecidableEq, Repr

inductive Command where
  | check (a : CheckArguments)
  | simulate (a : SimulateArguments)
  deriving DecidableEq, Repr

namespace CheckArguments

/-- The arguments found so far. -/
structure Found where
  input : Option String := none
  maxLines : Option Nat := none

def grammar : Grammar Found where
  flags :=
    [{ long := "max-lines",
       store := once Found.maxLines (fun s n => { s with maxLines := some n }) readCount }]
  file := once Found.input (fun s path => { s with input := some path }) readPath

def ofArgs (args : List String) : Except UsageError CheckArguments := do
  let found ← grammar.read {} args
  match found.input with
  | some input => return { input, maxLines := found.maxLines }
  | none => throw .missingInput

def limits (a : CheckArguments) : Limits := Limits.ofOptions a.maxLines none

end CheckArguments

namespace SimulateArguments

/-- The arguments found so far. -/
structure Found where
  input : Option String := none
  cycles : Option Nat := none
  switches : List SwitchSetting := []
  toggles : List String := []
  report : Option String := none
  vcd : Option String := none
  dot : Option String := none
  maxPasses : Option Nat := none
  maxLines : Option Nat := none

def Found.addSwitch : Store Found := fun text s =>
  match SwitchSetting.ofText text with
  | .ok setting => .ok { s with switches := s.switches ++ [setting] }
  | .error _ => .error .invalidValue

def Found.addToggle : Store Found := fun text s => .ok { s with toggles := s.toggles ++ [text] }

def grammar : Grammar Found where
  flags :=
    [{ long := "cycles", short := some 'n',
       store := once Found.cycles (fun s n => { s with cycles := some n }) readCount },
     { long := "set", store := Found.addSwitch },
     { long := "toggle", store := Found.addToggle },
     { long := "report", short := some 'r',
       store := once Found.report (fun s path => { s with report := some path }) readPath },
     { long := "vcd",
       store := once Found.vcd (fun s path => { s with vcd := some path }) readPath },
     { long := "dot",
       store := once Found.dot (fun s path => { s with dot := some path }) readPath },
     { long := "max-passes",
       store := once Found.maxPasses (fun s n => { s with maxPasses := some n }) readCount },
     { long := "max-lines",
       store := once Found.maxLines (fun s n => { s with maxLines := some n }) readCount }]
  file := once Found.input (fun s path => { s with input := some path }) readPath

def ofArgs (args : List String) : Except UsageError SimulateArguments := do
  let found ← grammar.read {} args
  match found.input with
  | some input =>
    return { found with input, cycles := found.cycles.getD defaultCycles }
  | none => throw .missingInput

def limits (a : SimulateArguments) : Limits := Limits.ofOptions a.maxLines a.maxPasses

end SimulateArguments

/-- The names of the commands. No command has commands of its own to be helped with. -/
def Command.names : List String := ["check", "simulate", "help"]

/-- Reads a command line, without the name of the program. -/
def Command.ofArgs : List String → Except UsageError Command
  | [] => .error .noArguments
  | "check" :: args => (CheckArguments.ofArgs args).map .check
  | "simulate" :: args => (SimulateArguments.ofArgs args).map .simulate
  | ["help"] => .error .help
  | ["help", topic] => .error (if names.contains topic then .help else .unknownCommand)
  | "help" :: _ => .error .unknownCommand
  | ["--"] => .error .noArguments
  | "--" :: word :: _ =>
    .error (if names.contains word then .unknownArgument else .unknownCommand)
  | arg :: _ =>
    if arg = "--help" || "-h".toList.isPrefixOf arg.toList then .error .help
    else if "--help=".toList.isPrefixOf arg.toList then .error .surplusValue
    else if arg.toList.head? = some '-' && arg ≠ "-" then .error .unknownArgument
    else .error .unknownCommand

end Breadboard.Console
