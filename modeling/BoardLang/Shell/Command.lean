import BoardLang.Report.Diagnostic
import BoardLang.Report.Listing
import BoardLang.Report.Summary
import BoardLang.Shell.ReadError

/-!
# The command

What the command does with its arguments. `Request.ofArguments` reads them, from left to right and
before it looks at the name of the task, so that the first wrong argument is the one reported.
`run` carries the request out, given a way to read files, and gives everything that is to be
written.
-/

namespace BoardLang.Shell

/-- What can be done with a file. -/
inductive Task where
  | lex
  | check
deriving DecidableEq, Repr

namespace Task

def name : Task → String
  | lex => "lex"
  | check => "check"

def ofName? (name : String) : Option Task :=
  if name = "lex" then some lex else if name = "check" then some check else none

/-- What the task has to say about the text `source` of the file `file`. -/
def report (task : Task) (d : Dialect) (file source : String) : Except SourceError String :=
  match task with
  | lex => listing d source
  | check =>
    match summary d source with
    | .ok counts => .ok (counts.describe file)
    | .error e => .error e

end Task

def usage : String :=
  "Usage: bdl <command> <file.bdl> [options]\n" ++
  "\n" ++
  "Commands:\n" ++
  "  lex      Print every token with its position\n" ++
  "  check    Scan and parse the file, report the first error\n" ++
  "  help     Show this message\n" ++
  "\n" ++
  "Options:\n" ++
  "  --newlines   Treat newlines as statement terminators\n" ++
  "\n" ++
  "Set RUST_LOG (e.g. RUST_LOG=bdl_lexer=trace) for scanner logs.\n"

/-! ## Arguments -/

inductive UsageError where
  | noCommand
  | unknownOption (option : String)
  /-- A second path. -/
  | unexpectedArgument (argument : String)
  | missingPath (task : Task)
  | unknownCommand (name : String)
deriving DecidableEq, Repr

def UsageError.message : UsageError → String
  | noCommand => usage
  | unknownOption option => "error: unknown option `" ++ option ++ "`\n"
  | unexpectedArgument argument => "error: unexpected argument `" ++ argument ++ "`\n"
  | missingPath task =>
    "error: missing file path\nUsage: bdl " ++ task.name ++ " <file.bdl> [--newlines]\n"
  | unknownCommand name => "error: unknown command `" ++ name ++ "`\n" ++ usage

/-- What the arguments after the command say. -/
structure Arguments where
  dialect : Dialect := {}
  path? : Option String := none
deriving DecidableEq, Repr

namespace Arguments

/-- Whether `argument` is an option, known or not. -/
def isOption (argument : String) : Bool := argument.toList.head? = some '-'

def add (a : Arguments) (argument : String) : Except UsageError Arguments :=
  if argument = "--newlines" then .ok { a with dialect := ⟨true⟩ }
  else if isOption argument then .error (.unknownOption argument)
  else
    match a.path? with
    | none => .ok { a with path? := some argument }
    | some _ => .error (.unexpectedArgument argument)

/-- What all the arguments say, or the first one that is wrong. -/
def ofList (arguments : List String) : Except UsageError Arguments := arguments.foldlM add {}

end Arguments

/-- What the command is asked to do. -/
inductive Request where
  | help
  | process (task : Task) (dialect : Dialect) (path : String)
deriving DecidableEq, Repr

namespace Request

def isHelp (command : String) : Bool :=
  command = "help" || command = "--help" || command = "-h"

def ofCommand (command : String) (a : Arguments) : Except UsageError Request :=
  match Task.ofName? command with
  | some task =>
    match a.path? with
    | some path => .ok (.process task a.dialect path)
    | none => .error (.missingPath task)
  | none => if isHelp command then .ok .help else .error (.unknownCommand command)

/-- The request that the command line makes. -/
def ofArguments : List String → Except UsageError Request
  | [] => .error .noCommand
  | command :: arguments =>
    match Arguments.ofList arguments with
    | .ok a => ofCommand command a
    | .error e => .error e

end Request

/-! ## Carrying out -/

/-- Everything that a run of the command leaves behind. -/
structure Outcome where
  code : UInt32
  output : String
  errors : String
deriving DecidableEq, Repr

namespace Outcome

def success (output : String) : Outcome := ⟨0, output, ""⟩

def failure (errors : String) : Outcome := ⟨1, "", errors⟩

end Outcome

/-- Carries out `task` on what came of reading the file. -/
def Task.run (task : Task) (d : Dialect) (path : String) (content : Except ReadError String) :
    Outcome :=
  match content with
  | .error e => .failure ("error: cannot read " ++ path ++ ": " ++ e.message ++ "\n")
  | .ok source =>
    match task.report d path source with
    | .ok text => .success text
    | .error e => .failure (e.render path source ++ "\n")

/-- Runs the command with the given arguments, where `read` is how files are read. -/
def run (read : String → Except ReadError String) (arguments : List String) : Outcome :=
  match Request.ofArguments arguments with
  | .error e => .failure e.message
  | .ok .help => ⟨0, "", usage⟩
  | .ok (.process task d path) => task.run d path (read path)

end BoardLang.Shell
