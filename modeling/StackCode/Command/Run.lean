import StackCode.Code.Listing
import StackCode.Command.Arguments
import StackCode.Command.Files
import StackCode.Program.Format
import StackCode.Program.Numbering
import StackCode.Report
import StackCode.Schema.Message

namespace StackCode

structure Outcome where
  status : UInt32 := 0
  stdout : String := ""
  stderr : String := ""

namespace Outcome

def failure (stdout message : String) : Outcome :=
  { status := 2, stdout, stderr := "error: " ++ message ++ "\n" }

/-- Prints a report behind `stdout`. The status is 1 when there are errors, and then the text goes
to the other channel. -/
def ofReport (options : Options) (stdout : String) (r : Report) : Outcome :=
  let status : UInt32 := if r.success then 0 else 1
  if options.json then { status, stdout := stdout ++ r.toJson.pretty 0 ++ "\n" }
  else if r.success then { status, stdout := stdout ++ r.text }
  else { status, stdout, stderr := r.text }

end Outcome

def versionLine : String := "minicsc 0.1.0\n"

def versionText : String := versionLine ++ "MiniCS Compiler\nLicense: Apache-2.0\n"

def usageText : String :=
  "Usage: minicsc check [OPTIONS] <INPUT>\n" ++
  "       minicsc build [OPTIONS] [-o <FILE>] <INPUT>\n" ++
  "       minicsc version\n\n" ++
  "Options:\n" ++
  "  -o, --output <FILE>  Where the listing goes (stdout otherwise)\n" ++
  "      --entry <NAME>   Name of the entry method [default: Main]\n" ++
  "      --json           Emit a JSON report instead of text\n" ++
  "      --dump-symbols   Print every symbol ever declared\n" ++
  "  -h, --help           Print help\n"

def Halt.outcome : Halt → Outcome
  | .usage error => { status := 2, stderr := "error: " ++ error.message ++ "\n\n" ++ usageText }
  | .help => { stdout := usageText }
  | .programVersion => { stdout := versionLine }

namespace Schema

def Fault.message : Fault → String
  | .flaw .malformed => "malformed text"
  | .flaw .truncated => "the text ends too early"
  | .mistake m => m.message

end Schema

namespace Command

variable {m : Type → Type} [Monad m]

def load (files : Files m) (input : String) : m (Except String Program) := do
  match ← files.read input with
  | .error e => return .error (s!"failed to read {input}: " ++ e.message)
  | .ok text =>
    match Program.ofText text with
    | .error fault =>
      return .error (s!"{input} is not a valid MiniCS syntax tree: " ++ fault.message)
    | .ok program => return .ok program.numbered

def symbolsText (options : Options) (checked : CheckState) : String :=
  if options.dumpSymbols && !options.json then checked.table.dump else ""

def runCheck (files : Files m) (input : String) (options : Options) : m Outcome := do
  match ← load files input with
  | .error message => return .failure "" message
  | .ok program =>
    let checked := program.check options.entry
    return .ofReport options (symbolsText options checked) (.ofCheck input options.entry checked)

/-- Puts a listing where it is asked for; one that goes nowhere else is printed behind `stdout`,
unless that is kept for a report. -/
def putListing (files : Files m) (output : Option String) (options : Options) (stdout : String)
    (listing : String) : m (Except String String) := do
  match output with
  | none => return .ok (if options.json then stdout else stdout ++ listing)
  | some path =>
    match ← files.write path listing with
    | .ok _ => return .ok stdout
    | .error e => return .error (s!"failed to write {path}: " ++ e.message)

def runBuild (files : Files m) (input : String) (output : Option String) (options : Options) :
    m Outcome := do
  match ← load files input with
  | .error message => return .failure "" message
  | .ok program =>
    let checked := program.check options.entry
    let stdout := symbolsText options checked
    let result := program.build checked options.entry
    let report := (Report.ofCheck input options.entry checked).withResult result
    match result with
    | .error _ => return .ofReport options stdout report
    | .ok module =>
      match ← putListing files output options stdout module.listing with
      | .ok stdout => return .ofReport options stdout report
      | .error message => return .failure stdout message

def run (files : Files m) : Command → m Outcome
  | .check input options => runCheck files input options
  | .build input output options => runBuild files input output options
  | .version => return { stdout := versionText }

end Command

def runArguments {m : Type → Type} [Monad m] (files : Files m) (words : List String) :
    m Outcome :=
  match Command.parse words with
  | .ok command => command.run files
  | .error halt => return halt.outcome

end StackCode
