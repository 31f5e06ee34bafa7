import HeaderWrap.Command.Option
import HeaderWrap.Report.Check
import HeaderWrap.Report.Generation
import HeaderWrap.Report.Listing

/-! The commands of the program: reading a command line, and carrying a command out. -/
namespace HeaderWrap

inductive Command where
  | generate (model : String) (output? : Option String) (dryRun : Bool)
  | check (model : String)
  | list (model : String) (json : Bool)
  deriving DecidableEq, Repr

namespace Command

private def programName : String := "wrapgen"

def version : String := "0.1.0"

def defaultModel : String := "wrapgen.toml"

private def usage : String :=
  "Generate C++ wrapper classes from C headers\n\n" ++
  "Usage: " ++ programName ++ " [--verbose] <COMMAND>\n\n" ++
  "Commands:\n" ++
  "  generate [--model <MODEL>] [--output <OUTPUT>] [--dry-run]\n" ++
  "  check    [--model <MODEL>]\n" ++
  "  list     [--model <MODEL>] [--json]\n" ++
  "  help\n"

/-! ### Reading a command line -/

private def switch (name : String) (short? : Option Char) : OptionSpec :=
  ⟨name, short?, false, false⟩

private def valued (name : String) (short : Char) : OptionSpec := ⟨name, some short, true, false⟩

private def globalOptions : List OptionSpec :=
  [⟨"verbose", some 'v', false, true⟩, switch "help" (some 'h')]

private def programOptions : List OptionSpec := globalOptions ++ [switch "version" (some 'V')]

private def commands : List (String × List OptionSpec × (Given → Command)) :=
  let model (g : Given) := (g.value? "model").getD defaultModel
  [("generate", [valued "model" 'm', valued "output" 'o', switch "dry-run" none],
      fun g => .generate (model g) (g.value? "output") (g.contains "dry-run")),
    ("check", [valued "model" 'm'], fun g => .check (model g)),
    ("list", [valued "model" 'm', switch "json" none],
      fun g => .list (model g) (g.contains "json"))]

private def readArguments (specs : List OptionSpec) (make : Given → Command) (args : List String) :
    Except Stop Command := do
  match ← readOptions (specs ++ globalOptions) none [] args with
  | (g, []) | (g, ["--"]) => return make g
  | (_, "--" :: arg :: _) | (_, arg :: _) => throw (.fault (.unexpectedArgument arg))

private def readTopic (topics : List String) : List String → Stop
  | [] => .help
  | name :: rest =>
    if !topics.contains name then .fault (.unknownCommand name)
    else match rest with
      | [] => .help
      | other :: _ => .fault (.unknownCommand other)

def parse (args : List String) : Except Stop Command := do
  match ← readOptions programOptions none [] args with
  | (_, []) | (_, ["--"]) => throw (.fault .missingCommand)
  | (_, "--" :: arg :: _) => throw (.fault (.unexpectedArgument arg))
  | (_, name :: args) =>
    match commands.lookup name with
    | some (specs, make) => readArguments specs make args
    | none => throw (if name = "help" then readTopic (name :: commands.map Prod.fst) args
        else .fault (.unknownCommand name))

/-! ### Carrying it out -/

structure Outcome where
  code : Nat
  output : String
  complaints : String
  deriving DecidableEq, Repr

namespace Outcome

def ofReport (isSuccess : Bool) (r : Report) : Outcome :=
  ⟨if isSuccess then 0 else 1, r.output, r.complaints⟩

def ofError (e : Model.Error) : Outcome :=
  let lines := ("error: " ++ e.message) :: (e.detail?.map ("  caused by: " ++ ·)).toList ++
    (e.help?.map ("  help: " ++ ·)).toList
  ⟨1, "", String.join (lines.map (· ++ "\n"))⟩

def ofFailure (f : Failure) : Outcome :=
  ⟨1, "", "error: " ++ String.intercalate "\n  caused by: " f.chain ++ "\n"⟩

private def ofStop : Stop → Outcome
  | .help => ⟨0, usage, ""⟩
  | .version => ⟨0, programName ++ " " ++ version ++ "\n", ""⟩
  | .fault f => ⟨2, "", "error: " ++ f.message ++ "\n\n" ++ usage⟩

end Outcome

variable {m : Type → Type} [Monad m] [Disk m]

def model : Command → String
  | generate model .. | check model | list model _ => model

private def runOn (p : Project) : Command → m (Except Failure Outcome)
  | generate _ output? dryRun => do
    let directory := output?.getD p.outputDirectory
    return (← p.generate directory dryRun).map fun g => .ofReport g.isSuccess g.report
  | check _ => do return (← p.check).map fun c => .ofReport c.isValid c.report
  | list _ json => do
    return (← p.list).map fun l =>
      if json then ⟨0, l.json.print 0 ++ "\n", ""⟩ else .ofReport true l.report

def run (c : Command) : m Outcome := do
  match ← Project.read c.model with
  | .error e => return .ofError e
  | .ok p =>
    match ← c.runOn p with
    | .error f => return .ofFailure f
    | .ok outcome => return outcome

def execute (args : List String) : m Outcome :=
  match parse args with
  | .error stop => return .ofStop stop
  | .ok c => c.run

end Command
end HeaderWrap
