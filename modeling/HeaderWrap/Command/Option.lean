/-! Options on a command line: `--name`, `--name value`, `--name=value`, and the short forms
`-n`, `-n value`, `-nvalue` and `-n=value`, of which those without a value may share one dash. -/
namespace HeaderWrap.Command

structure OptionSpec where
  name : String
  short? : Option Char
  takesValue : Bool
  isRepeatable : Bool
  deriving DecidableEq, Repr

inductive UsageFault where
  | unknownOption (argument : String)
  | missingValue (option : String)
  | emptyValue (option : String)
  | unwantedValue (option : String)
  | repeatedOption (option : String)
  | unexpectedArgument (argument : String)
  | missingCommand
  | unknownCommand (argument : String)
  deriving DecidableEq, Repr

def UsageFault.message : UsageFault → String
  | .unknownOption argument => "unexpected argument '" ++ argument ++ "' found"
  | .missingValue option => "a value is required for '--" ++ option ++ "' but none was supplied"
  | .emptyValue option => "a value is required for '--" ++ option ++ "' but it is empty"
  | .unwantedValue option => "unexpected value for '--" ++ option ++ "' found"
  | .repeatedOption option => "the argument '--" ++ option ++ "' cannot be used multiple times"
  | .unexpectedArgument argument => "unexpected argument '" ++ argument ++ "' found"
  | .missingCommand => "a command is required but none was given"
  | .unknownCommand argument => "unrecognized command '" ++ argument ++ "'"

inductive Stop where
  | help
  | version
  | fault (f : UsageFault)
  deriving DecidableEq, Repr

abbrev Given := List (String × String)

namespace Given

def contains (g : Given) (name : String) : Bool := g.any (·.1 == name)

def value? (g : Given) (name : String) : Option String := g.lookup name

def record (g : Given) (o : OptionSpec) (value : String) : Except Stop Given :=
  if o.name = "help" then .error .help
  else if o.name = "version" then .error .version
  else if g.contains o.name && !o.isRepeatable then .error (.fault (.repeatedOption o.name))
  else if o.takesValue && value = "" then .error (.fault (.emptyValue o.name))
  else .ok (g ++ [(o.name, value)])

end Given

private def readLong (specs : List OptionSpec) (g : Given) (body : List Char) :
    Except Stop (Given × Option OptionSpec) :=
  let name := String.ofList (body.takeWhile (· ≠ '='))
  match specs.find? (·.name == name), body.dropWhile (· ≠ '=') with
  | none, _ => .error (.fault (.unknownOption ("--" ++ name)))
  | some o, [] => if o.takesValue then .ok (g, some o) else do return (← g.record o "", none)
  | some o, _ :: value =>
    if o.takesValue then do return (← g.record o (String.ofList value), none)
    else .error (.fault (.unwantedValue o.name))

private def readShort (specs : List OptionSpec) (g : Given) :
    List Char → Except Stop (Given × Option OptionSpec)
  | [] => .ok (g, none)
  | c :: rest =>
    match specs.find? (·.short? == some c) with
    | none => .error (.fault (.unknownOption ("-" ++ c.toString)))
    | some o =>
      if !o.takesValue then do readShort specs (← g.record o "") rest
      else
        match rest with
        | [] => .ok (g, some o)
        | '=' :: value | value => do return (← g.record o (String.ofList value), none)

/-- Reads options up to the first argument that is none, and returns what is left. `pending?` is the
option whose value comes next. -/
def readOptions (specs : List OptionSpec) (pending? : Option OptionSpec) (g : Given) :
    List String → Except Stop (Given × List String)
  | [] =>
    match pending? with
    | some o => .error (.fault (.missingValue o.name))
    | none => .ok (g, [])
  | arg :: args =>
    match pending?, arg.toList with
    | some o, '-' :: _ :: _ => .error (.fault (.missingValue o.name))
    | some o, _ => do readOptions specs none (← g.record o arg) args
    | none, ['-', '-'] => .ok (g, arg :: args)
    | none, '-' :: '-' :: body => do
      let (g, pending?) ← readLong specs g body
      readOptions specs pending? g args
    | none, '-' :: c :: body => do
      let (g, pending?) ← readShort specs g (c :: body)
      readOptions specs pending? g args
    | none, _ => .ok (g, arg :: args)

end HeaderWrap.Command
