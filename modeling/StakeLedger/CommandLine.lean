import StakeLedger.Network.Address

namespace StakeLedger.CommandLine

def programName : String := "baseledger"
def version : String := "0.1.0"

inductive Flag
  | dataDirectory
  | rpcAddress
  | logLevel
  deriving DecidableEq, Repr

namespace Flag

def all : List Flag := [dataDirectory, rpcAddress, logLevel]

def name : Flag → String
  | dataDirectory => "data-dir"
  | rpcAddress => "rpc-addr"
  | logLevel => "log-level"

def help : Flag → String
  | dataDirectory => "directory of the configuration, the genesis document and the snapshots"
  | rpcAddress => "address of the bridge, before that of the configuration"
  | logLevel => "error, warn, info, debug or trace"

def ofName? (name : String) : Option Flag := all.find? (·.name == name)

end Flag

structure Arguments where
  dataDirectory : String := "./baseledger-data"
  rpcAddress : Option Network.Address := none
  logLevel : Option String := none
  deriving DecidableEq, Repr

inductive Command
  | run (arguments : Arguments)
  | help
  | version
  deriving DecidableEq, Repr

inductive Fault
  | unexpected (argument : String)
  | missingValue (flag : Flag)
  | invalidValue (flag : Flag) (value : String)
  | repeated (flag : Flag)
  | surplusValue (option : String)
  deriving DecidableEq, Repr

def Fault.message : Fault → String
  | .unexpected argument => "unexpected argument " ++ argument
  | .missingValue flag => "a value is required for --" ++ flag.name
  | .invalidValue flag value => "invalid value " ++ value ++ " for --" ++ flag.name
  | .repeated flag => "--" ++ flag.name ++ " cannot be used more than once"
  | .surplusValue option => "--" ++ option ++ " takes no value"

def Arguments.set (a : Arguments) (flag : Flag) (value : String) : Except Fault Arguments :=
  match flag with
  | .dataDirectory =>
    if value.isEmpty then .error (.missingValue flag) else .ok { a with dataDirectory := value }
  | .rpcAddress =>
    match Network.Address.parse? value with
    | some address => .ok { a with rpcAddress := some address }
    | none => .error (.invalidValue flag value)
  | .logLevel => .ok { a with logLevel := some value }

structure Reader where
  arguments : Arguments := {}
  given : List Flag := []
  pending : Option Flag := none

namespace Reader

def set (r : Reader) (flag : Flag) (value : String) : Except Fault Reader :=
  if flag ∈ r.given then .error (.repeated flag)
  else (r.arguments.set flag value).map fun arguments => ⟨arguments, flag :: r.given, none⟩

def settled (r : Reader) : Except Fault Reader :=
  match r.pending with
  | some flag => .error (.missingValue flag)
  | none => .ok r

end Reader

inductive Word
  | option (name : String) (value : Option String)
  | letters (first : Char)
  /-- Two dashes end the options. -/
  | endOfOptions
  | value (text : String)

def Word.ofString (argument : String) : Word :=
  match argument.toList with
  | '-' :: '-' :: [] => .endOfOptions
  | '-' :: '-' :: rest =>
    match rest.span (· ≠ '=') with
    | (name, '=' :: text) => .option (.ofList name) (some (.ofList text))
    | (name, _) => .option (.ofList name) none
  | '-' :: c :: _ => .letters c
  | _ => .value argument

def readAll (r : Reader) : List String → Except Fault Command
  | [] => r.settled.map fun r => .run r.arguments
  | argument :: rest =>
    match Word.ofString argument with
    | .value text =>
      match r.pending with
      | some flag => (r.set flag text).bind fun r => readAll r rest
      | none => .error (.unexpected argument)
    | .endOfOptions =>
      match rest with
      | [] => r.settled.map fun r => .run r.arguments
      | next :: _ => .error (.unexpected next)
    | .letters c => do
      discard r.settled
      if c = 'h' then .ok .help
      else if c = 'V' then .ok .version
      else .error (.unexpected argument)
    | .option name value => do
      let r ← r.settled
      match Flag.ofName? name, value with
      | some flag, some text => (r.set flag text).bind fun r => readAll r rest
      | some flag, none => readAll { r with pending := some flag } rest
      | none, value =>
        if name ≠ "help" ∧ name ≠ "version" then .error (.unexpected argument)
        else if value.isSome then .error (.surplusValue name)
        else .ok (if name = "help" then .help else .version)

def parse (arguments : List String) : Except Fault Command := readAll {} arguments

def versionText : String := programName ++ " " ++ version ++ "\n"

def helpText : String :=
  let options := Flag.all.map fun flag => "  --" ++ flag.name ++ " <value>  " ++ flag.help ++ "\n"
  "usage: " ++ programName ++ " [options]\n\n" ++ String.join options
    ++ "  -h, --help\n  -V, --version\n"

end StakeLedger.CommandLine
