import ConsensusEnvelope.Environment

/-!
# Command lines

A command line names a command, `keygen`, `sign` or `verify`, and then gives its
options and operands in any order. The value of an option is the next argument
or follows an equals sign. An argument that starts with a dash is an option,
except for a single dash and for whatever comes behind `--`; it is never the
value of the option before it. No option may be repeated.
-/

namespace ConsensusEnvelope.Tool

/-- Why a command line is refused. -/
inductive UsageFault where
  | noCommand
  | unknownCommand (name : String)
  | unknownOption (argument : String)
  | repeatedOption (name : String)
  | noValue (name : String)
  | missing (what : String)
  | surplus (argument : String)
  | conflict (first second : String)
  deriving DecidableEq, Repr

/-- The refusal in words. -/
def UsageFault.message : UsageFault → String
  | .noCommand => "a command is required: keygen, sign or verify"
  | .unknownCommand name => "unknown command '" ++ name ++ "'"
  | .unknownOption argument => "unknown option '" ++ argument ++ "'"
  | .repeatedOption name => "option --" ++ name ++ " is given more than once"
  | .noValue name => "option --" ++ name ++ " needs a value"
  | .missing what => what ++ " is required"
  | .surplus argument => "unexpected argument '" ++ argument ++ "'"
  | .conflict first second => "options --" ++ first ++ " and --" ++ second ++ " exclude each other"

/-- The options and operands of a command, in the order given. -/
structure Arguments where
  options : List (String × String)
  operands : List String

namespace Arguments

/-- No arguments. -/
def empty : Arguments :=
  ⟨[], []⟩

/-- The value of an option. -/
def option? (args : Arguments) (name : String) : Option String :=
  args.options.lookup name

/-- Adds an option. -/
def addOption (args : Arguments) (name value : String) : Except UsageFault Arguments :=
  if (args.option? name).isSome then .error (.repeatedOption name)
  else .ok { args with options := args.options ++ [(name, value)] }

/-- Adds operands. -/
def addOperands (args : Arguments) (operands : List String) : Arguments :=
  { args with operands := args.operands ++ operands }

/-- Whether an argument starts with a dash and is more than that. -/
def isDashed (argument : String) : Bool :=
  match argument.toList with
  | '-' :: _ :: _ => true
  | _ => false

/-- The name of a long option, and its value if one follows an equals sign. -/
def longOption? (argument : String) : Option (String × Option String) :=
  match argument.toList with
  | '-' :: '-' :: chars =>
    let name := String.ofList (chars.takeWhile (· ≠ '='))
    match chars.dropWhile (· ≠ '=') with
    | [] => some (name, none)
    | _ :: value => some (name, some (String.ofList value))
  | _ => none

/-- Sorts arguments into options, of which the names are known, and operands. -/
def scan (known : List String) : Arguments → List String → Except UsageFault Arguments
  | args, [] => .ok args
  | args, argument :: rest =>
    if argument = "--" then .ok (args.addOperands rest)
    else
      match longOption? argument with
      | some (name, value?) =>
        if name ∉ known then .error (.unknownOption argument)
        else
          match value?, rest with
          | some value, rest =>
            match args.addOption name value with
            | .ok args => scan known args rest
            | .error fault => .error fault
          | none, [] => .error (.noValue name)
          | none, value :: rest =>
            if isDashed value then .error (.noValue name)
            else
              match args.addOption name value with
              | .ok args => scan known args rest
              | .error fault => .error fault
      | none =>
        if isDashed argument then .error (.unknownOption argument)
        else scan known (args.addOperands [argument]) rest

end Arguments

/-- A payload on the command line. -/
inductive PayloadArgument where
  | text (text : String)
  | hex (digits : String)
  deriving DecidableEq, Repr

/-- What the tool is asked to do. -/
inductive Command where
  | keygen
  | sign (secretKey : String) (payload : PayloadArgument)
  | verify (envelope : String)
  deriving DecidableEq, Repr

namespace Command

/-- The secret key from its option, or else from the environment. -/
def secretKey (env : Environment) (args : Arguments) : Except UsageFault String :=
  match args.option? "secret-key", env.text? .secretKey with
  | some key, _ => .ok key
  | none, some key => .ok key
  | none, none => .error (.missing "option --secret-key")

/-- The payload from the one of its two options that is given. -/
def payload (args : Arguments) : Except UsageFault PayloadArgument :=
  match args.option? "payload", args.option? "payload-hex" with
  | some _, some _ => .error (.conflict "payload" "payload-hex")
  | some text, none => .ok (.text text)
  | none, some digits => .ok (.hex digits)
  | none, none => .error (.missing "option --payload or --payload-hex")

/-- Requires that there are no operands. -/
def noOperands (args : Arguments) : Except UsageFault Unit :=
  match args.operands with
  | [] => .ok ()
  | operand :: _ => .error (.surplus operand)

/-- The command that a command line stands for. -/
def parse (env : Environment) : List String → Except UsageFault Command
  | [] => .error .noCommand
  | "keygen" :: rest => do
    noOperands (← Arguments.scan [] .empty rest)
    return .keygen
  | "sign" :: rest => do
    let args ← Arguments.scan ["secret-key", "payload", "payload-hex"] .empty rest
    noOperands args
    return .sign (← secretKey env args) (← payload args)
  | "verify" :: rest => do
    let args ← Arguments.scan [] .empty rest
    match args.operands with
    | [] => throw (.missing "an envelope")
    | [envelope] => return .verify envelope
    | _ :: operand :: _ => throw (.surplus operand)
  | name :: _ => .error (.unknownCommand name)

end Command

end ConsensusEnvelope.Tool
