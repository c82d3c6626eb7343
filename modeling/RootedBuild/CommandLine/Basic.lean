import RootedBuild.Descriptor.Bases
import RootedBuild.Event

/-!
The command line: global flags for how much is told, then one of two commands with its options and
operands. An option takes one value, written after an equals sign or as the next argument, and only
the option for service arguments takes a value that looks like an option. A value is judged when the
next argument shows it to be complete, so of two faults the earlier is not always the one reported.
-/
namespace RootedBuild.CommandLine

/-- Why a command line is not run; help and the version are asked for in the same way. -/
inductive UsageFault where
  | missingArgument
  | unknownArgument
  | invalidValue
  | unreadableValue
  | conflict
  | invalidSubcommand
  | missingSubcommand
  | tooManyValues
  | help
  | version
  | helpForNothing
  deriving DecidableEq, Repr

def UsageFault.name : UsageFault → String
  | .missingArgument => "MissingRequiredArgument"
  | .unknownArgument => "UnknownArgument"
  | .invalidValue => "InvalidValue"
  | .unreadableValue => "ValueValidation"
  | .conflict => "ArgumentConflict"
  | .invalidSubcommand => "InvalidSubcommand"
  | .missingSubcommand => "MissingSubcommand"
  | .tooManyValues => "TooManyValues"
  | .help => "DisplayHelp"
  | .version => "DisplayVersion"
  | .helpForNothing => "DisplayHelpOnMissingArgumentOrSubcommand"

inductive Kind where
  | build
  | config
  deriving DecidableEq, Repr

inductive OptionName where
  | context
  | configName
  | jobs
  | service
  | serviceArg
  deriving DecidableEq, Repr

inductive FlagName where
  | warnOnly
  | noLookUp
  | emit
  | verbose
  | quiet
  | help
  deriving DecidableEq, Repr

inductive Named where
  | option (o : OptionName)
  | flag (f : FlagName)
  deriving DecidableEq, Repr

/-- The names that every command knows. -/
def commonLong? : String → Option Named
  | "context" => some (.option .context)
  | "config-file-name" => some (.option .configName)
  | "verbose" => some (.flag .verbose)
  | "quiet" => some (.flag .quiet)
  | "help" => some (.flag .help)
  | _ => none

def buildLong? : String → Option Named
  | "warn-only" => some (.flag .warnOnly)
  | "no-config-lookup" => some (.flag .noLookUp)
  | "emit" => some (.flag .emit)
  | "jobs" => some (.option .jobs)
  | "service" => some (.option .service)
  | "service-arg" => some (.option .serviceArg)
  | _ => none

def long? (k : Kind) (name : String) : Option Named :=
  match k with
  | .build => (commonLong? name).or (buildLong? name)
  | .config => commonLong? name

def short? (k : Kind) (c : Char) : Option Named :=
  if c == 'v' then some (.flag .verbose)
  else if c == 'q' then some (.flag .quiet)
  else if c == 'h' then some (.flag .help)
  else if c == 'j' && k == .build then some (.option .jobs)
  else none

/-- Flags that may be repeated are counted, but not beyond 255. -/
def onceMore (count : Nat) : Nat := min (count + 1) 255

/-- What has been given and judged. -/
structure Given where
  operands : List String := []
  context : Option String := none
  configName : Option String := none
  jobs : Option Nat := none
  service : Option String := none
  serviceArgs : List String := []
  flags : List FlagName := []
  verbose : Nat := 0
  quiet : Nat := 0

/-- Values that are not judged yet. -/
inductive Pending where
  | none
  | option (o : OptionName) (value : Option String)
  | operands (values : List String)

structure Reading where
  given : Given := {}
  pending : Pending := .none
  /-- Set by two dashes: all that follows is an operand. -/
  literal : Bool := false

abbrev Judged := Except UsageFault

/-- A count in decimal digits, perhaps after a plus, of at most 64 bits. -/
def count? (s : String) : Option Nat :=
  let digits := match s.toList with
    | '+' :: cs => cs
    | cs => cs
  if digits.isEmpty || !digits.all Char.isDigit then none
  else
    let n := digits.foldl (fun n c => 10 * n + (c.toNat - '0'.toNat)) 0
    if n < 0x10000000000000000 then some n else none

/-- A path may not be empty. -/
def judgePath (s : String) : Judged String := if s.isEmpty then .error .invalidValue else .ok s

/-- An option may be given only once. -/
def once (old : Option α) (value : Judged α) : Judged (Option α) :=
  match old with
  | some _ => .error .conflict
  | none => value.map some

namespace Given

def setOption (g : Given) (o : OptionName) (s : String) : Judged Given :=
  match o with
  | .context => (once g.context (judgePath s)).map fun context => { g with context }
  | .configName => (once g.configName (.ok s)).map fun configName => { g with configName }
  | .jobs =>
    let value : Judged Nat := match count? s with
      | some n => .ok n
      | none => .error .unreadableValue
    (once g.jobs value).map fun jobs => { g with jobs }
  | .service => (once g.service (.ok s)).map fun service => { g with service }
  | .serviceArg => .ok { g with serviceArgs := g.serviceArgs ++ [s] }

def setFlag (g : Given) (f : FlagName) : Judged Given :=
  match f with
  | .verbose => .ok { g with verbose := onceMore g.verbose }
  | .quiet => .ok { g with quiet := onceMore g.quiet }
  | .help => .error .help
  | f => if g.flags.contains f then .error .conflict else .ok { g with flags := f :: g.flags }

def addOperands (g : Given) (values : List String) : Judged Given :=
  (values.mapM judgePath).map fun values => { g with operands := g.operands ++ values }

end Given

namespace Reading

/-- Judges what is pending. -/
def settle (r : Reading) : Judged Reading :=
  match r.pending with
  | .none => .ok r
  | .option _ none => .error .invalidValue
  | .option o (some s) =>
    (r.given.setOption o s).map fun given => { r with given, pending := .none }
  | .operands values =>
    (r.given.addOperands values).map fun given => { r with given, pending := .none }

def giveFlag (r : Reading) (f : FlagName) : Judged Reading := do
  let r ← r.settle
  let given ← r.given.setFlag f
  return { r with given }

/-- An option with its value in the same argument. -/
def giveAttached (r : Reading) (o : OptionName) (s : String) : Judged Reading := do
  let r ← r.settle
  let given ← r.given.setOption o s
  return { r with given }

/-- An option whose value is the next argument. -/
def openOption (r : Reading) (o : OptionName) : Judged Reading := do
  let r ← r.settle
  return { r with pending := .option o none }

def giveOperand (k : Kind) (r : Reading) (s : String) : Judged Reading :=
  match k, r.pending with
  | .build, .operands values => .ok { r with pending := .operands (values ++ [s]) }
  | .config, .operands _ => .error .unknownArgument
  | _, _ =>
    if k == .config && !r.given.operands.isEmpty then .error .unknownArgument
    else r.settle.map fun r => { r with pending := .operands [s] }

/-- The option whose value is still to come. -/
def waiting? (r : Reading) : Option OptionName :=
  match r.pending with
  | .option o none => some o
  | _ => none

def takeValue (r : Reading) (o : OptionName) (s : String) : Reading :=
  { r with pending := .option o (some s) }

end Reading

/-! ### Arguments -/

/-- Splits at the first equals sign. -/
def splitEquals (cs : List Char) : List Char × Option (List Char) :=
  match cs.dropWhile (· ≠ '=') with
  | [] => (cs, none)
  | _ :: value => (cs.takeWhile (· ≠ '='), some value)

/-- The shape of an argument. -/
inductive Shape where
  | dashes
  | long (name : String) (value : Option String)
  | short (letters : List Char)
  | plain

def shapeOf (arg : String) : Shape :=
  match arg.toList with
  | ['-', '-'] => .dashes
  | '-' :: '-' :: cs =>
    let (name, value) := splitEquals cs
    .long (String.ofList name) (value.map String.ofList)
  | '-' :: c :: cs => .short (c :: cs)
  | _ => .plain

def readLong (k : Kind) (r : Reading) (name : String) (value : Option String) : Judged Reading :=
  match long? k name, value with
  | none, _ => .error .unknownArgument
  | some (.flag f), none => r.giveFlag f
  | some (.flag _), some _ => .error .tooManyValues
  | some (.option o), some s => r.giveAttached o s
  | some (.option o), none => r.openOption o

/-- Letters after one dash: flags, and at the end perhaps an option with its value. -/
def readShort (k : Kind) (r : Reading) : List Char → Judged Reading
  | [] => .ok r
  | c :: cs =>
    match short? k c with
    | none => .error .unknownArgument
    | some (.flag f) =>
      match r.giveFlag f with
      | .ok r => readShort k r cs
      | .error f => .error f
    | some (.option o) =>
      match cs with
      | [] => r.openOption o
      | '=' :: value => r.giveAttached o (String.ofList value)
      | value => r.giveAttached o (String.ofList value)

/-- Only a service argument may look like an option. -/
def takesAnything (r : Reading) : Bool := r.waiting? == some .serviceArg

def readArgument (k : Kind) (r : Reading) (arg : String) : Judged Reading :=
  if r.literal then r.giveOperand k arg
  else if takesAnything r then .ok (r.takeValue .serviceArg arg)
  else
    match shapeOf arg with
    | .dashes => .ok { r with literal := true }
    | .long name value => readLong k r name value
    | .short letters => readShort k r letters
    | .plain =>
      match r.waiting? with
      | some o => .ok (r.takeValue o arg)
      | none => r.giveOperand k arg

def readArguments (k : Kind) (r : Reading) : List String → Judged Reading
  | [] => r.settle
  | arg :: args =>
    match readArgument k r arg with
    | .ok r => readArguments k r args
    | .error f => .error f

/-! ### Commands -/

structure BuildCommand where
  files : List String
  context : String
  warnOnly : Bool
  configName : String
  noLookUp : Bool
  jobs : Option Nat
  service : String
  serviceArgs : List String
  emit : Bool

structure ConfigCommand where
  file : String
  context : String
  configName : String

inductive Command where
  | build (c : BuildCommand)
  | config (c : ConfigCommand)

def defaultContext : String := "."

/-- More and less may not be asked for at once. -/
def conflicting (verbose quiet : Nat) : Bool := verbose ≠ 0 && quiet ≠ 0

def Given.command (g : Given) (k : Kind) : Judged Command :=
  let context := g.context.getD defaultContext
  let configName := g.configName.getD Descriptor.defaultName
  if conflicting g.verbose g.quiet then .error .conflict
  else
    match k, g.operands, g.service with
    | .build, file :: files, some service =>
      .ok (.build ⟨file :: files, context, g.flags.contains .warnOnly, configName,
        g.flags.contains .noLookUp, g.jobs, service, g.serviceArgs, g.flags.contains .emit⟩)
    | .config, file :: _, _ => .ok (.config ⟨file, context, configName⟩)
    | _, _, _ => .error .missingArgument

/-- A command, and the least important events that are still told; none at all if there is no
level. -/
structure Invocation where
  command : Command
  level : Option Level

/-- Every request for more tells one level more, up to all, and every request for less one less. -/
def levelOf (verbose quiet : Nat) : Option Level :=
  let n : Int := 2 + (verbose : Int) - quiet
  if n < 0 then none
  else if n = 0 then some .error
  else if n = 1 then some .warn
  else if n = 2 then some .info
  else if n = 3 then some .debug
  else some .trace

/-- A count given after the command stands for itself; otherwise the one before it holds. -/
def laterCount (before after : Nat) : Nat := if after = 0 then before else after

def readCommand (k : Kind) (verbose quiet : Nat) (args : List String) : Judged Invocation := do
  let r ← readArguments k {} args
  let command ← r.given.command k
  if conflicting verbose quiet then throw .conflict
  return ⟨command, levelOf (laterCount verbose r.given.verbose) (laterCount quiet r.given.quiet)⟩

/-- The only commands there is help on, with none below them. -/
def helpOn : List String → UsageFault
  | [] => .help
  | [name] => if ["build", "config", "help"].contains name then .help else .invalidSubcommand
  | _ => .invalidSubcommand

/-- What has been asked for before the command. -/
structure Asked where
  verbose : Nat := 0
  quiet : Nat := 0
  literal : Bool := false

def Asked.long (a : Asked) (name : String) (value : Option String) : Judged Asked :=
  if ["verbose", "quiet", "help", "version"].contains name then
    if value.isSome then .error .tooManyValues
    else if name == "verbose" then .ok { a with verbose := onceMore a.verbose }
    else if name == "quiet" then .ok { a with quiet := onceMore a.quiet }
    else if name == "help" then .error .help
    else .error .version
  else .error .unknownArgument

def Asked.short (a : Asked) : List Char → Judged Asked
  | [] => .ok a
  | c :: cs =>
    if c == 'v' then { a with verbose := onceMore a.verbose }.short cs
    else if c == 'q' then { a with quiet := onceMore a.quiet }.short cs
    else if c == 'h' then .error .help
    else if c == 'V' then .error .version
    else .error .unknownArgument

def kind? : String → Option Kind
  | "build" => some .build
  | "config" => some .config
  | _ => none

def readGlobal (a : Asked) : List String → Judged Invocation
  | [] => .error (if a.verbose = 0 && a.quiet = 0 then .helpForNothing else .missingSubcommand)
  | arg :: args =>
    if a.literal then
      .error (if arg == "help" || (kind? arg).isSome then .unknownArgument else .invalidSubcommand)
    else
      match kind? arg with
      | some k => readCommand k a.verbose a.quiet args
      | none =>
        if arg == "help" then .error (helpOn args)
        else
          match shapeOf arg with
          | .dashes => readGlobal { a with literal := true } args
          | .long name value =>
            match a.long name value with
            | .ok a => readGlobal a args
            | .error f => .error f
          | .short letters =>
            match a.short letters with
            | .ok a => readGlobal a args
            | .error f => .error f
          | .plain => .error .invalidSubcommand

/-- Reads the arguments of the program. -/
def read (args : List String) : Judged Invocation := readGlobal {} args

end RootedBuild.CommandLine
