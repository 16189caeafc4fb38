import ObserverLint.Path
import ObserverLint.Text.Search

namespace ObserverLint.CommandLine

inductive Format where
  | text
  | json
  | compact
deriving DecidableEq, Repr, Inhabited

def Format.ofName? : String → Option Format
  | "text" => some .text
  | "json" => some .json
  | "compact" => some .compact
  | _ => none

structure CheckOptions where
  /-- The directory or file to check. -/
  path : Path := ⟨"."⟩
  format : Format := .text
  /-- Names or codes of the rules to run, with commas between them. -/
  rules : Option String := none
  excludes : List String := []
  /-- Whether a single handler is in order, if the command line says so. -/
  allowNext : Option Bool := none
deriving DecidableEq, Repr, Inhabited

inductive Command where
  | check (options : CheckOptions)
  | listRules
  | init (force : Bool)
deriving DecidableEq, Repr

structure Invocation where
  verbose : Bool := false
  /-- The configuration file given by the user. -/
  config : Option Path := none
  command : Command
deriving DecidableEq, Repr

/-- Where an argument stands: before the name of a command, or after it. -/
inductive Scope where
  | program
  | check
  | listRules
  | init
deriving DecidableEq, Repr

inductive Topic where
  | level (scope : Scope)
  /-- The help command itself. -/
  | help
deriving DecidableEq, Repr

inductive Stop where
  | usage
  | version
  | help (topic : Topic) (full : Bool)
deriving DecidableEq, Repr

inductive Flag where
  | verbose
  | config
  | version
  | help (full : Bool)
  | format
  | rules
  | exclude
  | allowNext
  | force
deriving DecidableEq, Repr

namespace Flag

def takesValue : Flag → Bool
  | config | format | rules | exclude | allowNext => true
  | verbose | version | help _ | force => false

def admits : Flag → String → Bool
  | config, value => !value.isEmpty
  | format, value => (Format.ofName? value).isSome
  | allowNext, value => value == "true" || value == "false"
  | _, _ => true

end Flag

namespace Scope

def ofName? : String → Option Scope
  | "check" => some check
  | "list-rules" => some listRules
  | "init" => some init
  | _ => none

def long? (s : Scope) (name : String) : Option Flag :=
  match name, s with
  | "verbose", _ => some .verbose
  | "config", _ => some .config
  | "help", _ => some (.help true)
  | "version", program => some .version
  | "format", check => some .format
  | "rules", check => some .rules
  | "exclude", check => some .exclude
  | "allow-next", check => some .allowNext
  | "force", init => some .force
  | _, _ => none

def short? (s : Scope) (name : Char) : Option Flag :=
  match name, s with
  | 'v', _ => some .verbose
  | 'c', _ => some .config
  | 'h', _ => some (.help false)
  | 'V', program => some .version
  | 'f', check => some .format
  | 'e', check => some .exclude
  | _, _ => none

end Scope

structure Given where
  options : List (Flag × String) := []
  path : Option String := none
deriving DecidableEq, Repr

namespace Given

def has (g : Given) (f : Flag) : Bool := g.options.any fun o => o.1 == f

def value? (g : Given) (f : Flag) : Option String :=
  (g.options.find? fun o => o.1 == f).map Prod.snd

def values (g : Given) (f : Flag) : List String :=
  (g.options.filter fun o => o.1 == f).map Prod.snd

/-- Each option may be given once, except exclude patterns. -/
def take (g : Given) (s : Scope) (f : Flag) (value : String) : Except Stop Given :=
  match f with
  | .version => .error .version
  | .help full => .error (.help (.level s) full)
  | _ =>
    if (f != .exclude && g.has f) || !f.admits value then .error .usage
    else .ok { g with options := g.options ++ [(f, value)] }

def takePath (g : Given) (s : Scope) (value : String) : Except Stop Given :=
  if s == .check && g.path.isNone && !value.isEmpty then .ok { g with path := some value }
  else .error .usage

end Given

inductive Shape where
  | escape
  | long (name : String) (value : Option String)
  | short (letters : List Char)
  | plain
deriving DecidableEq, Repr

def shapeOf (argument : String) : Shape :=
  match argument.toList with
  | ['-', '-'] => .escape
  | '-' :: '-' :: cs =>
    match Text.cut? ['='] cs with
    | some (name, value) => .long (String.ofList name) (some (String.ofList value))
    | none => .long (String.ofList cs) none
  | ['-'] => .plain
  | '-' :: cs => .short cs
  | _ => .plain

/-- Short options in one argument: what they give, and one at the end that waits for its value. -/
def letters (s : Scope) (g : Given) : List Char → Except Stop (Given × Option Flag)
  | [] => .ok (g, none)
  | c :: cs =>
    match s.short? c with
    | none => .error .usage
    | some f =>
      if f.takesValue then
        match cs with
        | [] => .ok (g, some f)
        | '=' :: value => (g.take s f (String.ofList value)).map fun g => (g, none)
        | value => (g.take s f (String.ofList value)).map fun g => (g, none)
      else
        match g.take s f "" with
        | .ok g => letters s g cs
        | .error e => .error e

/-- A long option: what it gives, and whether it waits for its value. -/
def longOption (s : Scope) (g : Given) (name : String) (value : Option String) :
    Except Stop (Given × Option Flag) :=
  match s.long? name, value with
  | none, _ => .error .usage
  | some f, some value =>
    if f.takesValue then (g.take s f value).map fun g => (g, none) else .error .usage
  | some f, none =>
    if f.takesValue then .ok (g, some f) else (g.take s f "").map fun g => (g, none)

def helpStop : List String → Stop
  | [] => .help (.level .program) true
  | ["help"] => .help .help true
  | [name] =>
    match Scope.ofName? name with
    | some s => .help (.level s) true
    | none => .usage
  | _ => .usage

/-- What the arguments of a level give, and the name of a command with the arguments after it. -/
abbrev LevelResult := Given × Option (Scope × List String)

/-- Reads arguments after two dashes, none of which is an option. -/
def readPlain (s : Scope) (g : Given) : List String → Except Stop LevelResult
  | [] => .ok (g, none)
  | a :: as =>
    match g.takePath s a with
    | .ok g => readPlain s g as
    | .error e => .error e

/-- Reads the arguments of a level; `waiting` is an option whose value comes next. -/
def readLevel (s : Scope) (g : Given) (waiting : Option Flag) :
    List String → Except Stop LevelResult
  | [] => if waiting.isSome then .error .usage else .ok (g, none)
  | a :: as =>
    match waiting, shapeOf a with
    | some f, .plain =>
      match g.take s f a with
      | .ok g => readLevel s g none as
      | .error e => .error e
    | some _, _ => .error .usage
    | none, .escape => readPlain s g as
    | none, .long name value =>
      match longOption s g name value with
      | .ok (g, waiting) => readLevel s g waiting as
      | .error e => .error e
    | none, .short cs =>
      match letters s g cs with
      | .ok (g, waiting) => readLevel s g waiting as
      | .error e => .error e
    | none, .plain =>
      if s = .program then
        match Scope.ofName? a with
        | some command => .ok (g, some (command, as))
        | none => .error (if a = "help" then helpStop as else .usage)
      else
        match g.takePath s a with
        | .ok g => readLevel s g none as
        | .error e => .error e

def commandOf (s : Scope) (g : Given) : Except Stop Command :=
  match s with
  | .program => .error .usage
  | .check => .ok <| .check {
      path := ⟨g.path.getD "."⟩
      format := ((g.value? .format).bind Format.ofName?).getD .text
      rules := g.value? .rules
      excludes := g.values .exclude
      allowNext := (g.value? .allowNext).map (· == "true") }
  | .listRules => .ok .listRules
  | .init => .ok (.init (g.has .force))

/-- Reads all arguments. An option that goes before and after the name of the command counts where
it stands later. -/
def parse (arguments : List String) : Except Stop Invocation := do
  match ← readLevel .program {} none arguments with
  | (_, none) => .error .usage
  | (outer, some (scope, rest)) =>
    let (inner, _) ← readLevel scope {} none rest
    pure {
      verbose := outer.has .verbose || inner.has .verbose
      config := ((inner.value? .config).orElse fun _ => outer.value? .config).map Path.mk
      command := ← commandOf scope inner }

end ObserverLint.CommandLine
