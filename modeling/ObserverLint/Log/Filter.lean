import ObserverLint.Log
import ObserverLint.Text.Search

namespace ObserverLint

namespace Speaker

def name : Speaker → String
  | analyzer => "rxlint_core::analyzer"
  | oracle => "rxlint_core::oracle"
  | catalogue => "rxlint_rules::registry"
  | preferObserver => "rxlint_rules::prefer_observer"
  | configSearch => "rxlint::config_resolver"
  | check => "rxlint::commands::check"
  | output => "rxlint::commands::output"

end Speaker

/-- How much of what a speaker says is written; zero is nothing. -/
abbrev Verbosity := Nat

def Level.ofName? : String → Option Verbosity
  | "off" | "0" => some 0
  | "error" | "1" => some 1
  | "warn" | "2" => some 2
  | "info" | "3" => some 3
  | "debug" | "4" => some 4
  | "trace" | "5" => some 5
  | _ => none

/-- How much to write of those speakers whose names begin with a text. -/
structure LogDirective where
  speaker : String := ""
  verbosity : Verbosity
deriving DecidableEq, Repr

namespace LogDirective

def verbosity? (name : List Char) : Option Verbosity :=
  Level.ofName? ((String.ofList name).map Char.toLower)

def isNameChar (c : Char) : Bool := c.isAlphanum || c = '_' || c = ':' || c = '-'

/-- Reads a directive: a level, or a name with or without a level. -/
def parse? (text : List Char) : Option LogDirective :=
  match verbosity? text with
  | some verbosity => some { verbosity }
  | none =>
    let (name, level) := (Text.cut? ['='] text).getD (text, [])
    if name.isEmpty || !name.all isNameChar then none
    else if level.isEmpty then some ⟨String.ofList name, 5⟩
    else (verbosity? level).map fun verbosity => ⟨String.ofList name, verbosity⟩

end LogDirective

structure LogFilter where
  directives : List LogDirective
deriving DecidableEq, Repr

namespace LogFilter

def all (level : Level) : LogFilter := ⟨[{ verbosity := level.verbosity }]⟩

def off : LogFilter := ⟨[{ verbosity := 0 }]⟩

/-- Reads directives with commas between them; without any, only errors are written. -/
def parse? (text : String) : Option LogFilter := do
  match (Text.split ',' text.toList).filter fun part => !part.isEmpty with
  | [] => some (all .error)
  | parts => some ⟨← parts.mapM LogDirective.parse?⟩

/-- Of two directives the one with the longer name counts, or else the later one. -/
def sharper (best : Option LogDirective) (d : LogDirective) : Option LogDirective :=
  match best with
  | some b => if d.speaker.length < b.speaker.length then some b else some d
  | none => some d

def directive? (f : LogFilter) (s : Speaker) : Option LogDirective :=
  (f.directives.filter fun d => d.speaker.toList.isPrefixOf s.name.toList).foldl sharper none

def admits (f : LogFilter) (e : LogEntry) : Bool :=
  match f.directive? e.speaker with
  | some d => e.level.verbosity ≤ d.verbosity
  | none => false

def render (f : LogFilter) (entries : List LogEntry) : String :=
  String.join ((entries.filter f.admits).map LogEntry.line)

end LogFilter

end ObserverLint
