import ObserverLint.Analyzer
import ObserverLint.Config.Basic

namespace ObserverLint

def ConfigError.causes (e : ConfigError) : List String :=
  match e with
  | unreadable _ reason => [e.message, reason]
  | _ => [e.message]

def AnalysisError.causes (e : AnalysisError) : List String :=
  match e with
  | unreadable fault => [e.message, fault.message]
  | walk fault => [e.message, fault.message]
  | badPattern fault => [e.message, fault.message]
  | broken _ => [e.message]

namespace CommandLine

structure Failure where
  summary : String
  causes : List String := []
deriving DecidableEq, Repr

namespace Failure

/-- A text whose lines after the first are indented. -/
def indented (width : Nat) (text : String) : String :=
  String.ofList (text.toList.flatMap fun c =>
    if c = '\n' then '\n' :: List.replicate width ' ' else [c])

/-- The causes on lines of their own; several are numbered from zero. -/
def causeLines : List String → List String
  | [] => []
  | [cause] => [s!"    {indented 4 cause}"]
  | causes => causes.zipIdx.map fun (cause, i) => s!"    {i}: {indented 7 cause}"

def render (f : Failure) : String :=
  let causes := match f.causes with
    | [] => ""
    | causes => "\n\nCaused by:\n" ++ "\n".intercalate (causeLines causes)
  s!"Error: {f.summary}{causes}\n"

end Failure

end CommandLine

end ObserverLint
