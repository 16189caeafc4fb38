import ObserverLint.CallSite
import ObserverLint.Oracle.TypeOracle
import ObserverLint.Rule

namespace ObserverLint.PreferObserver

def ruleCode : String := "RX001"

def ruleName : String := "prefer-observer"

def docRef : String := "docs/rules/prefer-observer.md"

inductive MessageId where
  | forbidden
deriving DecidableEq, Repr

namespace MessageId

def label : MessageId → String
  | forbidden => "forbidden"

def message : MessageId → String
  | forbidden => "Passing separate handlers is forbidden; pass an observer instead."

end MessageId

structure Policy where
  /-- Whether a single callback is tolerated. -/
  allowNext : Bool := true
deriving DecidableEq, Repr

inductive CandidateKind where
  | tapCall
  | subscribeCall
deriving DecidableEq, Repr

def CandidateKind.name : CandidateKind → String
  | tapCall => "TapCall"
  | subscribeCall => "SubscribeCall"

/-- A call of one of the two forms. -/
structure Candidate where
  kind : CandidateKind
  site : CallSite
  /-- Where a finding about the call is reported. -/
  anchor : Place

structure Finding where
  messageId : MessageId
  anchor : Place

/-- The nearest place above `p` that is more than a pair of parentheses. -/
def outsideParentheses? (p : Place) : Option Place :=
  p.ancestors.find? fun a => a.kind != .parenthesized

def isPiped (source : String) (p : Place) : Bool :=
  match outsideParentheses? p with
  | none => false
  | some list =>
    list.kind == .arguments &&
      match list.parent?.bind CallSite.ofPlace? with
      | none => false
      | some outer => outer.callee.isMember && outer.name? source == some "pipe"

/-- A call of `tap` that is passed to `pipe`; findings are reported at what is called. -/
def tapInPipe? (source : String) (p : Place) : Option Candidate := do
  let site ← CallSite.ofPlace? p
  if site.name? source = some "tap" ∧ isPiped source p then
    some ⟨.tapCall, site, site.calleePlace⟩
  else none

/-- A call of a method `subscribe`; findings are reported at the name. -/
def subscribe? (source : String) (p : Place) : Option Candidate := do
  let site ← CallSite.ofPlace? p
  match site.callee with
  | .member _ property =>
    if property.text source = "subscribe" then some ⟨.subscribeCall, site, property⟩ else none
  | _ => none

def candidate? (source : String) (p : Place) : Option Candidate :=
  (tapInPipe? source p).orElse fun _ => subscribe? source p

def isCallable (oracle : TypeOracle) (p : Place) : Bool :=
  match p.kind with
  | .arrowFunction | .functionExpression | .function => true
  | _ => oracle.couldBeFunction p

def couldHaveStream (oracle : TypeOracle) : Callee → Bool
  | .member object _ => oracle.couldBeObservable object
  | _ => true

def separateHandlers (policy : Policy) (oracle : TypeOracle) : List Place → Bool
  | [] => false
  | [only] => !policy.allowNext && isCallable oracle only
  | _ => true

def evaluate (policy : Policy) (oracle : TypeOracle) (c : Candidate) : Option Finding :=
  if couldHaveStream oracle c.site.callee && separateHandlers policy oracle c.site.arguments then
    some ⟨.forbidden, c.anchor⟩
  else none

structure Settings where
  allowNext : Bool := true
  severity : Severity := .error
deriving DecidableEq, Repr, Inhabited

def Settings.policy (s : Settings) : Policy := ⟨s.allowNext⟩

def Finding.toViolation (severity : Severity) (path : Path) (source : String) (f : Finding) :
    Violation where
  code := ruleCode
  rule := ruleName
  severity := severity
  location := .ofPlace path source f.anchor
  message := f.messageId.message
  messageId := some f.messageId.label
  docRef := some docRef

def findingAt? (policy : Policy) (oracle : TypeOracle) (source : String) (p : Place) :
    Option Finding :=
  (candidate? source p).bind (evaluate policy oracle)

def findings (policy : Policy) (oracle : TypeOracle) (file : SourceFile) : List Finding :=
  file.calls.filterMap (findingAt? policy oracle file.text)

def checkWith (settings : Settings) (oracle : TypeOracle) (path : Path) (file : SourceFile) :
    List Violation :=
  (findings settings.policy oracle file).map
    (Finding.toViolation settings.severity path file.text)

def check (settings : Settings) (path : Path) (file : SourceFile) : List Violation :=
  checkWith settings (.ofFile file) path file

/-- The entry about a call of one of the two forms that is in order. -/
def acceptance? (settings : Settings) (oracle : TypeOracle) (path : Path) (file : SourceFile)
    (p : Place) : Option LogEntry := do
  let c ← candidate? file.text p
  match evaluate settings.policy oracle c with
  | some _ => none
  | none =>
    let line := (Text.positionAt file.text c.anchor.start).line
    some ⟨.trace, .preferObserver, s!"{c.kind.name} at {path.text}:{line} accepted"⟩

def log (settings : Settings) (path : Path) (file : SourceFile) : List LogEntry :=
  let d := Oracle.declarations file
  ⟨.debug, .oracle, s!"Type oracle for {file.path.text}: {d.names.length} binding(s) in " ++
    s!"{d.scopes.length} scope(s)"⟩ ::
    file.calls.filterMap
      (acceptance? settings (.ofDeclarations d file.text) path file)

/-- The rule against separate handlers. `source.subscribe(next, error)` and `source.pipe(tap(next,
error))` pass handlers by position; one observer object names them. Calls on something that cannot
be a stream are left alone. -/
def rule (settings : Settings) : Rule where
  name := ruleName
  code := ruleCode
  description := "Forbids passing separate handlers to `subscribe` and `tap`"
  defaultSeverity := settings.severity
  check := check settings
  log := log settings

end ObserverLint.PreferObserver
