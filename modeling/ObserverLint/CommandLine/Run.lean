import ObserverLint.CommandLine.Check
import ObserverLint.CommandLine.Help
import ObserverLint.CommandLine.Init
import ObserverLint.CommandLine.Output
import ObserverLint.CommandLine.RuleTable
import ObserverLint.Log.Filter

namespace ObserverLint.CommandLine

structure Environment where
  disk : Disk
  grammar : Grammar
  draw : Drawing := fun _ => none
  /-- The directory of the user's configuration, if it is not in the home directory. -/
  configDir : Option Path := none
  /-- The log filter asked for. -/
  logFilter : Option String := none

structure Outcome where
  exitCode : Nat
  output : String := ""
  /-- What is said beside the output. -/
  complaint : String := ""
  disk : Disk

namespace Environment

def globalDir (e : Environment) : Option Path :=
  e.configDir.orElse fun _ => e.disk.home.map fun home => home.join ⟨".rxlint"⟩

/-- The filter for the log. One that cannot be read is as none at all. -/
def filter (e : Environment) (verbose : Bool) : LogFilter :=
  (e.logFilter.bind LogFilter.parse?).getD (.all (if verbose then .debug else .info))

def projectDir (e : Environment) (path : Path) : Path :=
  if e.disk.isFile path then path.parent?.getD ⟨""⟩ else path

def configFile? (e : Environment) (i : Invocation) (path : Path) : Option ConfigFile :=
  ConfigFile.resolve? e.disk (e.projectDir path) i.config e.globalDir

end Environment

def exitCodeOf (threshold : Severity) (report : Report) : Nat :=
  if report.hasAtLeast threshold then 1 else 0

def runCheck (e : Environment) (i : Invocation) (options : CheckOptions) : Outcome :=
  let file := e.configFile? i options.path
  let log := ConfigFile.resolveLog e.disk (e.projectDir options.path) i.config ++
    checkLog e.disk e.grammar file options
  match check e.disk e.grammar file options with
  | .ok c => {
      exitCode := exitCodeOf c.threshold c.report
      output := options.format.render e.draw e.disk c.analyzer c.report
      complaint := (e.filter i.verbose).render
        (log ++ options.format.log e.disk c.analyzer c.report)
      disk := e.disk }
  | .error error => {
      exitCode := 1
      complaint := (e.filter i.verbose).render log ++ error.failure.render
      disk := e.disk }

def runInit (e : Environment) (force : Bool) : Outcome :=
  match init e.disk force with
  | .ok disk => { exitCode := 0, output := initMessage, disk }
  | .error failure => { exitCode := 1, complaint := failure.render, disk := e.disk }

def runInvocation (e : Environment) (i : Invocation) : Outcome :=
  match i.command with
  | .check options => runCheck e i options
  | .listRules => { exitCode := 0, output := ruleTable, disk := e.disk }
  | .init force => runInit e force

def run (e : Environment) (arguments : List String) : Outcome :=
  match parse arguments with
  | .ok i => runInvocation e i
  | .error .version => { exitCode := 0, output := versionLine, disk := e.disk }
  | .error (.help topic full) => { exitCode := 0, output := helpText topic full, disk := e.disk }
  | .error .usage => { exitCode := 2, complaint := usage, disk := e.disk }

end ObserverLint.CommandLine
