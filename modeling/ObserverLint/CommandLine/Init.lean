import ObserverLint.CommandLine.Failure
import ObserverLint.Disk

namespace ObserverLint.CommandLine

def configName : String := "rxlint.toml"

def startingConfig : String :=
  "# rxlint configuration

# Lowest severity that makes `rxlint check` exit non-zero
fail_on = \"error\"

[analyzer]
# Root directory to analyze (default: current directory)
# root = \"./src\"

# Glob patterns to exclude from analysis
# (replaces the defaults: **/node_modules/**, **/dist/**)
exclude = [
    \"**/node_modules/**\",
    \"**/dist/**\",
    \"**/generated/**\",
]

# Respect .gitignore files
respect_gitignore = true

# Rule configurations
# Each rule can be enabled/disabled and have its severity overridden

[rules.prefer-observer]
enabled = true
# severity = \"warning\"  # Override default severity
# Allow `subscribe(next)` / `tap(next)` with a single callback
allow_next = true
"

def initMessage : String :=
  s!"Created {configName}\n\nNext steps:\n  1. Edit {configName} to configure rules\n" ++
    "  2. Run: rxlint check\n"

/-- The disk with the file on it. A file that is there already is kept unless force is used. -/
def init (disk : Disk) (force : Bool) : Except Failure Disk :=
  if disk.contains ⟨configName⟩ && !force then
    .error ⟨s!"Configuration file already exists at {configName}. Use --force to overwrite.", []⟩
  else
    (disk.write configName startingConfig).mapError fun fault =>
      ⟨s!"Failed to write {configName}", [fault.message]⟩

end ObserverLint.CommandLine
