import ObserverLint.CommandLine.Arguments

namespace ObserverLint.CommandLine

namespace Help

def program : List String := [
  "CLI tool for the rxlint RxJS linter",
  "",
  "Usage: rxlint [OPTIONS] <COMMAND>",
  "",
  "Commands:",
  "  check       Run lint checks",
  "  list-rules  List available rules",
  "  init        Initialize configuration file",
  "  help        Print this message or the help of the given subcommand(s)",
  "",
  "Options:",
  "  -v, --verbose          Enable verbose output",
  "  -c, --config <CONFIG>  Path to configuration file",
  "  -h, --help             Print help",
  "  -V, --version          Print version"]

def checkShort : List String := [
  "Run lint checks",
  "",
  "Usage: rxlint check [OPTIONS] [PATH]",
  "",
  "Arguments:",
  "  [PATH]  Path to analyze (default: current directory) [default: .]",
  "",
  "Options:",
  "  -f, --format <FORMAT>          Output format [default: text] [possible values: text, json,",
  "                                 compact]",
  "  -v, --verbose                  Enable verbose output",
  "  -c, --config <CONFIG>          Path to configuration file",
  "      --rules <RULES>            Only run specific rules (comma-separated names or codes)",
  "  -e, --exclude <EXCLUDE>        Exclude patterns (can be specified multiple times)",
  "      --allow-next <ALLOW_NEXT>  Override `allow_next` for prefer-observer [possible values: true,",
  "                                 false]",
  "  -h, --help                     Print help (see more with '--help')"]

def checkFull : List String := [
  "Run lint checks",
  "",
  "Usage: rxlint check [OPTIONS] [PATH]",
  "",
  "Arguments:",
  "  [PATH]",
  "          Path to analyze (default: current directory)",
  "          ",
  "          [default: .]",
  "",
  "Options:",
  "  -f, --format <FORMAT>",
  "          Output format",
  "          ",
  "          [default: text]",
  "",
  "          Possible values:",
  "          - text:    Human-readable text output",
  "          - json:    JSON output",
  "          - compact: One-line-per-violation compact format",
  "",
  "  -v, --verbose",
  "          Enable verbose output",
  "",
  "  -c, --config <CONFIG>",
  "          Path to configuration file",
  "",
  "      --rules <RULES>",
  "          Only run specific rules (comma-separated names or codes)",
  "",
  "  -e, --exclude <EXCLUDE>",
  "          Exclude patterns (can be specified multiple times)",
  "",
  "      --allow-next <ALLOW_NEXT>",
  "          Override `allow_next` for prefer-observer",
  "          ",
  "          [possible values: true, false]",
  "",
  "  -h, --help",
  "          Print help (see a summary with '-h')"]

def listRules : List String := [
  "List available rules",
  "",
  "Usage: rxlint list-rules [OPTIONS]",
  "",
  "Options:",
  "  -v, --verbose          Enable verbose output",
  "  -c, --config <CONFIG>  Path to configuration file",
  "  -h, --help             Print help"]

def init : List String := [
  "Initialize configuration file",
  "",
  "Usage: rxlint init [OPTIONS]",
  "",
  "Options:",
  "      --force            Overwrite existing config",
  "  -v, --verbose          Enable verbose output",
  "  -c, --config <CONFIG>  Path to configuration file",
  "  -h, --help             Print help"]

def help : List String := [
  "Print this message or the help of the given subcommand(s)",
  "",
  "Usage: rxlint help [COMMAND]...",
  "",
  "Arguments:",
  "  [COMMAND]...  Print help for the subcommand(s)"]

end Help

/-- The check command has a short help and a full one; all others have one for both. -/
def helpText : Topic → Bool → String
  | topic, full =>
    let lines := match topic with
      | .level .program => Help.program
      | .level .check => if full then Help.checkFull else Help.checkShort
      | .level .listRules => Help.listRules
      | .level .init => Help.init
      | .help => Help.help
    "\n".intercalate lines ++ "\n"

def versionLine : String := "rxlint 0.1.0\n"

def usage : String :=
  "Usage: rxlint [OPTIONS] <COMMAND>\n\nFor more information, try '--help'.\n"

end ObserverLint.CommandLine
