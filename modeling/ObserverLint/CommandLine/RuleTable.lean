import ObserverLint.Rules.Catalogue

namespace ObserverLint.CommandLine

def padded (width : Nat) (text : String) : String := text.pushn ' ' (width - text.length)

def ruleRow (r : Rule) : String :=
  s!"{padded 8 r.code} {padded 20 r.name} {r.kind.label} {r.description}\n"

def ruleTable : String :=
  "Available rules:\n\n" ++
    padded 8 "Code" ++ " " ++ padded 20 "Name" ++ " " ++ padded 10 "Kind" ++ " Description\n" ++
    "".pushn '-' 80 ++ "\n" ++
    String.join (Catalogue.allRules.map ruleRow) ++
    "\nUse --rules to filter specific rules, e.g.:\n" ++
    "  rxlint check --rules prefer-observer\n" ++
    "  rxlint check --rules RX001 --allow-next false\n"

end ObserverLint.CommandLine
