namespace ObserverLint

inductive Level where
  | error
  | warn
  | info
  | debug
  | trace
deriving DecidableEq, Repr, Inhabited

namespace Level

def name : Level → String
  | error => "ERROR"
  | warn => "WARN"
  | info => "INFO"
  | debug => "DEBUG"
  | trace => "TRACE"

def verbosity : Level → Nat
  | error => 1
  | warn => 2
  | info => 3
  | debug => 4
  | trace => 5

end Level

inductive Speaker where
  | analyzer
  | oracle
  | catalogue
  | preferObserver
  | configSearch
  | check
  | output
deriving DecidableEq, Repr, Inhabited

structure LogEntry where
  level : Level
  speaker : Speaker
  message : String
deriving DecidableEq, Repr

namespace LogEntry

/-- A character as it is shown in the log. One that a terminal may take for a command is written out;
line breaks and tabs stay. -/
def shown (c : Char) : List Char :=
  if c = '\x07' then "\\x07".toList
  else if c = '\x08' then "\\x08".toList
  else if c = '\x0c' then "\\x0c".toList
  else if c = '\x1b' then "\\x1b".toList
  else if c = '\x7f' then "\\x7f".toList
  else if 0x80 ≤ c.toNat ∧ c.toNat ≤ 0x9f then
    "\\u\x7b".toList ++ Nat.toDigits 16 c.toNat ++ ['\x7d']
  else [c]

def text (e : LogEntry) : String := String.ofList (e.message.toList.flatMap shown)

def line (e : LogEntry) : String := s!"{e.level.name} {e.text}\n"

end LogEntry

end ObserverLint
