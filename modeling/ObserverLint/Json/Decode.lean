import ObserverLint.Json.Basic

namespace ObserverLint.Json

def text? : Json → Option String
  | string text => some text
  | _ => none

/-- A number of at most 64 bits. -/
def word? : Json → Option Nat
  | nat n => if n < 0x10000000000000000 then some n else none
  | _ => none

def optionalText? : Json → Option (Option String)
  | null => some none
  | string text => some (some text)
  | _ => none

/-- The value of a field that occurs at most once: absent, present, or refused. -/
def unique? (key : String) (fields : List (String × Json)) : Option (Option Json) :=
  match fields.filter fun f => f.1 == key with
  | [] => some none
  | [(_, v)] => some (some v)
  | _ => none

def required? (key : String) (fields : List (String × Json)) : Option Json :=
  (unique? key fields).bind id

/-- The value of a field that occurs at most once; null if it is absent. -/
def optional? (key : String) (fields : List (String × Json)) : Option Json :=
  (unique? key fields).map fun v => v.getD null

end ObserverLint.Json
