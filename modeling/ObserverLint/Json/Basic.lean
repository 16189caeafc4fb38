namespace ObserverLint

inductive Json where
  | null
  | bool (b : Bool)
  /-- A number written with digits only. -/
  | nat (n : Nat)
  /-- Any other number, as written. -/
  | number (literal : String)
  | string (text : String)
  | array (items : List Json)
  | object (fields : List (String × Json))
  /-- A string that stands for no text, because it has half of a surrogate pair, or an object with
  such a key. -/
  | unreadable
deriving Repr, Inhabited

namespace Json

def hexDigit (n : Nat) : Char := Nat.digitChar n

def escape (c : Char) : List Char :=
  if c = '"' then ['\\', '"']
  else if c = '\\' then ['\\', '\\']
  else if c = '\x08' then ['\\', 'b']
  else if c = '\x0c' then ['\\', 'f']
  else if c = '\n' then ['\\', 'n']
  else if c = '\r' then ['\\', 'r']
  else if c = '\t' then ['\\', 't']
  else if c.toNat < 0x20 then
    ['\\', 'u', '0', '0', hexDigit (c.toNat / 16), hexDigit (c.toNat % 16)]
  else [c]

def quote (text : String) : List Char := '"' :: text.toList.flatMap escape ++ ['"']

mutual

def compactChars : Json → List Char
  | null => "null".toList
  | bool true => "true".toList
  | bool false => "false".toList
  | nat n => Nat.toDigits 10 n
  | number literal => literal.toList
  | string text => quote text
  | array items => '[' :: compactItems items ++ [']']
  | object fields => '{' :: compactFields fields ++ ['}']
  | unreadable => "null".toList

def compactItems : List Json → List Char
  | [] => []
  | [v] => compactChars v
  | v :: w :: vs => compactChars v ++ ',' :: compactItems (w :: vs)

def compactFields : List (String × Json) → List Char
  | [] => []
  | [(key, v)] => quote key ++ ':' :: compactChars v
  | (key, v) :: w :: vs => quote key ++ ':' :: compactChars v ++ ',' :: compactFields (w :: vs)

end

def compact (v : Json) : String := String.ofList v.compactChars

def newLine (level : Nat) : List Char := '\n' :: List.replicate (2 * level) ' '

mutual

def prettyChars (level : Nat) : Json → List Char
  | array [] => "[]".toList
  | array (v :: vs) => '[' :: prettyItems (level + 1) (v :: vs) ++ newLine level ++ [']']
  | object [] => ['{', '}']
  | object (f :: fs) => '{' :: prettyFields (level + 1) (f :: fs) ++ newLine level ++ ['}']
  | null => "null".toList
  | bool true => "true".toList
  | bool false => "false".toList
  | nat n => Nat.toDigits 10 n
  | number literal => literal.toList
  | string text => quote text
  | unreadable => "null".toList

def prettyItems (level : Nat) : List Json → List Char
  | [] => []
  | [v] => newLine level ++ prettyChars level v
  | v :: w :: vs => newLine level ++ prettyChars level v ++ ',' :: prettyItems level (w :: vs)

def prettyFields (level : Nat) : List (String × Json) → List Char
  | [] => []
  | [(key, v)] => newLine level ++ quote key ++ ':' :: ' ' :: prettyChars level v
  | (key, v) :: w :: vs =>
    newLine level ++ quote key ++ ':' :: ' ' :: prettyChars level v ++
      ',' :: prettyFields level (w :: vs)

end

def pretty (v : Json) : String := String.ofList (v.prettyChars 0)

end Json

end ObserverLint
