import ObserverLint.Path

namespace ObserverLint

inductive Dialect where
  | typeScript
  | tsx
  | javaScript
  | jsx
deriving DecidableEq, Repr, Inhabited

namespace Dialect

def name : Dialect → String
  | typeScript => "TypeScript"
  | tsx => "Tsx"
  | javaScript => "JavaScript"
  | jsx => "Jsx"

def extensions : List String := ["ts", "mts", "cts", "tsx", "js", "mjs", "cjs", "jsx"]

def ofExtension? : String → Option Dialect
  | "ts" | "mts" | "cts" => some typeScript
  | "tsx" => some tsx
  | "js" | "mjs" | "cjs" => some javaScript
  | "jsx" => some jsx
  | _ => none

def ofPath? (p : Path) : Option Dialect := p.extension?.bind ofExtension?

end Dialect

end ObserverLint
