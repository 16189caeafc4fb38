import ObserverLint.Toml.Scalar

namespace ObserverLint.Toml

/-- Arrays, tables in braces and dotted keys stay below this depth. -/
def depthLimit : Nat := 80

def isBareKey (c : Char) : Bool := c.isAlphanum || c = '_' || c = '-'

def simpleKey? (cs : Rest) : Option (String × Rest) :=
  match cs with
  | '"' :: _ | '\'' :: _ => lineString? cs
  | _ =>
    match cs.takeWhile isBareKey with
    | [] => none
    | key => some (String.ofList key, cs.dropWhile isBareKey)

def keyParts? : Nat → Rest → Option (List String × Rest)
  | 0, _ => none
  | n + 1, cs => do
    let (key, cs) ← simpleKey? (skipBlanks cs)
    match skipBlanks cs with
    | '.' :: cs => (keyParts? n cs).map fun (keys, cs) => (key :: keys, cs)
    | cs => some ([key], cs)

/-- A possibly dotted key: the keys before the last, and the last. -/
def key? (cs : Rest) : Option (List String × String × Rest) := do
  let (keys, cs) ← keyParts? (depthLimit - 1) cs
  let last ← keys.getLast?
  some (keys.dropLast, last, cs)

def get? (key : String) (fields : Fields) : Option Value :=
  (fields.find? fun f => f.1 == key).map Prod.snd

def replace (key : String) (v : Value) (fields : Fields) : Fields :=
  fields.map fun f => if f.1 == key then (key, v) else f

/-- Changes the table that `path` leads to, starting from the table with these fields. Tables
missing on the way are made; the last of repeated tables stands for all of them. -/
def within (made : Origin) (change : Origin → Fields → Option Fields) :
    List String → Origin → Fields → Option Fields
  | [], origin, fields => change origin fields
  | key :: path, _, fields =>
    match get? key fields with
    | none =>
      (within made change path made []).map fun below => fields ++ [(key, .table made below)]
    | some (.table origin below) =>
      if origin = .inline ∨ (made = .dotted ∧ origin = .header) then none
      else
        (within made change path origin below).map fun below =>
          replace key (.table origin below) fields
    | some (.tables items) =>
      match items.getLast? with
      | some (.table origin below) =>
        (within made change path origin below).map fun below =>
          replace key (.tables (items.dropLast ++ [.table origin below])) fields
      | _ => none
    | some _ => none

/-- Gives a new key a value. A dotted key must end in a table of dotted keys. -/
def assign (dots : List String) (key : String) (v : Value) (origin : Origin) (fields : Fields) :
    Option Fields :=
  within .dotted
    (fun reached below =>
      if dots ≠ [] ∧ reached ≠ .dotted then none
      else
        match get? key below with
        | none => some (below ++ [(key, v)])
        | some _ => none)
    dots origin fields

/-- A table can have one header, and only tables that dotted keys or longer headers made can be
added to later. -/
def openTable (key : String) (_ : Origin) (fields : Fields) : Option Fields :=
  match get? key fields with
  | none => some (fields ++ [(key, .table .header [])])
  | some (.table .implied below) => some (replace key (.table .header below) fields)
  | some _ => none

def openRepeated (key : String) (_ : Origin) (fields : Fields) : Option Fields :=
  match get? key fields with
  | none => some (fields ++ [(key, .tables [.table .header []])])
  | some (.tables items) => some (replace key (.tables (items ++ [.table .header []])) fields)
  | some _ => none

/-- Blanks, line ends and comments, as they may stand between the items of an array. -/
def skipFiller (inComment : Bool) : Rest → Rest
  | [] => []
  | '\r' :: '\n' :: cs => skipFiller false cs
  | '\n' :: cs => skipFiller false cs
  | c :: cs =>
    if inComment then if isText c then skipFiller true cs else c :: cs
    else if c = ' ' ∨ c = '\t' then skipFiller false cs
    else if c = '#' then skipFiller true cs
    else c :: cs

def items? (item : Rest → Option (Value × Rest)) : Nat → Rest → Option (List Value × Rest)
  | 0, _ => none
  | n + 1, cs =>
    match skipFiller false cs with
    | ']' :: cs => some ([], cs)
    | cs => do
      let (v, cs) ← item cs
      match skipFiller false cs with
      | ',' :: cs => (items? item n cs).map fun (vs, cs) => (v :: vs, cs)
      | ']' :: cs => some ([v], cs)
      | _ => none

def keyValue? (item : Rest → Option (Value × Rest)) (cs : Rest) :
    Option ((List String × String × Value) × Rest) := do
  let (dots, key, cs) ← key? cs
  match cs with
  | '=' :: cs =>
    let (v, cs) ← item (skipBlanks cs)
    some ((dots, key, v), cs)
  | _ => none

/-- The entries of a table in braces up to the closing brace, added to those before. -/
def entries? (item : Rest → Option (Value × Rest)) : Nat → Fields → Rest → Option (Fields × Rest)
  | 0, _, _ => none
  | n + 1, fields, cs => do
    let ((dots, key, v), cs) ← keyValue? item cs
    let fields ← assign dots key v .header fields
    match skipBlanks cs with
    | ',' :: cs => entries? item n fields cs
    | '}' :: cs => some (fields, cs)
    | _ => none

def value? (depth : Nat) (cs : Rest) : Option (Value × Rest) :=
  match depth, cs with
  | 0, '[' :: _ => none
  | 0, '{' :: _ => none
  | depth + 1, '[' :: cs =>
    (items? (value? depth) (cs.length + 1) cs).map fun (vs, cs) => (.array vs, cs)
  | depth + 1, '{' :: cs =>
    match skipBlanks cs with
    | '}' :: cs => some (.table .inline [], cs)
    | cs =>
      (entries? (value? depth) (cs.length + 1) [] cs).map fun (fields, cs) =>
        (.table .inline fields, cs)
  | _, cs => scalar? cs

def endOfLine? (cs : Rest) : Option Rest :=
  let cs := match skipBlanks cs with
    | '#' :: cs => cs.dropWhile isText
    | cs => cs
  match cs with
  | [] => some []
  | cs => newline? cs

/-- What has been read: all fields, and the header that the next line stands under. -/
structure Progress where
  fields : Fields := []
  header : List String := []

namespace Progress

def line? (p : Progress) (cs : Rest) : Option (Progress × Rest) :=
  match cs with
  | '[' :: '[' :: cs => do
    let (front, key, cs) ← key? cs
    match cs with
    | ']' :: ']' :: cs =>
      let fields ← within .implied (openRepeated key) front .header p.fields
      some (⟨fields, front ++ [key]⟩, ← endOfLine? cs)
    | _ => none
  | '[' :: cs => do
    let (front, key, cs) ← key? cs
    match cs with
    | ']' :: cs =>
      let fields ← within .implied (openTable key) front .header p.fields
      some (⟨fields, front ++ [key]⟩, ← endOfLine? cs)
    | _ => none
  | cs =>
    match endOfLine? cs with
    | some cs => some (p, cs)
    | none => do
      let ((dots, key, v), cs) ← keyValue? (value? (depthLimit - 1)) cs
      let fields ← within .implied (assign dots key v) p.header .header p.fields
      some ({ p with fields }, ← endOfLine? cs)

def lines? : Nat → Progress → Rest → Option Progress
  | 0, _, _ => none
  | n + 1, p, cs =>
    match skipBlanks cs with
    | [] => some p
    | cs =>
      match p.line? cs with
      | some (p, cs) => lines? n p cs
      | none => none

end Progress

/-- Reads a document. A byte order mark at its start does not count. -/
def parse? (text : String) : Option Fields :=
  let cs := match text.toList with
    | '\ufeff' :: cs => cs
    | cs => cs
  (Progress.lines? (cs.length + 1) {} cs).map Progress.fields

end ObserverLint.Toml
