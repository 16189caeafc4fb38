namespace ObserverLint

/-- A path keeps its text. What it means is its list of components, in which repeated slashes, a
final slash and inner dots leave no trace. -/
structure Path where
  text : String
deriving DecidableEq, Repr, Inhabited

namespace Path

inductive Component where
  | root
  | here
  | up
  | name (text : String)
deriving DecidableEq, Repr

namespace Component

def rank : Component → Nat
  | root => 0
  | here => 1
  | up => 2
  | name _ => 3

/-- Root before `.` before `..` before names, and names by their characters. -/
def order : Component → Component → Ordering
  | name a, name b => compare a b
  | a, b => compare a.rank b.rank

end Component

/-- The text between slashes, including what stands before the first and after the last. -/
def segments : List Char → List (List Char)
  | [] => [[]]
  | c :: cs =>
    if c = '/' then [] :: segments cs
    else
      match segments cs with
      | s :: ss => (c :: s) :: ss
      | [] => [[c]]

/-- What a path starts with, before its first segment. -/
inductive Lead where
  | none
  | root
  | here
deriving DecidableEq, Repr

structure Parts where
  lead : Lead
  body : List (List Char)
deriving Repr

def parts (p : Path) : Parts :=
  match segments p.text.toList with
  | [] :: s :: ss => ⟨.root, s :: ss⟩
  | ['.'] :: ss => ⟨.here, ss⟩
  | ss => ⟨.none, ss⟩

/-- The component a segment stands for; empty segments and dots stand for none. -/
def component? : List Char → Option Component
  | [] => Option.none
  | ['.'] => Option.none
  | ['.', '.'] => some .up
  | cs => some (.name (String.ofList cs))

def Lead.components : Lead → List Component
  | .none => []
  | .root => [.root]
  | .here => [.here]

def components (p : Path) : List Component :=
  p.parts.lead.components ++ p.parts.body.filterMap component?

def orderComponents : List Component → List Component → Ordering
  | [], [] => .eq
  | [], _ :: _ => .lt
  | _ :: _, [] => .gt
  | a :: as, b :: bs => (a.order b).then (orderComponents as bs)

def order (p q : Path) : Ordering := orderComponents p.components q.components

def joinSegments : List (List Char) → List Char
  | [] => []
  | [s] => s
  | s :: t :: ss => s ++ '/' :: joinSegments (t :: ss)

def ofParts (parts : Parts) : Path :=
  match parts.lead, parts.body with
  | .none, body => ⟨String.ofList (joinSegments body)⟩
  | .root, body => ⟨String.ofList ('/' :: joinSegments body)⟩
  | .here, [] => ⟨"."⟩
  | .here, body => ⟨String.ofList ('.' :: '/' :: joinSegments body)⟩

def standsForNothing (segment : List Char) : Bool := (component? segment).isNone

/-- Segments without those at the end that stand for nothing. -/
def trimEnd (body : List (List Char)) : List (List Char) :=
  (body.reverse.dropWhile standsForNothing).reverse

def isAbsolute (p : Path) : Bool := p.parts.lead == .root

def dropComponents? : List Component → List (List Char) → Option (List (List Char))
  | [], ss => some ss
  | _ :: _, [] => Option.none
  | c :: cs, s :: ss =>
    match component? s with
    | Option.none => dropComponents? (c :: cs) ss
    | some d => if c = d then dropComponents? cs ss else Option.none

/-- The rest of `p` below `base`, if the components of `base` begin those of `p`. The rest keeps
the spelling it has in `p`. -/
def relativeTo? (p base : Path) : Option Path :=
  match base.components, p.parts.lead.components with
  | [], _ => some (ofParts ⟨p.parts.lead, trimEnd p.parts.body⟩)
  | c :: cs, [] => below (dropComponents? (c :: cs) p.parts.body)
  | c :: cs, d :: _ => if c = d then below (dropComponents? cs p.parts.body) else Option.none
where
  below (rest : Option (List (List Char))) : Option Path :=
    rest.map fun body => ofParts ⟨.none, trimEnd (body.dropWhile standsForNothing)⟩

/-- The rest of `p` below `base`, or all of `p` if it does not lie there. -/
def relativeTo (p base : Path) : Path := (p.relativeTo? base).getD p

/-- `q` as seen from the directory `p`; an absolute `q` stays as it is. -/
def join (p q : Path) : Path :=
  if q.isAbsolute then q
  else if p.text.isEmpty || p.text.endsWith "/" then ⟨p.text ++ q.text⟩
  else ⟨p.text ++ "/" ++ q.text⟩

def parent? (p : Path) : Option Path :=
  match p.parts.lead, (trimEnd p.parts.body).reverse with
  | .here, [] => some ⟨""⟩
  | _, [] => Option.none
  | lead, _ :: front => some (ofParts ⟨lead, trimEnd front.reverse⟩)

def fileName? (p : Path) : Option String :=
  match p.components.getLast? with
  | some (.name text) => some text
  | _ => Option.none

/-- What follows the last dot of the file name; a dot that begins the name does not count. -/
def extension? (p : Path) : Option String := do
  let name ← p.fileName?
  let reversed := name.toList.reverse
  match reversed.dropWhile (· ≠ '.') with
  | '.' :: _ :: _ => some (String.ofList (reversed.takeWhile (· ≠ '.')).reverse)
  | _ => Option.none

end Path

end ObserverLint
