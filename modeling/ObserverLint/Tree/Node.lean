import ObserverLint.Text.Bytes
import ObserverLint.Tree.Kind

namespace ObserverLint

structure Label where
  kind : Kind
  /-- The field of the parent that this node stands in. -/
  field : Option Field := none
  /-- Named nodes are those a grammar rule names; punctuation and keywords are not. -/
  named : Bool := true
  start : Nat := 0
  stop : Nat := 0
deriving DecidableEq, Repr, Inhabited

inductive Node where
  | mk (label : Label) (children : List Node)
deriving Repr, Inhabited

namespace Node

def label : Node → Label
  | mk label _ => label

def children : Node → List Node
  | mk _ children => children

@[simp] theorem label_mk (label : Label) (children : List Node) :
    (mk label children).label = label := rfl

@[simp] theorem children_mk (label : Label) (children : List Node) :
    (mk label children).children = children := rfl

def kind (n : Node) : Kind := n.label.kind

def named (n : Node) : Bool := n.label.named

def field (n : Node) : Option Field := n.label.field

def text (source : String) (n : Node) : String := Text.slice source n.label.start n.label.stop

def namedChildren (n : Node) : List Node := n.children.filter named

def child? (n : Node) (f : Field) : Option Node := n.children.find? fun c => c.field == some f

mutual

def size : Node → Nat
  | mk _ children => 1 + sizes children

def sizes : List Node → Nat
  | [] => 0
  | n :: ns => size n + sizes ns

end

end Node

/-- Child indices from a node up to the root, the innermost first. -/
abbrev Address := List Nat

/-- A node together with its way up to the root, so that parents and siblings are found from the
place alone. -/
structure Place where
  address : Address
  node : Node
  /-- The ancestors of the node, its parent first. -/
  above : List Node
deriving Inhabited

namespace Place

def root (n : Node) : Place := ⟨[], n, []⟩

def kind (p : Place) : Kind := p.node.kind

def text (source : String) (p : Place) : String := p.node.text source

def start (p : Place) : Nat := p.node.label.start

def stop (p : Place) : Nat := p.node.label.stop

/-- The places of the nodes above, given the address of the node below them. -/
def lineage : Address → List Node → List Place
  | _ :: address, n :: above => ⟨address, n, above⟩ :: lineage address above
  | _, _ => []

def ancestors (p : Place) : List Place := lineage p.address p.above

def selfAndAncestors (p : Place) : List Place := p :: p.ancestors

def parent? (p : Place) : Option Place := p.ancestors.head?

/-- Places of these nodes as children number `i`, `i + 1`, … of a node. -/
def siblings (address : Address) (above : List Node) : Nat → List Node → List Place
  | _, [] => []
  | i, n :: ns => ⟨i :: address, n, above⟩ :: siblings address above (i + 1) ns

def children (p : Place) : List Place := siblings p.address (p.node :: p.above) 0 p.node.children

def namedChildren (p : Place) : List Place := p.children.filter fun c => c.node.named

def child? (p : Place) (f : Field) : Option Place :=
  p.children.find? fun c => c.node.field == some f

mutual

def preorderAt (address : Address) (above : List Node) : Node → List Place
  | .mk label children =>
    ⟨address, .mk label children, above⟩ ::
      preorderFrom address (.mk label children :: above) 0 children

/-- The places in and below these trees, which are children number `i`, `i + 1`, … of a node. -/
def preorderFrom (address : Address) (above : List Node) (i : Nat) : List Node → List Place
  | [] => []
  | n :: ns => preorderAt (i :: address) above n ++ preorderFrom address above (i + 1) ns

end

def preorder (p : Place) : List Place := preorderAt p.address p.above p.node

end Place

end ObserverLint
