import ObserverLint.Tree.Node

namespace ObserverLint

structure ListedNode where
  depth : Nat
  label : Label
deriving DecidableEq, Repr, Inhabited

namespace ListedNode

/-- Puts a node before trees that follow it; those that lie deeper become its children. -/
def adopt (line : ListedNode) (following : List (Nat × Node)) : List (Nat × Node) :=
  let below := following.takeWhile fun t => line.depth < t.1
  let rest := following.dropWhile fun t => line.depth < t.1
  (line.depth, .mk line.label (below.map Prod.snd)) :: rest

end ListedNode

def Node.ofListing? (lines : List ListedNode) : Option Node :=
  match lines.foldr ListedNode.adopt [] with
  | [(_, root)] => some root
  | _ => none

end ObserverLint
