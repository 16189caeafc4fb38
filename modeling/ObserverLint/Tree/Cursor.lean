import ObserverLint.Tree.Node

namespace ObserverLint

/-- A cursor never leaves the tree it was created on. -/
structure Cursor where
  place : Place
  /-- How many levels below its starting place the cursor stands. -/
  depth : Nat := 0

namespace Cursor

def firstChild? (c : Cursor) : Option Cursor :=
  c.place.children.head?.map fun p => ⟨p, c.depth + 1⟩

def nextSibling? (c : Cursor) : Option Cursor :=
  match c.depth, c.place with
  | d + 1, ⟨i :: address, _, parent :: above⟩ =>
    parent.children[i + 1]?.map fun n => ⟨⟨(i + 1) :: address, n, parent :: above⟩, d + 1⟩
  | _, _ => none

def parent? (c : Cursor) : Option Cursor :=
  match c.depth, c.place with
  | d + 1, ⟨_ :: address, _, parent :: above⟩ => some ⟨⟨address, parent, above⟩, d⟩
  | _, _ => none

/-- Climbs from a place `depth` levels down until a next sibling is found. -/
def climb : Nat → Place → Option Cursor
  | 0, _ => none
  | d + 1, p =>
    match nextSibling? ⟨p, d + 1⟩ with
    | some c => some c
    | none =>
      match parent? ⟨p, d + 1⟩ with
      | some c => climb d c.place
      | none => none

def next? (c : Cursor) : Option Cursor :=
  match c.firstChild? with
  | some child => some child
  | none => climb c.depth c.place

def visits : Nat → Cursor → List Place
  | 0, _ => []
  | n + 1, c =>
    c.place ::
      match c.next? with
      | some following => visits n following
      | none => []

end Cursor

/-- The places of the tree at `p` in the order a cursor comes to them. A tree holds as many places
as nodes, so that many visits see all of them. -/
def Place.walk (p : Place) : List Place := Cursor.visits p.node.size ⟨p, 0⟩

end ObserverLint
