import ObserverLint.Proofs.Places
import ObserverLint.SourceFile

namespace ObserverLint

namespace Cursor

/-- What the walk visits after the tree at a place `d` levels below its start: the trees of the
later siblings, and then what comes after the tree of the parent. -/
def after : Nat → Place → List Place
  | d + 1, ⟨i :: address, _, parent :: above⟩ =>
    Place.preorderFrom address (parent :: above) (i + 1) (parent.children.drop (i + 1)) ++
      after d ⟨address, parent, above⟩
  | _, _ => []

def upcoming (c : Cursor) : List Place := c.place.preorder ++ after c.depth c.place

def upcomingFrom (c? : Option Cursor) : List Place := (c?.map upcoming).getD []

theorem after_eq_climb (d : Nat) (p : Place) : after d p = upcomingFrom (climb d p) := by
  induction d generalizing p with
  | zero => simp [after, climb, upcomingFrom]
  | succ d ih =>
    match p with
    | ⟨[], _, _⟩ => simp [after, climb, nextSibling?, parent?, upcomingFrom]
    | ⟨_ :: _, _, []⟩ => simp [after, climb, nextSibling?, parent?, upcomingFrom]
    | ⟨i :: address, n, parent :: above⟩ =>
      -- Without a later sibling the climb goes on from the parent, and so does the list.
      cases h : parent.children[i + 1]? with
      | none =>
        have hdrop : parent.children.drop (i + 1) = [] :=
          List.drop_eq_nil_of_le (List.getElem?_eq_none_iff.mp h)
        simp only [after, hdrop, Place.preorderFrom, List.nil_append, climb, nextSibling?, h,
          Option.map_none, parent?]
        exact ih _
      | some m =>
        have hdrop : parent.children.drop (i + 1) = m :: parent.children.drop (i + 2) := by
          obtain ⟨hlt, rfl⟩ := List.getElem?_eq_some_iff.mp h
          exact List.drop_eq_getElem_cons hlt
        simp only [after, hdrop, Place.preorderFrom, climb, nextSibling?, h, Option.map_some,
          upcomingFrom, upcoming, Option.getD_some, List.append_assoc]
        rfl

/-- A move of the cursor leaves all but the place it stood at. -/
theorem upcoming_eq_cons (c : Cursor) : upcoming c = c.place :: upcomingFrom c.next? := by
  rcases c with ⟨⟨address, ⟨label, ns⟩, above⟩, d⟩
  cases ns with
  | nil =>
    have hnext : next? ⟨⟨address, .mk label [], above⟩, d⟩ =
        climb d ⟨address, .mk label [], above⟩ := rfl
    rw [hnext, ← after_eq_climb]
    rfl
  | cons n ns =>
    have hnext : next? ⟨⟨address, .mk label (n :: ns), above⟩, d⟩ =
        some ⟨⟨0 :: address, n, .mk label (n :: ns) :: above⟩, d + 1⟩ := rfl
    rw [hnext]
    simp only [upcomingFrom, upcoming, Option.map_some, Option.getD_some, Place.preorder,
      Place.preorderAt, Place.preorderFrom, after, Node.children_mk, List.drop_succ_cons,
      List.drop_zero, List.cons_append, List.append_assoc]

theorem visits_eq_take (n : Nat) (c : Cursor) : visits n c = (upcoming c).take n := by
  induction n generalizing c with
  | zero => rfl
  | succ n ih =>
    rw [upcoming_eq_cons, List.take_succ_cons, visits]
    congr 1
    cases c.next? with
    | none => exact List.take_nil.symm
    | some following => exact ih following

end Cursor

namespace Place

theorem length_preorderFrom {address : Address} {above : List Node} {i : Nat} {ns : List Node}
    (h : ∀ c ∈ siblings address above i ns, c.preorder.length = c.node.size) :
    (preorderFrom address above i ns).length = Node.sizes ns := by
  induction ns generalizing i with
  | nil => rfl
  | cons n ns ih =>
    rw [siblings, List.forall_mem_cons] at h
    have hfirst : (preorderAt (i :: address) above n).length = n.size := h.1
    rw [preorderFrom, List.length_append, hfirst, ih h.2, Node.sizes]

theorem length_preorder (p : Place) : p.preorder.length = p.node.size := by
  induction p using induction_children with
  | step p ih =>
    rcases p with ⟨address, ⟨label, ns⟩, above⟩
    have hbelow : (preorderFrom address (.mk label ns :: above) 0 ns).length = Node.sizes ns :=
      length_preorderFrom ih
    rw [preorder, preorderAt, List.length_cons, hbelow, Node.size]
    exact Nat.add_comm _ _

/-- As many visits as there are nodes see the whole tree, and further ones nothing else. -/
theorem visits_eq_preorder {p : Place} {n : Nat} (h : p.node.size ≤ n) :
    Cursor.visits n ⟨p, 0⟩ = p.preorder := by
  have hupcoming : Cursor.upcoming ⟨p, 0⟩ = p.preorder := by
    simp [Cursor.upcoming, Cursor.after]
  rw [Cursor.visits_eq_take, hupcoming, List.take_of_length_le (length_preorder p ▸ h)]

/-- The walk comes to every place once, each before its own children. -/
theorem walk_eq_preorder (p : Place) : p.walk = p.preorder := visits_eq_preorder le_rfl

end Place

namespace SourceFile

theorem places_eq_preorder (file : SourceFile) : file.places = file.root.preorder :=
  Place.walk_eq_preorder file.root

theorem mem_places {file : SourceFile} {p : Place} :
    p ∈ file.places ↔ Place.Within file.root p := by
  rw [places_eq_preorder, Place.mem_preorder]

def placeAt (file : SourceFile) (i : Nat) : Place := file.places.getD i file.root

theorem placeAt_mem {file : SourceFile} {i : Nat} (h : i < file.places.length) :
    file.placeAt i ∈ file.root.preorder := by
  rw [placeAt, List.getD_eq_getElem?_getD, List.getElem?_eq_getElem h, Option.getD_some,
    ← places_eq_preorder]
  exact List.getElem_mem h

theorem places_split_placeAt {file : SourceFile} {i : Nat} (h : i < file.places.length) :
    file.places = file.places.take i ++ file.placeAt i :: file.places.drop (i + 1) := by
  rw [placeAt, List.getD_eq_getElem?_getD, List.getElem?_eq_getElem h, Option.getD_some,
    ← List.drop_eq_getElem_cons h, List.take_append_drop]

end SourceFile

end ObserverLint
