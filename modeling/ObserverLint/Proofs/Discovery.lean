import Mathlib.Data.List.Nodup
import ObserverLint.Analyzer
import ObserverLint.Proofs.Descent

namespace ObserverLint

open Traversal

mutual

/-- Every directory from the entry on has its entries under names, and no name twice. -/
def Entry.Proper : Entry → Prop
  | .file _ => True
  | .directory entries => Entry.ProperAll entries

def Entry.ProperAll : List (String × Entry) → Prop
  | [] => True
  | (name, e) :: entries =>
    Path.IsName name ∧ (∀ other ∈ entries, other.1 ≠ name) ∧ e.Proper ∧ Entry.ProperAll entries

end

theorem Entry.ProperAll.of_mem {entries : List (String × Entry)} (h : Entry.ProperAll entries)
    {named : String × Entry} (hmem : named ∈ entries) : named.2.Proper := by
  induction entries with
  | nil => cases hmem
  | cons first entries ih =>
    obtain ⟨name, e⟩ := first
    obtain ⟨-, -, he, hentries⟩ := h
    rcases List.mem_cons.mp hmem with rfl | hrest
    · exact he
    · exact ih hentries hrest

theorem Entry.Proper.child {e child : Entry} (h : e.Proper) {name : String}
    (hchild : e.child? name = some child) : child.Proper := by
  cases e with
  | file _ => cases hchild
  | directory entries =>
    obtain ⟨named, hfound, rfl⟩ := Option.map_eq_some_iff.mp hchild
    exact Entry.ProperAll.of_mem h (List.mem_of_find?_eq_some hfound)

structure Spot.Proper (s : Spot) : Prop where
  entry : s.entry.Proper
  above : ∀ e ∈ s.above, e.Proper

theorem Spot.Proper.up {s : Spot} (h : s.Proper) : s.up.Proper := by
  unfold Spot.up
  split
  · rename_i habove
    have hall := h.above
    rw [habove] at hall
    exact ⟨hall _ List.mem_cons_self, fun e he => hall e (List.mem_cons_of_mem _ he)⟩
  · exact h

theorem Spot.Proper.step {s t : Spot} (h : s.Proper) {segment : List Char}
    (hstep : s.step segment = .ok t) : t.Proper := by
  rcases Spot.step_cases hstep with ⟨-, rfl⟩ | ⟨name, e, -, -, hchild, rfl⟩ | ⟨-, rfl⟩
  · exact h.up
  · exact ⟨h.entry.child hchild, List.forall_mem_cons.mpr ⟨h.entry, h.above⟩⟩
  · exact h

theorem Disk.find_proper {disk : Disk} (h : disk.top.Proper) {p : Path} {spot : Spot}
    (hfind : disk.find p = .ok spot) : spot.Proper :=
  Spot.kept_of_steps (fun _ _ _ _ hs => hs.step) (Disk.steps_of_find hfind)
    ⟨h, List.forall_mem_nil _⟩

namespace Walk

mutual

theorem visit_below (s : Setting) (around : Surroundings) (path : Path) :
    ∀ e : Entry, e.Proper → ∀ p ∈ visit s around path e, path.components <+: p.components
  | .file _, _, p, hp => by
    rw [visit, List.mem_singleton] at hp
    rw [hp]
  | .directory entries, he, p, hp => by
    rw [visit] at hp
    rcases List.mem_cons.mp hp with rfl | hrest
    · exact List.prefix_refl _
    · obtain ⟨name, -, hbelow⟩ := visitAll_below s _ path entries he p hrest
      exact (List.prefix_append _ _).trans hbelow

/-- What is found in a directory lies below one of its names. -/
theorem visitAll_below (s : Setting) (around : Surroundings) (path : Path) :
    ∀ entries : List (String × Entry), Entry.ProperAll entries →
      ∀ p ∈ visitAll s around path entries,
        ∃ named ∈ entries, path.components ++ [.name named.1] <+: p.components
  | [], _, p, hp => by cases hp
  | (name, e) :: entries, h, p, hp => by
    obtain ⟨hname, -, he, hentries⟩ := h
    rw [visitAll] at hp
    rcases List.mem_append.mp hp with hhere | hrest
    · split at hhere
      · cases hhere
      · refine ⟨(name, e), List.mem_cons_self, ?_⟩
        rw [← Path.components_join_name hname]
        exact visit_below s _ _ e he p hhere
    · obtain ⟨named, hmem, hbelow⟩ := visitAll_below s around path entries hentries p hrest
      exact ⟨named, List.mem_cons_of_mem _ hmem, hbelow⟩

end

theorem eq_of_names_isPrefix {base cs : List Path.Component} {m n : String}
    (hm : base ++ [.name m] <+: cs) (hn : base ++ [.name n] <+: cs) : m = n := by
  have hle : base ++ [.name m] <+: base ++ [.name n] :=
    List.prefix_of_prefix_length_le hm hn (by simp)
  have heq := (List.prefix_append_right_inj base).mp hle
  simpa using heq

mutual

theorem visit_nodup (s : Setting) (around : Surroundings) (path : Path) :
    ∀ e : Entry, e.Proper → ((visit s around path e).map Path.components).Nodup
  | .file _, _ => List.nodup_singleton _
  | .directory entries, he => by
    rw [visit, List.map_cons, List.nodup_cons]
    refine ⟨?_, visitAll_nodup s _ path entries he⟩
    intro hmem
    obtain ⟨p, hp, hsame⟩ := List.mem_map.mp hmem
    obtain ⟨named, -, hbelow⟩ := visitAll_below s _ path entries he p hp
    -- What is found inside the directory has at least one component more.
    have hlength := hbelow.length_le
    rw [hsame, List.length_append, List.length_singleton] at hlength
    omega

theorem visitAll_nodup (s : Setting) (around : Surroundings) (path : Path) :
    ∀ entries : List (String × Entry), Entry.ProperAll entries →
      ((visitAll s around path entries).map Path.components).Nodup
  | [], _ => List.nodup_nil
  | (name, e) :: entries, h => by
    obtain ⟨hname, hothers, he, hentries⟩ := h
    rw [visitAll, List.map_append]
    refine List.Nodup.append ?_ (visitAll_nodup s around path entries hentries) ?_
    · split
      · exact List.nodup_nil
      · exact visit_nodup s _ _ e he
    · intro cs hhere hrest
      obtain ⟨p, hp, rfl⟩ := List.mem_map.mp hhere
      obtain ⟨q, hq, hsame⟩ := List.mem_map.mp hrest
      obtain ⟨named, hmem, hbelow⟩ := visitAll_below s around path entries hentries q hq
      split at hp
      · cases hp
      · have hfirst := visit_below s _ _ e he p hp
        rw [Path.components_join_name hname] at hfirst
        rw [hsame] at hbelow
        exact hothers named hmem (eq_of_names_isPrefix hbelow hfirst)

end

end Walk

namespace Analyzer

/-- A list that a walk from the root of the analyzer can yield: nothing outside the root, and no
path twice. -/
structure Walked (a : Analyzer) (found : List Path) : Prop where
  fromRoot : ∀ p ∈ found, a.root.components <+: p.components
  once : (found.map Path.components).Nodup

theorem Walked.perm {a : Analyzer} {found other : List Path} (h : a.Walked found)
    (hperm : other.Perm found) : a.Walked other where
  fromRoot p hp := h.fromRoot p (hperm.subset hp)
  once := (hperm.map Path.components).nodup_iff.mpr h.once

theorem walked_of_discover {a : Analyzer} {disk : Disk} (hdisk : disk.top.Proper)
    {found : List Path} (h : a.discover disk = .ok found) : a.Walked found := by
  have hentries := mapError_eq_ok_iff.mp h
  unfold Walk.entries at hentries
  split at hentries
  · cases hentries
  · rename_i spot hspot
    split at hentries
    · obtain rfl := Except.ok.inj hentries
      exact ⟨by simp, List.nodup_singleton _⟩
    · dsimp only at hentries
      split at hentries
      · obtain rfl := Except.ok.inj hentries
        have hproper := (Disk.find_proper hdisk hspot).entry
        exact ⟨Walk.visit_below _ _ _ _ hproper, Walk.visit_nodup _ _ _ _ hproper⟩
      · cases hentries

theorem discover_of_isFile {a : Analyzer} {disk : Disk} {spot : Spot}
    (hspot : disk.find a.root = .ok spot) (hfile : spot.entry.isFile = true) :
    a.discover disk = .ok [a.root] := by
  simp only [discover, Walk.entries, hspot, hfile, if_true]
  rfl

theorem baseDir_isPrefix (a : Analyzer) (disk : Disk) :
    (a.baseDir disk).components <+: a.root.components := by
  unfold baseDir
  split
  · cases hparent : a.root.parent? with
    | none => exact List.prefix_refl _
    | some parent => exact Path.components_parent?_isPrefix hparent
  · exact List.prefix_refl _

end Analyzer

end ObserverLint
