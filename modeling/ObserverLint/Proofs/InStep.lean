import Mathlib.Data.List.Forall2

namespace ObserverLint.InStep

section Related

variable {α β γ : Type} {R : α → β → Prop} {xs : List α} {ys : List β}

theorem rel_find? {f : α → Bool} {g : β → Bool} (hfg : ∀ x y, R x y → f x = g y)
    (h : List.Forall₂ R xs ys) : Option.Rel R (xs.find? f) (ys.find? g) := by
  induction h with
  | nil => exact .none
  | @cons x y xs ys hxy _ ih =>
    rw [List.find?_cons, List.find?_cons, hfg x y hxy]
    cases g y with
    | true => exact .some hxy
    | false => exact ih

theorem rel_findSome? {δ : Type} {S : γ → δ → Prop} {f : α → Option γ} {g : β → Option δ}
    (hfg : ∀ x y, R x y → Option.Rel S (f x) (g y)) (h : List.Forall₂ R xs ys) :
    Option.Rel S (xs.findSome? f) (ys.findSome? g) := by
  induction h with
  | nil => exact .none
  | @cons x y xs ys hxy _ ih =>
    have hfirst := hfg x y hxy
    rw [List.findSome?_cons, List.findSome?_cons]
    generalize f x = a, g y = b at hfirst
    cases hfirst with
    | none => exact ih
    | some hab => exact .some hab

theorem rel_getElem? (h : List.Forall₂ R xs ys) (i : Nat) : Option.Rel R xs[i]? ys[i]? := by
  induction h generalizing i with
  | nil => exact .none
  | cons hxy _ ih =>
    cases i with
    | zero => exact .some hxy
    | succ i => exact ih i

theorem rel_filter {f : α → Bool} {g : β → Bool} (hfg : ∀ x y, R x y → f x = g y)
    (h : List.Forall₂ R xs ys) : List.Forall₂ R (xs.filter f) (ys.filter g) :=
  List.rel_filter (fun x y hxy => by simp only [hfg x y hxy]) h

theorem map_eq_map {f : α → γ} {g : β → γ} (hfg : ∀ x y, R x y → f x = g y)
    (h : List.Forall₂ R xs ys) : xs.map f = ys.map g := by
  induction h with
  | nil => rfl
  | cons hxy _ ih => rw [List.map_cons, List.map_cons, hfg _ _ hxy, ih]

theorem any_eq_any {f : α → Bool} {g : β → Bool} (hfg : ∀ x y, R x y → f x = g y)
    (h : List.Forall₂ R xs ys) : xs.any f = ys.any g := by
  induction h with
  | nil => rfl
  | cons hxy _ ih => rw [List.any_cons, List.any_cons, hfg _ _ hxy, ih]

theorem flatMap_eq_flatMap {f : α → List γ} {g : β → List γ} (hfg : ∀ x y, R x y → f x = g y)
    (h : List.Forall₂ R xs ys) : xs.flatMap f = ys.flatMap g := by
  rw [List.flatMap_def, List.flatMap_def, map_eq_map hfg h]

theorem option_map_eq {f : α → γ} {g : β → γ} {x : Option α} {y : Option β}
    (hfg : ∀ x y, R x y → f x = g y) (h : Option.Rel R x y) : x.map f = y.map g := by
  cases h with
  | none => rfl
  | some h => rw [Option.map_some, Option.map_some, hfg _ _ h]

theorem exists_eq_some {x : Option α} {y : Option β} {a : α} (h : Option.Rel R x y)
    (hx : x = some a) : ∃ b, y = some b ∧ R a b := by
  subst hx
  cases h with
  | some hab => exact ⟨_, rfl, hab⟩

theorem eq_none {x : Option α} {y : Option β} (h : Option.Rel R x y) (hx : x = none) :
    y = none := by
  subst hx
  cases h
  rfl

theorem with_mem (h : List.Forall₂ R xs ys) :
    List.Forall₂ (fun x y => x ∈ xs ∧ y ∈ ys ∧ R x y) xs ys := by
  induction h with
  | nil => exact .nil
  | cons hxy _ ih =>
    refine .cons ⟨List.mem_cons_self, List.mem_cons_self, hxy⟩ (ih.imp ?_)
    intro x y hmem
    exact ⟨List.mem_cons_of_mem _ hmem.1, List.mem_cons_of_mem _ hmem.2.1, hmem.2.2⟩

end Related

section Filtered

variable {α β : Type} {f g : α → Bool} {xs : List α}

theorem find?_filter_of_not_any (h : (xs.find? f).any g = false) :
    xs.find? f = (xs.filter fun x => !g x).find? f := by
  induction xs with
  | nil => rfl
  | cons x xs ih => cases hf : f x <;> cases hg : g x <;> simp_all

theorem filter_filter_of_not_any (h : (xs.filter f).any g = false) :
    xs.filter f = (xs.filter fun x => !g x).filter f := by
  induction xs with
  | nil => rfl
  | cons x xs ih => cases hf : f x <;> cases hg : g x <;> simp_all

theorem filter_filter_of_imp (hfg : ∀ x, f x = true → g x = true) (xs : List α) :
    xs.filter f = (xs.filter g).filter f := by
  rw [List.filter_filter]
  refine List.filter_congr ?_
  intro x _
  cases hf : f x with
  | true => rw [hfg x hf]; rfl
  | false => rfl

theorem getElem?_filter_of_not_any {k i : Nat} (h : (xs.take k).any g = false) (hi : i < k) :
    xs[i]? = (xs.filter fun x => !g x)[i]? := by
  induction xs generalizing k i with
  | nil => rfl
  | cons x xs ih =>
    obtain ⟨k, rfl⟩ := Nat.exists_eq_succ_of_ne_zero (Nat.ne_zero_of_lt hi)
    rw [List.take_succ_cons, List.any_cons, Bool.or_eq_false_iff] at h
    rw [List.filter_cons_of_pos (by simp [h.1])]
    cases i with
    | zero => rfl
    | succ i => exact ih h.2 (Nat.lt_of_succ_lt_succ hi)

theorem any_filter_of_imp (hfg : ∀ x, f x = true → g x = true) (xs : List α) :
    xs.any f = (xs.filter g).any f := by
  induction xs with
  | nil => rfl
  | cons x xs ih => cases hf : f x <;> cases hg : g x <;> simp_all

theorem foldl_filter_of_fixed {h : β → α → β} (hfixed : ∀ y x, g x = true → h y x = y) (y : β)
    (xs : List α) : xs.foldl h y = (xs.filter fun x => !g x).foldl h y := by
  induction xs generalizing y with
  | nil => rfl
  | cons x xs ih => cases hg : g x <;> simp_all

theorem filterMap_filter_of_none {h : α → Option β} (hnone : ∀ x, g x = true → h x = none)
    (xs : List α) : xs.filterMap h = (xs.filter fun x => !g x).filterMap h := by
  induction xs with
  | nil => rfl
  | cons x xs ih => cases hg : g x <;> simp_all [List.filterMap_cons]

theorem flatMap_filter (h : α → List β) (keep : α → Bool) (xs : List α) :
    (xs.filter keep).flatMap h = xs.flatMap fun x => if keep x then h x else [] := by
  induction xs with
  | nil => rfl
  | cons x xs ih => cases hx : keep x <;> simp [hx, ih]

theorem flatMap_filter_of_nil {h : α → List β} (hnil : ∀ x, g x = true → h x = [])
    (f : α → Bool) (xs : List α) :
    (xs.filter f).flatMap h = ((xs.filter fun x => !g x).filter f).flatMap h := by
  induction xs with
  | nil => rfl
  | cons x xs ih => cases hf : f x <;> cases hg : g x <;> simp_all

end Filtered

end ObserverLint.InStep
