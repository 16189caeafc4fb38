import ObserverLint.Proofs.CursorWalk

namespace ObserverLint

namespace Place

def NextSibling (r c d : Place) : Prop := ∃ p, Within r p ∧ [c, d] <:+: p.children

def ParentIn (r c p : Place) : Prop := Within r p ∧ c ∈ p.children

theorem eq_of_mem_children {p q c : Place} (hp : c ∈ p.children) (hq : c ∈ q.children) : p = q :=
  Option.some.inj ((parent?_child hp).symm.trans (parent?_child hq))

theorem length_address_child {p c : Place} (h : c ∈ p.children) :
    c.address.length = p.address.length + 1 := by
  obtain ⟨k, n, -, rfl⟩ := mem_children.mp h
  rfl

/-- Within a tree its root has no parent. -/
theorem not_mem_children_of_within {r p : Place} (h : Within r p) : r ∉ p.children := by
  intro hr
  have hle := (address_suffix_of_within h).length_le
  have hlength := length_address_child hr
  omega

theorem children_nodup (p : Place) : p.children.Nodup := by
  refine (siblings_pairwise p.address (p.node :: p.above) 0 p.node.children).imp ?_
  rintro a _ hne rfl
  exact hne rfl

theorem not_parentIn_self (r p : Place) : ¬ ParentIn r r p := fun h =>
  not_mem_children_of_within h.1 h.2

theorem not_nextSibling_self (r d : Place) : ¬ NextSibling r r d := by
  rintro ⟨p, hp, hneighbours⟩
  exact not_mem_children_of_within hp (hneighbours.subset List.mem_cons_self)

theorem nextSibling_iff {r p c d : Place} {before after : List Place} (hp : Within r p)
    (h : before ++ c :: after = p.children) : NextSibling r c d ↔ after.head? = some d := by
  constructor
  · rintro ⟨q, -, earlier, later, hq⟩
    simp only [List.append_assoc, List.cons_append, List.nil_append] at hq
    have hc : c ∈ p.children := h ▸ List.mem_append_right _ List.mem_cons_self
    have hcq : c ∈ q.children := hq ▸ List.mem_append_right _ List.mem_cons_self
    obtain rfl := eq_of_mem_children hc hcq
    -- A child stands only once among the children, so the two splits are the same.
    have hnodup : (before ++ c :: after).Nodup := h ▸ children_nodup p
    have hfresh := (List.nodup_cons.mp (List.nodup_middle.mp hnodup)).1
    obtain ⟨hbefore, hafter⟩ := not_or.mp (List.mem_append.not.mp hfresh)
    obtain ⟨-, -, rfl⟩ :=
      (List.append_cons_inj_of_notMem hbefore hafter).mp (h.trans hq.symm)
    rfl
  · intro hd
    obtain ⟨rest, rfl⟩ : ∃ rest, after = d :: rest := List.head?_eq_some_iff.mp hd
    exact ⟨p, hp, before, rest, by rw [← h]; simp⟩

end Place

open Place

/-- The moves of a kind of cursor. A move gives no cursor where there is no node to move to. -/
structure Moves (γ : Type) where
  place : γ → Place
  firstChild? : γ → Option γ
  nextSibling? : γ → Option γ
  parent? : γ → Option γ

namespace Moves

variable {γ : Type} {m : Moves γ} {start : γ} {r : Place}

inductive Reached (m : Moves γ) (start : γ) : γ → Prop
  | start : Reached m start start
  | child {c c' : γ} : Reached m start c → m.firstChild? c = some c' → Reached m start c'
  | sibling {c c' : γ} : Reached m start c → m.nextSibling? c = some c' → Reached m start c'
  | parent {c c' : γ} : Reached m start c → m.parent? c = some c' → Reached m start c'

/-- The moves of a cursor that was created on `r`. Each leads to the place it is named after, within
the tree at `r`, and is refused if there is none. -/
structure StaysIn (m : Moves γ) (start : γ) (r : Place) : Prop where
  place_start : m.place start = r
  firstChild : ∀ {c}, m.Reached start c → ∀ d,
    (m.firstChild? c).map m.place = some d ↔ (m.place c).children.head? = some d
  nextSibling : ∀ {c}, m.Reached start c → ∀ d,
    (m.nextSibling? c).map m.place = some d ↔ NextSibling r (m.place c) d
  parent : ∀ {c}, m.Reached start c → ∀ p,
    (m.parent? c).map m.place = some p ↔ ParentIn r (m.place c) p

/-- What the loops do next with a cursor: visit the node it stands at, or leave the tree there, all
of which has been visited. -/
inductive Turn (γ : Type) where
  | visit (c : γ)
  | leave (c : γ)

def step (m : Moves γ) : Turn γ → Option (Turn γ)
  | .visit c =>
    match m.firstChild? c with
    | some child => some (.visit child)
    | none => some (.leave c)
  | .leave c =>
    match m.nextSibling? c with
    | some sibling => some (.visit sibling)
    | none => (m.parent? c).map .leave

def seen (m : Moves γ) : Turn γ → List Place
  | .visit c => [m.place c]
  | .leave _ => []

/-- The places visited from this turn until the loops end, if that takes at most `n` turns. -/
def run (m : Moves γ) : Nat → Turn γ → Option (List Place)
  | 0, _ => none
  | n + 1, t =>
    match m.step t with
    | some next => (m.run n next).map (m.seen t ++ ·)
    | none => some (m.seen t)

/-- The loops come from one turn to another in `n` turns, in which they visit the places. -/
inductive Leads (m : Moves γ) : Turn γ → Nat → List Place → Turn γ → Prop
  | refl (t : Turn γ) : Leads m t 0 [] t
  | head {t next u : Turn γ} {n : Nat} {places : List Place} :
      m.step t = some next → Leads m next n places u → Leads m t (n + 1) (m.seen t ++ places) u

theorem Leads.single {t u : Turn γ} (h : m.step t = some u) : m.Leads t 1 (m.seen t) u := by
  have hlead := Leads.head h (.refl u)
  rwa [List.append_nil] at hlead

theorem Leads.trans {t u v : Turn γ} {n k : Nat} {places more : List Place}
    (h : m.Leads t n places u) (h' : m.Leads u k more v) :
    m.Leads t (n + k) (places ++ more) v := by
  induction h with
  | refl => rwa [Nat.zero_add, List.nil_append]
  | head hstep _ ih =>
    rw [Nat.add_right_comm, List.append_assoc]
    exact .head hstep (ih h')

theorem Leads.leave {t u : Turn γ} {n : Nat} {places : List Place} {c : γ}
    (h : m.Leads t n places (.leave c)) (hstep : m.step (.leave c) = some u) :
    m.Leads t (n + 1) places u := by
  have hlead := h.trans (.single hstep)
  rwa [seen, List.append_nil] at hlead

theorem run_of_leads {t u : Turn γ} {n : Nat} {places : List Place} (h : m.Leads t n places u)
    (k : Nat) : m.run (n + k) t = (m.run k u).map (places ++ ·) := by
  induction h with
  | refl => rw [Nat.zero_add]; exact Option.map_id'.symm
  | head hstep _ ih =>
    rw [Nat.add_right_comm, run, hstep]
    simp only [ih, Option.map_map, Function.comp_def, List.append_assoc]

theorem run_add {n : Nat} {t : Turn γ} {places : List Place} (h : m.run n t = some places)
    (k : Nat) : m.run (n + k) t = some places := by
  induction n generalizing t places with
  | zero => cases h
  | succ n ih =>
    rw [Nat.add_right_comm, run]
    rw [run] at h
    cases hstep : m.step t with
    | none => rwa [hstep] at h
    | some next =>
      rw [hstep] at h
      obtain ⟨rest, hrest, rfl⟩ := Option.map_eq_some_iff.mp h
      simp only [ih hrest, Option.map_some]

/-- A move is refused if no place is the one to move to. -/
theorem eq_none_of_forall_not {move : Option γ} {target : Place → Prop}
    (h : ∀ d, move.map m.place = some d ↔ target d) (hnot : ∀ d, ¬ target d) : move = none := by
  cases move with
  | none => rfl
  | some c => exact absurd ((h (m.place c)).mp rfl) (hnot _)

namespace StaysIn

theorem within_of_reached (h : m.StaysIn start r) {c : γ} (hc : m.Reached start c) :
    Within r (m.place c) := by
  induction hc with
  | start => exact h.place_start ▸ .refl
  | @child c c' hc hmove ih =>
    have hhead := (h.firstChild hc (m.place c')).mp (by rw [hmove, Option.map_some])
    exact ih.child (List.mem_of_head? hhead)
  | @sibling c c' hc hmove _ =>
    obtain ⟨p, hp, hneighbours⟩ :=
      (h.nextSibling hc (m.place c')).mp (by rw [hmove, Option.map_some])
    exact hp.child (hneighbours.subset (by simp))
  | @parent c c' hc hmove _ =>
    exact ((h.parent hc (m.place c')).mp (by rw [hmove, Option.map_some])).1

theorem exists_firstChild (h : m.StaysIn start r) {c : γ} (hc : m.Reached start c) {d : Place}
    {after : List Place} (hchildren : (m.place c).children = d :: after) :
    ∃ c', m.Reached start c' ∧ m.place c' = d ∧ m.step (.visit c) = some (.visit c') := by
  obtain ⟨c', hmove, rfl⟩ := Option.map_eq_some_iff.mp
    ((h.firstChild hc d).mpr (by rw [hchildren, List.head?_cons]))
  exact ⟨c', hc.child hmove, rfl, by rw [step, hmove]⟩

theorem step_visit_leaf (h : m.StaysIn start r) {c : γ} (hc : m.Reached start c)
    (hchildren : (m.place c).children = []) : m.step (.visit c) = some (.leave c) := by
  have hnone : m.firstChild? c = none :=
    eq_none_of_forall_not (h.firstChild hc) (by rw [hchildren]; rintro d ⟨⟩)
  rw [step, hnone]

theorem exists_nextSibling (h : m.StaysIn start r) {c : γ} (hc : m.Reached start c) {d : Place}
    (hnext : NextSibling r (m.place c) d) :
    ∃ c', m.Reached start c' ∧ m.place c' = d ∧ m.step (.leave c) = some (.visit c') := by
  obtain ⟨c', hmove, rfl⟩ := Option.map_eq_some_iff.mp ((h.nextSibling hc d).mpr hnext)
  exact ⟨c', hc.sibling hmove, rfl, by rw [step, hmove]⟩

theorem exists_parent (h : m.StaysIn start r) {c : γ} (hc : m.Reached start c) {p : Place}
    (hlast : ∀ d, ¬ NextSibling r (m.place c) d) (hp : ParentIn r (m.place c) p) :
    ∃ c', m.Reached start c' ∧ m.place c' = p ∧ m.step (.leave c) = some (.leave c') := by
  obtain ⟨c', hmove, rfl⟩ := Option.map_eq_some_iff.mp ((h.parent hc p).mpr hp)
  refine ⟨c', hc.parent hmove, rfl, ?_⟩
  rw [step, eq_none_of_forall_not (h.nextSibling hc) hlast, hmove]
  rfl

theorem step_leave_start (h : m.StaysIn start r) {c : γ} (hc : m.Reached start c)
    (hplace : m.place c = r) : m.step (.leave c) = none := by
  have hsibling : m.nextSibling? c = none :=
    eq_none_of_forall_not (h.nextSibling hc) (hplace ▸ not_nextSibling_self r)
  have hparent : m.parent? c = none :=
    eq_none_of_forall_not (h.parent hc) (hplace ▸ not_parentIn_self r)
  rw [step, hsibling, hparent]
  rfl

/-- From any cursor at the place the loops come to leave the tree there. They have then visited it
in preorder, and each of its places but this one has been left as well. -/
def Traversed (m : Moves γ) (start : γ) (p : Place) : Prop :=
  ∀ c, m.Reached start c → m.place c = p → ∃ n c', n + 1 = 2 * p.preorder.length ∧
    m.Reached start c' ∧ m.place c' = p ∧ m.Leads (.visit c) n p.preorder (.leave c')

/-- The trees of the last children of a place, one after the other, and back up. -/
theorem leads_siblings (h : m.StaysIn start r) {p d : Place} (hp : Within r p)
    {after : List Place} (hall : ∀ e ∈ d :: after, Traversed m start e)
    (hsuffix : d :: after <:+ p.children) {c : γ} (hc : m.Reached start c)
    (hplace : m.place c = d) :
    ∃ c', m.Reached start c' ∧ m.place c' = p ∧
      m.Leads (.visit c) (2 * ((d :: after).flatMap preorder).length)
        ((d :: after).flatMap preorder) (.leave c') := by
  induction after generalizing d c with
  | nil =>
    obtain ⟨before, hbefore⟩ := hsuffix
    obtain ⟨n, last, hn, hlast, rfl, hleads⟩ := hall d List.mem_cons_self c hc hplace
    have hnone : ∀ e, ¬ NextSibling r (m.place last) e := fun e he => by
      cases (nextSibling_iff hp hbefore).mp he
    have hmem : m.place last ∈ p.children := hbefore ▸ List.mem_append_right _ List.mem_cons_self
    obtain ⟨c', hc', hplace', hstep⟩ := h.exists_parent hlast hnone ⟨hp, hmem⟩
    refine ⟨c', hc', hplace', ?_⟩
    rw [List.flatMap_singleton, ← hn]
    exact hleads.leave hstep
  | cons e after ih =>
    obtain ⟨before, hbefore⟩ := hsuffix
    obtain ⟨n, left, hn, hleft, rfl, hleads⟩ := hall d List.mem_cons_self c hc hplace
    have hnext : NextSibling r (m.place left) e := (nextSibling_iff hp hbefore).mpr rfl
    obtain ⟨following, hfollowing, hat, hstep⟩ := h.exists_nextSibling hleft hnext
    have hrest : e :: after <:+ p.children :=
      (List.suffix_cons _ _).trans ⟨before, hbefore⟩
    obtain ⟨c', hc', hplace', hlater⟩ :=
      ih (fun e he => hall e (List.mem_cons_of_mem _ he)) hrest hfollowing hat
    refine ⟨c', hc', hplace', ?_⟩
    rw [List.flatMap_cons, List.length_append, Nat.mul_add, ← hn]
    exact (hleads.leave hstep).trans hlater

theorem traversed (h : m.StaysIn start r) (p : Place) : Traversed m start p := by
  induction p using induction_children with
  | step p ih =>
    rintro c hc rfl
    rw [preorder_eq]
    cases hchildren : (m.place c).children with
    | nil => exact ⟨1, c, rfl, hc, rfl, .single (h.step_visit_leaf hc hchildren)⟩
    | cons d after =>
      obtain ⟨first, hfirst, hat, hstep⟩ := h.exists_firstChild hc hchildren
      have hall : ∀ e ∈ d :: after, Traversed m start e := hchildren ▸ ih
      obtain ⟨c', hc', hplace, hleads⟩ :=
        h.leads_siblings (h.within_of_reached hc) hall (hchildren ▸ List.suffix_rfl) hfirst hat
      refine ⟨_, c', ?_, hc', hplace, (Leads.single hstep).trans hleads⟩
      rw [List.length_cons]
      omega

/-- The loops end after two turns for each node of the tree, a visit and a leave. -/
theorem run_eq_some_iff (h : m.StaysIn start r) {n : Nat} {places : List Place} :
    m.run n (.visit start) = some places ↔ 2 * r.node.size ≤ n ∧ places = r.preorder := by
  obtain ⟨k, c, hk, hc, hplace, hleads⟩ := h.traversed r start .start h.place_start
  rw [length_preorder] at hk
  have hend : m.run (k + 1) (.visit start) = some r.preorder := by
    rw [run_of_leads hleads, run, h.step_leave_start hc hplace]
    exact congrArg some (List.append_nil _)
  constructor
  · intro hrun
    have hlong : k < n := by
      by_contra hshort
      obtain ⟨j, rfl⟩ := Nat.exists_eq_add_of_le (Nat.le_of_not_lt hshort)
      have hnone : m.run (n + j) (.visit start) = none := run_of_leads hleads 0
      cases (run_add hrun j).symm.trans hnone
    obtain ⟨j, rfl⟩ := Nat.exists_eq_add_of_lt hlong
    rw [Nat.add_right_comm] at hrun
    exact ⟨by omega, Option.some.inj (hrun.symm.trans (run_add hend j))⟩
  · rintro ⟨hlong, rfl⟩
    obtain ⟨j, rfl⟩ := Nat.exists_eq_add_of_le (hk ▸ hlong)
    exact run_add hend j

end StaysIn

end Moves

namespace Place

theorem getElem?_siblings (address : Address) (above : List Node) (i j : Nat) (ns : List Node) :
    (siblings address above i ns)[j]? = ns[j]?.map fun n => ⟨(i + j) :: address, n, above⟩ := by
  induction ns generalizing i j with
  | nil => rfl
  | cons n ns ih =>
    cases j with
    | zero => rfl
    | succ j => rw [siblings, List.getElem?_cons_succ, List.getElem?_cons_succ, ih,
        Nat.add_right_comm, Nat.add_assoc]

theorem getElem?_children (p : Place) (k : Nat) :
    p.children[k]? =
      p.node.children[k]?.map fun n => ⟨k :: p.address, n, p.node :: p.above⟩ := by
  rw [children, getElem?_siblings, Nat.zero_add]

end Place

namespace Cursor

def moves : Moves Cursor where
  place := place
  firstChild? := firstChild?
  nextSibling? := nextSibling?
  parent? := parent?

structure Below (r : Place) (c : Cursor) : Prop where
  within : Within r c.place
  depth : c.place.address.length = r.address.length + c.depth

theorem Below.cases {r : Place} {c : Cursor} (h : Below r c) :
    c = ⟨r, 0⟩ ∨ ∃ p k n d, Below r ⟨p, d⟩ ∧ p.node.children[k]? = some n ∧
      c = ⟨⟨k :: p.address, n, p.node :: p.above⟩, d + 1⟩ := by
  rcases c with ⟨q, depth⟩
  obtain ⟨hwithin, hdepth⟩ := h
  simp only at hwithin hdepth
  cases hwithin with
  | refl =>
    obtain rfl : depth = 0 := by omega
    exact Or.inl rfl
  | @child p _ hp hmem =>
    have hle := (address_suffix_of_within hp).length_le
    obtain ⟨k, n, hn, rfl⟩ := mem_children.mp hmem
    rw [List.length_cons] at hdepth
    obtain ⟨d, rfl⟩ : ∃ d, depth = d + 1 := ⟨depth - 1, by omega⟩
    exact Or.inr ⟨p, k, n, d, ⟨hp, by simp only; omega⟩, hn, rfl⟩

/-- A child of the place of a cursor is one level further down. -/
theorem Below.child {r p c : Place} {d : Nat} (h : Below r ⟨p, d⟩) (hc : c ∈ p.children) :
    Below r ⟨c, d + 1⟩ :=
  ⟨h.within.child hc, by rw [length_address_child hc, h.depth, Nat.add_assoc]⟩

theorem map_firstChild? (c : Cursor) : c.firstChild?.map place = c.place.children.head? := by
  rw [firstChild?, Option.map_map]
  exact Option.map_id'

theorem map_nextSibling? (p : Place) (k d : Nat) (n : Node) :
    (nextSibling? ⟨⟨k :: p.address, n, p.node :: p.above⟩, d + 1⟩).map place =
      p.children[k + 1]? := by
  rw [nextSibling?, Option.map_map, getElem?_children]
  rfl

theorem below_of_reached {r : Place} {c : Cursor} (h : moves.Reached ⟨r, 0⟩ c) : Below r c := by
  induction h with
  | start => exact ⟨.refl, rfl⟩
  | child _ hmove ih =>
    obtain ⟨q, hq, rfl⟩ := Option.map_eq_some_iff.mp hmove
    exact ih.child (List.mem_of_head? hq)
  | sibling _ hmove ih =>
    rcases ih.cases with rfl | ⟨p, k, n, d, hp, -, rfl⟩
    · cases hmove
    · obtain ⟨n', hn', rfl⟩ := Option.map_eq_some_iff.mp hmove
      exact hp.child (mem_children.mpr ⟨k + 1, n', hn', rfl⟩)
  | parent _ hmove ih =>
    rcases ih.cases with rfl | ⟨p, k, n, d, hp, -, rfl⟩
    · cases hmove
    · obtain rfl := Option.some.inj hmove
      exact hp

theorem nextSibling_iff_getElem? {r p d : Place} {k : Nat} {n : Node} (hp : Within r p)
    (hn : p.node.children[k]? = some n) :
    NextSibling r ⟨k :: p.address, n, p.node :: p.above⟩ d ↔ p.children[k + 1]? = some d := by
  have hk : p.children[k]? = some ⟨k :: p.address, n, p.node :: p.above⟩ := by
    rw [getElem?_children, hn, Option.map_some]
  obtain ⟨hlt, hat⟩ := List.getElem?_eq_some_iff.mp hk
  have hsplit : p.children.take k ++ ⟨k :: p.address, n, p.node :: p.above⟩ ::
      p.children.drop (k + 1) = p.children := by
    rw [← hat, ← List.drop_eq_getElem_cons hlt, List.take_append_drop]
  rw [nextSibling_iff hp hsplit, List.head?_drop]

theorem moves_staysIn (r : Place) : moves.StaysIn ⟨r, 0⟩ r where
  place_start := rfl
  firstChild := fun {c} _ _ => Eq.congr_left (map_firstChild? c)
  nextSibling := fun {c} hc d => by
    rcases (below_of_reached hc).cases with rfl | ⟨p, k, n, depth, hp, hn, rfl⟩
    · refine iff_of_false ?_ (not_nextSibling_self r d)
      intro h
      cases h
    · exact (Eq.congr_left (map_nextSibling? p k depth n)).trans
        (nextSibling_iff_getElem? hp.within hn).symm
  parent := fun {c} hc q => by
    rcases (below_of_reached hc).cases with rfl | ⟨p, k, n, depth, hp, hn, rfl⟩
    · refine iff_of_false ?_ (not_parentIn_self r q)
      intro h
      cases h
    · have hmem := mem_children.mpr ⟨k, n, hn, rfl⟩
      constructor
      · intro h
        obtain rfl := Option.some.inj h
        exact ⟨hp.within, hmem⟩
      · rintro ⟨-, hq⟩
        exact congrArg some (eq_of_mem_children hmem hq)

end Cursor

namespace Place

theorem not_mem_preorder_of_ancestor {r a : Place} (h : Within a r) (hne : a ≠ r) :
    a ∉ r.preorder := by
  intro ha
  cases h with
  | refl => exact hne rfl
  | child hq hr => exact not_mem_children_of_within ((mem_preorder.mp ha).trans hq) hr

theorem not_mem_preorder_of_sibling {r p s : Place} (hr : r ∈ p.children) (hs : s ∈ p.children)
    (hne : s ≠ r) : s ∉ r.preorder := by
  intro hmem
  cases mem_preorder.mp hmem with
  | refl => exact hne rfl
  | @child q _ hq hsq =>
    obtain rfl := eq_of_mem_children hs hsq
    exact not_mem_children_of_within hq hr

/-- The walk of any cursor created on a place ends, after two turns for each node of the tree there.
It has then visited the places of that tree, each once and in preorder, and nothing above or beside
it. -/
theorem walk_visits_own_tree (r : Place) :
    Cursor.moves.StaysIn ⟨r, 0⟩ r ∧
    (∀ n, r.node.size ≤ n → Cursor.visits n ⟨r, 0⟩ = r.walk) ∧
    (∀ (γ : Type) (m : Moves γ) (start : γ), m.StaysIn start r → ∀ n places,
      m.run n (.visit start) = some places ↔ 2 * r.node.size ≤ n ∧ places = r.walk) ∧
    r.walk = r.preorder ∧ r.walk.Nodup ∧ (∀ p, p ∈ r.walk ↔ Within r p) ∧
    (∀ a, Within a r → a ≠ r → a ∉ r.walk) ∧
    ∀ p s : Place, r ∈ p.children → s ∈ p.children → s ≠ r → s ∉ r.walk := by
  rw [walk_eq_preorder]
  refine ⟨Cursor.moves_staysIn r, fun n => visits_eq_preorder, ?_, rfl, preorder_nodup r,
    fun p => mem_preorder, fun a => not_mem_preorder_of_ancestor,
    fun p s => not_mem_preorder_of_sibling⟩
  intro γ m start hstays n places
  exact hstays.run_eq_some_iff

def nestedArrays : Node :=
  .mk { kind := .program } [
    .mk { kind := .arrayLiteral } [
      .mk { kind := .identifier } [],
      .mk { kind := .arrayLiteral } [.mk { kind := .identifier } []]],
    .mk { kind := .comment } []]

def inNestedArrays (i : Nat) : Place :=
  ⟨[i], nestedArrays.children.getD i default, [nestedArrays]⟩

/-- The outer array is walked in eight turns, and not in seven, without the comment after it. -/
theorem nestedArrays_walk :
    Cursor.moves.run 8 (.visit ⟨inNestedArrays 0, 0⟩) = some (inNestedArrays 0).walk ∧
      (inNestedArrays 0).walk.map address = [[0], [0, 0], [1, 0], [0, 1, 0]] ∧
      Cursor.moves.run 7 (.visit ⟨inNestedArrays 0, 0⟩) = none ∧
      inNestedArrays 1 ∉ (inNestedArrays 0).walk := by
  obtain ⟨hstays, -, hrun, -, -, -, -, hsiblings⟩ := walk_visits_own_tree (inNestedArrays 0)
  have hfirst : inNestedArrays 0 ∈ (root nestedArrays).children :=
    mem_children.mpr ⟨0, _, rfl, rfl⟩
  have hsecond : inNestedArrays 1 ∈ (root nestedArrays).children :=
    mem_children.mpr ⟨1, _, rfl, rfl⟩
  refine ⟨(hrun _ _ _ hstays _ _).mpr ⟨by decide, rfl⟩, rfl, ?_, ?_⟩
  · refine Option.eq_none_iff_forall_ne_some.mpr fun places h => ?_
    exact absurd ((hrun _ _ _ hstays _ _).mp h).1 (by decide)
  · refine hsiblings _ _ hfirst hsecond fun heq => ?_
    exact absurd (congrArg address heq) (by decide)

end Place

end ObserverLint
