import ObserverLint.Proofs.Asides
import ObserverLint.Proofs.Traversal

namespace ObserverLint

open InStep Traversal

namespace Oracle

open Place (Counterpart root)

section Collecting

variable {source other : String} {t u : Node} {p q : Place} {d e : Declarations}
  (halike : Node.Alike source other t u) (ht : t.clear = true) (hu : u.clear = true)
  (hd : d.Corresponds t u e)

include halike

theorem declaringScope?_rel (h : Counterpart (root t) (root u) p q) (hoisted : Bool) :
    Option.Rel (Counterpart (root t) (root u)) (p.declaringScope? hoisted)
      (q.declaringScope? hoisted) := by
  refine rel_find? ?_ h.ancestors
  intro a b hab
  rw [hab.kind_eq halike]

theorem enclosingClassBody?_rel (h : Counterpart (root t) (root u) p q) :
    Option.Rel (Counterpart (root t) (root u)) p.enclosingClassBody? q.enclosingClassBody? := by
  refine rel_find? ?_ h.ancestors
  intro a b hab
  rw [hab.kind_eq halike]

theorem hoisted_eq (h : Counterpart (root t) (root u) p q) :
    (p.parent?.any fun a => a.kind == .variableDeclaration) =
      q.parent?.any fun a => a.kind == .variableDeclaration := by
  have hparent := h.parent?
  generalize p.parent? = x, q.parent? = y at hparent
  cases hparent with
  | none => rfl
  | some hab => rw [Option.any_some, Option.any_some, hab.kind_eq halike]

/-- A search among the children that no comment answers to. -/
theorem filter_children_rel {f : Place → Bool} (h : Counterpart (root t) (root u) p q)
    (hcomment : ∀ c, f c = true → c.kind ≠ .comment)
    (hf : ∀ c c', Counterpart (root t) (root u) c c' → f c = f c') :
    List.Forall₂ (Counterpart (root t) (root u)) (p.children.filter f) (q.children.filter f) := by
  have hproper (c : Place) (hc : f c = true) : (!c.node.isAside) = true :=
    Node.not_isAside_of_kind (hcomment c hc)
  rw [filter_filter_of_imp hproper, filter_filter_of_imp hproper q.children]
  exact rel_filter hf (h.properChildren halike)

theorem any_children_eq {f : Place → Bool} (h : Counterpart (root t) (root u) p q)
    (hcomment : ∀ c, f c = true → c.kind ≠ .comment)
    (hf : ∀ c c', Counterpart (root t) (root u) c c' → f c = f c') :
    p.children.any f = q.children.any f := by
  have hall (x : Place) : x.children.any f = (x.children.filter f).any f :=
    any_filter_of_imp (fun _ hc => hc) x.children
  rw [hall, hall, any_eq_any hf (filter_children_rel halike h hcomment hf)]

theorem isParameterProperty_eq (h : Counterpart (root t) (root u) p q) :
    isParameterProperty p = isParameterProperty q := by
  refine any_children_eq halike h ?_ ?_
  · intro c hc hcomment
    simp [hcomment] at hc
  · intro c c' hc
    rw [hc.kind_eq halike]

theorem derived_eq (h : Counterpart (root t) (root u) p q) :
    (p.namedChildren.any fun c => c.kind == .classHeritage) =
      q.namedChildren.any fun c => c.kind == .classHeritage := by
  rw [Place.namedChildren, Place.namedChildren, List.any_filter, List.any_filter]
  refine any_children_eq halike h ?_ ?_
  · intro c hc hcomment
    simp [hcomment] at hc
  · intro c c' hc
    rw [hc.kind_eq halike, (hc.alike halike).named]

theorem exists_namedChild {c : Place} (h : Counterpart (root t) (root u) p q)
    (hc : c ∈ p.namedChildren) (hcomment : c.kind ≠ .comment) :
    ∃ c' ∈ q.namedChildren, Counterpart (root t) (root u) c c' := by
  obtain ⟨hmem, hnamed⟩ := List.mem_filter.mp hc
  have hproper : c ∈ p.properChildren :=
    List.mem_filter.mpr ⟨hmem, Node.not_isAside_of_kind hcomment⟩
  obtain ⟨c', hc', hcc'⟩ := exists_of_mem_right (h.symm.properChildren halike.symm) hproper
  have hcc' := hcc'.symm
  refine ⟨c', List.mem_filter.mpr ⟨(List.mem_filter.mp hc').1, ?_⟩, hcc'⟩
  rw [← (hcc'.alike halike).named, hnamed]

theorem IsParameter.counterpart (h : Counterpart (root t) (root u) p q) (hp : IsParameter p) :
    IsParameter q := by
  rwa [IsParameter, ← h.kind_eq halike]

theorem BareParameter.counterpart {pattern : Place} (h : Counterpart (root t) (root u) p q)
    (hbare : BareParameter p pattern) :
    ∃ pattern', BareParameter q pattern' ∧ Counterpart (root t) (root u) pattern pattern' := by
  have hpq := h.kind_eq halike
  cases hbare with
  | pattern hkind => exact ⟨q, .pattern (hpq ▸ hkind), h⟩
  | default hkind hleft =>
    obtain ⟨left', hleft', hcounterpart⟩ := exists_eq_some (h.child? halike .left) hleft
    exact ⟨left', .default (hpq ▸ hkind) hleft', hcounterpart⟩

theorem BindsPattern.counterpart {scope pattern : Place} (h : Counterpart (root t) (root u) p q)
    (hbinds : BindsPattern source p scope pattern) :
    ∃ scope' pattern', BindsPattern other q scope' pattern' ∧
      Counterpart (root t) (root u) scope scope' ∧
        Counterpart (root t) (root u) pattern pattern' := by
  have hpq := h.kind_eq halike
  cases hbinds with
  | declarator hkind hscope hpattern =>
    rw [hoisted_eq halike h] at hscope
    obtain ⟨scope', hscope', hs⟩ := exists_eq_some (declaringScope?_rel halike h _) hscope
    obtain ⟨pattern', hpattern', hp⟩ := exists_eq_some (h.child? halike .name) hpattern
    exact ⟨scope', pattern', .declarator (hpq ▸ hkind) hscope' hpattern', hs, hp⟩
  | loopVariable hkind hkeyword hvar hpattern =>
    have hword := h.word? halike .kind (by rw [hkind]; exact List.mem_cons_self)
    obtain ⟨keyword', hkeyword', hk⟩ := exists_eq_some hword hkeyword
    obtain ⟨pattern', hpattern', hp⟩ := exists_eq_some (h.child? halike .left) hpattern
    exact ⟨q, pattern', .loopVariable (hpq ▸ hkind) hkeyword' (hk.2 ▸ hvar) hpattern', h, hp⟩
  | risingLoopVariable hkind hkeyword hvar hscope hpattern =>
    have hword := h.word? halike .kind (by rw [hkind]; exact List.mem_cons_self)
    obtain ⟨keyword', hkeyword', hk⟩ := exists_eq_some hword hkeyword
    obtain ⟨scope', hscope', hs⟩ := exists_eq_some (declaringScope?_rel halike h _) hscope
    obtain ⟨pattern', hpattern', hp⟩ := exists_eq_some (h.child? halike .left) hpattern
    exact ⟨scope', pattern',
      .risingLoopVariable (hpq ▸ hkind) hkeyword' (hk.2 ▸ hvar) hscope' hpattern', hs, hp⟩
  | ownParameter hkind hpattern =>
    obtain ⟨pattern', hpattern', hp⟩ := exists_eq_some (h.child? halike .parameter) hpattern
    exact ⟨q, pattern', .ownParameter (hpq ▸ hkind) hpattern', h, hp⟩
  | parameter hparameter hscope hpattern =>
    obtain ⟨scope', hscope', hs⟩ := exists_eq_some (declaringScope?_rel halike h _) hscope
    obtain ⟨pattern', hpattern', hp⟩ := exists_eq_some (h.child? halike .pattern) hpattern
    exact ⟨scope', pattern', .parameter (hparameter.counterpart halike h) hscope' hpattern', hs, hp⟩
  | bareParameter hkind hscope hparameter hbare =>
    obtain ⟨scope', hscope', hs⟩ := exists_eq_some (declaringScope?_rel halike h _) hscope
    obtain ⟨parameter', hparameter', hcounterpart⟩ :=
      exists_namedChild halike h hparameter hbare.kind_ne_comment
    obtain ⟨pattern', hbare', hp⟩ := hbare.counterpart halike hcounterpart
    exact ⟨scope', pattern', .bareParameter (hpq ▸ hkind) hscope' hparameter' hbare', hs, hp⟩

theorem fieldName_rel (h : Counterpart (root t) (root u) p q)
    (hkind : p.kind = .publicFieldDefinition ∨ p.kind = .fieldDefinition) :
    Option.Rel (fun c c' => Counterpart (root t) (root u) c c' ∧ c.text source = c'.text other)
      ((p.child? .name).orElse fun _ => p.child? .property)
      ((q.child? .name).orElse fun _ => q.child? .property) := by
  have hname := h.word? halike .name (by rcases hkind with hk | hk <;> rw [hk] <;> decide)
  have hproperty := h.word? halike .property (by rcases hkind with hk | hk <;> rw [hk] <;> decide)
  generalize p.child? .name = x, q.child? .name = y at hname
  cases hname with
  | none => exact hproperty
  | some hname => exact .some hname

theorem DeclaresField.counterpart {body : Place} {f : String}
    (h : Counterpart (root t) (root u) p q) (hfield : DeclaresField source p body f) :
    ∃ body', DeclaresField other q body' f ∧ Counterpart (root t) (root u) body body' := by
  have hpq := h.kind_eq halike
  cases hfield with
  | definition hkind hname hbody =>
    obtain ⟨name', hname', hn⟩ := exists_eq_some (fieldName_rel halike h hkind) hname
    obtain ⟨body', hbody', hb⟩ := exists_eq_some (enclosingClassBody?_rel halike h) hbody
    rw [hn.2]
    exact ⟨body', .definition (hpq ▸ hkind) hname' hbody', hb⟩
  | parameter hparameter hproperty hpattern hidentifier hscope hbody =>
    obtain ⟨pattern', hpattern', hp⟩ := exists_eq_some (h.child? halike .pattern) hpattern
    obtain ⟨scope', hscope', -⟩ := exists_eq_some (declaringScope?_rel halike h _) hscope
    obtain ⟨body', hbody', hb⟩ := exists_eq_some (enclosingClassBody?_rel halike h) hbody
    rw [hp.text_eq halike (by rw [hidentifier]; rfl)]
    exact ⟨body', .parameter (hparameter.counterpart halike h)
      (isParameterProperty_eq halike h ▸ hproperty) hpattern' (hp.kind_eq halike ▸ hidentifier)
      hscope' hbody', hb⟩

theorem Imports.counterpart {name : Place} (h : Counterpart (root t) (root u) p q)
    (himports : Imports p name) :
    ∃ name', Imports q name' ∧ name.text source = name'.text other := by
  have hpq := h.kind_eq halike
  cases himports with
  | renamed hkind halias =>
    have hword := h.word? halike .alias (by rw [hkind]; decide)
    obtain ⟨name', halias', hname⟩ := exists_eq_some hword halias
    exact ⟨name', .renamed (hpq ▸ hkind) halias', hname.2⟩
  | named hkind halias hname =>
    have hword := h.word? halike .name (by rw [hkind]; decide)
    obtain ⟨name', hname', hn⟩ := exists_eq_some hword hname
    exact ⟨name', .named (hpq ▸ hkind) (eq_none (h.child? halike .alias) halias) hname', hn.2⟩
  | whole hkind hname hidentifier =>
    obtain ⟨name', hname', hn⟩ := exists_namedChild halike h hname (by simp [hidentifier])
    exact ⟨name', .whole (hpq ▸ hkind) hname' (hn.kind_eq halike ▸ hidentifier),
      hn.text_eq halike (by rw [hidentifier]; rfl)⟩

include ht hu

theorem typeShape_rel {type type' : Place} (h : Counterpart (root t) (root u) type type') :
    typeShape source type.node = typeShape other type'.node :=
  typeShape_eq (h.alike halike) (clear_of_within ht h.within) (clear_of_within hu h.symm.within)

theorem parameterShape_eq (h : Counterpart (root t) (root u) p q) :
    parameterShape source p = parameterShape other q := by
  have htype := h.child? halike .type
  rw [parameterShape, parameterShape]
  generalize p.child? .type = x, q.child? .type = y at htype
  cases htype with
  | none => rfl
  | some htype => exact typeShape_rel halike ht hu htype

include hd

theorem bindingShape_eq (h : Counterpart (root t) (root u) p q) :
    bindingShape d source p = bindingShape e other q := by
  have htype := h.child? halike .type
  have hvalue := h.child? halike .value
  rw [bindingShape, bindingShape]
  generalize p.child? .type = x, q.child? .type = y at htype
  generalize p.child? .value = x', q.child? .value = y' at hvalue
  cases htype with
  | some htype => exact typeShape_rel halike ht hu htype
  | none =>
    cases hvalue with
    | none => rfl
    | some hvalue => exact exprShape_eq halike ht hu hd hvalue

theorem declaredShape_eq (h : Counterpart (root t) (root u) p q) :
    declaredShape d source p = declaredShape e other q := by
  rw [declaredShape, declaredShape, h.kind_eq halike, bindingShape_eq halike ht hu hd h,
    parameterShape_eq halike ht hu h]

/-- What is declared at a place is declared at its counterpart as well. -/
theorem Declares.counterpart {b : Binding} (h : Counterpart (root t) (root u) p q)
    (hdeclares : Declares d source p b) :
    ∃ c, Declares e other q c ∧ b.Corresponds t u c := by
  have hpq := h.kind_eq halike
  have hshape := declaredShape_eq halike ht hu hd h
  cases hdeclares with
  | pattern hbinds hb =>
    obtain ⟨scope', pattern', hbinds', hs, hp⟩ := hbinds.counterpart halike h
    obtain ⟨⟨name, part⟩, hpart, rfl⟩ := List.mem_map.mp hb
    rw [patternNames_eq (hp.alike halike), hshape] at hpart
    exact ⟨_, .pattern hbinds' (mem_bindPattern hpart), sameScope hs, rfl, rfl⟩
  | field hfield =>
    obtain ⟨body', hfield', hb⟩ := hfield.counterpart halike h
    exact ⟨_, .field hfield', sameScope hb, rfl, hshape⟩
  | function hkind hname hscope =>
    have hword := h.word? halike .name (by rcases hkind with hk | hk <;> rw [hk] <;> decide)
    obtain ⟨name', hname', hn⟩ := exists_eq_some hword hname
    obtain ⟨scope', hscope', hs⟩ := exists_eq_some (declaringScope?_rel halike h _) hscope
    exact ⟨_, .function (hpq ▸ hkind) hname' hscope', sameScope hs, hn.2, rfl⟩
  | imported himports hscope =>
    obtain ⟨name', himports', hn⟩ := himports.counterpart halike h
    obtain ⟨scope', hscope', hs⟩ := exists_eq_some (declaringScope?_rel halike h _) hscope
    exact ⟨_, .imported himports' hscope', sameScope hs, hn, rfl⟩

theorem exists_mem_collectAt (h : Counterpart (root t) (root u) p q) :
    ∀ b ∈ (collectAt source d p).bindings, ∃ c ∈ (collectAt other e q).bindings,
      b.Corresponds t u c := by
  intro b hb
  rcases List.mem_append.mp hb with hbefore | hhere
  · obtain ⟨c, hc, hbc⟩ := hd.bindings b hbefore
    exact ⟨c, List.mem_append_left _ hc, hbc⟩
  · obtain ⟨c, hc, hbc⟩ := (mem_bindingsAt_iff.mp hhere).counterpart halike ht hu hd h
    exact ⟨c, List.mem_append_right _ (mem_bindingsAt_iff.mpr hc), hbc⟩

theorem collectAt_corresponds (h : Counterpart (root t) (root u) p q) :
    (collectAt source d p).Corresponds t u (collectAt other e q) where
  classes := hd.classes
  bindings := exists_mem_collectAt halike ht hu hd h
  converse c hc := by
    obtain ⟨b, hb, hcb⟩ := exists_mem_collectAt halike.symm hu ht hd.symm h.symm c hc
    exact ⟨b, hb, hcb.symm⟩

omit ht hu hd

theorem classAt?_rel (h : Counterpart (root t) (root u) p q) :
    Option.Rel (ClassBinding.Corresponds t u) (classAt? source p) (classAt? other q) := by
  have hscope := declaringScope?_rel halike h false
  have hword := h.word? halike .name
  unfold classAt?
  rw [← h.kind_eq halike, derived_eq halike h]
  cases hk : p.kind
  case classDeclaration | abstractClassDeclaration =>
    have hname := hword (by rw [hk]; exact List.mem_cons_self)
    generalize p.child? .name = x, q.child? .name = y at hname
    generalize p.declaringScope? false = x', q.declaringScope? false = y' at hscope
    cases hname with
    | none => exact .none
    | some hname =>
      cases hscope with
      | none => exact .none
      | some hscope => exact .some ⟨sameScope hscope, hname.2, rfl⟩
  all_goals exact .none

end Collecting

theorem bindingsAt_aside {d : Declarations} {source : String} {p : Place}
    (h : p.node.isAside = true) : bindingsAt d source p = [] := by
  have hkind : p.kind = .comment := (Node.isAside_iff.mp h).1
  exact bindingsAt_eq_nil (by rw [hkind]; rfl)

theorem classAt?_aside {source : String} {p : Place} (h : p.node.isAside = true) :
    classAt? source p = none := by
  have hkind : p.kind = .comment := (Node.isAside_iff.mp h).1
  simp only [classAt?, hkind]

section Files

variable {file other : SourceFile} (halike : Node.Alike file.text other.text file.tree other.tree)

include halike

theorem classDeclarations_corresponds :
    (classDeclarations file.text file.places).Corresponds file.tree other.tree
      (classDeclarations other.text other.places) := by
  have hclasses : List.Forall₂ (ClassBinding.Corresponds file.tree other.tree)
      (file.places.filterMap (classAt? file.text))
      (other.places.filterMap (classAt? other.text)) := by
    rw [SourceFile.places_eq_preorder, SourceFile.places_eq_preorder,
      Place.filterMap_preorder fun c => classAt?_aside,
      Place.filterMap_preorder fun c => classAt?_aside]
    exact List.rel_filterMap (fun _ _ hpq => classAt?_rel halike hpq)
      (Counterpart.refl.code halike)
  have hbindings : List.Forall₂ (Binding.Corresponds file.tree other.tree)
      (classDeclarations file.text file.places).bindings
      (classDeclarations other.text other.places).bindings :=
    List.rel_map (fun _ _ hbc => ⟨hbc.scope, hbc.name, rfl⟩) hclasses
  exact ⟨hclasses, fun _ => exists_of_mem_right hbindings.flip,
    fun _ => exists_of_mem_right hbindings⟩

/-- Files that differ in comments only declare the same. -/
theorem declarations_corresponds (ht : file.tree.clear = true) (hu : other.tree.clear = true) :
    (declarations file).Corresponds file.tree other.tree (declarations other) := by
  have haside (source : String) (d : Declarations) (c : Place) (hc : c.node.isAside = true) :
      collectAt source d c = d := by
    rw [collectAt, bindingsAt_aside hc, Declarations.addBindings, List.append_nil]
  rw [declarations, declarations, SourceFile.places_eq_preorder, SourceFile.places_eq_preorder,
    Place.foldl_preorder (haside _), Place.foldl_preorder (haside _)]
  refine List.rel_foldl ?_ ?_ (Counterpart.refl.code halike)
  · intro d e hd p q hpq
    exact collectAt_corresponds halike ht hu hd hpq
  · have hclasses := classDeclarations_corresponds halike
    rwa [SourceFile.places_eq_preorder, SourceFile.places_eq_preorder] at hclasses

end Files

end Oracle

end ObserverLint
