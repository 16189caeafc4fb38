import Mathlib.Data.Set.List
import ObserverLint.Proofs.Analysis
import ObserverLint.Proofs.Descent
import ObserverLint.Rules.Marker

namespace ObserverLint

open ObserverLint.Path Traversal

structure Disk.HasDirectory (disk : Disk) (root : Path) : Prop where
  proper : disk.top.Proper
  absolute : root.isAbsolute = true
  directory : ∃ spot, disk.find root = .ok spot ∧ spot.entry.isFile = false

/-- Every chain of names leads to the same entry from both directories, or from neither. -/
def SameTree (disk other : Disk) (root moved : Path) : Prop :=
  ∀ names : List Name, disk.entryAt? (root.under names) = other.entryAt? (moved.under names)

theorem SameTree.symm {disk other : Disk} {root moved : Path}
    (h : SameTree disk other root moved) : SameTree other disk moved root :=
  fun names => (h names).symm

theorem Disk.admits_under_iff {root : Path} (h : Admits root) {names : List Name}
    (hfits : root.text.utf8ByteSize + chainBytes names ≤ maxPathBytes) :
    Admits (root.under names) ↔ ∀ name ∈ names, '\x00' ∉ name.1.toList := by
  have hbytes : (root.under names).text.utf8ByteSize ≤ maxPathBytes :=
    (bytes_under_le root names).trans hfits
  have hnull := mem_text_under (c := '\x00') (by decide) root names
  rw [Admits, hnull]
  simp [h.1, hbytes]

/-- Directories with the same entries have the same tree, as long as all paths in it can be looked
up from either. -/
theorem sameTree_of_entry_eq {disk other : Disk} {root moved : Path} {spot place : Spot}
    (hroot : root.isAbsolute = true) (hmoved : moved.isAbsolute = true)
    (hspot : disk.find root = .ok spot) (hplace : other.find moved = .ok place)
    (hentry : spot.entry = place.entry)
    (hfits : root.text.utf8ByteSize + spot.entry.reach ≤ Disk.maxPathBytes)
    (hfits' : moved.text.utf8ByteSize + spot.entry.reach ≤ Disk.maxPathBytes) :
    SameTree disk other root moved := by
  intro names
  ext e
  rw [Disk.entryAt?_under_eq_some_iff hroot hspot, Disk.entryAt?_under_eq_some_iff hmoved hplace,
    ← hentry]
  apply and_congr_left
  intro hbelow
  have hreach := Entry.chainBytes_le_reach hbelow
  have hadmits := ((Disk.find_eq_ok_iff hroot).mp hspot).1
  have hadmits' := ((Disk.find_eq_ok_iff hmoved).mp hplace).1
  rw [Disk.admits_under_iff hadmits (by omega), Disk.admits_under_iff hadmits' (by omega)]

namespace Walk

def Yields (disk : Disk) (root : Path) (respectGitignore : Bool) (names : List Name) : Prop :=
  ∃ found, entries disk root respectGitignore = .ok found ∧ root.under names ∈ found

theorem yields_iff_mem {disk : Disk} {root : Path} {respectGitignore : Bool}
    {chains : List (List Name)}
    (h : entries disk root respectGitignore = .ok (chains.map root.under)) (names : List Name) :
    Yields disk root respectGitignore names ↔ names ∈ chains := by
  rw [Yields, h]
  simp [List.mem_map_of_injective (under_injective root)]

mutual

theorem exists_under_of_visit (s : Setting) (around : Surroundings) (path : Path) :
    ∀ e : Entry, e.Proper → ∀ p ∈ visit s around path e, ∃ names, path.under names = p
  | .file _, _, p, hp => by
    rw [visit, List.mem_singleton] at hp
    exact ⟨[], hp.symm⟩
  | .directory entries, he, p, hp => by
    rw [visit] at hp
    rcases List.mem_cons.mp hp with rfl | hrest
    · exact ⟨[], rfl⟩
    · exact exists_under_of_visitAll s _ path entries he p hrest

theorem exists_under_of_visitAll (s : Setting) (around : Surroundings) (path : Path) :
    ∀ entries : List (String × Entry), Entry.ProperAll entries →
      ∀ p ∈ visitAll s around path entries, ∃ names, path.under names = p
  | [], _, p, hp => by cases hp
  | (name, e) :: entries, h, p, hp => by
    obtain ⟨hname, -, he, hentries⟩ := h
    rw [visitAll] at hp
    rcases List.mem_append.mp hp with hhere | hrest
    · split at hhere
      · cases hhere
      · obtain ⟨names, hnames⟩ := exists_under_of_visit s _ _ e he p hhere
        exact ⟨⟨name, hname⟩ :: names, hnames⟩
    · exact exists_under_of_visitAll s around path entries hentries p hrest

end

/-- From a directory a walk goes through if no directory above has faulty rules. -/
theorem entries_eq_ok_iff {disk : Disk} {root : Path} {respectGitignore : Bool} {spot : Spot}
    (hspot : disk.find root = .ok spot) (hdirectory : spot.entry.isFile = false)
    {found : List Path} :
    entries disk root respectGitignore = .ok found ↔
      (∀ above ∈ parents spot,
        ((Setting.ofDisk disk respectGitignore).outerLevel above.1).faults = []) ∧
      visit (.ofDisk disk respectGitignore) ((Setting.ofDisk disk respectGitignore).around spot)
        root spot.entry = found := by
  have hfaults : (((Setting.ofDisk disk respectGitignore).around spot).reverse.flatMap
      fun outer => outer.1.faults) = [] ↔ ∀ above ∈ parents spot,
        ((Setting.ofDisk disk respectGitignore).outerLevel above.1).faults = [] := by
    rw [List.flatMap_eq_nil_iff]
    simp only [List.mem_reverse]
    exact List.forall_mem_map
  rw [entries, hspot, ← hfaults]
  dsimp only
  rw [hdirectory]
  simp only [Bool.false_eq_true, if_false]
  split
  · rename_i hnone
    rw [Except.ok.injEq]
    exact (and_iff_right hnone).symm
  · rename_i hsome
    refine iff_of_false ?_ fun h => hsome h.1
    intro h
    cases h

/-- A walk from a directory finds the directory and, beside it, only what names lead to. -/
theorem entries_of_hasDirectory {disk : Disk} {root : Path} (h : disk.HasDirectory root)
    {respectGitignore : Bool} {found : List Path}
    (hfound : entries disk root respectGitignore = .ok found) :
    root.under [] ∈ found ∧ ∀ p ∈ found, ∃ names, root.under names = p := by
  obtain ⟨spot, hspot, hdirectory⟩ := h.directory
  have hproper := (Disk.find_proper h.proper hspot).entry
  obtain ⟨-, rfl⟩ := (entries_eq_ok_iff hspot hdirectory).mp hfound
  refine ⟨?_, exists_under_of_visit _ _ _ _ hproper⟩
  cases hentry : spot.entry with
  | file contents => simp [hentry, Entry.isFile] at hdirectory
  | directory entries =>
    rw [visit]
    exact List.mem_cons_self

end Walk

namespace Disk

variable {disk : Disk} {p : Path}

theorem isFile_iff :
    disk.isFile p = true ↔ ∃ contents, disk.entryAt? p = some (.file contents) := by
  rw [isFile, entryAt?]
  cases disk.find p with
  | error fault => simp [Except.toOption]
  | ok spot => cases hentry : spot.entry <;> simp [Except.toOption, Entry.isFile, hentry]

theorem readText_eq_ok_iff {text : String} :
    disk.readText p = .ok text ↔
      ∃ contents, disk.entryAt? p = some (.file contents) ∧ contents.whole = true ∧
        contents.text = text := by
  rw [readText, bind_eq_ok_iff]
  apply exists_congr
  intro contents
  have hcontents : disk.contents p = .ok contents ↔ disk.entryAt? p = some (.file contents) := by
    rw [Disk.contents, entryAt?]
    cases disk.find p with
    | error fault => simp [Except.toOption, bind, Except.bind]
    | ok spot => cases hentry : spot.entry <;> simp [Except.toOption, bind, Except.bind, hentry]
  rw [hcontents]
  cases contents.whole <;> simp

end Disk

/-- The rule reads of a file its dialect, its text and its tree. Where the file lies it knows only
by the path that findings are to be located at. -/
def Rule.ReadsContentOnly (rule : Rule) : Prop :=
  ∀ path file place, rule.check path { file with path := place } = rule.check path file

theorem PreferObserver.rule_readsContentOnly (settings : Settings) :
    (rule settings).ReadsContentOnly :=
  fun _ _ _ => rfl

namespace Analyzer

variable {a : Analyzer} {grammar : Grammar}

theorem reports_of_moved (hrules : ∀ rule ∈ a.rules, rule.ReadsContentOnly) (path place : Path)
    (file : SourceFile) : a.reports path { file with path := place } = a.reports path file := by
  apply List.flatMap_congr
  intro rule hrule
  have hreads := hrules rule (List.mem_filter.mp hrule).1
  rw [reportOf, reportOf, hreads path file place]

/-- A text is analysed alike at two paths of one dialect that look the same from their bases. -/
theorem analyzeSource_of_moved (hrules : ∀ rule ∈ a.rules, rule.ReadsContentOnly)
    {base other p q : Path} (hdialect : Dialect.ofPath? p = Dialect.ofPath? q)
    (hrelative : p.relativeTo base = q.relativeTo other) {text : String} {output : List Violation}
    (h : a.analyzeSource grammar base p text = .ok output) :
    a.analyzeSource grammar other q text = .ok output := by
  rw [analyzeSource, ← hdialect]
  rw [analyzeSource, hrelative] at h
  cases hp : Dialect.ofPath? p with
  | none =>
    rw [hp] at h
    exact h
  | some dialect =>
    rw [hp] at h
    have hmoved := reports_of_moved hrules (q.relativeTo other) q
      (SourceFile.parse grammar p dialect text)
    dsimp only at h
    split at h
    · cases h
    · rename_i hparsed
      rw [← hmoved] at h
      exact (if_neg hparsed).trans h

def rootedAt (a : Analyzer) (root : Path) : Analyzer := { a with root }

section Directory

variable {disk : Disk} {root : Path}

theorem baseDir_rootedAt (h : disk.HasDirectory root) : (a.rootedAt root).baseDir disk = root := by
  obtain ⟨spot, hspot, hdirectory⟩ := h.directory
  have hfile : disk.isFile root = false := by
    rw [Disk.isFile, hspot]
    exact hdirectory
  change (if disk.isFile root then root.parent?.getD root else root) = root
  rw [hfile]
  rfl

theorem names_ne_nil_of_file (h : disk.HasDirectory root) {names : List Name} {contents : Contents}
    (hfile : disk.entryAt? (root.under names) = some (.file contents)) : names ≠ [] := by
  intro hnil
  obtain ⟨spot, hspot, hdirectory⟩ := h.directory
  rw [hnil] at hfile
  change disk.entryAt? root = some (.file contents) at hfile
  rw [Disk.entryAt?, hspot] at hfile
  rw [Option.some.inj hfile] at hdirectory
  cases hdirectory

/-- Whether a path under the root is selected depends on the names that lead there and on what they
lead to. -/
theorem selected_under_iff (h : disk.HasDirectory root) (names : List Name) :
    (a.rootedAt root).Selected disk (root.under names) ↔
      (∃ contents, disk.entryAt? (root.under names) = some (.file contents)) ∧
        (∃ dialect, Dialect.ofPath? (ofNames names) = some dialect) ∧
          ∀ glob ∈ a.excludes, glob.isMatch (ofNames names).text = false := by
  by_cases hnames : names = []
  · have hno : ¬ ∃ contents, disk.entryAt? (root.under names) = some (.file contents) :=
      fun ⟨_, hfile⟩ => names_ne_nil_of_file h hfile hnames
    exact iff_of_false (fun hselected => hno (Disk.isFile_iff.mp hselected.isFile))
      fun hall => hno hall.1
  · have hrelative := relativeTo_under h.absolute hnames
    have hdialect := dialect_under root hnames
    rw [← Disk.isFile_iff, ← hdialect, ← hrelative]
    constructor
    · intro hselected
      have hunmatched := hselected.unmatched
      rw [baseDir_rootedAt h] at hunmatched
      exact ⟨hselected.isFile, hselected.isSource, hunmatched⟩
    · intro hall
      refine ⟨hall.1, hall.2.1, ?_⟩
      rw [baseDir_rootedAt h]
      exact hall.2.2

theorem discover_eq_ok_iff {found : List Path} :
    (a.rootedAt root).discover disk = .ok found ↔
      Walk.entries disk root a.config.analyzer.respectGitignore = .ok found :=
  mapError_eq_ok_iff

structure Chains (a : Analyzer) (disk : Disk) (root : Path) (chains : List (List Name)) : Prop where
  mem_iff : ∀ names, names ∈ chains ↔
    Walk.Yields disk root a.config.analyzer.respectGitignore names ∧
      (a.rootedAt root).Selected disk (root.under names)
  ordered : chains.Pairwise fun names others => (ofNames names).order (ofNames others) = .lt

theorem exists_chains (h : disk.HasDirectory root) {found : List Path}
    (hfound : (a.rootedAt root).discover disk = .ok found) :
    ∃ chains, a.Chains disk root chains ∧
      (a.rootedAt root).selected disk found = chains.map root.under := by
  have hentries := discover_eq_ok_iff.mp hfound
  have hunder := (Walk.entries_of_hasDirectory h hentries).2
  have hfiles : InPathOrder (a.rootedAt root) disk found ((a.rootedAt root).selected disk found) :=
    inPathOrder_selected (walked_of_discover h.proper hfound)
  have hrange : (a.rootedAt root).selected disk found ∈ Set.range (List.map root.under) := by
    rw [Set.range_list_map]
    intro p hp
    exact hunder p ((hfiles.mem_iff p).mp hp).1
  obtain ⟨chains, hchains⟩ := hrange
  refine ⟨chains, ⟨?_, ?_⟩, hchains.symm⟩
  · intro names
    have hyields : root.under names ∈ found ↔
        Walk.Yields disk root a.config.analyzer.respectGitignore names := by
      rw [Walk.Yields, hentries]
      simp
    rw [← hyields, ← hfiles.mem_iff, ← hchains, List.mem_map_of_injective (under_injective root)]
  · have hordered := hfiles.ordered
    rw [← hchains, List.pairwise_map] at hordered
    apply hordered.imp
    intro names others horder
    rwa [order_under] at horder

/-- There is one way only to put the selected files in order. -/
theorem Chains.unique {chains others : List (List Name)} {disk' : Disk} {root' : Path}
    (h : a.Chains disk root chains) (h' : a.Chains disk' root' others)
    (hsame : ∀ names, names ∈ chains ↔ names ∈ others) : chains = others := by
  have hself : ∀ names : List Name, (ofNames names).order (ofNames names) = .eq :=
    fun names => Path.order_eq_eq_iff.mpr rfl
  have hnodup : ∀ {list : List (List Name)},
      list.Pairwise (fun names others => (ofNames names).order (ofNames others) = .lt) →
        list.Nodup := by
    intro list hlist
    apply hlist.imp
    intro names others horder heq
    rw [heq, hself] at horder
    cases horder
  have hperm : chains.Perm others :=
    (List.perm_ext_iff_of_nodup (hnodup h.ordered) (hnodup h'.ordered)).mpr hsame
  apply List.Perm.eq_of_pairwise _ h.ordered h'.ordered hperm
  intro names others _ _ hlt hgt
  have hswap : (ofNames others).order (ofNames names) =
      ((ofNames names).order (ofNames others)).swap := Std.OrientedCmp.eq_swap
  rw [hlt, hgt] at hswap
  cases hswap

theorem Chains.names_ne_nil {chains : List (List Name)} (h : disk.HasDirectory root)
    (hchains : a.Chains disk root chains) {names : List Name} (hmem : names ∈ chains) :
    names ≠ [] := by
  have hselected := ((hchains.mem_iff names).mp hmem).2
  obtain ⟨contents, hfile⟩ := Disk.isFile_iff.mp hselected.isFile
  exact names_ne_nil_of_file h hfile

/-- Seen from the root, the selected files are the chains. -/
theorem Chains.map_relativeTo {chains : List (List Name)} (h : disk.HasDirectory root)
    (hchains : a.Chains disk root chains) :
    (chains.map root.under).map (·.relativeTo root) = chains.map ofNames := by
  rw [List.map_map]
  apply List.map_congr_left
  intro names hmem
  exact relativeTo_under h.absolute (hchains.names_ne_nil h hmem)

end Directory

structure Relocated (respectGitignore : Bool) (disk other : Disk) (root moved : Path) : Prop where
  here : disk.HasDirectory root
  there : other.HasDirectory moved
  tree : SameTree disk other root moved
  walk : ∀ names, Walk.Yields disk root respectGitignore names ↔
    Walk.Yields other moved respectGitignore names

namespace Relocated

variable {disk other : Disk} {root moved : Path}

theorem symm {respectGitignore : Bool} (h : Relocated respectGitignore disk other root moved) :
    Relocated respectGitignore other disk moved root :=
  ⟨h.there, h.here, h.tree.symm, fun names => (h.walk names).symm⟩

variable (h : Relocated a.config.analyzer.respectGitignore disk other root moved)

include h

/-- A walk that goes through finds at least its root, so the other one goes through too. -/
theorem exists_discover {found : List Path} (hfound : (a.rootedAt root).discover disk = .ok found) :
    ∃ found, (a.rootedAt moved).discover other = .ok found := by
  have hentries := discover_eq_ok_iff.mp hfound
  have hroot := (Walk.entries_of_hasDirectory h.here hentries).1
  obtain ⟨others, hothers, -⟩ := (h.walk []).mp ⟨found, hentries, hroot⟩
  exact ⟨others, discover_eq_ok_iff.mpr hothers⟩

theorem chains {chains : List (List Name)} (hchains : a.Chains disk root chains) :
    a.Chains other moved chains where
  mem_iff names := by
    rw [hchains.mem_iff, h.walk, selected_under_iff h.here, selected_under_iff h.there, h.tree]
  ordered := hchains.ordered

/-- The same chains of names lead to the selected files of either directory. -/
theorem exists_common_chains {found others : List Path}
    (hfound : (a.rootedAt root).discover disk = .ok found)
    (hothers : (a.rootedAt moved).discover other = .ok others) :
    ∃ chains, a.Chains disk root chains ∧
      (a.rootedAt root).selected disk found = chains.map root.under ∧
      (a.rootedAt moved).selected other others = chains.map moved.under := by
  obtain ⟨chains, hchains, hselected⟩ := exists_chains h.here hfound
  obtain ⟨chains', hchains', hselected'⟩ := exists_chains h.there hothers
  have hmoved := h.chains hchains
  have heq : chains' = chains := by
    apply hchains'.unique hmoved
    intro names
    rw [hchains'.mem_iff, hmoved.mem_iff]
  exact ⟨chains, hchains, hselected, heq ▸ hselected'⟩

theorem analyzeFile (hrules : ∀ rule ∈ a.rules, rule.ReadsContentOnly) {names : List Name}
    {output : List Violation}
    (houtput : (a.rootedAt root).analyzeFile disk grammar (root.under names) = .ok output) :
    (a.rootedAt moved).analyzeFile other grammar (moved.under names) = .ok output := by
  obtain ⟨text, hread, hsource⟩ := yields_iff.mpr houtput
  obtain ⟨contents, hentry, hwhole, htext⟩ := Disk.readText_eq_ok_iff.mp hread
  have hnames : names ≠ [] := names_ne_nil_of_file h.here hentry
  have hread' : other.readText (moved.under names) = .ok text := by
    rw [h.tree] at hentry
    exact Disk.readText_eq_ok_iff.mpr ⟨contents, hentry, hwhole, htext⟩
  have hdialect : Dialect.ofPath? (root.under names) = Dialect.ofPath? (moved.under names) := by
    rw [dialect_under root hnames, dialect_under moved hnames]
  have hrelative : (root.under names).relativeTo root = (moved.under names).relativeTo moved := by
    rw [relativeTo_under h.here.absolute hnames, relativeTo_under h.there.absolute hnames]
  rw [baseDir_rootedAt h.here] at hsource
  apply yields_iff.mp
  refine ⟨text, hread', ?_⟩
  rw [baseDir_rootedAt h.there]
  exact analyzeSource_of_moved (a := a.rootedAt root) hrules hdialect hrelative hsource

theorem analyze (hrules : ∀ rule ∈ a.rules, rule.ReadsContentOnly) {report : Report}
    (hreport : (a.rootedAt root).analyze disk grammar = .ok report) :
    (a.rootedAt moved).analyze other grammar = .ok report := by
  obtain ⟨found, hfound, hanalysed⟩ := bind_eq_ok_iff.mp hreport
  obtain ⟨others, hothers⟩ := h.exists_discover hfound
  obtain ⟨chains, -, hselected, hselected'⟩ := h.exists_common_chains hfound hothers
  obtain ⟨outputs, houtputs, hdone⟩ := bind_eq_ok_iff.mp hanalysed
  rw [hselected, mapM_eq_ok_iff, List.forall₂_map_left_iff] at houtputs
  have houtputs' : ((a.rootedAt moved).selected other others).mapM
      ((a.rootedAt moved).analyzeFile other grammar) = .ok outputs := by
    rw [hselected', mapM_eq_ok_iff, List.forall₂_map_left_iff]
    exact houtputs.imp fun _ _ => h.analyzeFile hrules
  refine bind_eq_ok_iff.mpr ⟨others, hothers, bind_eq_ok_iff.mpr ⟨outputs, houtputs', ?_⟩⟩
  rw [← hdone, hselected, hselected', List.length_map, List.length_map]

end Relocated

/-- An analysis succeeds in a directory exactly if it does in another one with the same tree, and
then with the same report, if the rules read nothing but contents and a walk finds the same in both.
The selected files have the same paths from either directory. -/
theorem relocated_analysis_same {a : Analyzer} {grammar : Grammar} {disk other : Disk}
    {root moved : Path} (hrules : ∀ rule ∈ a.rules, rule.ReadsContentOnly)
    (h : Relocated a.config.analyzer.respectGitignore disk other root moved) :
    (∀ report, (a.rootedAt root).analyze disk grammar = .ok report ↔
      (a.rootedAt moved).analyze other grammar = .ok report) ∧
    ∀ found, (a.rootedAt root).discover disk = .ok found →
      ∃ others, (a.rootedAt moved).discover other = .ok others ∧
        ((a.rootedAt root).selected disk found).map (·.relativeTo root) =
          ((a.rootedAt moved).selected other others).map (·.relativeTo moved) := by
  constructor
  · intro report
    exact ⟨h.analyze hrules, h.symm.analyze hrules⟩
  · intro found hfound
    obtain ⟨others, hothers⟩ := h.exists_discover hfound
    refine ⟨others, hothers, ?_⟩
    obtain ⟨chains, hchains, hselected, hselected'⟩ := h.exists_common_chains hfound hothers
    rw [hselected, hselected', hchains.map_relativeTo h.here,
      (h.chains hchains).map_relativeTo h.there]

def alone : Disk where
  top := .directory [("x.ts", .file { text := "BAD" })]
  current := ⟨"/"⟩

/-- The same directory under a name that is left out below a root. -/
def tucked : Disk where
  top := .directory [("dist", alone.top)]
  current := ⟨"/"⟩

theorem find_alone : alone.find ⟨"/"⟩ = .ok ⟨alone.top, [], []⟩ :=
  (Disk.find_eq_ok_iff (by decide)).mpr ⟨⟨by decide, by decide⟩, rfl⟩

theorem find_tucked : tucked.find ⟨"/dist/./"⟩ = .ok ⟨alone.top, ["dist"], [tucked.top]⟩ :=
  (Disk.find_eq_ok_iff (by decide)).mpr ⟨⟨by decide, by decide⟩, rfl⟩

/-- No list of a repository lies above the directory. -/
theorem tucked_exclude : Ignore.Rules.ofRepository tucked ⟨"/"⟩ tucked.top = {} := by
  have hgit : (Path.mk "/").join ⟨".git"⟩ = ⟨"/.git"⟩ :=
    (join_after_slash (by decide) (by decide)).trans rfl
  have hlist : (Path.mk "/.git").join ⟨"info/exclude"⟩ = ⟨"/.git/info/exclude"⟩ :=
    (join_after_name (by decide) (by decide) (by decide)).trans rfl
  have hmissing : (tucked.find ⟨"/.git/info/exclude"⟩).toOption = none := by
    cases hfind : tucked.find ⟨"/.git/info/exclude"⟩ with
    | error fault => rfl
    | ok spot => cases ((Disk.find_eq_ok_iff (by decide)).mp hfind).2
  change Ignore.Rules.ofFile _ ((tucked.find (((Path.mk "/").join ⟨".git"⟩).join
    ⟨"info/exclude"⟩)).toOption.map Spot.entry) = {}
  rw [hgit, hlist, hmissing]
  rfl

def fileChains : List (List Name) := [[], [⟨"x.ts", by decide, by decide⟩]]

theorem entries_alone :
    Walk.entries alone ⟨"/"⟩ true = .ok (fileChains.map (Path.mk "/").under) := by
  rw [Walk.entries, find_alone]
  rfl

theorem tucked_faults :
    ((Walk.Setting.ofDisk tucked true).outerLevel ⟨tucked.top, [], []⟩).faults = [] := by
  change [] ++ [] ++ (Ignore.Rules.ofRepository tucked ⟨"/"⟩ tucked.top).faults = []
  rw [tucked_exclude]
  rfl

theorem entries_tucked :
    Walk.entries tucked ⟨"/dist/./"⟩ true = .ok (fileChains.map (Path.mk "/dist/./").under) := by
  refine (Walk.entries_eq_ok_iff find_tucked rfl).mpr ⟨?_, rfl⟩
  intro above habove
  rw [List.mem_singleton.mp habove]
  exact tucked_faults

theorem alone_relocated : Relocated true alone tucked ⟨"/"⟩ ⟨"/dist/./"⟩ where
  here :=
    { proper := by simp [alone, Entry.Proper, Entry.ProperAll, Path.IsName, Path.component?]
      absolute := by decide
      directory := ⟨_, find_alone, rfl⟩ }
  there :=
    { proper := by simp [tucked, alone, Entry.Proper, Entry.ProperAll, Path.IsName, Path.component?]
      absolute := by decide
      directory := ⟨_, find_tucked, rfl⟩ }
  tree := sameTree_of_entry_eq (by decide) (by decide) find_alone find_tucked rfl (by decide)
    (by decide)
  walk names := by
    rw [Walk.yields_iff_mem entries_alone, Walk.yields_iff_mem entries_tucked]

def withoutDist : Analyzer where
  root := ⟨"."⟩
  rules := [PreferObserver.rule {}, Marker.rule { name := "m", code := "T1", text := "BAD" }]
  excludes := (Glob.parse "**/dist/**").toOption.toList
  config := {}
  failOnParseError := true

def fileReport : Report where
  violations := [{
    code := "T1", rule := "m", severity := .error, message := "marker found"
    location := { file := ⟨"x.ts"⟩, line := 1, column := 1 } }]
  filesChecked := 1

theorem withoutDist_reads : ∀ rule ∈ withoutDist.rules, rule.ReadsContentOnly := by
  intro rule hrule
  rcases List.mem_cons.mp hrule with rfl | hmarker
  · exact PreferObserver.rule_readsContentOnly {}
  · rw [List.mem_singleton.mp hmarker]
    exact fun _ _ _ => rfl

theorem analyze_alone :
    (withoutDist.rootedAt ⟨"/"⟩).analyze alone (fun _ _ => default) = .ok fileReport := by
  have hjoin : (Path.mk "/").join ⟨"x.ts"⟩ = ⟨"/x.ts"⟩ :=
    (join_after_slash (by decide) (by decide)).trans rfl
  have hfound : fileChains.map (Path.mk "/").under = [⟨"/"⟩, ⟨"/x.ts"⟩] := by
    change [Path.mk "/", (Path.mk "/").join ⟨"x.ts"⟩] = _
    rw [hjoin]
  have hdiscover : (withoutDist.rootedAt ⟨"/"⟩).discover alone = .ok [⟨"/"⟩, ⟨"/x.ts"⟩] := by
    rw [← hfound]
    exact discover_eq_ok_iff.mpr entries_alone
  have hfind : alone.find ⟨"/x.ts"⟩ = .ok ⟨.file { text := "BAD" }, ["x.ts"], [alone.top]⟩ :=
    (Disk.find_eq_ok_iff (by decide)).mpr ⟨⟨by decide, by decide⟩, rfl⟩
  have hbase : (withoutDist.rootedAt ⟨"/"⟩).baseDir alone = ⟨"/"⟩ := by
    rw [baseDir, rootedAt, Disk.isFile_of_find find_alone]
    rfl
  have hselected : (withoutDist.rootedAt ⟨"/"⟩).selected alone [⟨"/"⟩, ⟨"/x.ts"⟩] =
      [⟨"/x.ts"⟩] := by
    have hkept : [Path.mk "/", ⟨"/x.ts"⟩].filter (fun p => isSource alone p &&
        !(withoutDist.rootedAt ⟨"/"⟩).isExcluded ⟨"/"⟩ p) = [⟨"/x.ts"⟩] := by
      simp only [List.filter_cons, isSource, Disk.isFile_of_find find_alone,
        Disk.isFile_of_find hfind]
      decide
    rw [selected, hbase, hkept, List.mergeSort_singleton]
  have hread : alone.readText ⟨"/x.ts"⟩ = .ok "BAD" := Disk.readText_of_find hfind rfl rfl
  rw [analyze, hdiscover]
  refine analyzeFound_of_one hselected ?_
  rw [analyzeFile, hread, hbase]
  rfl

/-- The file is found in `dist` too, if that is where the analysis starts. -/
theorem tucked_analysed_as_alone :
    (∀ rule ∈ withoutDist.rules, rule.ReadsContentOnly) ∧
    Relocated withoutDist.config.analyzer.respectGitignore alone tucked ⟨"/"⟩ ⟨"/dist/./"⟩ ∧
    (withoutDist.rootedAt ⟨"/"⟩).analyze alone (fun _ _ => default) = .ok fileReport ∧
    (withoutDist.rootedAt ⟨"/dist/./"⟩).analyze tucked (fun _ _ => default) = .ok fileReport :=
  ⟨withoutDist_reads, alone_relocated, analyze_alone,
    ((relocated_analysis_same withoutDist_reads alone_relocated).1 fileReport).mp analyze_alone⟩

end Analyzer

end ObserverLint
