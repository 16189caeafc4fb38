import ObserverLint.Config.Resolve
import ObserverLint.Proofs.Ascent

namespace ObserverLint

open ObserverLint.Path

namespace ConfigFile

/-- The configuration file of a directory: the plain name comes before the dotted one. -/
@[mk_iff]
inductive ConfigIn (disk : Disk) (dir : Path) : Path → Prop
  | plain : disk.isFile (dir.join ⟨"rxlint.toml"⟩) = true →
      ConfigIn disk dir (dir.join ⟨"rxlint.toml"⟩)
  | dotted : disk.isFile (dir.join ⟨"rxlint.toml"⟩) = false →
      disk.isFile (dir.join ⟨".rxlint.toml"⟩) = true → ConfigIn disk dir (dir.join ⟨".rxlint.toml"⟩)

def HasPackage (disk : Disk) (dir : Path) : Prop :=
  disk.isFile (dir.join ⟨"package.json"⟩) = true

structure Passes (disk : Disk) (dir : Path) : Prop where
  noConfig : ∀ path, ¬ ConfigIn disk dir path
  noPackage : ¬ HasPackage disk dir

/-- The configuration file of the first directory upwards that has one, with no root of a package
below it. -/
def Nearest (disk : Disk) (start path : Path) : Prop :=
  ∃ passed dir, Climbs parent? start passed dir ∧ (∀ d ∈ passed, Passes disk d) ∧
    ConfigIn disk dir path

inductive Holds (disk : Disk) (start : Path) (explicit globalDir : Option Path) :
    Option ConfigFile → Prop
  | given {path : Path} : explicit = some path →
      Holds disk start explicit globalDir (some ⟨path, false⟩)
  | nearest {path : Path} : explicit = none → Nearest disk (startOf disk start) path →
      Holds disk start explicit globalDir (some ⟨path, false⟩)
  | ofUser {dir : Path} : explicit = none → (∀ path, ¬ Nearest disk (startOf disk start) path) →
      globalDir = some dir → disk.isFile (dir.join ⟨"config.toml"⟩) = true →
      Holds disk start explicit globalDir (some ⟨dir.join ⟨"config.toml"⟩, true⟩)
  | nothing : explicit = none → (∀ path, ¬ Nearest disk (startOf disk start) path) →
      (∀ dir, globalDir = some dir → disk.isFile (dir.join ⟨"config.toml"⟩) = false) →
      Holds disk start explicit globalDir none

section Search

variable {disk : Disk} {start dir root path : Path} {explicit globalDir : Option Path}
  {passed : List Path}

theorem inDirectory?_eq_some_iff : inDirectory? disk dir = some path ↔ ConfigIn disk dir path := by
  rw [inDirectory?, names, configIn_iff]
  cases hplain : disk.isFile (dir.join ⟨"rxlint.toml"⟩) <;>
    cases hdotted : disk.isFile (dir.join ⟨".rxlint.toml"⟩) <;>
    simp [hplain, hdotted, eq_comm]

theorem passes_iff :
    Passes disk dir ↔ inDirectory? disk dir = none ∧ ¬ HasPackage disk dir := by
  have hnone : inDirectory? disk dir = none ↔ ∀ path, ¬ ConfigIn disk dir path := by
    rw [Option.eq_none_iff_forall_ne_some]
    exact forall_congr' fun path => not_congr inDirectory?_eq_some_iff
  rw [hnone]
  exact ⟨fun h => ⟨h.noConfig, h.noPackage⟩, fun h => ⟨h.1, h.2⟩⟩

/-- One step of the search: the directory has the file, or else the search may go on. -/
theorem search?_cons_eq_some_iff {dirs : List Path} :
    search? disk (dir :: dirs) = some path ↔
      ConfigIn disk dir path ∨ Passes disk dir ∧ search? disk dirs = some path := by
  rw [search?, passes_iff, ← inDirectory?_eq_some_iff]
  cases inDirectory? disk dir with
  | some found => simp
  | none =>
    by_cases hpackage : disk.isFile (dir.join packageFile) = true
    · have hroot : HasPackage disk dir := hpackage
      simp [hpackage, hroot]
    · have hroot : ¬ HasPackage disk dir := hpackage
      simp [hpackage, hroot]

/-- Along a list of directories, the search passes some and ends in the next. -/
theorem search?_eq_some_iff {dirs : List Path} :
    search? disk dirs = some path ↔
      ∃ passed dir rest, dirs = passed ++ dir :: rest ∧ (∀ d ∈ passed, Passes disk d) ∧
        ConfigIn disk dir path := by
  induction dirs with
  | nil => simp [search?]
  | cons first dirs ih =>
    rw [search?_cons_eq_some_iff, ih]
    constructor
    · rintro (hconfig | ⟨hfirst, passed, dir, rest, rfl, hpassed, hconfig⟩)
      · exact ⟨[], first, dirs, rfl, List.forall_mem_nil _, hconfig⟩
      · exact ⟨first :: passed, dir, rest, rfl, List.forall_mem_cons.mpr ⟨hfirst, hpassed⟩,
          hconfig⟩
    · rintro ⟨passed, dir, rest, hdirs, hpassed, hconfig⟩
      cases passed with
      | nil =>
        obtain ⟨rfl, -⟩ := List.cons.inj hdirs
        exact Or.inl hconfig
      | cons d passed =>
        obtain ⟨rfl, rfl⟩ := List.cons.inj hdirs
        obtain ⟨hfirst, hrest⟩ := List.forall_mem_cons.mp hpassed
        exact Or.inr ⟨hfirst, passed, dir, rest, rfl, hrest, hconfig⟩

/-- The list of paths upwards is the way up, as far as its bound allows. -/
theorem upwards_eq_append_iff {n : Nat} :
    (∃ rest, upwards n start = passed ++ dir :: rest) ↔
      Climbs parent? start passed dir ∧ passed.length ≤ n := by
  induction passed generalizing n start with
  | nil =>
    have hhead : ∃ rest, upwards n start = start :: rest := by
      unfold upwards
      split
      · exact ⟨_, rfl⟩
      · split
        · exact ⟨_, rfl⟩
        · exact ⟨_, rfl⟩
    obtain ⟨rest, hrest⟩ := hhead
    constructor
    · rintro ⟨more, hmore⟩
      obtain ⟨rfl, -⟩ := List.cons.inj (hrest.symm.trans hmore)
      exact ⟨.here start, Nat.zero_le n⟩
    · rintro ⟨h, -⟩
      cases h
      exact ⟨rest, hrest⟩
  | cons first passed ih =>
    constructor
    · rintro ⟨rest, hrest⟩
      cases n with
      | zero =>
        obtain ⟨-, htail⟩ := List.cons.inj hrest
        simp at htail
      | succ n =>
        rw [upwards] at hrest
        cases hparent : start.parent? with
        | none =>
          rw [hparent] at hrest
          obtain ⟨-, htail⟩ := List.cons.inj hrest
          simp at htail
        | some above =>
          rw [hparent] at hrest
          obtain ⟨rfl, htail⟩ := List.cons.inj hrest
          obtain ⟨hclimbs, hlength⟩ := ih.mp ⟨rest, htail⟩
          exact ⟨.up hparent hclimbs, Nat.succ_le_succ hlength⟩
    · rintro ⟨h, hlength⟩
      cases h with
      | up hparent hclimbs =>
        cases n with
        | zero => cases hlength
        | succ n =>
          obtain ⟨rest, hrest⟩ := ih.mpr ⟨hclimbs, Nat.le_of_succ_le_succ hlength⟩
          refine ⟨rest, ?_⟩
          rw [upwards, hparent, List.cons_append, ← hrest]

theorem ofProject?_eq_some_iff :
    ofProject? disk start = some path ↔ Nearest disk (startOf disk start) path := by
  rw [ofProject?, ancestors, search?_eq_some_iff]
  constructor
  · rintro ⟨passed, dir, rest, hdirs, hpassed, hconfig⟩
    exact ⟨passed, dir, (upwards_eq_append_iff.mp ⟨rest, hdirs⟩).1, hpassed, hconfig⟩
  · rintro ⟨passed, dir, hclimbs, hpassed, hconfig⟩
    have hlength := length_le_of_climbs hclimbs
    rw [String.length_toList] at hlength
    obtain ⟨rest, hdirs⟩ := upwards_eq_append_iff.mpr ⟨hclimbs, hlength⟩
    exact ⟨passed, dir, rest, hdirs, hpassed, hconfig⟩

theorem ofProject?_eq_none_iff :
    ofProject? disk start = none ↔ ∀ path, ¬ Nearest disk (startOf disk start) path := by
  rw [Option.eq_none_iff_forall_ne_some]
  exact forall_congr' fun path => not_congr ofProject?_eq_some_iff

theorem resolve?_eq_iff {answer : Option ConfigFile} :
    resolve? disk start explicit globalDir = answer ↔
      Holds disk start explicit globalDir answer := by
  constructor
  · rintro rfl
    cases explicit with
    | some path => exact .given rfl
    | none =>
      rw [resolve?]
      cases hproject : ofProject? disk start with
      | some path => exact .nearest rfl (ofProject?_eq_some_iff.mp hproject)
      | none =>
        have hnone := ofProject?_eq_none_iff.mp hproject
        cases globalDir with
        | none => exact .nothing rfl hnone (fun dir hdir => absurd hdir (by simp))
        | some dir =>
          by_cases hfile : disk.isFile (dir.join globalFile) = true
          · have huser : ofUser? disk (some dir) = some ⟨dir.join globalFile, true⟩ := if_pos hfile
            exact huser ▸ .ofUser rfl hnone rfl hfile
          · have huser : ofUser? disk (some dir) = none := if_neg hfile
            refine huser ▸ .nothing rfl hnone fun other hother => ?_
            rw [← Option.some.inj hother]
            exact Bool.eq_false_iff.mpr hfile
  · intro h
    cases h with
    | given hgiven => rw [hgiven, resolve?]
    | nearest hgiven hnearest =>
      rw [hgiven, resolve?, ofProject?_eq_some_iff.mpr hnearest]
    | ofUser hgiven hnone hdir hfile =>
      rw [hgiven, resolve?, ofProject?_eq_none_iff.mpr hnone, hdir]
      exact if_pos hfile
    | nothing hgiven hnone hfile =>
      rw [hgiven, resolve?, ofProject?_eq_none_iff.mpr hnone]
      cases globalDir with
      | none => rfl
      | some dir => exact if_neg (Bool.eq_false_iff.mp (hfile dir rfl))

theorem resolve?_eq_local_iff :
    resolve? disk start none globalDir = some ⟨path, false⟩ ↔
      Nearest disk (startOf disk start) path := by
  rw [resolve?_eq_iff]
  constructor
  · intro h
    cases h with
    | given hgiven => cases hgiven
    | nearest _ hnearest => exact hnearest
  · exact .nearest rfl

/-- The search does not go beyond the root of a package. -/
theorem Nearest.of_package (h : Nearest disk start path)
    (hclimbs : Climbs parent? start passed root) (hpackage : HasPackage disk root) :
    ∃ dir ∈ passed ++ [root], ConfigIn disk dir path := by
  obtain ⟨others, dir, hothers, hpasses, hconfig⟩ := h
  refine ⟨dir, ?_, hconfig⟩
  rcases hothers.mem_or_mem hclimbs with hbefore | ⟨-, rfl⟩ | hbeyond
  · exact List.mem_append_left _ hbefore
  · exact List.mem_append_right _ (List.mem_singleton_self _)
  · exact absurd hpackage (hpasses root hbeyond).noPackage

/-- It does go as far as the first root of a package. -/
theorem nearest_iff_of_package (hclimbs : Climbs parent? start passed root)
    (hpasses : ∀ d ∈ passed, Passes disk d) (hpackage : HasPackage disk root) :
    Nearest disk start path ↔ ConfigIn disk root path := by
  constructor
  · intro h
    obtain ⟨dir, hdir, hconfig⟩ := h.of_package hclimbs hpackage
    rcases List.mem_append.mp hdir with hmem | hmem
    · exact absurd hconfig ((hpasses dir hmem).noConfig path)
    · rwa [← List.mem_singleton.mp hmem]
  · intro hconfig
    exact ⟨passed, root, hclimbs, hpasses, hconfig⟩

end Search

/-- A start without any text is the current directory. -/
def written (start : Path) : Path := if start.text.isEmpty then ⟨"."⟩ else start

theorem startOf_of_ok {disk : Disk} {start : Path} {spot : Spot}
    (h : disk.find (written start) = .ok spot) : startOf disk start = spot.path := by
  rw [written] at h
  rw [startOf, h]

theorem startOf_of_error {disk : Disk} {start : Path} {fault : FileFault}
    (h : disk.find (written start) = .error fault) : startOf disk start = written start := by
  rw [written] at h
  rw [startOf, h, written]

/-- What holds for a run is read off the way up from its start, which ends at the root of a package.
A start that is on the disk stands for the directory it leads to, and the way up for the directories
around that one. -/
theorem config_found_on_way_up (disk : Disk) (start : Path) (explicit globalDir : Option Path) :
    (∀ answer, resolve? disk start explicit globalDir = answer ↔
      Holds disk start explicit globalDir answer) ∧
    (∀ passed root, Climbs parent? (startOf disk start) passed root → HasPackage disk root →
      (∀ path, resolve? disk start none globalDir = some ⟨path, false⟩ →
        ∃ dir ∈ passed ++ [root], ConfigIn disk dir path) ∧
      ((∀ dir ∈ passed, Passes disk dir) → ∀ path,
        resolve? disk start none globalDir = some ⟨path, false⟩ ↔ ConfigIn disk root path)) ∧
    (∀ fault, disk.find (written start) = .error fault → startOf disk start = written start) ∧
    ∀ spot, disk.find (written start) = .ok spot →
      startOf disk start = spot.path ∧
      (∀ passed dir, Climbs parent? spot.path passed dir ↔
        ∃ spots around, Climbs Spot.outside? spot spots around ∧
          passed = spots.map Spot.path ∧ dir = around.path) ∧
      ∀ spots around, Climbs Spot.outside? spot spots around → ∀ name : Name,
        disk.isFile (around.path.join ⟨name.1⟩) = true ↔
          Disk.Admits (around.path.join ⟨name.1⟩) ∧ name.1.utf8ByteSize ≤ Spot.maxNameBytes ∧
            ∃ contents, around.entry.child? name.1 = some (.file contents) := by
  refine ⟨fun answer => resolve?_eq_iff, ?_, fun fault => startOf_of_error, ?_⟩
  · intro passed root hclimbs hpackage
    refine ⟨fun path hpath => ?_, fun hpasses path => ?_⟩
    · exact (resolve?_eq_local_iff.mp hpath).of_package hclimbs hpackage
    · exact resolve?_eq_local_iff.trans (nearest_iff_of_package hclimbs hpasses hpackage)
  · intro spot hspot
    have hreached := Disk.exists_reached hspot
    refine ⟨startOf_of_ok hspot, fun passed dir => Spot.climbs_path_iff hreached, ?_⟩
    intro spots around hclimbs name
    obtain ⟨names, haround⟩ := hclimbs.kept (fun _ _ => Spot.exists_reached_of_outside?) hreached
    exact Disk.isFile_join_iff haround (Disk.find_topmost hspot) name

/-- A package with a configuration file, in a directory with another. -/
def packageInside : Disk where
  top := .directory [("rxlint.toml", .file { text := "" }),
    ("app", .directory [("package.json", .file { text := "" }),
      (".rxlint.toml", .file { text := "" }), ("src", .directory [])])]
  current := ⟨"/"⟩

def packageRoot : Spot where
  entry := .directory [("package.json", .file { text := "" }),
    (".rxlint.toml", .file { text := "" }), ("src", .directory [])]
  names := ["app"]
  above := [packageInside.top]

def packageSource : Spot where
  entry := .directory []
  names := ["src", "app"]
  above := [packageRoot.entry, packageInside.top]

/-- The file above the package is not reached. -/
theorem packageInside_own_config :
    Climbs Spot.outside? packageSource [packageSource, packageRoot] ⟨packageInside.top, [], []⟩ ∧
      packageInside.top.child? "rxlint.toml" = some (.file { text := "" }) ∧
      resolve? packageInside ⟨"/app/src/."⟩ none none = some ⟨⟨"/app/.rxlint.toml"⟩, false⟩ := by
  have hfind : packageInside.find (written ⟨"/app/src/."⟩) = .ok packageSource :=
    (Disk.find_eq_ok_iff (by decide)).mpr ⟨⟨by decide, by decide⟩, rfl⟩
  have hup : Climbs Spot.outside? packageSource [packageSource] packageRoot := .up rfl (.here _)
  obtain ⟨-, hpackage, -, hspots⟩ := config_found_on_way_up packageInside ⟨"/app/src/."⟩ none none
  obtain ⟨hstart, hclimbs, hfiles⟩ := hspots packageSource hfind
  have hway := (hclimbs _ _).mpr ⟨_, _, hup, rfl, rfl⟩
  rw [← hstart] at hway
  have hplain := hfiles _ _ hup ⟨"rxlint.toml", by decide, by decide⟩
  have hdotted := hfiles _ _ hup ⟨".rxlint.toml", by decide, by decide⟩
  have hjoin : packageRoot.path.join ⟨".rxlint.toml"⟩ = ⟨"/app/.rxlint.toml"⟩ :=
    (join_after_name (by decide) (by decide) (by decide)).trans rfl
  have hjoin' : packageRoot.path.join ⟨"package.json"⟩ = ⟨"/app/package.json"⟩ :=
    (join_after_name (by decide) (by decide) (by decide)).trans rfl
  have hroot : HasPackage packageInside packageRoot.path := by
    refine (hfiles _ _ hup ⟨"package.json", by decide, by decide⟩).mpr ⟨?_, by decide, _, rfl⟩
    rw [hjoin']
    exact ⟨by decide, by decide⟩
  have hpasses : ∀ dir ∈ [packageSource].map Spot.path, Passes packageInside dir := by
    have hnone (name : Name) : packageInside.isFile (packageSource.path.join ⟨name.1⟩) ≠ true := by
      intro h
      obtain ⟨-, -, contents, hchild⟩ := (hfiles _ _ (.here _) name).mp h
      cases hchild
    rw [List.map_singleton, List.forall_mem_singleton]
    refine ⟨fun path hpath => ?_, hnone ⟨"package.json", by decide, by decide⟩⟩
    cases hpath with
    | plain h => exact hnone ⟨"rxlint.toml", by decide, by decide⟩ h
    | dotted _ h => exact hnone ⟨".rxlint.toml", by decide, by decide⟩ h
  have hconfig : ConfigIn packageInside packageRoot.path ⟨"/app/.rxlint.toml"⟩ := by
    rw [← hjoin]
    refine .dotted (Bool.eq_false_iff.mpr ?_) ?_
    · intro h
      obtain ⟨-, -, contents, hchild⟩ := hplain.mp h
      cases hchild
    · refine hdotted.mpr ⟨?_, by decide, _, rfl⟩
      rw [hjoin]
      exact ⟨by decide, by decide⟩
  exact ⟨.up rfl (.up rfl (.here _)), rfl, ((hpackage _ _ hway hroot).2 hpasses _).mpr hconfig⟩

end ConfigFile

end ObserverLint
