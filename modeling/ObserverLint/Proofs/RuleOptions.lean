import Mathlib.Data.List.Nodup
import Mathlib.Data.String.Basic
import ObserverLint.Proofs.Validity
import ObserverLint.Text.Utf8

namespace ObserverLint

namespace Text

theorem toNat_byte {n : Nat} (h : n < 256) : (UInt8.ofNat n).toNat = n :=
  UInt8.toNat_ofNat_of_lt' h

/-- Of two numbers the lesser has the lesser leading part, or the same one and a lesser rest. -/
theorem div_lt_or_mod_lt {m n : Nat} (h : m < n) :
    m / 64 < n / 64 ∨ m / 64 = n / 64 ∧ m % 64 < n % 64 := by
  omega

/-- The encodings of two characters differ before either ends, and the lesser character has the
lesser byte there. -/
theorem utf8EncodeChar_append_lt {c d : Char} (h : c < d) (xs ys : List UInt8) :
    String.utf8EncodeChar c ++ xs < String.utf8EncodeChar d ++ ys := by
  have hlt : c.val.toNat < d.val.toNat := h
  have hmax : d.val.toNat < 0x110000 := by
    have hvalid := d.valid
    simp only [UInt32.isValidChar, Nat.isValidChar] at hvalid
    omega
  have hlast := div_lt_or_mod_lt hlt
  have hmiddle : c.val.toNat / 64 < d.val.toNat / 64 → _ := div_lt_or_mod_lt
  have hfirst : c.val.toNat / 64 / 64 < d.val.toNat / 64 / 64 → _ := div_lt_or_mod_lt
  simp only [Nat.div_div_eq_div_mul, Nat.reduceMul] at hmiddle hfirst
  simp only [String.utf8EncodeChar]
  generalize c.val.toNat = m at *
  generalize d.val.toNat = n at *
  split_ifs <;>
    simp (disch := omega) only [List.cons_append, List.nil_append, List.cons_lt_cons_iff,
      UInt8.lt_iff_toNat_lt, ← UInt8.toNat_inj, toNat_byte]
  rotate_right
  -- With four bytes each, the first of the bytes that differ is looked for from the end.
  · rcases hlast with hlast | hlast
    · rcases hmiddle hlast with hmiddle | hmiddle
      · rcases hfirst hmiddle with hfirst | hfirst
        · exact Or.inl (by omega)
        · exact Or.inr ⟨by omega, Or.inl (by omega)⟩
      · exact Or.inr ⟨by omega, Or.inr ⟨by omega, Or.inl (by omega)⟩⟩
    · exact Or.inr ⟨by omega, Or.inr ⟨by omega, Or.inr ⟨by omega, Or.inl (by omega)⟩⟩⟩
  -- Encodings of different lengths differ in the first byte.
  all_goals omega

theorem bytes_lt_of_lt {cs ds : List Char} (h : cs < ds) : bytes cs < bytes ds := by
  induction h with
  | @nil d ds =>
    obtain ⟨b, bs, hbytes⟩ := List.exists_cons_of_ne_nil (@String.utf8EncodeChar_ne_nil d)
    rw [bytes, bytes, List.flatMap_cons, hbytes]
    exact List.Lex.nil
  | cons _ ih => exact List.append_left_lt ih
  | rel hlt => exact utf8EncodeChar_append_lt hlt _ _

/-- Texts are in the order of their bytes. -/
theorem le_iff_bytes_le {a b : String} : a ≤ b ↔ bytes a.toList ≤ bytes b.toList := by
  rw [← String.not_lt, ← List.not_lt, not_iff_not]
  constructor
  · exact bytes_lt_of_lt
  · intro h
    rcases lt_trichotomy b a with hlt | rfl | hgt
    · exact hlt
    · exact absurd h (List.lt_irrefl _)
    · exact absurd h (List.lt_asymm (bytes_lt_of_lt hgt))

end Text

namespace RuleConfig

variable {c d : RuleConfig} {key : String} {v : Toml.Value}

def KeysDistinct (c : RuleConfig) : Prop := (c.options.map Prod.fst).Nodup

theorem option?_eq_some_iff (h : c.KeysDistinct) :
    c.option? key = some v ↔ (key, v) ∈ c.options := by
  constructor
  · intro hoption
    obtain ⟨⟨_, _⟩, hfind, rfl⟩ := Option.map_eq_some_iff.mp hoption
    obtain rfl : _ = key := by simpa using List.find?_some hfind
    exact List.mem_of_find?_eq_some hfind
  · intro hmem
    obtain ⟨w, hw⟩ := option?_isSome_iff.mpr ⟨(key, v), hmem, rfl⟩
    obtain ⟨⟨_, _⟩, hfind, rfl⟩ := Option.map_eq_some_iff.mp hw
    obtain rfl : _ = key := by simpa using List.find?_some hfind
    -- Both are options of the one key.
    have hsame := List.inj_on_of_nodup_map h hmem (List.mem_of_find?_eq_some hfind) rfl
    rw [hw, (Prod.mk.inj hsame).2]

theorem option?_eq_none_iff : c.option? key = none ↔ ∀ v, (key, v) ∉ c.options := by
  rw [Option.eq_none_iff_forall_ne_some]
  constructor
  · intro hnone v hmem
    obtain ⟨w, hw⟩ := option?_isSome_iff.mpr ⟨(key, v), hmem, rfl⟩
    exact hnone w hw
  · intro hnone v hv
    obtain ⟨⟨_, w⟩, hmem, rfl⟩ := option?_isSome_iff.mp ⟨v, hv⟩
    exact hnone w hmem

theorem option?_of_perm (h : c.KeysDistinct) (hperm : c.options.Perm d.options) :
    d.option? key = c.option? key := by
  have h' : d.KeysDistinct := (hperm.map Prod.fst).nodup_iff.mp h
  ext v
  rw [option?_eq_some_iff h', option?_eq_some_iff h, hperm.mem_iff]

theorem unknownOptions_pairwise (c : RuleConfig) (known : List String) :
    (c.unknownOptions known).Pairwise (· ≤ ·) := by
  have hle (a b : String) : (!decide (b < a)) = true ↔ a ≤ b := by
    rw [Bool.not_eq_true', decide_eq_false_iff_not, String.not_lt]
  have hsorted := @List.pairwise_mergeSort String (fun a b => !decide (b < a))
    (fun a b e hab hbe => (hle a e).mpr (String.le_trans ((hle a b).mp hab) ((hle b e).mp hbe)))
    (fun a b => by simpa only [Bool.or_eq_true, hle] using String.le_total a b)
    ((c.options.map Prod.fst).filter fun key => !known.contains key)
  exact hsorted.imp fun h => (hle _ _).mp h

theorem mem_unknownOptions {known : List String} :
    key ∈ c.unknownOptions known ↔ (∃ v, (key, v) ∈ c.options) ∧ key ∉ known := by
  simp [unknownOptions, List.mem_mergeSort]

theorem unknownOptions_of_perm (hperm : c.options.Perm d.options) (known : List String) :
    d.unknownOptions known = c.unknownOptions known := by
  have hkeys : (d.unknownOptions known).Perm (c.unknownOptions known) :=
    (List.mergeSort_perm _ _).trans
      (((hperm.symm.map Prod.fst).filter _).trans (List.mergeSort_perm _ _).symm)
  exact hkeys.eq_of_pairwise (fun _ _ _ _ hab hba => String.le_antisymm hab hba)
    (d.unknownOptions_pairwise known) (c.unknownOptions_pairwise known)

end RuleConfig

namespace PreferObserver

open RuleConfig Text Traversal

def HasUnknown (c : RuleConfig) (key : String) : Prop :=
  (∃ v, (key, v) ∈ c.options) ∧ key ≠ "allow_next" ∧ key ≠ "allowNext"

def HasMistyped (c : RuleConfig) (key : String) (v : Toml.Value) : Prop :=
  (key, v) ∈ c.options ∧ ∀ b, v ≠ .boolean b

inductive Complaint (c : RuleConfig) : String → OptionFault → Prop
  | unknown {key : String} : HasUnknown c key →
      (∀ other, HasUnknown c other → bytes key.toList ≤ bytes other.toList) →
      Complaint c key (.unknown ["allow_next", "allowNext"])
  | first {v : Toml.Value} : (∀ key, ¬ HasUnknown c key) → HasMistyped c "allow_next" v →
      Complaint c "allow_next" (.notBoolean v.typeName)
  | second {v : Toml.Value} : (∀ key, ¬ HasUnknown c key) →
      (∀ w, ¬ HasMistyped c "allow_next" w) → HasMistyped c "allowNext" v →
      Complaint c "allowNext" (.notBoolean v.typeName)

/-- Whether the options allow a single handler. The second spelling overrules the first, and without
either it is allowed. -/
inductive AllowsSingle (c : RuleConfig) : Bool → Prop
  | second {b : Bool} : ("allowNext", .boolean b) ∈ c.options → AllowsSingle c b
  | first {b : Bool} : (∀ v, ("allowNext", v) ∉ c.options) →
      ("allow_next", .boolean b) ∈ c.options → AllowsSingle c b
  | unset : (∀ v, ("allowNext", v) ∉ c.options) → (∀ v, ("allow_next", v) ∉ c.options) →
      AllowsSingle c true

variable {c : RuleConfig} {key : String}

theorem hasUnknown_iff : HasUnknown c key ↔ key ∈ c.unknownOptions optionKeys := by
  rw [mem_unknownOptions, HasUnknown, optionKeys]
  simp

theorem not_hasUnknown_iff : (∀ key, ¬ HasUnknown c key) ↔ c.unknownOptions optionKeys = [] := by
  simp only [hasUnknown_iff, List.eq_nil_iff_forall_not_mem]

theorem expectBool_eq_error_iff (h : c.KeysDistinct) {rule : String} {e : ConfigError} :
    c.expectBool rule key = .error e ↔
      ∃ v, HasMistyped c key v ∧ e = .invalidOption rule key (.notBoolean v.typeName) := by
  simp only [HasMistyped, ← option?_eq_some_iff h]
  unfold expectBool
  cases c.option? key with
  | none => simp
  | some v => cases v <;> simp [eq_comm]

theorem not_hasMistyped_of_ok (h : c.KeysDistinct) {rule : String} {value : Option Bool}
    (hvalue : c.expectBool rule key = .ok value) (v : Toml.Value) : ¬ HasMistyped c key v := by
  intro hv
  cases hvalue.symm.trans ((expectBool_eq_error_iff h).mpr ⟨v, hv, rfl⟩)

theorem expectBool_eq_ok_some_iff (h : c.KeysDistinct) {rule : String} {b : Bool} :
    c.expectBool rule key = .ok (some b) ↔ (key, .boolean b) ∈ c.options := by
  rw [← option?_eq_some_iff h, expectBool]
  cases c.option? key with
  | none => simp
  | some v => cases v <;> simp

theorem expectBool_eq_ok_none_iff {rule : String} :
    c.expectBool rule key = .ok none ↔ ∀ v, (key, v) ∉ c.options := by
  rw [← option?_eq_none_iff, expectBool]
  cases c.option? key with
  | none => simp
  | some v => cases v <;> simp

/-- If all options are known, the two spellings are read one after the other. -/
theorem ofConfig_of_known (h : c.unknownOptions optionKeys = []) :
    Settings.ofConfig c =
      c.expectBool ruleName "allow_next" >>= fun first =>
        (c.expectBool ruleName "allowNext").map fun second =>
          ⟨second.getD (first.getD true), c.severity.getD .error⟩ := by
  unfold Settings.ofConfig
  rw [h]
  simp only [optionKeys, List.foldlM_cons, List.foldlM_nil, Settings.take]
  cases c.expectBool ruleName "allow_next" with
  | error e => rfl
  | ok first =>
    cases c.expectBool ruleName "allowNext" with
    | error e => cases first <;> rfl
    | ok second => cases first <;> cases second <;> rfl

theorem ofConfig_of_unknown {keys : List String} (h : c.unknownOptions optionKeys = key :: keys) :
    Settings.ofConfig c =
      .error (.invalidOption ruleName key (.unknown ["allow_next", "allowNext"])) := by
  unfold Settings.ofConfig
  rw [h]
  rfl

/-- The first of the unknown options has the least bytes. -/
theorem isLeast_of_unknownOptions {keys : List String}
    (h : c.unknownOptions optionKeys = key :: keys) :
    HasUnknown c key ∧ ∀ other, HasUnknown c other → bytes key.toList ≤ bytes other.toList := by
  have hsorted := c.unknownOptions_pairwise optionKeys
  simp only [hasUnknown_iff, h, ← le_iff_bytes_le] at hsorted ⊢
  refine ⟨List.mem_cons_self, ?_⟩
  intro other hother
  rcases List.mem_cons.mp hother with rfl | hlater
  · exact String.le_refl _
  · exact List.rel_of_pairwise_cons hsorted hlater

theorem HasMistyped.unique {v w : Toml.Value} (hkeys : c.KeysDistinct) (h : HasMistyped c key v)
    (h' : HasMistyped c key w) : v = w := by
  have hv := (option?_eq_some_iff hkeys).mpr h.1
  rw [(option?_eq_some_iff hkeys).mpr h'.1] at hv
  exact (Option.some.inj hv).symm

theorem Complaint.unique {other : String} {fault fault' : OptionFault}
    (hkeys : c.KeysDistinct) (h : Complaint c key fault) (h' : Complaint c other fault') :
    key = other ∧ fault = fault' := by
  cases h with
  | unknown hunknown hleast =>
    cases h' with
    | unknown hunknown' hleast' =>
      have hle := le_iff_bytes_le.mpr (hleast other hunknown')
      have hge := le_iff_bytes_le.mpr (hleast' key hunknown)
      exact ⟨String.le_antisymm hle hge, rfl⟩
    | first hnone _ => exact absurd hunknown (hnone _)
    | second hnone _ _ => exact absurd hunknown (hnone _)
  | first hnone hmistyped =>
    cases h' with
    | unknown hunknown _ => exact absurd hunknown (hnone _)
    | first _ hmistyped' => exact ⟨rfl, by rw [hmistyped.unique hkeys hmistyped']⟩
    | second _ hfine _ => exact absurd hmistyped (hfine _)
  | second hnone hfine hmistyped =>
    cases h' with
    | unknown hunknown _ => exact absurd hunknown (hnone _)
    | first _ hmistyped' => exact absurd hmistyped' (hfine _)
    | second _ _ hmistyped' => exact ⟨rfl, by rw [hmistyped.unique hkeys hmistyped']⟩

theorem ofConfig_eq_ok_iff {s : Settings} :
    Settings.ofConfig c = .ok s ↔ (∀ key, ¬ HasUnknown c key) ∧ ∃ first second,
      c.expectBool ruleName "allow_next" = .ok first ∧
      c.expectBool ruleName "allowNext" = .ok second ∧
      s = ⟨second.getD (first.getD true), c.severity.getD .error⟩ := by
  rw [not_hasUnknown_iff]
  cases hunknown : c.unknownOptions optionKeys with
  | cons key keys => simp [ofConfig_of_unknown hunknown]
  | nil =>
    rw [ofConfig_of_known hunknown, bind_eq_ok_iff, eq_self, true_and]
    refine exists_congr fun first => ?_
    cases c.expectBool ruleName "allowNext" <;> simp [Except.map, eq_comm]

/-- What is reported is what is to be said against the options. -/
theorem exists_complaint_of_error (hkeys : c.KeysDistinct) {e : ConfigError}
    (h : Settings.ofConfig c = .error e) :
    ∃ key fault, Complaint c key fault ∧ e = .invalidOption ruleName key fault := by
  cases hunknown : c.unknownOptions optionKeys with
  | cons key keys =>
    obtain ⟨hkey, hleast⟩ := isLeast_of_unknownOptions hunknown
    rw [ofConfig_of_unknown hunknown] at h
    exact ⟨key, _, .unknown hkey hleast, (Except.error.inj h).symm⟩
  | nil =>
    have hnone := not_hasUnknown_iff.mpr hunknown
    rw [ofConfig_of_known hunknown] at h
    rcases bind_eq_error_iff.mp h with hfirst | ⟨first, hfirst, hsecond⟩
    · obtain ⟨v, hv, rfl⟩ := (expectBool_eq_error_iff hkeys).mp hfirst
      exact ⟨_, _, .first hnone hv, rfl⟩
    · obtain ⟨v, hv, rfl⟩ := (expectBool_eq_error_iff hkeys).mp (map_eq_error_iff.mp hsecond)
      exact ⟨_, _, .second hnone (not_hasMistyped_of_ok hkeys hfirst) hv, rfl⟩

theorem Complaint.ofConfig_ne_ok (hkeys : c.KeysDistinct) {fault : OptionFault}
    (h : Complaint c key fault) (s : Settings) : Settings.ofConfig c ≠ .ok s := by
  intro hs
  obtain ⟨hnone, first, second, hfirst, hsecond, -⟩ := ofConfig_eq_ok_iff.mp hs
  cases h with
  | unknown hunknown _ => exact hnone _ hunknown
  | first _ hmistyped => exact not_hasMistyped_of_ok hkeys hfirst _ hmistyped
  | second _ _ hmistyped => exact not_hasMistyped_of_ok hkeys hsecond _ hmistyped

theorem ofConfig_eq_error_iff (hkeys : c.KeysDistinct) {e : ConfigError} :
    Settings.ofConfig c = .error e ↔
      ∃ key fault, Complaint c key fault ∧ e = .invalidOption ruleName key fault := by
  refine ⟨exists_complaint_of_error hkeys, ?_⟩
  rintro ⟨key, fault, h, rfl⟩
  cases hresult : Settings.ofConfig c with
  | ok s => exact absurd hresult (h.ofConfig_ne_ok hkeys s)
  | error e =>
    obtain ⟨other, fault', h', rfl⟩ := exists_complaint_of_error hkeys hresult
    obtain ⟨rfl, rfl⟩ := h.unique hkeys h'
    rfl

theorem allowsSingle_of_ofConfig (hkeys : c.KeysDistinct) {s : Settings}
    (h : Settings.ofConfig c = .ok s) :
    AllowsSingle c s.allowNext ∧ s.severity = c.severity.getD .error := by
  obtain ⟨-, first, second, hfirst, hsecond, rfl⟩ := ofConfig_eq_ok_iff.mp h
  refine ⟨?_, rfl⟩
  cases second with
  | some b => exact .second ((expectBool_eq_ok_some_iff hkeys).mp hsecond)
  | none =>
    have habsent := expectBool_eq_ok_none_iff.mp hsecond
    cases first with
    | some b => exact .first habsent ((expectBool_eq_ok_some_iff hkeys).mp hfirst)
    | none => exact .unset habsent (expectBool_eq_ok_none_iff.mp hfirst)

theorem validOptions_iff (hkeys : c.KeysDistinct) :
    ValidOptions c ↔ ∀ o ∈ c.options,
      (o.1 = "allow_next" ∨ o.1 = "allowNext") ∧ ∃ b, o.2 = .boolean b := by
  refine forall₂_congr fun o ho => ?_
  rw [(option?_eq_some_iff hkeys).mpr ho, optionKeys]
  simp

theorem ofConfig_of_perm {d : RuleConfig} (hkeys : c.KeysDistinct)
    (hseverity : d.severity = c.severity) (hperm : c.options.Perm d.options) :
    Settings.ofConfig d = Settings.ofConfig c := by
  have hoption (rule key : String) : d.expectBool rule key = c.expectBool rule key := by
    rw [expectBool, expectBool, option?_of_perm hkeys hperm]
  have hunknown := unknownOptions_of_perm hperm optionKeys
  cases h : c.unknownOptions optionKeys with
  | cons key keys => rw [ofConfig_of_unknown h, ofConfig_of_unknown (hunknown.trans h)]
  | nil =>
    rw [ofConfig_of_known h, ofConfig_of_known (hunknown.trans h), hoption, hoption, hseverity]

/-- The options are taken exactly if the rule knows them and each is a boolean. Otherwise the
unknown option with the least bytes is named or, if all are known, the first spelling whose value is
no boolean. What is taken is the value of the second spelling, or else of the first, and a severity
that is error unless the table sets another. The order of the options does not matter. -/
theorem options_read_in_any_order {c : RuleConfig} (hkeys : c.KeysDistinct) :
    ((∃ s, Settings.ofConfig c = .ok s) ↔ ∀ o ∈ c.options,
      (o.1 = "allow_next" ∨ o.1 = "allowNext") ∧ ∃ b, o.2 = .boolean b) ∧
    (∀ e, Settings.ofConfig c = .error e ↔
      ∃ key fault, Complaint c key fault ∧ e = .invalidOption "prefer-observer" key fault) ∧
    (∀ s, Settings.ofConfig c = .ok s →
      AllowsSingle c s.allowNext ∧ s.severity = c.severity.getD .error) ∧
    ∀ d : RuleConfig, d.severity = c.severity → c.options.Perm d.options →
      Settings.ofConfig d = Settings.ofConfig c := by
  refine ⟨?_, fun e => ofConfig_eq_error_iff hkeys, fun s => allowsSingle_of_ofConfig hkeys,
    fun d => ofConfig_of_perm hkeys⟩
  rw [exists_ofConfig_iff, validOptions_iff hkeys]

/-- A table with two unknown options and a value of the wrong type. -/
def muddled : RuleConfig where
  options := [("😀", .integer 1), ("allow_next", .string "no"), ("\uffff", .boolean true)]

/-- The unknown option with the lesser bytes is named, though it comes last. -/
theorem muddled_names_least :
    muddled.KeysDistinct ∧
      Settings.ofConfig muddled = .error (.invalidOption "prefer-observer" "\uffff"
        (.unknown ["allow_next", "allowNext"])) ∧
      Settings.ofConfig { muddled with options := muddled.options.reverse } =
        Settings.ofConfig muddled := by
  have hkeys : muddled.KeysDistinct := by
    unfold KeysDistinct
    decide
  have hunknown (key : String) : HasUnknown muddled key ↔ key = "😀" ∨ key = "\uffff" := by
    rw [HasUnknown]
    constructor
    · rintro ⟨⟨v, hv⟩, hfirst, -⟩
      have hmem : key ∈ muddled.options.map Prod.fst := List.mem_map_of_mem hv
      simp only [muddled, List.map_cons, List.map_nil, List.mem_cons, List.not_mem_nil] at hmem
      tauto
    · rintro (rfl | rfl)
      · exact ⟨⟨_, List.mem_cons_self⟩, by decide, by decide⟩
      · exact ⟨⟨_, List.mem_cons_of_mem _ (List.mem_cons_of_mem _ List.mem_cons_self)⟩, by decide,
          by decide⟩
  obtain ⟨-, herror, -, hperm⟩ := options_read_in_any_order hkeys
  refine ⟨hkeys, (herror _).mpr ⟨_, _, .unknown ?_ ?_, rfl⟩,
    hperm _ rfl muddled.options.reverse_perm.symm⟩
  · exact (hunknown _).mpr (Or.inr rfl)
  · intro other hother
    rcases (hunknown other).mp hother with rfl | rfl
    · decide
    · exact List.le_refl _

end PreferObserver

end ObserverLint
