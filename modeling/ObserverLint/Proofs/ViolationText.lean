import ObserverLint.Proofs.JsonText
import ObserverLint.Violation.Json

namespace ObserverLint

theorem Json.word?_eq_some_iff {j : Json} {n : Nat} :
    j.word? = some n ↔ j = .nat n ∧ n < UInt64.size := by
  cases j <;> simp [word?, UInt64.size]
  omega

namespace Location

structure Fits (l : Location) : Prop where
  line : l.line < UInt64.size
  column : l.column < UInt64.size
  offset : l.offset < UInt64.size
  length : l.length < UInt64.size

theorem fits_of_ofParts? {file line column offset length : Json} {l : Location}
    (h : ofParts? file line column offset length = some l) : l.Fits := by
  simp only [ofParts?, Option.bind_eq_bind, Option.bind_eq_some_iff, Json.word?_eq_some_iff] at h
  obtain ⟨_, -, _, ⟨-, hline⟩, _, ⟨-, hcolumn⟩, _, ⟨-, hoffset⟩, _, ⟨-, hlength⟩, hl⟩ := h
  cases hl
  exact ⟨hline, hcolumn, hoffset, hlength⟩

/-- Whichever way a location is spelled, its numbers are words. -/
theorem fits_of_ofJson? {j : Json} {l : Location} (h : ofJson? j = some l) : l.Fits := by
  unfold ofJson? at h
  split at h
  · exact fits_of_ofParts? h
  · simp only [Option.bind_eq_bind, Option.bind_eq_some_iff] at h
    obtain ⟨_, -, _, -, _, -, _, -, _, -, hparts⟩ := h
    exact fits_of_ofParts? hparts
  · cases h

theorem ofJson?_toJson {l : Location} (h : l.Fits) : ofJson? l.toJson = some l := by
  have hline : (Json.nat l.line).word? = some l.line := Json.word?_eq_some_iff.mpr ⟨rfl, h.line⟩
  have hcolumn : (Json.nat l.column).word? = some l.column :=
    Json.word?_eq_some_iff.mpr ⟨rfl, h.column⟩
  have hoffset : (Json.nat l.offset).word? = some l.offset :=
    Json.word?_eq_some_iff.mpr ⟨rfl, h.offset⟩
  have hlength : (Json.nat l.length).word? = some l.length :=
    Json.word?_eq_some_iff.mpr ⟨rfl, h.length⟩
  have hparts : ofParts? (.string l.file.text) (.nat l.line) (.nat l.column) (.nat l.offset)
      (.nat l.length) = some l := by
    simp only [ofParts?, hline, hcolumn, hoffset, hlength, Json.text?, Option.bind_eq_bind,
      Option.bind_some]
  exact hparts

end Location

theorem Severity.ofJson?_label (s : Severity) : ofJson? (.string s.label) = some s := by
  cases s <;> rfl

theorem Suggestion.ofJson?_toJson (s : Option Suggestion) :
    ofJson? ((s.map toJson).getD .null) = some s := by
  cases s <;> rfl

namespace Violation

theorem optionalText?_of_text (text : Option String) :
    ((text.map Json.string).getD .null).optionalText? = some text := by
  cases text <;> rfl

/-- The fields of a violation, each found under its name. -/
theorem ofJson?_toJson_eq (v : Violation) :
    ofJson? v.toJson = ofParts? (.string v.code) (.string v.rule) (.string v.severity.label)
      v.location.toJson (.string v.message) ((v.messageId.map Json.string).getD .null)
      ((v.suggestion.map Suggestion.toJson).getD .null)
      ((v.docRef.map Json.string).getD .null) := by
  rcases v with ⟨code, rule, severity, location, message, messageId, suggestion, docRef⟩
  cases messageId <;> cases docRef <;> rfl

theorem ofJson?_toJson {v : Violation} (h : v.location.Fits) : ofJson? v.toJson = some v := by
  rw [ofJson?_toJson_eq]
  simp only [ofParts?, Json.text?, Severity.ofJson?_label, Location.ofJson?_toJson h,
    optionalText?_of_text, Suggestion.ofJson?_toJson, Option.bind_eq_bind, Option.bind_some]

theorem isPlain_toJson (v : Violation) : v.toJson.isPlain = true := by
  rcases v with ⟨code, rule, severity, location, message, messageId, suggestion, docRef⟩
  cases messageId <;> cases suggestion <;> cases docRef <;> rfl

theorem parse?_render {v : Violation} (h : v.location.Fits) : parse? v.render = some v := by
  rw [parse?, render, Json.parse?_compact v.isPlain_toJson, Option.bind_some, ofJson?_toJson h]

theorem fits_of_ofParts? {code rule severity location message messageId suggestion docRef : Json}
    {v : Violation}
    (h : ofParts? code rule severity location message messageId suggestion docRef = some v) :
    v.location.Fits := by
  simp only [ofParts?, Option.bind_eq_bind, Option.bind_eq_some_iff] at h
  obtain ⟨_, -, _, -, _, -, _, hlocation, _, -, _, -, _, -, _, -, hv⟩ := h
  cases hv
  exact Location.fits_of_ofJson? hlocation

theorem fits_of_ofJson? {j : Json} {v : Violation} (h : ofJson? j = some v) :
    v.location.Fits := by
  unfold ofJson? at h
  split at h
  · exact fits_of_ofParts? h
  · exact fits_of_ofParts? h
  · simp only [Option.bind_eq_bind, Option.bind_eq_some_iff] at h
    obtain ⟨_, -, _, -, _, -, _, -, _, -, _, -, _, -, _, -, hparts⟩ := h
    exact fits_of_ofParts? hparts
  · cases h

theorem fits_of_parse? {text : String} {v : Violation} (h : parse? text = some v) :
    v.location.Fits := by
  obtain ⟨j, -, hj⟩ := Option.bind_eq_some_iff.mp h
  exact fits_of_ofJson? hj

/-- The text of a violation as it is written, if the given text is read as one. -/
def normalForm? (text : String) : Option String := (parse? text).map render

theorem parse?_of_normalForm? {text normal : String} (h : normalForm? text = some normal) :
    parse? normal = parse? text := by
  obtain ⟨v, hv, rfl⟩ := Option.map_eq_some_iff.mp h
  rw [hv, parse?_render (fits_of_parse? hv)]

/-- A violation reads back from its text exactly if its numbers are words, which they are in all
that is ever read. Writing what was read gives a normal form: it is read as the same violation, it
is its own normal form, and two texts share it only if they are read alike. -/
theorem text_reads_back_as_written :
    (∀ v : Violation, parse? v.render = some v ↔ v.location.Fits) ∧
    (∀ text v, parse? text = some v → parse? v.render = some v) ∧
    (∀ text normal, normalForm? text = some normal → normalForm? normal = some normal) ∧
    ∀ text other, normalForm? text = normalForm? other ↔ parse? text = parse? other := by
  refine ⟨fun v => ⟨fits_of_parse?, parse?_render⟩, ?_, ?_, ?_⟩
  · intro text v h
    exact parse?_render (fits_of_parse? h)
  · intro text normal h
    rw [normalForm?, parse?_of_normalForm? h]
    exact h
  · intro text other
    constructor
    · intro h
      cases hnormal : normalForm? text with
      | none =>
        have hother : normalForm? other = none := h ▸ hnormal
        rw [Option.map_eq_none_iff.mp hnormal, Option.map_eq_none_iff.mp hother]
      | some normal =>
        have hother : normalForm? other = some normal := h ▸ hnormal
        rw [← parse?_of_normalForm? hnormal, ← parse?_of_normalForm? hother]
    · intro h
      rw [normalForm?, normalForm?, h]

def farAway : Violation where
  code := "T\x00\\"
  rule := "m"
  severity := .error
  location := { file := ⟨"ä\"b.ts"⟩, line := UInt64.size - 1, column := 0 }
  message := "😀\n"

/-- The fields in another order, one more among them, the location and the severity in their other
forms, and characters written as escapes. -/
def farAwayRespelled : String :=
  "\x7b \"message\" : \"\\ud83d\\ude00\\n\", \"more\":[1.5, \x7b\x7d], \"rule\":\"m\",\n" ++
    "\"location\":[\"\\u00e4\\\"b.ts\",18446744073709551615,0,0,0],\n" ++
    "\"severity\":\x7b\"error\":null\x7d, \"code\":\"T\\u0000\\\\\" \x7d"

theorem farAway_reads_back :
    farAway.location.Fits ∧ parse? farAwayRespelled = some farAway ∧
      parse? farAway.render = some farAway ∧
      normalForm? farAwayRespelled = some farAway.render ∧
      normalForm? farAway.render = some farAway.render := by
  have hparse : parse? farAwayRespelled = some farAway := by decide +kernel
  have hnormal : normalForm? farAwayRespelled = some farAway.render := by
    rw [normalForm?, hparse, Option.map_some]
  have hback : parse? farAway.render = some farAway :=
    text_reads_back_as_written.2.1 farAwayRespelled farAway hparse
  exact ⟨(text_reads_back_as_written.1 farAway).mp hback, hparse, hback, hnormal,
    text_reads_back_as_written.2.2.1 farAwayRespelled farAway.render hnormal⟩

end Violation

end ObserverLint
