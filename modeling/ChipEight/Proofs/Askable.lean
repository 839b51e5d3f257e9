import ChipEight.Proofs.SavedSettings
/-! # Which settings can be asked

Validation asks the sections of a user's settings for what its rules speak of, and it does so whatever
stands in their place.  A mapping can be asked for each name; a list or a text can be asked too, but
where the name occurs in it there is nothing to read; of anything else nothing can be asked.  So a
check does not always end with what is wrong: it does if all that it has to ask can be asked
(`Config.Askable`), and otherwise it fails, and with it the load (`Config.loads_answer`). -/

namespace ChipEight

/-- Whoever asks gets an answer exactly if it can be asked. -/
structure AnswersIf {α : Type} (askable : Prop) (answer : Except Failure α) : Prop where
  answers : askable → ∃ x, answer = .ok x
  fails : ¬ askable → answer = .error .wrongKind

namespace AnswersIf

variable {α β : Type} {askable askable' : Prop} {answer : Except Failure α}

theorem ok (x : α) : AnswersIf True (.ok x) := ⟨fun _ => ⟨x, rfl⟩, fun no => absurd trivial no⟩

theorem wrongKind : AnswersIf (α := α) False (.error .wrongKind) := ⟨False.elim, fun _ => rfl⟩

theorem congr (h : AnswersIf askable answer) (same : askable' ↔ askable) :
    AnswersIf askable' answer :=
  ⟨fun yes => h.answers (same.mp yes), fun no => h.fails fun yes => no (same.mpr yes)⟩

theorem ok_iff (h : AnswersIf askable answer) : (∃ x, answer = .ok x) ↔ askable := by
  refine ⟨fun ⟨x, answered⟩ => Classical.byContradiction fun no => ?_, h.answers⟩
  cases answered.symm.trans (h.fails no)

/-- Of two questions both must be possible, if nothing that the first may find prevents the
second. -/
theorem bind (first : AnswersIf askable answer) {next : α → Except Failure β}
    (second : ∀ x, AnswersIf askable' (next x)) : AnswersIf (askable ∧ askable') (answer >>= next) := by
  by_cases yes : askable
  · obtain ⟨x, rfl⟩ := first.answers yes
    exact (second x).congr (and_iff_right yes)
  · rw [first.fails yes]
    exact wrongKind.congr (iff_of_false (fun both => yes both.1) id)

theorem mapM {xs : List β} {p : β → Prop} {check : β → Except Failure α}
    (each : ∀ x ∈ xs, AnswersIf (p x) (check x)) : AnswersIf (∀ x ∈ xs, p x) (xs.mapM check) := by
  induction xs with
  | nil => exact (ok []).congr (by simp)
  | cons x xs ih =>
    rw [List.forall_mem_cons] at each
    rw [List.mapM_cons]
    have both := each.1.bind fun y => (ih each.2).bind fun ys => ok (y :: ys)
    exact both.congr (by simp)

end AnswersIf

namespace Datum

variable {name : String} {d : Datum}

/-- A value can be asked if it has something under a name: it is a mapping, or the name does not
occur in it. -/
def Answers (name : String) : Datum → Prop
  | dict _ => True
  | list items => ∀ item ∈ items, item ≠ .text name
  | text s => ¬ name.toList <:+: s.toList
  | null | bool _ | number _ => False

instance (name : String) : DecidablePred (Answers name)
  | dict _ => .isTrue trivial
  | list items => decidable_of_iff (items.any (same · (.text name)) = false) (by
      rw [List.any_eq_false]
      simp only [same_text, Answers, ne_eq])
  | text s => inferInstanceAs (Decidable (¬ name.toList <:+: s.toList))
  | null | bool _ | number _ => .isFalse id

theorem contains_list (items : List Datum) : (list items).contains name = .ok false ↔
    ∀ item ∈ items, item ≠ .text name := by
  rw [contains, Except.ok.injEq, List.any_eq_false]
  simp only [same_text, ne_eq]

theorem contains_of_text (s : String) : (text s).contains name = .ok false ↔
    ¬ name.toList <:+: s.toList := by
  rw [contains, Except.ok.injEq, ← occurs_iff, Bool.not_eq_true]

/-- What has no mapping for an answer has none, or has nothing under the name. -/
theorem contains_cases (d : Datum) (name : String) : (∃ entries, d = .dict entries) ∨
    d.contains name = .error .wrongKind ∧ ¬ d.Answers name ∨
    d.contains name = .ok true ∧ d.index name = .error .wrongKind ∧ ¬ d.Answers name ∨
    d.contains name = .ok false ∧ d.Answers name := by
  have asked {found : Bool} (contained : d.contains name = .ok found)
      (answers : d.contains name = .ok false ↔ d.Answers name)
      (unread : d.index name = .error .wrongKind) :
      d.contains name = .ok true ∧ d.index name = .error .wrongKind ∧ ¬ d.Answers name ∨
        d.contains name = .ok false ∧ d.Answers name := by
    rw [← answers, contained]
    cases found with
    | true => exact .inl ⟨rfl, unread, by simp⟩
    | false => exact .inr ⟨rfl, rfl⟩
  cases d with
  | dict entries => exact .inl ⟨entries, rfl⟩
  | null | bool _ | number _ => exact .inr (.inl ⟨rfl, id⟩)
  | list items => exact .inr (.inr (asked rfl (contains_list items) rfl))
  | text s => exact .inr (.inr (asked rfl (contains_of_text s) rfl))

end Datum

namespace Config

open Datum

variable {entries : List (Datum × Datum)} {c : Config}

/-! ## One check after the other -/

/-- What a rule speaks of can be asked for. -/
def Rule.Askable (rule : Rule) (entries : List (Datum × Datum)) : Prop :=
  ∀ group ∈ lookup (.text rule.group) entries, group.Answers rule.setting

instance (rule : Rule) (entries : List (Datum × Datum)) : Decidable (rule.Askable entries) :=
  inferInstanceAs (Decidable (∀ group ∈ lookup _ entries, _))

/-- A rule finds fault with a value or not, but it does not fail. -/
theorem Rule.check_value (rule : Rule) (value : Datum) : ∃ found : List String,
    (if rule.accepts value then pure []
      else pure [s!"Invalid {rule.group}.{rule.setting}: {value.shown}. {rule.demand}"] :
      Except Failure (List String)) = .ok found := by
  split <;> exact ⟨_, rfl⟩

theorem Rule.check_mapping (rule : Rule) (group : List (Datum × Datum))
    (there : lookup (.text rule.group) entries = some (.dict group)) :
    ∃ found, rule.check (.dict entries) = .ok found := by
  rw [check, Datum.getD, there]
  cases set_ : lookup (.text rule.setting) group with
  | none =>
    simp only [Option.getD_some, bind, Except.bind, Datum.contains, set_]
    exact ⟨[], rfl⟩
  | some value =>
    simp only [Option.getD_some, bind, Except.bind, Datum.contains, Datum.index, set_]
    exact rule.check_value value

theorem Rule.check_answers (rule : Rule) (entries : List (Datum × Datum)) :
    AnswersIf (rule.Askable entries) (rule.check (.dict entries)) := by
  cases there : lookup (.text rule.group) entries with
  | none =>
    have none_ : rule.check (.dict entries) = .ok [] := by
      rw [check, Datum.getD, there]
      rfl
    rw [none_]
    exact (AnswersIf.ok []).congr (by simp [Askable, there])
  | some group =>
    have asked : rule.Askable entries ↔ group.Answers rule.setting := by simp [Askable, there]
    rcases group.contains_cases rule.setting with
      ⟨inner, rfl⟩ | ⟨failed, no⟩ | ⟨occurs_, unread, no⟩ | ⟨absent, yes⟩
    · obtain ⟨found, checked⟩ := rule.check_mapping inner there
      rw [checked]
      exact (AnswersIf.ok found).congr (asked.trans (iff_true_intro trivial))
    · rw [check, Datum.getD, there]
      simp only [Option.getD_some, bind, Except.bind, failed]
      exact AnswersIf.wrongKind.congr (asked.trans (iff_false_intro no))
    · rw [check, Datum.getD, there]
      simp only [Option.getD_some, bind, Except.bind, occurs_, unread, if_true]
      exact AnswersIf.wrongKind.congr (asked.trans (iff_false_intro no))
    · rw [check, Datum.getD, there]
      simp only [Option.getD_some, bind, Except.bind, absent, Bool.false_eq_true, if_false]
      exact (AnswersIf.ok []).congr (asked.trans (iff_true_intro yes))

theorem checkMachine_answers (entries : List (Datum × Datum)) :
    AnswersIf (∀ kind ∈ lookup (.text "machine") entries, kind.isKey = true)
      (checkMachine (.dict entries)) := by
  cases there : lookup (.text "machine") entries with
  | none =>
    have none_ : checkMachine (.dict entries) = .ok [] := by
      simp only [checkMachine, bind, Except.bind, Datum.contains, there]
      rfl
    rw [none_]
    exact (AnswersIf.ok []).congr (by simp)
  | some kind =>
    have asked : (∀ kind' ∈ some kind, kind'.isKey = true) ↔ kind.isKey = true := by simp
    simp only [checkMachine, bind, Except.bind, Datum.contains, Datum.index, there,
      Option.isSome_some, if_true]
    cases hashed : kind.isKey with
    | false => exact AnswersIf.wrongKind.congr (by simp [hashed])
    | true =>
      by_cases known : isOneOf (machines.map Prod.fst) kind = true
      · simp only [if_true, known]
        exact (AnswersIf.ok []).congr (by simp [hashed])
      · simp only [if_true, known]
        exact (AnswersIf.ok _).congr (by simp [hashed])

/-- The keymap can be asked, whatever it is. -/
theorem checkKeymap_answers (entries : List (Datum × Datum)) :
    AnswersIf True (checkKeymap (.dict entries)) := by
  refine ⟨fun _ => ?_, fun no => absurd trivial no⟩
  cases there : lookup (.text "keymap") entries with
  | none =>
    simp only [checkKeymap, bind, Except.bind, Datum.contains, there]
    exact ⟨[], rfl⟩
  | some keymap =>
    simp only [checkKeymap, bind, Except.bind, Datum.contains, Datum.index, there,
      Option.isSome_some, if_true]
    cases keymap <;> exact ⟨_, rfl⟩

/-! ## All checks -/

/-- All that validation asks for can be asked. -/
structure Askable (entries : List (Datum × Datum)) : Prop where
  machine : ∀ kind ∈ lookup (.text "machine") entries, kind.isKey = true
  rules : ∀ rule ∈ rules, rule.Askable entries

instance (entries : List (Datum × Datum)) : Decidable (Askable entries) :=
  decidable_of_iff (_ ∧ _) ⟨fun ⟨machine, rules⟩ => ⟨machine, rules⟩, fun h => ⟨h.machine, h.rules⟩⟩

theorem validate_answers (entries : List (Datum × Datum)) :
    AnswersIf (Askable entries) (validate (.dict entries)) := by
  have each (rules : List Rule) := AnswersIf.mapM fun rule (_ : rule ∈ rules) =>
    rule.check_answers entries
  have all := (checkMachine_answers entries).bind fun machine =>
    (each rulesBeforeKeymap).bind fun first => (checkKeymap_answers entries).bind fun keymap =>
      (each rulesBehindKeymap).bind fun rest =>
        AnswersIf.ok (machine ++ first.flatten ++ keymap ++ rest.flatten)
  refine all.congr ⟨fun askable => ?_, fun ⟨machine, first, _, rest, _⟩ => ⟨machine, ?_⟩⟩
  · exact ⟨askable.machine,
      fun rule mem => askable.rules rule (List.mem_append_left _ mem), trivial,
      fun rule mem => askable.rules rule (List.mem_append_right _ mem), trivial⟩
  · intro rule mem
    exact (List.mem_append.mp mem).elim (first rule) (rest rule)

/-! ## Loads -/

theorem loadDatum_of_error {e : Failure} (failed : validate (.dict entries) = .error e) :
    c.loadDatum (.dict entries) = (c, [], .error e) := by
  rw [loadDatum, accept, failed]
  rfl

theorem loadDatum_of_ok {problems : List String}
    (checked : validate (.dict entries) = .ok problems) :
    (c.loadDatum (.dict entries)).2.2 = .ok problems.isEmpty := by
  rw [loadDatum, accept, checked]
  cases problems <;> rfl

variable {yaml : YamlLibrary}

/-- A file holds settings, in the format that its name tells; what a library for YAML reads is for
the library to say. -/
def Holds (yaml : YamlLibrary) (fs : Files) (path : String) (entries : List (Datum × Datum)) :
    Prop :=
  ∃ format text, Format.ofExtension? (Text.lower (Files.extension path)) = some format ∧
    fs.readText path = .ok text ∧ format.parse yaml path text = .ok (.dict entries)

/-- To load a file is to load the settings that it holds. -/
theorem load_holding {fs : Files} {path : String} (holds : Holds yaml fs path entries)
    (c : Config) : (c.load fs path yaml).1 = (c.loadDatum (.dict entries)).1 ∧
      (c.load fs path yaml).2.2 = (c.loadDatum (.dict entries)).2.2 := by
  obtain ⟨format, text, known, there, parsed⟩ := holds
  simp only [load, known, Files.exists_of_readText there, Bool.not_true, there, parsed,
    Bool.false_eq_true, if_false, loadDatum]
  cases accepted : c.accept (.dict entries) with
  | error e => exact ⟨rfl, rfl⟩
  | ok taken =>
    obtain ⟨c', problems⟩ := taken
    cases problems <;> exact ⟨rfl, rfl⟩

/-- **A load answers exactly if its settings can be asked.**  Then validation says what is wrong, and
the load says if that is nothing; otherwise both fail, and the configuration is as it was.  The same
holds of a file that holds the settings. -/
theorem loads_answer (c : Config) (entries : List (Datum × Datum)) :
    ((∃ problems, validate (.dict entries) = .ok problems ∧
      (c.loadDatum (.dict entries)).2.2 = .ok problems.isEmpty) ↔ Askable entries) ∧
    (¬ Askable entries → validate (.dict entries) = .error .wrongKind ∧
      c.loadDatum (.dict entries) = (c, [], .error .wrongKind)) ∧
    ∀ yaml fs path, Holds yaml fs path entries →
      (c.load fs path yaml).1 = (c.loadDatum (.dict entries)).1 ∧
      (c.load fs path yaml).2.2 = (c.loadDatum (.dict entries)).2.2 := by
  have answers := validate_answers entries
  refine ⟨⟨fun ⟨problems, checked, _⟩ => answers.ok_iff.mp ⟨problems, checked⟩, fun askable => ?_⟩,
    fun no => ?_, fun _ _ _ holds => load_holding holds c⟩
  · obtain ⟨problems, checked⟩ := answers.answers askable
    exact ⟨problems, checked, loadDatum_of_ok checked⟩
  · have failed := answers.fails no
    exact ⟨failed, loadDatum_of_error failed⟩

/-- A text in place of a section, and a setting that its rule refuses. -/
def mixed : List (Datum × Datum) := [
  (.text "trace", .text "on"), (.text "display", .record [("pixel_scale", .int 0)])]

def mixedText : String :=
  "\x7b\"trace\": \"on\", \"display\": \x7b\"pixel_scale\": 0\x7d\x7d"

/-- A section with nothing in it. -/
def blank : List (Datum × Datum) := [(.text "cpu", .null)]

/-- A file of one text. -/
def fileOf (name text : String) : Files := ({} : Files).set [name] (.file text.toUTF8)

def blankText : String := "\x7b\"cpu\": null\x7d"

set_option maxRecDepth 20000 in
theorem holds_mixed (yaml : YamlLibrary) :
    Holds yaml (fileOf "c.json" mixedText) "c.json" mixed := by
  refine ⟨.json, mixedText, by decide +kernel, by cbv, ?_⟩
  rw [Format.parse, show mixedText = String.ofList _ from rfl, Json.read.eq_def]
  simp only [String.toList_ofList]
  cbv

set_option maxRecDepth 20000 in
theorem holds_blank (yaml : YamlLibrary) :
    Holds yaml (fileOf "c.json" blankText) "c.json" blank := by
  refine ⟨.json, blankText, by decide +kernel, by cbv, ?_⟩
  rw [Format.parse, show blankText = String.ofList _ from rfl, Json.read.eq_def]
  simp only [String.toList_ofList]
  cbv

theorem loads_answer_mixed : Askable mixed ∧ ¬ Askable blank ∧ ∀ yaml,
    Holds yaml (fileOf "c.json" mixedText) "c.json" mixed ∧
    (∃ problems, validate (.dict mixed) = .ok problems ∧
      (default.load (fileOf "c.json" mixedText) "c.json" yaml).2.2 = .ok problems.isEmpty) ∧
    Holds yaml (fileOf "c.json" blankText) "c.json" blank ∧
    (default.load (fileOf "c.json" blankText) "c.json" yaml).2.2 = .error .wrongKind := by
  have askable : Askable mixed := by decide
  have blank_ : ¬ Askable blank := by decide
  obtain ⟨answers, -, files⟩ := loads_answer default mixed
  obtain ⟨-, fails, files'⟩ := loads_answer default blank
  obtain ⟨problems, checked, answered⟩ := answers.mpr askable
  refine ⟨askable, blank_, fun yaml => ⟨holds_mixed yaml, ⟨problems, checked, ?_⟩,
    holds_blank yaml, ?_⟩⟩
  · rw [(files _ _ _ (holds_mixed yaml)).2, answered]
  · rw [(files' _ _ _ (holds_blank yaml)).2, (fails blank_).2]

/-- A section with nothing in it is no mapping, in a file as elsewhere. -/
theorem blank_section_fails : validate (.dict blank) = .error .wrongKind ∧
    (default.loadDatum (.dict blank)).2.2 = .error .wrongKind ∧
    (default.load (fileOf "c.json" blankText) "c.json").2.2 = .error .wrongKind := by
  refine ⟨rfl, rfl, ?_⟩
  rw [(load_holding (holds_blank Yaml.library) default).2]
  rfl

end Config
end ChipEight
