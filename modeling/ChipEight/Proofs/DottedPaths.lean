import ChipEight.Proofs.Sharing
import ChipEight.Request.Configure
/-! # Reading along paths what was written along paths

A tree of settings is read and written along paths, each of them a list of names.  Two paths are
apart if neither begins with the other.  A write at a path is read there (`Config.found_setAt`), and
nowhere apart from it (`Config.found_setAt_of_apart`), whatever it has put on its way in place of
what is no section.  Where all sections on the way are there, a reset is a write of the default value
(`Config.reset_eq_set`). -/

namespace ChipEight

namespace Datum

variable {name : String} {entries : List (Datum × Datum)}

theorem index_eq (d : Datum) (name : String) : (d.index name).toOption = d.field? name := by
  cases d with
  | dict entries =>
    rw [index, field?]
    cases lookup (.text name) entries <;> rfl
  | _ => rfl

theorem field?_insert (name name' : String) (value : Datum) (entries : List (Datum × Datum)) :
    (dict (insert (.text name) value entries)).field? name' =
      if name = name' then some value else (dict entries).field? name' := by
  rw [field?, lookup_insert, field?]
  simp only [sameKey_text, text.injEq]

theorem insert_insert (name : String) (value value' : Datum) (entries : List (Datum × Datum)) :
    insert (.text name) value' (insert (.text name) value entries) =
      insert (.text name) value' entries := by
  induction entries with
  | nil => exact if_pos (sameKey_text.mpr rfl)
  | cons entry rest ih =>
    obtain ⟨k, v⟩ := entry
    rw [insert, insert]
    split
    · rw [insert, if_pos ‹_›]
    · rw [insert, if_neg ‹_›, ih]

end Datum

namespace Config

open Datum

variable {c : Config} {key key' : String} {names names' : List String} {value : Datum}

/-! ## Paths -/

/-- Neither path begins with the other. -/
def Apart (names names' : List String) : Prop := ¬ names <+: names' ∧ ¬ names' <+: names

instance (names names' : List String) : Decidable (Apart names names') :=
  inferInstanceAs (Decidable (_ ∧ _))

theorem Apart.ne_nil (apart : Apart names names') : names ≠ [] ∧ names' ≠ [] :=
  ⟨fun none_ => apart.1 (none_ ▸ List.nil_prefix), fun none_ => apart.2 (none_ ▸ List.nil_prefix)⟩

theorem apart_cons {name name' : String} :
    Apart (name :: names) (name' :: names') ↔ name ≠ name' ∨ Apart names names' := by
  by_cases same : name = name'
  · subst same
    simp [Apart, List.cons_prefix_cons]
  · simp [Apart, List.cons_prefix_cons, same, Ne.symm same]

theorem path_ne_nil (key : String) : path key ≠ [] := by
  simp [path, List.splitOn_ne_nil]

/-! ## Reading -/

/-- What a path leads to, if it leads to something. -/
def found : List String → Datum → Option Datum
  | [], d => some d
  | name :: rest, d => (d.field? name).bind (found rest)

theorem found_eq (names : List String) (d : Datum) : (valueAt names d).toOption = found names d := by
  induction names generalizing d with
  | nil => rfl
  | cons name rest ih =>
    rw [valueAt, found, ← index_eq]
    cases d.index name with
    | error e => rfl
    | ok inner => exact ih inner

theorem get_eq (c : Config) (key : String) (default : Datum) :
    c.get key default = (found (path key) c.toDatum).getD default := by
  rw [get, ← found_eq]
  cases valueAt (path key) c.toDatum <;> rfl

/-! ## Writing -/

/-- The section under a name that a write goes into. -/
def sectionOf (name : String) (entries : List (Datum × Datum)) : List (Datum × Datum) :=
  match lookup (.text name) entries with
  | some (.dict inner) => inner
  | _ => []

theorem setAt_cons {name : String} (some_ : names ≠ []) (value : Datum)
    (entries : List (Datum × Datum)) : setAt value (name :: names) entries =
      Datum.insert (.text name) (.dict (setAt value names (sectionOf name entries))) entries := by
  cases names with
  | nil => exact absurd rfl some_
  | cons next rest => rfl

/-- A write is read where it was made. -/
theorem found_setAt (some_ : names ≠ []) (value : Datum) (entries : List (Datum × Datum)) :
    found names (.dict (setAt value names entries)) = some value := by
  induction names generalizing entries with
  | nil => exact absurd rfl some_
  | cons name rest ih =>
    by_cases last : rest = []
    · rw [last, setAt, found, field?_insert, if_pos rfl]
      rfl
    · rw [setAt_cons last, found, field?_insert, if_pos rfl]
      exact ih last (sectionOf name entries)

/-- Along some more names nothing else is found in the section that a write goes into than was found
before. -/
theorem found_sectionOf {name : String} (some_ : names ≠ []) (entries : List (Datum × Datum)) :
    found names (.dict (sectionOf name entries)) = found (name :: names) (.dict entries) := by
  obtain ⟨next, rest, rfl⟩ := List.exists_cons_of_ne_nil some_
  rw [sectionOf, found.eq_2 _ name, field?]
  cases lookup (.text name) entries with
  | none => rfl
  | some inner => cases inner <;> rfl

/-- **A write is read nowhere apart from where it was made.** -/
theorem found_setAt_of_apart (apart : Apart names names') (value : Datum)
    (entries : List (Datum × Datum)) :
    found names' (.dict (setAt value names entries)) = found names' (.dict entries) := by
  induction names generalizing names' entries with
  | nil => exact absurd rfl apart.ne_nil.1
  | cons name rest ih =>
    obtain ⟨name', rest', rfl⟩ := List.exists_cons_of_ne_nil apart.ne_nil.2
    by_cases same : name = name'
    · subst same
      have apart := (apart_cons.mp apart).resolve_left (· rfl)
      obtain ⟨some_, some_'⟩ := apart.ne_nil
      rw [setAt_cons some_, found, field?_insert, if_pos rfl, Option.bind_some, ih apart,
        found_sectionOf some_']
    · have elsewhere (inner : Datum) :
          found (name' :: rest') (.dict (Datum.insert (.text name) inner entries)) =
            found (name' :: rest') (.dict entries) := by
        rw [found, field?_insert, if_neg same, found]
      by_cases last : rest = []
      · rw [last, setAt, elsewhere]
      · rw [setAt_cons last, elsewhere]

/-- The second of two writes wins. -/
theorem setAt_setAt (names : List String) (value value' : Datum) (entries : List (Datum × Datum)) :
    setAt value' names (setAt value names entries) = setAt value' names entries := by
  induction names generalizing entries with
  | nil => rfl
  | cons name rest ih =>
    by_cases last : rest = []
    · rw [last, setAt, setAt, setAt, insert_insert]
    · have inner : sectionOf name (setAt value (name :: rest) entries) =
          setAt value rest (sectionOf name entries) := by
        rw [setAt_cons last, sectionOf, lookup_insert, if_pos (sameKey_text.mpr rfl)]
      rw [setAt_cons last, inner, ih, setAt_cons last, insert_insert, setAt_cons last]

/-! ## Resetting -/

/-- All sections that a path leads through are there. -/
def LeadsThrough (names : List String) (d : Datum) : Prop :=
  ∀ before, before <+: names → before ≠ names → ∃ entries, found before d = some (.dict entries)

theorem leadsThrough_single (name : String) (entries : List (Datum × Datum)) :
    LeadsThrough [name] (.dict entries) := by
  intro before begins less
  cases before with
  | nil => exact ⟨entries, rfl⟩
  | cons next rest => exact absurd (by simpa using begins) less

theorem leadsThrough_cons {name : String} {entries : List (Datum × Datum)} (some_ : names ≠ []) :
    LeadsThrough (name :: names) (.dict entries) ↔
      ∃ inner, lookup (.text name) entries = some (.dict inner) ∧
        LeadsThrough names (.dict inner) := by
  constructor
  · intro leads
    obtain ⟨inner, there⟩ := leads [name] (by simp) (by simpa using some_.symm)
    have section_ : lookup (.text name) entries = some (.dict inner) := by
      simpa [found, field?] using there
    refine ⟨inner, section_, fun before begins less => ?_⟩
    obtain ⟨entries', there'⟩ :=
      leads (name :: before) (by simpa using begins) (by simpa using less)
    rw [found, field?, section_] at there'
    exact ⟨entries', there'⟩
  · rintro ⟨inner, section_, leads⟩ before begins less
    cases before with
    | nil => exact ⟨entries, rfl⟩
    | cons next before =>
      obtain ⟨rfl, begins'⟩ := List.cons_prefix_cons.mp begins
      rw [found, field?, section_]
      exact leads before begins' (by simpa using less)

theorem defaultAt_of_found {d : Datum} (there : found names d = some value) :
    defaultAt names d = .ok value := by
  induction names generalizing d with
  | nil => exact congrArg Except.ok (Option.some.inj there)
  | cons name rest ih =>
    obtain ⟨inner, field, deeper⟩ := Option.bind_eq_some_iff.mp there
    cases d with
    | dict entries =>
      rw [field?] at field
      rw [defaultAt, contains, index, field]
      exact ih deeper
    | _ => cases field

/-- Where its sections are there, a reset of a value is a write. -/
theorem resetAt_eq_setAt {entries : List (Datum × Datum)} (some_ : names ≠ [])
    (leads : LeadsThrough names (.dict entries)) :
    resetAt (.ok value) names (.dict entries) =
      .ok (some (.dict (setAt value names entries))) := by
  induction names generalizing entries with
  | nil => exact absurd rfl some_
  | cons name rest ih =>
    by_cases last : rest = []
    · rw [last, resetAt, setAt]
      rfl
    · obtain ⟨inner, section_, leads⟩ := (leadsThrough_cons last).mp leads
      have reset := ih last leads
      rw [setAt_cons last, sectionOf, section_]
      obtain ⟨next, rest, rfl⟩ := List.exists_cons_of_ne_nil last
      rw [resetAt, contains, index, section_]
      simp only [Option.isSome_some, if_true, bind, Except.bind, reset]
      rfl

theorem reset_eq_set (there : found (path key) default.toDatum = some value)
    (leads : LeadsThrough (path key) c.toDatum) :
    c.reset key = .ok (c.set key value, true) := by
  rw [reset, defaultAt_of_found there, toDatum, resetAt_eq_setAt (path_ne_nil key) leads]
  rfl

/-- A reset that is made is a write. -/
theorem resetAt_eq_some {default_ : Except Failure Datum} {d d' : Datum} (some_ : names ≠ [])
    (done : resetAt default_ names d = .ok (some d')) :
    ∃ entries value, d = .dict entries ∧ d' = .dict (setAt value names entries) := by
  induction names generalizing d d' with
  | nil => exact absurd rfl some_
  | cons name rest ih =>
    by_cases last : rest = []
    · rw [last] at done ⊢
      cases d with
      | dict entries =>
        cases default_ with
        | error e => cases done
        | ok value =>
          cases done
          exact ⟨entries, value, rfl, rfl⟩
      | _ => cases done
    · obtain ⟨next, rest, rfl⟩ := List.exists_cons_of_ne_nil last
      rw [resetAt] at done
      cases d with
      | dict entries =>
        rw [contains, index] at done
        cases there : lookup (.text name) entries with
        | none =>
          rw [there] at done
          cases done
        | some inner =>
          rw [there] at done
          cases deeper : resetAt default_ (next :: rest) inner with
          | error e =>
            simp only [Option.isSome_some, if_true, bind, Except.bind, deeper] at done
            cases done
          | ok changed =>
            simp only [Option.isSome_some, if_true, bind, Except.bind, deeper] at done
            cases changed with
            | none => cases done
            | some changed =>
              obtain ⟨_, value, rfl, rfl⟩ := ih last deeper
              refine ⟨entries, value, rfl, ?_⟩
              rw [setAt_cons last, sectionOf, there]
              exact (Option.some.inj (Except.ok.inj done)).symm
      | list items | text s =>
        simp only [contains, index, bind, Except.bind, pure, Except.pure] at done
        split at done <;> cases done
      | _ => cases done

theorem reset_cases {tree : Config} {done : Bool} (reset_ : c.reset key = .ok (tree, done)) :
    done = false ∧ tree = c ∨ done = true ∧ ∃ value, tree = c.set key value := by
  rw [reset] at reset_
  cases made : resetAt (defaultAt (path key) default.toDatum) (path key) c.toDatum with
  | error e =>
    rw [made] at reset_
    cases reset_
  | ok changed =>
    rw [made] at reset_
    cases changed with
    | none =>
      cases reset_
      exact .inl ⟨rfl, rfl⟩
    | some d =>
      obtain ⟨entries, value, same, rfl⟩ := resetAt_eq_some (path_ne_nil key) made
      cases same
      cases reset_
      exact .inr ⟨rfl, value, rfl⟩

/-! ## The laws -/

theorem get_set (c : Config) (key : String) (value fallback : Datum) :
    (c.set key value).get key fallback = value := by
  rw [get_eq, toDatum, set, found_setAt (path_ne_nil key)]
  rfl

theorem get_set_of_apart (apart : Apart (path key) (path key')) (c : Config)
    (value fallback : Datum) : (c.set key value).get key' fallback = c.get key' fallback := by
  rw [get_eq, toDatum, set, found_setAt_of_apart apart, get_eq]
  rfl

theorem set_set (c : Config) (key : String) (value value' : Datum) :
    (c.set key value).set key value' = c.set key value' := by
  rw [set, set, set, setAt_setAt]

/-- **A reset in place** of what shares nothing is a reset. -/
theorem reset_unshared (c : Config) (key : String) :
    (c : SharedConfig).reset key = (c.reset key).map fun (tree, done) => (↑tree, done) := by
  rw [SharedConfig.reset, SharedConfig.plain_unshared]
  cases made : c.reset key with
  | error e => rfl
  | ok answer =>
    obtain ⟨tree, done⟩ := answer
    rcases reset_cases made with ⟨rfl, rfl⟩ | ⟨rfl, value, rfl⟩
    · rfl
    · have again : SharedConfig.set c key ((c.set key value).get key .null) = c.set key value := by
        rw [get_set, SharedConfig.set_unshared]
      exact congrArg (fun c => Except.ok (c, true)) again

/-- What a reset of a key leaves: its default value, and all that is apart from it. -/
structure Resets (c : Config) (key : String) (value : Datum) (c' : Config) : Prop where
  get : ∀ fallback, c'.get key fallback = value
  apart : ∀ key', Apart (path key) (path key') →
    ∀ fallback, c'.get key' fallback = c.get key' fallback

/-- **The laws of dotted keys.**  A value that is set is read under its key, and under no key that is
apart from it; the second of two values wins.  A reset of a key gives it its default value and does
no more, and a reset of all makes the configuration a new one.  Made in place, in a configuration
that shares nothing, they are the same. -/
theorem dotted_keys_lawful (c : Config) (key : String) (value : Datum) :
    (∀ fallback, (c.set key value).get key fallback = value) ∧
    (∀ key', Apart (path key) (path key') →
      ∀ fallback, (c.set key value).get key' fallback = c.get key' fallback) ∧
    (∀ value', (c.set key value).set key value' = c.set key value') ∧
    (∀ default_, found (path key) default.toDatum = some default_ →
      LeadsThrough (path key) c.toDatum →
      ∃ c', c.reset key = .ok (c', true) ∧ c.Resets key default_ c') ∧
    (∀ (h : Host) (fs : Files),
      (((ConfigRequest.reset none).run.run { h with config := c }).2.config) =
        (create fs none).1) ∧
    (c : SharedConfig).set key value = c.set key value ∧
    (c : SharedConfig).reset key = (c.reset key).map fun (tree, done) => (↑tree, done) := by
  refine ⟨c.get_set key value, fun key' apart fallback => get_set_of_apart apart c value fallback,
    c.set_set key value, fun default_ there leads => ?_, fun _ _ => rfl,
    SharedConfig.set_unshared c key value, c.reset_unshared key⟩
  exact ⟨_, reset_eq_set there leads, c.get_set key default_,
    fun key' apart fallback => get_set_of_apart apart c default_ fallback⟩

/-- The default settings with a section in place of the file of the log. -/
def logged : Config := default.set "logging.file.name" (.text "run")

theorem logged_logging : lookup (.text "logging") logged.settings = some (.dict [
    (.text "level", .text "INFO"), (.text "file", .dict [(.text "name", .text "run")])]) := by
  cbv

theorem dotted_keys_lawful_logged : ∃ c',
    Apart (path "logging.file") (path "logging.level") ∧
    found (path "logging.file") default.toDatum = some .null ∧
    LeadsThrough (path "logging.file") logged.toDatum ∧
    logged.reset "logging.file" = .ok (c', true) ∧
    logged.Resets "logging.file" .null c' ∧ c'.get "logging.level" .null = .text "INFO" := by
  have apart : Apart (path "logging.file") (path "logging.level") := by decide
  have names : path "logging.file" = ["logging", "file"] := rfl
  have leads : LeadsThrough (path "logging.file") logged.toDatum := by
    rw [names]
    exact (leadsThrough_cons (List.cons_ne_nil _ _)).mpr
      ⟨_, logged_logging, leadsThrough_single _ _⟩
  have there : found (path "logging.file") default.toDatum = some .null := by cbv
  have level : logged.get "logging.level" .null = .text "INFO" := by
    have names : path "logging.level" = ["logging", "level"] := rfl
    rw [get_pair names, logged_logging]
    rfl
  obtain ⟨-, -, -, resets, -⟩ := dotted_keys_lawful logged "logging.file" .null
  obtain ⟨c', done, left_⟩ := resets .null there leads
  exact ⟨c', apart, there, leads, done, left_, (left_.apart _ apart .null).trans level⟩

end Config
end ChipEight
