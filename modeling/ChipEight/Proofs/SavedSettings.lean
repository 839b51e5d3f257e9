import Mathlib
import ChipEight.Proofs.Sharing
import ChipEight.Proofs.WrittenText
/-! # Settings are saved and loaded again

Where sections are given as mappings, loads take no key away from the default settings: they change
values, and put what is new behind (`Config.Standing`).  So what they have made of the default
settings, when it is merged with those again, is what comes out
(`Config.Standing.merge_default`); and it is accepted for that, since settings stay valid
(`Config.Standing.accepted`). -/

namespace ChipEight

namespace Datum

variable {name : String} {value : Datum} {entries rest done old new user : List (Datum × Datum)}

/-! ## Keys in their order -/

def keys (entries : List (Datum × Datum)) : List Datum := entries.map Prod.fst

theorem lookup_append (absent : text name ∉ keys done) :
    lookup (.text name) (done ++ rest) = lookup (.text name) rest := by
  induction done with
  | nil => rfl
  | cons entry done ih =>
    obtain ⟨k, v⟩ := entry
    simp only [keys, List.map_cons, List.mem_cons, not_or] at absent
    rw [List.cons_append, lookup, if_neg fun same => absent.1 (sameKey_text.mp same).symm]
    exact ih absent.2

theorem insert_append (absent : text name ∉ keys done) :
    insert (.text name) value (done ++ rest) = done ++ insert (.text name) value rest := by
  induction done with
  | nil => rfl
  | cons entry done ih =>
    obtain ⟨k, v⟩ := entry
    simp only [keys, List.map_cons, List.mem_cons, not_or] at absent
    rw [List.cons_append, insert, if_neg fun same => absent.1 (sameKey_text.mp same).symm,
      List.cons_append]
    exact congrArg _ (ih absent.2)

theorem insert_new (absent : text name ∉ keys entries) :
    insert (.text name) value entries = entries ++ [(.text name, value)] := by
  simpa [insert] using @insert_append _ value [] _ absent

/-- An insertion keeps the keys that are there, in their order. -/
theorem keys_insert (there : text name ∈ keys entries) (value : Datum) :
    keys (insert (.text name) value entries) = keys entries := by
  induction entries with
  | nil => cases there
  | cons entry rest ih =>
    obtain ⟨k, v⟩ := entry
    rw [insert]
    by_cases same : k.sameKey (.text name) = true
    · rw [if_pos same]
      rfl
    · have other : text name ≠ k := fun eq => same (sameKey_text.mpr eq.symm)
      rw [if_neg same]
      exact congrArg (k :: ·) (ih ((List.mem_cons.mp there).resolve_left other))

theorem lookup_of_mem (once : (keys entries).Nodup) (mem : (text name, value) ∈ entries) :
    lookup (.text name) entries = some value := by
  induction entries with
  | nil => cases mem
  | cons entry rest ih =>
    obtain ⟨k, v⟩ := entry
    obtain ⟨fresh, once⟩ := List.nodup_cons.mp once
    rw [lookup]
    rcases List.mem_cons.mp mem with same | mem
    · obtain ⟨rfl, rfl⟩ := Prod.mk.inj same
      rw [if_pos (sameKey_text.mpr rfl)]
    · have there : text name ∈ keys rest := List.mem_map_of_mem mem
      have other : k ≠ text name := fun eq => fresh (eq ▸ there)
      rw [if_neg fun same => other (sameKey_text.mp same), ih once mem]

def isText : Datum → Bool
  | text _ => true
  | _ => false

theorem of_isText {d : Datum} (h : d.isText = true) : ∃ name, d = .text name := by
  cases d with
  | text name => exact ⟨name, rfl⟩
  | _ => cases h

/-- All keys are names. -/
def Named (entries : List (Datum × Datum)) : Prop := ∀ key ∈ keys entries, key.isText = true

instance (entries : List (Datum × Datum)) : Decidable (Named entries) :=
  inferInstanceAs (Decidable (∀ key ∈ _, _))

theorem named_cons {key : Datum} (named : Named ((key, value) :: rest)) :
    (∃ name, key = .text name) ∧ Named rest :=
  ⟨of_isText (named key (.head _)), fun _ mem => named _ (.tail _ mem)⟩

/-- A mapping with the keys of another, in their order, and further ones behind them. -/
structure Extends (old new : List (Datum × Datum)) : Prop where
  named : Named new
  once : (keys new).Nodup
  begins : keys old <+: keys new

theorem Extends.insert (extends_ : Extends old new) (name : String) (value : Datum) :
    Extends old (Datum.insert (.text name) value new) := by
  obtain ⟨named, once, begins⟩ := extends_
  by_cases there : text name ∈ keys new
  · have same := keys_insert there value
    refine ⟨?_, ?_, ?_⟩
    · rwa [Named, same]
    · rwa [same]
    · rwa [same]
  · have more : keys (Datum.insert (.text name) value new) = keys new ++ [.text name] := by
      rw [insert_new there]
      exact List.map_append
    refine ⟨?_, ?_, ?_⟩
    · rw [Named, more]
      intro key mem
      rcases List.mem_append.mp mem with mem | mem
      · exact named key mem
      · rw [List.mem_singleton.mp mem]
        rfl
    · rw [more]
      refine List.nodup_append.mpr ⟨once, by simp, fun key mem last isLast same => there ?_⟩
      rwa [← List.mem_singleton.mp isLast, ← same]
    · rw [more]
      exact begins.trans (List.prefix_append _ _)

end Datum

namespace Files

variable {fs : Files} {path text : String}

/-- A file can be written at the path, once the directory for it is made if that is missing. -/
def Writable (fs : Files) (path : String) : Prop :=
  ((fs.makeMissingParent path).bind (·.checkWrite path)).isOk = true

instance (fs : Files) (path : String) : Decidable (fs.Writable path) :=
  inferInstanceAs (Decidable (_ = _))

theorem Writable.made (writable : fs.Writable path) :
    ∃ made, fs.makeMissingParent path = .ok made ∧ made.checkWrite path = .ok () := by
  rw [Writable] at writable
  rcases parent : fs.makeMissingParent path with _ | made
  · rw [parent] at writable
    cases writable
  · rw [parent] at writable
    rcases allowed : made.checkWrite path with _ | _
    · simp only [Except.bind, allowed] at writable
      cases writable
    · exact ⟨made, rfl, allowed⟩

/-- On a writable path any text can be written, once the directory is made. -/
theorem Writable.writeText (writable : fs.Writable path) :
    ∃ made, fs.makeMissingParent path = .ok made ∧
      ∀ text, ∃ files, made.writeText path text = .ok files := by
  obtain ⟨made, parent, allowed⟩ := writable.made
  refine ⟨made, parent, fun text => ?_⟩
  simp only [Files.writeText, Files.write, Files.put, allowed]
  exact ⟨_, rfl⟩

theorem exists_of_readText (there : fs.readText path = .ok text) : fs.exists path = true := by
  rw [readText, read] at there
  rw [Files.exists]
  cases found : fs.entry path with
  | ok _ => rfl
  | error _ =>
    rw [found] at there
    cases there

end Files

namespace Config

open Datum

variable {name : String} {value : Datum} {done old new user : List (Datum × Datum)} {c : Config}

theorem mergeEntries_extends (extends_ : Extends old new) (named : Named user) (top : Bool) :
    Extends old (mergeEntries top user new) := by
  induction user generalizing new with
  | nil => rwa [mergeEntries]
  | cons entry rest ih =>
    obtain ⟨key, value⟩ := entry
    obtain ⟨⟨name, rfl⟩, others⟩ := named_cons named
    rw [mergeEntries]
    exact ih (extends_.insert name _) others

theorem mergeValue_none (top : Bool) (key value : Datum) :
    mergeValue top key value none = value := by
  rcases mergeValue_cases top key value none with same | ⟨_, _, -, impossible, -⟩
  · exact same
  · cases impossible

/-- Mappings are merged, unless they are keymaps. -/
theorem mergeValue_mappings {top : Bool} {key : Datum} (plain : namesKeymap top key = false) :
    mergeValue top key (.dict user) (some (.dict old)) =
      .dict (mergeEntries (top && !key.truthy) user old) := by
  rw [mergeValue, if_neg (Bool.eq_false_iff.mp plain)]

/-- A value that is no mapping. -/
def Plain (d : Datum) : Prop := ∀ entries, d ≠ .dict entries

theorem mergeValue_plain {top : Bool} {key there : Datum} (plain : Plain there) :
    mergeValue top key value (some there) = value := by
  rcases mergeValue_cases top key value (some there) with same | ⟨_, theirs, -, old, -⟩
  · exact same
  · exact absurd (Option.some.inj old) (plain theirs)

/-- A value that is no mapping takes the place of whatever is there. -/
theorem mergeValue_of_plain {top : Bool} {key value : Datum} (plain : Plain value)
    (old : Option Datum) : mergeValue top key value old = value := by
  rcases mergeValue_cases top key value old with same | ⟨entries, _, mapping, -⟩
  · exact same
  · exact absurd mapping (plain entries)

/-- A mapping that begins with the keys of another takes its place in a merge, if each of its values
takes the place of the one there. -/
theorem mergeEntries_replaces (top : Bool) (named : Named new)
    (once : (keys (done ++ new)).Nodup) (begins : keys old <+: keys new)
    (values : ∀ key value there, (key, value) ∈ new → (key, there) ∈ old →
      mergeValue top key value (some there) = value) :
    mergeEntries top new (done ++ old) = done ++ new := by
  induction new generalizing done old with
  | nil =>
    obtain rfl : old = [] := by simpa [keys] using begins
    rw [mergeEntries]
  | cons entry new ih =>
    obtain ⟨key, value⟩ := entry
    obtain ⟨⟨name, rfl⟩, others⟩ := named_cons named
    have placed : (keys (done ++ [(text name, value)] ++ new)).Nodup := by simpa using once
    have absent : text name ∉ keys done := fun mem => by
      rw [keys, List.map_append, List.nodup_append] at once
      exact once.2.2 _ mem _ (.head _) rfl
    rw [mergeEntries, lookup_append absent, insert_append absent]
    cases old with
    | nil =>
      rw [lookup, mergeValue_none, Datum.insert]
      simpa using @ih _ [] others placed (List.nil_prefix) (by simp)
    | cons entry old =>
      obtain ⟨key, there⟩ := entry
      obtain ⟨rfl, behind⟩ := List.cons_prefix_cons.mp begins
      have taken := values _ _ _ (.head _) (.head _)
      have same : (text name).sameKey (.text name) = true := sameKey_text.mpr rfl
      rw [lookup, if_pos same, taken, Datum.insert, if_pos same]
      simpa using ih others placed behind fun key value there mem mem' =>
        values key value there (.tail _ mem) (.tail _ mem')

/-! ## Sections -/

/-- The sections that hold settings.  The keymap is none, since it is replaced and not merged. -/
def sections : List String := ["cpu", "timers", "display", "trace", "logging"]

/-- The settings that a section has by default. -/
def defaultsOf (name : String) : List (Datum × Datum) :=
  match lookup (.text name) default.settings with
  | some (.dict entries) => entries
  | _ => []

/-- A mapping under names. -/
def IsMapping : Datum → Prop
  | .dict entries => Named entries
  | _ => False

instance : DecidablePred IsMapping
  | .dict entries => inferInstanceAs (Decidable (Named entries))
  | .null | .bool _ | .number _ | .text _ | .list _ => .isFalse id

theorem of_isMapping {d : Datum} (h : IsMapping d) :
    ∃ entries, d = .dict entries ∧ Named entries := by
  cases d with
  | dict entries => exact ⟨entries, rfl, h⟩
  | _ => cases h

/-- A user's settings that give sections only as mappings. -/
def Sectioned (user : Datum) : Prop :=
  user.Proper ∧ IsMapping user ∧ ∀ name ∈ sections, ∀ value ∈ user.field? name, IsMapping value

instance (user : Datum) : Decidable (Sectioned user) :=
  inferInstanceAs (Decidable (_ ∧ _ ∧ ∀ name ∈ _, _))

/-- Nothing of the default settings has gone, and each section has at least the settings that it has
by default. -/
structure Standing (c : Config) : Prop where
  settings : Extends default.settings c.settings
  sections : ∀ name ∈ sections, ∃ entries,
    lookup (.text name) c.settings = some (.dict entries) ∧ Extends (defaultsOf name) entries

theorem extends_defaults {name : String} (mem : name ∈ sections) :
    Extends (defaultsOf name) (defaultsOf name) ∧
      lookup (.text name) default.settings = some (.dict (defaultsOf name)) ∧
      ∀ entry ∈ defaultsOf name, Plain entry.2 := by
  have facts (defaults : List (Datum × Datum))
      (there : lookup (.text name) default.settings = some (.dict defaults))
      (named : Named defaults) (once : (keys defaults).Nodup)
      (flat : ∀ entry ∈ defaults, Plain entry.2) : _ :=
    show Extends (defaultsOf name) (defaultsOf name) ∧
      lookup (.text name) default.settings = some (.dict (defaultsOf name)) ∧
      ∀ entry ∈ defaultsOf name, Plain entry.2 by
    rw [defaultsOf, there]
    exact ⟨⟨named, once, List.prefix_rfl⟩, rfl, flat⟩
  simp only [sections, List.mem_cons, List.not_mem_nil, or_false] at mem
  rcases mem with rfl | rfl | rfl | rfl | rfl
  all_goals exact facts _ rfl (by decide) (by simp [keys]) (by simp [Plain, Datum.int])

theorem not_keymap : ∀ name ∈ sections, namesKeymap true (.text name) = false := by decide

/-- What there is by default: the kind of the machine, the sections and the keymap. -/
theorem default_cases {key there : Datum} (mem : (key, there) ∈ default.settings) :
    (∃ name ∈ sections, key = .text name ∧ there = .dict (defaultsOf name)) ∨
      Plain there ∨ namesKeymap true key = true := by
  simp only [default, List.mem_cons, Prod.mk.injEq, List.not_mem_nil, or_false] at mem
  rcases mem with ⟨rfl, rfl⟩ | ⟨rfl, rfl⟩ | ⟨rfl, rfl⟩ | ⟨rfl, rfl⟩ | ⟨rfl, rfl⟩ | ⟨rfl, rfl⟩ |
    ⟨rfl, rfl⟩
  · exact .inr (.inl (by simp [Plain]))
  · exact .inl ⟨"cpu", by decide, rfl, rfl⟩
  · exact .inl ⟨"timers", by decide, rfl, rfl⟩
  · exact .inl ⟨"display", by decide, rfl, rfl⟩
  · exact .inr (.inr rfl)
  · exact .inl ⟨"trace", by decide, rfl, rfl⟩
  · exact .inl ⟨"logging", by decide, rfl, rfl⟩

theorem standing_default : Standing default where
  settings := ⟨by decide, by simp [default, keys], List.prefix_rfl⟩
  sections := fun name mem =>
    have ⟨itself, there, _⟩ := extends_defaults mem
    ⟨_, there, itself⟩

theorem Standing.merge {given : List (Datum × Datum)} (standing : Standing c)
    (sectioned : Sectioned (.dict given)) : Standing (c.merge given) := by
  obtain ⟨proper, named, mappings⟩ := sectioned
  refine ⟨mergeEntries_extends standing.settings named true, fun name mem => ?_⟩
  obtain ⟨entries, there, extends_⟩ := standing.sections name mem
  rw [Config.merge, lookup_mergeEntries proper.1]
  cases mine : lookup (.text name) given with
  | none => exact ⟨entries, there, extends_⟩
  | some value =>
    obtain ⟨inner, rfl, named⟩ := of_isMapping (mappings name mem value mine)
    rw [there]
    dsimp only
    rw [mergeValue_mappings (not_keymap name mem)]
    exact ⟨_, rfl, mergeEntries_extends extends_ named _⟩

theorem Standing.loads {users : List Datum} (standing : Standing c)
    (sectioned : ∀ user ∈ users, Sectioned user) : Standing (c.loads users) := by
  induction users generalizing c with
  | nil => exact standing
  | cons user users ih =>
    rw [List.forall_mem_cons] at sectioned
    have first : Standing (c.loadDatum user).1 := by
      rcases c.loadDatum_cases user with same | ⟨given, rfl, -, merged⟩
      · rwa [same]
      · rw [merged]
        exact standing.merge sectioned.1
    exact ih first sectioned.2

/-- **Settings that have come from the default ones take their place again.** -/
theorem Standing.merge_default (standing : Standing c) : default.merge c.settings = c := by
  obtain ⟨named, once, begins⟩ := standing.settings
  have replaced := @mergeEntries_replaces [] default.settings c.settings true named once begins
  rw [Config.merge]
  refine congrArg Config.mk (replaced fun key value there mem mem' => ?_)
  rcases default_cases mem' with ⟨name, listed, rfl, rfl⟩ | plain | keymap
  · obtain ⟨entries, stands, extends_⟩ := standing.sections name listed
    obtain rfl := Option.some.inj ((lookup_of_mem once mem).symm.trans stands)
    rw [mergeValue_mappings (not_keymap name listed)]
    have inner := @mergeEntries_replaces [] _ entries (true && !(text name).truthy) extends_.named
      extends_.once extends_.begins fun key value there _ mem =>
        mergeValue_plain ((extends_defaults listed).2.2 _ mem)
    exact congrArg Datum.dict inner
  · exact mergeValue_plain plain
  · exact mergeValue_keymap keymap value (some there)

theorem validate_of_accepted {root : Datum} (accepted : Accepted root) :
    validate root = .ok [] := by
  obtain ⟨machine, rules, keymap⟩ := accepted
  obtain ⟨first, before, noneFirst⟩ := mapM_flatten_eq_nil.mpr fun rule mem =>
    rules rule (List.mem_append_left rulesBehindKeymap mem)
  obtain ⟨rest, behind, noneRest⟩ := mapM_flatten_eq_nil.mpr fun rule mem =>
    rules rule (List.mem_append_right rulesBeforeKeymap mem)
  simp only [validate, machine, before, keymap, behind, bind, Except.bind, pure, Except.pure,
    noneFirst, noneRest, List.append_nil]

theorem rules_sections : ∀ rule ∈ rules, rule.group ∈ sections := by
  simp [rules, rulesBeforeKeymap, rulesBehindKeymap, sections]

theorem Standing.accepted (standing : Standing c) (valid : Valid c) : Accepted c.toDatum := by
  refine ⟨?_, fun rule mem => ?_, ?_⟩
  · simp only [checkMachine, toDatum, Datum.contains, Datum.index, valid.machine, bind, Except.bind]
    rfl
  · obtain ⟨entries, there, -⟩ := standing.sections rule.group (rules_sections rule mem)
    simp only [Rule.check, toDatum, Datum.getD, there, Option.getD_some, Datum.contains,
      Datum.index, bind, Except.bind]
    cases set_ : lookup (.text rule.setting) entries with
    | none => rfl
    | some value =>
      have accepts := valid.rules rule mem entries value there set_
      simp only [Option.isSome_some, if_true, accepts]
      rfl
  · obtain ⟨_, there, entries, rfl, indexed⟩ := valid.keymap
    simp only [checkKeymap, toDatum, Datum.contains, Datum.index, there, bind, Except.bind]
    refine congrArg Except.ok (List.filterMap_eq_nil_iff.mpr fun entry mem => ?_)
    exact if_pos (indexed entry mem)

theorem Standing.accept_default (standing : Standing c) (valid : Valid c) :
    default.accept c.toDatum = .ok (c, []) := by
  have fine := validate_of_accepted (standing.accepted valid)
  rw [accept, fine, toDatum]
  simp only [bind, Except.bind, standing.merge_default]
  rfl

/-! ## Files -/

variable {yaml : YamlLibrary}

theorem load_parsed {fs : Files} {path text : String} {format : Format}
    {settings : List (Datum × Datum)} {c' : Config}
    (known : Format.ofExtension? (Text.lower (Files.extension path)) = some format)
    (there : fs.readText path = .ok text)
    (parsed : format.parse yaml path text = .ok (.dict settings))
    (accepted : c.accept (.dict settings) = .ok (c', [])) :
    c.load fs path yaml =
      (c', [⟨.info, .config, s!"Configuration loaded from {path}"⟩], .ok true) := by
  simp only [load, known, Files.exists_of_readText there, Bool.not_true, there, parsed, accepted,
    Bool.false_eq_true, if_false]

theorem load_json {fs : Files} {path text : String} {settings : List (Datum × Datum)} {c' : Config}
    (json : Text.lower (Files.extension path) = ".json") (there : fs.readText path = .ok text)
    (reads : Json.read text = .ok (.dict settings))
    (accepted : c.accept (.dict settings) = .ok (c', [])) :
    c.load fs path yaml =
      (c', [⟨.info, .config, s!"Configuration loaded from {path}"⟩], .ok true) := by
  have known : Format.ofExtension? (Text.lower (Files.extension path)) = some .json := by
    rw [json]
    decide
  exact load_parsed known there (by rw [Format.parse, reads]; rfl) accepted

/-- Whatever is saved can be read as it was printed. -/
theorem save_json {fs : Files} {path : String} (writable : fs.Writable path) (c : Config)
    (yaml : YamlLibrary) : ∃ saved notes, c.save fs path "json" yaml = (saved, notes, true) ∧
      saved.readText path = .ok (Json.print c.toDatum) := by
  obtain ⟨made, parent, write⟩ := writable.writeText
  obtain ⟨saved, written⟩ := write (Json.print c.toDatum)
  have format : Format.ofName? (Text.lower "json") = some .json := by decide +kernel
  refine ⟨saved, [⟨.info, .config, s!"Configuration saved to {path}"⟩], ?_,
    Files.readText_writeText (Json.no_return_print _) written⟩
  simp only [save, format, parent, Format.print, written]

/-- In a file of JSON no mapping stands in several places. -/
theorem load_json_unshared {fs : Files} {path text : String} {settings : List (Datum × Datum)}
    {c' : Config} (json : Text.lower (Files.extension path) = ".json")
    (there : fs.readText path = .ok text) (reads : Json.read text = .ok (.dict settings))
    (accepted : c.accept (.dict settings) = .ok (c', [])) (merged : c.merge settings = c') :
    SharedConfig.load c fs path yaml =
      (↑c', [⟨.info, .config, s!"Configuration loaded from {path}"⟩], .ok true) := by
  have known : Format.ofExtension? (Text.lower (Files.extension path)) = some .json := by
    rw [json]
    decide
  have held : document fs path yaml = .ofDatum (.dict settings) := by
    unfold document
    simp only [known, there, Format.document, reads]
    rfl
  rw [SharedConfig.load, SharedConfig.plain_unshared, load_json json there reads accepted, held,
    SharedConfig.follow, SharedConfig.merge_unshared, merged]

/-- A new configuration takes over the settings of the file that is named. -/
theorem create_of_load {fs : Files} {path : String} {notes : List Record} {accepted : Bool}
    {c' : SharedConfig} (named : path ≠ "")
    (loaded : SharedConfig.load default fs path yaml = (c', notes, .ok accepted)) :
    create fs (some path) yaml =
      (c', notes ++ [⟨.debug, .config, "ConfigManager initialized"⟩], .ok ()) := by
  rw [create.eq_def]
  split
  · rename_i none_
    cases none_
  · rename_i empty
    exact absurd (Option.some.inj empty) named
  · rename_i path' _ same
    obtain rfl := Option.some.inj same
    rw [loaded]

/-- **Settings survive being saved.**  Whatever is loaded into the default ones, with sections that
are mappings: the file that they are saved to is accepted by a new configuration, which is then the
same. -/
theorem saved_loads {users : List Datum} (sectioned : ∀ user ∈ users, Sectioned user)
    (reads : Json.read (Json.print (default.loads users).toDatum) =
      .ok (default.loads users).toDatum)
    {fs : Files} {path : String} (json : Text.lower (Files.extension path) = ".json")
    (writable : fs.Writable path) (yaml : YamlLibrary) : ∃ saved notes,
    (default.loads users).save fs path "json" yaml = (saved, notes, true) ∧
    (∃ notes, default.load saved path yaml = (default.loads users, notes, .ok true)) ∧
    ∃ notes, create saved (some path) yaml = (↑(default.loads users), notes, .ok ()) := by
  have standing := standing_default.loads sectioned
  have valid := valid_default.loads fun user mem => (sectioned user mem).1
  obtain ⟨saved, notes, done, there⟩ := save_json writable (default.loads users) yaml
  have loaded : default.load saved path yaml =
      (default.loads users, [⟨.info, .config, s!"Configuration loaded from {path}"⟩], .ok true) :=
    load_json json there reads (standing.accept_default valid)
  have named : path ≠ "" := by
    rintro rfl
    exact absurd json (by decide +kernel)
  exact ⟨saved, notes, done, ⟨_, loaded⟩, _, create_of_load named
    (load_json_unshared json there reads (standing.accept_default valid) standing.merge_default)⟩

/-- New settings in a section, a section of its own, and a keymap in place of the one there. -/
def tuned : List Datum := [
  .record [("cpu", .record [("random_seed", .int 7), ("core", .text "fast")]),
    ("sound", .record [("on", .bool true)])],
  .record [("keymap", .record [("p", .int 15)]), ("timers", .record [("rate_hz", .int 50)])]]

/-- The file that they are saved to. -/
def tunedText : String :=
"\x7b
  \"machine\": \"chip8\",
  \"cpu\": \x7b
    \"clock_hz\": 700,
    \"random_seed\": 7,
    \"core\": \"fast\"
  \x7d,
  \"timers\": \x7b
    \"rate_hz\": 50
  \x7d,
  \"display\": \x7b
    \"pixel_scale\": 10,
    \"on_color\": \"#e0e0ff\",
    \"off_color\": \"#1a1a22\"
  \x7d,
  \"keymap\": \x7b
    \"p\": 15
  \x7d,
  \"trace\": \x7b
    \"enabled\": false,
    \"max_history\": 100000,
    \"format\": \"json\"
  \x7d,
  \"logging\": \x7b
    \"level\": \"INFO\",
    \"file\": null
  \x7d,
  \"sound\": \x7b
    \"on\": true
  \x7d
\x7d"

set_option maxRecDepth 20000 in
theorem print_tuned : Json.print (default.loads tuned).toDatum = tunedText := by cbv

set_option maxRecDepth 20000 in
theorem read_tuned : Json.read tunedText = .ok (default.loads tuned).toDatum := by
  -- as a list of characters the text need not be decoded to be read
  rw [show tunedText = String.ofList _ from rfl, Json.read.eq_def]
  simp only [String.toList_ofList]
  cbv

theorem saved_loads_tuned : (∀ user ∈ tuned, Sectioned user) ∧ ({} : Files).Writable "out/c.JSON" ∧
    ∃ saved notes, (default.loads tuned).save {} "out/c.JSON" "json" = (saved, notes, true) ∧
      ∃ notes, default.load saved "out/c.JSON" = (default.loads tuned, notes, .ok true) := by
  have sectioned : ∀ user ∈ tuned, Sectioned user := by decide
  have writable : ({} : Files).Writable "out/c.JSON" := by decide +kernel
  have reads : Json.read (Json.print (default.loads tuned).toDatum) =
      .ok (default.loads tuned).toDatum := by
    rw [print_tuned]
    exact read_tuned
  obtain ⟨saved, notes, done, loaded, -⟩ :=
    saved_loads sectioned reads (by decide +kernel) writable Yaml.library
  exact ⟨sectioned, writable, saved, notes, done, loaded⟩

end Config
end ChipEight
