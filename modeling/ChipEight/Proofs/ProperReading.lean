import ChipEight.Config.Storage
import ChipEight.Proofs.Merging
import Mathlib.Logic.Basic
/-! # What is read is proper

No key stands twice in a mapping that was read from a text, in either format
(`Config.Format.reads_proper`): a reader gathers the entries of a mapping one after the other, and
puts each of them in (`Datum.proper_ofEntries`).  The same induction over the reader of JSON gives
every other property that lists and mappings have from their values (`Json.read_each`). -/

namespace ChipEight

/-! ## Entries that are put in -/

namespace Datum

variable {key value : Datum} {entries : List (Datum × Datum)}

/-- An insertion brings in no key but its own. -/
theorem mem_insert {entry : Datum × Datum} (mem : entry ∈ insert key value entries) :
    entry.1 = key ∨ ∃ old ∈ entries, old.1 = entry.1 := by
  induction entries with
  | nil => exact .inl (congrArg Prod.fst (List.mem_singleton.mp mem))
  | cons first rest ih =>
    obtain ⟨k, v⟩ := first
    rw [insert] at mem
    split at mem
    · rcases List.mem_cons.mp mem with rfl | later
      · exact .inr ⟨(k, v), .head _, rfl⟩
      · exact .inr ⟨entry, .tail _ later, rfl⟩
    · rcases List.mem_cons.mp mem with rfl | later
      · exact .inr ⟨(k, v), .head _, rfl⟩
      · rcases ih later with own | ⟨old, there, same⟩
        · exact .inl own
        · exact .inr ⟨old, .tail _ there, same⟩

theorem Distinct.insert (distinct : Distinct entries) (key value : Datum) :
    Distinct (insert key value entries) := by
  induction entries with
  | nil => exact List.pairwise_singleton _ _
  | cons first rest ih =>
    obtain ⟨k, v⟩ := first
    obtain ⟨once, distinct⟩ := List.pairwise_cons.mp distinct
    rw [Datum.insert]
    split
    · exact List.pairwise_cons.mpr ⟨once, distinct⟩
    · rename_i other
      refine List.pairwise_cons.mpr ⟨fun entry mem => ?_, ih distinct⟩
      rcases mem_insert mem with own | ⟨old, there, same⟩
      · rw [own]
        exact Bool.not_eq_true _ ▸ other
      · rw [← same]
        exact once old there

theorem ProperEntries.insert (proper : ProperEntries entries) (key : Datum) (own : value.Proper) :
    ProperEntries (insert key value entries) := by
  induction entries with
  | nil => exact ⟨own, trivial⟩
  | cons first rest ih =>
    obtain ⟨k, v⟩ := first
    rw [ProperEntries] at proper
    rw [Datum.insert]
    split
    · exact ⟨own, proper.2⟩
    · exact ⟨proper.1, ih proper.2⟩

theorem properItems_iff {items : List Datum} : ProperItems items ↔ ∀ item ∈ items, item.Proper := by
  induction items with
  | nil => exact iff_of_true trivial nofun
  | cons item rest ih => rw [ProperItems, ih, List.forall_mem_cons]

theorem properEntries_iff : ProperEntries entries ↔ ∀ entry ∈ entries, entry.2.Proper := by
  induction entries with
  | nil => exact iff_of_true trivial nofun
  | cons entry rest ih => rw [ProperEntries, ih, List.forall_mem_cons]

/-- **Entries make a proper mapping**, whichever keys they share. -/
theorem proper_ofEntries (proper : ProperEntries entries) : (dict (ofEntries entries)).Proper := by
  have done : (dict []).Proper := ⟨.nil, trivial⟩
  rw [ofEntries]
  generalize ([] : List (Datum × Datum)) = gathered at done ⊢
  induction entries generalizing gathered with
  | nil => exact done
  | cons first rest ih =>
    obtain ⟨k, v⟩ := first
    rw [ProperEntries] at proper
    rw [Proper] at done
    exact ih proper.2 (insert k v gathered) ⟨done.1.insert k v, done.2.insert k proper.1⟩

end Datum

namespace Marked

theorem plainItems_eq_map (items : List Marked) : plainItems items = items.map plain := by
  induction items with
  | nil => rfl
  | cons item rest ih => rw [plainItems, ih, List.map_cons]

theorem plainEntries_eq_map (entries : List (Datum × Marked)) :
    plainEntries entries = entries.map (Prod.map id plain) := by
  induction entries with
  | nil => rfl
  | cons entry rest ih => exact congrArg (_ :: ·) ih

mutual

theorem plain_ofDatum : (d : Datum) → (ofDatum d).plain = d
  | .null | .bool _ | .number _ | .text _ => rfl
  | .list items => congrArg Datum.list (plainItems_ofItems items)
  | .dict entries => congrArg Datum.dict (plainEntries_ofEntries entries)

theorem plainItems_ofItems : (items : List Datum) → plainItems (ofItems items) = items
  | [] => rfl
  | item :: rest => congrArg₂ List.cons (plain_ofDatum item) (plainItems_ofItems rest)

theorem plainEntries_ofEntries :
    (entries : List (Datum × Datum)) → plainEntries (ofEntries entries) = entries
  | [] => rfl
  | (key, value) :: rest =>
    congrArg₂ List.cons (congrArg (key, ·) (plain_ofDatum value)) (plainEntries_ofEntries rest)

end

end Marked

@[simp] theorem Document.plain_ofDatum (d : Datum) : (Document.ofDatum d).plain = d :=
  Marked.plain_ofDatum d

/-! ## What readers read -/

/-- Whatever is read has a property. -/
def Reads {ε α : Type} (read : Except ε α) (P : α → Prop) : Prop := ∀ a, read = .ok a → P a

namespace Reads

variable {ε α β : Type} {P Q : α → Prop} {R : β → Prop} {read : Except ε α} {next : α → Except ε β}

theorem done {a : α} (holds : P a) : Reads (.ok a : Except ε α) P := by
  intro b same
  cases same
  exact holds

theorem failed (e : ε) : Reads (.error e) P := by
  intro a impossible
  cases impossible

theorem any (read : Except ε α) : Reads read fun _ => True := fun _ _ => trivial

theorem bind (first : Reads read P) (rest : ∀ a, P a → Reads (next a) R) :
    Reads (read >>= next) R := by
  intro b made
  cases known : read with
  | error e =>
    rw [known] at made
    cases made
  | ok a =>
    rw [known] at made
    exact rest a (first a known) b made

end Reads

open Datum

namespace Json

section

variable {P : Datum → Prop} (word : ∀ entry ∈ words, P entry.2) (number : ∀ n, P (.number n))
  (text : ∀ s, P (.text s)) (list : ∀ items, (∀ item ∈ items, P item) → P (.list items))
  (dict : ∀ entries : List (Datum × Datum),
    (∀ entry ∈ entries, (∃ name, entry.1 = .text name) ∧ P entry.2) → P (.dict (ofEntries entries)))

include word number

theorem readAtom_each (cs : List Char) : Reads (readAtom cs) fun (d, _) => P d := by
  rw [readAtom]
  split
  · rename_i found
    exact .done (word _ (List.mem_of_find?_eq_some found))
  · split
    · exact .done (number _)
    · exact .failed _

include text list dict

/-- What is read has a property that all words, numbers and texts have, and each list and each
mapping under texts whose values have it. -/
theorem reads_each (fuel : Nat) :
    (∀ cs, Reads (readValue fuel cs) fun (d, _) => P d) ∧
    (∀ cs, Reads (readItems fuel cs) fun (items, _) => ∀ item ∈ items, P item) ∧
    ∀ cs, Reads (readEntries fuel cs) fun (entries, _) =>
      ∀ entry ∈ entries, (∃ name, entry.1 = .text name) ∧ P entry.2 := by
  induction fuel with
  | zero => exact ⟨fun _ => .failed _, fun _ => .failed _, fun _ => .failed _⟩
  | succ fuel ih =>
    obtain ⟨value, items, entries⟩ := ih
    refine ⟨fun cs => ?_, fun cs => ?_, fun cs => ?_⟩
    · rw [readValue.eq_def]
      dsimp only
      split
      · exact (Reads.any _).bind fun _ _ => .done (text _)
      · split
        · exact .done (list [] nofun)
        · exact (items _).bind fun _ each => .done (list _ each)
      · split
        · exact .done (dict [] nofun)
        · exact (entries _).bind fun _ each => .done (dict _ each)
      · exact readAtom_each word number _
    · rw [readItems.eq_def]
      dsimp only
      refine (value _).bind fun _ first => ?_
      split
      · exact .done (List.forall_mem_cons.mpr ⟨first, nofun⟩)
      · exact (items _).bind fun _ rest => .done (List.forall_mem_cons.mpr ⟨first, rest⟩)
      · exact .failed _
    · rw [readEntries.eq_def]
      dsimp only
      split
      · refine (Reads.any _).bind fun _ _ => ?_
        split
        · refine (value _).bind fun _ first => ?_
          split
          · exact .done (List.forall_mem_cons.mpr ⟨⟨⟨_, rfl⟩, first⟩, nofun⟩)
          · exact (entries _).bind fun _ rest =>
              .done (List.forall_mem_cons.mpr ⟨⟨⟨_, rfl⟩, first⟩, rest⟩)
          · exact .failed _
        · exact .failed _
      · exact .failed _

theorem read_each (whole : String) : Reads (read whole) P := by
  rw [read]
  split
  · exact .failed _
  · refine ((reads_each word number text list dict _).1 _).bind fun _ holds => ?_
    dsimp only
    split
    · exact .done holds
    · exact .failed _

end

theorem read_proper (text : String) : Reads (read text) Datum.Proper :=
  read_each (by decide) (fun _ => trivial) (fun _ => trivial) (fun _ => properItems_iff.mpr)
    (fun _ each => proper_ofEntries (properEntries_iff.mpr fun entry mem => (each entry mem).2)) text

end Json

/-- A library for YAML as it is taken to be: no key stands twice in a mapping that it reads. -/
def YamlLibrary.Lawful (yaml : YamlLibrary) : Prop :=
  ∀ name text d, yaml.read name text = .ok d → d.plain.Proper

namespace Yaml

theorem resolve_proper (text : String) : (resolve text).Proper := by
  rw [resolve]
  split
  · trivial
  split
  · trivial
  split
  · trivial
  dsimp only
  split
  · trivial
  split <;> trivial

theorem readSingle_proper (opening : Nat) (cs done : List Char) (p : Pending) (column : Nat)
    (crossed : Bool) :
    Reads (readSingle opening done p column crossed cs) fun s => s.value.plain.Proper := by
  fun_induction readSingle opening done p column crossed cs with
  | case2 => exact .done trivial
  | case6 => exact .failed _
  | _ => assumption

theorem readDouble_proper (opening fuel : Nat) (done : List Char) (p : Pending) (column : Nat)
    (crossed : Bool) (cs : List Char) :
    Reads (readDouble opening fuel done p column crossed cs) fun s => s.value.plain.Proper := by
  fun_induction readDouble opening fuel done p column crossed cs
  all_goals first | assumption | exact .done trivial | exact .failed _

theorem mapping_proper {entries : List (Datum × Marked)}
    (proper : ∀ entry ∈ entries, entry.2.plain.Proper) (c : Cursor) :
    Reads (mapping c entries) fun d => d.plain.Proper := by
  rw [mapping]
  split
  · refine .done ?_
    rw [Marked.plain, Marked.plainEntries_eq_map, ← ofEntries_map]
    refine proper_ofEntries (properEntries_iff.mpr fun entry mem => ?_)
    obtain ⟨own, among, rfl⟩ := List.mem_map.mp mem
    exact proper own among
  · exact .failed _

theorem list_proper {items : List Marked} (proper : ∀ item ∈ items, item.plain.Proper) :
    (Marked.list items).plain.Proper := by
  rw [Marked.plain, Marked.plainItems_eq_map]
  refine properItems_iff.mpr fun item mem => ?_
  obtain ⟨own, among, rfl⟩ := List.mem_map.mp mem
  exact proper own among

/-! ### Behind anchors -/

/-- All that anchors stand for is proper. -/
def Anchors.Proper (anchors : Anchors) : Prop :=
  ∀ entry ∈ anchors.known, entry.2.2.plain.Proper

/-- Whatever is read behind proper anchors has a property, and the anchors are proper still. -/
def Gives {α : Type} (read : Reading α) (P : α → Prop) : Prop :=
  ∀ anchors : Anchors, anchors.Proper → Reads (read.run anchors) fun (a, left) => P a ∧ left.Proper

namespace Gives

variable {α β : Type} {P : α → Prop} {R : β → Prop} {read : Reading α} {next : α → Reading β}

theorem done {a : α} (holds : P a) : Gives (pure a) P := fun _ proper => .done ⟨holds, proper⟩

theorem failed (m : Mistake) : Gives (throw m) P := fun _ _ => .failed m

theorem bind (first : Gives read P) (rest : ∀ a, P a → Gives (next a) R) :
    Gives (read >>= next) R := fun anchors proper =>
  (first anchors proper).bind fun (a, left) ⟨holds, proper⟩ => rest a holds left proper

theorem lift {read : Except Mistake α} (reads : Reads read P) : Gives (liftM read) P :=
  fun _ proper => reads.bind fun _ holds => .done ⟨holds, proper⟩

theorem anchors : Gives get Anchors.Proper := fun _ proper => .done ⟨proper, proper⟩

/-- What ends in a mistake gives nothing. -/
theorem refused (read : Reading α) (mistake : α → Mistake) :
    Gives (read >>= fun a => throw (mistake a)) R := fun anchors _ =>
  (Reads.any (read.run anchors)).bind fun _ _ => .failed _

end Gives

theorem readAlias_proper (c : Cursor) : Gives (readAlias c) fun s => s.value.plain.Proper := by
  refine (Gives.lift (.any _)).bind fun (name, after) _ => Gives.anchors.bind fun known proper => ?_
  split
  · rename_i first value there
    obtain ⟨_, _, split_, -⟩ := List.lookup_eq_some_iff.mp there
    exact .done (proper (name, first, value) (by simp [split_]))
  · exact .failed _

theorem give_proper {value : Marked} (own : value.plain.Proper) {anchors : Anchors}
    (proper : anchors.Proper) (name : String) (left : Nat) :
    (anchors.give name left value).1.plain.Proper ∧ (anchors.give name left value).2.Proper := by
  cases value <;> exact ⟨own, List.forall_mem_cons.mpr ⟨own, proper⟩⟩

theorem anchor_proper {value : Marked} (proper : value.plain.Proper) (name : String) (c : Cursor) :
    Gives (anchor name c value) fun d => d.plain.Proper := by
  refine Gives.anchors.bind fun anchors known => ?_
  split
  · exact .failed _
  · intro _ _
    exact .done (give_proper proper known name c.left)

theorem flowBroken_gives {α : Type} {P : α → Prop} (what needed : String) (start after : Cursor) :
    Gives (flowBroken what needed start after) P := .refused _ _

theorem null_proper : (Marked.ofDatum .null).plain.Proper := trivial

theorem gives_flow (fuel : Nat) :
    (∀ flow indent c, Gives (readInline fuel flow indent c) fun s => s.value.plain.Proper) ∧
    (∀ start c, Gives (readItems fuel start c) fun (items, _) =>
      ∀ item ∈ items, item.plain.Proper) ∧
    (∀ c, Gives (readFlowValue fuel c) fun (d, _) => d.plain.Proper) ∧
    ∀ start c, Gives (readEntries fuel start c) fun (entries, _) =>
      ∀ entry ∈ entries, entry.2.plain.Proper := by
  induction fuel with
  | zero =>
    exact ⟨fun _ _ _ => .failed _, fun _ _ => .failed _, fun _ => .failed _, fun _ _ => .failed _⟩
  | succ fuel ih =>
    obtain ⟨inline, items, behind, entries⟩ := ih
    refine ⟨fun flow indent c => ?_, fun start c => ?_, fun c => ?_, fun start c => ?_⟩
    · rw [readInline.eq_def]
      dsimp only
      split
      · exact (items _ _).bind fun _ proper => .done (list_proper proper)
      · exact (entries _ _).bind fun _ proper =>
          (Gives.lift (mapping_proper proper c)).bind fun _ proper => .done proper
      · exact .lift (readSingle_proper _ _ _ _ _ _)
      · exact .lift (readDouble_proper _ _ _ _ _ _ _)
      · exact readAlias_proper c
      · refine (Gives.lift (.any _)).bind fun _ _ => ?_
        split
        · exact .failed _
        · exact (inline _ _ _).bind fun first own =>
            (anchor_proper own _ c).bind fun _ proper => .done proper
      · split
        · exact .done (Marked.plain_ofDatum _ ▸ resolve_proper _)
        · exact .failed _
    · rw [readItems]
      extract_lets goesOn
      have listed {item : Marked} (own : item.plain.Proper) (after : Cursor) :
          Gives (goesOn (item, after)) fun (items, _) => ∀ item ∈ items, item.plain.Proper := by
        dsimp only [goesOn]
        split
        · exact (items _ _).bind fun _ rest => .done (List.forall_mem_cons.mpr ⟨own, rest⟩)
        · exact .done (List.forall_mem_singleton.mpr own)
        · exact flowBroken_gives _ _ _ _
      dsimp only
      split
      · exact .done (List.forall_mem_nil _)
      refine (inline _ _ _).bind fun item own => ?_
      split
      · refine (behind _).bind fun value proper => ?_
        have entry : ∀ entry ∈ [(item.value.plain, value.1)], entry.2.plain.Proper :=
          List.forall_mem_singleton.mpr proper
        exact (Gives.lift (mapping_proper entry _)).bind fun _ proper => listed proper _
      · exact listed own _
    · rw [readFlowValue]
      dsimp only
      split
      iterate 3 exact .done null_proper
      exact (inline _ _ _).bind fun _ own => .done own
    · rw [readEntries]
      split
      split
      · exact .done (List.forall_mem_nil _)
      refine (inline _ _ _).bind fun key _ => ?_
      split
      extract_lets goesOn
      have paired (value : Marked × Cursor) (own : value.1.plain.Proper) :
          Gives (goesOn value) fun (entries, _) => ∀ entry ∈ entries, entry.2.plain.Proper := by
        dsimp only [goesOn]
        split
        · exact (entries _ _).bind fun _ rest => .done (List.forall_mem_cons.mpr ⟨own, rest⟩)
        · exact .done (List.forall_mem_singleton.mpr own)
        · exact flowBroken_gives _ _ _ _
      split
      · exact (behind _).bind paired
      · exact paired (.ofDatum .null, _) null_proper

theorem blockBroken_gives {α : Type} {P : α → Prop} (what : String) (start column : Nat)
    (crossed : Bool) (c : Cursor) : Gives (blockBroken what start column crossed c) P :=
  .refused _ _

theorem gives_block (fuel : Nat) :
    (∀ indent sameLine c, Gives (readNode fuel indent sameLine c) fun (d, _) => d.plain.Proper) ∧
    (∀ start column inMapping c, Gives (readSequence fuel start column inMapping c)
      fun (items, _) => ∀ item ∈ items, item.plain.Proper) ∧
    ∀ start column key c, Gives (readMapping fuel start column key c)
      fun (entries, _) => ∀ entry ∈ entries, entry.2.plain.Proper := by
  induction fuel with
  | zero =>
    refine ⟨fun _ _ _ => ?_, fun _ _ _ _ => ?_, fun _ _ _ _ => ?_⟩
    · exact readNode.eq_def .. ▸ .failed _
    · exact readSequence.eq_def .. ▸ .failed _
    · exact readMapping.eq_def .. ▸ .failed _
  | succ fuel ih =>
    obtain ⟨node, sequence, pairs⟩ := ih
    refine ⟨fun indent sameLine c => ?_, fun start column inMapping c => ?_,
      fun start column key c => ?_⟩
    · rw [readNode]
      split
      · split
        · exact .failed _
        · exact (sequence _ _ _ _).bind fun _ proper => .done (list_proper proper)
      refine (Gives.lift (.any _)).bind fun alone _ => ?_
      split
      · extract_lets goesOn
        have anchored (value : Marked × Cursor) (own : value.1.plain.Proper) :
            Gives (goesOn value) fun (d, _) => d.plain.Proper :=
          (anchor_proper own _ c).bind fun _ proper => .done proper
        split
        · exact (node _ _ _).bind anchored
        split
        · exact (sequence _ _ _ _).bind fun _ items => anchored (.list _, _) (list_proper items)
        · exact anchored (.ofDatum .null, _) null_proper
      refine ((gives_flow _).1 _ _ _).bind fun first own => ?_
      dsimp only
      split
      · split
        · exact .failed _
        · exact (pairs _ _ _ _).bind fun _ proper =>
            (Gives.lift (mapping_proper proper c)).bind fun _ proper => .done proper
      · exact .done own
    · rw [readSequence]
      extract_lets goesOn
      have listed (item : Marked × Cursor) (own : item.1.plain.Proper) :
          Gives (goesOn item) fun (items, _) => ∀ item ∈ items, item.plain.Proper := by
        dsimp only [goesOn]
        split
        · exact .done (List.forall_mem_singleton.mpr own)
        split
        · exact blockBroken_gives _ _ _ _ _
        split
        · exact (sequence _ _ _ _).bind fun _ rest =>
            .done (List.forall_mem_cons.mpr ⟨own, rest⟩)
        split
        · exact .done (List.forall_mem_singleton.mpr own)
        · exact blockBroken_gives _ _ _ _ _
      dsimp only
      split
      · exact listed (.ofDatum .null, _) null_proper
      · exact (node _ _ _).bind listed
    · rw [readMapping]
      extract_lets goesOn
      have paired (value : Marked × Cursor) (own : value.1.plain.Proper) :
          Gives (goesOn value) fun (entries, _) => ∀ entry ∈ entries, entry.2.plain.Proper := by
        dsimp only [goesOn]
        split
        · exact .done (List.forall_mem_singleton.mpr own)
        split
        · exact blockBroken_gives _ _ _ _ _
        refine ((gives_flow _).1 _ _ _).bind fun next _ => ?_
        split
        · exact (pairs _ _ _ _).bind fun _ rest => .done (List.forall_mem_cons.mpr ⟨own, rest⟩)
        · exact .failed _
      dsimp only
      split
      · exact paired (.ofDatum .null, _) null_proper
      split
      · exact (node _ _ _).bind paired
      split
      · exact (node _ _ _).bind paired
      split
      · exact (sequence _ _ _ _).bind fun _ items => paired (.list _, _) (list_proper items)
      · exact paired (.ofDatum .null, _) null_proper

theorem readDocument_proper (text : String) :
    Gives (readDocument text) fun d => d.plain.Proper := by
  rw [readDocument]
  extract_lets fuel start marked
  split
  · exact .failed _
  split
  split
  · split
    · exact .failed _
    · exact .done null_proper
  refine ((gives_block _).1 _ _ _).bind fun _ proper => ?_
  dsimp only
  split
  · exact .done proper
  split
  · split
    · exact .done proper
    · exact .failed _
  · exact .refused _ _

theorem read_proper (text : String) : Reads (read text) fun d => d.plain.Proper := by
  rw [read]
  exact (readDocument_proper text {} (List.forall_mem_nil _)).bind fun _ holds => .done holds.1

/-- **What the library reads is proper.** -/
theorem library_lawful : library.Lawful := fun name text d read => by
  rw [library] at read
  dsimp only at read
  cases known : Yaml.read text with
  | error m =>
    rw [known] at read
    cases read
  | ok d' =>
    rw [known] at read
    cases read
    exact read_proper text d known

end Yaml

namespace Config

/-- **What is read is proper**, in either format. -/
theorem Format.reads_proper {yaml : YamlLibrary} (lawful : yaml.Lawful) (format : Format)
    (name text : String) {d : Datum} (parsed : format.parse yaml name text = .ok d) :
    d.Proper := by
  cases format with
  | json =>
    rw [Format.parse] at parsed
    cases known : Json.read text with
    | error m =>
      rw [known] at parsed
      cases parsed
    | ok d' =>
      rw [known] at parsed
      cases parsed
      exact Json.read_proper text d known
  | yaml =>
    rw [Format.parse] at parsed
    cases known : yaml.read name text with
    | error m =>
      rw [known] at parsed
      cases parsed
    | ok d' =>
      have proper := lawful name text d' known
      rw [known] at parsed
      obtain rfl := Except.ok.inj parsed
      dsimp only
      split
      · exact proper
      · exact ⟨.nil, trivial⟩

end Config
end ChipEight
