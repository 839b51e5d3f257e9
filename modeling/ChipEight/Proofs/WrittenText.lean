import ChipEight.Files
import ChipEight.Json.Printer
/-! # Texts that are written and read again

What was put at a path is found there (`Files.entry_put`).  A text that was written is read as it
was unless it has carriage returns, which reading makes line feeds of (`Files.readText_writeText`);
printed JSON has none, whatever the value (`Json.no_return_print`). -/

namespace ChipEight

namespace Files

variable {fs fs' : Files} {path text : String} {done rest other : List String} {e there : Entry}

/-! ## The tree -/

theorem find_set_self (some_ : rest ≠ []) : (fs.set rest e).find rest = some e := by
  rw [find, if_neg (by simpa using some_), set, List.lookup_cons_self]

theorem lookup_filter_ne (differ : other ≠ rest) (entries : List (List String × Entry)) :
    (entries.filter (·.1 != rest)).lookup other = entries.lookup other := by
  induction entries with
  | nil => rfl
  | cons entry entries ih =>
    obtain ⟨parts, e⟩ := entry
    by_cases same : parts = rest
    · subst same
      have unlike : (other == parts) = false := beq_eq_false_iff_ne.mpr differ
      rw [List.filter_cons_of_neg (by simp), ih, List.lookup_cons, unlike]
    · rw [List.filter_cons_of_pos (by simpa using same), List.lookup_cons, List.lookup_cons, ih]

theorem find_set_other (differ : other ≠ rest) : (fs.set rest e).find other = fs.find other := by
  rw [find, find]
  split
  · rfl
  · have unlike : (other == rest) = false := beq_eq_false_iff_ne.mpr differ
    rw [set, List.lookup_cons, unlike, lookup_filter_ne differ]

/-- A walk goes through directories and ends anywhere. -/
theorem walk_ok_iff : fs.walk path done rest = .ok e ↔
    (∀ n < rest.length, fs.find (done ++ rest.take n) = some .directory) ∧
      fs.find (done ++ rest) = some e := by
  induction rest generalizing done with
  | nil =>
    rw [walk, List.append_nil]
    cases fs.find done <;> simp
  | cons part rest ih =>
    have onward : (∀ n < (part :: rest).length,
        fs.find (done ++ (part :: rest).take n) = some .directory) ↔
        fs.find done = some .directory ∧
          ∀ n < rest.length, fs.find (done ++ [part] ++ rest.take n) = some .directory := by
      constructor
      · intro all
        refine ⟨by simpa using all 0 (by simp), fun n hn => ?_⟩
        simpa using all (n + 1) (by simpa using hn)
      · rintro ⟨first, all⟩ n hn
        cases n with
        | zero => simpa using first
        | succ n => simpa using all n (by simpa using hn)
    rw [onward, walk]
    cases found : fs.find done with
    | none => simp
    | some there =>
      cases there with
      | directory => simp [ih]
      | file _ | image _ => simp

theorem entry_ok_iff (file : e ≠ .directory) : fs.entry path = .ok e ↔
    path.isEmpty = false ∧ path.endsWith "/" = false ∧ fs.walk path [] (parts path) = .ok e := by
  rw [entry]
  cases path.isEmpty with
  | true => simp
  | false =>
    rcases walked : fs.walk path [] (parts path) with problem | there
    · simp
    · cases there with
      | directory => simp [Ne.symm file]
      | file _ | image _ => cases path.endsWith "/" <;> simp

theorem entry_root (named : path.isEmpty = false) (root : parts path = []) :
    fs.entry path = .ok .directory := by
  rw [entry, named, root]
  rfl

/-- The directories on the way to a file can be walked through. -/
def Way (fs : Files) (rest : List String) : Prop :=
  ∀ n < rest.length, fs.find (rest.take n) = some .directory

theorem way_of_walk (walked : fs.walk path [] rest = .ok e) : fs.Way rest := by
  simpa [Way] using (walk_ok_iff.mp walked).1

theorem way_of_dropLast (walked : fs.walk path [] rest.dropLast = .ok .directory) :
    fs.Way rest := by
  obtain ⟨before, last⟩ := walk_ok_iff.mp walked
  simp only [List.nil_append, List.length_dropLast] at before last
  intro n hn
  by_cases inner : n < rest.length - 1
  · have := before n inner
    rwa [List.dropLast_eq_take, List.take_take, Nat.min_eq_left (by omega)] at this
  · obtain rfl : n = rest.length - 1 := by omega
    rwa [← List.dropLast_eq_take]

/-- Where a file can be put, the way to it is there. -/
theorem of_checkWrite (allowed : fs.checkWrite path = .ok ()) : path.isEmpty = false ∧
    path.endsWith "/" = false ∧ parts path ≠ [] ∧ fs.Way (parts path) := by
  have some_ (named : path.isEmpty = false) (other : fs.entry path ≠ .ok .directory) :
      parts path ≠ [] := fun root => other (entry_root named root)
  rw [checkWrite] at allowed
  rcases found : fs.entry path with problem | there
  · rw [found] at allowed some_
    cases problem with
    | missing _ =>
      dsimp only at allowed
      split at allowed
      · cases allowed
      rename_i named
      rw [Bool.not_eq_true] at named
      rcases walked : fs.walk path [] (parts path).dropLast with problem | there
      · rw [walked] at allowed
        cases allowed
      · rw [walked] at allowed
        cases there with
        | directory =>
          dsimp only at allowed
          split at allowed
          · cases allowed
          · rename_i open_
            exact ⟨named, by simpa using open_, some_ named (by simp), way_of_dropLast walked⟩
        | file _ | image _ => cases allowed
    | _ => cases allowed
  · have file : there ≠ .directory := by
      rintro rfl
      rw [found] at allowed
      cases allowed
    obtain ⟨named, open_, walked⟩ := (entry_ok_iff file).mp found
    refine ⟨named, open_, some_ named ?_, way_of_walk walked⟩
    rw [found]
    simpa using file

/-- **What is put at a path is found there.** -/
theorem entry_put (file : e ≠ .directory) (put : fs.put path e = .ok fs') :
    fs'.entry path = .ok e := by
  rw [Files.put] at put
  cases allowed : fs.checkWrite path with
  | error problem =>
    rw [allowed] at put
    cases put
  | ok =>
    rw [allowed] at put
    cases put
    obtain ⟨named, open_, some_, way⟩ := of_checkWrite allowed
    refine (entry_ok_iff file).mpr ⟨named, open_, walk_ok_iff.mpr ⟨fun n hn => ?_, ?_⟩⟩
    · have shorter : (parts path).take n ≠ parts path := fun same => by
        have := congrArg List.length same
        rw [List.length_take] at this
        omega
      rw [List.nil_append, find_set_other shorter]
      exact way n hn
    · simpa using find_set_self some_

/-! ## The text -/

theorem fromUTF8_toUTF8 (text : String) : String.fromUTF8? text.toUTF8 = some text := by
  simp only [String.fromUTF8?, String.toUTF8_eq_toByteArray, dif_pos text.isValidUTF8]
  rfl

theorem unifyLines_of_no_return {cs : List Char} (plain : '\r' ∉ cs) : unifyLines cs = cs := by
  induction cs using unifyLines.induct with
  | case1 | case2 => simp at plain
  | case3 c rest _ _ ih =>
    rw [List.mem_cons, not_or] at plain
    rw [unifyLines, ih plain.2] <;> grind
  | case4 => rfl

/-- **A text without carriage returns is read as it was written.** -/
theorem readText_writeText (plain : '\r' ∉ text.toList)
    (written : fs.writeText path text = .ok fs') : fs'.readText path = .ok text := by
  have found : fs'.entry path = .ok (.file text.toUTF8) := entry_put (by simp) written
  simp only [readText, read, found, fromUTF8_toUTF8, unifyLines_of_no_return plain,
    String.ofList_toList]

end Files

/-! ## Printed JSON -/

namespace Number

theorem no_return_nat (n : Nat) : '\r' ∉ (toString n).toList := by
  rw [Nat.toString_eq_repr, Nat.toList_repr]
  intro mem
  exact absurd (Nat.isDigit_of_mem_toDigits (by decide) (by decide) mem) (by decide)

theorem no_return_int (i : Int) : '\r' ∉ (toString i).toList := by
  rw [Int.toString_eq_repr]
  cases i with
  | ofNat n => simpa [Int.repr] using no_return_nat n
  | negSucc n => simpa [Int.repr] using no_return_nat (n + 1)

theorem no_return_stripped (n : Nat) (stripped : Char → Bool) :
    '\r' ∉ ((toString n).toList.reverse.dropWhile stripped).reverse := by
  rw [List.mem_reverse]
  intro mem
  exact no_return_nat n (List.mem_reverse.mp ((List.dropWhile_sublist _).subset mem))

theorem no_return_shortest (mantissa : Nat) (exponent : Int) :
    '\r' ∉ (shortest mantissa exponent).digits := by
  unfold shortest
  exact no_return_stripped _ _

theorem no_return_render {d : Decimal} (plain : '\r' ∉ d.digits) : '\r' ∉ d.render.toList := by
  have before (n : Nat) : '\r' ∉ d.digits.take n := fun mem => plain (List.mem_of_mem_take mem)
  have behind (n : Nat) : '\r' ∉ d.digits.drop n := fun mem => plain (List.mem_of_mem_drop mem)
  have size := no_return_nat (d.point - 1).natAbs
  rw [Decimal.render]
  split
  · split
    · simp [plain]
    · split <;> simp [plain, before, behind]
  · simp only [String.toList_append, List.mem_append, not_or]
    refine ⟨⟨⟨⟨?_, by decide⟩, ?_⟩, ?_⟩, size⟩
    · split
      · decide
      all_goals
        rename_i digits
        rw [digits] at plain
        simpa using plain
    all_goals split <;> decide

theorem no_return_floatText (f : Float) : '\r' ∉ (floatText f).toList := by
  rw [floatText]
  split
  · decide
  · split <;> decide
  · rename_i negative mantissa exponent _
    have digits := no_return_render (no_return_shortest mantissa exponent)
    cases negative <;> by_cases zero : mantissa = 0 <;> simp [zero, digits]

end Number

namespace Json

theorem no_return_hexEscape (n : Nat) : '\r' ∉ hexEscape n := by
  have digit (n : Nat) : '\r' ≠ Text.hexDigit (n % 16) := by
    have small : n % 16 < 16 := Nat.mod_lt _ (by decide)
    revert small
    generalize n % 16 = k
    revert k
    decide
  simp [hexEscape, Text.hexDigits, digit]

theorem no_return_quote (s : String) : '\r' ∉ (quote s).toList := by
  have escaped (c : Char) : '\r' ∉ escape c := by
    rw [escape.eq_def]
    split
    any_goals decide
    dsimp only
    split
    · rename_i shown
      rw [List.mem_singleton]
      rintro rfl
      exact absurd shown (by decide)
    · split <;> simp [no_return_hexEscape]
  simp [quote, escaped]

theorem no_return_numberText (n : Number) : '\r' ∉ (numberText n).toList := by
  rw [numberText.eq_def]
  split
  · exact Number.no_return_int _
  · split
    · decide
    · split <;> decide
    · exact Number.no_return_floatText _

theorem not_mem_intercalate {c : Char} {sep : List Char} {parts : List (List Char)}
    (outside : c ∉ sep) (none_ : ∀ part ∈ parts, c ∉ part) : c ∉ sep.intercalate parts := by
  induction parts with
  | nil => simp
  | cons part rest ih =>
    rw [List.forall_mem_cons] at none_
    cases rest with
    | nil => simpa using none_.1
    | cons next rest =>
      rw [List.intercalate_cons_cons]
      simp [none_.1, outside, ih none_.2]

theorem no_return_block {depth : Nat} {opening closing : String} {parts : List String}
    (open_ : '\r' ∉ opening.toList) (close : '\r' ∉ closing.toList)
    (plain : ∀ part ∈ parts, '\r' ∉ part.toList) :
    '\r' ∉ (block depth opening closing parts).toList := by
  have line (depth : Nat) : '\r' ∉ (newline depth).toList := by simp [newline]
  rw [block]
  split
  · simp [open_, close]
  · have inner := @not_mem_intercalate '\r' ("," ++ newline (depth + 1)).toList
      (parts.map String.toList) (by simp [line]) (by simpa using plain)
    rw [String.toList_append] at inner
    simp only [String.toList_append, String.toList_intercalate, List.mem_append, not_or]
    exact ⟨⟨⟨⟨open_, line _⟩, inner⟩, line _⟩, close⟩

mutual

theorem no_return_write (depth : Nat) : (d : Datum) → '\r' ∉ (write depth d).toList
  | .null => by rw [write]; decide
  | .bool b => by rw [write]; cases b <;> decide
  | .number n => by rw [write]; exact no_return_numberText n
  | .text s => by rw [write]; exact no_return_quote s
  | .list xs => by
    rw [write]
    exact no_return_block (by decide) (by decide) (no_return_items (depth + 1) xs)
  | .dict es => by
    rw [write]
    exact no_return_block (by decide) (by decide) (no_return_entries (depth + 1) es)

theorem no_return_items (depth : Nat) :
    (xs : List Datum) → ∀ part ∈ writeItems depth xs, '\r' ∉ part.toList
  | [] => by simp [writeItems]
  | x :: xs => by
    rw [writeItems, List.forall_mem_cons]
    exact ⟨no_return_write depth x, no_return_items depth xs⟩

theorem no_return_entries (depth : Nat) :
    (es : List (Datum × Datum)) → ∀ part ∈ writeEntries depth es, '\r' ∉ part.toList
  | [] => by simp [writeEntries]
  | (k, v) :: rest => by
    rw [writeEntries, List.forall_mem_cons]
    refine ⟨?_, no_return_entries depth rest⟩
    simp [no_return_quote, no_return_write depth v]

end

/-- **Printed JSON has no carriage returns.** -/
theorem no_return_print (d : Datum) : '\r' ∉ (print d).toList := no_return_write 0 d

end Json
end ChipEight
