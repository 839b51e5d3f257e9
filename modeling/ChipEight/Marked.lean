import ChipEight.Datum
/-!
Values in which a mapping may stand in several places.  It has one mark in all of them, so that a
change to it can be made in all of them; what has no mark stands in one place.
-/

namespace ChipEight

inductive Marked where
  | atom (d : Datum) (single : d.isKey = true)
  | list (items : List Marked)
  | dict (mark : Option Nat) (entries : List (Datum × Marked))

namespace Marked

mutual

/-- The value without its marks. -/
def plain : Marked → Datum
  | atom d _ => d
  | list items => .list (plainItems items)
  | dict _ entries => .dict (plainEntries entries)

def plainItems : List Marked → List Datum
  | [] => []
  | item :: rest => item.plain :: plainItems rest

def plainEntries : List (Datum × Marked) → List (Datum × Datum)
  | [] => []
  | (key, value) :: rest => (key, value.plain) :: plainEntries rest

end

instance : Inhabited Marked := ⟨atom .null rfl⟩

mutual

/-- A value without marks. -/
def ofDatum : Datum → Marked
  | .null => atom .null rfl
  | .bool b => atom (.bool b) rfl
  | .number n => atom (.number n) rfl
  | .text s => atom (.text s) rfl
  | .list items => list (ofItems items)
  | .dict entries => dict none (ofEntries entries)

def ofItems : List Datum → List Marked
  | [] => []
  | item :: rest => ofDatum item :: ofItems rest

def ofEntries : List (Datum × Datum) → List (Datum × Marked)
  | [] => []
  | (key, value) :: rest => (key, ofDatum value) :: ofEntries rest

end

end Marked

/-- A value, and the entries of each mapping in it that has a mark, by its mark. -/
structure Document where
  marked : List (List (Datum × Marked)) := []
  value : Marked

namespace Document

def plain (d : Document) : Datum := d.value.plain

/-- A value in which nothing stands in several places. -/
def ofDatum (d : Datum) : Document := { value := .ofDatum d }

end Document
end ChipEight
