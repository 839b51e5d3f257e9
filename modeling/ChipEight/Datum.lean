import ChipEight.Failure
/-!
Values whose shape is not known beforehand: what configuration files, traces, event payloads and
error contexts hold.  A mapping keeps its entries in the order in which the keys came.  Numbers and
truth values are compared by their amount, so that `true`, `1` and `1.0` are one key.

A datum is a tree: what stands in two places are two values, so that a change in one place is none in
the other.  Configurations, where one mapping may stand in several places, have values of their own
(`Marked`, `Slot`).
-/

namespace ChipEight

inductive Datum where
  | null
  | bool (b : Bool)
  | number (n : Number)
  | text (s : String)
  | list (items : List Datum)
  | dict (entries : List (Datum × Datum))
  deriving Repr

namespace Datum

instance : Inhabited Datum := ⟨null⟩

def int (i : Int) : Datum := number (.int i)

/-- A mapping from names. -/
def record (fields : List (String × Datum)) : Datum := dict (fields.map fun (k, v) => (text k, v))

/-- The amount of a number or a truth value. -/
def amount? : Datum → Option Number
  | number n => some n
  | bool b => some (.int (if b then 1 else 0))
  | _ => none

mutual

/-- Equality of values: by amount for numbers and truth values, in any order of the entries for
mappings. -/
def same : Datum → Datum → Bool
  | null, null => true
  | text a, text b => a == b
  | number a, number b => a.same b
  | number a, bool b => a.same (.int (if b then 1 else 0))
  | bool a, number b => Number.same (.int (if a then 1 else 0)) b
  | bool a, bool b => a == b
  | list xs, list ys => sameItems xs ys
  | dict xs, dict ys => xs.length == ys.length && sameEntries xs ys
  | _, _ => false

def sameItems : List Datum → List Datum → Bool
  | [], [] => true
  | x :: xs, y :: ys => same x y && sameItems xs ys
  | _, _ => false

/-- Every entry of the first list occurs in the second. -/
def sameEntries : List (Datum × Datum) → List (Datum × Datum) → Bool
  | [], _ => true
  | (k, v) :: rest, ys => ys.any (fun (k', v') => same k k' && same v v') && sameEntries rest ys

end

/-- Empty, zero and null values count as absent. -/
def truthy : Datum → Bool
  | null => false
  | bool b => b
  | number n => !n.isZero
  | text s => !s.isEmpty
  | list xs => !xs.isEmpty
  | dict es => !es.isEmpty

mutual

/-- A value as it is written inside of others: text in quotes. -/
def literal : Datum → String
  | null => "None"
  | bool b => if b then "True" else "False"
  | number n => n.text
  | text s => Text.quoted s
  | list xs => "[" ++ ", ".intercalate (literalItems xs) ++ "]"
  | dict es => "\x7b" ++ ", ".intercalate (literalEntries es) ++ "\x7d"

def literalItems : List Datum → List String
  | [] => []
  | x :: xs => literal x :: literalItems xs

def literalEntries : List (Datum × Datum) → List String
  | [] => []
  | (k, v) :: rest => (literal k ++ ": " ++ literal v) :: literalEntries rest

end

/-- A value as a message shows it: text as it is. -/
def shown : Datum → String
  | text s => s
  | d => literal d

/-- Lists and mappings cannot be keys. -/
def isKey : Datum → Bool
  | list _ | dict _ => false
  | _ => true

/-! ### Amounts -/

/-- How the amounts of two values compare. -/
def less (a b : Datum) : Except Failure Bool :=
  match a, b with
  | text x, text y => .ok (x < y)
  | _, _ =>
    match a.amount?, b.amount? with
    | some x, some y => .ok (x.lt y)
    | _, _ => .error .wrongKind

def difference (a b : Datum) : Except Failure Datum :=
  match a.amount?, b.amount? with
  | some x, some y =>
    match x.sub? y with
    | some d => .ok (number d)
    | none => .error .beyondRange
  | _, _ => .error .wrongKind

/-- How far apart the amounts of two values are. -/
def distance (a b : Datum) : Except Failure Datum :=
  (difference a b).map fun
    | number n => number n.abs
    | d => d

/-! ### Entries -/

def isNaN : Datum → Bool
  | number (.float f) => f.isNaN
  | _ => false

/-- Whether two values are one key.  What is not a number is the same key as itself, though it is not
the same as itself. -/
def sameKey (a b : Datum) : Bool := same a b || (isNaN a && isNaN b)

/-- The value under a key. -/
def lookup {α : Type} (key : Datum) : List (Datum × α) → Option α
  | [] => none
  | (k, v) :: rest => if sameKey k key then some v else lookup key rest

/-- Sets the value under a key, at its place if it is there and at the end if not. -/
def insert {α : Type} (key : Datum) (value : α) : List (Datum × α) → List (Datum × α)
  | [] => [(key, value)]
  | (k, v) :: rest => if sameKey k key then (k, value) :: rest else (k, v) :: insert key value rest

/-- The entries that remain when each later one replaces an earlier one of the same key. -/
def ofEntries {α : Type} (entries : List (Datum × α)) : List (Datum × α) :=
  entries.foldl (fun es (k, v) => insert k v es) []

/-- The value under a name in a mapping. -/
def field? (name : String) : Datum → Option Datum
  | dict es => lookup (text name) es
  | _ => none

/-! ### Access by name, whatever the value is -/

/-- Whether some characters stand in a row among others. -/
def occurs (part : List Char) : List Char → Bool
  | [] => part.isEmpty
  | c :: rest => part.isPrefixOf (c :: rest) || occurs part rest

theorem occurs_iff {part cs : List Char} : occurs part cs = true ↔ part <:+: cs := by
  induction cs with
  | nil => simp [occurs]
  | cons c rest ih =>
    rw [occurs, Bool.or_eq_true, List.isPrefixOf_iff_prefix, ih, List.infix_cons_iff]

/-- Whether a name occurs: as a key of a mapping, as an item of a list, as a part of a text. -/
def contains (d : Datum) (name : String) : Except Failure Bool :=
  match d with
  | dict es => .ok (lookup (text name) es).isSome
  | list xs => .ok (xs.any (same · (text name)))
  | text s => .ok (occurs name.toList s.toList)
  | _ => .error .wrongKind

/-- The value under a name, which only mappings have. -/
def index (d : Datum) (name : String) : Except Failure Datum :=
  match d with
  | dict es =>
    match lookup (text name) es with
    | some v => .ok v
    | none => .error .missingKey
  | _ => .error .wrongKind

/-- The value under a name of something that must be a mapping, or what to take instead. -/
def getD (d : Datum) (name : String) (default : Datum) : Except Failure Datum :=
  match d with
  | dict es => .ok ((lookup (text name) es).getD default)
  | _ => .error .lacking

/-- The items of a value, one after the other: those of a list, the keys of a mapping, the
characters of a text. -/
def items (d : Datum) : Except Failure (List Datum) :=
  match d with
  | list xs => .ok xs
  | dict es => .ok (es.map Prod.fst)
  | text s => .ok (s.toList.map fun c => text (String.singleton c))
  | _ => .error .wrongKind

/-- Reads pairs of key and value. -/
def pairsOf : Nat → List Datum → Except Failure (List (Datum × Datum))
  | _, [] => .ok []
  | position, d :: rest => do
    match ← d.items with
    | [k, v] =>
      if k.isKey then return (k, v) :: (← pairsOf (position + 1) rest)
      else throw .wrongKind
    | xs => throw (.badValue (.pairLength position xs.length))

/-- The entries of a mapping, or of a list of pairs. -/
def toEntries (d : Datum) : Except Failure (List (Datum × Datum)) :=
  match d with
  | dict es => .ok es
  | d => do return ofEntries (← pairsOf 0 (← d.items))

end Datum
end ChipEight
