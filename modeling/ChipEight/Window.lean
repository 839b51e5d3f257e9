/-!
Windows on lists.  A negative position counts from the end; positions beyond an end mean that end.
`retain` is the window that bounded histories keep.
-/

namespace ChipEight

/-- Where a position falls in a list of `length` items. -/
def clampTo (length : Nat) (position : Int) : Nat :=
  if position < 0 then (length + position).toNat else min position.toNat length

/-- The items between two positions, of which either may be left open. -/
def window {α : Type} (start stop : Option Int) (xs : List α) : List α :=
  let first := (start.map (clampTo xs.length)).getD 0
  let last := (stop.map (clampTo xs.length)).getD xs.length
  (xs.take last).drop first

/-- What a history with a limit keeps of its items: all up to the limit, and beyond it the items
from the position `-limit` on. -/
def retain {α : Type} (limit : Int) (xs : List α) : List α :=
  if limit < xs.length then window (some (-limit)) none xs else xs

end ChipEight
