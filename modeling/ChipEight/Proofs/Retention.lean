import ChipEight.Window
import Mathlib.Data.List.DropRight
/-! # What bounded histories keep

A history is cut to its limit after each item that it takes.  To cut again and again comes to the
same as to keep everything and to cut once (`rtake_rtake_append`), and what is left are the last
items, as many as the limit says (`retain_of_pos`).  The limit zero is no limit: the position `-0`
is the first one, not the end, and so everything stays (`retain_zero`). -/

namespace ChipEight

variable {α β : Type}

theorem length_rtake (xs : List α) (n : Nat) : (xs.rtake n).length = min n xs.length := by
  rw [List.rtake, List.length_drop]
  omega

theorem map_rtake (f : α → β) (xs : List α) (n : Nat) :
    (xs.rtake n).map f = (xs.map f).rtake n := by
  rw [List.rtake, List.rtake, List.map_drop, List.length_map]

theorem rtake_rtake_append (xs ys : List α) (n : Nat) :
    (xs.rtake n ++ ys).rtake n = (xs ++ ys).rtake n := by
  simp only [List.rtake_eq_reverse_take_reverse, List.reverse_append, List.reverse_reverse,
    List.take_append, List.take_take]
  rw [Nat.min_eq_left (Nat.sub_le n _)]

theorem retain_of_pos {limit : Nat} (pos : 0 < limit) (xs : List α) :
    retain limit xs = xs.rtake limit := by
  rw [retain, List.rtake]
  split
  · rename_i beyond
    have first : clampTo xs.length (-limit) = xs.length - limit := by
      rw [clampTo, if_pos (by omega)]
      omega
    rw [window, Option.map_some, Option.getD_some, first, Option.map_none, Option.getD_none,
      List.take_length]
  · rw [Nat.sub_eq_zero_of_le (by omega), List.drop_zero]

theorem retain_zero (xs : List α) : retain 0 xs = xs := by
  rw [retain]
  split
  · rw [window, Option.map_some, Option.getD_some, Option.map_none, Option.getD_none,
      List.take_length]
    exact List.drop_zero
  · rfl

/-- A negative limit leaves nothing of a single item. -/
theorem retain_singleton_of_neg {limit : Int} (neg : limit < 0) (x : α) :
    retain limit [x] = [] := by
  have first : clampTo 1 (-limit) = 1 := by
    rw [clampTo, if_neg (by omega)]
    omega
  rw [retain, List.length_singleton, if_pos (by omega), window, Option.map_some, Option.getD_some,
    List.length_singleton, first]
  rfl

/-- What a history keeps of one more item, if it is a limited part of a past. -/
theorem retain_rtake_concat {limit : Nat} (pos : 0 < limit) (past : List α) (x : α) :
    retain limit (past.rtake limit ++ [x]) = (past ++ [x]).rtake limit := by
  rw [retain_of_pos pos, rtake_rtake_append]

end ChipEight
