import Mathlib.Algebra.BigOperators.Group.Finset.Basic
import Mathlib.Algebra.BigOperators.Group.Finset.Piecewise
import Mathlib.Algebra.BigOperators.Group.Finset.Sigma
import Mathlib.Algebra.Ring.Parity
import ChipEight.Proofs.Overdraw
/-! # The bits that hit a pixel

A draw in terms of the set bits of its sprite, each by its row and column (`Display.bitsOn`).  How
many of them fall on a pixel is what the walk over the spots counts (`Display.hits_eq_card`), so
their number says what becomes of the pixel and where a draw collides (`Display.draw_exact`). -/

namespace ChipEight.Display

variable {w h : Nat} {x y : Int} {sprite : List Int} {px py : Nat} {g : Grid} {d : Display}

/-- The set bits of a sprite, by row and column, that fall on a pixel. -/
def bitsOn (w h : Nat) (x y : Int) (sprite : List Int) (px py : Nat) : Finset (Nat × Nat) :=
  (Finset.range sprite.length ×ˢ Finset.range spriteWidth).filter fun (row, col) =>
    spriteBit (sprite.getD row 0) col = true ∧ (x + col) % w = px ∧ (y + row) % h = py

theorem spots_eq_rows (w h : Nat) (x y : Int) (sprite : List Int) :
    spots w h x y sprite = (List.range sprite.length).flatMap fun row =>
      ((List.range spriteWidth).filter (spriteBit (sprite.getD row 0))).map fun col : Nat =>
        (((x + col) % w).toNat, ((y + row) % h).toNat) := by
  have rows : sprite.zipIdx =
      (List.range sprite.length).map fun row => (sprite.getD row 0, row) := by
    refine List.ext_getElem (by simp) fun row inside _ => ?_
    rw [List.length_zipIdx] at inside
    simp [inside]
  rw [spots, rows, List.flatMap_map]

theorem countP_range (p : Nat → Bool) (n : Nat) :
    (List.range n).countP p = ∑ i ∈ Finset.range n, if p i = true then 1 else 0 := by
  induction n with
  | zero => rfl
  | succ n ih => rw [List.range_succ, List.countP_append, ih, Finset.sum_range_succ,
      List.countP_singleton]

theorem toNat_emod_eq_iff {n p : Nat} (hn : 0 < n) (i : Int) : (i % n).toNat = p ↔ i % n = p := by
  have := Int.emod_nonneg i (show (n : Int) ≠ 0 by omega)
  omega

/-- **Spots are set bits.**  A pixel is passed once for each that falls on it. -/
theorem hits_eq_card (hw : 0 < w) (hh : 0 < h) :
    hits w h x y sprite px py = (bitsOn w h x y sprite px py).card := by
  have sum_range (f : Nat → Nat) (n : Nat) :
      ((List.range n).map f).sum = ∑ i ∈ Finset.range n, f i := rfl
  rw [hits, spots_eq_rows, List.count_flatMap, sum_range, bitsOn, Finset.card_filter,
    Finset.sum_product]
  refine Finset.sum_congr rfl fun row _ => ?_
  rw [Function.comp_apply, List.count, List.countP_map, List.countP_filter, countP_range]
  simp [toNat_emod_eq_iff hw, toNat_emod_eq_iff hh, and_comm]

theorem mem_spots_iff_hit : (px, py) ∈ spots w h x y sprite ↔ 1 ≤ hits w h x y sprite px py :=
  List.count_pos_iff.symm

/-- A collision, pixel by pixel. -/
theorem collides_iff_hits (hw : 0 < g.width) (hh : 0 < g.height) :
    Collides g x y sprite ↔ ∃ px < g.width, ∃ py < g.height,
      1 ≤ hits g.width g.height x y sprite px py ∧ g.get px py = true ∨
        2 ≤ hits g.width g.height x y sprite px py := by
  constructor
  · rintro ⟨⟨px, py⟩, mem, off⟩
    obtain ⟨hx, hy⟩ := spots_lt hw hh mem
    exact ⟨px, hx, py, hy, off.imp_left fun lit => ⟨mem_spots_iff_hit.mp mem, lit⟩⟩
  · rintro ⟨px, -, py, -, ⟨hit, lit⟩ | twice⟩
    · exact ⟨(px, py), mem_spots_iff_hit.mpr hit, .inl lit⟩
    · exact ⟨(px, py), mem_spots_iff_hit.mpr (by omega), .inr twice⟩

/-- Where there is room no pixel is passed twice. -/
theorem hits_le_one (wide : spriteWidth ≤ w) (high : sprite.length ≤ h) :
    hits w h x y sprite px py ≤ 1 := by
  have once := @nodup_spots w h ⟨x, y, sprite⟩ wide high
  exact List.nodup_iff_count_le_one.mp once (px, py)

/-- Where there is room, a pixel that was lit and is passed is one that is dark afterwards. -/
theorem hit_lit_iff_turned_off (wide : spriteWidth ≤ w) (high : sprite.length ≤ h) (lit : Bool) :
    (1 ≤ hits w h x y sprite px py ∧ lit = true ∨ 2 ≤ hits w h x y sprite px py) ↔
      lit = true ∧ (lit != (hits w h x y sprite px py % 2 == 1)) = false := by
  have once : hits w h x y sprite px py ≤ 1 := hits_le_one wide high
  generalize hits w h x y sprite px py = n at once
  obtain rfl | rfl : n = 0 ∨ n = 1 := by omega
  all_goals cases lit <;> decide

theorem decide_odd (n : Nat) : decide (Odd n) = (n % 2 == 1) := by
  rw [Bool.eq_iff_iff, decide_eq_true_iff, Nat.odd_iff, beq_iff_eq]

/-- **What a draw does, bit by bit.**  A pixel is inverted if an odd number of set bits fall on it,
and the draw collides if one falls on a lit pixel or two fall on the same; with room for the sprite,
if it turns a lit pixel off. -/
theorem draw_exact (hw : 1 ≤ d.grid.width) (hh : 1 ≤ d.grid.height) (x y : Int)
    (sprite : List Int) : ∃ after collision, d.drawSprite x y sprite = .ok (after, collision) ∧
    after.grid.width = d.grid.width ∧ after.grid.height = d.grid.height ∧
    (∀ px < d.grid.width, ∀ py < d.grid.height, after.grid.get px py =
      (d.grid.get px py ^^
        decide (Odd (bitsOn d.grid.width d.grid.height x y sprite px py).card))) ∧
    (collision = true ↔ ∃ px < d.grid.width, ∃ py < d.grid.height,
      1 ≤ (bitsOn d.grid.width d.grid.height x y sprite px py).card ∧ d.grid.get px py = true ∨
        2 ≤ (bitsOn d.grid.width d.grid.height x y sprite px py).card) ∧
    after.dirty = true ∧ after.draws = d.draws + 1 ∧ after.clears = d.clears ∧
    (8 ≤ d.grid.width → sprite.length ≤ d.grid.height →
      (collision = true ↔ ∃ px < d.grid.width, ∃ py < d.grid.height,
        d.grid.get px py = true ∧ after.grid.get px py = false)) := by
  have pixel (px py : Nat) (hx : px < d.grid.width) (hy : py < d.grid.height) :
      (d.grid.inverted (hits d.grid.width d.grid.height x y sprite)).get px py =
        (d.grid.get px py != (hits d.grid.width d.grid.height x y sprite px py % 2 == 1)) :=
    Grid.inverted_get hx hy
  have drawn := drawSprite_inverts hw hh ⟨x, y, sprite⟩
  have collides : Collides d.grid x y sprite ↔ _ := collides_iff_hits hw hh
  refine ⟨_, _, drawn, rfl, rfl, fun px hx py hy => ?_, ?_, rfl, rfl, rfl, fun wide high => ?_⟩
  · rw [pixel px py hx hy, hits_eq_card hw hh, ← decide_odd]
  · simp only [← hits_eq_card hw hh]
    rw [decide_eq_true_iff, collides]
  · rw [decide_eq_true_iff, collides]
    refine exists_congr fun px => and_congr_right fun hx => exists_congr fun py =>
      and_congr_right fun hy => ?_
    rw [pixel px py hx hy]
    exact hit_lit_iff_turned_off wide high _

/-- Three columns and two rows, with the middle of the first row lit. -/
def oneLit : Display := ⟨(Grid.blank 3 2).flip 1 0, false, 4, 1⟩

/-- A sprite of three rows on it, wider and higher than it is. -/
theorem draw_exact_small : (1 ≤ oneLit.grid.width ∧ 1 ≤ oneLit.grid.height) ∧
    ∃ after collision, oneLit.drawSprite (-1) 5 [0xF1, 0x00, 0x41] = .ok (after, collision) ∧
      after.grid.get 0 1 = (false ^^
        decide (Odd (bitsOn 3 2 (-1) 5 [0xF1, 0x00, 0x41] 0 1).card)) ∧
      (collision = true ↔ ∃ px < 3, ∃ py < 2,
        1 ≤ (bitsOn 3 2 (-1) 5 [0xF1, 0x00, 0x41] px py).card ∧ oneLit.grid.get px py = true ∨
          2 ≤ (bitsOn 3 2 (-1) 5 [0xF1, 0x00, 0x41] px py).card) ∧
      collision = true ∧ after.draws = 5 := by
  obtain ⟨after, collision, drawn, -, -, pixel, hit, -, draws, -⟩ :=
    draw_exact (d := oneLit) (by decide) (by decide) (-1) 5 [0xF1, 0x00, 0x41]
  refine ⟨by decide, after, collision, drawn, pixel 0 (by decide) 1 (by decide), hit, ?_, draws⟩
  exact hit.mpr ⟨0, by decide, 1, by decide, .inr (by decide)⟩

end ChipEight.Display
