import ChipEight.Display
/-! # What a sprite leaves on the display

A draw is a walk over the pixels that the set bits of its sprite fall on, its *spots*, inverting
each.  So a pixel ends inverted when an odd number of spots fall on it (`drawSprite_eq`), and a lit
pixel was turned off when a spot falls on a lit pixel or two spots on the same one (`Collides`).
Spots are counted, not tested: on a display narrower than a sprite several bits of a row share a
pixel. -/

namespace ChipEight

namespace Grid

/-- The grid with a pixel for each place below its width and height. -/
def tabulate (width height : Nat) (pixel : Nat → Nat → Bool) : Grid where
  width := width
  height := height
  cells := Array.ofFn fun i : Fin (width * height) => pixel (i % width) (i / width)
  size_cells := by simp

@[simp] theorem tabulate_width (w h : Nat) (f : Nat → Nat → Bool) : (tabulate w h f).width = w := rfl

@[simp] theorem tabulate_height (w h : Nat) (f : Nat → Nat → Bool) :
    (tabulate w h f).height = h := rfl

theorem cell_lt {w h x y : Nat} (hx : x < w) (hy : y < h) : y * w + x < w * h := by
  have := Nat.mul_le_mul_right w (show y + 1 ≤ h by omega)
  rw [Nat.succ_mul, Nat.mul_comm h] at this
  omega

theorem cell_mod {w x : Nat} (hx : x < w) (y : Nat) : (y * w + x) % w = x := by
  rw [Nat.mul_add_mod_self_right, Nat.mod_eq_of_lt hx]

theorem cell_div {w x : Nat} (hx : x < w) (y : Nat) : (y * w + x) / w = y := by
  rw [Nat.add_comm, Nat.add_mul_div_right _ _ (by omega), Nat.div_eq_of_lt hx, Nat.zero_add]

theorem tabulate_get {w h x y : Nat} (f : Nat → Nat → Bool) (hx : x < w) (hy : y < h) :
    (tabulate w h f).get x y = f x y := by
  have hlt := cell_lt hx hy
  simp [get, tabulate, Array.getD_eq_getD_getElem?, hlt, cell_mod hx, cell_div hx]

/-- A grid is its size and its pixels. -/
theorem eq_tabulate {g : Grid} {w h : Nat} {f : Nat → Nat → Bool} (hw : g.width = w)
    (hh : g.height = h) (pixels : ∀ x y, x < w → y < h → g.get x y = f x y) :
    g = tabulate w h f := by
  obtain ⟨w', h', cells, size⟩ := g
  obtain rfl : w' = w := hw
  obtain rfl : h' = h := hh
  simp only [tabulate, mk.injEq, true_and]
  apply Array.ext (by simp [size])
  intro i hi _
  rw [size] at hi
  have hpos : 0 < w' := Nat.pos_of_ne_zero fun h0 => by simp [h0] at hi
  have hpix := pixels (i % w') (i / w') (Nat.mod_lt _ hpos)
    (Nat.div_lt_of_lt_mul hi)
  have hi' : i / w' * w' + i % w' = i := by rw [Nat.mul_comm]; exact Nat.div_add_mod i w'
  simp only [get, hi', Array.getD_eq_getD_getElem?] at hpix
  simpa [size, hi] using hpix

/-- Inverting one pixel changes it and no other. -/
theorem flip_get {g : Grid} {x y px py : Nat} (hx : x < g.width)
    (hpx : px < g.width) (hpy : py < g.height) :
    (g.flip x y).get px py = if (x, y) = (px, py) then !g.get px py else g.get px py := by
  have hlt : py * g.width + px < g.cells.size := by rw [g.size_cells]; exact cell_lt hpx hpy
  simp only [get, flip, Array.getD_eq_getD_getElem?, Array.getElem?_modify]
  by_cases same : (x, y) = (px, py)
  · obtain ⟨rfl, rfl⟩ := Prod.mk.inj same
    simp [hlt]
  · have cells_ne : y * g.width + x ≠ py * g.width + px := by
      intro he
      have hmod := congrArg (· % g.width) he
      have hdiv := congrArg (· / g.width) he
      simp only [cell_mod hx, cell_mod hpx, cell_div hx, cell_div hpx] at hmod hdiv
      exact same (by rw [hmod, hdiv])
    simp [same, cells_ne]

end Grid

namespace Display

/-- The pixels that the set bits of a sprite fall on, one entry for each bit, row by row. -/
def spots (width height : Nat) (x y : Int) (sprite : List Int) : List (Nat × Nat) :=
  sprite.zipIdx.flatMap fun (byte, row) =>
    ((List.range spriteWidth).filter (spriteBit byte)).map fun col : Nat =>
      (((x + col) % width).toNat, ((y + row) % height).toNat)

/-- How many set bits of a sprite fall on a pixel. -/
def hits (width height : Nat) (x y : Int) (sprite : List Int) (px py : Nat) : Nat :=
  (spots width height x y sprite).count (px, py)

/-- A lit pixel is turned off: one that was lit before, or one that an earlier bit has lit. -/
def Collides (g : Grid) (x y : Int) (sprite : List Int) : Prop :=
  ∃ p ∈ spots g.width g.height x y sprite,
    g.get p.1 p.2 = true ∨ 2 ≤ hits g.width g.height x y sprite p.1 p.2

instance (g : Grid) (x y : Int) (sprite : List Int) : Decidable (Collides g x y sprite) :=
  inferInstanceAs (Decidable (∃ p ∈ _, _))

/-! ## A draw as a walk over the spots -/

theorem spots_cons (w h : Nat) (x y : Int) (byte : Int) (rest : List Int) :
    spots w h x y (byte :: rest) =
      ((List.range spriteWidth).filter (spriteBit byte)).map
        (fun col : Nat => (((x + col) % w).toNat, (y % h).toNat)) ++ spots w h x (y + 1) rest := by
  have shift : ∀ row : Nat, y + (row + 1 : Nat) = y + 1 + row := by intro row; omega
  simp only [spots, List.zipIdx_cons, List.flatMap_cons, Int.natCast_zero, Int.add_zero]
  rw [List.zipIdx_succ, List.flatMap_map]
  simp only [shift]

theorem spots_lt {w h : Nat} (hw : 0 < w) (hh : 0 < h) {x y : Int} {sprite : List Int}
    {p : Nat × Nat} (hp : p ∈ spots w h x y sprite) : p.1 < w ∧ p.2 < h := by
  simp only [spots, List.mem_flatMap, List.mem_map] at hp
  obtain ⟨_, _, col, _, rfl⟩ := hp
  have hx := Int.emod_lt_of_pos (x + col) (show (0 : Int) < w by omega)
  constructor
  · dsimp only; omega
  · have := Int.emod_lt_of_pos (y + ‹Int × Nat›.2) (show (0 : Int) < h by omega)
    dsimp only; omega

def toggleAll (ps : List (Nat × Nat)) (s : Grid × Bool) : Grid × Bool :=
  ps.foldl (fun s p => toggle s p.1 p.2) s

theorem toggle_dims (s : Grid × Bool) (x y : Nat) :
    (toggle s x y).1.width = s.1.width ∧ (toggle s x y).1.height = s.1.height := ⟨rfl, rfl⟩

theorem toggleAll_dims (ps : List (Nat × Nat)) (s : Grid × Bool) :
    (toggleAll ps s).1.width = s.1.width ∧ (toggleAll ps s).1.height = s.1.height := by
  induction ps generalizing s with
  | nil => exact ⟨rfl, rfl⟩
  | cons p ps ih => exact ih (toggle s p.1 p.2)

theorem drawColumns_eq (x : Int) (py : Nat) (byte : Int) (s : Grid × Bool) :
    drawColumns x py byte s =
      toggleAll (((List.range spriteWidth).filter (spriteBit byte)).map
        fun col : Nat => (((x + col) % s.1.width).toNat, py)) s := by
  unfold drawColumns
  generalize List.range spriteWidth = cols
  induction cols generalizing s with
  | nil => rfl
  | cons col cols ih =>
    rw [List.foldl_cons, ih]
    by_cases set : spriteBit byte col = true
    · simp only [set, if_true, List.filter_cons_of_pos, List.map_cons, toggle_dims]
      rfl
    · simp only [set, if_false, List.filter_cons_of_neg, not_false_eq_true, Bool.false_eq_true]

theorem drawRows_eq (x y : Int) (sprite : List Int) (s : Grid × Bool) :
    drawRows x y sprite s = toggleAll (spots s.1.width s.1.height x y sprite) s := by
  induction sprite generalizing y s with
  | nil => rfl
  | cons byte rest ih =>
    have dims := toggleAll_dims (((List.range spriteWidth).filter (spriteBit byte)).map
      fun col : Nat => (((x + col) % s.1.width).toNat, (y % s.1.height).toNat)) s
    rw [drawRows, ih, drawColumns_eq, dims.1, dims.2, spots_cons]
    simp only [toggleAll, List.foldl_append]

/-! ## What the walk leaves -/

theorem toggle_get {s : Grid × Bool} {p : Nat × Nat} {px py : Nat} (hp : p.1 < s.1.width)
    (hpx : px < s.1.width) (hpy : py < s.1.height) :
    (toggle s p.1 p.2).1.get px py =
      if p = (px, py) then !s.1.get px py else s.1.get px py :=
  Grid.flip_get hp hpx hpy

/-- Each pixel is inverted as often as it is passed. -/
theorem toggleAll_get {ps : List (Nat × Nat)} {s : Grid × Bool}
    (inside : ∀ p ∈ ps, p.1 < s.1.width) {px py : Nat} (hpx : px < s.1.width)
    (hpy : py < s.1.height) :
    (toggleAll ps s).1.get px py = (s.1.get px py != (ps.count (px, py) % 2 == 1)) := by
  induction ps generalizing s with
  | nil => simp [toggleAll]
  | cons p ps ih =>
    have step := toggle_get (inside p (by simp)) hpx hpy
    have rest := ih (s := toggle s p.1 p.2) (fun q hq => inside q (by simp [hq])) hpx hpy
    have unfolded : toggleAll (p :: ps) s = toggleAll ps (toggle s p.1 p.2) := rfl
    rw [unfolded, rest, step, List.count_cons]
    by_cases same : p = (px, py)
    · simp only [same, if_true, beq_self_eq_true]
      rcases Nat.mod_two_eq_zero_or_one (ps.count (px, py)) with hc | hc <;>
        simp [hc, Nat.add_mod]
    · simp [same]

/-- The walk turns a lit pixel off at a pixel that is lit before it or passed twice. -/
theorem toggleAll_hit {ps : List (Nat × Nat)} {s : Grid × Bool}
    (inside : ∀ p ∈ ps, p.1 < s.1.width ∧ p.2 < s.1.height) :
    (toggleAll ps s).2 = true ↔
      s.2 = true ∨ ∃ p ∈ ps, s.1.get p.1 p.2 = true ∨ 2 ≤ ps.count p := by
  induction ps generalizing s with
  | nil => simp [toggleAll]
  | cons a ps ih =>
    have rest := ih (s := toggle s a.1 a.2) (fun q hq => inside q (by simp [hq]))
    have unfolded : toggleAll (a :: ps) s = toggleAll ps (toggle s a.1 a.2) := rfl
    have hit : (toggle s a.1 a.2).2 = (s.2 || s.1.get a.1 a.2) := rfl
    have after : ∀ p ∈ ps, (toggle s a.1 a.2).1.get p.1 p.2 =
        if a = p then !s.1.get p.1 p.2 else s.1.get p.1 p.2 := fun p hp =>
      toggle_get (inside a (by simp)).1 (inside p (by simp [hp])).1 (inside p (by simp [hp])).2
    rw [unfolded, rest, hit, Bool.or_eq_true]
    constructor
    · rintro ((old | lit) | ⟨p, hp, lit | twice⟩)
      · exact .inl old
      · exact .inr ⟨a, by simp, .inl lit⟩
      · rw [after p hp] at lit
        split at lit
        · -- lit by the first pass, so passed again later
          rename_i same
          subst same
          have := List.count_pos_iff.mpr hp
          exact .inr ⟨a, by simp, .inr (by rw [List.count_cons_self]; omega)⟩
        · exact .inr ⟨p, by simp [hp], .inl lit⟩
      · exact .inr ⟨p, by simp [hp], .inr (Nat.le_trans twice List.count_le_count_cons)⟩
    · rintro (old | ⟨p, hp, lit | twice⟩)
      · exact .inl (.inl old)
      · by_cases same : a = p
        · exact .inl (.inr (same ▸ lit))
        · have hp' : p ∈ ps := by simpa [Ne.symm same] using hp
          exact .inr ⟨p, hp', .inl (by rw [after p hp', if_neg same]; exact lit)⟩
      · by_cases same : a = p
        · subst same
          rw [List.count_cons_self] at twice
          have hp' : a ∈ ps := List.count_pos_iff.mp (by omega)
          by_cases lit : s.1.get a.1 a.2 = true
          · exact .inl (.inr lit)
          · exact .inr ⟨a, hp', .inl (by rw [after a hp', if_pos rfl]; simpa using lit)⟩
        · rw [List.count_cons_of_ne same] at twice
          exact .inr ⟨p, List.count_pos_iff.mp (by omega), .inr twice⟩

/-- **A draw in closed form.** -/
theorem drawSprite_eq {d : Display} (hw : 0 < d.grid.width) (hh : 0 < d.grid.height) (x y : Int)
    (sprite : List Int) :
    d.drawSprite x y sprite = .ok
      ({ d with
          grid := .tabulate d.grid.width d.grid.height fun px py =>
            d.grid.get px py != (hits d.grid.width d.grid.height x y sprite px py % 2 == 1)
          dirty := true
          draws := d.draws + 1 },
        decide (Collides d.grid x y sprite)) := by
  have placed : placeable d.grid sprite = true := by
    simp [placeable, Nat.pos_iff_ne_zero.mp hw, Nat.pos_iff_ne_zero.mp hh]
  have inside : ∀ p ∈ spots d.grid.width d.grid.height x y sprite,
      p.1 < d.grid.width ∧ p.2 < d.grid.height := fun p hp => spots_lt hw hh hp
  have grid := Grid.eq_tabulate (toggleAll_dims _ (d.grid, false)).1
    (toggleAll_dims _ (d.grid, false)).2 fun px py hpx hpy =>
      toggleAll_get (s := (d.grid, false)) (fun p hp => (inside p hp).1) hpx hpy
  have hit := toggleAll_hit (s := (d.grid, false)) inside
  simp only [drawSprite, placed, if_true, drawRows_eq]
  rw [grid]
  congr 2
  rw [Bool.eq_iff_iff, hit, decide_eq_true_iff]
  simp [Collides, hits]

end Display
end ChipEight
