import ChipEight.Proofs.Drawing
/-! # Sprites drawn one on top of the other

A run of draws inverts each pixel as often as all of its sprites together hit it
(`Display.drawAll_eq`), and only whether that number is odd counts.  A sum does not depend on the
order of its terms, and the same number twice is even: so neither does the picture depend on the
order of the draws, and what is drawn twice in one place is gone again, whatever was drawn in
between.  Where a sprite has room no two of its bits share a pixel (`Display.hits_of_room`), and a
draw collides exactly where a pixel was lit (`Display.redraw`). -/

namespace ChipEight

namespace Grid

/-- The grid with each pixel inverted so many times. -/
def inverted (g : Grid) (times : Nat → Nat → Nat) : Grid :=
  tabulate g.width g.height fun x y => g.get x y != (times x y % 2 == 1)

variable {g : Grid} {times times' : Nat → Nat → Nat}

@[simp] theorem inverted_width : (g.inverted times).width = g.width := rfl

@[simp] theorem inverted_height : (g.inverted times).height = g.height := rfl

theorem inverted_get {x y : Nat} (hx : x < g.width) (hy : y < g.height) :
    (g.inverted times).get x y = (g.get x y != (times x y % 2 == 1)) := tabulate_get _ hx hy

/-- Inverting a pixel an even number of times leaves it as it was. -/
theorem inverted_even (even : ∀ x y, times x y % 2 = 0) : g.inverted times = g := by
  refine (eq_tabulate rfl rfl fun x y _ _ => ?_).symm
  rw [even]
  exact (Bool.xor_false _).symm

theorem inverted_congr (same : ∀ x y, times x y % 2 = times' x y % 2) :
    g.inverted times = g.inverted times' := by
  simp only [inverted, same]

theorem bne_odd (lit : Bool) (a b : Nat) :
    ((lit != (a % 2 == 1)) != (b % 2 == 1)) = (lit != ((a + b) % 2 == 1)) := by
  rcases Nat.mod_two_eq_zero_or_one a with ha | ha <;>
    rcases Nat.mod_two_eq_zero_or_one b with hb | hb <;> simp [ha, hb, Nat.add_mod]

theorem inverted_inverted :
    (g.inverted times).inverted times' = g.inverted fun x y => times x y + times' x y := by
  refine eq_tabulate rfl rfl fun x y hx hy => ?_
  have again : ((g.inverted times).inverted times').get x y =
      ((g.inverted times).get x y != (times' x y % 2 == 1)) := inverted_get hx hy
  rw [again, inverted_get hx hy, bne_odd]

end Grid

/-- A sprite and where it is drawn. -/
structure Draw where
  x : Int
  y : Int
  sprite : List Int
  deriving DecidableEq, Repr

namespace Display

variable {d : Display} {w h : Nat} {a b draw : Draw}

/-- Draws one sprite after the other. -/
def drawAll (d : Display) : List Draw → Except Failure Display
  | [] => .ok d
  | draw :: rest =>
    match d.drawSprite draw.x draw.y draw.sprite with
    | .error e => .error e
    | .ok (d, _) => d.drawAll rest

/-- How many bits of all sprites together fall on a pixel. -/
def hitsAll (w h : Nat) : List Draw → Nat → Nat → Nat
  | [], _, _ => 0
  | draw :: rest, px, py =>
    hits w h draw.x draw.y draw.sprite px py + hitsAll w h rest px py

theorem hitsAll_cons (draw : Draw) (xs : List Draw) (px py : Nat) :
    hitsAll w h (draw :: xs) px py =
      hits w h draw.x draw.y draw.sprite px py + hitsAll w h xs px py := rfl

theorem hitsAll_append (xs ys : List Draw) (px py : Nat) :
    hitsAll w h (xs ++ ys) px py = hitsAll w h xs px py + hitsAll w h ys px py := by
  induction xs with
  | nil => exact (Nat.zero_add _).symm
  | cons draw xs ih => rw [List.cons_append, hitsAll_cons, hitsAll_cons, ih, Nat.add_assoc]

theorem hitsAll_perm {xs ys : List Draw} (perm : xs.Perm ys) (px py : Nat) :
    hitsAll w h xs px py = hitsAll w h ys px py := by
  induction perm with
  | nil => rfl
  | cons draw _ ih => rw [hitsAll_cons, hitsAll_cons, ih]
  | swap a b rest =>
    rw [hitsAll_cons, hitsAll_cons, hitsAll_cons, hitsAll_cons]
    omega
  | trans _ _ first second => exact first.trans second

/-- One draw, with its grid as an inversion of the grid before. -/
theorem drawSprite_inverts (hw : 0 < d.grid.width) (hh : 0 < d.grid.height) (draw : Draw) :
    d.drawSprite draw.x draw.y draw.sprite = .ok
      ({ d with
          grid := d.grid.inverted (hits d.grid.width d.grid.height draw.x draw.y draw.sprite)
          dirty := true
          draws := d.draws + 1 },
        decide (Collides d.grid draw.x draw.y draw.sprite)) :=
  drawSprite_eq hw hh draw.x draw.y draw.sprite

/-- **A run of draws** inverts each pixel as often as it is hit. -/
theorem drawAll_eq (hw : 0 < d.grid.width) (hh : 0 < d.grid.height) (draws : List Draw) :
    ∃ t, d.drawAll draws = .ok t ∧
      t.grid = d.grid.inverted (hitsAll d.grid.width d.grid.height draws) := by
  induction draws generalizing d with
  | nil => exact ⟨d, rfl, (Grid.inverted_even fun _ _ => rfl).symm⟩
  | cons draw draws ih =>
    rw [drawAll, drawSprite_inverts hw hh]
    dsimp only
    obtain ⟨t, ran, grid⟩ := ih
      (d := { d with
        grid := d.grid.inverted (hits d.grid.width d.grid.height draw.x draw.y draw.sprite)
        dirty := true
        draws := d.draws + 1 }) hw hh
    refine ⟨t, ran, ?_⟩
    rw [grid]
    exact Grid.inverted_inverted.trans (Grid.inverted_congr fun px py => by rw [hitsAll_cons]; rfl)

/-- Runs that hit each pixel equally often, but for an even number of times, leave one picture. -/
theorem drawAll_congr (hw : 0 < d.grid.width) (hh : 0 < d.grid.height) {xs ys : List Draw}
    (same : ∀ px py, hitsAll d.grid.width d.grid.height ys px py % 2 =
      hitsAll d.grid.width d.grid.height xs px py % 2) {t : Display} (ran : d.drawAll xs = .ok t) :
    ∃ u, d.drawAll ys = .ok u ∧ u.grid = t.grid := by
  obtain ⟨t', ran', grid⟩ := drawAll_eq hw hh xs
  obtain rfl : t = t' := Except.ok.inj (ran.symm.trans ran')
  obtain ⟨u, drawn, picture⟩ := drawAll_eq hw hh ys
  exact ⟨u, drawn, by rw [picture, grid, Grid.inverted_congr same]⟩

/-! ## Two draws in one place -/

/-- Draws of one sprite in places that are the same on a display of the size. -/
structure Coincide (w h : Nat) (a b : Draw) : Prop where
  x : a.x % w = b.x % w
  y : a.y % h = b.y % h
  sprite : a.sprite = b.sprite

theorem spots_congr (same : Coincide w h a b) :
    spots w h a.x a.y a.sprite = spots w h b.x b.y b.sprite := by
  have column (col : Nat) : (a.x + col) % w = (b.x + col) % w := by
    rw [← Int.emod_add_emod, same.x, Int.emod_add_emod]
  have line (row : Nat) : (a.y + row) % h = (b.y + row) % h := by
    rw [← Int.emod_add_emod, same.y, Int.emod_add_emod]
  simp only [spots, same.sprite, column, line]

theorem hitsAll_cancel (same : Coincide w h a b) (before between after : List Draw) (px py : Nat) :
    hitsAll w h (before ++ between ++ after) px py % 2 =
      hitsAll w h (before ++ a :: (between ++ b :: after)) px py % 2 := by
  have twice : hits w h a.x a.y a.sprite px py = hits w h b.x b.y b.sprite px py := by
    rw [hits, hits, spots_congr same]
  simp only [hitsAll_append, hitsAll_cons, twice]
  omega

/-! ## Sprites with room -/

/-- A set bit of the sprite falls on the pixel. -/
def Covers (w h : Nat) (draw : Draw) (px py : Nat) : Prop :=
  ∃ (row col : Nat) (byte : Int), draw.sprite[row]? = some byte ∧ col < spriteWidth ∧
    spriteBit byte col = true ∧ (px : Int) = (draw.x + col) % w ∧ (py : Int) = (draw.y + row) % h

theorem mem_spots_iff (hw : 0 < w) (hh : 0 < h) {px py : Nat} :
    (px, py) ∈ spots w h draw.x draw.y draw.sprite ↔ Covers w h draw px py := by
  simp only [spots, List.mem_flatMap, List.mem_map, List.mem_filter, List.mem_range, Prod.exists,
    Prod.mk.injEq, List.mem_zipIdx_iff_getElem?, Covers]
  constructor
  · rintro ⟨byte, row, there, col, ⟨small, set⟩, rfl, rfl⟩
    refine ⟨row, col, byte, there, small, set, ?_, ?_⟩
    · exact Int.toNat_of_nonneg (Int.emod_nonneg _ (by omega))
    · exact Int.toNat_of_nonneg (Int.emod_nonneg _ (by omega))
  · rintro ⟨row, col, byte, there, small, set, column, line⟩
    exact ⟨byte, row, there, col, ⟨small, set⟩, by omega, by omega⟩

/-- Steps that are shorter than the way around lead to different places. -/
theorem eq_of_emod_add {n : Nat} {x : Int} {i j : Nat} (hi : i < n) (hj : j < n)
    (same : ((x + i) % n).toNat = ((x + j) % n).toNat) : i = j := by
  have hxi := Int.emod_nonneg (x + i) (show (n : Int) ≠ 0 by omega)
  have hxj := Int.emod_nonneg (x + j) (show (n : Int) ≠ 0 by omega)
  have steps : (i : Int) % n = j % n := by
    rw [← Int.emod_add_cancel_left (i := x)]
    omega
  rw [Int.emod_eq_of_lt (by omega) (by omega), Int.emod_eq_of_lt (by omega) (by omega)] at steps
  omega

/-- On a display that is as wide as sprites are, and as high as the sprite, each bit has a pixel of
its own. -/
theorem nodup_spots (wide : spriteWidth ≤ w) (high : draw.sprite.length ≤ h) :
    (spots w h draw.x draw.y draw.sprite).Nodup := by
  rw [spots, List.Nodup, List.pairwise_flatMap]
  constructor
  · rintro ⟨byte, row⟩ -
    rw [List.pairwise_map]
    refine (List.nodup_range.filter _).imp_of_mem fun {i j} hi hj other => ?_
    have hi := List.mem_range.mp (List.mem_filter.mp hi).1
    have hj := List.mem_range.mp (List.mem_filter.mp hj).1
    intro same
    exact other (eq_of_emod_add (by omega) (by omega) (Prod.mk.inj same).1)
  · have rows : draw.sprite.zipIdx.Pairwise fun p q => p.2 ≠ q.2 := by
      rw [← List.pairwise_map (f := Prod.snd), List.zipIdx_map_snd]
      exact List.nodup_range'
    refine rows.imp_of_mem fun {p q} hp hq other => ?_
    have hp := List.snd_lt_of_mem_zipIdx hp
    have hq := List.snd_lt_of_mem_zipIdx hq
    rintro _ inP _ inQ rfl
    obtain ⟨_, -, rfl⟩ := List.mem_map.mp inP
    obtain ⟨_, -, same⟩ := List.mem_map.mp inQ
    exact other (eq_of_emod_add (by omega) (by omega) (Prod.mk.inj same).2).symm

theorem hits_of_room (wide : spriteWidth ≤ w) (high : draw.sprite.length ≤ h) {px py : Nat}
    (mem : (px, py) ∈ spots w h draw.x draw.y draw.sprite) :
    hits w h draw.x draw.y draw.sprite px py = 1 :=
  (nodup_spots wide high).count.trans (if_pos mem)

/-- Where there is room, a draw collides where a lit pixel is covered. -/
theorem collides_iff_of_room {g : Grid} (hh : 0 < g.height) (wide : spriteWidth ≤ g.width)
    (high : draw.sprite.length ≤ g.height) :
    Collides g draw.x draw.y draw.sprite ↔
      ∃ px py, Covers g.width g.height draw px py ∧ g.get px py = true := by
  have hw : 0 < g.width := Nat.lt_of_lt_of_le (by decide) wide
  constructor
  · rintro ⟨⟨px, py⟩, mem, lit | twice⟩
    · exact ⟨px, py, (mem_spots_iff hw hh).mp mem, lit⟩
    · rw [hits_of_room wide high mem] at twice
      omega
  · rintro ⟨px, py, covered, lit⟩
    exact ⟨(px, py), (mem_spots_iff hw hh).mpr covered, .inl lit⟩

/-- A byte with a bit among its low eight has one in a column of the sprite. -/
theorem spriteBit_of_ne {byte : Int} (set : byte % 256 ≠ 0) :
    ∃ col < spriteWidth, spriteBit byte col = true := by
  refine Decidable.byContradiction fun none_ => ?_
  have clear (col : Nat) (inside : col < 8) : byte / 2 ^ (7 - col) % 2 = 0 := by
    have dark : ¬ spriteBit byte col = true := fun lit => none_ ⟨col, inside, lit⟩
    have shifted : ¬ byte / ((2 ^ (7 - col) : Nat) : Int) % 2 = 1 := by
      rwa [spriteBit, Int.shiftRight_eq_div_pow, beq_iff_eq] at dark
    rw [Int.natCast_pow] at shifted
    exact (Int.emod_two_eq _).resolve_right shifted
  have b0 := clear 0 (by decide)
  have b1 := clear 1 (by decide)
  have b2 := clear 2 (by decide)
  have b3 := clear 3 (by decide)
  have b4 := clear 4 (by decide)
  have b5 := clear 5 (by decide)
  have b6 := clear 6 (by decide)
  have b7 := clear 7 (by decide)
  omega

theorem covers_of_nonblank (hw : 0 < w) (hh : 0 < h)
    (nonblank : ∃ byte ∈ draw.sprite, byte % 256 ≠ 0) : ∃ px py, Covers w h draw px py := by
  obtain ⟨byte, mem, set⟩ := nonblank
  obtain ⟨row, there⟩ := List.mem_iff_getElem?.mp mem
  obtain ⟨col, inside, lit⟩ := spriteBit_of_ne set
  refine ⟨((draw.x + col) % w).toNat, ((draw.y + row) % h).toNat, row, col, byte, there, inside,
    lit, ?_, ?_⟩
  · exact Int.toNat_of_nonneg (Int.emod_nonneg _ (by omega))
  · exact Int.toNat_of_nonneg (Int.emod_nonneg _ (by omega))

/-- Of two equal draws, one right after the other, the second collides where the first has lit a
pixel. -/
theorem redraw (hh : 0 < d.grid.height) (wide : spriteWidth ≤ d.grid.width)
    (high : draw.sprite.length ≤ d.grid.height) : ∃ first second c₁ c₂,
    d.drawSprite draw.x draw.y draw.sprite = .ok (first, c₁) ∧
    first.drawSprite draw.x draw.y draw.sprite = .ok (second, c₂) ∧
    (c₁ = true ↔ ∃ px py, Covers d.grid.width d.grid.height draw px py ∧
      d.grid.get px py = true) ∧
    (c₂ = true ↔ ∃ px py, Covers d.grid.width d.grid.height draw px py ∧
      d.grid.get px py = false) := by
  have hw : 0 < d.grid.width := Nat.lt_of_lt_of_le (by decide) wide
  have first := drawSprite_inverts hw hh draw
  refine ⟨_, _, _, _, first, drawSprite_inverts (d := { d with
    grid := d.grid.inverted (hits d.grid.width d.grid.height draw.x draw.y draw.sprite)
    dirty := true
    draws := d.draws + 1 }) hw hh draw, ?_, ?_⟩
  · rw [decide_eq_true_iff]
    exact collides_iff_of_room hh wide high
  · rw [decide_eq_true_iff, collides_iff_of_room (by exact hh) (by exact wide) (by exact high)]
    refine exists_congr fun px => exists_congr fun py => and_congr_right fun covered => ?_
    have mem := (mem_spots_iff hw hh).mpr covered
    obtain ⟨hx, hy⟩ := spots_lt hw hh mem
    dsimp only at hx hy ⊢
    rw [Grid.inverted_get hx hy, hits_of_room wide high mem]
    simp

/-- **Draws are an exclusive or.**  The order in which sprites are drawn does not show, two draws of
one sprite in one place leave no trace, and so neither does a run that is drawn twice.  Where the
sprite has room, of two equal draws in a row the second collides if and only if a pixel under the
sprite was dark before the first, and so one of the two collides unless the sprite is blank. -/
theorem draws_commute_and_cancel (hw : 0 < d.grid.width) (hh : 0 < d.grid.height)
    (draws : List Draw) : ∃ t, d.drawAll draws = .ok t ∧
    (∀ other, draws.Perm other → ∃ u, d.drawAll other = .ok u ∧ u.grid = t.grid) ∧
    (∀ before a between b after, draws = before ++ a :: (between ++ b :: after) →
      Coincide d.grid.width d.grid.height a b →
      ∃ u, d.drawAll (before ++ between ++ after) = .ok u ∧ u.grid = t.grid) ∧
    (∃ u, d.drawAll (draws ++ draws) = .ok u ∧ u.grid = d.grid) ∧
    ∀ draw : Draw, 8 ≤ d.grid.width → draw.sprite.length ≤ d.grid.height →
      ∃ first second c₁ c₂, d.drawSprite draw.x draw.y draw.sprite = .ok (first, c₁) ∧
        first.drawSprite draw.x draw.y draw.sprite = .ok (second, c₂) ∧
        (c₂ = true ↔ ∃ px py, Covers d.grid.width d.grid.height draw px py ∧
          d.grid.get px py = false) ∧
        ((∃ byte ∈ draw.sprite, byte % 256 ≠ 0) → c₁ = true ∨ c₂ = true) := by
  obtain ⟨t, ran, -⟩ := drawAll_eq hw hh draws
  refine ⟨t, ran, fun other perm => ?_, ?_, ?_, fun draw wide high => ?_⟩
  · refine drawAll_congr hw hh (fun px py => ?_) ran
    rw [hitsAll_perm perm]
  · rintro before a between b after rfl same
    exact drawAll_congr hw hh (hitsAll_cancel same before between after) ran
  · obtain ⟨u, drawn, grid⟩ := drawAll_eq hw hh (draws ++ draws)
    refine ⟨u, drawn, grid.trans (Grid.inverted_even fun px py => ?_)⟩
    rw [hitsAll_append]
    omega
  · obtain ⟨first, second, c₁, c₂, drawn, redrawn, lit, dark⟩ := redraw hh wide high
    refine ⟨first, second, c₁, c₂, drawn, redrawn, dark, fun nonblank => ?_⟩
    obtain ⟨px, py, covered⟩ := covers_of_nonblank hw hh nonblank
    cases pixel : d.grid.get px py with
    | true => exact .inl (lit.mpr ⟨px, py, covered, pixel⟩)
    | false => exact .inr (dark.mpr ⟨px, py, covered, pixel⟩)

/-- A bar, a dot, and the bar again in the same place on a display of eight columns and two rows. -/
def barDotBar : List Draw := [⟨6, 1, [0xF0]⟩, ⟨7, 1, [0x80]⟩, ⟨-2, 3, [0xF0]⟩]

theorem draws_commute_and_cancel_bar :
    let d : Display := ⟨.blank 8 2, false, 0, 0⟩
    (0 < d.grid.width ∧ 0 < d.grid.height) ∧ ∃ t, d.drawAll barDotBar = .ok t ∧
      (∃ u, d.drawAll barDotBar.reverse = .ok u ∧ u.grid = t.grid) ∧
      (∃ u, d.drawAll [⟨7, 1, [0x80]⟩] = .ok u ∧ u.grid = t.grid) ∧
      (∃ u, d.drawAll (barDotBar ++ barDotBar) = .ok u ∧ u.grid = d.grid) ∧
      ∃ first second c₁ c₂, d.drawSprite 6 1 [0xF0] = .ok (first, c₁) ∧
        first.drawSprite 6 1 [0xF0] = .ok (second, c₂) ∧ (c₁ = true ∨ c₂ = true) := by
  intro d
  obtain ⟨t, ran, reorder, cancel, twice, redrawn⟩ :=
    draws_commute_and_cancel (d := d) (by decide) (by decide) barDotBar
  obtain ⟨first, second, c₁, c₂, drawn, again, -, collides⟩ :=
    redrawn ⟨6, 1, [0xF0]⟩ (by decide) (by decide)
  exact ⟨by decide, t, ran, reorder _ (List.reverse_perm _).symm,
    cancel [] _ [⟨7, 1, [0x80]⟩] _ [] rfl ⟨by decide, by decide, rfl⟩, twice,
    first, second, c₁, c₂, drawn, again, collides ⟨0xF0, by decide, by decide⟩⟩

end Display
end ChipEight
