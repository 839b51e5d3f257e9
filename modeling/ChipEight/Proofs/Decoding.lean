import ChipEight.Proofs.InstructionTable
/-! # Decoding reads the table

`denotes_iff`: the decoder and the first column of the instruction table agree on every word.  So no
two rows claim one word, and a word that no row claims is the one that the decoder calls unknown. -/

namespace ChipEight

section Fields
variable {w k : Nat}

theorem fields_nnn {nnn : Nat} (hn : nnn < 0x1000) (hw : w = k * 0x1000 + nnn) :
    w / 4096 = k ∧ w % 4096 = nnn := by omega

theorem fields_xnn {x : Reg} {nn : UInt8} (hw : w = k * 0x1000 + 0x100 * x + nn.toNat) :
    w / 4096 = k ∧ (⟨w / 256 % 16, Nat.mod_lt _ (by decide)⟩ : Reg) = x ∧
      UInt8.ofNat (w % 256) = nn := by
  have hx := x.isLt
  have hn := nn.toNat_lt
  refine ⟨by omega, Fin.ext (show w / 256 % 16 = x.val by omega), UInt8.toNat_inj.mp ?_⟩
  simp only [UInt8.toNat_ofNat']
  omega

theorem fields_xyn {x y : Reg} {n : Nat} (hn : n < 0x10)
    (hw : w = k * 0x1000 + n + 0x100 * x + 0x10 * y) :
    w / 4096 = k ∧ (⟨w / 256 % 16, Nat.mod_lt _ (by decide)⟩ : Reg) = x ∧
      (⟨w / 16 % 16, Nat.mod_lt _ (by decide)⟩ : Reg) = y ∧ w % 16 = n := by
  have hx := x.isLt
  have hy := y.isLt
  exact ⟨by omega, Fin.ext (show w / 256 % 16 = x.val by omega),
    Fin.ext (show w / 16 % 16 = y.val by omega), by omega⟩

theorem fields_xb {x : Reg} {b : Nat} (hb : b < 0x100) (hw : w = k * 0x1000 + b + 0x100 * x) :
    w / 4096 = k ∧ (⟨w / 256 % 16, Nat.mod_lt _ (by decide)⟩ : Reg) = x ∧ w % 256 = b := by
  have hx := x.isLt
  exact ⟨by omega, Fin.ext (show w / 256 % 16 = x.val by omega), by omega⟩

end Fields

/-- Every row is decoded to its own operation. -/
theorem Encodes.ofWord_eq {w : Nat} {op : Operation} (h : Encodes w op) :
    Operation.ofWord w = op := by
  cases h with
  | clear hw => subst hw; rfl
  | ret hw => subst hw; rfl
  | jump hn hw =>
    obtain ⟨hk, hnnn⟩ := fields_nnn (k := 0x1) hn hw
    simp only [Operation.ofWord, hk, hnnn]
  | call hn hw =>
    obtain ⟨hk, hnnn⟩ := fields_nnn (k := 0x2) hn hw
    simp only [Operation.ofWord, hk, hnnn]
  | loadIndex hn hw =>
    obtain ⟨hk, hnnn⟩ := fields_nnn (k := 0xA) hn hw
    simp only [Operation.ofWord, hk, hnnn]
  | jumpOffset hn hw =>
    obtain ⟨hk, hnnn⟩ := fields_nnn (k := 0xB) hn hw
    simp only [Operation.ofWord, hk, hnnn]
  | skipEq hw =>
    obtain ⟨hk, hx, hnn⟩ := fields_xnn (k := 0x3) hw
    simp only [Operation.ofWord, hk, hx, hnn]
  | skipNe hw =>
    obtain ⟨hk, hx, hnn⟩ := fields_xnn (k := 0x4) hw
    simp only [Operation.ofWord, hk, hx, hnn]
  | load hw =>
    obtain ⟨hk, hx, hnn⟩ := fields_xnn (k := 0x6) hw
    simp only [Operation.ofWord, hk, hx, hnn]
  | add hw =>
    obtain ⟨hk, hx, hnn⟩ := fields_xnn (k := 0x7) hw
    simp only [Operation.ofWord, hk, hx, hnn]
  | random hw =>
    obtain ⟨hk, hx, hnn⟩ := fields_xnn (k := 0xC) hw
    simp only [Operation.ofWord, hk, hx, hnn]
  | skipEqReg hw =>
    obtain ⟨hk, hx, hy, hn⟩ := fields_xyn (k := 0x5) (n := 0x0) (by decide) hw
    simp only [Operation.ofWord, hk, hx, hy, hn, beq_self_eq_true, if_true]
  | skipNeReg hw =>
    obtain ⟨hk, hx, hy, hn⟩ := fields_xyn (k := 0x9) (n := 0x0) (by decide) hw
    simp only [Operation.ofWord, hk, hx, hy, hn, beq_self_eq_true, if_true]
  | move hw =>
    obtain ⟨hk, hx, hy, hn⟩ := fields_xyn (k := 0x8) (n := 0x0) (by decide) hw
    simp only [Operation.ofWord, hk, hx, hy, hn]
  | or hw =>
    obtain ⟨hk, hx, hy, hn⟩ := fields_xyn (k := 0x8) (n := 0x1) (by decide) hw
    simp only [Operation.ofWord, hk, hx, hy, hn]
  | and hw =>
    obtain ⟨hk, hx, hy, hn⟩ := fields_xyn (k := 0x8) (n := 0x2) (by decide) hw
    simp only [Operation.ofWord, hk, hx, hy, hn]
  | xor hw =>
    obtain ⟨hk, hx, hy, hn⟩ := fields_xyn (k := 0x8) (n := 0x3) (by decide) hw
    simp only [Operation.ofWord, hk, hx, hy, hn]
  | addReg hw =>
    obtain ⟨hk, hx, hy, hn⟩ := fields_xyn (k := 0x8) (n := 0x4) (by decide) hw
    simp only [Operation.ofWord, hk, hx, hy, hn]
  | sub hw =>
    obtain ⟨hk, hx, hy, hn⟩ := fields_xyn (k := 0x8) (n := 0x5) (by decide) hw
    simp only [Operation.ofWord, hk, hx, hy, hn]
  | shiftRight hw =>
    obtain ⟨hk, hx, hy, hn⟩ := fields_xyn (k := 0x8) (n := 0x6) (by decide) hw
    simp only [Operation.ofWord, hk, hx, hy, hn]
  | subFrom hw =>
    obtain ⟨hk, hx, hy, hn⟩ := fields_xyn (k := 0x8) (n := 0x7) (by decide) hw
    simp only [Operation.ofWord, hk, hx, hy, hn]
  | shiftLeft hw =>
    obtain ⟨hk, hx, hy, hn⟩ := fields_xyn (k := 0x8) (n := 0xE) (by decide) hw
    simp only [Operation.ofWord, hk, hx, hy, hn]
  | @draw x y n hn hw =>
    obtain ⟨hk, hx, hy, hn⟩ := fields_xyn (x := x) (y := y) (k := 0xD) hn (show w = _ by omega)
    simp only [Operation.ofWord, hk, hx, hy, hn]
  | skipPressed hw =>
    obtain ⟨hk, hx, hb⟩ := fields_xb (k := 0xE) (b := 0x9E) (by decide) hw
    simp only [Operation.ofWord, hk, hx, hb]
  | skipReleased hw =>
    obtain ⟨hk, hx, hb⟩ := fields_xb (k := 0xE) (b := 0xA1) (by decide) hw
    simp only [Operation.ofWord, hk, hx, hb]
  | readDelay hw =>
    obtain ⟨hk, hx, hb⟩ := fields_xb (k := 0xF) (b := 0x07) (by decide) hw
    simp only [Operation.ofWord, hk, hx, hb]
  | waitKey hw =>
    obtain ⟨hk, hx, hb⟩ := fields_xb (k := 0xF) (b := 0x0A) (by decide) hw
    simp only [Operation.ofWord, hk, hx, hb]
  | setDelay hw =>
    obtain ⟨hk, hx, hb⟩ := fields_xb (k := 0xF) (b := 0x15) (by decide) hw
    simp only [Operation.ofWord, hk, hx, hb]
  | setSound hw =>
    obtain ⟨hk, hx, hb⟩ := fields_xb (k := 0xF) (b := 0x18) (by decide) hw
    simp only [Operation.ofWord, hk, hx, hb]
  | addIndex hw =>
    obtain ⟨hk, hx, hb⟩ := fields_xb (k := 0xF) (b := 0x1E) (by decide) hw
    simp only [Operation.ofWord, hk, hx, hb]
  | glyph hw =>
    obtain ⟨hk, hx, hb⟩ := fields_xb (k := 0xF) (b := 0x29) (by decide) hw
    simp only [Operation.ofWord, hk, hx, hb]
  | digits hw =>
    obtain ⟨hk, hx, hb⟩ := fields_xb (k := 0xF) (b := 0x33) (by decide) hw
    simp only [Operation.ofWord, hk, hx, hb]
  | store hw =>
    obtain ⟨hk, hx, hb⟩ := fields_xb (k := 0xF) (b := 0x55) (by decide) hw
    simp only [Operation.ofWord, hk, hx, hb]
  | fetch hw =>
    obtain ⟨hk, hx, hb⟩ := fields_xb (k := 0xF) (b := 0x65) (by decide) hw
    simp only [Operation.ofWord, hk, hx, hb]

theorem Encodes.ne_unknown {w w' : Nat} {op : Operation} (h : Encodes w op) :
    op ≠ .unknown w' := by
  cases h <;> nofun

/-- What is decoded has a row, or is unknown. -/
theorem Operation.ofWord_encodes {w : Nat} (hw : w < 65536) :
    Encodes w (ofWord w) ∨ ofWord w = .unknown w := by
  simp only [ofWord]
  split
  · split
    · exact .inl (.clear (beq_iff_eq.mp ‹_›))
    · split
      · exact .inl (.ret (beq_iff_eq.mp ‹_›))
      · exact .inr rfl
  · exact .inl (.jump (by omega) (by omega))
  · exact .inl (.call (by omega) (by omega))
  · exact .inl (.skipEq (by simp; omega))
  · exact .inl (.skipNe (by simp; omega))
  · split
    · rename_i hn
      exact .inl (.skipEqReg (by simp at hn ⊢; omega))
    · exact .inr rfl
  · exact .inl (.load (by simp; omega))
  · exact .inl (.add (by simp; omega))
  · split
    · exact .inl (.move (by simp; omega))
    · exact .inl (.or (by simp; omega))
    · exact .inl (.and (by simp; omega))
    · exact .inl (.xor (by simp; omega))
    · exact .inl (.addReg (by simp; omega))
    · exact .inl (.sub (by simp; omega))
    · exact .inl (.shiftRight (by simp; omega))
    · exact .inl (.subFrom (by simp; omega))
    · exact .inl (.shiftLeft (by simp; omega))
    · exact .inr rfl
  · split
    · rename_i hn
      exact .inl (.skipNeReg (by simp at hn ⊢; omega))
    · exact .inr rfl
  · exact .inl (.loadIndex (by omega) (by omega))
  · exact .inl (.jumpOffset (by omega) (by omega))
  · exact .inl (.random (by simp; omega))
  · exact .inl (.draw (by omega) (by simp; omega))
  · split
    · exact .inl (.skipPressed (by simp; omega))
    · exact .inl (.skipReleased (by simp; omega))
    · exact .inr rfl
  · -- the last group: the digits before are excluded, so this is the digit F
    have last : w / 4096 = 15 := by grind
    split
    · exact .inl (.readDelay (by simp; omega))
    · exact .inl (.waitKey (by simp; omega))
    · exact .inl (.setDelay (by simp; omega))
    · exact .inl (.setSound (by simp; omega))
    · exact .inl (.addIndex (by simp; omega))
    · exact .inl (.glyph (by simp; omega))
    · exact .inl (.digits (by simp; omega))
    · exact .inl (.store (by simp; omega))
    · exact .inl (.fetch (by simp; omega))
    · exact .inr rfl

/-- **The decoder agrees with the table.** -/
theorem denotes_iff {w : Nat} (hw : w < 65536) {op : Operation} :
    Denotes w op ↔ Operation.ofWord w = op := by
  constructor
  · rintro (row | ⟨rfl, unlisted⟩)
    · exact row.ofWord_eq
    · exact (Operation.ofWord_encodes hw).resolve_left (unlisted _)
  · rintro rfl
    rcases Operation.ofWord_encodes hw with row | unknown
    · exact .inl row
    · refine .inr ⟨unknown, fun listed row => ?_⟩
      exact row.ne_unknown (row.ofWord_eq.symm.trans unknown)

end ChipEight
