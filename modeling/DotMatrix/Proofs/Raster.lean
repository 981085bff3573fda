import DotMatrix.Raster
import DotMatrix.Proofs.AddressSpace

namespace DotMatrix.Raster

/-- The vertical blanks that begin in a count of lines. Ten lines after its first one a vertical
blank is over. -/
def blanks (line count : Nat) : Nat :=
  (line + count + 10) / linesPerFrame - (line + 10) / linesPerFrame

def skip (r : Raster) (count : Nat) : Raster :=
  { r with
    line := ⟨(r.line + count) % linesPerFrame, Nat.mod_lt _ (by decide)⟩
    frames := r.frames + blanks r.line count }

def ofTotal (total : Nat) : Raster where
  lineCycles := ⟨total % cyclesPerLine, Nat.mod_lt _ (by decide)⟩
  line := ⟨total / cyclesPerLine % linesPerFrame, Nat.mod_lt _ (by decide)⟩
  frames := (total / cyclesPerLine + 10) / linesPerFrame

theorem blanks_one (line : Fin linesPerFrame) :
    blanks line 1 = if line + 1 = vblankLine then 1 else 0 := by
  revert line
  decide

theorem blanks_add (line m n : Nat) :
    blanks line (m + n) = blanks line m + blanks ((line + m) % linesPerFrame) n := by
  simp only [blanks, linesPerFrame]
  omega

theorem skip_zero (r : Raster) : r.skip 0 = r := by
  simp [skip, blanks, Nat.mod_eq_of_lt]

theorem skip_add (r : Raster) (m n : Nat) : (r.skip m).skip n = r.skip (m + n) := by
  simp only [skip, blanks_add, Nat.mod_add_mod, Nat.add_assoc]

theorem line_skip_one (r : Raster) : (r.skip 1).line = r.line + 1 :=
  (Fin.ext (Fin.val_add r.line 1)).symm

theorem nextLine_fst (r : Raster) (s : AddressSpace) : (r.nextLine s).1 = r.skip 1 := by
  have hline : r.line + 1 = (r.skip 1).line := r.line_skip_one.symm
  unfold nextLine
  by_cases h : r.line + 1 = vblankLine
  · simpa [skip, blanks_one, h] using hline
  · simpa [skip, blanks_one, h] using hline

theorem nextLines_fst (count : Nat) (r : Raster) (s : AddressSpace) :
    (nextLines count r s).1 = r.skip count := by
  induction count generalizing r s with
  | zero => exact r.skip_zero.symm
  | succ count ih =>
    rw [nextLines, ih, nextLine_fst, skip_add, Nat.add_comm]

theorem tick_fst (r : Raster) (s : AddressSpace) (cycles : Nat) :
    (r.tick s cycles).1 =
      { r.skip ((r.lineCycles + cycles) / cyclesPerLine) with
        lineCycles := ⟨(r.lineCycles + cycles) % cyclesPerLine, Nat.mod_lt _ (by decide)⟩ } := by
  simp only [tick, nextLines_fst, skip]

theorem tick_ofTotal (total cycles : Nat) (s : AddressSpace) :
    ((ofTotal total).tick s cycles).1 = ofTotal (total + cycles) := by
  simp only [tick_fst, ofTotal, skip, blanks, mk.injEq, Fin.mk.injEq, cyclesPerLine, linesPerFrame]
  refine ⟨?_, ?_, ?_⟩ <;> omega

theorem read_nextLine (r : Raster) (s : AddressSpace) (addr : UInt16) :
    (r.nextLine s).2.read addr =
      if addr = Interrupt.requestAddr ∧ 0 < blanks r.line 1 then
        s.read addr ||| Interrupt.vblank.mask
      else s.read addr := by
  unfold nextLine
  by_cases h : r.line + 1 = vblankLine
  · simp [blanks_one, h, AddressSpace.read_request]
  · simp [blanks_one, h]

theorem read_nextLines (count : Nat) (r : Raster) (s : AddressSpace) (addr : UInt16) :
    (nextLines count r s).2.read addr =
      if addr = Interrupt.requestAddr ∧ 0 < blanks r.line count then
        s.read addr ||| Interrupt.vblank.mask
      else s.read addr := by
  induction count generalizing r s with
  | zero => simp [nextLines, blanks]
  | succ count ih =>
    have hadd : blanks r.line (count + 1) = blanks r.line 1 + blanks (r.skip 1).line count := by
      rw [Nat.add_comm, blanks_add, skip]
    have hpos := Nat.add_pos_iff_pos_or_pos (m := blanks r.line 1)
      (n := blanks (r.skip 1).line count)
    rw [nextLines, ih, nextLine_fst, read_nextLine, hadd]
    by_cases hone : 0 < blanks r.line 1
    · by_cases ha : addr = Interrupt.requestAddr <;> simp [hpos, hone, ha, UInt8.or_assoc]
    · simp [Nat.eq_zero_of_not_pos hone]

theorem frames_lt_tick_iff (r : Raster) (s : AddressSpace) (cycles : Nat) :
    r.frames < (r.tick s cycles).1.frames ↔
      0 < blanks r.line ((r.lineCycles + cycles) / cyclesPerLine) := by
  rw [tick_fst]
  exact Nat.lt_add_right_iff_pos

theorem read_tick (r : Raster) (s : AddressSpace) (cycles : Nat) (addr : UInt16) :
    (r.tick s cycles).2.read addr =
      if addr = lineAddr then .ofNat (r.tick s cycles).1.line
      else if addr = Interrupt.requestAddr ∧ r.frames < (r.tick s cycles).1.frames then
        s.read addr ||| Interrupt.vblank.mask
      else s.read addr := by
  simp only [frames_lt_tick_iff]
  rw [tick]
  simp only [AddressSpace.read_write_of_le _ (show 0xFE00 ≤ lineAddr by decide), read_nextLines]

theorem read_tick_requestAddr (r : Raster) (s : AddressSpace) (cycles : Nat) :
    (r.tick s cycles).2.read Interrupt.requestAddr = s.read Interrupt.requestAddr ∨
      (r.tick s cycles).2.read Interrupt.requestAddr =
        s.read Interrupt.requestAddr ||| Interrupt.vblank.mask := by
  rw [read_tick, if_neg (by decide)]
  split
  · exact .inr rfl
  · exact .inl rfl

theorem read_tick_of_ne (r : Raster) (s : AddressSpace) (cycles : Nat) {addr : UInt16}
    (hrequest : addr ≠ Interrupt.requestAddr) (hline : addr ≠ lineAddr) :
    (r.tick s cycles).2.read addr = s.read addr := by
  simp [read_tick, hrequest, hline]

theorem line_tick_of_le (r : Raster) (s : AddressSpace) {cycles : Nat}
    (h : cycles ≤ cyclesPerLine) :
    (r.tick s cycles).1.line = r.line ∨ (r.tick s cycles).1.line = r.line + 1 := by
  have hlt := r.lineCycles.isLt
  have hcount : (r.lineCycles + cycles) / cyclesPerLine = 0 ∨
      (r.lineCycles + cycles) / cyclesPerLine = 1 := by
    simp only [cyclesPerLine] at *
    omega
  rw [tick_fst]
  rcases hcount with h | h
  · exact .inl (by simp [h, skip_zero])
  · exact .inr (by simp [h, skip, Fin.ext_iff, Fin.val_add])

end DotMatrix.Raster
