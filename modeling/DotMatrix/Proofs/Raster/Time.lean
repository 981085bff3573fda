import DotMatrix.Proofs.Raster
import Mathlib.Algebra.Ring.Nat

/-!
Time on the raster. However a stretch of time is cut into ticks, the raster enters the same lines
and leaves the same address space behind.
-/

namespace DotMatrix.Raster

def ticks (r : Raster) (s : AddressSpace) : List Nat → Raster × AddressSpace
  | [] => (r, s)
  | cycles :: rest => (r.tick s cycles).1.ticks (r.tick s cycles).2 rest

/-- As long as there is time for a whole line the raster enters the next one. What is left is spent
on the line entered last. -/
inductive Sweeps :
    (time : Nat) → Raster → AddressSpace → (entered : List (Fin linesPerFrame)) →
      Raster × AddressSpace → Prop
  | rest {time : Nat} {r : Raster} {s : AddressSpace} (h : time < cyclesPerLine) :
      Sweeps time r s [] ({ r with lineCycles := ⟨time, h⟩ }, s)
  | line {time : Nat} {r : Raster} {s : AddressSpace} {entered : List (Fin linesPerFrame)}
      {swept : Raster × AddressSpace} :
      Sweeps time (r.nextLine s).1 (r.nextLine s).2 entered swept →
        Sweeps (time + cyclesPerLine) r s ((r.nextLine s).1.line :: entered) swept

def linesAfter (r : Raster) : (count : Nat) → List (Fin linesPerFrame)
  | 0 => []
  | count + 1 => (r.skip 1).line :: (r.skip 1).linesAfter count

theorem length_linesAfter (r : Raster) (count : Nat) : (r.linesAfter count).length = count := by
  induction count generalizing r with
  | zero => rfl
  | succ count ih => exact congrArg (· + 1) (ih (r.skip 1))

theorem count_linesAfter (r : Raster) (count : Nat) :
    (r.linesAfter count).count vblankLine = blanks r.line count := by
  induction count generalizing r with
  | zero => exact (Nat.sub_self _).symm
  | succ count ih =>
    have hblanks : blanks r.line (1 + count) = blanks r.line 1 + blanks (r.skip 1).line count :=
      blanks_add r.line 1 count
    rw [linesAfter, List.count_cons, ih, Nat.add_comm count, hblanks, blanks_one, line_skip_one,
      Nat.add_comm]
    simp only [beq_iff_eq]

theorem nextLines_map {f : Raster → Raster} {g : AddressSpace → AddressSpace}
    (h : ∀ r s, (f r).nextLine (g s) = (f (r.nextLine s).1, g (r.nextLine s).2)) (count : Nat)
    (r : Raster) (s : AddressSpace) :
    nextLines count (f r) (g s) = (f (nextLines count r s).1, g (nextLines count r s).2) := by
  induction count generalizing r s with
  | zero => rfl
  | succ count ih =>
    simp only [nextLines, h]
    exact ih _ _

theorem nextLines_with (count : Nat) (r : Raster) (s : AddressSpace)
    (lineCycles : Fin cyclesPerLine) :
    nextLines count { r with lineCycles } s =
      ({ (nextLines count r s).1 with lineCycles }, (nextLines count r s).2) := by
  refine nextLines_map (f := fun r => { r with lineCycles }) (g := id) (fun r s => ?_) count r s
  unfold nextLine
  by_cases h : r.line + 1 = vblankLine <;> simp [h]

theorem nextLines_write (count : Nat) (r : Raster) (s : AddressSpace) (value : UInt8) :
    nextLines count r (s.write lineAddr value) =
      ((nextLines count r s).1, (nextLines count r s).2.write lineAddr value) := by
  refine nextLines_map (f := id) (g := (·.write lineAddr value)) (fun r s => ?_) count r s
  have hrequest := s.request_write .vblank (show 0xFE00 ≤ lineAddr by decide) (by decide) value
  unfold nextLine
  by_cases h : r.line + 1 = vblankLine <;> simp [h, hrequest]

theorem sweeps_nextLines (count : Nat) (left : Fin cyclesPerLine) (r : Raster) (s : AddressSpace) :
    Sweeps (left + count * cyclesPerLine) r s (r.linesAfter count)
      (nextLines count { r with lineCycles := left } s) := by
  induction count generalizing r s with
  | zero =>
    rw [Nat.zero_mul]
    exact .rest left.isLt
  | succ count ih =>
    have hswept := ih (r.nextLine s).1 (r.nextLine s).2
    rw [nextLines_with] at hswept
    rw [Nat.succ_mul, ← Nat.add_assoc, nextLines_with, linesAfter, ← r.nextLine_fst s]
    exact .line hswept

theorem Sweeps.unique {time : Nat} {r : Raster} {s : AddressSpace}
    {entered entered' : List (Fin linesPerFrame)} {swept swept' : Raster × AddressSpace}
    (h : Sweeps time r s entered swept) (h' : Sweeps time r s entered' swept') :
    entered = entered' ∧ swept = swept' := by
  induction h generalizing entered' with
  | rest hlt =>
    cases h' with
    | rest _ => exact ⟨rfl, rfl⟩
    | line _ => omega
  | line _ ih =>
    generalize ht : _ + cyclesPerLine = time' at h'
    cases h' with
    | rest hlt => omega
    | line hrest =>
      obtain rfl := Nat.add_right_cancel ht
      obtain ⟨rfl, hswept⟩ := ih hrest
      exact ⟨rfl, hswept⟩

theorem tick_eq (r : Raster) (s : AddressSpace) (cycles : Nat) :
    let lines := nextLines ((r.lineCycles + cycles) / cyclesPerLine) r s
    let lineCycles := ⟨(r.lineCycles + cycles) % cyclesPerLine, Nat.mod_lt _ (by decide)⟩
    r.tick s cycles =
      ({ lines.1 with lineCycles }, lines.2.write lineAddr (.ofNat lines.1.line)) := by
  intro lines lineCycles
  rw [tick, nextLines_with _ r s lineCycles]

theorem tick_tick (r : Raster) (s : AddressSpace) (m n : Nat) :
    (r.tick s m).1.tick (r.tick s m).2 n = r.tick s (m + n) := by
  have hlines : (r.lineCycles + (m + n)) / cyclesPerLine =
      (r.lineCycles + m) / cyclesPerLine +
        ((r.lineCycles + m) % cyclesPerLine + n) / cyclesPerLine := by
    simp only [cyclesPerLine]
    omega
  have hcycles : ((r.lineCycles + m) % cyclesPerLine + n) % cyclesPerLine =
      (r.lineCycles + (m + n)) % cyclesPerLine := by
    rw [Nat.mod_add_mod, Nat.add_assoc]
  simp only [tick_eq, nextLines_with, nextLines_write, AddressSpace.write_write, hlines, hcycles,
    nextLines_add]

theorem ticks_cons (r : Raster) (s : AddressSpace) (first : Nat) (rest : List Nat) :
    r.ticks s (first :: rest) = r.tick s (first :: rest).sum := by
  induction rest generalizing first with
  | nil => rfl
  | cons second rest ih =>
    calc
      r.ticks s (first :: second :: rest) = r.ticks s ((first + second) :: rest) := by
        simp only [ticks, tick_tick]
      _ = r.tick s (first :: second :: rest).sum := by
        rw [ih]
        simp only [List.sum_cons, Nat.add_assoc]

theorem read_ticks_of_ne (costs : List Nat) (r : Raster) (s : AddressSpace) {addr : UInt16}
    (hrequest : addr ≠ Interrupt.requestAddr) (hline : addr ≠ lineAddr) :
    (r.ticks s costs).2.read addr = s.read addr := by
  induction costs generalizing r s with
  | nil => rfl
  | cons cycles rest ih => exact (ih _ _).trans (r.read_tick_of_ne s cycles hrequest hline)

theorem read_ticks_requestAddr (costs : List Nat) (r : Raster) (s : AddressSpace) :
    (r.ticks s costs).2.read Interrupt.requestAddr = s.read Interrupt.requestAddr ∨
      (r.ticks s costs).2.read Interrupt.requestAddr =
        s.read Interrupt.requestAddr ||| Interrupt.vblank.mask := by
  cases costs with
  | nil => exact .inl rfl
  | cons first rest =>
    rw [ticks_cons]
    exact r.read_tick_requestAddr s _

theorem exists_sweeps (r : Raster) (s : AddressSpace) (cycles : Nat) :
    ∃ swept,
      Sweeps (r.lineCycles + cycles) r s
        (r.linesAfter ((r.lineCycles + cycles) / cyclesPerLine)) swept ∧
      r.tick s cycles = (swept.1, swept.2.write lineAddr (.ofNat swept.1.line)) := by
  have htime : (r.lineCycles + cycles) % cyclesPerLine +
      (r.lineCycles + cycles) / cyclesPerLine * cyclesPerLine = r.lineCycles + cycles := by
    rw [Nat.mul_comm, Nat.mod_add_div]
  have hsweeps := sweeps_nextLines ((r.lineCycles + cycles) / cyclesPerLine)
    ⟨(r.lineCycles + cycles) % cyclesPerLine, Nat.mod_lt _ (by decide)⟩ r s
  rw [htime] at hsweeps
  exact ⟨_, hsweeps, rfl⟩

/-- Ticks come to one tick of their sum, in the raster and in every cell. The raster stops sweeping
after the lines that the time is good for, and each entry into the first line of the vertical blank
counts a frame. However many there are, they request one interrupt. -/
theorem time_is_additive (r : Raster) (s : AddressSpace) (first : Nat) (rest : List Nat) :
    let total := (first :: rest).sum
    let lines := (r.lineCycles + total) / 456
    let blanks := (r.line + lines + 10) / 154 - (r.line + 10) / 154
    let final := r.ticks s (first :: rest)
    final = r.tick s total ∧
      (∃ entered swept, Sweeps (r.lineCycles + total) r s entered swept ∧
        (∀ entered' swept', Sweeps (r.lineCycles + total) r s entered' swept' →
          entered' = entered ∧ swept' = swept) ∧
        final = (swept.1, swept.2.write 0xFF44 (.ofNat swept.1.line)) ∧
        entered.length = lines ∧ entered.count vblankLine = blanks) ∧
      final.1.lineCycles = (r.lineCycles + total) % 456 ∧
      final.1.line = (r.line + lines) % 154 ∧ final.1.frames = r.frames + blanks ∧
      final.2.read 0xFF0F =
        if 0 < blanks then s.read 0xFF0F ||| 0x01 else s.read 0xFF0F := by
  intro total lines blanks final
  have hfinal : final = r.tick s total := r.ticks_cons s first rest
  obtain ⟨swept, hsweeps, hswept⟩ := r.exists_sweeps s total
  rw [hfinal]
  refine ⟨rfl, ⟨_, swept, hsweeps, fun _ _ h => h.unique hsweeps, hswept, length_linesAfter _ _,
    count_linesAfter _ _⟩, ?_, ?_, ?_, ?_⟩
  · rw [tick_fst]
  · rw [tick_fst]
    rfl
  · rw [tick_fst]
    rfl
  · have hread := r.read_tick s total Interrupt.requestAddr
    rw [if_neg (by decide)] at hread
    simp only [true_and, frames_lt_tick_iff] at hread
    exact hread

end DotMatrix.Raster
