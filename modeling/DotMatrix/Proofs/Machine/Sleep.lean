import DotMatrix.Proofs.Machine.Cartridge
import DotMatrix.Proofs.Machine.Frame
import DotMatrix.Proofs.Raster.Time
import Mathlib.Data.Nat.Find

namespace DotMatrix

namespace Cpu

variable {β : Type} [Bus β] {cpu : Cpu} {bus : β}

/-- The step does nothing: it sleeps on in a halt, or in a stop with no joypad line low. -/
def Idles (cpu : Cpu) (bus : β) : Prop :=
  cpu.activity bus = .asleep ∨
    cpu.activity bus = .stopped ∧ Bus.read bus joypadAddr &&& 0x0F = 0x0F

theorem run_step_of_idles (h : cpu.Idles bus) :
    cpu.step.run bus = ((.ok 4, cpu.aged 4), bus) := by
  rcases h with ha | ⟨ha, hjoypad⟩
  · exact run_step_of_asleep ha
  · have hstopped := (activity_eq_stopped_iff.1 ha).2
    rw [run_step_of_stopped ha, aged, hjoypad, hstopped]
    rfl

theorem halted_after_of_pending (hlocked : cpu.locked = none) (hstopped : cpu.stopped = false)
    (hpending : Interrupt.pendingOn bus ≠ 0) : (cpu.after bus).halted = false := by
  have hlatch : (cpu.after bus).halted = (cpu.after bus).latches.halted := rfl
  rw [hlatch, latches_after]
  cases ha : cpu.activity bus with
  | hung e => simp [activity_eq_hung_iff, hlocked] at ha
  | stopped => simp [activity_eq_stopped_iff, hstopped] at ha
  | dispatch i => rfl
  | asleep => exact absurd (activity_eq_asleep_iff.1 ha).2.2.2.2 hpending
  | execute i =>
    have hime : cpu.ime = false := by
      have hdue := dueOn_eq_none_iff.1 (activity_eq_execute_iff.1 ha).1.2.2.1
      simpa [hpending] using hdue
    simp [Latches.run_eq, latches, hime, hpending]
  | hang opcode => rfl

end Cpu

theorem Raster.cartridge_ticks (costs : List Nat) (r : Raster) (s : AddressSpace) :
    (r.ticks s costs).2.cartridge = s.cartridge := by
  induction costs generalizing r s with
  | nil => rfl
  | cons cycles rest ih =>
    obtain ⟨stores, hstores⟩ := storesOnly r s cycles
    have htick : (r.tick s cycles).2 = s.storeAll stores := hstores
    rw [ticks, ih, htick, AddressSpace.cartridge_storeAll]

namespace Machine

variable {m m₁ m₂ : Machine} {r : Raster}

def idled (m : Machine) (r : Raster) (ticks : Nat) : Machine :=
  ⟨m.cpu.aged (4 * ticks), (r.ticks m.space (List.replicate ticks 4)).2⟩

/-- Only video has moved on: one register tells its line, and in the other it may have requested
its interrupt. -/
structure Rested (before after : Machine) (cycles : Nat) : Prop where
  cpu_eq : after.cpu = before.cpu.aged cycles
  cartridge_eq : after.cartridge = before.cartridge
  read_eq : ∀ addr, addr ≠ 0xFF0F → addr ≠ 0xFF44 → after.space.read addr = before.space.read addr
  request_eq : after.space.read 0xFF0F = before.space.read 0xFF0F ∨
    after.space.read 0xFF0F = before.space.read 0xFF0F ||| 0x01

theorem Rested.refl (m : Machine) : m.Rested m 0 :=
  ⟨m.cpu.aged_zero.symm, rfl, fun _ _ _ => rfl, .inl rfl⟩

theorem Rested.trans {cycles cycles' : Nat} (h : m.Rested m₁ cycles) (h' : m₁.Rested m₂ cycles') :
    m.Rested m₂ (cycles + cycles') := by
  refine ⟨?_, h'.cartridge_eq.trans h.cartridge_eq, fun addr hrequest hline => ?_, ?_⟩
  · rw [h'.cpu_eq, h.cpu_eq, Cpu.aged_aged]
  · rw [h'.read_eq addr hrequest hline, h.read_eq addr hrequest hline]
  · have hor : m.space.read 0xFF0F ||| 0x01 ||| 0x01 = m.space.read 0xFF0F ||| 0x01 := by
      rw [UInt8.or_assoc, UInt8.or_self]
    rcases h.request_eq with h | h <;> rcases h'.request_eq with h' | h' <;> simp [h', h, hor]

theorem tick_of_idles (h : m.cpu.Idles m.space) (r : Raster) :
    m.tick r = (.ok 4, ⟨m.cpu.aged 4, (r.tick m.space 4).2⟩, (r.tick m.space 4).1) := by
  have hstep := Cpu.run_step_of_idles h
  have ho : m.cpu.outcome m.space = .ok 4 := by rw [Cpu.outcome, hstep]
  rw [tick_of_ok ho, Cpu.after, hstep]
  rfl

theorem repeats_idled (n : Nat) {m : Machine} {r : Raster}
    (h : ∀ j < n, m.cpu.Idles (r.ticks m.space (List.replicate j 4)).2) :
    Repeats .tick m r (List.replicate n 4) (m.idled r n)
      (r.ticks m.space (List.replicate n 4)).1 := by
  induction n generalizing m r with
  | zero =>
    have hidled : m.idled r 0 = m := by simp [idled, Raster.ticks]
    rw [hidled]
    exact .nil
  | succ n ih =>
    let next : Machine := ⟨m.cpu.aged 4, (r.tick m.space 4).2⟩
    have hnext : next.idled (r.tick m.space 4).1 n = m.idled r (n + 1) := by
      simp only [idled, next, Cpu.aged_aged, List.replicate_succ, Raster.ticks]
      rw [Nat.add_comm 4, Nat.mul_succ]
    have hrest := ih (m := next) (r := (r.tick m.space 4).1) fun j hj => h (j + 1) (by omega)
    rw [hnext] at hrest
    exact .cons (tick_of_idles (h 0 (Nat.succ_pos n)) r) hrest

theorem rested_idled (m : Machine) (r : Raster) (n : Nat) : m.Rested (m.idled r n) (4 * n) where
  cpu_eq := rfl
  cartridge_eq := Raster.cartridge_ticks _ r m.space
  read_eq := fun _ => Raster.read_ticks_of_ne _ r m.space
  request_eq := Raster.read_ticks_requestAddr _ r m.space

structure Wakes (m : Machine) (r : Raster) : Prop where
  halted : (m.tick r).2.1.cpu.halted = false
  dispatch : m.cpu.ime → ∃ i, m.cpu.Serves m.space i ∧ (m.tick r).1 = .ok 20 ∧
    (m.tick r).2.1.cpu.regs.pc = i.vector
  execute : m.cpu.ime = false → ∀ i,
    Instruction.decode (m.space.read m.cpu.regs.pc) = some i →
      m.cpu.step.run m.space =
        ((m.cpu.fetched (m.space.read m.cpu.regs.pc)).carryOut i).run m.space
  reject : m.cpu.ime = false → Instruction.decode (m.space.read m.cpu.regs.pc) = none →
    (m.tick r).1 = .error ⟨m.space.read m.cpu.regs.pc, m.cpu.regs.pc, m.cpu.cycles⟩

theorem wakes_of_pending (hlocked : m.cpu.locked = none) (hstopped : m.cpu.stopped = false)
    (hpending : Interrupt.pendingOn m.space ≠ 0) (r : Raster) : m.Wakes r := by
  have hfetches (hime : m.cpu.ime = false) : m.cpu.Fetches m.space :=
    ⟨hlocked, hstopped, Cpu.dueOn_eq_none_iff.2 (by simp [hime]), fun _ => hpending⟩
  refine ⟨?_, fun hime => ?_, fun hime i hi => ?_, fun hime hnone => ?_⟩
  · rw [cpu_tick]
    exact Cpu.halted_after_of_pending hlocked hstopped hpending
  · obtain ⟨i, hi⟩ := (Cpu.exists_dispatch_iff hlocked hstopped).2 ⟨hime, hpending⟩
    have hserves := Cpu.serves_of_activity hi
    refine ⟨i, hserves, ?_, ?_⟩
    · rw [fst_tick]
      exact hserves.outcome
    · rw [cpu_tick, hserves.after]
      rfl
  · exact Cpu.run_step_eq_carryOut (Cpu.activity_eq_execute_iff.2 ⟨hfetches hime, hi⟩)
  · have ha := Cpu.activity_eq_hang_iff.2 ⟨hfetches hime, rfl, hnone⟩
    rw [fst_tick, Cpu.outcome, Cpu.run_step_of_hang ha]
    rfl

theorem sum_idle_frame : (List.replicate ticksPerFrame 4).sum = cyclesPerFrame := by
  rw [List.sum_replicate_nat]
  decide

theorem read_requestAddr_ticks_frame (r : Raster) (s : AddressSpace) :
    (r.ticks s (List.replicate ticksPerFrame 4)).2.read Interrupt.requestAddr =
      s.read Interrupt.requestAddr ||| Interrupt.vblank.mask := by
  have htick : r.ticks s (List.replicate ticksPerFrame 4) = r.tick s cyclesPerFrame :=
    (r.ticks_cons s 4 (List.replicate (ticksPerFrame - 1) 4)).trans
      (congrArg (r.tick s) sum_idle_frame)
  have hblank : r.frames < (r.tick s cyclesPerFrame).1.frames := by
    rw [Raster.frames_lt_tick_iff]
    have hcycles := r.lineCycles.isLt
    simp only [Raster.blanks, cyclesPerFrame, cyclesPerLine, linesPerFrame] at *
    omega
  rw [htick, Raster.read_tick, if_neg (by decide), if_pos ⟨rfl, hblank⟩]

theorem pendingOn_ticks_frame (r : Raster) (s : AddressSpace)
    (henabled : s.read Interrupt.enableAddr &&& Interrupt.vblank.mask ≠ 0) :
    Interrupt.pendingOn (r.ticks s (List.replicate ticksPerFrame 4)).2 ≠ 0 := by
  intro hnone
  have hblank := Interrupt.sources_eq_zero_iff.1 hnone .vblank
  rw [Interrupt.sources_and_mask, AddressSpace.bus_read, AddressSpace.bus_read,
    r.read_ticks_of_ne _ s (by decide) (by decide), read_requestAddr_ticks_frame,
    UInt8.and_assoc, Interrupt.or_mask_and_mask] at hblank
  exact henabled hblank

theorem exists_first_pending (r : Raster) (s : AddressSpace)
    (henabled : s.read Interrupt.enableAddr &&& Interrupt.vblank.mask ≠ 0) :
    ∃ n ≤ ticksPerFrame,
      (∀ j < n, Interrupt.pendingOn (r.ticks s (List.replicate j 4)).2 = 0) ∧
        Interrupt.pendingOn (r.ticks s (List.replicate n 4)).2 ≠ 0 := by
  have h : ∃ n, Interrupt.pendingOn (r.ticks s (List.replicate n 4)).2 ≠ 0 :=
    ⟨_, pendingOn_ticks_frame r s henabled⟩
  refine ⟨Nat.find h, Nat.find_min' h (pendingOn_ticks_frame r s henabled), fun j hj => ?_,
    Nat.find_spec h⟩
  exact not_not.1 (Nat.find_min h hj)

/-- A halted machine with the vertical blank enabled sleeps for less than a frame and a tick. It
does nothing meanwhile, and then serves what is pending or goes on where it was. -/
theorem halt_ends_within_frame (m : Machine) (r : Raster) (hlocked : m.cpu.locked = none)
    (hstopped : m.cpu.stopped = false) (hhalted : m.cpu.halted)
    (henabled : m.space.read 0xFFFF &&& 0x01 ≠ 0) :
    ∃ k, 0 < k ∧ k ≤ 17557 ∧
      (∀ j < k, ∃ m' r', Repeats .tick m r (List.replicate j 4) m' r' ∧
        m'.cpu = m.cpu.aged (4 * j)) ∧
      ∃ m' r', Repeats .tick m r (List.replicate (k - 1) 4) m' r' ∧
        m'.cpu = m.cpu.aged (4 * (k - 1)) ∧ m'.Wakes r' := by
  obtain ⟨n, hn, hasleep, hpending⟩ := exists_first_pending r m.space henabled
  have hidles (j : Nat) (hj : j < n) : m.cpu.Idles (r.ticks m.space (List.replicate j 4)).2 :=
    .inl (Cpu.activity_eq_asleep_iff.2
      ⟨hlocked, hstopped, Cpu.dueOn_eq_none_iff.2 fun h => h.2 (hasleep j hj), hhalted,
        hasleep j hj⟩)
  refine ⟨n + 1, Nat.succ_pos n, Nat.succ_le_succ hn, fun j hj => ?_, ?_⟩
  · refine ⟨_, _, repeats_idled j fun i hi => hidles i ?_, rfl⟩
    omega
  · have hwakes := wakes_of_pending (m := m.idled r n) hlocked hstopped hpending
    exact ⟨_, _, repeats_idled n hidles, rfl, hwakes _⟩

def haltedForVblank : Machine where
  cpu := { Cpu.powerOn with halted := true }
  space := ((AddressSpace.powerOn none).write 0xFFFF 0x01).write 0xFF0F 0x00

theorem wakes_when_vblank_enabled :
    ∃ k, 0 < k ∧ k ≤ 17557 ∧
      ∃ m r, Repeats .tick haltedForVblank ({} : Raster) (List.replicate (k - 1) 4) m r ∧
        m.cpu.regs.pc = 0x0100 ∧ m.Wakes r := by
  have henabled : haltedForVblank.space.read 0xFFFF = 0x01 := by
    rw [haltedForVblank, AddressSpace.read_write_of_le _ (by decide), if_neg (by decide),
      AddressSpace.read_write_of_le _ (by decide), if_pos rfl]
  obtain ⟨k, hpos, hle, -, m, r, hrepeats, hcpu, hwakes⟩ :=
    halt_ends_within_frame haltedForVblank {} rfl rfl rfl (by rw [henabled]; decide)
  refine ⟨k, hpos, hle, m, r, hrepeats, ?_, hwakes⟩
  rw [hcpu]
  rfl

structure Frozen (m : Machine) : Prop where
  locked : m.cpu.locked = none
  stopped : m.cpu.stopped
  released : m.space.read 0xFF00 &&& 0x0F = 0x0F

theorem Frozen.of_rested {cycles : Nat} (h : m.Frozen) (h' : m.Rested m₁ cycles) : m₁.Frozen := by
  refine ⟨?_, ?_, ?_⟩
  · rw [h'.cpu_eq]
    exact h.locked
  · rw [h'.cpu_eq]
    exact h.stopped
  · rw [h'.read_eq _ (by decide) (by decide)]
    exact h.released

theorem Frozen.idles (h : m.Frozen) : m.cpu.Idles m.space :=
  .inr ⟨Cpu.activity_eq_stopped_iff.2 ⟨h.locked, h.stopped⟩, h.released⟩

theorem Frozen.repeats_ticks (h : m.Frozen) (r : Raster) (n : Nat) :
    Repeats .tick m r (List.replicate n 4) (m.idled r n)
      (r.ticks m.space (List.replicate n 4)).1 :=
  repeats_idled n fun j _ => (h.of_rested (m.rested_idled r j)).idles

theorem Frozen.stepFrame (h : m.Frozen) (r : Raster) :
    m.stepFrame r =
      (.ok 70224, m.idled r ticksPerFrame,
        (r.ticks m.space (List.replicate ticksPerFrame 4)).1) :=
  fillFrame_of_repeats (h.repeats_ticks r ticksPerFrame) (by simp)
    ((Nat.zero_add _).trans sum_idle_frame)

theorem Frozen.repeats_frames (h : m.Frozen) (r : Raster) (n : Nat) :
    ∃ m' r', Repeats .frame m r (List.replicate n 70224) m' r' ∧ m.Rested m' (70224 * n) := by
  induction n generalizing m r with
  | zero => exact ⟨m, r, .nil, .refl m⟩
  | succ n ih =>
    have hrested := m.rested_idled r ticksPerFrame
    obtain ⟨m', r', hrepeats, hrested'⟩ := ih (h.of_rested hrested) (r.ticks m.space _).1
    refine ⟨m', r', .cons (h.stepFrame r) hrepeats, ?_⟩
    rw [Nat.mul_succ, Nat.add_comm]
    exact hrested.trans hrested'

/-- A stop goes on through any number of ticks and frames, each of which takes its least time, and
whatever is requested meanwhile. A joypad line that is low ends it in one step, and the step after
that looks at the interrupts again. -/
theorem stop_waits_for_joypad :
    (∀ (m : Machine) (r : Raster), m.Frozen → ∀ n,
      (∃ m' r', Repeats .tick m r (List.replicate n 4) m' r' ∧ m.Rested m' (4 * n)) ∧
        ∃ m' r', Repeats .frame m r (List.replicate n 70224) m' r' ∧ m.Rested m' (70224 * n)) ∧
    ∀ m : Machine, m.cpu.locked = none → m.cpu.stopped → m.space.read 0xFF00 &&& 0x0F ≠ 0x0F →
      let woken := { m.cpu.aged 4 with stopped := false }
      m.step = (.ok 4, ⟨woken, m.space⟩) ∧
        (∀ r : Raster, m.tick r = (.ok 4, ⟨woken, (r.tick m.space 4).2⟩, (r.tick m.space 4).1)) ∧
        ∀ s : AddressSpace, (∃ i, woken.activity s = .dispatch i) ↔
          m.cpu.ime ∧ Interrupt.pendingOn s ≠ 0 := by
  refine ⟨fun m r h n => ⟨⟨_, _, h.repeats_ticks r n, m.rested_idled r n⟩, h.repeats_frames r n⟩,
    fun m hlocked hstopped hpressed => ?_⟩
  intro woken
  have ha : m.cpu.activity m.space = .stopped :=
    Cpu.activity_eq_stopped_iff.2 ⟨hlocked, hstopped⟩
  have hjoypad : (m.space.read Cpu.joypadAddr &&& 0x0F == 0x0F) = false := beq_false_of_ne hpressed
  have hstep : m.step = (.ok 4, ⟨woken, m.space⟩) := by
    rw [step_eq, Cpu.outcome, Cpu.after, Cpu.run_step_of_stopped ha, AddressSpace.bus_read, hjoypad]
    rfl
  refine ⟨hstep, fun r => ?_, fun s => Cpu.exists_dispatch_iff hlocked rfl⟩
  rw [tick, hstep]
  rfl

def waiting : Machine where
  cpu := { Cpu.powerOn with stopped := true, ime := true }
  space := .powerOn none

def roused : Machine :=
  { waiting with space := (waiting.space.write 0xFFFF 0x01).write 0xFF00 0xCE }

theorem stop_of_waiting_and_roused :
    (∃ m r, Repeats .frame waiting ({} : Raster) [70224, 70224] m r ∧ waiting.Rested m 140448) ∧
      roused.step = (.ok 4, ⟨{ roused.cpu.aged 4 with stopped := false }, roused.space⟩) ∧
      ∃ i, { roused.cpu.aged 4 with stopped := false }.activity roused.space = .dispatch i := by
  obtain ⟨hwait, hwake⟩ := stop_waits_for_joypad
  have hboot (addr : UInt16) (h : AddressSpace.Stored addr) : waiting.space.read addr =
      (Memory.zero.writeAll AddressSpace.bootRegisters).read (AddressSpace.canonical addr) :=
    AddressSpace.read_of_stored _ h
  have hreleased : waiting.space.read 0xFF00 = 0xCF :=
    (hboot 0xFF00 (by decide)).trans (Memory.read_writeAll ..)
  have hrequested : waiting.space.read 0xFF0F = 0xE1 :=
    (hboot 0xFF0F (by decide)).trans (Memory.read_writeAll ..)
  have hread (addr : UInt16) : roused.space.read addr =
      if addr = 0xFF00 then 0xCE else if addr = 0xFFFF then 0x01 else waiting.space.read addr := by
    rw [roused, AddressSpace.read_write_of_le _ (by decide),
      AddressSpace.read_write_of_le _ (by decide)]
  have hfrozen : waiting.Frozen := ⟨rfl, rfl, by rw [hreleased]; decide⟩
  have hpressed : roused.space.read 0xFF00 &&& 0x0F ≠ 0x0F := by
    rw [hread]
    decide
  have hpending : Interrupt.pendingOn roused.space ≠ 0 := by
    simp only [Interrupt.pendingOn, AddressSpace.bus_read, hread, Interrupt.enableAddr,
      Interrupt.requestAddr, hrequested]
    decide
  obtain ⟨hstep, -, hdispatch⟩ := hwake roused rfl rfl hpressed
  exact ⟨(hwait waiting {} hfrozen 2).2, hstep, (hdispatch roused.space).2 ⟨rfl, hpending⟩⟩

end Machine

end DotMatrix
