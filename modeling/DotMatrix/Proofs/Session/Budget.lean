import DotMatrix.Proofs.Machine.Cartridge
import DotMatrix.Proofs.Machine.Frame
import DotMatrix.Proofs.Machine.Sleep

namespace DotMatrix.Session

open Machine

def stopped : Call → Nat → IllegalOpcode → Error
  | .tick => .stoppedAtStep
  | .frame => .stoppedInFrame

def runCalls (c : Call) :
    (count : Nat) → (done : Nat) → Machine → Raster → Except Error (Machine × Raster)
  | 0, _, m, raster => .ok (m, raster)
  | count + 1, done, m, raster =>
    match m.attempt raster c with
    | (.ok _, m, raster) => runCalls c count (done + 1) m raster
    | (.error e, _, _) => .error (stopped c done e)

theorem runSteps_eq (count done : Nat) (m : Machine) (r : Raster) :
    runSteps count done m r = runCalls .tick count done m r := by
  induction count generalizing done m r with
  | zero => rfl
  | succ count ih =>
    rw [runSteps, runCalls, attempt]
    rcases m.tick r with ⟨_ | _, m', r'⟩
    · rfl
    · exact ih _ m' r'

theorem runFrames_eq (count done : Nat) (m : Machine) (r : Raster) :
    runFrames count done m r = runCalls .frame count done m r := by
  induction count generalizing done m r with
  | zero => rfl
  | succ count ih =>
    rw [runFrames, runCalls, attempt]
    rcases m.stepFrame r with ⟨_ | _, m', r'⟩
    · rfl
    · exact ih _ m' r'

variable {c : Call} {m m' : Machine} {r r' : Raster} {costs : List Nat} {e : IllegalOpcode}

theorem runCalls_of_repeats (h : Repeats c m r costs m' r') (done : Nat) :
    runCalls c costs.length done m r = .ok (m', r') := by
  induction h generalizing done with
  | nil => rfl
  | cons hc _ ih =>
    rw [List.length_cons, runCalls, hc]
    exact ih (done + 1)

theorem runCalls_of_fails (h : Fails c m r costs e m' r') {count : Nat}
    (hcount : costs.length < count) (done : Nat) :
    runCalls c count done m r = .error (stopped c (done + costs.length) e) := by
  obtain ⟨m₁, r₁, hr, herror⟩ := h
  induction hr generalizing count done with
  | nil =>
    obtain ⟨count, rfl⟩ := Nat.exists_eq_add_of_lt hcount
    rw [runCalls, herror]
    rfl
  | @cons _ _ _ _ _ _ _ costs hc _ ih =>
    obtain ⟨count, rfl⟩ := Nat.exists_eq_succ_of_ne_zero (Nat.ne_zero_of_lt hcount)
    have hrest := ih (Nat.lt_of_succ_lt_succ hcount) (done + 1) herror
    rw [Nat.add_assoc, Nat.add_comm 1] at hrest
    rw [runCalls, hc, List.length_cons]
    exact hrest

theorem repeats_or_fails (c : Call) (count : Nat) (m : Machine) (r : Raster) :
    (∃ costs m' r', costs.length = count ∧ Repeats c m r costs m' r') ∨
      ∃ costs e m' r', costs.length < count ∧ Fails c m r costs e m' r' := by
  induction count generalizing m r with
  | zero => exact .inl ⟨[], m, r, rfl, .nil⟩
  | succ count ih =>
    rcases hc : m.attempt r c with ⟨e | cost, m₁, r₁⟩
    · exact .inr ⟨[], e, m₁, r₁, Nat.succ_pos count, m, r, .nil, hc⟩
    · rcases ih m₁ r₁ with ⟨costs, m', r', hlen, hr⟩ | ⟨costs, e, m', r', hlen, m₂, r₂, hr, herror⟩
      · exact .inl ⟨cost :: costs, m', r', congrArg Nat.succ hlen, .cons hc hr⟩
      · exact .inr ⟨cost :: costs, e, m', r', Nat.succ_lt_succ hlen, m₂, r₂, .cons hc hr, herror⟩

def budget (config : Config) : Call × Nat :=
  match config.steps with
  | some count => (.tick, count)
  | none => (.frame, config.frames)

theorem spend_eq (config : Config) (m : Machine) (r : Raster) :
    spend m r config = runCalls (budget config).1 (budget config).2 0 m r := by
  obtain ⟨path, frames, steps, dumpCpu⟩ := config
  cases steps with
  | none => exact runFrames_eq frames 0 m r
  | some count => exact runSteps_eq count 0 m r

variable {config : Config} {image : Image} {cartridge : Cartridge} {n : Nat}

theorem run_eq (hload : Cartridge.load image = .ok cartridge) :
    run config (.ok image) =
      (runCalls (budget config).1 (budget config).2 0 (powerOn (some cartridge)) {}).map
        fun (m, r) => .capture m r := by
  have hcartridge : loadCartridge config.path (.ok image) = .ok cartridge := by
    rw [loadCartridge, hload]
    rfl
  rw [← spend_eq, run, hcartridge]
  rfl

theorem run_of_repeats (hload : Cartridge.load image = .ok cartridge)
    (hbudget : budget config = (c, costs.length))
    (h : Repeats c (powerOn (some cartridge)) {} costs m r) :
    run config (.ok image) = .ok (.capture m r) := by
  rw [run_eq hload, hbudget, runCalls_of_repeats h]
  rfl

theorem run_of_fails (hload : Cartridge.load image = .ok cartridge)
    (hbudget : budget config = (c, n)) (hn : costs.length < n)
    (h : Fails c (powerOn (some cartridge)) {} costs e m r) :
    run config (.ok image) = .error (stopped c costs.length e) := by
  rw [run_eq hload, hbudget, runCalls_of_fails h hn, Nat.zero_add]
  rfl

theorem exists_repeats_of_run_eq_ok {result : Result} (hload : Cartridge.load image = .ok cartridge)
    (hbudget : budget config = (c, n)) (hrun : run config (.ok image) = .ok result) :
    ∃ costs m r, costs.length = n ∧ Repeats c (powerOn (some cartridge)) {} costs m r ∧
      result = .capture m r := by
  rcases repeats_or_fails c n (powerOn (some cartridge)) {} with
    ⟨costs, m, r, hlen, h⟩ | ⟨costs, e, m, r, hlen, h⟩
  · rw [run_of_repeats hload (hlen ▸ hbudget) h] at hrun
    exact ⟨costs, m, r, hlen, h, (Except.ok.inj hrun).symm⟩
  · rw [run_of_fails hload hbudget hlen h] at hrun
    cases hrun

theorem exists_fails_of_run_eq_error {error : Error} (hload : Cartridge.load image = .ok cartridge)
    (hbudget : budget config = (c, n)) (hrun : run config (.ok image) = .error error) :
    ∃ costs e m r, costs.length < n ∧
      Fails c (powerOn (some cartridge)) ({} : Raster) costs e m r ∧
        error = stopped c costs.length e := by
  rcases repeats_or_fails c n (powerOn (some cartridge)) {} with
    ⟨costs, m, r, hlen, h⟩ | ⟨costs, e, m, r, hlen, h⟩
  · rw [run_of_repeats hload (hlen ▸ hbudget) h] at hrun
    cases hrun
  · rw [run_of_fails hload hbudget hlen h] at hrun
    exact ⟨costs, e, m, r, hlen, h, (Except.error.inj hrun).symm⟩

theorem exists_run_eq_ok_of_fails (hload : Cartridge.load image = .ok cartridge)
    (hbudget : budget config = (c, n)) (hn : n ≤ costs.length)
    (h : Fails c (powerOn (some cartridge)) {} costs e m r) :
    ∃ result, run config (.ok image) = .ok result := by
  obtain ⟨m₁, r₁, hr, -⟩ := h
  obtain ⟨m₂, r₂, htake⟩ := hr.take n
  have hlength : (costs.take n).length = n := List.length_take_of_le hn
  exact ⟨.capture m₂ r₂, run_of_repeats hload (hlength.symm ▸ hbudget) htake⟩

theorem exists_frame_fails_of_tick_fails (h : Fails .tick m r costs e m' r') {n : Nat}
    (hn : fullFrames 0 costs < n) :
    ∃ lengths m' r', lengths.length = fullFrames 0 costs ∧ Fails .frame m r lengths e m' r' := by
  rcases repeats_or_fails .frame n m r with
    ⟨lengths, m₁, r₁, hlen, hframes⟩ | ⟨lengths, e₁, m₁, r₁, -, hframes⟩
  · -- The frames would all be over before the tick that fails.
    obtain ⟨filled, hticks, -, hfull⟩ := hframes.exists_ticks
    obtain ⟨rest, rfl, -⟩ := hticks.append_of_fails h
    rw [hfull] at hn
    omega
  · obtain ⟨filled, hticks, hfull⟩ := hframes.exists_ticks
    obtain ⟨rfl, rfl⟩ := hticks.unique h
    exact ⟨lengths, m₁, r₁, hfull.symm, hframes⟩

theorem read_of_read? (hm : m.cartridge = some cartridge) {addr : UInt16} {value : UInt8}
    (haddr : addr < 0x8000) (hread : cartridge.read? addr = some value) :
    m.space.read addr = value := by
  rw [m.space.read_of_lt haddr, show m.space.cartridge = some cartridge from hm, Option.bind_some,
    hread, Option.getD_some]

theorem exists_tick_of_nop (hlatches : m.cpu.latches = Cpu.powerOn.latches)
    (hread : m.space.read m.cpu.regs.pc = 0x00) (r : Raster) :
    ∃ m' r', m.attempt r .tick = (.ok 4, m', r') ∧ m'.cartridge = m.cartridge ∧
      m'.cpu.latches = Cpu.powerOn.latches ∧ m'.cpu.regs.pc = m.cpu.regs.pc + 1 ∧
        m'.cpu.cycles = m.cpu.cycles + 4 := by
  have ha : m.cpu.activity m.space = .execute .nop :=
    Cpu.activity_eq_execute_iff.2
      ⟨Cpu.fetches_of_latches hlatches, congrArg Instruction.decode hread⟩
  have houtcome : m.cpu.outcome m.space = .ok 4 := by
    rw [Cpu.outcome, Cpu.run_step_of_execute ha]
    rfl
  refine ⟨(m.tick r).2.1, (m.tick r).2.2, ?_, cartridge_tick Raster.storesOnly m r, ?_, ?_, ?_⟩
  · rw [attempt, ← houtcome, ← fst_tick m r]
  · rw [cpu_tick, Cpu.latches_after, ha, hlatches]
    rfl
  · have hbug : m.cpu.haltBug = false := congrArg Latches.haltBug hlatches
    rw [cpu_tick, Cpu.regs_after_of_execute ha]
    simp [Cpu.execute, Cpu.fetched, hbug]
  · rw [cpu_tick, Cpu.cycles_after, houtcome]
    rfl

theorem exists_tick_of_hole (hlatches : m.cpu.latches = Cpu.powerOn.latches)
    (hread : m.space.read m.cpu.regs.pc = 0xFD) (r : Raster) :
    ∃ m', m.attempt r .tick = (.error ⟨0xFD, m.cpu.regs.pc, m.cpu.cycles⟩, m', r) := by
  have ha : m.cpu.activity m.space = .hang 0xFD :=
    Cpu.activity_eq_hang_iff.2 ⟨Cpu.fetches_of_latches hlatches, hread, rfl⟩
  exact ⟨_, tick_of_error (Cpu.outcome_eq_error_iff.2 (.inr ⟨0xFD, ha, rfl⟩)) r⟩

theorem fails_hangingImage (hload : Cartridge.load hangingImage = .ok cartridge) (r : Raster) :
    ∃ m' r', Fails .tick (powerOn (some cartridge)) r [4, 4] ⟨0xFD, 0x0102, 8⟩ m' r' := by
  obtain ⟨hread₀, hread₁, hread₂⟩ := read?_hangingImage hload
  have hfirst : (powerOn (some cartridge)).space.read 0x0100 = 0x00 :=
    read_of_read? rfl (by decide) hread₀
  obtain ⟨m₁, r₁, h₁, hc₁, hl₁, hp₁, hy₁⟩ := exists_tick_of_nop rfl hfirst r
  replace hp₁ : m₁.cpu.regs.pc = 0x0101 := hp₁
  obtain ⟨m₂, r₂, h₂, hc₂, hl₂, hp₂, hy₂⟩ :=
    exists_tick_of_nop hl₁ (by rw [hp₁]; exact read_of_read? hc₁ (by decide) hread₁) r₁
  rw [hp₁] at hp₂
  rw [hy₁] at hy₂
  obtain ⟨m₃, h₃⟩ :=
    exists_tick_of_hole hl₂ (by rw [hp₂]; exact read_of_read? (hc₂.trans hc₁) (by decide) hread₂) r₂
  rw [hp₂, hy₂] at h₃
  exact ⟨m₃, r₂, m₂, r₂, .cons h₁ (.cons h₂ .nil), h₃⟩

def stoppingImage : Image := (Array.replicate Image.headerEnd 0).setIfInBounds 0x0100 0x10

theorem headerEnd_le_stoppingImage : Image.headerEnd ≤ stoppingImage.size := by
  simp [stoppingImage]

theorem read?_stoppingImage (h : Cartridge.load stoppingImage = .ok cartridge) :
    cartridge.read? 0x0100 = some 0x10 := by
  simp [Cartridge.read?, Cartridge.image_of_load h, Cartridge.pad, stoppingImage, Image.headerEnd,
    Array.getElem?_append]

theorem exists_tick_of_stop (hlatches : m.cpu.latches = Cpu.powerOn.latches)
    (hread : m.space.read m.cpu.regs.pc = 0x10) (hreleased : m.space.read 0xFF00 &&& 0x0F = 0x0F)
    (r : Raster) : ∃ m' r', m.attempt r .tick = (.ok 4, m', r') ∧ m'.Frozen := by
  have hfetches : m.cpu.Fetches m.space := Cpu.fetches_of_latches hlatches
  have ha : m.cpu.activity m.space = .execute .stop :=
    Cpu.activity_eq_execute_iff.2 ⟨hfetches, congrArg Instruction.decode hread⟩
  have hstep := Cpu.run_step_of_execute ha
  have houtcome : m.cpu.outcome m.space = .ok 4 := by
    rw [Cpu.outcome, hstep]
    rfl
  have hspace : (m.cpu.step.run m.space).2 = m.space := by
    rw [hstep]
    rfl
  refine ⟨_, _, tick_of_ok houtcome r, ?_, ?_, ?_⟩
  · change (m.cpu.after m.space).locked = none
    rw [Cpu.locked_after, ha]
    exact hfetches.1
  · change (m.cpu.after m.space).latches.stopped
    rw [Cpu.latches_after, ha, hlatches]
    rfl
  · change (r.tick (m.cpu.step.run m.space).2 4).2.read 0xFF00 &&& 0x0F = 0x0F
    rw [hspace, r.read_tick_of_ne _ _ (by decide) (by decide)]
    exact hreleased

theorem run_stoppingImage (hload : Cartridge.load stoppingImage = .ok cartridge) :
    (∃ result, run { path := "stop.gb", frames := 1 } (.ok stoppingImage) = .ok result) ∧
      forwarded [.frame] (powerOn (some cartridge)) ({} : Raster) =
        List.replicate ticksPerFrame 4 := by
  have hread : (powerOn (some cartridge)).space.read 0x0100 = 0x10 :=
    read_of_read? rfl (by decide) (read?_stoppingImage hload)
  have hreleased : (powerOn (some cartridge)).space.read 0xFF00 = 0xCF :=
    (AddressSpace.read_of_stored _ (by decide)).trans (Memory.read_writeAll ..)
  obtain ⟨m₁, r₁, hfirst, hfrozen⟩ :=
    exists_tick_of_stop rfl hread (by rw [hreleased]; decide) ({} : Raster)
  -- All the ticks after the first are idle.
  have hticks := Repeats.cons hfirst (hfrozen.repeats_ticks r₁ (ticksPerFrame - 1))
  have hlength : (List.replicate ticksPerFrame 4).length ≤ ticksPerFrame := by simp
  have hframe := fillFrame_of_repeats hticks hlength ((Nat.zero_add _).trans sum_idle_frame)
  have hframes : Repeats .frame (powerOn (some cartridge)) ({} : Raster) [cyclesPerFrame] _ _ :=
    .cons hframe .nil
  exact ⟨⟨_, run_of_repeats hload rfl hframes⟩, hticks.forwarded_frame hlength sum_idle_frame⟩

/-- A run by steps that makes the ticks of a run by frames ends as that one does: in the same state,
or at the first tick that fails. The frame in which it fails is the count of the frames that the
ticks before it fill. -/
theorem budgets_agree (image : Image) (h : Image.headerEnd ≤ image.size) :
    ∃ cartridge, Cartridge.load image = .ok cartridge ∧
      ∀ byFrames bySteps : Config, byFrames.steps = none →
        let m := powerOn (some cartridge)
        let ticks := forwarded (List.replicate byFrames.frames .frame) m ({} : Raster)
        (∀ result, run byFrames (.ok image) = .ok result → bySteps.steps = some ticks.length →
          run bySteps (.ok image) = .ok result) ∧
        (∀ k e, run byFrames (.ok image) = .error (.stoppedInFrame k e) →
          k = fullFrames 0 ticks ∧
            ∀ s, bySteps.steps = some s →
              (s ≤ ticks.length → ∃ result, run bySteps (.ok image) = .ok result) ∧
              (ticks.length < s →
                run bySteps (.ok image) = .error (.stoppedAtStep ticks.length e))) ∧
        ∀ s j e, bySteps.steps = some s → run bySteps (.ok image) = .error (.stoppedAtStep j e) →
          let k := fullFrames 0 (forwarded (List.replicate j .tick) m ({} : Raster))
          k < byFrames.frames → run byFrames (.ok image) = .error (.stoppedInFrame k e) := by
  obtain ⟨cartridge, hload⟩ := Cartridge.exists_load h
  refine ⟨cartridge, hload, fun byFrames bySteps hframes => ?_⟩
  intro m ticks
  have hbudget : budget byFrames = (.frame, byFrames.frames) := by rw [budget, hframes]
  have hsteps {s : Nat} (hs : bySteps.steps = some s) : budget bySteps = (.tick, s) := by
    rw [budget, hs]
  refine ⟨fun result hrun hs => ?_, fun k e hrun => ?_, fun s j e hs hrun => ?_⟩
  · obtain ⟨lengths, m', r', hlen, hr, rfl⟩ := exists_repeats_of_run_eq_ok hload hbudget hrun
    obtain ⟨hticks, -⟩ := hr.forwarded_frames
    rw [hlen] at hticks
    exact run_of_repeats hload (hsteps hs) hticks
  · obtain ⟨lengths, e', m', r', hlen, hf, herror⟩ :=
      exists_fails_of_run_eq_error hload hbudget hrun
    obtain ⟨rfl, rfl⟩ : k = lengths.length ∧ e = e' := Error.stoppedInFrame.inj herror
    obtain ⟨hticks, hfull⟩ := hf.forwarded_frames hlen
    refine ⟨hfull.symm, fun s hs => ⟨fun hle => ?_, fun hlt => ?_⟩⟩
    · exact exists_run_eq_ok_of_fails hload (hsteps hs) hle hticks
    · exact run_of_fails hload (hsteps hs) hlt hticks
  · intro k hk
    obtain ⟨costs, e', m', r', -, hf, herror⟩ :=
      exists_fails_of_run_eq_error hload (hsteps hs) hrun
    obtain ⟨rfl, rfl⟩ : j = costs.length ∧ e = e' := Error.stoppedAtStep.inj herror
    have hcosts : k = fullFrames 0 costs := by
      obtain ⟨m₁, r₁, hr, -⟩ := hf
      exact congrArg (fullFrames 0) hr.forwarded_ticks
    obtain ⟨lengths, m₁, r₁, hlen, hframe⟩ :=
      exists_frame_fails_of_tick_fails hf (hcosts ▸ hk)
    rw [hcosts, ← hlen]
    exact run_of_fails hload hbudget (by rwa [hlen, ← hcosts]) hframe

theorem budgets_agree_on_hang_and_stop :
    let e : IllegalOpcode := ⟨0xFD, 0x0102, 8⟩
    run { path := "hang.gb", frames := 3 } (.ok hangingImage) = .error (.stoppedInFrame 0 e) ∧
      run { path := "hang.gb", steps := some 3 } (.ok hangingImage) = .error (.stoppedAtStep 2 e) ∧
      (∃ result, run { path := "hang.gb", steps := some 2 } (.ok hangingImage) = .ok result) ∧
      ∃ result, run { path := "stop.gb", frames := 1 } (.ok stoppingImage) = .ok result ∧
        run { path := "stop.gb", steps := some 17556 } (.ok stoppingImage) = .ok result := by
  intro e
  obtain ⟨cartridge, hload, hagree⟩ := budgets_agree hangingImage headerEnd_le_hangingImage
  obtain ⟨m, r, hfails⟩ := fails_hangingImage hload {}
  have hticks : forwarded [.tick, .tick] (powerOn (some cartridge)) ({} : Raster) = [4, 4] := by
    obtain ⟨m₁, r₁, hr, -⟩ := hfails
    exact hr.forwarded_ticks
  have hthree : run { path := "hang.gb", steps := some 3 } (.ok hangingImage) =
      .error (.stoppedAtStep 2 e) :=
    run_of_fails (c := .tick) (n := 3) hload rfl (by decide) hfails
  obtain ⟨-, hsteps₃, hback⟩ :=
    hagree { path := "hang.gb", frames := 3 } { path := "hang.gb", steps := some 3 } rfl
  obtain ⟨-, hsteps₂, -⟩ :=
    hagree { path := "hang.gb", frames := 3 } { path := "hang.gb", steps := some 2 } rfl
  have hframe : run { path := "hang.gb", frames := 3 } (.ok hangingImage) =
      .error (.stoppedInFrame 0 e) := by
    have hframe := hback 3 2 e rfl hthree
    rw [show List.replicate 2 Call.tick = [.tick, .tick] from rfl, hticks] at hframe
    exact hframe (by decide)
  obtain ⟨-, hs₃⟩ := hsteps₃ 0 e hframe
  obtain ⟨-, hs₂⟩ := hsteps₂ 0 e hframe
  refine ⟨hframe, hthree, (hs₂ 2 rfl).1 ?_, ?_⟩
  · -- The run of three steps would have failed earlier otherwise.
    refine Nat.le_of_not_lt fun hlt => ?_
    have hearly := (hs₃ 3 rfl).2 (Nat.lt_trans hlt (by decide))
    rw [hthree] at hearly
    have hlength := (Error.stoppedAtStep.inj (Except.error.inj hearly)).1
    exact absurd hlt (Nat.not_lt_of_le (Nat.le_of_eq hlength))
  · obtain ⟨stopping, hload, hagree⟩ := budgets_agree stoppingImage headerEnd_le_stoppingImage
    obtain ⟨hsame, -, -⟩ :=
      hagree { path := "stop.gb", frames := 1 } { path := "stop.gb", steps := some 17556 } rfl
    obtain ⟨⟨result, hrun⟩, hforwarded⟩ := run_stoppingImage hload
    refine ⟨result, hrun, hsame result hrun ?_⟩
    rw [show List.replicate 1 Call.frame = [.frame] from rfl, hforwarded, List.length_replicate]
    rfl

end DotMatrix.Session
