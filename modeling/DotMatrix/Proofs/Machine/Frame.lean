import DotMatrix.Proofs.Machine.Repeats

/-!
The ticks of a frame. Every tick costs at least four cycles, so the ticks fill a frame before the
bound on their number is reached. Whole frames in a row are ticks in a row, and from what the ticks
cost one can tell where each frame ended.
-/

namespace DotMatrix.Machine

inductive Fills {ν : Type} [Video ν] :
    (elapsed : Nat) → Machine → ν → (costs : List Nat) → Cpu.Outcome × Machine × ν → Prop
  | full {elapsed : Nat} {m : Machine} {video : ν} :
      cyclesPerFrame ≤ elapsed → Fills elapsed m video [] (.ok elapsed, m, video)
  | failed {elapsed : Nat} {m m' : Machine} {video video' : ν} {e : IllegalOpcode} :
      elapsed < cyclesPerFrame → m.tick video = (.error e, m', video') →
        Fills elapsed m video [] (.error e, m', video')
  | ticked {elapsed cost : Nat} {m m' : Machine} {video video' : ν} {costs : List Nat}
      {result : Cpu.Outcome × Machine × ν} :
      elapsed < cyclesPerFrame → m.tick video = (.ok cost, m', video') →
        Fills (elapsed + cost) m' video' costs result → Fills elapsed m video (cost :: costs) result

/-- How many frames the costs of ticks fill. A frame ends with the tick that fills it, and the next
one starts from nothing. -/
def fullFrames : (elapsed : Nat) → List Nat → Nat
  | _, [] => 0
  | elapsed, cost :: costs =>
    if elapsed + cost < cyclesPerFrame then fullFrames (elapsed + cost) costs
    else fullFrames 0 costs + 1

variable {ν : Type} [Video ν] {m m' : Machine} {video video' : ν} {costs : List Nat}
  {elapsed cost : Nat} {e : IllegalOpcode} {result : Cpu.Outcome × Machine × ν}

theorem mem_costs_of_tick (h : m.tick video = (.ok cost, m', video')) : cost ∈ Cpu.costs := by
  have houtcome : m.cpu.outcome m.space = .ok cost := by rw [← fst_tick m video, h]
  exact Cpu.mem_costs_of_outcome houtcome

/-- The bound on the ticks never ends a frame. -/
theorem fills_fillFrame (bound elapsed : Nat) (m : Machine) (video : ν)
    (h : cyclesPerFrame ≤ elapsed + 4 * bound) :
    ∃ costs, costs.length ≤ bound ∧
      Fills elapsed m video costs (fillFrame bound elapsed m video) := by
  induction bound generalizing elapsed m video with
  | zero => exact ⟨[], Nat.le_refl 0, .full h⟩
  | succ bound ih =>
    unfold fillFrame
    split
    · rename_i hlt
      rcases ht : m.tick video with ⟨error | cost, m', video'⟩
      · exact ⟨[], Nat.zero_le _, .failed hlt ht⟩
      · have hcost := (Cpu.bounds_of_mem_costs (mem_costs_of_tick ht)).1
        obtain ⟨costs, hlength, hfills⟩ := ih (elapsed + cost) m' video' (by omega)
        exact ⟨cost :: costs, Nat.succ_le_succ hlength, .ticked hlt ht hfills⟩
    · rename_i hle
      exact ⟨[], Nat.zero_le _, .full (Nat.le_of_not_lt hle)⟩

theorem fills_stepFrame (m : Machine) (video : ν) :
    ∃ costs, costs.length ≤ ticksPerFrame ∧ Fills 0 m video costs (m.stepFrame video) :=
  fills_fillFrame ticksPerFrame 0 m video (by decide)

theorem fillFrame_of_repeats {bound : Nat} (h : Repeats .tick m video costs m' video')
    (hbound : costs.length ≤ bound) (hsum : elapsed + costs.sum = cyclesPerFrame) :
    fillFrame bound elapsed m video = (.ok cyclesPerFrame, m', video') := by
  induction h generalizing bound elapsed with
  | nil =>
    obtain rfl : elapsed = cyclesPerFrame := hsum
    cases bound with
    | zero => rfl
    | succ bound => exact if_neg (Nat.lt_irrefl _)
  | @cons m m₁ _ video video₁ _ cost costs hc _ ih =>
    obtain ⟨bound, rfl⟩ := Nat.exists_eq_add_of_lt hbound
    have htick : m.tick video = (.ok cost, m₁, video₁) := hc
    have hcost := (Cpu.bounds_of_mem_costs (mem_costs_of_tick htick)).1
    rw [List.sum_cons] at hsum
    have hlt : elapsed < cyclesPerFrame := by omega
    rw [fillFrame, if_pos hlt, htick]
    exact ih (Nat.le_add_right _ _) (by omega)

namespace Fills

theorem ended (h : Fills elapsed m video costs result) :
    (∃ m' video', Repeats .tick m video costs m' video' ∧
      result = (.ok (elapsed + costs.sum), m', video') ∧ cyclesPerFrame ≤ elapsed + costs.sum) ∨
    (∃ e m' video', Fails .tick m video costs e m' video' ∧
      result = (.error e, m', video') ∧ elapsed + costs.sum < cyclesPerFrame) := by
  induction h with
  | full hle => exact .inl ⟨_, _, .nil, rfl, hle⟩
  | failed hlt ht => exact .inr ⟨_, _, _, ⟨_, _, .nil, ht⟩, rfl, hlt⟩
  | ticked hlt ht _ ih =>
    simp only [List.sum_cons, ← Nat.add_assoc]
    rcases ih with ⟨m', video', hr, hrest⟩ | ⟨e, m', video', ⟨m₁, video₁, hr, herror⟩, hrest⟩
    · exact .inl ⟨m', video', .cons ht hr, hrest⟩
    · exact .inr ⟨e, m', video', ⟨m₁, video₁, .cons ht hr, herror⟩, hrest⟩

theorem repeats_of_ok (h : Fills elapsed m video costs (.ok cost, m', video')) :
    Repeats .tick m video costs m' video' ∧ cost = elapsed + costs.sum ∧ cyclesPerFrame ≤ cost := by
  rcases h.ended with ⟨m₁, video₁, hr, hresult, hle⟩ | ⟨e, m₁, video₁, -, hresult, -⟩
  · obtain ⟨rfl, rfl, rfl⟩ : _ ∧ _ ∧ _ := by simpa using hresult
    exact ⟨hr, rfl, hle⟩
  · simp at hresult

theorem fails_of_error (h : Fills elapsed m video costs (.error e, m', video')) :
    Fails .tick m video costs e m' video' ∧ elapsed + costs.sum < cyclesPerFrame := by
  rcases h.ended with ⟨m₁, video₁, -, hresult, -⟩ | ⟨e₁, m₁, video₁, hf, hresult, hlt⟩
  · simp at hresult
  · obtain ⟨rfl, rfl, rfl⟩ : _ ∧ _ ∧ _ := by simpa using hresult
    exact ⟨hf, hlt⟩

theorem fullFrames_of_ok (h : Fills elapsed m video costs (.ok cost, m', video'))
    (hlt : elapsed < cyclesPerFrame) (rest : List Nat) :
    fullFrames elapsed (costs ++ rest) = fullFrames 0 rest + 1 := by
  generalize hr : ((.ok cost, m', video') : Cpu.Outcome × Machine × ν) = result at h
  induction h with
  | full hle => exact absurd hle (Nat.not_le_of_lt hlt)
  | failed _ _ => simp at hr
  | @ticked elapsed cost _ _ _ _ costs _ _ _ hrest ih =>
    rw [List.cons_append, fullFrames]
    by_cases hnext : elapsed + cost < cyclesPerFrame
    · rw [if_pos hnext, ih hnext hr]
    · -- The frame is full, so no tick is left.
      rw [if_neg hnext]
      cases hrest with
      | full _ => rfl
      | failed hlt' _ => exact absurd hlt' hnext
      | ticked hlt' _ _ => exact absurd hlt' hnext

theorem fullFrames_of_error (h : Fills elapsed m video costs (.error e, m', video')) :
    fullFrames elapsed costs = 0 := by
  generalize hr : ((.error e, m', video') : Cpu.Outcome × Machine × ν) = result at h
  induction h with
  | full _ => simp at hr
  | failed _ _ => rfl
  | @ticked elapsed cost _ _ _ _ _ _ _ _ hrest ih =>
    have hnext : elapsed + cost < cyclesPerFrame := by
      cases hrest with
      | full _ => simp at hr
      | failed hlt _ => exact hlt
      | ticked hlt _ _ => exact hlt
    rw [fullFrames, if_pos hnext, ih hr]

end Fills

theorem exists_ticks_of_ok (h : m.stepFrame video = (.ok cost, m', video')) :
    ∃ costs, Repeats .tick m video costs m' video' ∧ costs.sum = cost ∧
      ∀ rest, fullFrames 0 (costs ++ rest) = fullFrames 0 rest + 1 := by
  obtain ⟨costs, -, hfills⟩ := fills_stepFrame m video
  rw [h] at hfills
  obtain ⟨hr, hsum, -⟩ := hfills.repeats_of_ok
  refine ⟨costs, hr, ?_, hfills.fullFrames_of_ok (by decide)⟩
  rw [hsum, Nat.zero_add]

theorem exists_ticks_of_error (h : m.stepFrame video = (.error e, m', video')) :
    ∃ costs, Fails .tick m video costs e m' video' ∧ fullFrames 0 costs = 0 := by
  obtain ⟨costs, -, hfills⟩ := fills_stepFrame m video
  rw [h] at hfills
  exact ⟨costs, hfills.fails_of_error.1, hfills.fullFrames_of_error⟩

variable {lengths : List Nat}

theorem Repeats.exists_ticks (h : Repeats .frame m video lengths m' video') :
    ∃ costs, Repeats .tick m video costs m' video' ∧ costs.sum = lengths.sum ∧
      ∀ rest, fullFrames 0 (costs ++ rest) = fullFrames 0 rest + lengths.length := by
  induction h with
  | nil => exact ⟨[], .nil, rfl, fun _ => rfl⟩
  | cons hc _ ih =>
    obtain ⟨costs, hr, hsum, hfull⟩ := exists_ticks_of_ok hc
    obtain ⟨costs', hr', hsum', hfull'⟩ := ih
    refine ⟨costs ++ costs', hr.append hr', ?_, fun rest => ?_⟩
    · rw [List.sum_append, hsum, hsum', List.sum_cons]
    · rw [List.append_assoc, hfull, hfull', List.length_cons, Nat.add_assoc]

theorem Fails.exists_ticks (h : Fails .frame m video lengths e m' video') :
    ∃ costs, Fails .tick m video costs e m' video' ∧ fullFrames 0 costs = lengths.length := by
  obtain ⟨m₁, video₁, hframes, herror⟩ := h
  obtain ⟨costs, hr, -, hfull⟩ := hframes.exists_ticks
  obtain ⟨costs', ⟨m₂, video₂, hr', herror'⟩, hfull'⟩ := exists_ticks_of_error herror
  refine ⟨costs ++ costs', ⟨m₂, video₂, hr.append hr', herror'⟩, ?_⟩
  rw [hfull, hfull', Nat.zero_add]

theorem Repeats.forwarded_ticks (h : Repeats .tick m video costs m' video') :
    forwarded (List.replicate costs.length .tick) m video = costs := by
  obtain ⟨r, hr⟩ := h.recorded {}
  rw [forwarded, hr.calls_eq, hr.cycles_recorded]
  simp

theorem Repeats.forwarded_frames (h : Repeats .frame m video lengths m' video') :
    let costs := forwarded (List.replicate lengths.length .frame) m video
    Repeats .tick m video costs m' video' ∧ costs.sum = lengths.sum := by
  obtain ⟨r, hr⟩ := h.recorded {}
  obtain ⟨costs, hticks, hsum, -⟩ := hr.exists_ticks
  have hcosts : forwarded (List.replicate lengths.length .frame) m video = costs := by
    rw [forwarded, hr.calls_eq, hticks.cycles_recorded]
    simp
  rw [hcosts]
  exact ⟨hticks.map Video.simulates_fst, hsum⟩

theorem Repeats.forwarded_frame (h : Repeats .tick m video costs m' video')
    (hbound : costs.length ≤ ticksPerFrame) (hsum : costs.sum = cyclesPerFrame) :
    forwarded [.frame] m video = costs := by
  obtain ⟨r, hr⟩ := h.recorded {}
  have hframe := fillFrame_of_repeats hr hbound ((Nat.zero_add _).trans hsum)
  have hcall : calls [.frame] m (video, ({} : Recorder)) = (m', video', r) :=
    congrArg Prod.snd hframe
  rw [forwarded, hcall, hr.cycles_recorded]
  simp

theorem Fails.forwarded_frames (h : Fails .frame m video lengths e m' video') {n : Nat}
    (hn : lengths.length < n) :
    let costs := forwarded (List.replicate n .frame) m video
    Fails .tick m video costs e m' video' ∧ fullFrames 0 costs = lengths.length := by
  obtain ⟨r, hr⟩ := h.recorded {}
  obtain ⟨costs, hticks, hfull⟩ := hr.exists_ticks
  have hcosts : forwarded (List.replicate n .frame) m video = costs := by
    rw [forwarded, hr.calls_eq hn, hticks.cycles_recorded]
    simp
  rw [hcosts]
  exact ⟨hticks.map Video.simulates_fst, hfull⟩

end DotMatrix.Machine
