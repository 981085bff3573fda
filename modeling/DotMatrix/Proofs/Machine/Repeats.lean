import DotMatrix.Proofs.Cpu.Hang
import DotMatrix.Proofs.Machine.Calls
import Mathlib.Algebra.Ring.Nat

namespace DotMatrix.Machine

variable {ν : Type} [Video ν]

def attempt (m : Machine) (video : ν) : Call → Cpu.Outcome × Machine × ν
  | .tick => m.tick video
  | .frame => m.stepFrame video

inductive Repeats (c : Call) : Machine → ν → List Nat → Machine → ν → Prop
  | nil {m : Machine} {video : ν} : Repeats c m video [] m video
  | cons {m m' m'' : Machine} {video video' video'' : ν} {cost : Nat} {costs : List Nat} :
      m.attempt video c = (.ok cost, m', video') → Repeats c m' video' costs m'' video'' →
        Repeats c m video (cost :: costs) m'' video''

def Fails (c : Call) (m : Machine) (video : ν) (costs : List Nat) (e : IllegalOpcode)
    (m' : Machine) (video' : ν) : Prop :=
  ∃ m₁ video₁, Repeats c m video costs m₁ video₁ ∧
    m₁.attempt video₁ c = (.error e, m', video')

/-- What the ticks in these calls cost, as the device is told. One that fails is not among them. -/
def forwarded (cs : List Call) (m : Machine) (video : ν) : List Nat :=
  (calls cs m (video, ({} : Recorder))).2.2.cycles.reverse

variable {c : Call} {m m' m₁ m₂ : Machine} {video video' video₁ video₂ : ν}
  {costs costs' : List Nat} {e : IllegalOpcode}

theorem call_eq (m : Machine) (video : ν) (c : Call) :
    m.call video c = (m.attempt video c).2 := by
  cases c <;> rfl

theorem sum_forwarded (cs : List Call) (m : Machine) (video : ν) :
    (forwarded cs m video).sum = spent cs m video := by
  rw [forwarded, List.sum_reverse]
  rfl

namespace Repeats

theorem append (h : Repeats c m video costs m₁ video₁) (h' : Repeats c m₁ video₁ costs' m₂ video₂) :
    Repeats c m video (costs ++ costs') m₂ video₂ := by
  induction h with
  | nil => exact h'
  | cons hc _ ih => exact .cons hc (ih h')

theorem take (h : Repeats c m video costs m' video') (n : Nat) :
    ∃ m₁ video₁, Repeats c m video (costs.take n) m₁ video₁ := by
  induction h generalizing n with
  | nil => exact ⟨_, _, by simpa using .nil⟩
  | cons hc _ ih =>
    cases n with
    | zero => exact ⟨_, _, .nil⟩
    | succ n =>
      obtain ⟨m₁, video₁, hrest⟩ := ih n
      exact ⟨m₁, video₁, .cons hc hrest⟩

theorem append_of_fails {m₂ : Machine} {video₂ : ν} (h : Repeats c m video costs m₁ video₁)
    (hf : Fails c m video costs' e m₂ video₂) :
    ∃ rest, costs' = costs ++ rest ∧ Fails c m₁ video₁ rest e m₂ video₂ := by
  induction h generalizing costs' with
  | nil => exact ⟨costs', rfl, hf⟩
  | cons hc _ ih =>
    obtain ⟨mf, videof, hr, herror⟩ := hf
    cases hr with
    | nil => simp [hc] at herror
    | cons hc' hr' =>
      obtain ⟨⟨⟩, rfl, rfl⟩ : _ ∧ _ ∧ _ := by simpa [hc] using hc'
      obtain ⟨rest, rfl, hrest⟩ := ih ⟨mf, videof, hr', herror⟩
      exact ⟨rest, rfl, hrest⟩

theorem calls_eq (h : Repeats c m video costs m' video') :
    calls (List.replicate costs.length c) m video = (m', video') := by
  induction h with
  | nil => rfl
  | cons hc _ ih => rw [List.length_cons, List.replicate_succ, calls, call_eq, hc, ih]

end Repeats

theorem Fails.unique {e₁ e₂ : IllegalOpcode} (h : Fails c m video costs e₁ m₁ video₁)
    (h' : Fails c m video costs' e₂ m₂ video₂) : costs = costs' ∧ e₁ = e₂ := by
  obtain ⟨mf, videof, hr, herror⟩ := h
  obtain ⟨rest, rfl, mf', videof', hr', herror'⟩ := hr.append_of_fails h'
  cases hr' with
  | nil =>
    rw [herror] at herror'
    exact ⟨(List.append_nil costs).symm, Except.error.inj (congrArg Prod.fst herror')⟩
  | cons hc _ => simp [herror] at hc

theorem fst_tick (m : Machine) (video : ν) : (m.tick video).1 = m.cpu.outcome m.space := by
  cases h : m.cpu.outcome m.space with
  | ok cost => rw [tick_of_ok h]
  | error e => rw [tick_of_error h]

theorem cpu_tick (m : Machine) (video : ν) : (m.tick video).2.1.cpu = m.cpu.after m.space := by
  cases h : m.cpu.outcome m.space with
  | ok cost => rw [tick_of_ok h]
  | error e => rw [tick_of_error h]

theorem snd_snd_tick_of_error (h : m.tick video = (.error e, m', video')) : video' = video := by
  have ho : m.cpu.outcome m.space = .error e := by rw [← fst_tick m video, h]
  rw [tick_of_error ho] at h
  exact (congrArg (·.2.2) h).symm

theorem locked_of_tick_error (h : m.tick video = (.error e, m', video')) :
    m'.cpu.locked = some e := by
  have ho : m.cpu.outcome m.space = .error e := by rw [← fst_tick m video, h]
  have hcpu : m'.cpu = m.cpu.after m.space := by rw [← cpu_tick m video, h]
  rw [hcpu]
  exact Cpu.locked_after_of_error ho

theorem tick_of_locked (h : m.cpu.locked = some e) (video : ν) :
    m.tick video = (.error e, m, video) := by
  have hstep : m.step = (.error e, m) := by
    rw [step_eq, Cpu.outcome, Cpu.after, Cpu.step_of_hung h]
    rfl
  rw [tick, hstep]

theorem fillFrame_of_locked (h : m.cpu.locked = some e) (ticks : Nat) {elapsed : Nat}
    (helapsed : elapsed < cyclesPerFrame) (video : ν) :
    fillFrame (ticks + 1) elapsed m video = (.error e, m, video) := by
  rw [fillFrame, if_pos helapsed, tick_of_locked h]

theorem stepFrame_of_locked (h : m.cpu.locked = some e) (video : ν) :
    m.stepFrame video = (.error e, m, video) :=
  fillFrame_of_locked h (ticksPerFrame - 1) (by decide) video

theorem calls_of_locked (h : m.cpu.locked = some e) (cs : List Call) (video : ν) :
    calls cs m video = (m, video) := by
  induction cs with
  | nil => rfl
  | cons c cs ih =>
    have hcall : m.call video c = (m, video) := by
      cases c with
      | tick => exact congrArg Prod.snd (tick_of_locked h video)
      | frame => exact congrArg Prod.snd (stepFrame_of_locked h video)
    rw [calls, hcall, ih]

theorem calls_append (cs cs' : List Call) (m : Machine) (video : ν) :
    calls (cs ++ cs') m video = calls cs' (calls cs m video).1 (calls cs m video).2 := by
  induction cs generalizing m video with
  | nil => rfl
  | cons c cs ih => exact ih _ _

theorem locked_of_fillFrame_error {ticks elapsed : Nat}
    (h : fillFrame ticks elapsed m video = (.error e, m', video')) : m'.cpu.locked = some e := by
  induction ticks generalizing elapsed m video with
  | zero => simp [fillFrame] at h
  | succ ticks ih =>
    unfold fillFrame at h
    split at h
    · rcases ht : m.tick video with ⟨error | cost, m₁, video₁⟩
      · rw [ht] at h
        exact locked_of_tick_error (ht.trans h)
      · rw [ht] at h
        exact ih h
    · simp at h

theorem locked_of_attempt_error (h : m.attempt video c = (.error e, m', video')) :
    m'.cpu.locked = some e := by
  cases c with
  | tick => exact locked_of_tick_error h
  | frame => exact locked_of_fillFrame_error h

theorem Fails.calls_eq (h : Fails c m video costs e m' video') {n : Nat} (hn : costs.length < n) :
    calls (List.replicate n c) m video = (m', video') := by
  obtain ⟨m₁, video₁, hr, herror⟩ := h
  obtain ⟨extra, rfl⟩ := Nat.exists_eq_add_of_lt hn
  rw [Nat.add_assoc, ← List.replicate_append_replicate, calls_append, hr.calls_eq,
    List.replicate_succ, calls, call_eq, herror]
  exact calls_of_locked (locked_of_attempt_error herror) _ _

section Simulation

variable {μ : Type} [Video μ] {f : ν → μ}

theorem attempt_map (hf : Video.Simulates f) (m : Machine) (video : ν) (c : Call) :
    m.attempt (f video) c =
      ((m.attempt video c).1, (m.attempt video c).2.1, f (m.attempt video c).2.2) := by
  cases c with
  | tick => exact tick_map hf m video
  | frame => exact fillFrame_map hf ticksPerFrame 0 m video

theorem Repeats.map (hf : Video.Simulates f) (h : Repeats c m video costs m' video') :
    Repeats c m (f video) costs m' (f video') := by
  induction h with
  | nil => exact .nil
  | cons hc _ ih => exact .cons (by rw [attempt_map hf, hc]) ih

theorem Fails.map (hf : Video.Simulates f) (h : Fails c m video costs e m' video') :
    Fails c m (f video) costs e m' (f video') := by
  obtain ⟨m₁, video₁, hr, herror⟩ := h
  exact ⟨m₁, f video₁, hr.map hf, by rw [attempt_map hf, herror]⟩

end Simulation

theorem attempt_recorded {outcome : Cpu.Outcome} (h : m.attempt video c = (outcome, m', video'))
    (r : Recorder) : ∃ r', m.attempt (video, r) c = (outcome, m', video', r') := by
  have hmap := attempt_map Video.simulates_fst m (video, r) c
  rw [h] at hmap
  refine ⟨(m.attempt (video, r) c).2.2.2, ?_⟩
  simp_all [Prod.ext_iff]

theorem Repeats.recorded (h : Repeats c m video costs m' video') (r : Recorder) :
    ∃ r', Repeats c m (video, r) costs m' (video', r') := by
  induction h generalizing r with
  | nil => exact ⟨r, .nil⟩
  | cons hc _ ih =>
    obtain ⟨r₁, h₁⟩ := attempt_recorded hc r
    obtain ⟨r', hrest⟩ := ih r₁
    exact ⟨r', .cons h₁ hrest⟩

theorem Fails.recorded (h : Fails c m video costs e m' video') (r : Recorder) :
    ∃ r', Fails c m (video, r) costs e m' (video', r') := by
  obtain ⟨m₁, video₁, hr, herror⟩ := h
  obtain ⟨r₁, h₁⟩ := hr.recorded r
  obtain ⟨r', h'⟩ := attempt_recorded herror r₁
  exact ⟨r', m₁, (video₁, r₁), h₁, h'⟩

theorem cycles_of_tick_ok {r r' : Recorder} {cost : Nat}
    (h : m.tick (video, r) = (.ok cost, m', video', r')) : r'.cycles = cost :: r.cycles := by
  have ho : m.cpu.outcome m.space = .ok cost := by rw [← fst_tick m (video, r), h]
  rw [tick_of_ok ho] at h
  exact congrArg (·.2.2.2.cycles) h.symm

theorem Repeats.cycles_recorded {r r' : Recorder}
    (h : Repeats .tick m (video, r) costs m' (video', r')) :
    r'.cycles = costs.reverse ++ r.cycles := by
  generalize hw : (video, r) = w, hw' : (video', r') = w' at h
  induction h generalizing video r with
  | nil =>
    rw [← hw'] at hw
    rw [(Prod.mk.inj hw).2]
    rfl
  | @cons _ _ _ _ w₁ _ cost costs hc _ ih =>
    rw [ih rfl hw', cycles_of_tick_ok (hw ▸ hc)]
    simp

theorem Fails.cycles_recorded {r r' : Recorder}
    (h : Fails .tick m (video, r) costs e m' (video', r')) :
    r'.cycles = costs.reverse ++ r.cycles := by
  obtain ⟨m₁, ⟨video₁, r₁⟩, hr, herror⟩ := h
  rw [← hr.cycles_recorded, (Prod.mk.inj (snd_snd_tick_of_error herror)).2]

end DotMatrix.Machine
