import DotMatrix.Machine
import DotMatrix.Proofs.Cpu.Cost

namespace DotMatrix

instance {ν : Type} [Video ν] : Video (ν × Recorder) where
  tick video s cycles :=
    let (device, s) := Video.tick video.1 s cycles
    ((device, ⟨cycles :: video.2.cycles⟩), s)

def Recorder.total (r : Recorder) : Nat := r.cycles.foldr (· + ·) 0

theorem Recorder.total_cons (cycles : Nat) (rest : List Nat) :
    total ⟨cycles :: rest⟩ = cycles + total ⟨rest⟩ := rfl

def Video.Simulates {ν μ : Type} [Video ν] [Video μ] (f : ν → μ) : Prop :=
  ∀ video s cycles,
    Video.tick (f video) s cycles =
      (f (Video.tick video s cycles).1, (Video.tick video s cycles).2)

theorem Video.simulates_fst {ν : Type} [Video ν] :
    Video.Simulates (Prod.fst : ν × Recorder → ν) :=
  fun _ _ _ => rfl

namespace Machine

inductive Call
  | tick
  | frame

variable {ν : Type} [Video ν]

def call (m : Machine) (video : ν) : Call → Machine × ν
  | .tick => (m.tick video).2
  | .frame => (m.stepFrame video).2

def calls : List Call → Machine → ν → Machine × ν
  | [], m, video => (m, video)
  | c :: cs, m, video => calls cs (m.call video c).1 (m.call video c).2

theorem step_eq (m : Machine) :
    m.step =
      (m.cpu.outcome m.space, ⟨m.cpu.after m.space, (m.cpu.step.run m.space).2⟩) := rfl

theorem tick_of_ok {m : Machine} {cost : Nat} (h : m.cpu.outcome m.space = .ok cost) (video : ν) :
    m.tick video =
      let r := Video.tick video (m.cpu.step.run m.space).2 cost
      (.ok cost, ⟨m.cpu.after m.space, r.2⟩, r.1) := by
  rw [tick, step_eq, h]

theorem tick_of_error {m : Machine} {e : IllegalOpcode} (h : m.cpu.outcome m.space = .error e)
    (video : ν) :
    m.tick video = (.error e, ⟨m.cpu.after m.space, m.space⟩, video) := by
  rw [tick, step_eq, h, Cpu.run_step_snd_of_error h]

section Invariant

variable {P : Machine → ν → Prop}

theorem fillFrame_invariant
    (htick : ∀ m video, P m video → P (m.tick video).2.1 (m.tick video).2.2) (ticks elapsed : Nat)
    {m : Machine} {video : ν} (h : P m video) :
    P (fillFrame ticks elapsed m video).2.1 (fillFrame ticks elapsed m video).2.2 := by
  induction ticks generalizing elapsed m video with
  | zero => exact h
  | succ ticks ih =>
    have hnext := htick m video h
    unfold fillFrame
    split
    · rcases ht : m.tick video with ⟨outcome | cost, m', video'⟩
      · rw [ht] at hnext
        exact hnext
      · rw [ht] at hnext
        exact ih _ hnext
    · exact h

theorem calls_invariant
    (htick : ∀ m video, P m video → P (m.tick video).2.1 (m.tick video).2.2) (cs : List Call)
    {m : Machine} {video : ν} (h : P m video) : P (calls cs m video).1 (calls cs m video).2 := by
  induction cs generalizing m video with
  | nil => exact h
  | cons c cs ih =>
    cases c with
    | tick => exact ih (htick m video h)
    | frame => exact ih (fillFrame_invariant htick ticksPerFrame 0 h)

end Invariant

section Simulation

variable {μ : Type} [Video μ] {f : ν → μ}

theorem tick_map (hf : Video.Simulates f) (m : Machine) (video : ν) :
    m.tick (f video) = ((m.tick video).1, (m.tick video).2.1, f (m.tick video).2.2) := by
  cases h : m.cpu.outcome m.space with
  | error e => rw [tick_of_error h, tick_of_error h]
  | ok cost => simp only [tick_of_ok h, hf video]

theorem fillFrame_map (hf : Video.Simulates f) (ticks elapsed : Nat) (m : Machine) (video : ν) :
    fillFrame ticks elapsed m (f video) =
      ((fillFrame ticks elapsed m video).1, (fillFrame ticks elapsed m video).2.1,
        f (fillFrame ticks elapsed m video).2.2) := by
  induction ticks generalizing elapsed m video with
  | zero => rfl
  | succ ticks ih =>
    unfold fillFrame
    rw [tick_map hf]
    split
    · rcases m.tick video with ⟨outcome | cost, m', video'⟩
      · rfl
      · exact ih _ m' video'
    · rfl

theorem calls_map (hf : Video.Simulates f) (cs : List Call) (m : Machine) (video : ν) :
    calls cs m (f video) = ((calls cs m video).1, f (calls cs m video).2) := by
  induction cs generalizing m video with
  | nil => rfl
  | cons c cs ih =>
    have hcall : m.call (f video) c = ((m.call video c).1, f (m.call video c).2) := by
      cases c with
      | tick => exact congrArg Prod.snd (tick_map hf m video)
      | frame => exact congrArg Prod.snd (fillFrame_map hf ticksPerFrame 0 m video)
    rw [calls, hcall]
    exact ih _ _

end Simulation

/-- The cycles that the calls spend, as a recorder beside the device counts them. -/
def spent (cs : List Call) (m : Machine) (video : ν) : Nat :=
  (calls cs m (video, ({} : Recorder))).2.2.total

theorem calls_eq_recorded (cs : List Call) (m : Machine) (video : ν) :
    calls cs m video =
      ((calls cs m (video, ({} : Recorder))).1, (calls cs m (video, ({} : Recorder))).2.1) :=
  calls_map Video.simulates_fst cs m (video, {})

end Machine

end DotMatrix
