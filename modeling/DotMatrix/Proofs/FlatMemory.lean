import DotMatrix.Cpu.Step
import DotMatrix.Proofs.AddressSpace

/-!
The processor on flat memory and on the address space. An access that keeps away from the echo, and
writes only where there are cells, cannot tell the two apart.
-/

namespace DotMatrix

namespace AddressSpace

def Echo (addr : UInt16) : Prop := 0xE000 ≤ addr ∧ addr ≤ 0xFDFF

instance (addr : UInt16) : Decidable (Echo addr) := inferInstanceAs (Decidable (_ ∧ _))

theorem canonical_of_not_echo {addr : UInt16} (h : ¬ Echo addr) : canonical addr = addr :=
  if_neg h

def flat (s : AddressSpace) : Memory := ⟨.ofFn fun i => s.read (.ofNat i)⟩

@[simp] theorem read_flat (s : AddressSpace) (addr : UInt16) : s.flat.read addr = s.read addr := by
  simp [flat, Memory.read]

end AddressSpace

open AddressSpace

/-- Traffic for which the echo and the cartridge make no difference. -/
def Event.IsPlain : Event → Prop
  | read addr _ => ¬ Echo addr
  | write addr _ => Stored addr ∧ ¬ Echo addr

instance : DecidablePred Event.IsPlain
  | .read addr _ => inferInstanceAs (Decidable (¬ Echo addr))
  | .write addr _ => inferInstanceAs (Decidable (Stored addr ∧ ¬ Echo addr))

namespace Bus

def Plain (β : Type) [Bus β] : Prop :=
  ∀ (bus : β) (a addr : UInt16) (value : UInt8), Stored a → ¬ Echo a → ¬ Echo addr →
    read (write bus a value) addr = if a = addr then value else read bus addr

def Agree {β γ : Type} [Bus β] [Bus γ] (b : β) (c : γ) : Prop :=
  ∀ addr, ¬ Echo addr → read b addr = read c addr

variable {β γ : Type} [Bus β] [Bus γ] {b : β} {c : γ}

theorem Agree.symm (h : Agree b c) : Agree c b := fun addr ha => (h addr ha).symm

theorem Agree.write (hβ : Plain β) (hγ : Plain γ) (h : Agree b c) {a : UInt16} (hs : Stored a)
    (he : ¬ Echo a) (value : UInt8) : Agree (write b a value) (write c a value) := by
  intro addr ha
  rw [hβ b a addr value hs he ha, hγ c a addr value hs he ha, h addr ha]

theorem plain_memory : Plain Memory := fun m a addr value _ _ _ => m.read_write a addr value

theorem plain_addressSpace : Plain AddressSpace := by
  intro s a addr value hs ha haddr
  simp only [bus_write, bus_read, AddressSpace.read_write, hs, canonical_of_not_echo ha,
    canonical_of_not_echo haddr, true_and]

end Bus

theorem AddressSpace.agree_flat (s : AddressSpace) : Bus.Agree s.flat s :=
  fun addr _ => s.read_flat addr

namespace Access

variable {β γ : Type} [Bus β] [Bus γ]

theorem run_of_agree (hβ : Bus.Plain β) (hγ : Bus.Plain γ) (x : Access α) {b : β} {c : γ}
    (h : Bus.Agree b c) (hplain : ∀ e ∈ x.trace b, e.IsPlain) :
    x.trace c = x.trace b ∧ (x.run c).1 = (x.run b).1 ∧ Bus.Agree (x.run b).2 (x.run c).2 := by
  induction x generalizing b c with
  | done a => exact ⟨rfl, rfl, h⟩
  | reading addr next ih =>
    obtain ⟨haddr, hrest⟩ := List.forall_mem_cons.1 hplain
    obtain ⟨htrace, hrun⟩ := ih _ h hrest
    simp only [trace, run, ← h addr haddr]
    exact ⟨congrArg (List.cons _) htrace, hrun⟩
  | writing addr value next ih =>
    obtain ⟨⟨hstored, haddr⟩, hrest⟩ := List.forall_mem_cons.1 hplain
    obtain ⟨htrace, hrun⟩ := ih (h.write hβ hγ hstored haddr value) hrest
    exact ⟨congrArg (List.cons _) htrace, hrun⟩

end Access

namespace Cpu

def steps : (count : Nat) → Cpu → Access (List Outcome × Cpu)
  | 0, cpu => return ([], cpu)
  | count + 1, cpu => do
    let (outcome, cpu) ← cpu.step
    let (outcomes, cpu) ← steps count cpu
    return (outcome :: outcomes, cpu)

/-- As long as the steps on flat memory make plain traffic only, those on the address space give the
same outcomes, make the same writes and leave the same processor, and then both read alike outside
the echo. -/
theorem steps_on_flat_memory (s : AddressSpace) (cpu : Cpu) (n : Nat)
    (h : ∀ e ∈ (steps n cpu).trace s.flat, e.IsPlain) :
    (∀ addr, s.flat.read addr = s.read addr) ∧
      ((steps n cpu).run s).1 = ((steps n cpu).run s.flat).1 ∧
      (steps n cpu).writes s = (steps n cpu).writes s.flat ∧
      ∀ addr, ¬ Echo addr →
        ((steps n cpu).run s.flat).2.read addr = ((steps n cpu).run s).2.read addr := by
  obtain ⟨htrace, hresult, hagree⟩ :=
    (steps n cpu).run_of_agree Bus.plain_memory Bus.plain_addressSpace s.agree_flat h
  exact ⟨s.read_flat, hresult, congrArg (List.filterMap Event.write?) htrace, hagree⟩

theorem restarts_on_flat_memory :
    (∀ e ∈ (steps 2 powerOn).trace (AddressSpace.powerOn none).flat, e.IsPlain) ∧
      ((steps 2 powerOn).run (AddressSpace.powerOn none).flat).1.2.cycles = 32 ∧
      (steps 2 powerOn).writes (AddressSpace.powerOn none).flat =
        [(0xFFFD, 0x01), (0xFFFC, 0x01), (0xFFFB, 0x00), (0xFFFA, 0x39)] := by
  have hplain : ∀ e ∈ (steps 2 powerOn).trace (AddressSpace.powerOn none), e.IsPlain := by
    decide +kernel
  obtain ⟨htrace, -⟩ := (steps 2 powerOn).run_of_agree Bus.plain_addressSpace Bus.plain_memory
    (agree_flat _).symm hplain
  have hflat : ∀ e ∈ (steps 2 powerOn).trace (AddressSpace.powerOn none).flat, e.IsPlain := by
    rw [htrace]
    exact hplain
  obtain ⟨-, hresult, hwrites, -⟩ := steps_on_flat_memory (.powerOn none) powerOn 2 hflat
  refine ⟨hflat, ?_, ?_⟩
  · rw [← hresult]
    decide +kernel
  · rw [← hwrites]
    decide +kernel

end Cpu

end DotMatrix
