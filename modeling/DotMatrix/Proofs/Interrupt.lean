import DotMatrix.Interrupt

namespace DotMatrix.Interrupt

theorem first?_eq_some_iff {pending : UInt8} {i : Interrupt} :
    first? pending = some i ↔
      pending &&& i.mask ≠ 0 ∧ ∀ j : Interrupt, j.index < i.index → pending &&& j.mask = 0 := by
  constructor
  · intro h
    have hi : pending &&& i.mask ≠ 0 := by simpa using List.find?_some h
    refine ⟨hi, fun j hj => ?_⟩
    by_cases hzero : pending &&& j.mask = 0
    · exact hzero
    · cases j <;> cases i <;> simp_all [first?, all, index]
  · rintro ⟨hi, hj⟩
    have hvblank := hj vblank
    have hlcdStat := hj lcdStat
    have htimer := hj timer
    have hserial := hj serial
    cases i <;> simp_all [first?, all, index]

theorem first?_eq_none_iff {pending : UInt8} :
    first? pending = none ↔ ∀ i : Interrupt, pending &&& i.mask = 0 := by
  simp only [first?, List.find?_eq_none]
  constructor
  · intro h i
    have hmem : i ∈ all := by cases i <;> decide
    simpa using h i hmem
  · intro h i _
    simp [h i]

theorem sources_eq_zero_iff {register : UInt8} :
    sources register = 0 ↔ ∀ i : Interrupt, sources register &&& i.mask = 0 := by
  constructor
  · intro h i
    rw [h, UInt8.zero_and]
  · intro h
    have distrib (a b : UInt8) :
        sources register &&& (a ||| b) = sources register &&& a ||| sources register &&& b :=
      UInt8.toBitVec_inj.1 BitVec.and_or_distrib_left
    have masks :
        vblank.mask ||| lcdStat.mask ||| timer.mask ||| serial.mask ||| joypad.mask = 0x1F := rfl
    calc
      sources register = sources register &&& 0x1F := by rw [sources, UInt8.and_assoc]; rfl
      _ = 0 := by rw [← masks]; simp only [distrib, h]; rfl

theorem and_not_mask_and {i j : Interrupt} (h : i ≠ j) (register : UInt8) :
    register &&& ~~~i.mask &&& j.mask = register &&& j.mask := by
  have hmask : ~~~i.mask &&& j.mask = j.mask := by
    cases i <;> cases j <;> first | rfl | contradiction
  rw [UInt8.and_assoc, hmask]

theorem and_not_mask_and_not {pending : UInt8} {i : Interrupt} (h : pending &&& i.mask ≠ 0)
    (register : UInt8) :
    register &&& ~~~i.mask &&& ~~~(pending &&& ~~~i.mask) = register &&& ~~~pending := by
  have hall : ~~~i.mask &&& ~~~(pending &&& ~~~i.mask) = ~~~pending := by
    obtain ⟨⟨n⟩⟩ := pending
    revert n
    cases i <;> decide +kernel
  rw [UInt8.and_assoc, hall]

theorem or_mask_and_mask (register : UInt8) (i : Interrupt) :
    (register ||| i.mask) &&& i.mask = i.mask := by
  refine UInt8.toBitVec_inj.1 (BitVec.eq_of_getElem_eq fun _ _ => ?_)
  simpa using Or.inr

theorem sources_and_mask (register : UInt8) (i : Interrupt) :
    sources register &&& i.mask = register &&& i.mask := by
  have hmask : 0x1F &&& i.mask = i.mask := by cases i <;> decide
  rw [sources, UInt8.and_assoc, hmask]

def setIn (register : UInt8) : List Interrupt := all.filter fun i => register &&& i.mask != 0

section

variable {register : UInt8} {i : Interrupt}

@[simp] theorem mem_setIn : i ∈ setIn register ↔ register &&& i.mask ≠ 0 := by
  have hmem : i ∈ all := by cases i <;> decide
  simp [setIn, hmem]

theorem pairwise_setIn : (setIn register).Pairwise (·.index < ·.index) := by
  have hall : all.Pairwise (·.index < ·.index) := by decide
  exact hall.filter _

theorem head?_setIn : (setIn register).head? = first? register := List.head?_filter

theorem setIn_eq_cons (h : first? register = some i) :
    setIn register = i :: setIn (register &&& ~~~i.mask) := by
  have hothers : setIn (register &&& ~~~i.mask) = (setIn register).filter (· ≠ i) := by
    simp only [setIn, List.filter_filter]
    refine List.filter_congr fun j _ => ?_
    by_cases hj : j = i
    · simp [hj, UInt8.and_assoc]
    · simp [hj, and_not_mask_and (Ne.symm hj)]
  obtain ⟨rest, hcons⟩ := List.head?_eq_some_iff.1 (head?_setIn.trans h)
  have hpairwise : (setIn register).Pairwise (·.index < ·.index) := pairwise_setIn
  rw [hcons, List.pairwise_cons] at hpairwise
  rw [hothers, hcons, List.filter_cons_of_neg (by simp), List.filter_eq_self.2]
  intro j hj
  have hlt := hpairwise.1 j hj
  simp only [ne_eq, decide_not, Bool.not_eq_true', decide_eq_false_iff_not]
  rintro rfl
  exact UInt8.lt_irrefl _ hlt

end

end DotMatrix.Interrupt
