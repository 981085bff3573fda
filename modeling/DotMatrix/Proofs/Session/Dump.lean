import DotMatrix.Proofs.Text.Hex
import DotMatrix.Session

namespace DotMatrix

theorem Word.combine_inj {l h l' h' : UInt8} :
    combine l h = combine l' h' ↔ l = l' ∧ h = h' := by
  constructor
  · intro heq
    have hlow := congrArg low heq
    have hhigh := congrArg high heq
    rw [low_combine, low_combine] at hlow
    rw [high_combine, high_combine] at hhigh
    exact ⟨hlow, hhigh⟩
  · rintro ⟨rfl, rfl⟩
    rfl

theorem Registers.eq_of_words {r r' : Registers} (haf : r.af = r'.af) (hbc : r.bc = r'.bc)
    (hde : r.de = r'.de) (hhl : r.hl = r'.hl) (hsp : r.sp = r'.sp) (hpc : r.pc = r'.pc) :
    r = r' := by
  obtain ⟨hf, ha⟩ := Word.combine_inj.1 haf
  rw [Flags.toByte_and_high, Flags.toByte_and_high] at hf
  obtain ⟨hc, hb⟩ := Word.combine_inj.1 hbc
  obtain ⟨he, hd⟩ := Word.combine_inj.1 hde
  obtain ⟨hl, hh⟩ := Word.combine_inj.1 hhl
  cases r
  cases r'
  simp_all [Flags.ext_iff]

namespace Session

theorem boolDigit_injective : Function.Injective boolDigit := by
  intro b b'
  cases b <;> cases b' <;> decide

def Result.fields (r : Result) : List (String × String) :=
  [("AF:", Hex.ofWord r.regs.af),
   (" BC:", Hex.ofWord r.regs.bc),
   (" DE:", Hex.ofWord r.regs.de),
   (" HL:", Hex.ofWord r.regs.hl),
   (" SP:", Hex.ofWord r.regs.sp),
   (" PC:", Hex.ofWord r.regs.pc),
   (" F:[", flagLetters r.regs.f),
   ("] IME:", boolDigit r.ime),
   (" HALT:", boolDigit r.halted)]

def Result.parts (r : Result) : List (List Char) := r.fields.map fun e => e.1.toList ++ e.2.toList

theorem cpuDump_eq (r : Result) :
    r.cpuDump = String.join (r.fields.map fun e => e.1 ++ e.2) ++
      (" cycles:" ++ toString r.cycles.toNat) := by
  unfold Result.cpuDump
  simp only [Result.fields, List.map_cons, List.map_nil, String.join_cons, String.join_nil,
    String.append_assoc, String.empty_append]

theorem toList_cpuDump (r : Result) :
    r.cpuDump.toList =
      r.parts.flatten ++ (" cycles:" ++ toString r.cycles.toNat).toList := by
  rw [cpuDump_eq, String.toList_append, String.toList_join, List.flatMap_map]
  simp only [Result.parts, ← List.flatMap_def, String.toList_append]

theorem length_boolDigit (b : Bool) : (boolDigit b).toList.length = 1 := by
  cases b <;> rfl

theorem length_parts (r : Result) : r.parts.map List.length = [7, 8, 8, 8, 8, 8, 8, 7, 7] := by
  simp [Result.parts, Result.fields, Hex.ofWord, flagLetters, length_boolDigit]

theorem eq_of_parts {r r' : Result} (h : r.parts = r'.parts) :
    r.regs = r'.regs ∧ r.ime = r'.ime ∧ r.halted = r'.halted := by
  simp only [Result.parts, Result.fields, List.map_cons, List.cons.injEq, List.append_right_inj,
    String.toList_inj, Hex.ofWord_injective.eq_iff, boolDigit_injective.eq_iff] at h
  obtain ⟨haf, hbc, hde, hhl, hsp, hpc, -, hime, hhalted, -⟩ := h
  exact ⟨Registers.eq_of_words haf hbc hde hhl hsp hpc, hime, hhalted⟩

theorem cycles_eq_of_printed {r r' : Result}
    (h : toString r.cycles.toNat = toString r'.cycles.toNat) : r.cycles = r'.cycles := by
  have hdigits : Nat.toDigits 10 r.cycles.toNat = Nat.toDigits 10 r'.cycles.toNat := by
    simpa only [Nat.toString_eq_ofList_toDigits, String.toList_ofList] using
      congrArg String.toList h
  have hvalue := congrArg (Nat.ofDigitChars 10 · 0) hdigits
  simp only [Nat.ofDigitChars_ten_toDigits] at hvalue
  exact UInt64.toNat_inj.1 hvalue

theorem cpuDump_eq_iff (r r' : Result) :
    r.cpuDump = r'.cpuDump ↔
      r.regs = r'.regs ∧ r.ime = r'.ime ∧ r.halted = r'.halted ∧ r.cycles = r'.cycles := by
  constructor
  · intro h
    have htexts := congrArg String.toList h
    rw [toList_cpuDump, toList_cpuDump] at htexts
    have hlengths : r.parts.map List.length = r'.parts.map List.length := by
      rw [length_parts, length_parts]
    have hwidth : r.parts.flatten.length = r'.parts.flatten.length := by
      rw [List.length_flatten, List.length_flatten, hlengths]
    obtain ⟨hflatten, hend⟩ := List.append_inj htexts hwidth
    obtain ⟨hregs, hime, hhalted⟩ :=
      eq_of_parts ((List.eq_iff_flatten_eq ..).2 ⟨hflatten, hlengths⟩)
    rw [String.toList_inj, String.append_right_inj] at hend
    exact ⟨hregs, hime, hhalted, cycles_eq_of_printed hend⟩
  · rintro ⟨hregs, hime, hhalted, hcycles⟩
    rw [cpuDump_eq, cpuDump_eq, Result.fields, Result.fields, hregs, hime, hhalted, hcycles]

def printedAf (dump : String) : Nat := Hex.value ((dump.toList.drop 3).takeWhile (· ≠ ' '))

def printedFlags (dump : String) : List Char :=
  (dump.toList.dropWhile (· ≠ '[')).tail.takeWhile (· ≠ ']')

theorem printedAf_cpuDump (r : Result) : printedAf r.cpuDump = r.regs.af.toNat := by
  obtain ⟨rest, hrest⟩ : ∃ rest, r.cpuDump.toList =
      "AF:".toList ++ ((Hex.ofWord r.regs.af).toList ++ ' ' :: rest) := by
    simp [toList_cpuDump, Result.parts, Result.fields]
  have hblank : ' ' ∉ (Hex.ofWord r.regs.af).toList := by
    simpa [Hex.ofWord] using Hex.not_mem_digits (by decide)
  rw [printedAf, hrest, List.drop_left' (by decide), takeWhile_ne_append hblank, Hex.value_ofWord]

theorem close_not_mem_flagLetters (f : Flags) : ']' ∉ (flagLetters f).toList := by
  rw [flagLetters]
  cases f.z <;> cases f.n <;> cases f.h <;> cases f.c <;> decide

theorem printedFlags_cpuDump (r : Result) :
    printedFlags r.cpuDump = (flagLetters r.regs.f).toList := by
  obtain ⟨rest, hrest⟩ : ∃ rest, r.cpuDump.toList =
      (r.parts.take 6).flatten ++ " F:".toList ++ '[' ::
        ((flagLetters r.regs.f).toList ++ ']' :: rest) := by
    simp [toList_cpuDump, Result.parts, Result.fields]
  have hopen : '[' ∉ (r.parts.take 6).flatten ++ " F:".toList := by
    have hdigits (w : UInt16) : '[' ∉ Hex.digits 4 w.toNat := Hex.not_mem_digits (by decide)
    simp [Result.parts, Result.fields, Hex.ofWord, hdigits]
  rw [printedFlags, hrest, dropWhile_ne_append hopen, List.tail_cons,
    takeWhile_ne_append (close_not_mem_flagLetters r.regs.f)]

theorem letters_of_flags (f : Flags) :
    (flagLetters f).toList.map (· != '-') = [7, 6, 5, 4].map f.toByte.toNat.testBit := by
  have hbits : [7, 6, 5, 4].map f.toByte.toNat.testBit = [f.z, f.n, f.h, f.c] := by
    simp only [Flags.get_eq]
    rfl
  rw [hbits, flagLetters]
  cases f.z <;> cases f.n <;> cases f.h <;> cases f.c <;> decide

/-- Dumps of two results are the same only where all the state that they print is the same. In each
of them the letters of the flags agree with the word that is printed for them. -/
theorem dump_is_fingerprint (r r' : Result) :
    (r.cpuDump = r'.cpuDump ↔
      r.regs = r'.regs ∧ r.ime = r'.ime ∧ r.halted = r'.halted ∧ r.cycles = r'.cycles) ∧
    (printedFlags r.cpuDump).map (· != '-') =
      [7, 6, 5, 4].map (printedAf r.cpuDump % 0x100).testBit := by
  refine ⟨cpuDump_eq_iff r r', ?_⟩
  rw [printedFlags_cpuDump, printedAf_cpuDump, ← Word.toNat_low, Registers.low_af,
    letters_of_flags]

end Session

end DotMatrix
