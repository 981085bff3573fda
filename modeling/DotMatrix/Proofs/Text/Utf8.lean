import DotMatrix.Text.Utf8
import Mathlib.Algebra.Ring.Nat
import Mathlib.Tactic.SplitIfs

/-!
The reader of UTF-8 against the encoding of single characters. What a first byte opens is completed
by exactly the bytes with which some encoding goes on, so the reader takes an encoding for its
character and stops at the first byte that no encoding has there.
-/

namespace DotMatrix.Utf8

open String (utf8EncodeChar)

namespace Unfinished

def Accepts (p : Unfinished) (b : UInt8) : Prop := p.low ≤ b ∧ b ≤ p.high

instance (p : Unfinished) (b : UInt8) : Decidable (p.Accepts b) :=
  inferInstanceAs (Decidable (_ ∧ _))

inductive Completes : Unfinished → List UInt8 → Char → Prop
  | done {p : Unfinished} : p.owed = 0 → Completes p [] (.ofNat p.bits.toNat)
  | more {p : Unfinished} {b : UInt8} {tail : List UInt8} {c : Char} : p.owed ≠ 0 → p.Accepts b →
      Completes (p.extend b) tail c → Completes p (b :: tail) c

variable {p : Unfinished} {b : UInt8} {tail : List UInt8} {c : Char} {n : Nat}

theorem completes_nil_iff : p.Completes [] c ↔ p.owed = 0 ∧ c = .ofNat p.bits.toNat := by
  constructor
  · rintro (howed | _)
    exact ⟨howed, rfl⟩
  · rintro ⟨howed, rfl⟩
    exact .done howed

theorem completes_cons_iff :
    p.Completes (b :: tail) c ↔ p.owed ≠ 0 ∧ p.Accepts b ∧ (p.extend b).Completes tail c := by
  constructor
  · rintro (_ | ⟨howed, haccepts, h⟩)
    exact ⟨howed, haccepts, h⟩
  · rintro ⟨howed, haccepts, h⟩
    exact .more howed haccepts h

theorem owed_extend (howed : p.owed = n + 1) : (p.extend b).owed = n := by
  rw [extend, howed, Nat.add_sub_cancel]

theorem exists_completes (p : Unfinished) (hrange : p.low ≤ p.high) :
    ∃ tail c, p.Completes tail c := by
  induction howed : p.owed generalizing p with
  | zero => exact ⟨_, _, .done howed⟩
  | succ n ih =>
    have hrest : (p.extend p.low).low ≤ (p.extend p.low).high := by simp [extend]
    obtain ⟨tail, c, h⟩ := ih _ hrest (owed_extend howed)
    exact ⟨_, c, .more (by omega) ⟨UInt8.le_refl _, hrange⟩ h⟩

theorem toNat_bits_extend (p : Unfinished) (b : UInt8) (h : p.bits.toNat < 2 ^ 26) :
    (p.extend b).bits.toNat = p.bits.toNat * 64 + b.toNat % 64 := by
  have hlow : b.toNat % 64 < 2 ^ 6 := Nat.mod_lt _ (by decide)
  have hmask : b.toNat &&& 63 = b.toNat % 64 := Nat.and_two_pow_sub_one_eq_mod _ 6
  have hshift : p.bits.toNat <<< 6 = p.bits.toNat * 64 := Nat.shiftLeft_eq _ 6
  have hfits : p.bits.toNat <<< 6 % 2 ^ 32 = p.bits.toNat <<< 6 := Nat.mod_eq_of_lt (by omega)
  simp only [extend, UInt32.toNat_or, UInt32.toNat_shiftLeft, UInt8.toNat_toUInt32, UInt8.toNat_and]
  change p.bits.toNat <<< 6 % 2 ^ 32 ||| b.toNat &&& 63 = _
  rw [hmask, hfits, ← Nat.shiftLeft_add_eq_or_of_lt hlow, hshift]

end Unfinished

def following (v : Nat) : UInt8 := .ofNat (v % 64 + 0x80)

def continuation : (n : Nat) → (v : Nat) → List UInt8
  | 0, _ => []
  | n + 1, v => following (v / 64 ^ n) :: continuation n v

theorem toNat_following (v : Nat) : (following v).toNat = v % 64 + 0x80 := by
  simp [following]
  omega

def followers (v : Nat) : Nat :=
  if v < 0x80 then 0 else if v < 0x800 then 1 else if v < 0x10000 then 2 else 3

def leading (v : Nat) : Nat :=
  if v < 0x80 then v
  else if v < 0x800 then v / 64 + 0xC0
  else if v < 0x10000 then v / 4096 + 0xE0
  else v / 262144 + 0xF0

theorem leading_lt {v : Nat} (h : v.isValidChar) : leading v < 0x100 := by
  unfold leading
  split_ifs <;> omega

theorem utf8EncodeChar_eq (c : Char) :
    utf8EncodeChar c = .ofNat (leading c.toNat) :: continuation (followers c.toNat) c.toNat := by
  have hvalid : c.toNat.isValidChar := c.valid
  have htoNat : c.val.toNat = c.toNat := rfl
  simp only [utf8EncodeChar, leading, followers, htoNat]
  split_ifs <;> simp [continuation, following, ← UInt8.toNat_inj] <;> omega

namespace Unfinished

variable {p : Unfinished} {b : UInt8} {tail : List UInt8} {c : Char} {n : Nat}

theorem accepts_and_extend_iff (hlow : 0x80 ≤ p.low) (hhigh : p.high ≤ 0xBF)
    (hbits : p.bits.toNat < 2 ^ 26) {v : Nat} :
    p.Accepts b ∧ v = (p.extend b).bits.toNat ↔
      v / 64 = p.bits.toNat ∧ p.Accepts (following v) ∧ b = following v := by
  rw [toNat_bits_extend p b hbits]
  simp only [Accepts, UInt8.le_iff_toNat_le, ← UInt8.toNat_inj, toNat_following] at *
  simp only [UInt8.reduceToNat] at *
  omega

theorem accepts_following_extend (v : Nat) : (p.extend b).Accepts (following v) := by
  simp only [Accepts, extend, UInt8.le_iff_toNat_le, toNat_following, UInt8.reduceToNat]
  omega

theorem completes_iff (hlow : 0x80 ≤ p.low) (hhigh : p.high ≤ 0xBF) (howed : p.owed = n)
    (hbits : (p.bits.toNat + 1) * 64 ^ n ≤ 2 ^ 32) :
    p.Completes tail c ↔ ∃ v, v / 64 ^ n = p.bits.toNat ∧ tail = continuation n v ∧
      (∀ b ∈ tail.head?, p.Accepts b) ∧ c = .ofNat v := by
  induction n generalizing p tail with
  | zero =>
    cases tail with
    | nil => simp [completes_nil_iff, howed, continuation]
    | cons b tail => simp [completes_cons_iff, howed, continuation]
  | succ n ih =>
    cases tail with
    | nil => simp [completes_nil_iff, howed, continuation]
    | cons b tail =>
      have hsix : p.bits.toNat < 2 ^ 26 := by
        have hpos : p.bits.toNat + 1 ≤ (p.bits.toNat + 1) * 64 ^ n :=
          Nat.le_mul_of_pos_right _ (Nat.pow_pos (by decide))
        rw [Nat.pow_succ, ← Nat.mul_assoc] at hbits
        omega
      have hrest : ((p.extend b).bits.toNat + 1) * 64 ^ n ≤ 2 ^ 32 := by
        refine Nat.le_trans ?_ hbits
        rw [toNat_bits_extend p b hsix, Nat.pow_succ, Nat.mul_comm (64 ^ n), ← Nat.mul_assoc]
        exact Nat.mul_le_mul_right _ (by omega)
      have hdiv (v : Nat) : v / 64 ^ (n + 1) = v / 64 ^ n / 64 := by
        rw [Nat.pow_succ, Nat.div_div_eq_div_mul]
      rw [completes_cons_iff, ih (by simp [extend]) (by simp [extend]) (owed_extend howed) hrest]
      constructor
      · rintro ⟨-, haccepts, v, hv, rfl, -, rfl⟩
        obtain ⟨hbits, -, rfl⟩ := (accepts_and_extend_iff hlow hhigh hsix).1 ⟨haccepts, hv⟩
        exact ⟨v, (hdiv v).trans hbits, rfl, by simpa using haccepts, rfl⟩
      · rintro ⟨v, hv, htail, hhead, rfl⟩
        obtain ⟨rfl, rfl⟩ := List.cons_eq_cons.1 htail
        have haccepts : p.Accepts (following (v / 64 ^ n)) := hhead _ rfl
        obtain ⟨-, hv⟩ := (accepts_and_extend_iff hlow hhigh hsix).2
          ⟨(hdiv v).symm.trans hv, haccepts, rfl⟩
        refine ⟨by omega, haccepts, v, hv, rfl, ?_, rfl⟩
        -- Only the first byte after the lead has a range of its own.
        cases n with
        | zero => simp [continuation]
        | succ n => simp [continuation, accepts_following_extend]

theorem completes_succ_iff (hlow : 0x80 ≤ p.low) (hhigh : p.high ≤ 0xBF) (howed : p.owed = n + 1)
    (hbits : (p.bits.toNat + 1) * 64 ^ (n + 1) ≤ 2 ^ 32)
    (hvalid : ∀ v, v / 64 ^ (n + 1) = p.bits.toNat → p.Accepts (following (v / 64 ^ n)) →
      v.isValidChar) :
    p.Completes tail c ↔ c.toNat / 64 ^ (n + 1) = p.bits.toNat ∧
      p.Accepts (following (c.toNat / 64 ^ n)) ∧ tail = continuation (n + 1) c.toNat := by
  rw [completes_iff hlow hhigh howed hbits]
  constructor
  · rintro ⟨v, hv, rfl, hhead, rfl⟩
    have haccepts : p.Accepts (following (v / 64 ^ n)) := hhead _ rfl
    have htoNat : (Char.ofNat v).toNat = v := by
      rw [Char.ofNat, dif_pos (hvalid v hv haccepts)]
      rfl
    rw [htoNat]
    exact ⟨hv, haccepts, rfl⟩
  · rintro ⟨hv, haccepts, rfl⟩
    refine ⟨c.toNat, hv, rfl, ?_, (Char.ofNat_toNat c).symm⟩
    simpa [continuation] using haccepts

end Unfinished

section

variable {p : Unfinished} {n : Nat} {b : UInt8} {tail : List UInt8} {c : Char}

theorem utf8EncodeChar_eq_cons_iff :
    utf8EncodeChar c = b :: tail ↔
      leading c.toNat = b.toNat ∧ tail = continuation (followers c.toNat) c.toNat := by
  have hvalid : c.toNat.isValidChar := c.valid
  rw [utf8EncodeChar_eq, List.cons_eq_cons, ← UInt8.toNat_inj,
    UInt8.toNat_ofNat_of_lt' (leading_lt hvalid), eq_comm (a := tail)]

/-- A lead that opens characters with `n + 1` following bytes, and no others. -/
theorem completes_iff_of_leading (hlow : 0x80 ≤ p.low) (hhigh : p.high ≤ 0xBF)
    (howed : p.owed = n + 1) (hbits : (p.bits.toNat + 1) * 64 ^ (n + 1) ≤ 2 ^ 32)
    (hfollowers : ∀ v, v.isValidChar → leading v = b.toNat → followers v = n + 1)
    (hleading : ∀ v, v / 64 ^ (n + 1) = p.bits.toNat ∧ p.Accepts (following (v / 64 ^ n)) ↔
      v.isValidChar ∧ leading v = b.toNat) :
    p.Completes tail c ↔ utf8EncodeChar c = b :: tail := by
  have hvalid : c.toNat.isValidChar := c.valid
  rw [p.completes_succ_iff hlow hhigh howed hbits fun v hv ha => ((hleading v).1 ⟨hv, ha⟩).1,
    ← and_assoc, hleading, utf8EncodeChar_eq_cons_iff]
  constructor
  · rintro ⟨⟨-, hlead⟩, rfl⟩
    exact ⟨hlead, by rw [hfollowers _ hvalid hlead]⟩
  · rintro ⟨hlead, rfl⟩
    exact ⟨⟨hvalid, hlead⟩, by rw [hfollowers _ hvalid hlead]⟩

theorem completes_two_iff (h : 0xC2 ≤ b.toNat) (h' : b.toNat < 0xE0) :
    Unfinished.Completes ⟨(b &&& 0x1F).toUInt32, 1, 0x80, 0xBF⟩ tail c ↔
      utf8EncodeChar c = b :: tail := by
  have hmask : (b &&& 0x1F).toUInt32.toNat = b.toNat % 32 := Nat.and_two_pow_sub_one_eq_mod _ 5
  refine completes_iff_of_leading (n := 0) ?_ ?_ rfl ?_ ?_ ?_
  · simp
  · simp
  · rw [hmask]
    omega
  · intro v hv
    simp only [followers, leading]
    split_ifs <;> omega
  · intro v
    simp only [hmask, Unfinished.Accepts, UInt8.le_iff_toNat_le, UInt8.reduceToNat, toNat_following,
      leading]
    split_ifs <;> omega

theorem completes_three_iff (h : 0xE0 ≤ b.toNat) (h' : b.toNat < 0xF0) :
    Unfinished.Completes ⟨(b &&& 0x0F).toUInt32, 2, if b = 0xE0 then 0xA0 else 0x80,
        if b = 0xED then 0x9F else 0xBF⟩ tail c ↔
      utf8EncodeChar c = b :: tail := by
  have hmask : (b &&& 0x0F).toUInt32.toNat = b.toNat % 16 := Nat.and_two_pow_sub_one_eq_mod _ 4
  refine completes_iff_of_leading (n := 1) ?_ ?_ rfl ?_ ?_ ?_
  · dsimp only
    split_ifs <;> decide
  · dsimp only
    split_ifs <;> decide
  · rw [hmask]
    omega
  · intro v hv
    simp only [followers, leading]
    split_ifs <;> omega
  · intro v
    simp only [hmask, Unfinished.Accepts, UInt8.le_iff_toNat_le, ← UInt8.toNat_inj,
      apply_ite UInt8.toNat, UInt8.reduceToNat, toNat_following, leading]
    split_ifs <;> omega

theorem completes_four_iff (h : 0xF0 ≤ b.toNat) (h' : b.toNat < 0xF5) :
    Unfinished.Completes ⟨(b &&& 0x07).toUInt32, 3, if b = 0xF0 then 0x90 else 0x80,
        if b = 0xF4 then 0x8F else 0xBF⟩ tail c ↔
      utf8EncodeChar c = b :: tail := by
  have hmask : (b &&& 0x07).toUInt32.toNat = b.toNat % 8 := Nat.and_two_pow_sub_one_eq_mod _ 3
  refine completes_iff_of_leading (n := 2) ?_ ?_ rfl ?_ ?_ ?_
  · dsimp only
    split_ifs <;> decide
  · dsimp only
    split_ifs <;> decide
  · rw [hmask]
    omega
  · intro v hv
    simp only [followers, leading]
    split_ifs <;> omega
  · intro v
    simp only [hmask, Unfinished.Accepts, UInt8.le_iff_toNat_le, ← UInt8.toNat_inj,
      apply_ite UInt8.toNat, UInt8.reduceToNat, toNat_following, leading]
    split_ifs <;> omega

theorem utf8EncodeChar_ne_cons (h : 0x80 ≤ b.toNat ∧ b.toNat < 0xC2 ∨ 0xF5 ≤ b.toNat) :
    utf8EncodeChar c ≠ b :: tail := by
  have hvalid : c.toNat.isValidChar := c.valid
  rw [ne_eq, utf8EncodeChar_eq_cons_iff, leading]
  split_ifs <;> omega

theorem utf8EncodeChar_eq_cons_iff_of_lt (h : b.toNat < 0x80) :
    utf8EncodeChar c = b :: tail ↔ tail = [] ∧ c = .ofNat b.toNat := by
  rw [utf8EncodeChar_eq_cons_iff]
  constructor
  · rintro ⟨hlead, rfl⟩
    obtain ⟨hv, hn⟩ : c.toNat = b.toNat ∧ followers c.toNat = 0 := by
      simp only [leading, followers] at *
      split_ifs at * <;> omega
    rw [← hv, Char.ofNat_toNat, hn]
    exact ⟨rfl, rfl⟩
  · rintro ⟨rfl, rfl⟩
    have htoNat : (Char.ofNat b.toNat).toNat = b.toNat := by
      rw [Char.ofNat, dif_pos (.inl (by omega))]
      rfl
    simp [htoNat, leading, followers, h, continuation]

def Lead.Completes : Lead → List UInt8 → Char → Prop
  | .whole c, tail, c' => tail = [] ∧ c' = c
  | .opens p, tail, c => p.Completes tail c
  | .invalid, _, _ => False

theorem completes_lead_iff : (lead b).Completes tail c ↔ utf8EncodeChar c = b :: tail := by
  rw [lead]
  simp only [UInt8.lt_iff_toNat_lt, UInt8.reduceToNat]
  by_cases h₁ : b.toNat < 0x80
  · rw [if_pos h₁]
    exact (utf8EncodeChar_eq_cons_iff_of_lt h₁).symm
  by_cases h₂ : b.toNat < 0xC2
  · rw [if_neg h₁, if_pos h₂]
    exact iff_of_false id (utf8EncodeChar_ne_cons (by omega))
  by_cases h₃ : b.toNat < 0xE0
  · rw [if_neg h₁, if_neg h₂, if_pos h₃]
    exact completes_two_iff (by omega) h₃
  by_cases h₄ : b.toNat < 0xF0
  · rw [if_neg h₁, if_neg h₂, if_neg h₃, if_pos h₄]
    exact completes_three_iff (by omega) h₄
  by_cases h₅ : b.toNat < 0xF5
  · rw [if_neg h₁, if_neg h₂, if_neg h₃, if_neg h₄, if_pos h₅]
    exact completes_four_iff (by omega) h₅
  · rw [if_neg h₁, if_neg h₂, if_neg h₃, if_neg h₄, if_neg h₅]
    exact iff_of_false id (utf8EncodeChar_ne_cons (by omega))

end

end DotMatrix.Utf8
