import DotMatrix.Proofs.Text.Utf8
import Mathlib.Data.List.Infix

/-!
What a lenient reading of bytes is: encodings are read as their characters, and where none stands,
the longest ill-formed piece is read as one replacement character. Every list of bytes has exactly
one such reading, the one the reader gives.
-/

namespace DotMatrix.Utf8

open String (utf8EncodeChar)

/-- What can be taken for one piece: the beginning of an encoding, or any one byte. -/
def Opening (piece : List UInt8) : Prop :=
  piece.length = 1 ∨ ∃ c, piece <+: utf8EncodeChar c

/-- The longest ill-formed piece, before the rest of the bytes. -/
structure IllFormed (piece rest : List UInt8) : Prop where
  ne_nil : piece ≠ []
  not_encoding : ∀ c, ¬ utf8EncodeChar c <+: piece ++ rest
  opening : Opening piece
  longest : ∀ other, other <+: piece ++ rest → Opening other → other.length ≤ piece.length

inductive Lossy : List UInt8 → List Char → Prop
  | nil : Lossy [] []
  | encoding {rest : List UInt8} {chars : List Char} (c : Char) :
      Lossy rest chars → Lossy (utf8EncodeChar c ++ rest) (c :: chars)
  | replaced {piece rest : List UInt8} {chars : List Char} :
      IllFormed piece rest → Lossy rest chars → Lossy (piece ++ rest) (replacement :: chars)

section

variable {p : Unfinished} {b : UInt8} {rest tail : List UInt8} {c : Char}

theorem decodeFrom_some_of_accepts (h : p.Accepts b) :
    decodeFrom (some p) (b :: rest) =
      if (p.extend b).owed = 0 then .ofNat (p.extend b).bits.toNat :: decodeFrom none rest
      else decodeFrom (some (p.extend b)) rest := by
  have hrange : p.low ≤ b ∧ b ≤ p.high := h
  by_cases howed : (p.extend b).owed = 0 <;> simp [decodeFrom, step, hrange, howed]

theorem decodeFrom_some_of_not_accepts (h : ¬ p.Accepts b) :
    decodeFrom (some p) (b :: rest) = replacement :: decodeFrom none (b :: rest) := by
  have hrange : ¬ (p.low ≤ b ∧ b ≤ p.high) := h
  simp [decodeFrom, step, hrange]

theorem decodeFrom_of_whole (h : lead b = .whole c) :
    decodeFrom none (b :: rest) = c :: decodeFrom none rest := by
  simp [decodeFrom, step, start, h]

theorem decodeFrom_of_opens (h : lead b = .opens p) :
    decodeFrom none (b :: rest) = decodeFrom (some p) rest := by
  simp [decodeFrom, step, start, h]

theorem decodeFrom_of_invalid (h : lead b = .invalid) :
    decodeFrom none (b :: rest) = replacement :: decodeFrom none rest := by
  simp [decodeFrom, step, start, h]

theorem owed_of_opens (h : lead b = .opens p) : p.owed ≠ 0 := by
  unfold lead at h
  split_ifs at h <;> cases h <;> exact Nat.succ_ne_zero _

theorem range_of_opens (h : lead b = .opens p) : p.low ≤ p.high := by
  unfold lead at h
  split_ifs at h <;> cases h <;> simp_all

theorem decodeFrom_of_completes (h : p.Completes tail c) (howed : p.owed ≠ 0) :
    decodeFrom (some p) (tail ++ rest) = c :: decodeFrom none rest := by
  induction h with
  | done hdone => exact absurd hdone howed
  | more _ haccepts h ih =>
    rw [List.cons_append, decodeFrom_some_of_accepts haccepts]
    split
    next hdone =>
      cases h with
      | done => rfl
      | more hmore => exact absurd hdone hmore
    next hmore => exact ih hmore

@[simp] theorem decodeFrom_encoding (c : Char) (rest : List UInt8) :
    decodeFrom none (utf8EncodeChar c ++ rest) = c :: decodeFrom none rest := by
  obtain ⟨b, tail, htail⟩ := List.exists_cons_of_ne_nil (String.utf8EncodeChar_ne_nil (c := c))
  have h : (lead b).Completes tail c := completes_lead_iff.2 htail
  rw [htail, List.cons_append]
  cases hlead : lead b with
  | whole c' =>
    rw [hlead] at h
    obtain ⟨rfl, rfl⟩ := h
    rw [List.nil_append, decodeFrom_of_whole hlead]
  | opens p =>
    rw [hlead] at h
    rw [decodeFrom_of_opens hlead, decodeFrom_of_completes h (owed_of_opens hlead)]
  | invalid =>
    rw [hlead] at h
    exact h.elim

theorem decodeFrom_encodings (chars : List Char) :
    decodeFrom none (chars.flatMap utf8EncodeChar) = chars := by
  induction chars with
  | nil => rfl
  | cons c chars ih => rw [List.flatMap_cons, decodeFrom_encoding, ih]

theorem utf8EncodeChar_append_inj {c c' : Char} {rest rest' : List UInt8}
    (h : utf8EncodeChar c ++ rest = utf8EncodeChar c' ++ rest') : c = c' ∧ rest = rest' := by
  have hchars := congrArg (decodeFrom none) h
  rw [decodeFrom_encoding, decodeFrom_encoding] at hchars
  obtain rfl := (List.cons.inj hchars).1
  exact ⟨rfl, List.append_cancel_left h⟩

end

inductive Under : List UInt8 → Unfinished → Prop
  | lead {b : UInt8} {p : Unfinished} : lead b = .opens p → Under [b] p
  | more {read : List UInt8} {p : Unfinished} {b : UInt8} : Under read p → p.Accepts b →
      (p.extend b).owed ≠ 0 → Under (read ++ [b]) (p.extend b)

namespace Under

variable {read : List UInt8} {p : Unfinished} {tail : List UInt8} {c : Char}

theorem owed_ne_zero (h : Under read p) : p.owed ≠ 0 := by
  cases h with
  | lead hlead => exact owed_of_opens hlead
  | more _ _ howed => exact howed

theorem range (h : Under read p) : p.low ≤ p.high := by
  cases h with
  | lead hlead => exact range_of_opens hlead
  | more => simp [Unfinished.extend]

theorem ne_nil (h : Under read p) : read ≠ [] := by
  cases h <;> simp

theorem encoding_iff (h : Under read p) :
    utf8EncodeChar c = read ++ tail ↔ p.Completes tail c := by
  induction h generalizing tail with
  | lead hlead => rw [List.singleton_append, ← completes_lead_iff, hlead, Lead.Completes]
  | more h haccepts _ ih =>
    rw [List.append_assoc, List.singleton_append, ih, Unfinished.completes_cons_iff]
    exact ⟨fun ⟨_, _, hrest⟩ => hrest, fun hrest => ⟨h.owed_ne_zero, haccepts, hrest⟩⟩

theorem opening (h : Under read p) : Opening read := by
  obtain ⟨tail, c, hcompletes⟩ := p.exists_completes h.range
  exact .inr ⟨c, tail, (h.encoding_iff.2 hcompletes).symm⟩

variable {rest : List UInt8}

theorem not_encoding_append (h : Under read p) (hstuck : ∀ b ∈ rest.head?, ¬ p.Accepts b)
    (hbegins : tail <+: rest) (hne : tail ≠ []) (more : List UInt8) :
    utf8EncodeChar c ≠ read ++ (tail ++ more) := by
  intro heq
  obtain ⟨b, tail, rfl⟩ := List.exists_cons_of_ne_nil hne
  obtain ⟨after, rfl⟩ := hbegins
  have hcompletes := h.encoding_iff.1 heq
  rw [List.cons_append, Unfinished.completes_cons_iff] at hcompletes
  exact hstuck b rfl hcompletes.2.1

theorem illFormed (h : Under read p) (hstuck : ∀ b ∈ rest.head?, ¬ p.Accepts b) :
    IllFormed read rest where
  ne_nil := h.ne_nil
  not_encoding c hbegins := by
    rcases List.prefix_or_prefix_of_prefix hbegins (List.prefix_append read rest) with
      ⟨more, hmore⟩ | ⟨tail, htail⟩
    -- The encoding would end in what was read, which an encoding goes on from.
    · obtain ⟨tail, c', hcompletes⟩ := p.exists_completes h.range
      have heq := h.encoding_iff.2 hcompletes
      rw [← hmore, List.append_assoc, ← List.append_nil (utf8EncodeChar c')] at heq
      obtain ⟨-, hnil⟩ := utf8EncodeChar_append_inj heq
      obtain ⟨-, rfl⟩ := List.append_eq_nil_iff.1 hnil.symm
      exact h.owed_ne_zero (Unfinished.completes_nil_iff.1 hcompletes).1
    · have hne : tail ≠ [] := by
        rintro rfl
        exact h.owed_ne_zero (Unfinished.completes_nil_iff.1 (h.encoding_iff.1 htail.symm)).1
      rw [← htail, List.prefix_append_right_inj] at hbegins
      exact h.not_encoding_append hstuck hbegins hne [] (by rw [List.append_nil, htail])
  opening := h.opening
  longest other hbegins hopening := by
    refine Nat.le_of_not_lt fun hlt => ?_
    obtain ⟨tail, rfl⟩ := List.prefix_of_prefix_length_le (List.prefix_append read rest) hbegins
      (Nat.le_of_lt hlt)
    have hne : tail ≠ [] := by
      rintro rfl
      simp at hlt
    rw [List.prefix_append_right_inj] at hbegins
    rcases hopening with hone | ⟨c, more, hmore⟩
    · have := List.length_pos_iff.2 h.ne_nil
      omega
    · exact h.not_encoding_append hstuck hbegins hne more (by rw [← List.append_assoc, hmore])

end Under

theorem illFormed_of_invalid {b : UInt8} (h : lead b = .invalid) (rest : List UInt8) :
    IllFormed [b] rest := by
  have hencoding (c : Char) (tail : List UInt8) : utf8EncodeChar c ≠ b :: tail := by
    rw [ne_eq, ← completes_lead_iff, h]
    exact id
  refine ⟨List.cons_ne_nil _ _, ?_, .inl rfl, ?_⟩
  · rintro c ⟨tail, htail⟩
    obtain ⟨b', tail', hc⟩ := List.exists_cons_of_ne_nil (String.utf8EncodeChar_ne_nil (c := c))
    rw [hc, List.cons_append, List.singleton_append] at htail
    rw [(List.cons.inj htail).1] at hc
    exact hencoding c tail' hc
  · rintro other hbegins (hone | ⟨c, tail, htail⟩)
    · exact Nat.le_of_eq hone
    · cases other with
      | nil => exact Nat.zero_le _
      | cons b' other =>
        obtain ⟨rfl, -⟩ := List.cons_prefix_cons.1 hbegins
        exact absurd htail.symm (hencoding c _)

theorem lossy_decodeFrom (bytes : List UInt8) :
    Lossy bytes (decodeFrom none bytes) ∧
      ∀ read p, Under read p → Lossy (read ++ bytes) (decodeFrom (some p) bytes) := by
  induction bytes with
  | nil =>
    refine ⟨.nil, fun read p h => ?_⟩
    exact .replaced (h.illFormed (by simp)) .nil
  | cons b bytes ih =>
    obtain ⟨hnone, hsome⟩ := ih
    have hstart : Lossy (b :: bytes) (decodeFrom none (b :: bytes)) := by
      cases hlead : lead b with
      | whole c =>
        have hencoding : utf8EncodeChar c = [b] := by
          rw [← completes_lead_iff, hlead]
          exact ⟨rfl, rfl⟩
        rw [decodeFrom_of_whole hlead, ← List.singleton_append, ← hencoding]
        exact .encoding c hnone
      | opens p =>
        rw [decodeFrom_of_opens hlead]
        exact hsome [b] p (.lead hlead)
      | invalid =>
        rw [decodeFrom_of_invalid hlead]
        exact .replaced (illFormed_of_invalid hlead bytes) hnone
    refine ⟨hstart, fun read p h => ?_⟩
    by_cases haccepts : p.Accepts b
    · rw [decodeFrom_some_of_accepts haccepts, List.append_cons]
      by_cases hdone : (p.extend b).owed = 0
      · have hencoding : utf8EncodeChar (.ofNat (p.extend b).bits.toNat) = read ++ [b] :=
          h.encoding_iff.2 (.more h.owed_ne_zero haccepts (.done hdone))
        rw [if_pos hdone, ← hencoding]
        exact .encoding _ hnone
      · rw [if_neg hdone]
        exact hsome _ _ (.more h haccepts hdone)
    -- A byte that does not go on ends the piece and is read afresh.
    · rw [decodeFrom_some_of_not_accepts haccepts]
      exact .replaced (h.illFormed (by simpa using haccepts)) hstart

theorem IllFormed.unique {piece piece' rest rest' : List UInt8} (h : IllFormed piece rest)
    (h' : IllFormed piece' rest') (heq : piece ++ rest = piece' ++ rest') :
    piece = piece' ∧ rest = rest' := by
  have hbegins : piece <+: piece' ++ rest' := ⟨rest, heq⟩
  have hbegins' : piece' <+: piece ++ rest := ⟨rest', heq.symm⟩
  exact List.append_inj heq
    (Nat.le_antisymm (h'.longest _ hbegins h.opening) (h.longest _ hbegins' h'.opening))

theorem Lossy.unique {bytes : List UInt8} {chars chars' : List Char} (h : Lossy bytes chars)
    (h' : Lossy bytes chars') : chars = chars' := by
  generalize hbytes : bytes = bytes' at h'
  induction h generalizing bytes' chars' with
  | nil =>
    cases h' with
    | nil => rfl
    | encoding c => simp at hbytes
    | replaced h' => exact absurd (List.append_eq_nil_iff.1 hbytes.symm).1 h'.ne_nil
  | encoding c h ih =>
    cases h' with
    | nil => simp at hbytes
    | encoding c' h' =>
      obtain ⟨rfl, hrest⟩ := utf8EncodeChar_append_inj hbytes
      rw [ih _ hrest h']
    | replaced h' => exact absurd ⟨_, hbytes⟩ (h'.not_encoding c)
  | replaced h _ ih =>
    cases h' with
    | nil => exact absurd (List.append_eq_nil_iff.1 hbytes).1 h.ne_nil
    | encoding c h' => exact absurd ⟨_, hbytes.symm⟩ (h.not_encoding c)
    | replaced h' hrest' =>
      obtain ⟨-, hrest⟩ := h.unique h' hbytes
      rw [ih _ hrest hrest']

theorem lossy_iff {bytes : List UInt8} {chars : List Char} :
    Lossy bytes chars ↔ decodeFrom none bytes = chars := by
  constructor
  · exact (lossy_decodeFrom bytes).1.unique
  · rintro rfl
    exact (lossy_decodeFrom bytes).1

example : decodeFrom none [0xE2, 0x82, 0x41, 0xC0, 0x80] = ['\uFFFD', 'A', '\uFFFD', '\uFFFD'] := by
  decide

section

variable {bytes : List UInt8} {chars : List Char} {b : UInt8} {c : Char} {n v : Nat}

theorem Lossy.length_le (h : Lossy bytes chars) : chars.length ≤ bytes.length := by
  induction h with
  | nil => exact Nat.le_refl _
  | encoding c _ ih =>
    have := c.utf8Size_pos
    rw [List.length_cons, List.length_append, String.length_utf8EncodeChar]
    omega
  | replaced h _ ih =>
    have := List.length_pos_iff.2 h.ne_nil
    rw [List.length_cons, List.length_append]
    omega

theorem le_of_mem_continuation (h : b ∈ continuation n v) : 0x80 ≤ b.toNat := by
  induction n with
  | zero => exact absurd h List.not_mem_nil
  | succ n ih =>
    rcases List.mem_cons.1 h with rfl | h
    · rw [toNat_following]
      omega
    · exact ih h

theorem mem_encoding_iff (hb : b.toNat < 0x80) : b ∈ utf8EncodeChar c ↔ c = .ofNat b.toNat := by
  constructor
  · intro h
    rw [utf8EncodeChar_eq, List.mem_cons] at h
    rcases h with h | h
    · have hvalid : c.toNat.isValidChar := c.valid
      have hlead := congrArg UInt8.toNat h
      rw [UInt8.toNat_ofNat_of_lt' (leading_lt hvalid), leading] at hlead
      have hc : c.toNat = b.toNat := by split_ifs at hlead <;> omega
      rw [← hc, Char.ofNat_toNat]
    · have := le_of_mem_continuation h
      omega
  · intro h
    rw [(utf8EncodeChar_eq_cons_iff_of_lt hb).2 ⟨rfl, h⟩]
    exact List.mem_singleton_self b

theorem IllFormed.not_mem {piece rest : List UInt8} (h : IllFormed piece rest)
    (hb : b.toNat < 0x80) : b ∉ piece := by
  intro hmem
  have hself : utf8EncodeChar (.ofNat b.toNat) = [b] :=
    (utf8EncodeChar_eq_cons_iff_of_lt hb).2 ⟨rfl, rfl⟩
  obtain ⟨b', hpiece⟩ : ∃ b', piece = [b'] := by
    rcases h.opening with hone | ⟨c, hbegins⟩
    · exact List.length_eq_one_iff.1 hone
    · obtain rfl := (mem_encoding_iff hb).1 (hbegins.subset hmem)
      rw [hself] at hbegins
      have hlength := hbegins.length_le
      have := List.length_pos_iff.2 h.ne_nil
      exact List.length_eq_one_iff.1 (Nat.le_antisymm hlength this)
  subst hpiece
  obtain rfl := List.mem_singleton.1 hmem
  exact h.not_encoding _ (by rw [hself]; exact List.prefix_append [b] rest)

theorem ofNat_ne_replacement (hb : b.toNat < 0x80) : Char.ofNat b.toNat ≠ replacement := by
  intro h
  have htoNat := congrArg Char.toNat h
  rw [Char.ofNat, dif_pos (.inl (by omega))] at htoNat
  change b.toNat = 0xFFFD at htoNat
  omega

theorem count_encoding (hb : b.toNat < 0x80) :
    (utf8EncodeChar c).count b = [c].count (.ofNat b.toNat) := by
  by_cases hc : c = .ofNat b.toNat
  · rw [(utf8EncodeChar_eq_cons_iff_of_lt hb).2 ⟨rfl, hc⟩, hc]
    simp
  · rw [List.count_eq_zero.2 (mt (mem_encoding_iff hb).1 hc)]
    simpa [List.count_singleton] using hc

theorem Lossy.count_eq (h : Lossy bytes chars) (hb : b.toNat < 0x80) :
    chars.count (.ofNat b.toNat) = bytes.count b := by
  induction h with
  | nil => rfl
  | encoding c _ ih => rw [List.count_append, count_encoding hb, ← ih, ← List.count_append]; rfl
  | replaced h _ ih =>
    rw [List.count_append, List.count_eq_zero.2 (h.not_mem hb), Nat.zero_add, ← ih,
      List.count_cons_of_ne (ofNat_ne_replacement hb).symm]

theorem Lossy.nil_iff (h : Lossy bytes chars) : chars = [] ↔ bytes = [] := by
  cases h with
  | nil => simp
  | encoding c => simp
  | replaced h => simp [h.ne_nil]

theorem Lossy.getLast?_of_eq (h : Lossy bytes chars) (hb : b.toNat < 0x80)
    (hlast : chars.getLast? = some (.ofNat b.toNat)) : bytes.getLast? = some b := by
  induction h with
  | nil => simp at hlast
  | @encoding rest chars c h ih =>
    cases chars with
    | nil =>
      obtain rfl := h.nil_iff.1 rfl
      obtain rfl := Option.some.inj hlast
      rw [(utf8EncodeChar_eq_cons_iff_of_lt hb).2 ⟨rfl, rfl⟩]
      rfl
    | cons c' chars => rw [List.getLast?_append, ih (by simpa using hlast), Option.some_or]
  | @replaced piece rest chars _ h ih =>
    cases chars with
    | nil => exact absurd (Option.some.inj hlast).symm (ofNat_ne_replacement hb)
    | cons c' chars => rw [List.getLast?_append, ih (by simpa using hlast), Option.some_or]

end

end DotMatrix.Utf8
