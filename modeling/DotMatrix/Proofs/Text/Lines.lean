import Mathlib.Data.List.Basic

namespace DotMatrix

section

variable {c : Char} {front : List Char}

theorem forall_decide_ne (h : c ∉ front) : ∀ x ∈ front, decide (x ≠ c) = true :=
  fun x hx => decide_eq_true fun heq : x = c => h (heq ▸ hx)

theorem takeWhile_ne_append (h : c ∉ front) (rest : List Char) :
    (front ++ c :: rest).takeWhile (· ≠ c) = front := by
  rw [List.takeWhile_append_of_pos (forall_decide_ne h), List.takeWhile_cons_of_neg (by simp),
    List.append_nil]

theorem dropWhile_ne_append (h : c ∉ front) (rest : List Char) :
    (front ++ c :: rest).dropWhile (· ≠ c) = c :: rest := by
  rw [List.dropWhile_append_of_pos (forall_decide_ne h), List.dropWhile_cons_of_neg (by simp)]

end

/-- The text is these lines, each ended by a newline, and has no other newline. -/
structure Lines (text : String) (lines : List String) : Prop where
  joined : text.toList = lines.flatMap (·.toList ++ ['\n'])
  unbroken : ∀ line ∈ lines, '\n' ∉ line.toList

namespace Lines

variable {text text' : String} {lines lines' : List String}

theorem splitOn_eq (h : Lines text lines) :
    text.toList.splitOn '\n' = lines.map String.toList ++ [[]] := by
  have hjoined : text.toList = ['\n'].intercalate (lines.map String.toList ++ [[]]) := by
    rw [h.joined]
    clear h
    induction lines with
    | nil => rfl
    | cons line lines ih =>
      rw [List.flatMap_cons, ih, List.map_cons, List.cons_append, List.append_assoc]
      cases lines <;> simp
  rw [hjoined, List.splitOn_intercalate]
  · intro line hline
    rcases List.mem_append.1 hline with hline | hline
    · obtain ⟨line, hmem, rfl⟩ := List.mem_map.1 hline
      exact h.unbroken line hmem
    · simp [List.mem_singleton.1 hline]
  · simp

theorem unique (h : Lines text lines) (h' : Lines text lines') : lines = lines' := by
  have heq := h.splitOn_eq.symm.trans h'.splitOn_eq
  exact (List.map_inj_right fun _ _ => String.toList_inj.1).1 (List.append_cancel_right heq)

theorem length_eq (h : Lines text lines) : lines.length = text.toList.count '\n' := by
  obtain ⟨hjoined, hunbroken⟩ := h
  rw [hjoined]
  clear hjoined
  induction lines with
  | nil => rfl
  | cons line lines ih =>
    have hline : line.toList.count '\n' = 0 := List.count_eq_zero.2 (hunbroken _ List.mem_cons_self)
    rw [List.flatMap_cons, List.count_append, List.count_append, hline, List.length_cons,
      ih fun line hmem => hunbroken line (List.mem_cons_of_mem _ hmem)]
    simp [Nat.add_comm]

theorem append (h : Lines text lines) (h' : Lines text' lines') :
    Lines (text ++ text') (lines ++ lines') where
  joined := by rw [String.toList_append, List.flatMap_append, h.joined, h'.joined]
  unbroken line hline := (List.mem_append.1 hline).elim (h.unbroken line) (h'.unbroken line)

theorem single {line : String} (h : '\n' ∉ line.toList) : Lines (line ++ "\n") [line] where
  joined := by simp
  unbroken := by simpa using h

theorem join (h : ∀ line ∈ lines, '\n' ∉ line.toList) :
    Lines (String.join (lines.map (· ++ "\n"))) lines where
  joined := by simp [String.toList_join, List.flatMap_map]
  unbroken := h

end Lines

theorem exists_lines (s : String) : ∃ lines, Lines (s ++ "\n") lines := by
  rw [← String.ofList_toList (s := s)]
  induction s.toList with
  | nil => exact ⟨[""], rfl, by simp⟩
  | cons c chars ih =>
    obtain ⟨lines, hjoined, hunbroken⟩ := ih
    by_cases hc : c = '\n'
    · refine ⟨"" :: lines, ?_, ?_⟩
      · simp_all
      · simpa using hunbroken
    · cases lines with
      | nil => simp at hjoined
      -- The character joins the first line.
      | cons line lines =>
        refine ⟨.ofList (c :: line.toList) :: lines, ?_, ?_⟩
        · simp_all
        · simp_all [eq_comm]

def Plain (s : String) : Prop := ∀ c ∈ s.toList, ' ' ≤ c ∧ c ≤ '~'

instance (s : String) : Decidable (Plain s) := List.decidableBAll _ _

theorem plain_append {s t : String} : Plain (s ++ t) ↔ Plain s ∧ Plain t := by
  rw [Plain, String.toList_append, List.forall_mem_append]
  rfl

theorem plain_join {parts : List String} : Plain (String.join parts) ↔ ∀ s ∈ parts, Plain s := by
  induction parts with
  | nil => decide
  | cons s parts ih => rw [String.join_cons, plain_append, ih, List.forall_mem_cons]

theorem plain_repr (n : Nat) : Plain n.repr := by
  intro c hc
  rw [← Nat.toString_eq_repr, Nat.toString_eq_ofList_toDigits, String.toList_ofList] at hc
  have hdigit := Nat.isDigit_of_mem_toDigits (by decide) (by decide) hc
  obtain ⟨hlow, hhigh⟩ := Char.isDigit_iff_toNat.1 hdigit
  exact ⟨Nat.le_trans (by decide) hlow, Nat.le_trans hhigh (by decide)⟩

theorem Plain.newline_not_mem {s : String} (h : Plain s) : '\n' ∉ s.toList :=
  fun hmem => absurd (h _ hmem).1 (by decide)

end DotMatrix
