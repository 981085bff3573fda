import DotMatrix.Bus.Monitor

namespace DotMatrix

namespace Bus

variable {β : Type} [Bus β]

def writeAll (bus : β) (cells : List (UInt16 × UInt8)) : β :=
  cells.foldl (fun bus (addr, value) => write bus addr value) bus

/-- The byte behind the address is what was last written there, and no other write reaches it. -/
def IsCell (β : Type) [Bus β] (addr : UInt16) : Prop :=
  ∀ (bus : β) (a : UInt16) (value : UInt8),
    read (write bus a value) addr = if a = addr then value else read bus addr

theorem IsCell.read_write_self {addr : UInt16} (h : IsCell β addr) (bus : β) (value : UInt8) :
    read (write bus addr value) addr = value := by
  simp [h bus addr value]

theorem IsCell.read_write_of_ne {addr a : UInt16} (h : IsCell β addr) (bus : β) (value : UInt8)
    (hne : a ≠ addr) : read (write bus a value) addr = read bus addr := by
  simp [h bus a value, hne]

theorem IsCell.read_writeAll {addr : UInt16} (h : IsCell β addr) (cells : List (UInt16 × UInt8)) :
    ∀ bus : β, (∀ cell ∈ cells, cell.1 ≠ addr) →
      read (writeAll bus cells) addr = read bus addr := by
  induction cells with
  | nil => exact fun _ _ => rfl
  | cons cell cells ih =>
    intro bus hne
    calc
      read (writeAll (write bus cell.1 cell.2) cells) addr = read (write bus cell.1 cell.2) addr :=
        ih _ fun c hc => hne c (List.mem_cons_of_mem _ hc)
      _ = read bus addr := h.read_write_of_ne bus cell.2 (hne cell List.mem_cons_self)

def lastValue (p : UInt16 → Prop) [DecidablePred p] (cells : List (UInt16 × UInt8)) :
    Option UInt8 :=
  (cells.filter fun cell => p cell.1).getLast?.map Prod.snd

section

variable {p : UInt16 → Prop} [DecidablePred p]

theorem lastValue_cons (cell : UInt16 × UInt8) (cells : List (UInt16 × UInt8)) :
    lastValue p (cell :: cells) =
      (lastValue p cells).or (if p cell.1 then some cell.2 else none) := by
  unfold lastValue
  by_cases h : p cell.1
  · rw [List.filter_cons_of_pos (by simpa using h), List.getLast?_cons]
    cases (cells.filter fun cell => decide (p cell.1)).getLast? <;> simp [h]
  · rw [List.filter_cons_of_neg (by simpa using h)]
    simp [h]

theorem lastValue_eq_none (h : ∀ a, ¬ p a) (cells : List (UInt16 × UInt8)) :
    lastValue p cells = none := by
  simp [lastValue, h]

theorem read_writeAll {addr : UInt16}
    (h : ∀ (bus : β) (a : UInt16) (value : UInt8),
      read (write bus a value) addr = if p a then value else read bus addr)
    (cells : List (UInt16 × UInt8)) (bus : β) :
    read (writeAll bus cells) addr = (lastValue p cells).getD (read bus addr) := by
  induction cells generalizing bus with
  | nil => rfl
  | cons cell cells ih =>
    calc
      read (writeAll (write bus cell.1 cell.2) cells) addr =
          (lastValue p cells).getD (read (write bus cell.1 cell.2) addr) := ih _
      _ = (lastValue p (cell :: cells)).getD (read bus addr) := by
        rw [h, lastValue_cons]
        cases lastValue p cells <;> by_cases hp : p cell.1 <;> simp [hp]

end

end Bus

namespace Access

variable {β : Type} [Bus β]

def writes (x : Access α) (bus : β) : List (UInt16 × UInt8) := (x.trace bus).filterMap Event.write?

@[simp] theorem writes_pure (a : α) (bus : β) : (pure a : Access α).writes bus = [] := rfl

@[simp] theorem writes_read (addr : UInt16) (bus : β) : (read addr).writes bus = [] := rfl

@[simp] theorem writes_write (addr : UInt16) (value : UInt8) (bus : β) :
    (write addr value).writes bus = [(addr, value)] := rfl

@[simp] theorem writes_bind (x : Access α) (f : α → Access γ) (bus : β) :
    (x >>= f).writes bus = x.writes bus ++ (f (x.run bus).1).writes (x.run bus).2 := by
  simp [writes]

@[simp] theorem writes_map (f : α → γ) (x : Access α) (bus : β) :
    (f <$> x).writes bus = x.writes bus := by
  simp [writes]

theorem run_snd_eq_writeAll (x : Access α) (bus : β) :
    (x.run bus).2 = Bus.writeAll bus (x.writes bus) := by
  induction x generalizing bus with
  | done a => rfl
  | reading addr next ih => exact ih _ bus
  | writing addr value next ih => exact ih _

end Access

end DotMatrix
