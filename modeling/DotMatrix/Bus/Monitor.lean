import DotMatrix.Bus.Access

namespace DotMatrix

inductive Event
  | read (addr : UInt16) (value : UInt8)
  | write (addr : UInt16) (value : UInt8)
  deriving DecidableEq

def Event.write? : Event → Option (UInt16 × UInt8)
  | read _ _ => none
  | write addr value => some (addr, value)

/-- The log holds the latest event first. -/
structure Monitored (β : Type) where
  bus : β
  log : List Event := []

def Monitored.writes (m : Monitored β) : List (UInt16 × UInt8) :=
  (m.log.filterMap Event.write?).reverse

@[specialize]
def Access.runLogged [Bus β] : Access α → Monitored β → α × Monitored β
  | done a, m => (a, m)
  | reading addr next, ⟨bus, log⟩ =>
    let value := Bus.read bus addr
    (next value).runLogged ⟨bus, .read addr value :: log⟩
  | writing addr value next, ⟨bus, log⟩ =>
    next.runLogged ⟨Bus.write bus addr value, .write addr value :: log⟩

def Access.trace [Bus β] : Access α → β → List Event
  | done _, _ => []
  | reading addr next, bus =>
    .read addr (Bus.read bus addr) :: (next (Bus.read bus addr)).trace bus
  | writing addr value next, bus =>
    .write addr value :: next.trace (Bus.write bus addr value)

namespace Access

variable {β : Type} [Bus β]

@[simp] theorem trace_pure (a : α) (bus : β) : (pure a : Access α).trace bus = [] := rfl

@[simp] theorem trace_read (addr : UInt16) (bus : β) :
    (read addr).trace bus = [.read addr (Bus.read bus addr)] := rfl

@[simp] theorem trace_write (addr : UInt16) (value : UInt8) (bus : β) :
    (write addr value).trace bus = [.write addr value] := rfl

@[simp] theorem trace_bind (x : Access α) (f : α → Access γ) (bus : β) :
    (x >>= f).trace bus = x.trace bus ++ (f (x.run bus).1).trace (x.run bus).2 := by
  induction x generalizing bus with
  | done a => rfl
  | reading addr next ih => exact congrArg (List.cons _) (ih _ bus)
  | writing addr value next ih => exact congrArg (List.cons _) (ih _)

@[simp] theorem trace_map (f : α → γ) (x : Access α) (bus : β) :
    (f <$> x).trace bus = x.trace bus := by
  rw [map_eq_pure_bind, trace_bind, trace_pure, List.append_nil]

end Access

end DotMatrix
