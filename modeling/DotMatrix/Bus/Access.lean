/-!
A bus holds a byte behind every address. An `Access` is a run of bus traffic that ends in a value:
what it reads may decide what it does next, and nothing else of the bus is visible to it. The same
access can be run on any bus.
-/

namespace DotMatrix

class Bus (β : Type) where
  read : β → UInt16 → UInt8
  write : β → UInt16 → UInt8 → β

inductive Access (α : Type) : Type
  | done (result : α)
  | reading (addr : UInt16) (next : UInt8 → Access α)
  | writing (addr : UInt16) (value : UInt8) (next : Access α)

namespace Access

def read (addr : UInt16) : Access UInt8 := reading addr done

def write (addr : UInt16) (value : UInt8) : Access Unit := writing addr value (done ())

def bind : Access α → (α → Access γ) → Access γ
  | done a, f => f a
  | reading addr next, f => reading addr fun v => (next v).bind f
  | writing addr value next, f => writing addr value (next.bind f)

instance : Monad Access where
  pure := done
  bind := bind

theorem id_map (x : Access α) : id <$> x = x := by
  induction x with
  | done a => rfl
  | reading addr next ih => exact congrArg (reading addr) (funext ih)
  | writing addr value next ih => exact congrArg (writing addr value) ih

theorem bind_assoc (x : Access α) (f : α → Access γ) (g : γ → Access δ) :
    x >>= f >>= g = x >>= fun a => f a >>= g := by
  induction x with
  | done a => rfl
  | reading addr next ih => exact congrArg (reading addr) (funext ih)
  | writing addr value next ih => exact congrArg (writing addr value) ih

instance : LawfulMonad Access := LawfulMonad.mk' Access id_map (fun _ _ => rfl) bind_assoc

variable {β : Type} [Bus β]

@[specialize]
def run : Access α → β → α × β
  | done a, bus => (a, bus)
  | reading addr next, bus => (next (Bus.read bus addr)).run bus
  | writing addr value next, bus => next.run (Bus.write bus addr value)

@[simp] theorem run_pure (a : α) (bus : β) : (pure a : Access α).run bus = (a, bus) := rfl

@[simp] theorem run_read (addr : UInt16) (bus : β) :
    (read addr).run bus = (Bus.read bus addr, bus) := rfl

@[simp] theorem run_write (addr : UInt16) (value : UInt8) (bus : β) :
    (write addr value).run bus = ((), Bus.write bus addr value) := rfl

@[simp] theorem run_bind (x : Access α) (f : α → Access γ) (bus : β) :
    (x >>= f).run bus = (f (x.run bus).1).run (x.run bus).2 := by
  induction x generalizing bus with
  | done a => rfl
  | reading addr next ih => exact ih _ bus
  | writing addr value next ih => exact ih _

@[simp] theorem run_map (f : α → γ) (x : Access α) (bus : β) :
    (f <$> x).run bus = (f (x.run bus).1, (x.run bus).2) := by
  rw [map_eq_pure_bind, run_bind, run_pure]

end Access

end DotMatrix
