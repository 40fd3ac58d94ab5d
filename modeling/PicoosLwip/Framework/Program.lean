/-
  PicoosLwip.Framework.Program — programs as trees of operations.

  A `Program Op Ans α` either has returned a value or performs one operation
  and goes on with its answer.  Nothing is said about who answers: a device, a
  library call, or a scheduler that lets other programs run in between.  So
  one program text serves a sequential reading and an interleaved one.
-/
import Mathlib.Logic.Function.Basic

namespace PicoosLwip.Framework

/-- Programs over the operations `Op`, where `op` is answered by an `Ans op`. -/
inductive Program (Op : Type) (Ans : Op → Type) (α : Type) : Type where
  | ret (a : α)
  | call (op : Op) (k : Ans op → Program Op Ans α)

namespace Program

variable {Op : Type} {Ans : Op → Type} {α β : Type}

/-- Run `p`, then `f` on what it returned. -/
def bind : Program Op Ans α → (α → Program Op Ans β) → Program Op Ans β
  | .ret a, f => f a
  | .call op k, f => .call op fun a => (k a).bind f

/-- One operation. -/
def perform (op : Op) : Program Op Ans (Ans op) := .call op .ret

instance : Monad (Program Op Ans) where
  pure := .ret
  bind := bind

@[simp] theorem ret_bind (a : α) (f : α → Program Op Ans β) : (.ret a >>= f) = f a := rfl

@[simp] theorem call_bind (op : Op) (k : Ans op → Program Op Ans α)
    (f : α → Program Op Ans β) : (.call op k >>= f) = .call op fun a => k a >>= f := rfl

/-- Programs in a row may be grouped either way. -/
theorem bind_bind {γ : Type} (m : Program Op Ans α) (f : α → Program Op Ans β)
    (g : β → Program Op Ans γ) : (m >>= f) >>= g = m >>= fun a => f a >>= g := by
  induction m with
  | ret a => rfl
  | call op k ih =>
      simp only [call_bind, ih]

end Program

end PicoosLwip.Framework
