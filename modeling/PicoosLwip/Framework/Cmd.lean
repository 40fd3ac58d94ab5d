/-
  PicoosLwip.Framework.Cmd — commands that log events, change a state and may
  fault.

  A `Cmd φ σ ε α` run in a state gives the events it logged (in order), the
  state it left, and either a value or a fault.  A fault ends the command at
  once and keeps what was logged and changed before it: a C function that
  reads outside mapped memory has already done everything it did before that.

  Rules of use:
    * `bind_apply`, `andThen_ok`, `andThen_error` — step-by-step execution;
    * `Emits` — every event a command may log has a property;
    * `Frames` — a part of the state a command never changes.
  Both are closed under the command formers, so a frame or a trace property of
  a long command is put together from those of its parts.
-/
import Mathlib.Data.List.Basic

namespace PicoosLwip.Framework

/-- What one run of a command gives. -/
structure Outcome (φ σ ε α : Type) where
  /-- The events logged, first to last. -/
  events : List ε
  /-- The state left behind, also by a command that faulted. -/
  state : σ
  /-- The value returned, or the fault that ended the command. -/
  result : Except φ α
  deriving Repr

/-- A command: faults `φ`, state `σ`, events `ε`, result `α`. -/
def Cmd (φ σ ε α : Type) : Type := σ → Outcome φ σ ε α

namespace Outcome

variable {φ σ ε α β : Type}

/-- The same outcome, with `es` logged before it. -/
def after (es : List ε) (o : Outcome φ σ ε α) : Outcome φ σ ε α :=
  { o with events := es ++ o.events }

/-- Continue a returned value with `f`; a fault stays. -/
def andThen (o : Outcome φ σ ε α) (f : α → Cmd φ σ ε β) : Outcome φ σ ε β :=
  match o.result with
  | .ok a => (f a o.state).after o.events
  | .error e => ⟨o.events, o.state, .error e⟩

@[simp] theorem after_mk (es es' : List ε) (s : σ) (r : Except φ α) :
    (⟨es', s, r⟩ : Outcome φ σ ε α).after es = ⟨es ++ es', s, r⟩ := rfl

/-- Events that came before, and before those. -/
@[simp] theorem after_after (es es' : List ε) (o : Outcome φ σ ε α) :
    (o.after es').after es = o.after (es ++ es') := by
  simp [after]

/-- They stand in front. -/
@[simp] theorem after_events (es : List ε) (o : Outcome φ σ ε α) :
    (o.after es).events = es ++ o.events := rfl

/-- After a normal end the next command runs, in the state that was left. -/
@[simp] theorem andThen_ok (es : List ε) (s : σ) (a : α) (f : α → Cmd φ σ ε β) :
    (⟨es, s, .ok a⟩ : Outcome φ σ ε α).andThen f = (f a s).after es := rfl

/-- After a fault it does not. -/
@[simp] theorem andThen_error (es : List ε) (s : σ) (e : φ) (f : α → Cmd φ σ ε β) :
    (⟨es, s, .error e⟩ : Outcome φ σ ε α).andThen f = ⟨es, s, .error e⟩ := rfl

end Outcome

namespace Cmd

variable {φ σ ε α β γ : Type}

instance : Monad (Cmd φ σ ε) where
  pure a := fun s => ⟨[], s, .ok a⟩
  bind m f := fun s => (m s).andThen f

/-- Log one event. -/
def emit (e : ε) : Cmd φ σ ε Unit := fun s => ⟨[e], s, .ok ()⟩

/-- Stop here. -/
def fault (e : φ) : Cmd φ σ ε α := fun s => ⟨[], s, .error e⟩

/-- The current state. -/
def get : Cmd φ σ ε σ := fun s => ⟨[], s, .ok s⟩

/-- Change the state. -/
def modify (f : σ → σ) : Cmd φ σ ε Unit := fun s => ⟨[], f s, .ok ()⟩

/-- `m` with the events `es` logged in front. -/
def logged (es : List ε) (m : Cmd φ σ ε α) : Cmd φ σ ε α := fun s => (m s).after es

/-! ## §1. Step-by-step execution. -/

/-- The events come first, then those of the command. -/
@[simp] theorem logged_apply (es : List ε) (m : Cmd φ σ ε α) (s : σ) :
    logged es m s = (m s).after es := rfl

/-- Nothing happens. -/
@[simp] theorem pure_apply (a : α) (s : σ) :
    (pure a : Cmd φ σ ε α) s = ⟨[], s, .ok a⟩ := rfl

/-- One command runs behind the other. -/
@[simp] theorem bind_apply (m : Cmd φ σ ε α) (f : α → Cmd φ σ ε β) (s : σ) :
    (m >>= f) s = (m s).andThen f := rfl

/-- One event, and the state as it was. -/
@[simp] theorem emit_apply (e : ε) (s : σ) :
    (emit e : Cmd φ σ ε Unit) s = ⟨[e], s, .ok ()⟩ := rfl

/-- No event, and the state as it was. -/
@[simp] theorem fault_apply (e : φ) (s : σ) :
    (fault e : Cmd φ σ ε α) s = ⟨[], s, .error e⟩ := rfl

@[simp] theorem get_apply (s : σ) : (get : Cmd φ σ ε σ) s = ⟨[], s, .ok s⟩ := rfl

/-- The new state, and no event. -/
@[simp] theorem modify_apply (f : σ → σ) (s : σ) :
    (modify f : Cmd φ σ ε Unit) s = ⟨[], f s, .ok ()⟩ := rfl

/-! ## §2. Trace properties. -/

/-- Every event that `m` logs, from any state, satisfies `P`. -/
def Emits (P : ε → Prop) (m : Cmd φ σ ε α) : Prop := ∀ s, ∀ e ∈ (m s).events, P e

/-- No event is emitted. -/
theorem Emits.pure (P : ε → Prop) (a : α) : Emits P (Pure.pure a : Cmd φ σ ε α) := by
  intro s e he
  simp at he

/-- Nor by a fault. -/
theorem Emits.fault (P : ε → Prop) (e : φ) : Emits P (Cmd.fault e : Cmd φ σ ε α) := by
  intro s e he
  simp at he

/-- The one event that is emitted. -/
theorem Emits.emit {P : ε → Prop} {e : ε} (h : P e) :
    Emits P (Cmd.emit e : Cmd φ σ ε Unit) := by
  intro s e' he
  obtain rfl : e' = e := by simpa using he
  exact h

/-- The events of both commands. -/
theorem Emits.bind {P : ε → Prop} {m : Cmd φ σ ε α} {f : α → Cmd φ σ ε β}
    (hm : Emits P m) (hf : ∀ a, Emits P (f a)) : Emits P (m >>= f) := by
  intro s e he
  have hme := hm s
  rw [bind_apply] at he
  rcases hms : m s with ⟨es, s', r⟩
  rw [hms] at he hme
  cases r with
  | error _ => exact hme e he
  | ok a =>
      rw [Outcome.andThen_ok, Outcome.after_events] at he
      -- an event of the first command, or of the second
      rcases List.mem_append.mp he with he | he
      · exact hme e he
      · exact hf a s' e he

/-! ## §3. Frames. -/

/-- `m` never changes the part `f` of the state. -/
def Frames (f : σ → γ) (m : Cmd φ σ ε α) : Prop := ∀ s, f (m s).state = f s

/-- The state is left alone. -/
theorem Frames.pure (f : σ → γ) (a : α) : Frames f (Pure.pure a : Cmd φ σ ε α) := fun _ => rfl

/-- A fault leaves the state alone. -/
theorem Frames.fault (f : σ → γ) (e : φ) : Frames f (Cmd.fault e : Cmd φ σ ε α) := fun _ => rfl

/-- An event leaves the state alone. -/
theorem Frames.emit (f : σ → γ) (e : ε) : Frames f (Cmd.emit e : Cmd φ σ ε Unit) := fun _ => rfl

/-- What both commands keep is kept. -/
theorem Frames.bind {f : σ → γ} {m : Cmd φ σ ε α} {k : α → Cmd φ σ ε β}
    (hm : Frames f m) (hk : ∀ a, Frames f (k a)) : Frames f (m >>= k) := by
  intro s
  have hms := hm s
  rw [bind_apply]
  rcases hrun : m s with ⟨es, s', r⟩
  rw [hrun] at hms
  cases r with
  | error _ => exact hms
  | ok a => exact (hk a s').trans hms

end Cmd

end PicoosLwip.Framework
