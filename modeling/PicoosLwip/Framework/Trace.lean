/-
  PicoosLwip.Framework.Trace — what a program does and what is answered.

  A trace lists the operations that a program performed, each with its answer.
  `Trace m tr a` says that `m` may go that way and then returns `a`; who answers
  is not fixed.  Assumptions about the answers are made of single steps, by a
  predicate `ok`.

  Rules:
    * `trace_bind`                 — a trace of `m >>= f` is one of `m` and one
                                     of what follows;
    * `Ensures.ret/call/perform/bind/mono`
                                   — postconditions over the trace and result;
    * `trace_run`                  — a program run against fixed answers.
-/
import PicoosLwip.Framework.Program
import Mathlib.Data.List.Basic

namespace PicoosLwip.Framework.Program

variable {Op : Type} {Ans : Op → Type} {α β : Type}

/-- An operation with its answer. -/
abbrev Step (Op : Type) (Ans : Op → Type) : Type := (op : Op) × Ans op

/-- The program performs the steps `tr` and returns `a`. -/
inductive Trace : Program Op Ans α → List (Step Op Ans) → α → Prop
  | ret (a : α) : Trace (.ret a) [] a
  | call (op : Op) (k : Ans op → Program Op Ans α) (ans : Ans op) {tr : List (Step Op Ans)} {a : α}
      (h : Trace (k ans) tr a) : Trace (.call op k) (⟨op, ans⟩ :: tr) a

/-- A trace of two programs in a row. -/
theorem trace_bind {m : Program Op Ans α} {f : α → Program Op Ans β} {tr : List (Step Op Ans)}
    {b : β} (h : Trace (m >>= f) tr b) :
    ∃ tr₁ a tr₂, tr = tr₁ ++ tr₂ ∧ Trace m tr₁ a ∧ Trace (f a) tr₂ b := by
  induction m generalizing tr with
  | ret a => exact ⟨[], a, tr, rfl, .ret a, h⟩
  | call op k ih =>
      cases h with
      | call _ _ ans hrest =>
          obtain ⟨tr₁, a, tr₂, rfl, h₁, h₂⟩ := ih ans hrest
          exact ⟨_, a, tr₂, rfl, .call op k ans h₁, h₂⟩

/-- Two traces in a row are one of both programs. -/
theorem Trace.bind {m : Program Op Ans α} {f : α → Program Op Ans β}
    {tr tr' : List (Step Op Ans)} {a : α} {b : β} (h : Trace m tr a) (h' : Trace (f a) tr' b) :
    Trace (m >>= f) (tr ++ tr') b := by
  induction h with
  | ret a => exact h'
  | call op k ans _ ih => exact .call op _ ans (ih h')

/-! ## §1. Running against fixed answers. -/

/-- The trace and the result where `answer` answers every operation. -/
def run (answer : (op : Op) → Ans op) : Program Op Ans α → List (Step Op Ans) × α
  | .ret a => ([], a)
  | .call op k =>
      let r := (k (answer op)).run answer
      (⟨op, answer op⟩ :: r.1, r.2)

@[simp] theorem run_pure (answer : (op : Op) → Ans op) (a : α) :
    (pure a : Program Op Ans α).run answer = ([], a) := rfl

/-- The traces of two programs in a row. -/
@[simp] theorem run_bind (answer : (op : Op) → Ans op) (m : Program Op Ans α)
    (f : α → Program Op Ans β) : (m >>= f).run answer
      = ((m.run answer).1 ++ ((f (m.run answer).2).run answer).1,
          ((f (m.run answer).2).run answer).2) := by
  induction m with
  | ret a => rfl
  | call op k ih =>
      rw [call_bind, run, ih]
      rfl

/-- What the answers compute is a trace. -/
theorem trace_run (answer : (op : Op) → Ans op) (m : Program Op Ans α) :
    Trace m (m.run answer).1 (m.run answer).2 := by
  induction m with
  | ret a => exact .ret a
  | call op k ih => exact .call op k (answer op) (ih (answer op))

/-- The steps of such a run are answered so. -/
theorem answer_of_mem_run {answer : (op : Op) → Ans op} {m : Program Op Ans α}
    {e : Step Op Ans} (h : e ∈ (m.run answer).1) : e.2 = answer e.1 := by
  induction m with
  | ret a => exact absurd h List.not_mem_nil
  | call op k ih =>
      rcases List.mem_cons.mp h with rfl | h
      · rfl
      · exact ih (answer op) h

/-! ## §2. Postconditions. -/

variable {ok : Step Op Ans → Prop}

/-- Whatever the answers, as long as each is `ok`: trace and result satisfy `Q`. -/
def Ensures (ok : Step Op Ans → Prop) (m : Program Op Ans α)
    (Q : List (Step Op Ans) → α → Prop) : Prop :=
  ∀ tr a, Trace m tr a → (∀ e ∈ tr, ok e) → Q tr a

/-- Nothing was done. -/
theorem Ensures.ret {a : α} {Q : List (Step Op Ans) → α → Prop} (h : Q [] a) :
    Ensures ok (.ret a) Q := by
  intro tr a' htr _
  cases htr
  exact h

/-- Whatever the first answer is. -/
theorem Ensures.call {op : Op} {k : Ans op → Program Op Ans α} {Q : List (Step Op Ans) → α → Prop}
    (h : ∀ ans, ok ⟨op, ans⟩ → Ensures ok (k ans) fun tr a => Q (⟨op, ans⟩ :: tr) a) :
    Ensures ok (.call op k) Q := by
  intro tr a htr hok
  cases htr with
  | call _ _ ans hrest =>
      obtain ⟨hfirst, hlater⟩ := List.forall_mem_cons.mp hok
      exact h ans hfirst _ a hrest hlater

/-- A single operation. -/
theorem Ensures.perform {op : Op} {Q : List (Step Op Ans) → Ans op → Prop}
    (h : ∀ ans, ok ⟨op, ans⟩ → Q [⟨op, ans⟩] ans) : Ensures ok (perform op) Q :=
  Ensures.call fun ans hans => Ensures.ret (h ans hans)

/-- A weaker postcondition. -/
theorem Ensures.mono {m : Program Op Ans α} {Q R : List (Step Op Ans) → α → Prop}
    (h : Ensures ok m R) (hle : ∀ tr a, R tr a → Q tr a) : Ensures ok m Q := by
  intro tr a htr hok
  exact hle tr a (h tr a htr hok)

/-- **Sequencing**: what the first part ensures is given to the second. -/
theorem Ensures.bind {m : Program Op Ans α} {f : α → Program Op Ans β}
    {R : List (Step Op Ans) → α → Prop} {Q : List (Step Op Ans) → β → Prop} (hm : Ensures ok m R)
    (hf : ∀ tr a, R tr a → Ensures ok (f a) fun tr' b => Q (tr ++ tr') b) :
    Ensures ok (m >>= f) Q := by
  intro tr b htr hok
  obtain ⟨tr₁, a, tr₂, rfl, h₁, h₂⟩ := trace_bind htr
  obtain ⟨hok₁, hok₂⟩ := List.forall_mem_append.mp hok
  exact hf tr₁ a (hm tr₁ a h₁ hok₁) tr₂ b h₂ hok₂

end PicoosLwip.Framework.Program
