/-
  PicoosLwip.Framework.Answers — environments of which more is known.

  What is proved of a program run in one environment is to be used in another: in
  one that answers as before, but keeps to a promise about each answer; or in one
  whose state has a part that the program does not touch.

  Rules:
    * `Exec.mono`    — a run where less may happen is a run where more may;
    * `Exec.view`    — the same run, seen in another state;
    * `exec_meeting` — in an environment that keeps a promise, a run has a trace whose
                       answers are as promised;
    * `exec_onFst`   — the part of the state that is not touched stays as it was;
    * `AfterFirst.perform/bind/inl` — what the operations behind the first are.
-/
import PicoosLwip.Framework.Environment
import PicoosLwip.Framework.Trace

namespace PicoosLwip.Framework.Program

variable {σ τ Op : Type} {Ans : Op → Type} {α : Type} {env env' : Env σ Op Ans} {s s' : σ}

/-- A run in one environment is one in any that allows more. -/
theorem Exec.mono (hle : ∀ s op ans s', env s op ans s' → env' s op ans s')
    {m : Program Op Ans α} {a : α} (h : Exec env s m a s') : Exec env' s m a s' := by
  induction h with
  | ret s a => exact .ret s a
  | call hop _ ih => exact .call (hle _ _ _ _ hop) ih

/-- What is seen of a run in another state. -/
theorem Exec.view (f : σ → τ) {env' : Env τ Op Ans}
    (h : ∀ s op ans s', env s op ans s' → env' (f s) op ans (f s')) {m : Program Op Ans α} {a : α}
    (hrun : Exec env s m a s') : Exec env' (f s) m a (f s') := by
  induction hrun with
  | ret s a => exact .ret (f s) a
  | call hop _ ih => exact .call (h _ _ _ _ hop) ih

/-- A weaker condition on the operations. -/
theorem AllOps.mono {P Q : Op → Prop} (hle : ∀ op, P op → Q op) {m : Program Op Ans α}
    (h : AllOps P m) : AllOps Q m := by
  induction m with
  | ret a => trivial
  | call op k ih => exact ⟨hle op h.1, fun ans => ih ans (h.2 ans)⟩

/-- A program over one half of the operations, seen over all of them. -/
theorem AllOps.inl {Op' : Type} {Ans' : Op' → Type} {P : Op ⊕ Op' → Prop} {m : Program Op Ans α}
    (h : AllOps (fun op => P (.inl op)) m) :
    AllOps P (m.inl : Program (Op ⊕ Op') (Sum.elim Ans Ans') α) := by
  induction m with
  | ret a => trivial
  | call op k ih => exact ⟨h.1, fun ans => ih ans (h.2 ans)⟩

/-- The program begins with an operation, and all behind it are as `P` says. -/
def AfterFirst (P : Op → Prop) : Program Op Ans α → Prop
  | .ret _ => False
  | .call _ k => ∀ ans, AllOps P (k ans)

/-- Behind a single operation there is none. -/
theorem AfterFirst.perform {P : Op → Prop} (op : Op) :
    AfterFirst P (perform op : Program Op Ans (Ans op)) := fun _ => trivial

/-- What follows may do only what is allowed behind the first operation. -/
theorem AfterFirst.bind {β : Type} {P : Op → Prop} {m : Program Op Ans α}
    {f : α → Program Op Ans β} (hm : AfterFirst P m) (hf : ∀ a, AllOps P (f a)) :
    AfterFirst P (m >>= f) := by
  cases m with
  | ret a => exact hm.elim
  | call op k => exact fun ans => (hm ans).bind hf

theorem AfterFirst.inl {Op' : Type} {Ans' : Op' → Type} {P : Op ⊕ Op' → Prop}
    {m : Program Op Ans α} (h : AfterFirst (fun op => P (.inl op)) m) :
    AfterFirst P (m.inl : Program (Op ⊕ Op') (Sum.elim Ans Ans') α) := by
  cases m with
  | ret a => exact h
  | call op k => exact fun ans => (h ans).inl

/-! ## §1. Promises about answers. -/

/-- The environment `env`, as far as its answers meet `ok`. -/
def Env.meeting (env : Env σ Op Ans) (ok : Step Op Ans → Prop) : Env σ Op Ans
  | s, op, ans, s' => env s op ans s' ∧ ok ⟨op, ans⟩

variable {ok : Step Op Ans → Prop}

/-- **A run with its trace**: the answers are as promised, and the operations are those
of the program. -/
theorem exec_meeting {P : Op → Prop} {m : Program Op Ans α} {a : α} (hm : AllOps P m)
    (h : Exec (env.meeting ok) s m a s') :
    Exec env s m a s' ∧ ∃ tr, Trace m tr a ∧ ∀ e ∈ tr, ok e ∧ P e.1 := by
  refine ⟨h.mono fun _ _ _ _ hop => hop.1, ?_⟩
  induction h with
  | ret s a => exact ⟨[], .ret a, fun e he => absurd he List.not_mem_nil⟩
  | @call _ _ _ op k ans _ hop _ ih =>
      obtain ⟨tr, htr, hall⟩ := ih (hm.2 ans)
      exact ⟨_, .call op k ans htr, List.forall_mem_cons.mpr ⟨⟨hop.2, hm.1⟩, hall⟩⟩

/-- A trace performs the operations of its program. -/
theorem Trace.allOps {P : Op → Prop} {m : Program Op Ans α} {tr : List (Step Op Ans)} {a : α}
    (hm : AllOps P m) (h : Trace m tr a) : ∀ e ∈ tr, P e.1 := by
  induction h with
  | ret a => exact fun e he => absurd he List.not_mem_nil
  | call op k ans _ ih => exact List.forall_mem_cons.mpr ⟨hm.1, ih (hm.2 ans)⟩

/-! ## §2. A part of the state. -/

/-- `env` on the first part of the state; the second stays as it is. -/
def Env.onFst (env : Env σ Op Ans) (τ : Type) : Env (σ × τ) Op Ans
  | s, op, ans, s' => env s.1 op ans s'.1 ∧ s'.2 = s.2

/-- A program that sees one component leaves the other alone. -/
theorem exec_onFst {m : Program Op Ans α} {a : α} {s s' : σ × τ} :
    Exec (env.onFst τ) s m a s' ↔ Exec env s.1 m a s'.1 ∧ s'.2 = s.2 := by
  constructor
  · intro h
    induction h with
    | ret s a => exact ⟨.ret s.1 a, rfl⟩
    | call hop _ ih => exact ⟨.call hop.1 ih.1, ih.2.trans hop.2⟩
  · obtain ⟨s, x⟩ := s
    obtain ⟨s', x'⟩ := s'
    rintro ⟨h, hx⟩
    obtain rfl : x' = x := hx
    change Exec env s m a s' at h
    induction h with
    | ret s a => exact .ret _ a
    | @call _ s₁ _ _ _ _ _ hop _ ih =>
        have hfirst : env.onFst τ (_, x') _ _ (s₁, x') := ⟨hop, rfl⟩
        exact .call hfirst ih

end PicoosLwip.Framework.Program
