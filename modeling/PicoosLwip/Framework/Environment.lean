/-
  PicoosLwip.Framework.Environment — programs against an environment with state.

  An environment says, for each of its states, which answers an operation may get
  and which state follows.  `Exec env s m a s'` is a run of the program `m` to its
  end: it starts with the environment in `s`, returns `a` and leaves `s'`.

  Rules:
    * `exec_pure/perform/bind` — a run is taken apart along the program text;
    * `Exec.state_eq`       — operations that leave the environment alone, in a row;
    * `exec_inl`            — a program over one kind of operations, run as one
                              over two kinds;
    * `WhileExec`           — `while (body) ;`;
    * `exec_execWith`       — a run that is computed.
-/
import PicoosLwip.Framework.Program

namespace PicoosLwip.Framework.Program

variable {σ Op Op' : Type} {Ans : Op → Type} {Ans' : Op' → Type} {α β : Type}

/-- In state `s`, `op` may be answered by `ans`, and the state is `s'` then. -/
abbrev Env (σ Op : Type) (Ans : Op → Type) : Type := σ → (op : Op) → Ans op → σ → Prop

/-- The program runs to its end. -/
inductive Exec (env : Env σ Op Ans) : σ → Program Op Ans α → α → σ → Prop
  | ret (s : σ) (a : α) : Exec env s (.ret a) a s
  | call {s s₁ s₂ : σ} {op : Op} {k : Ans op → Program Op Ans α} {ans : Ans op} {a : α}
      (h : env s op ans s₁) (hrest : Exec env s₁ (k ans) a s₂) : Exec env s (.call op k) a s₂

variable {env : Env σ Op Ans} {s s' : σ}

/-! ## §1. Along the program text. -/

/-- A program without operations. -/
@[simp] theorem exec_pure {a b : α} :
    Exec env s (pure a : Program Op Ans α) b s' ↔ b = a ∧ s' = s := by
  constructor
  · intro h
    cases h with
    | ret => exact ⟨rfl, rfl⟩
  · rintro ⟨rfl, rfl⟩
    exact .ret ..

/-- A program of one operation does what the environment lets it do. -/
@[simp] theorem exec_perform {op : Op} {ans : Ans op} :
    Exec env s (perform op) ans s' ↔ env s op ans s' := by
  constructor
  · intro h
    cases h with
    | call h hrest =>
        cases hrest with
        | ret => exact h
  · intro h
    exact .call h (.ret ..)

/-- **The bind lemma**: the first program runs, and the second one where it stops. -/
@[simp] theorem exec_bind {m : Program Op Ans α} {f : α → Program Op Ans β} {b : β} :
    Exec env s (m >>= f) b s' ↔ ∃ a s₁, Exec env s m a s₁ ∧ Exec env s₁ (f a) b s' := by
  constructor
  · intro h
    induction m generalizing s with
    | ret a => exact ⟨a, s, .ret s a, h⟩
    | call op k ih =>
        cases h with
        | call hop hrest =>
            obtain ⟨a, s₁, hk, hf⟩ := ih _ hrest
            exact ⟨a, s₁, .call hop hk, hf⟩
  · rintro ⟨a, s₁, hm, hf⟩
    induction hm with
    | ret => exact hf
    | call hop _ ih => exact .call hop (ih hf)

/-! ## §2. Operations that leave the environment alone. -/

/-- All operations of the program, whatever the answers, are as `P` says. -/
def AllOps (P : Op → Prop) : Program Op Ans α → Prop
  | .ret _ => True
  | .call op k => P op ∧ ∀ ans, AllOps P (k ans)

theorem AllOps.pure {P : Op → Prop} (a : α) : AllOps P (pure a : Program Op Ans α) := trivial

theorem AllOps.perform {P : Op → Prop} {op : Op} (h : P op) :
    AllOps P (perform op : Program Op Ans (Ans op)) := ⟨h, fun _ => trivial⟩

/-- The operations of both programs. -/
theorem AllOps.bind {P : Op → Prop} {m : Program Op Ans α} {f : α → Program Op Ans β}
    (hm : AllOps P m) (hf : ∀ a, AllOps P (f a)) : AllOps P (m >>= f) := by
  induction m with
  | ret a => exact hf a
  | call op k ih => exact ⟨hm.1, fun ans => ih ans (hm.2 ans)⟩

/-- **Such operations in a row leave it alone.** -/
theorem Exec.state_eq {P : Op → Prop} (hP : ∀ op, P op → ∀ s ans s', env s op ans s' → s' = s)
    {m : Program Op Ans α} {a : α} (hm : AllOps P m) (h : Exec env s m a s') : s' = s := by
  induction h with
  | ret => rfl
  | call hop _ ih => exact (ih (hm.2 _)).trans (hP _ hm.1 _ _ _ hop)

/-! ## §3. Two kinds of operations. -/

/-- A program that uses the first kind only. -/
def inl : Program Op Ans α → Program (Op ⊕ Op') (Sum.elim Ans Ans') α
  | .ret a => .ret a
  | .call op k => .call (.inl op) fun ans => (k ans).inl

/-- One operation of the second kind. -/
def performInr (op : Op') : Program (Op ⊕ Op') (Sum.elim Ans Ans') (Ans' op) :=
  .call (.inr op) .ret

/-- Both kinds answered over one state. -/
def Env.sum (env : Env σ Op Ans) (env' : Env σ Op' Ans') :
    Env σ (Op ⊕ Op') (Sum.elim Ans Ans')
  | s, .inl op, ans, s' => env s op ans s'
  | s, .inr op, ans, s' => env' s op ans s'

variable {env' : Env σ Op' Ans'}

/-- A program over the operations on the left is run by their environment. -/
theorem exec_inl {m : Program Op Ans α} {a : α} :
    Exec (env.sum env') s (m.inl : Program (Op ⊕ Op') (Sum.elim Ans Ans') α) a s'
      ↔ Exec env s m a s' := by
  constructor
  · intro h
    induction m generalizing s with
    | ret b =>
        cases h with
        | ret => exact .ret ..
    | call op k ih =>
        cases h with
        | call hop hrest => exact .call hop (ih _ hrest)
  · intro h
    induction h with
    | ret => exact .ret ..
    | call hop _ ih =>
        show Exec (env.sum env') _ (.call (.inl _) _) _ _
        exact .call hop ih

/-- A single operation on the right. -/
theorem exec_performInr {op : Op'} {ans : Ans' op} :
    Exec (env.sum env') s (performInr op) ans s' ↔ env' s op ans s' := exec_perform

/-! ## §4. Loops. -/

/-- `while (body) ;`, run to its exit; the rounds may differ in what the body is given
of `ι`.  A round that never returns gives `none`, and a loop that gets into one has
no run. -/
inductive WhileExec {ι : Type} (env : Env σ Op Ans) (body : ι → Program Op Ans (Option Bool)) :
    σ → σ → Prop
  | exit {s s' : σ} {i : ι} (h : Exec env s (body i) (some false) s') : WhileExec env body s s'
  | again {s s₁ s' : σ} {i : ι} (h : Exec env s (body i) (some true) s₁)
      (hrest : WhileExec env body s₁ s') : WhileExec env body s s'

/-! ## §5. Runs that are computed. -/

/-- The result and the final state where `answer` decides. -/
def execWith (answer : σ → (op : Op) → Ans op × σ) : σ → Program Op Ans α → α × σ
  | s, .ret a => (a, s)
  | s, .call op k => (k (answer s op).1).execWith answer (answer s op).2

/-- What the given answers compute is a run, where the environment allows these answers. -/
theorem exec_execWith {answer : σ → (op : Op) → Ans op × σ}
    (h : ∀ s op, env s op (answer s op).1 (answer s op).2) (m : Program Op Ans α) (s : σ) :
    Exec env s m (m.execWith answer s).1 (m.execWith answer s).2 := by
  induction m generalizing s with
  | ret a => exact .ret ..
  | call op k ih => exact .call (h s op) (ih _ _)

/-- The answers carry the state from one program to the next. -/
@[simp] theorem execWith_bind (answer : σ → (op : Op) → Ans op × σ) (s : σ) (m : Program Op Ans α)
    (f : α → Program Op Ans β) : execWith answer s (m >>= f)
      = execWith answer (execWith answer s m).2 (f (execWith answer s m).1) := by
  induction m generalizing s with
  | ret a => rfl
  | call op k ih => exact ih _ _

/-- Both kinds of operations answered. -/
def answerSum (answer : σ → (op : Op) → Ans op × σ) (answer' : σ → (op : Op') → Ans' op × σ) :
    σ → (op : Op ⊕ Op') → Sum.elim Ans Ans' op × σ
  | s, .inl op => answer s op
  | s, .inr op => answer' s op

/-- The final state of a loop of at most `n` rounds. -/
def whileWith (answer : σ → (op : Op) → Ans op × σ) (body : Program Op Ans (Option Bool)) :
    Nat → σ → Option σ
  | 0, _ => none
  | n + 1, s =>
      match (body.execWith answer s).1 with
      | none => none
      | some false => some (body.execWith answer s).2
      | some true => whileWith answer body n (body.execWith answer s).2

/-- A loop that ends within `n` rounds is a run of the loop. -/
theorem whileExec_of_whileWith {ι : Type} {body : ι → Program Op Ans (Option Bool)}
    {answer : σ → (op : Op) → Ans op × σ} (h : ∀ s op, env s op (answer s op).1 (answer s op).2)
    (i : ι) (n : Nat) (s : σ) (hsome : whileWith answer (body i) n s = some s') :
    WhileExec env body s s' := by
  induction n generalizing s with
  | zero => exact absurd hsome (by simp [whileWith])
  | succ n ih =>
      have hround := exec_execWith h (body i) s
      unfold whileWith at hsome
      split at hsome
      next => exact absurd hsome (by simp)
      next hfalse =>
        rw [hfalse] at hround
        obtain rfl := Option.some.inj hsome
        exact .exit hround
      next htrue =>
        rw [htrue] at hround
        exact .again hround (ih _ hsome)

end PicoosLwip.Framework.Program
