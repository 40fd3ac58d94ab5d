/-
  PicoosLwip.Framework.Linearize — calls that take effect at once.

  Threads call the functions of a shared object.  A function is a `Program`; at most one
  of its operations has an effect on the object, the others leave it alone.  Between any
  two operations of a thread the other threads perform theirs.

  In the ATOMIC system a call has one step between its start and its end, its effect, and
  then returns something that goes with that effect.

  Rules:
    * `AtMostOnce.perform/bind` — functions with one effect, put together;
    * `Reaches`, `effects`   — how far a function has come, and what it has done;
    * `Calls.linearizable`   — every run of the threads is a run of the atomic system.
-/
import PicoosLwip.Framework.Answers
import PicoosLwip.Framework.Run

namespace PicoosLwip.Framework

namespace Program

variable {Op : Type} {Ans : Op → Type} {α β : Type} {idle : Op → Bool}

/-! ## §1. One effect. -/

/-- Of the operations of the program at most one is not `idle`. -/
def AtMostOnce (idle : Op → Bool) : Program Op Ans α → Prop
  | .ret _ => True
  | .call op k =>
      if idle op then ∀ ans, AtMostOnce idle (k ans)
      else ∀ ans, AllOps (fun op => idle op) (k ans)

/-- A program of idle operations has no effect at all. -/
theorem AllOps.atMostOnce {m : Program Op Ans α} (h : AllOps (fun op => idle op) m) :
    AtMostOnce idle m := by
  induction m with
  | ret a => trivial
  | call op k ih =>
      unfold AtMostOnce
      rw [if_pos h.1]
      exact fun ans => ih ans (h.2 ans)

/-- A single operation is one effect at most. -/
theorem AtMostOnce.perform (op : Op) : AtMostOnce idle (perform op : Program Op Ans (Ans op)) := by
  unfold Program.perform AtMostOnce
  split
  · exact fun _ => trivial
  · exact fun _ => trivial

/-- The effect in the first part. -/
theorem AtMostOnce.bind {m : Program Op Ans α} {f : α → Program Op Ans β}
    (hm : AtMostOnce idle m) (hf : ∀ a, AllOps (fun op => idle op) (f a)) :
    AtMostOnce idle (m >>= f) := by
  induction m with
  | ret a => exact (hf a).atMostOnce
  | call op k ih =>
      rw [call_bind]
      unfold AtMostOnce at hm ⊢
      split at hm
      next hidle =>
        rw [if_pos hidle]
        exact fun ans => ih ans (hm ans)
      next heffect =>
        rw [if_neg heffect]
        exact fun ans => (hm ans).bind hf

/-! ## §2. How far a program has come. -/

/-- The program performs `tr` and is left with the other program. -/
inductive Reaches : Program Op Ans α → List (Step Op Ans) → Program Op Ans α → Prop
  | refl (m : Program Op Ans α) : Reaches m [] m
  | call (op : Op) (k : Ans op → Program Op Ans α) (ans : Ans op) {tr : List (Step Op Ans)}
      {m : Program Op Ans α} (h : Reaches (k ans) tr m) : Reaches (.call op k) (⟨op, ans⟩ :: tr) m

/-- One operation more. -/
theorem Reaches.snoc {m : Program Op Ans α} {tr : List (Step Op Ans)} {op : Op}
    {k : Ans op → Program Op Ans α} (h : Reaches m tr (.call op k)) (ans : Ans op) :
    Reaches m (tr ++ [⟨op, ans⟩]) (k ans) := by
  generalize hm' : Program.call op k = m' at h
  induction h with
  | refl m =>
      subst hm'
      exact .call op k ans (.refl _)
  | call op' k' ans' _ ih => exact .call op' k' ans' (ih hm')

/-- Whoever reaches the end has run. -/
theorem Reaches.trace {m : Program Op Ans α} {tr : List (Step Op Ans)} {a : α}
    (h : Reaches m tr (.ret a)) : Trace m tr a := by
  generalize hm' : Program.ret a = m' at h
  induction h with
  | refl m =>
      subst hm'
      exact .ret a
  | call op k ans _ ih => exact .call op k ans (ih hm')

/-- On the way a program performs its own operations. -/
theorem Reaches.allOps {P : Op → Prop} {m m' : Program Op Ans α} {tr : List (Step Op Ans)}
    (hm : AllOps P m) (h : Reaches m tr m') : ∀ e ∈ tr, P e.1 := by
  induction h with
  | refl m => exact fun e he => absurd he List.not_mem_nil
  | call op k ans _ ih => exact List.forall_mem_cons.mpr ⟨hm.1, ih (hm.2 ans)⟩

/-- What the steps have done to the object. -/
def effects (idle : Op → Bool) (tr : List (Step Op Ans)) : List (Step Op Ans) :=
  tr.filter fun e => !idle e.1

end Program

/-! ## §3. Threads that call. -/

/-- The functions of a shared object `σ`, with the calls `Call`. -/
structure Calls (σ Op : Type) (Ans : Op → Type) (Call : Type) (Res : Call → Type) where
  env : Program.Env σ Op Ans
  body : (c : Call) → Program Op Ans (Res c)
  idle : Op → Bool
  frame : ∀ s op ans s', idle op → env s op ans s' → s' = s
  once : ∀ c, (body c).AtMostOnce idle

namespace Calls

variable {σ Op Call ι : Type} {Ans : Op → Type} {Res : Call → Type}

/-- What happens: a thread starts a call, performs an operation of it, or returns. -/
inductive Label (Op : Type) (Ans : Op → Type) (Call : Type) (Res : Call → Type) (ι : Type)
  | invoke (i : ι) (c : Call)
  | perform (i : ι) (c : Call) (e : Program.Step Op Ans)
  | respond (i : ι) (c : Call) (r : Res c)

/-- What a label does to the object. -/
def Label.effect : Label Op Ans Call Res ι → Option (Program.Step Op Ans)
  | .perform _ _ e => some e
  | _ => none

/-- The object, and what is left of each thread's call. -/
structure State (σ Op : Type) (Ans : Op → Type) (Call : Type) (Res : Call → Type) (ι : Type) where
  object : σ
  thread : ι → Option ((c : Call) × Program Op Ans (Res c))

/-- No thread is in a call. -/
def start (σ₀ : σ) : State σ Op Ans Call Res ι := ⟨σ₀, fun _ => none⟩

variable [DecidableEq ι] (L : Calls σ Op Ans Call Res)

/-- Threads call, perform their operations one by one, and return. -/
inductive Step : State σ Op Ans Call Res ι → Label Op Ans Call Res ι →
    State σ Op Ans Call Res ι → Prop
  | invoke {s : State σ Op Ans Call Res ι} {i : ι} (c : Call) (h : s.thread i = none) :
      Step s (.invoke i c) ⟨s.object, Function.update s.thread i (some ⟨c, L.body c⟩)⟩
  | perform {s : State σ Op Ans Call Res ι} {i : ι} {c : Call} {op : Op}
      {k : Ans op → Program Op Ans (Res c)} {ans : Ans op} {o : σ}
      (h : s.thread i = some ⟨c, .call op k⟩) (hop : L.env s.object op ans o) :
      Step s (.perform i c ⟨op, ans⟩) ⟨o, Function.update s.thread i (some ⟨c, k ans⟩)⟩
  | respond {s : State σ Op Ans Call Res ι} {i : ι} {c : Call} {r : Res c}
      (h : s.thread i = some ⟨c, .ret r⟩) :
      Step s (.respond i c r) ⟨s.object, Function.update s.thread i none⟩

/-! ## §4. The atomic system. -/

/-- The object, each thread's call, and the effect that it has had. -/
structure Atomic (σ Op : Type) (Ans : Op → Type) (Call ι : Type) where
  object : σ
  call : ι → Option (Call × Option (Program.Step Op Ans))

/-- No call is under way. -/
def Atomic.start (σ₀ : σ) : Atomic σ Op Ans Call ι := ⟨σ₀, fun _ => none⟩

/-- The call `c` may have the effects `es`. -/
def Performs (c : Call) (es : List (Program.Step Op Ans)) : Prop :=
  ∃ tr m, Program.Reaches (L.body c) tr m ∧ Program.effects L.idle tr = es

/-- The call may return `r` with the effects `es`. -/
def Returns (c : Call) (es : List (Program.Step Op Ans)) (r : Res c) : Prop :=
  ∃ tr, Program.Trace (L.body c) tr r ∧ Program.effects L.idle tr = es

/-- A call with one effect: it begins, has its effect, and reports it. -/
inductive AtomicStep : Atomic σ Op Ans Call ι → Label Op Ans Call Res ι →
    Atomic σ Op Ans Call ι → Prop
  | invoke {s : Atomic σ Op Ans Call ι} {i : ι} (c : Call) (h : s.call i = none) :
      AtomicStep s (.invoke i c) ⟨s.object, Function.update s.call i (some (c, none))⟩
  /-- The effect. -/
  | perform {s : Atomic σ Op Ans Call ι} {i : ι} {c : Call} {e : Program.Step Op Ans} {o : σ}
      (h : s.call i = some (c, none)) (hc : L.Performs c [e]) (hop : L.env s.object e.1 e.2 o) :
      AtomicStep s (.perform i c e) ⟨o, Function.update s.call i (some (c, some e))⟩
  | respond {s : Atomic σ Op Ans Call ι} {i : ι} {c : Call} {effect : Option (Program.Step Op Ans)}
      {r : Res c} (h : s.call i = some (c, effect)) (hr : L.Returns c effect.toList r) :
      AtomicStep s (.respond i c r) ⟨s.object, Function.update s.call i none⟩

/-! ## §5. The simulation. -/

/-- All but the operations without an effect. -/
def visible : Label Op Ans Call Res ι → Bool
  | .perform _ _ e => !L.idle e.1
  | _ => true

/-- What a thread is doing, and what the atomic system has of it. -/
inductive Matches : Option ((c : Call) × Program Op Ans (Res c)) →
    Option (Call × Option (Program.Step Op Ans)) → Prop
  | outside : Matches none none
  | before {c : Call} {m : Program Op Ans (Res c)} {tr : List (Program.Step Op Ans)}
      (h : Program.Reaches (L.body c) tr m) (htr : Program.effects L.idle tr = [])
      (hm : m.AtMostOnce L.idle) : Matches (some ⟨c, m⟩) (some (c, none))
  | behind {c : Call} {m : Program Op Ans (Res c)} {tr : List (Program.Step Op Ans)}
      {e : Program.Step Op Ans} (h : Program.Reaches (L.body c) tr m)
      (htr : Program.effects L.idle tr = [e]) (hm : m.AllOps fun op => L.idle op) :
      Matches (some ⟨c, m⟩) (some (c, some e))

/-- The same object, and the same calls. -/
structure Simulates (s : State σ Op Ans Call Res ι) (a : Atomic σ Op Ans Call ι) : Prop where
  object : a.object = s.object
  calls : ∀ i, L.Matches (s.thread i) (a.call i)

variable {L} {s s' : State σ Op Ans Call Res ι} {a : Atomic σ Op Ans Call ι}

/-- One thread moves on. -/
theorem Simulates.update (h : L.Simulates s a) (o : σ) (i : ι)
    {t : Option ((c : Call) × Program Op Ans (Res c))}
    {x : Option (Call × Option (Program.Step Op Ans))}
    (hi : L.Matches t x) :
    L.Simulates ⟨o, Function.update s.thread i t⟩ ⟨o, Function.update a.call i x⟩ where
  object := rfl
  calls j := by
    show L.Matches (Function.update s.thread i t j) (Function.update a.call i x j)
    by_cases hj : j = i
    · subst hj
      rw [Function.update_self, Function.update_self]
      exact hi
    · rw [Function.update_of_ne hj, Function.update_of_ne hj]
      exact h.calls j

/-- An operation without an effect is one of the thread alone. -/
theorem Simulates.stutter (h : L.Simulates s a) (i : ι)
    {t : Option ((c : Call) × Program Op Ans (Res c))} (hi : L.Matches t (a.call i)) :
    L.Simulates ⟨s.object, Function.update s.thread i t⟩ a := by
  have hall := h.update s.object i hi
  rw [Function.update_eq_self] at hall
  exact ⟨h.object, hall.calls⟩

/-- An idle step is no effect. -/
theorem effects_snoc_idle {tr : List (Program.Step Op Ans)} {e : Program.Step Op Ans}
    (h : L.idle e.1) : Program.effects L.idle (tr ++ [e]) = Program.effects L.idle tr := by
  simp [Program.effects, h]

/-- Any other step is one. -/
theorem effects_snoc {tr : List (Program.Step Op Ans)} {e : Program.Step Op Ans}
    (h : ¬ L.idle e.1) :
    Program.effects L.idle (tr ++ [e]) = Program.effects L.idle tr ++ [e] := by
  simp [Program.effects, h]

/-- **One step**: it is one of the atomic system, or has no effect. -/
theorem Simulates.step {l : Label Op Ans Call Res ι} (h : L.Simulates s a) (hs : L.Step s l s') :
    ∃ a', (if L.visible l then L.AtomicStep a l a' else a' = a) ∧ L.Simulates s' a' := by
  cases hs with
  | @invoke i c hthread =>
      have hi := h.calls i
      rw [hthread] at hi
      generalize hx : a.call i = x at hi
      cases hi with
      | outside =>
          refine ⟨⟨s.object, Function.update a.call i (some (c, none))⟩, ?_, ?_⟩
          · rw [← h.object]
            exact .invoke c hx
          · exact h.update s.object i (.before (.refl _) rfl (L.once c))
  | @perform i c op k ans o hthread hop =>
      have hi := h.calls i
      rw [hthread] at hi
      by_cases hidle : L.idle op
      · -- the object is left alone
        have hvisible : ¬ L.visible (.perform i c ⟨op, ans⟩ : Label Op Ans Call Res ι) := by
          simp [visible, hidle]
        obtain rfl := L.frame _ _ _ _ hidle hop
        refine ⟨a, ?_, h.stutter i ?_⟩
        · rw [if_neg hvisible]
        · generalize a.call i = x at hi
          cases hi with
          | before hreach htr hm =>
              unfold Program.AtMostOnce at hm
              rw [if_pos hidle] at hm
              exact .before (hreach.snoc ans) ((effects_snoc_idle hidle).trans htr) (hm ans)
          | behind hreach htr hm =>
              exact .behind (hreach.snoc ans) ((effects_snoc_idle hidle).trans htr) (hm.2 ans)
      · have hvisible : L.visible (.perform i c ⟨op, ans⟩ : Label Op Ans Call Res ι) := by
          simp [visible, hidle]
        generalize hx : a.call i = x at hi
        cases hi with
        | @before _ _ tr hreach htr hm =>
            unfold Program.AtMostOnce at hm
            rw [if_neg hidle] at hm
            have heffects : Program.effects L.idle (tr ++ [⟨op, ans⟩]) = [⟨op, ans⟩] := by
              rw [effects_snoc hidle, htr]
              rfl
            have hreach := hreach.snoc ans
            refine ⟨⟨o, Function.update a.call i (some (c, some ⟨op, ans⟩))⟩, ?_, ?_⟩
            · rw [if_pos hvisible]
              rw [← h.object] at hop
              exact .perform hx ⟨_, _, hreach, heffects⟩ hop
            · exact h.update o i (.behind hreach heffects (hm ans))
        | behind hreach htr hm => exact absurd hm.1 hidle
  | @respond i c r hthread =>
      have hi := h.calls i
      rw [hthread] at hi
      -- what it returns goes with what it has done
      have hreturns : ∃ effect, a.call i = some (c, effect) ∧ L.Returns c effect.toList r := by
        generalize a.call i = x at hi
        cases hi with
        | before hreach htr hm => exact ⟨none, rfl, _, hreach.trace, htr⟩
        | behind hreach htr hm => exact ⟨some _, rfl, _, hreach.trace, htr⟩
      obtain ⟨effect, hx, hr⟩ := hreturns
      refine ⟨⟨s.object, Function.update a.call i none⟩, ?_, h.update s.object i .outside⟩
      rw [← h.object]
      exact .respond hx hr

/-- **Every run of the threads is a run of the atomic system**, with the same calls, the
same effects and the same results in the same order. -/
theorem linearizable {σ₀ : σ} {ls : List (Label Op Ans Call Res ι)}
    (h : Run L.Step (start σ₀) ls s) :
    ∃ a, Run L.AtomicStep (Atomic.start σ₀) (ls.filter L.visible) a ∧ L.Simulates s a := by
  induction h with
  | nil => exact ⟨Atomic.start σ₀, .nil, rfl, fun _ => .outside⟩
  | @snoc ls s s' l _ hs ih =>
      obtain ⟨a, hrun, hsim⟩ := ih
      obtain ⟨a', hstep, hsim'⟩ := hsim.step hs
      refine ⟨a', ?_, hsim'⟩
      rw [List.filter_append]
      by_cases hl : L.visible l
      · rw [if_pos hl] at hstep
        rw [List.filter_cons_of_pos hl]
        exact .snoc hrun hstep
      · rw [if_neg hl] at hstep
        rw [List.filter_cons_of_neg hl, hstep]
        simpa using hrun

end Calls

end PicoosLwip.Framework
