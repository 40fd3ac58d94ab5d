/-
  PicoosLwip.Framework.Tally — what calls give to an object and take from it.

  Each effect on the object may add to a quantity of it or take from it; each result of a
  call says how much that was.  While calls are in progress the two accounts may differ,
  by what has taken effect and has not been reported yet.

  A tally counts; an account of things that are moved keeps their order too, thread by
  thread: what a thread is told is what it has moved, in that order.

  Main results:
    * `Tally.balance`       — the accounts of a run of the atomic system;
    * `Tally.balance_quiet` — those of the threads, when no call is in progress;
    * `Account.in_order`    — what one thread has moved, and what it has been told.
-/
import Mathlib.Algebra.BigOperators.Group.Finset.Basic
import PicoosLwip.Framework.Linearize

namespace PicoosLwip.Framework.Calls

variable {σ Op Call ι : Type} {Ans : Op → Type} {Res : Call → Type}

/-! ## §1. The effects of calls in progress. -/

/-- The effects of the calls in progress are among those of the run. -/
theorem effect_of_run [DecidableEq ι] {L : Calls σ Op Ans Call Res}
    {P : Program.Step Op Ans → Prop} {σ₀ : σ} {ls : List (Label Op Ans Call Res ι)}
    {a : Atomic σ Op Ans Call ι} (h : Run L.AtomicStep (Atomic.start σ₀) ls a)
    (hls : ∀ l ∈ ls, ∀ e ∈ l.effect, P e) {i : ι} {c : Call} {e : Option (Program.Step Op Ans)}
    (hcall : a.call i = some (c, e)) : ∀ x ∈ e, P x := by
  induction h generalizing i c e with
  | nil => exact absurd hcall nofun
  | @snoc ls a a' l _ hs ih =>
      obtain ⟨hls, hl⟩ := List.forall_mem_append.mp hls
      have hl := hl l (List.mem_singleton.mpr rfl)
      -- the thread that moves, or another one
      have hother : ∀ j x, Function.update a.call j x i = some (c, e) →
          (x = some (c, e) → ∀ y ∈ e, P y) → ∀ y ∈ e, P y := by
        intro j x hupdate hx
        by_cases hij : i = j
        · subst hij
          exact hx (Function.update_self i x a.call ▸ hupdate)
        · exact ih hls (Function.update_of_ne hij x a.call ▸ hupdate)
      cases hs with
      | invoke c' h =>
          refine hother _ _ hcall fun heq => ?_
          obtain ⟨-, rfl⟩ := Prod.mk.inj (Option.some.inj heq)
          simp
      | @perform j c' e' o h hc hop =>
          refine hother _ _ hcall fun heq => ?_
          obtain ⟨-, rfl⟩ := Prod.mk.inj (Option.some.inj heq)
          intro y hy
          obtain rfl := Option.mem_some.mp hy
          exact hl e' rfl
      | respond h hr => exact hother _ _ hcall nofun

/-! ## §2. Quantities. -/

/-- A quantity of the object, with the accounts of the effects and those of the results. -/
structure Tally (L : Calls σ Op Ans Call Res) where
  value : σ → Nat
  gain : Program.Step Op Ans → Nat
  loss : Program.Step Op Ans → Nat
  credit : (c : Call) → Res c → Nat
  debit : (c : Call) → Res c → Nat
  /-- The effects and the calls that are accounted for. -/
  effect : Program.Step Op Ans → Prop
  call : Call → Prop
  kept : ∀ s e s', effect e → L.env s e.1 e.2 s' → value s + gain e = loss e + value s'
  credited : ∀ c (e : Option (Program.Step Op Ans)) r, call c → (∀ x ∈ e, effect x) →
    L.Returns c e.toList r → credit c r = e.elim 0 gain
  debited : ∀ c (e : Option (Program.Step Op Ans)) r, call c → (∀ x ∈ e, effect x) →
    L.Returns c e.toList r → debit c r = e.elim 0 loss

/-- What a result reports. -/
def Label.reported (f : (c : Call) → Res c → Nat) : Label Op Ans Call Res ι → Nat
  | .respond _ c r => f c r
  | _ => 0

/-- What results report, in all. -/
def reports (f : (c : Call) → Res c → Nat) : List (Label Op Ans Call Res ι) → Nat
  | [] => 0
  | l :: ls => Label.reported f l + reports f ls

/-- Label by label. -/
theorem reports_cons (f : (c : Call) → Res c → Nat) (l : Label Op Ans Call Res ι)
    (ls : List (Label Op Ans Call Res ι)) :
    reports f (l :: ls) = Label.reported f l + reports f ls := rfl

/-- Two runs in a row. -/
@[simp] theorem reports_append (f : (c : Call) → Res c → Nat)
    (ls ks : List (Label Op Ans Call Res ι)) :
    reports f (ls ++ ks) = reports f ls + reports f ks := by
  induction ls with
  | nil => exact (Nat.zero_add _).symm
  | cons l ls ih => rw [List.cons_append, reports_cons, reports_cons, ih, Nat.add_assoc]

/-- Operations without an effect report nothing. -/
theorem reports_visible (L : Calls σ Op Ans Call Res) (f : (c : Call) → Res c → Nat)
    (ls : List (Label Op Ans Call Res ι)) : reports f (ls.filter L.visible) = reports f ls := by
  induction ls with
  | nil => rfl
  | cons l ls ih =>
      by_cases hl : L.visible l
      · rw [List.filter_cons_of_pos hl, reports_cons, reports_cons, ih]
      · rw [List.filter_cons_of_neg hl, reports_cons, ih]
        cases l with
        | perform i c e => exact (Nat.zero_add _).symm
        | invoke i c => exact absurd rfl hl
        | respond i c r => exact absurd rfl hl

/-- What a call in progress has done and not reported. -/
def unreported (f : Program.Step Op Ans → Nat) :
    Option (Call × Option (Program.Step Op Ans)) → Nat
  | some (_, some e) => f e
  | _ => 0

@[simp] theorem unreported_none (f : Program.Step Op Ans → Nat) :
    unreported f (none : Option (Call × Option (Program.Step Op Ans))) = 0 := rfl

@[simp] theorem unreported_begun (f : Program.Step Op Ans → Nat) (c : Call) :
    unreported f (some (c, none)) = 0 := rfl

@[simp] theorem unreported_done (f : Program.Step Op Ans → Nat) (c : Call)
    (e : Program.Step Op Ans) : unreported f (some (c, some e)) = f e := rfl

namespace Tally

variable {L : Calls σ Op Ans Call Res} (T : L.Tally)

/-- The label is accounted for. -/
def Admits : Label Op Ans Call Res ι → Prop
  | .invoke _ _ => True
  | .perform _ _ e => T.effect e
  | .respond _ c _ => T.call c

variable [Fintype ι] [DecidableEq ι]

/-- One place of a sum is changed. -/
theorem sum_update {τ : Type} (g : τ → Nat) (f : ι → τ) (i : ι) (x : τ) :
    (∑ j, g (Function.update f i x j)) + g (f i) = (∑ j, g (f j)) + g x := by
  have hothers : ∑ j ∈ Finset.univ.erase i, g (Function.update f i x j)
      = ∑ j ∈ Finset.univ.erase i, g (f j) := by
    apply Finset.sum_congr rfl
    intro j hj
    rw [Function.update_of_ne (Finset.ne_of_mem_erase hj)]
  rw [← Finset.add_sum_erase _ _ (Finset.mem_univ i), hothers, Function.update_self,
    ← Finset.add_sum_erase Finset.univ (fun j => g (f j)) (Finset.mem_univ i)]
  omega

omit [Fintype ι] [DecidableEq ι] in
variable {T} in
/-- Every effect of an admitted label is admitted. -/
theorem Admits.effect {l : Label Op Ans Call Res ι} (h : T.Admits l) :
    ∀ e ∈ l.effect, T.effect e := by
  intro e he
  cases l with
  | perform i c x =>
      obtain rfl := Option.some.inj he
      exact h
  | invoke i c | respond i c r => exact absurd he nofun

/-- **The accounts of a run**: what was there and came in is what went out and is there,
with what is not reported yet on both sides. -/
theorem balance {σ₀ : σ} {ls : List (Label Op Ans Call Res ι)} {a : Atomic σ Op Ans Call ι}
    (h : Run L.AtomicStep (Atomic.start σ₀) ls a) (hls : ∀ l ∈ ls, T.Admits l) :
    T.value σ₀ + reports T.credit ls + ∑ i, unreported T.gain (a.call i)
      = reports T.debit ls + ∑ i, unreported T.loss (a.call i) + T.value a.object := by
  induction h with
  | nil =>
      have hnone : ∀ f : Program.Step Op Ans → Nat,
          ∑ i : ι, unreported f ((Atomic.start σ₀ : Atomic σ Op Ans Call ι).call i) = 0 :=
        fun f => Finset.sum_eq_zero fun _ _ => rfl
      rw [hnone, hnone]
      show T.value σ₀ + 0 + 0 = 0 + 0 + T.value σ₀
      omega
  | @snoc ls a a' l hrun hs ih =>
      obtain ⟨hbefore, hl⟩ := List.forall_mem_append.mp hls
      have hl := hl l (List.mem_singleton.mpr rfl)
      have ih := ih hbefore
      rw [reports_append, reports_append]
      -- one thread's account changes, and what it says of it
      have hsum : ∀ f i x, (∑ j, unreported f (Function.update a.call i x j))
          + unreported f (a.call i) = (∑ j, unreported f (a.call j)) + unreported f x :=
        fun f i x => sum_update (unreported f) a.call i x
      cases hs with
      | @invoke i c hcall =>
          have hgain := hsum T.gain i (some (c, none))
          have hloss := hsum T.loss i (some (c, none))
          rw [hcall] at hgain hloss
          have hnone : ∀ f : (c : Call) → Res c → Nat,
              reports f [(.invoke i c : Label Op Ans Call Res ι)] = 0 := fun _ => rfl
          rw [hnone, hnone]
          dsimp only
          rw [unreported_none, unreported_begun] at hgain hloss
          omega
      | @perform i c e o hcall hc hop =>
          have hgain := hsum T.gain i (some (c, some e))
          have hloss := hsum T.loss i (some (c, some e))
          rw [hcall] at hgain hloss
          have hnone : ∀ f : (c : Call) → Res c → Nat,
              reports f [(.perform i c e : Label Op Ans Call Res ι)] = 0 := fun _ => rfl
          have hkept := T.kept _ _ _ hl hop
          rw [hnone, hnone]
          dsimp only
          rw [unreported_begun, unreported_done] at hgain hloss
          omega
      | @respond i c effect r hcall hr =>
          have hgain := hsum T.gain i none
          have hloss := hsum T.loss i none
          rw [hcall] at hgain hloss
          have hone : ∀ f : (c : Call) → Res c → Nat,
              reports f [(.respond i c r : Label Op Ans Call Res ι)] = f c r := fun _ => rfl
          have heffect := effect_of_run hrun (fun l hl => (hbefore l hl).effect) hcall
          have hcredit := T.credited c effect r hl heffect hr
          have hdebit := T.debited c effect r hl heffect hr
          rw [hone, hone, hcredit, hdebit]
          dsimp only
          cases effect with
          | none =>
              rw [unreported_none, unreported_begun] at hgain hloss
              rw [Option.elim_none, Option.elim_none]
              omega
          | some e =>
              rw [unreported_none, unreported_done] at hgain hloss
              rw [Option.elim_some, Option.elim_some]
              omega

/-- **When no call is in progress the results say it all.** -/
theorem balance_quiet {σ₀ : σ} {ls : List (Label Op Ans Call Res ι)}
    {s : State σ Op Ans Call Res ι} (h : Run L.Step (start σ₀) ls s)
    (hquiet : ∀ i, s.thread i = none) (hls : ∀ l ∈ ls, L.visible l → T.Admits l) :
    T.value σ₀ + reports T.credit ls = reports T.debit ls + T.value s.object := by
  obtain ⟨a, hrun, hsim⟩ := linearizable h
  have hidle : ∀ i, a.call i = none := by
    intro i
    have hi := hsim.calls i
    rw [hquiet i] at hi
    generalize a.call i = x at hi
    cases hi
    rfl
  have hzero : ∀ f : Program.Step Op Ans → Nat, ∑ i, unreported f (a.call i) = 0 :=
    fun f => Finset.sum_eq_zero fun i _ => by rw [hidle i]; rfl
  have hbalance := T.balance hrun fun l hl => by
    obtain ⟨hmem, hvisible⟩ := List.mem_filter.mp hl
    exact hls l hmem hvisible
  rw [reports_visible, reports_visible, hzero, hzero, hsim.object] at hbalance
  exact hbalance

end Tally

/-! ## §3. Things that are moved, in order. -/

/-- Things of type `α` that effects move, and what results say of them. -/
structure Account (L : Calls σ Op Ans Call Res) (α : Type) where
  moved : Program.Step Op Ans → List α
  report : (c : Call) → Res c → List α
  /-- The effects that are accounted for. -/
  effect : Program.Step Op Ans → Prop
  still : ∀ e, L.idle e.1 → moved e = []
  reported : ∀ c (e : Option (Program.Step Op Ans)) r, (∀ x ∈ e, effect x) →
    L.Returns c e.toList r → report c r = e.elim [] moved

variable {α : Type}

/-- What has been moved, and by whom. -/
def movedBy (f : Program.Step Op Ans → List α) (ls : List (Label Op Ans Call Res ι)) :
    List (ι × α) :=
  ls.flatMap fun
    | .perform i _ e => (f e).map (Prod.mk i)
    | _ => []

/-- What has been reported, and to whom. -/
def toldTo (g : (c : Call) → Res c → List α) (ls : List (Label Op Ans Call Res ι)) :
    List (ι × α) :=
  ls.flatMap fun
    | .respond i c r => (g c r).map (Prod.mk i)
    | _ => []

/-- What a call in progress has moved. -/
def pending (f : Program.Step Op Ans → List α) :
    Option (Call × Option (Program.Step Op Ans)) → List α
  | some (_, some e) => f e
  | _ => []

/-- What is one thread's. -/
def ofThread [DecidableEq ι] (i : ι) (xs : List (ι × α)) : List α :=
  (xs.filter fun x => x.1 = i).map Prod.snd

section Threads

variable [DecidableEq ι]

/-- Two lists in a row. -/
theorem ofThread_append (i : ι) (xs ys : List (ι × α)) :
    ofThread i (xs ++ ys) = ofThread i xs ++ ofThread i ys := by
  unfold ofThread
  rw [List.filter_append, List.map_append]

/-- All of it is the thread's own. -/
theorem ofThread_own (i : ι) (xs : List α) : ofThread i (xs.map (Prod.mk i)) = xs := by
  induction xs with
  | nil => rfl
  | cons x xs ih =>
      unfold ofThread at ih ⊢
      rw [List.map_cons, List.filter_cons_of_pos (by simp), List.map_cons, ih]

/-- None of it is another's. -/
theorem ofThread_other {i j : ι} (h : j ≠ i) (xs : List α) :
    ofThread i (xs.map (Prod.mk j)) = [] := by
  induction xs with
  | nil => rfl
  | cons x xs ih =>
      unfold ofThread at ih ⊢
      rw [List.map_cons, List.filter_cons_of_neg (by simpa using h), ih]

end Threads

namespace Account

variable {L : Calls σ Op Ans Call Res} (A : L.Account α)

/-- What is got from the labels of a run is got from those that are seen, if the others have
nothing. -/
theorem flatMap_visible {β : Type} {f : Label Op Ans Call Res ι → List β}
    (h : ∀ i c e, L.idle e.1 → f (.perform i c e) = []) (ls : List (Label Op Ans Call Res ι)) :
    (ls.filter L.visible).flatMap f = ls.flatMap f := by
  induction ls with
  | nil => rfl
  | cons l ls ih =>
      by_cases hl : L.visible l
      · rw [List.filter_cons_of_pos hl, List.flatMap_cons, List.flatMap_cons, ih]
      · rw [List.filter_cons_of_neg hl, List.flatMap_cons, ih]
        -- what is not seen is an operation without an effect
        cases l with
        | perform i c e =>
            have hidle : L.idle e.1 := by simpa [visible] using hl
            rw [h i c e hidle, List.nil_append]
        | invoke i c => exact absurd rfl hl
        | respond i c r => exact absurd rfl hl

/-- Operations without an effect move nothing. -/
theorem movedBy_visible (ls : List (Label Op Ans Call Res ι)) :
    movedBy A.moved (ls.filter L.visible) = movedBy A.moved ls := by
  refine flatMap_visible (fun i c e hidle => ?_) ls
  show (A.moved e).map (Prod.mk i) = []
  rw [A.still e hidle, List.map_nil]

/-- What is told can be seen. -/
theorem toldTo_visible (ls : List (Label Op Ans Call Res ι)) :
    toldTo A.report (ls.filter L.visible) = toldTo A.report ls :=
  flatMap_visible (fun _ _ _ _ => rfl) ls

variable [DecidableEq ι]

/-- **One thread's account**: it has been told of what it has moved, in that order, less what
its call in progress has moved. -/
theorem balance {σ₀ : σ} {ls : List (Label Op Ans Call Res ι)} {a : Atomic σ Op Ans Call ι}
    (h : Run L.AtomicStep (Atomic.start σ₀) ls a) (hls : ∀ l ∈ ls, ∀ e ∈ l.effect, A.effect e)
    (i : ι) : ofThread i (movedBy A.moved ls)
      = ofThread i (toldTo A.report ls) ++ pending A.moved (a.call i) := by
  induction h with
  | nil => rfl
  | @snoc ls a a' l hrun hs ih =>
      obtain ⟨hbefore, hl⟩ := List.forall_mem_append.mp hls
      have ih := ih hbefore
      unfold movedBy toldTo at ih ⊢
      rw [List.flatMap_append, List.flatMap_append, ofThread_append, ofThread_append, ih,
        List.flatMap_singleton, List.flatMap_singleton]
      cases hs with
      | @invoke j c hcall =>
          -- the call begins, and has moved nothing yet
          show _ ++ [] = _ ++ [] ++ pending A.moved (Function.update a.call j (some (c, none)) i)
          by_cases hij : i = j
          · subst hij
            rw [hcall, Function.update_self]
            rfl
          · rw [Function.update_of_ne hij, List.append_nil, List.append_nil]
      | @perform j c e o hcall hc hop =>
          -- what it moves is pending until it returns
          show _ ++ ofThread i ((A.moved e).map (Prod.mk j))
            = _ ++ [] ++ pending A.moved (Function.update a.call j (some (c, some e)) i)
          by_cases hij : i = j
          · subst hij
            rw [hcall, Function.update_self, ofThread_own, List.append_nil]
            exact congrArg (· ++ A.moved e) (List.append_nil _)
          · rw [Function.update_of_ne hij, ofThread_other (Ne.symm hij), List.append_nil,
              List.append_nil]
      | @respond j c effect r hcall hr =>
          -- it returns, and reports what was pending
          show _ ++ [] = _ ++ ofThread i ((A.report c r).map (Prod.mk j))
            ++ pending A.moved (Function.update a.call j none i)
          by_cases hij : i = j
          · subst hij
            have hreport := A.reported c effect r (effect_of_run hrun hbefore hcall) hr
            rw [hcall, Function.update_self, ofThread_own, hreport]
            cases effect <;> simp [pending]
          · rw [Function.update_of_ne hij, ofThread_other (Ne.symm hij), List.append_nil,
              List.append_nil]

/-- **What a thread is told is what it has moved**, in that order; its call in progress may
have moved something more. -/
theorem in_order {σ₀ : σ} {ls : List (Label Op Ans Call Res ι)} {s : State σ Op Ans Call Res ι}
    (h : Run L.Step (start σ₀) ls s)
    (hls : ∀ l ∈ ls, L.visible l → ∀ e ∈ l.effect, A.effect e) (i : ι) :
    ∃ now, ofThread i (movedBy A.moved ls) = ofThread i (toldTo A.report ls) ++ now
      ∧ (now = [] ∨ s.thread i ≠ none ∧ ∃ e, now = A.moved e) := by
  obtain ⟨a, hrun, hsim⟩ := linearizable h
  have hbalance := A.balance hrun (fun l hl => by
    obtain ⟨hmem, hvisible⟩ := List.mem_filter.mp hl
    exact hls l hmem hvisible) i
  rw [A.movedBy_visible, A.toldTo_visible] at hbalance
  refine ⟨_, hbalance, ?_⟩
  have hi := hsim.calls i
  generalize a.call i = x at hi
  generalize s.thread i = t at hi
  cases hi with
  | outside | before h htr hm => exact .inl rfl
  | behind h htr hm => exact .inr ⟨Option.some_ne_none _, _, rfl⟩

end Account

end PicoosLwip.Framework.Calls
