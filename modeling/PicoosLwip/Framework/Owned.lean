/-
  PicoosLwip.Framework.Owned — threads that keep to what is theirs.

  Threads call functions that work on a shared state, one operation at a time and in any
  order.  Each thread has a part of the state for itself, a RESOURCE; an operation changes
  the resource of its own thread only, as long as the thread stays inside it.  The threads
  know less than that: a VIEW, by which they choose their calls, and parts of which they
  hand on to each other.

  Rules:
    * `Safe.bind/perform/mono` — a function stays inside its resource;
    * `Owned.Sound.step`       — one step of one thread leaves the others' alone;
    * `Owned.sound_of_run`     — at any time of any run the resources are apart.
-/
import PicoosLwip.Framework.Environment
import PicoosLwip.Framework.Run

namespace PicoosLwip.Framework

variable {σ Op Call ι υ ρ α β : Type} {Ans : Op → Type} {Res : Call → Type}

/-! ## §1. Functions. -/

/-- What an operation needs of a resource, and what it makes of it. -/
structure Footprint (Op : Type) (Ans : Op → Type) (ρ : Type) where
  pre : ρ → Op → Prop
  post : ρ → (op : Op) → Ans op → ρ → Prop

/-- From the resource `r` on, the program has what each of its operations needs; it keeps
`I`, and returns with `Q`. -/
def Safe (F : Footprint Op Ans ρ) (I : ρ → Prop) (Q : α → ρ → Prop) : ρ → Program Op Ans α → Prop
  | r, .ret a => I r ∧ Q a r
  | r, .call op k => I r ∧ F.pre r op ∧ ∀ ans r', F.post r op ans r' → Safe F I Q r' (k ans)

namespace Safe

variable {F : Footprint Op Ans ρ} {I : ρ → Prop} {Q : α → ρ → Prop} {r : ρ}

/-- The invariant holds at the start. -/
theorem keeps {m : Program Op Ans α} (h : Safe F I Q r m) : I r := by
  cases m with
  | ret a => exact h.1
  | call op k => exact h.1

/-- A result without operations. -/
theorem pure {a : α} (hI : I r) (hQ : Q a r) : Safe F I Q r (pure a : Program Op Ans α) := ⟨hI, hQ⟩

/-- An operation, and what goes on behind it. -/
theorem perform {op : Op} {f : Ans op → Program Op Ans α} (hI : I r) (hpre : F.pre r op)
    (h : ∀ ans r', F.post r op ans r' → Safe F I Q r' (f ans)) :
    Safe F I Q r (Program.perform op >>= f) := ⟨hI, hpre, h⟩

/-- A weaker postcondition. -/
theorem mono {Q' : α → ρ → Prop} (hQ : ∀ a r, Q a r → Q' a r) {m : Program Op Ans α}
    (h : Safe F I Q r m) : Safe F I Q' r m := by
  induction m generalizing r with
  | ret a => exact ⟨h.1, hQ _ _ h.2⟩
  | call op k ih => exact ⟨h.1, h.2.1, fun ans r' hpost => ih ans (h.2.2 ans r' hpost)⟩

/-- **The bind rule**: the second program is safe wherever the first one stops. -/
theorem bind {Q' : β → ρ → Prop} {m : Program Op Ans α} {f : α → Program Op Ans β}
    (h : Safe F I (fun a r' => Safe F I Q' r' (f a)) r m) : Safe F I Q' r (m >>= f) := by
  induction m generalizing r with
  | ret a => exact h.2
  | call op k ih => exact ⟨h.1, h.2.1, fun ans r' hpost => ih ans (h.2.2 ans r' hpost)⟩

end Safe

/-! ## §2. Threads. -/

/-- Functions over a shared state `σ`, views `υ` and resources `ρ`. -/
structure Owned (σ Op : Type) (Ans : Op → Type) (Call : Type) (Res : Call → Type) (υ ρ : Type) where
  env : Program.Env σ Op Ans
  body : (c : Call) → Program Op Ans (Res c)
  allowed : υ → Call → Prop
  after : υ → (c : Call) → Res c → υ
  /-- Two views, and what they are when something was handed on. -/
  gives : υ × υ → υ × υ → Prop
  /-- The resource is a part of the state. -/
  valid : σ → ρ → Prop
  apart : ρ → ρ → Prop
  apart_symm : ∀ r q, apart r q → apart q r
  /-- A thread with this view has this resource, when it is in no call. -/
  holds : υ → ρ → Prop
  /-- What a call keeps all along of the resource it started with. -/
  during : υ → Call → ρ → ρ → Prop
  footprint : Call → Footprint Op Ans ρ
  /-- An operation inside one resource leaves those apart from it alone. -/
  inside : ∀ c s r op ans s', valid s r → (footprint c).pre r op → env s op ans s' →
    ∃ r', (footprint c).post r op ans r' ∧ valid s' r'
      ∧ ∀ q, valid s q → apart r q → valid s' q ∧ apart r' q
  safe : ∀ v c r, allowed v c → holds v r →
    Safe (footprint c) (during v c r) (fun res => holds (after v c res)) r (body c)
  /-- What is handed on moves from one resource to the other. -/
  handed : ∀ v w v' w' r q, gives (v, w) (v', w') → holds v r → holds w q → apart r q →
    ∃ r' q', holds v' r' ∧ holds w' q' ∧ apart r' q'
      ∧ (∀ s, valid s r → valid s q → valid s r' ∧ valid s q')
      ∧ ∀ x, apart r x → apart q x → apart r' x ∧ apart q' x

namespace Owned

/-- What happens. -/
inductive Label (Op : Type) (Ans : Op → Type) (Call : Type) (Res : Call → Type) (ι : Type)
  | invoke (i : ι) (c : Call)
  | perform (i : ι) (c : Call) (op : Op) (ans : Ans op)
  | respond (i : ι) (c : Call) (res : Res c)
  | give (i j : ι)

/-- The shared state, what each thread knows, and what is left of its call. -/
structure State (σ Op : Type) (Ans : Op → Type) (Call : Type) (Res : Call → Type) (υ ι : Type) where
  object : σ
  view : ι → υ
  thread : ι → Option ((c : Call) × Program Op Ans (Res c))

variable [DecidableEq ι] (L : Owned σ Op Ans Call Res υ ρ)

/-- Threads make calls they are allowed, perform the operations one by one, and take the
results into their views. -/
inductive Step : State σ Op Ans Call Res υ ι → Label Op Ans Call Res ι →
    State σ Op Ans Call Res υ ι → Prop
  | invoke {s : State σ Op Ans Call Res υ ι} {i : ι} (c : Call) (h : s.thread i = none)
      (hc : L.allowed (s.view i) c) :
      Step s (.invoke i c) { s with thread := Function.update s.thread i (some ⟨c, L.body c⟩) }
  | perform {s : State σ Op Ans Call Res υ ι} {i : ι} {c : Call} {op : Op}
      {k : Ans op → Program Op Ans (Res c)} {ans : Ans op} {o : σ}
      (h : s.thread i = some ⟨c, .call op k⟩) (hop : L.env s.object op ans o) :
      Step s (.perform i c op ans)
        { s with object := o, thread := Function.update s.thread i (some ⟨c, k ans⟩) }
  | respond {s : State σ Op Ans Call Res υ ι} {i : ι} {c : Call} {res : Res c}
      (h : s.thread i = some ⟨c, .ret res⟩) :
      Step s (.respond i c res)
        { s with view := Function.update s.view i (L.after (s.view i) c res),
                 thread := Function.update s.thread i none }
  | give {s : State σ Op Ans Call Res υ ι} {i j : ι} {v w : υ} (hij : i ≠ j)
      (hi : s.thread i = none) (hj : s.thread j = none)
      (h : L.gives (s.view i, s.view j) (v, w)) :
      Step s (.give i j) { s with view := Function.update (Function.update s.view i v) j w }

/-! ## §3. The invariant. -/

/-- A thread's view and call, and its resource. -/
def ThreadSound (v : υ) : Option ((c : Call) × Program Op Ans (Res c)) → ρ → Prop
  | none, r => L.holds v r
  | some ⟨c, m⟩, r => L.allowed v c ∧ ∃ r₀, L.holds v r₀
      ∧ Safe (L.footprint c) (L.during v c r₀) (fun res => L.holds (L.after v c res)) r m

/-- Each thread has a resource, and they are apart. -/
structure Sound (s : State σ Op Ans Call Res υ ι) (R : ι → ρ) : Prop where
  valid : ∀ i, L.valid s.object (R i)
  apart : ∀ i j, i ≠ j → L.apart (R i) (R j)
  thread : ∀ i, L.ThreadSound (s.view i) (s.thread i) (R i)

variable {L} {s s' : State σ Op Ans Call Res υ ι} {R : ι → ρ}

omit [DecidableEq ι] in
/-- A thread without a call owns what its view says. -/
theorem Sound.of_idle (h : L.Sound s R) {i : ι} (hi : s.thread i = none) :
    L.holds (s.view i) (R i) := by
  have hthread := h.thread i
  rw [hi] at hthread
  exact hthread

/-- One thread's resource changes. -/
theorem Sound.update (h : L.Sound s R) {i : ι} {o : σ} {r : ρ} (hvalid : L.valid o r)
    (hframe : ∀ q, L.valid s.object q → L.apart (R i) q → L.valid o q ∧ L.apart r q) :
    (∀ j, L.valid o (Function.update R i r j))
      ∧ ∀ j k, j ≠ k → L.apart (Function.update R i r j) (Function.update R i r k) := by
  -- the others are framed: still valid, and apart from the new one
  have hothers : ∀ j, j ≠ i → L.valid o (R j) ∧ L.apart r (R j) := fun j hj =>
    hframe _ (h.valid j) (h.apart i j (Ne.symm hj))
  constructor
  · intro j
    by_cases hj : j = i
    · subst hj
      rw [Function.update_self]
      exact hvalid
    · rw [Function.update_of_ne hj]
      exact (hothers j hj).1
  · intro j k hjk
    by_cases hj : j = i
    · subst hj
      rw [Function.update_self, Function.update_of_ne (Ne.symm hjk)]
      exact (hothers k (Ne.symm hjk)).2
    · rw [Function.update_of_ne hj]
      by_cases hk : k = i
      · subst hk
        rw [Function.update_self]
        exact L.apart_symm _ _ (hothers j hj).2
      · rw [Function.update_of_ne hk]
        exact h.apart j k hjk

/-- **One operation**: what it needs was there, and only its thread's resource changes. -/
theorem Sound.perform (h : L.Sound s R) {i : ι} {c : Call} {op : Op}
    {k : Ans op → Program Op Ans (Res c)} {ans : Ans op} {o : σ}
    (hthread : s.thread i = some ⟨c, .call op k⟩) (hop : L.env s.object op ans o) :
    (L.footprint c).pre (R i) op ∧ ∃ r, (L.footprint c).post (R i) op ans r
      ∧ L.Sound { s with object := o, thread := Function.update s.thread i (some ⟨c, k ans⟩) }
          (Function.update R i r)
      ∧ ∃ r₀, L.during (s.view i) c r₀ (R i) ∧ L.during (s.view i) c r₀ r := by
  have hi := h.thread i
  rw [hthread] at hi
  obtain ⟨hallowed, r₀, hholds, hduring, hpre, hrest⟩ := hi
  obtain ⟨r, hpost, hvalid, hframe⟩ := L.inside c _ _ _ _ _ (h.valid i) hpre hop
  obtain ⟨hvalids, haparts⟩ := h.update hvalid hframe
  refine ⟨hpre, r, hpost, ⟨hvalids, haparts, fun j => ?_⟩, r₀, hduring, (hrest ans r hpost).keeps⟩
  show L.ThreadSound (s.view j) (Function.update s.thread i (some ⟨c, k ans⟩) j)
    (Function.update R i r j)
  by_cases hj : j = i
  · subst hj
    rw [Function.update_self, Function.update_self]
    exact ⟨hallowed, r₀, hholds, hrest ans r hpost⟩
  · rw [Function.update_of_ne hj, Function.update_of_ne hj]
    exact h.thread j

/-- **One step.** -/
theorem Sound.step {l : Label Op Ans Call Res ι} (h : L.Sound s R) (hs : L.Step s l s') :
    ∃ R', L.Sound s' R' := by
  cases hs with
  | @invoke i c hidle hallowed =>
      refine ⟨R, h.valid, h.apart, fun j => ?_⟩
      show L.ThreadSound (s.view j) (Function.update s.thread i (some ⟨c, L.body c⟩) j) (R j)
      by_cases hj : j = i
      · subst hj
        rw [Function.update_self]
        exact ⟨hallowed, R j, h.of_idle hidle, L.safe _ _ _ hallowed (h.of_idle hidle)⟩
      · rw [Function.update_of_ne hj]
        exact h.thread j
  | perform hthread hop =>
      obtain ⟨-, r, -, hsound, -⟩ := h.perform hthread hop
      exact ⟨_, hsound⟩
  | @respond i c res hthread =>
      refine ⟨R, h.valid, h.apart, fun j => ?_⟩
      show L.ThreadSound (Function.update s.view i (L.after (s.view i) c res) j)
        (Function.update s.thread i none j) (R j)
      by_cases hj : j = i
      · subst hj
        rw [Function.update_self, Function.update_self]
        have hj := h.thread j
        rw [hthread] at hj
        obtain ⟨-, r₀, -, -, hafter⟩ := hj
        exact hafter
      · rw [Function.update_of_ne hj, Function.update_of_ne hj]
        exact h.thread j
  | @give i j v w hij hi hj hgives =>
      obtain ⟨r, q, hr, hq, hrq, hvalid, hframe⟩ := L.handed _ _ _ _ _ _ hgives (h.of_idle hi)
        (h.of_idle hj) (h.apart i j hij)
      obtain ⟨hvr, hvq⟩ := hvalid _ (h.valid i) (h.valid j)
      have hothers : ∀ x, x ≠ i → x ≠ j → L.apart r (R x) ∧ L.apart q (R x) := fun x hxi hxj =>
        hframe _ (h.apart i x (Ne.symm hxi)) (h.apart j x (Ne.symm hxj))
      -- the resource of each thread now
      have hR : ∀ x, Function.update (Function.update R i r) j q x
          = if x = j then q else if x = i then r else R x := by
        intro x
        by_cases hxj : x = j
        · subst hxj
          rw [Function.update_self, if_pos rfl]
        · rw [Function.update_of_ne hxj, if_neg hxj]
          by_cases hxi : x = i
          · subst hxi
            rw [Function.update_self, if_pos rfl]
          · rw [Function.update_of_ne hxi, if_neg hxi]
      refine ⟨Function.update (Function.update R i r) j q, ?_, ?_, ?_⟩
      · intro x
        rw [hR]
        split
        · exact hvq
        · split
          · exact hvr
          · exact h.valid x
      · intro x y hxy
        rw [hR, hR]
        by_cases hxj : x = j
        · have hyj : ¬ y = j := fun hy => hxy (hxj.trans hy.symm)
          rw [if_pos hxj, if_neg hyj]
          split
          · exact L.apart_symm _ _ hrq
          · next hyi => exact (hothers y hyi hyj).2
        · rw [if_neg hxj]
          by_cases hxi : x = i
          · have hyi : ¬ y = i := fun hy => hxy (hxi.trans hy.symm)
            rw [if_pos hxi, if_neg hyi]
            split
            · exact hrq
            · next hyj => exact (hothers y hyi hyj).1
          · rw [if_neg hxi]
            split
            · exact L.apart_symm _ _ (hothers x hxi hxj).2
            · split
              · exact L.apart_symm _ _ (hothers x hxi hxj).1
              · exact h.apart x y hxy
      · intro x
        rw [hR]
        show L.ThreadSound (Function.update (Function.update s.view i v) j w x) (s.thread x) _
        by_cases hxj : x = j
        · subst hxj
          rw [Function.update_self, if_pos rfl, hj]
          exact hq
        · rw [Function.update_of_ne hxj, if_neg hxj]
          by_cases hxi : x = i
          · subst hxi
            rw [Function.update_self, if_pos rfl, hi]
            exact hr
          · rw [Function.update_of_ne hxi, if_neg hxi]
            exact h.thread x

/-- **The invariant rule**: at any time of any run. -/
theorem sound_of_run {s₀ : State σ Op Ans Call Res υ ι} {ls : List (Label Op Ans Call Res ι)}
    (h₀ : ∃ R, L.Sound s₀ R) (h : Run L.Step s₀ ls s) : ∃ R, L.Sound s R := by
  apply h.invariant (fun s => ∃ R, L.Sound s R) h₀
  rintro s l s' ⟨R, hsound⟩ hs
  exact hsound.step hs

end Owned

end PicoosLwip.Framework
