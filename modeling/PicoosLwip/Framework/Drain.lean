/-
  PicoosLwip.Framework.Drain — a queue that is drained until a poll comes back empty.

  A `Station` has a queue of items, resources that it tries to get for them, and a
  log.  One poll takes the first item, if there is one, tries to get what it needs
  and writes down what became of it.  It reports failure both where the queue was
  empty and where the try failed, and the loop that polls knows no better: it
  ends at either.

  Main results:
    * `Drain.accounts`   — the items taken are a prefix of the queue, and the log
                           grew by what became of each, in order;
    * `Drain.empty_iff`  — the queue is empty at the end exactly when the try for
                           every item but the last succeeds;
    * `Drain.of_while`   — a loop whose rounds are polls;
    * `InOrder.arrive/poll` — where items come in between the polls, what came in is
                           what was taken and what is in the queue, in order.
-/
import Mathlib.Data.List.Basic
import Mathlib.Data.List.Forall2
import PicoosLwip.Framework.Environment

namespace PicoosLwip.Framework

/-- Items of type `α`, log entries of type `ε`. -/
structure Station (α ε : Type) where
  queue : List α
  /-- How many tries there have been. -/
  tries : Nat
  log : List ε

section Drain

variable {α ε : Type} {gets : Nat → Bool} {outcome : α → Bool → List ε → Prop}
  {s s' : Station α ε}

/-- One poll: `gets n` is whether the try number `n` succeeds, `outcome x ok l` that
`l` may be written down for the item `x` then. -/
inductive Poll (gets : Nat → Bool) (outcome : α → Bool → List ε → Prop) :
    Station α ε → Bool → Station α ε → Prop
  | idle {n : Nat} {log : List ε} : Poll gets outcome ⟨[], n, log⟩ false ⟨[], n, log⟩
  | taken {x : α} {queue : List α} {n : Nat} {log l : List ε} {ok : Bool} (htry : gets n = ok)
      (h : outcome x ok l) : Poll gets outcome ⟨x :: queue, n, log⟩ ok ⟨queue, n + 1, log ++ l⟩

/-- Polls until one reports failure. -/
inductive Drain (gets : Nat → Bool) (outcome : α → Bool → List ε → Prop) :
    Station α ε → Station α ε → Prop
  | exit {s s' : Station α ε} (h : Poll gets outcome s false s') : Drain gets outcome s s'
  | again {s s₁ s' : Station α ε} (h : Poll gets outcome s true s₁)
      (hrest : Drain gets outcome s₁ s') : Drain gets outcome s s'

/-- **Every item taken is accounted for**, once and in order. -/
theorem Drain.accounts (h : Drain gets outcome s s') :
    ∃ xs ls, xs ++ s'.queue = s.queue ∧ s'.log = s.log ++ ls.flatten
      ∧ List.Forall₂ (fun x l => ∃ ok, outcome x ok l) xs ls := by
  induction h with
  | exit hpoll =>
      cases hpoll with
      | idle => exact ⟨[], [], rfl, (List.append_nil _).symm, .nil⟩
      | @taken x queue n log l _ _ hout => exact ⟨[x], [l], rfl, by simp, .cons ⟨_, hout⟩ .nil⟩
  | again hpoll _ ih =>
      obtain ⟨xs, ls, hqueue, hlog, hall⟩ := ih
      cases hpoll with
      | @taken x queue n log l _ _ hout =>
          refine ⟨x :: xs, l :: ls, congrArg (x :: ·) hqueue, ?_, .cons ⟨_, hout⟩ hall⟩
          rw [hlog, List.flatten_cons, List.append_assoc]

/-- **When nothing is left behind**: the try for every item with another one behind
it succeeds. -/
theorem Drain.empty_iff (h : Drain gets outcome s s') :
    s'.queue = [] ↔ ∀ i, i + 1 < s.queue.length → gets (s.tries + i) = true := by
  induction h with
  | exit hpoll =>
      cases hpoll with
      | idle => exact iff_of_true rfl fun i hi => absurd hi (Nat.not_lt_zero _)
      | @taken x queue n log l _ htry hout =>
          cases queue with
          | nil =>
              refine iff_of_true rfl fun i hi => ?_
              simp only [List.length_cons, List.length_nil] at hi
              omega
          | cons y queue =>
              -- the loop ends here, with `y` in the queue
              refine iff_of_false (by simp) fun hall => ?_
              have hfirst : gets n = true := hall 0 (by simp)
              rw [htry] at hfirst
              exact absurd hfirst (by decide)
  | again hpoll _ ih =>
      cases hpoll with
      | @taken x queue n log l _ htry hout =>
          rw [ih]
          show (∀ i, i + 1 < queue.length → gets (n + 1 + i) = true)
            ↔ ∀ i, i + 1 < queue.length + 1 → gets (n + i) = true
          constructor
          · intro hlater i hi
            cases i with
            | zero => exact htry
            | succ i =>
                have hnext := hlater i (by omega)
                rwa [Nat.add_right_comm] at hnext
          · intro hall i hi
            have hnext := hall (i + 1) (by omega)
            rwa [← Nat.add_assoc, Nat.add_right_comm] at hnext

/-- **A loop whose rounds are polls drains**, as far as `view` shows its states. -/
theorem Drain.of_while {σ Op ι : Type} {Ans : Op → Type} {env : Program.Env σ Op Ans}
    {body : ι → Program Op Ans (Option Bool)} (view : σ → Station α ε)
    (hround : ∀ i s b s', Program.Exec env s (body i) (some b) s' →
      Poll gets outcome (view s) b (view s'))
    {s s' : σ} (h : Program.WhileExec env body s s') : Drain gets outcome (view s) (view s') := by
  induction h with
  | exit hexec => exact .exit (hround _ _ _ _ hexec)
  | again hexec _ ih => exact .again (hround _ _ _ _ hexec) ih

/-! ## §2. Items that come in between the polls. -/

/-- The items that came in are those that were taken and, behind them, those in the queue;
the log says of each that was taken what became of it, in the same order. -/
structure Station.InOrder (valid : α → Prop) (outcome : α → Bool → List ε → Prop)
    (arrived : List α) (s : Station α ε) : Prop where
  valid : ∀ x ∈ arrived, valid x
  accounted : ∃ xs ls, xs ++ s.queue = arrived ∧ s.log = ls.flatten
    ∧ List.Forall₂ (fun x l => ∃ ok, outcome x ok l) xs ls

variable {valid : α → Prop} {arrived : List α}

/-- At the start. -/
theorem Station.InOrder.empty (n : Nat) : Station.InOrder valid outcome [] ⟨[], n, []⟩ :=
  ⟨fun _ h => absurd h List.not_mem_nil, [], [], rfl, rfl, .nil⟩

/-- An item that comes in goes to the end of the queue. -/
theorem Station.InOrder.arrive (h : s.InOrder valid outcome arrived) {x : α} (hx : valid x) :
    Station.InOrder valid outcome (arrived ++ [x]) { s with queue := s.queue ++ [x] } := by
  obtain ⟨hvalid, xs, ls, harrived, hlog, hall⟩ := h
  refine ⟨?_, xs, ls, ?_, hlog, hall⟩
  · intro y hy
    rcases List.mem_append.mp hy with hy | hy
    · exact hvalid y hy
    · rw [List.mem_singleton.mp hy]
      exact hx
  · show xs ++ (s.queue ++ [x]) = arrived ++ [x]
    rw [← List.append_assoc, harrived]

/-- What a poll takes came in, and so is valid. -/
theorem Station.InOrder.poll {again : Bool} (h : s.InOrder valid outcome arrived)
    (hpoll : Poll gets (fun x ok l => valid x → outcome x ok l) s again s') :
    s'.InOrder valid outcome arrived := by
  obtain ⟨hvalid, xs, ls, harrived, hlog, hall⟩ := h
  cases hpoll with
  | idle => exact ⟨hvalid, xs, ls, harrived, hlog, hall⟩
  | @taken x queue n log l ok htry hout =>
      have hx : x ∈ arrived := by
        rw [← harrived]
        exact List.mem_append_right _ (List.mem_cons_self ..)
      refine ⟨hvalid, xs ++ [x], ls ++ [l], ?_, ?_, ?_⟩
      · rw [List.append_assoc]
        exact harrived
      · show log ++ l = _
        rw [List.flatten_append, ← hlog, List.flatten_singleton]
      · exact List.rel_append hall (.cons ⟨_, hout (hvalid x hx)⟩ .nil)

end Drain

end PicoosLwip.Framework
