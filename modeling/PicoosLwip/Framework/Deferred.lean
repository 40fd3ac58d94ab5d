/-
  PicoosLwip.Framework.Deferred — requests that are carried out later.

  Callers leave requests in a queue and go on.  One thread takes them from there in
  order and carries each out as a step of a system, which has steps of its own besides.
  A call that is refused leaves nothing.

  Rules:
    * `Deferred.projects`  — the system sees a run of its own, with the requests in the
                             order in which they were accepted;
    * `Deferred.invariant` — what is kept as long as the requests so far are in good order
                             holds as long as the accepted ones are.
-/
import PicoosLwip.Framework.Run

namespace PicoosLwip.Framework

/-- A system `σ`, what its steps carry out, and which calls `κ` leave a request. -/
structure Deferred (σ ℓ Req κ : Type) where
  step : σ → ℓ → σ → Prop
  request : ℓ → Option Req
  accepted : κ → Option Req

namespace Deferred

variable {σ ℓ Req κ : Type}

/-- What can be seen of a run: calls, and steps of the server. -/
inductive Label (ℓ κ : Type)
  | call (c : κ)
  | act (l : ℓ)

/-- The requests in front, and the system. -/
inductive Step (D : Deferred σ ℓ Req κ) : List Req × σ → Label ℓ κ → List Req × σ → Prop
  | call {q : List Req} {s : σ} (c : κ) : Step D (q, s) (.call c) (q ++ (D.accepted c).toList, s)
  | act {q : List Req} {s s' : σ} {l : ℓ} (h : D.step s l s') :
      Step D ((D.request l).toList ++ q, s) (.act l) (q, s')

/-- The steps of the system. -/
def acts (ls : List (Label ℓ κ)) : List ℓ :=
  ls.filterMap fun
    | .act l => some l
    | .call _ => none

/-- The requests that were accepted. -/
def asked (D : Deferred σ ℓ Req κ) (ls : List (Label ℓ κ)) : List Req :=
  ls.filterMap fun
    | .call c => D.accepted c
    | .act _ => none

/-- The requests that were carried out. -/
def served (D : Deferred σ ℓ Req κ) (ls : List (Label ℓ κ)) : List Req :=
  (acts ls).filterMap D.request

variable (D : Deferred σ ℓ Req κ) {s₀ : σ} {ls : List (Label ℓ κ)} {s : List Req × σ}

/-- A step of the server is one more. -/
theorem acts_snoc_act (l : ℓ) : acts (ls ++ [(.act l : Label ℓ κ)]) = acts ls ++ [l] :=
  List.filterMap_append ..

/-- A call is none. -/
theorem acts_snoc_call (c : κ) : acts (ls ++ [(.call c : Label ℓ κ)]) = acts ls := by
  unfold acts
  rw [List.filterMap_append]
  exact List.append_nil _

theorem asked_snoc_act (l : ℓ) : D.asked (ls ++ [.act l]) = D.asked ls := by
  unfold asked
  rw [List.filterMap_append]
  exact List.append_nil _

/-- A call that is accepted asks for one request more. -/
theorem asked_snoc_call (c : κ) :
    D.asked (ls ++ [.call c]) = D.asked ls ++ (D.accepted c).toList := by
  unfold asked
  rw [List.filterMap_append]
  congr 1

/-- A step may serve a request. -/
theorem served_snoc_act (l : ℓ) :
    D.served (ls ++ [.act l]) = D.served ls ++ (D.request l).toList := by
  unfold served
  rw [acts_snoc_act, List.filterMap_append]
  congr 1

theorem served_snoc_call (c : κ) : D.served (ls ++ [.call c]) = D.served ls := by
  unfold served
  rw [acts_snoc_call]

/-- **What the system sees**: a run of its own, and the accepted requests one by one, up to
those that still wait. -/
theorem projects (h : Run D.Step ([], s₀) ls s) :
    Run D.step s₀ (acts ls) s.2 ∧ D.served ls ++ s.1 = D.asked ls := by
  induction h with
  | nil => exact ⟨.nil, rfl⟩
  | snoc _ hs ih =>
      obtain ⟨hrun, hqueue⟩ := ih
      cases hs with
      | call c =>
          rw [acts_snoc_call, served_snoc_call, asked_snoc_call, ← hqueue]
          exact ⟨hrun, (List.append_assoc ..).symm⟩
      | act hstep =>
          rw [acts_snoc_act, served_snoc_act, asked_snoc_act, ← hqueue]
          exact ⟨hrun.snoc hstep, List.append_assoc ..⟩

/-- **The invariant rule.**  `I` speaks about the requests carried out so far; a step
keeps it where these are in good order. -/
theorem invariant {Good : List Req → Prop} (I : List Req → σ → Prop)
    (hgood : ∀ rs qs, Good (rs ++ qs) → Good rs) (h₀ : I [] s₀)
    (hstep : ∀ rs s l s', I rs s → D.step s l s' → Good (rs ++ (D.request l).toList) →
      I (rs ++ (D.request l).toList) s')
    (h : Run D.Step ([], s₀) ls s) (hls : Good (D.asked ls)) : I (D.served ls) s.2 := by
  induction h with
  | nil => exact h₀
  | @snoc ls s s' l hrun hs ih =>
      cases hs with
      | call c =>
          rw [asked_snoc_call] at hls
          rw [served_snoc_call]
          exact ih (hgood _ _ hls)
      | @act q s s' l hact =>
          rw [asked_snoc_act] at hls
          rw [served_snoc_act]
          refine hstep _ _ _ _ (ih hls) hact ?_
          -- what waits behind the request is of no concern
          have hqueue := (D.projects hrun).2
          rw [← hqueue, ← List.append_assoc] at hls
          exact hgood _ _ hls

end Deferred

end PicoosLwip.Framework
