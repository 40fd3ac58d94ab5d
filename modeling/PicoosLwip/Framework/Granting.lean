/-
  PicoosLwip.Framework.Granting — questions to a first-come pool.

  A client asks what it can have, or asks for one resource.  It is let in as far as
  there is room (`Admitted.enter`), and is then told what it holds, or that it does not
  hold what it asked for.  A client that is not in gets no answer.

  Main result:
    * `enter_of_asked` — a client that has asked once may ask again, and nothing changes.
-/
import PicoosLwip.Framework.FirstCome

namespace PicoosLwip.Framework

/-- What a client asks. -/
inductive Ask (β : Type) where
  /-- What is there for me? -/
  | discover
  /-- May I have `r`? -/
  | request (r : β)

/-- What a granting server says. -/
inductive Answer (β : Type) where
  | offer (r : β)
  | ack (r : β)
  | nak
  deriving DecidableEq

/-- The answer to a client that holds `held`. -/
def Ask.answer {β : Type} [DecidableEq β] (held : β) : Ask β → Answer β
  | .discover => .offer held
  | .request r => if r = held then .ack held else .nak

namespace Admitted

variable {α β : Type} [DecidableEq α] [DecidableEq β] {cap : Nat}

/-- The answer to `a`, if it is in. -/
def answer (pool : List β) (c : Admitted α cap) (a : α) (k : Ask β) : Option (Answer β) :=
  (holding pool c a).map fun held => k.answer held

/-- The answers to a history. -/
def answers (pool : List β) : Admitted α cap → List (Option (α × Ask β)) → List (Option (Answer β))
  | _, [] => []
  | c, none :: qs => none :: answers pool c qs
  | c, some (a, k) :: qs => (c.enter a).answer pool a k :: answers pool (c.enter a) qs

omit [DecidableEq β] in
/-- **Once is enough**: whoever has asked before is in, or found no room. -/
theorem enter_of_asked (c : Admitted α cap) {hist : List α} {a : α} (h : a ∈ hist) :
    (c.enterAll hist).enter a = c.enterAll hist := by
  obtain ⟨pre, post, rfl⟩ := List.append_of_mem h
  have hgrows := order_prefix_enterAll ((c.enterAll pre).enter a) post
  have hlater : c.enterAll (pre ++ a :: post) = ((c.enterAll pre).enter a).enterAll post :=
    enterAll_append c pre (a :: post)
  rw [hlater]
  by_cases hin : a ∈ ((c.enterAll pre).enter a).order
  · exact enter_of_mem (hgrows.subset hin)
  · rw [mem_enter_iff, not_or] at hin
    have hfull : cap ≤ (c.enterAll pre).order.length := by omega
    rw [enter_of_full a hfull] at hgrows ⊢
    exact enter_of_full a (Nat.le_trans hfull hgrows.length_le)

end Admitted

end PicoosLwip.Framework
