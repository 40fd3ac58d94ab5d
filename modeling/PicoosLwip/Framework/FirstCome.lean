/-
  PicoosLwip.Framework.FirstCome — admitting clients to a bounded pool, first
  come first served.

  A pool has `cap` resources.  A client that asks for the first time is
  admitted while there is room and then keeps its place; nobody ever leaves.
  `Admitted α cap` is the list of admitted clients, oldest first, WITH its
  invariant: no client twice and no more than `cap` of them.  The client in
  place `i` holds the `i`-th resource of the pool.

  Main results:
    * `order_enterAll`   — after any history of requests the admitted clients
                           are the first `cap` distinct ones, in order;
    * `holding_inj`      — distinct clients hold distinct resources;
    * `holding_of_prefix` — a client keeps its resource as the pool fills up.
-/
import Mathlib.Data.List.Nodup
import Mathlib.Data.List.Induction

namespace PicoosLwip.Framework

/-- The clients admitted so far, oldest first. -/
structure Admitted (α : Type) (cap : Nat) where
  order : List α
  nodup : order.Nodup
  length_le : order.length ≤ cap

namespace Admitted

variable {α β : Type} [DecidableEq α] {cap : Nat}

/-- Nobody has asked yet. -/
def empty : Admitted α cap := ⟨[], List.nodup_nil, Nat.zero_le cap⟩

/-- `a` asks: a new client gets the next place while there is one. -/
def enter (c : Admitted α cap) (a : α) : Admitted α cap :=
  if h : a ∉ c.order ∧ c.order.length < cap then
    { order := c.order ++ [a]
      nodup := by
        rw [List.nodup_append]
        exact ⟨c.nodup, List.nodup_singleton a, by
          intro x hx y hy hxy
          obtain rfl : y = a := by simpa using hy
          exact h.1 (hxy ▸ hx)⟩
      length_le := by
        rw [List.length_append, List.length_singleton]
        exact h.2 }
  else c

/-- All the requests of a history, in order. -/
def enterAll (c : Admitted α cap) (hist : List α) : Admitted α cap := hist.foldl enter c

/-- The resource at the place of `a` in `order`. -/
def heldBy (pool : List β) (order : List α) (a : α) : Option β :=
  if a ∈ order then pool[order.idxOf a]? else none

/-- The resource that `a` holds. -/
def holding (pool : List β) (c : Admitted α cap) (a : α) : Option β := heldBy pool c.order a

omit [DecidableEq α] in
/-- Who came, and in what order, is all there is. -/
@[ext] theorem ext {c d : Admitted α cap} (h : c.order = d.order) : c = d := by
  cases c
  cases d
  cases h
  rfl

/-! ## §1. One request. -/

/-- Who is in does not enter again. -/
theorem enter_of_mem {c : Admitted α cap} {a : α} (h : a ∈ c.order) : c.enter a = c := by
  unfold enter
  rw [dif_neg (fun hn => hn.1 h)]

/-- Nobody enters where it is full. -/
theorem enter_of_full {c : Admitted α cap} (a : α) (h : cap ≤ c.order.length) :
    c.enter a = c := by
  unfold enter
  rw [dif_neg (fun hn => absurd hn.2 (by omega))]

/-- A new one comes last. -/
theorem order_enter_of_new {c : Admitted α cap} {a : α} (h : a ∉ c.order)
    (hlt : c.order.length < cap) : (c.enter a).order = c.order ++ [a] := by
  unfold enter
  rw [dif_pos ⟨h, hlt⟩]

/-- Admission only ever adds at the end. -/
theorem order_prefix_enter (c : Admitted α cap) (a : α) : c.order <+: (c.enter a).order := by
  by_cases h : a ∉ c.order ∧ c.order.length < cap
  · rw [order_enter_of_new h.1 h.2]
    exact List.prefix_append _ _
  · have hsame : c.enter a = c := dif_neg h
    simp [hsame]

/-- Who is in after `a` asked: `a` unless the pool was full without it. -/
theorem mem_enter_iff {c : Admitted α cap} {a : α} :
    a ∈ (c.enter a).order ↔ a ∈ c.order ∨ c.order.length < cap := by
  by_cases hmem : a ∈ c.order
  · rw [enter_of_mem hmem]
    simp [hmem]
  · by_cases hlt : c.order.length < cap
    · rw [order_enter_of_new hmem hlt]
      simp [hlt]
    · rw [enter_of_full a (by omega)]
      simp [hmem, hlt]

/-! ## §2. A history of requests. -/

/-- The last one of a history enters last. -/
theorem enterAll_snoc (c : Admitted α cap) (hist : List α) (a : α) :
    c.enterAll (hist ++ [a]) = (c.enterAll hist).enter a := by
  simp [enterAll]

/-- One more entry of a history counts if it is new. -/
theorem eraseDups_snoc (hist : List α) (a : α) :
    (hist ++ [a]).eraseDups = if a ∈ hist then hist.eraseDups else hist.eraseDups ++ [a] := by
  rw [List.eraseDups_append]
  by_cases h : a ∈ hist <;> simp [List.removeAll, List.eraseDups_cons, h]

/-- **Who is in after a history**: the first `cap` distinct clients, in the
order in which they first asked. -/
theorem order_enterAll (hist : List α) :
    ((empty : Admitted α cap).enterAll hist).order = hist.eraseDups.take cap := by
  induction hist using List.reverseRecOn with
  | nil => simp [enterAll, empty]
  | append_singleton hist a ih =>
      rw [enterAll_snoc, eraseDups_snoc]
      by_cases hin : a ∈ hist
      · -- `a` has asked before: it is in, or the pool is full without it
        rw [if_pos hin]
        by_cases hlt : ((empty : Admitted α cap).enterAll hist).order.length < cap
        · -- room is left, so everybody of the history is in
          have hall : hist.eraseDups.take cap = hist.eraseDups := by
            apply List.take_of_length_le
            rw [ih, List.length_take] at hlt
            omega
          rw [enter_of_mem (by rw [ih, hall]; exact List.mem_eraseDups.mpr hin), ih]
        · rw [enter_of_full a (by omega), ih]
      · -- `a` is new: it gets the next place if there is one
        rw [if_neg hin]
        by_cases hlt : ((empty : Admitted α cap).enterAll hist).order.length < cap
        · -- room is left, and `a` is not in yet
          have hnew : a ∉ ((empty : Admitted α cap).enterAll hist).order := by
            rw [ih]
            exact fun h => hin (List.mem_eraseDups.mp (List.mem_of_mem_take h))
          rw [order_enter_of_new hnew hlt, ih]
          rw [ih, List.length_take] at hlt
          rw [List.take_of_length_le (by omega), List.take_of_length_le (by simp; omega)]
        · rw [enter_of_full a (by omega), ih]
          rw [ih, List.length_take] at hlt
          rw [List.take_append_of_le_length (by omega)]

/-- One history behind another. -/
theorem enterAll_append (c : Admitted α cap) (hist hist' : List α) :
    c.enterAll (hist ++ hist') = (c.enterAll hist).enterAll hist' := by
  simp [enterAll]

/-- A history only ever adds at the end. -/
theorem order_prefix_enterAll (c : Admitted α cap) (hist : List α) :
    c.order <+: (c.enterAll hist).order := by
  induction hist using List.reverseRecOn with
  | nil => exact List.prefix_rfl
  | append_singleton hist a ih =>
      rw [enterAll_snoc]
      exact ih.trans (order_prefix_enter _ a)

/-- Nobody is in who did not ask. -/
theorem mem_of_mem_enterAll {c : Admitted α cap} {hist : List α} {x : α}
    (h : x ∈ (c.enterAll hist).order) : x ∈ c.order ∨ x ∈ hist := by
  induction hist using List.reverseRecOn with
  | nil => exact .inl h
  | append_singleton hist a ih =>
      rw [enterAll_snoc] at h
      by_cases hnew : a ∉ (c.enterAll hist).order ∧ (c.enterAll hist).order.length < cap
      · rw [order_enter_of_new hnew.1 hnew.2, List.mem_append] at h
        rcases h with h | h
        · exact (ih h).imp_right (List.mem_append_left _)
        · exact .inr (List.mem_append_right _ h)
      · unfold enter at h
        rw [dif_neg hnew] at h
        exact (ih h).imp_right (List.mem_append_left _)

/-! ## §3. Resources. -/

/-- One's place gives one's resource. -/
theorem heldBy_of_mem {order : List α} {a : α} (pool : List β) (h : a ∈ order) :
    heldBy pool order a = pool[order.idxOf a]? := if_pos h

/-- Without a place there is none. -/
theorem heldBy_of_not_mem {order : List α} {a : α} (pool : List β) (h : a ∉ order) :
    heldBy pool order a = none := if_neg h

@[simp] theorem heldBy_nil (pool : List β) (a : α) : heldBy pool [] a = none := rfl

/-- A search through the pool: the first place, or one of the others. -/
theorem heldBy_cons (r : β) (pool : List β) (b : α) (order : List α) (a : α) :
    heldBy (r :: pool) (b :: order) a = if a = b then some r else heldBy pool order a := by
  by_cases heq : a = b
  · subst heq
    simp [heldBy]
  · have heq' : ¬ b = a := fun h => heq h.symm
    simp [heldBy, heq, heq']

/-- The client that comes in last holds the next resource. -/
theorem heldBy_append_self {order : List α} {a : α} (pool : List β) (h : a ∉ order) :
    heldBy pool (order ++ [a]) a = pool[order.length]? := by
  rw [heldBy_of_mem pool (by simp), List.idxOf_append_of_notMem h]
  simp

/-- Whoever is in holds something, in a pool that is large enough. -/
theorem exists_heldBy {pool : List β} {order : List α} {a : α} (h : a ∈ order)
    (hlen : order.length ≤ pool.length) : ∃ r, heldBy pool order a = some r := by
  have hidx := List.idxOf_lt_length_iff.mpr h
  rw [heldBy_of_mem pool h]
  exact ⟨_, List.getElem?_eq_getElem (by omega)⟩

/-- The client in place `i` holds the `i`-th resource. -/
theorem heldBy_getElem? {pool : List β} {order : List α} {a : α} {r : β} {i : Nat}
    (hnodup : order.Nodup) (ha : order[i]? = some a) (hr : pool[i]? = some r) :
    heldBy pool order a = some r := by
  obtain ⟨hi, rfl⟩ := List.getElem?_eq_some_iff.mp ha
  rw [heldBy_of_mem pool (List.getElem_mem hi), hnodup.idxOf_getElem, hr]

/-- A client that holds nothing after it asked found the pool full. -/
theorem enter_of_holding_none {pool : List β} {c : Admitted α cap} {a : α}
    (hpool : cap ≤ pool.length) (h : holding pool (c.enter a) a = none) : c.enter a = c := by
  by_cases hin : a ∈ c.order ∨ c.order.length < cap
  · obtain ⟨r, hr⟩ := exists_heldBy (mem_enter_iff.mpr hin)
      (Nat.le_trans (c.enter a).length_le hpool)
    unfold holding at h
    rw [hr] at h
    exact absurd h (by simp)
  · rw [not_or] at hin
    exact enter_of_full a (by omega)

/-- **Distinct clients hold distinct resources.** -/
theorem holding_inj {pool : List β} {c : Admitted α cap} {a b : α} {r : β}
    (hpool : pool.Nodup) (ha : holding pool c a = some r) (hb : holding pool c b = some r) :
    a = b := by
  unfold holding heldBy at ha hb
  split at ha
  next hma =>
    split at hb
    next hmb =>
      obtain ⟨hi, hia⟩ := List.getElem?_eq_some_iff.mp ha
      obtain ⟨hj, hjb⟩ := List.getElem?_eq_some_iff.mp hb
      -- one resource, so one place in the pool, and one client in that place
      have hij : c.order.idxOf a = c.order.idxOf b :=
        (List.Nodup.getElem_inj_iff hpool).mp (hia.trans hjb.symm)
      exact (List.idxOf_inj hma).mp hij
    next => exact absurd hb (by simp)
  next => exact absurd ha (by simp)

/-- **A client keeps its resource** as others are admitted behind it. -/
theorem holding_of_prefix {pool : List β} {c d : Admitted α cap} {a : α} {r : β}
    (hpre : c.order <+: d.order) (h : holding pool c a = some r) :
    holding pool d a = some r := by
  unfold holding heldBy at h
  split at h
  next hmem =>
    obtain ⟨tail, htail⟩ := hpre
    unfold holding
    rw [heldBy_of_mem pool (by rw [← htail]; exact List.mem_append_left _ hmem), ← htail,
        List.idxOf_append_of_mem hmem]
    exact h
  next => exact absurd h (by simp)

/-- A client that holds something is in. -/
theorem mem_of_holding {pool : List β} {c : Admitted α cap} {a : α} {r : β}
    (h : holding pool c a = some r) : a ∈ c.order := by
  by_contra hout
  unfold holding at h
  rw [heldBy_of_not_mem pool hout] at h
  exact absurd h (by simp)

end Admitted

end PicoosLwip.Framework
