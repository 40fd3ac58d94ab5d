/-
  PicoosLwip.Framework.Bytes — reading and overwriting a stretch of a buffer.

  A buffer is a list.  `peek buf ofs n` is the stretch of (at most) `n` items
  from `ofs` on, `poke buf ofs bs` the buffer after `memcpy(buf + ofs, bs, …)`
  of a stretch that lies inside it.  The lemmas say, item by item, what a
  `poke` changes and what it leaves alone; `peek_poke_of_disjoint` is the frame
  rule that proofs about a buffer filled in several steps use.
-/
import Mathlib.Data.List.Basic

namespace PicoosLwip.Framework

variable {α : Type}

/-- The `n` items from `ofs` on (fewer where the buffer ends before). -/
def peek (buf : List α) (ofs n : Nat) : List α := (buf.drop ofs).take n

/-- The buffer with `bs` stored from `ofs` on. -/
def poke (buf : List α) (ofs : Nat) (bs : List α) : List α :=
  buf.take ofs ++ bs ++ buf.drop (ofs + bs.length)

/-! ## §1. `peek`. -/

/-- What is read ends where the buffer does. -/
theorem peek_length (buf : List α) (ofs n : Nat) :
    (peek buf ofs n).length = min n (buf.length - ofs) := by
  simp [peek]

theorem peek_length_of_le {buf : List α} {ofs n : Nat} (h : ofs + n ≤ buf.length) :
    (peek buf ofs n).length = n := by
  rw [peek_length]
  omega

/-- The bytes read, one by one. -/
theorem getElem?_peek (buf : List α) (ofs n i : Nat) :
    (peek buf ofs n)[i]? = if i < n then buf[ofs + i]? else none := by
  unfold peek
  rw [List.getElem?_take]
  split <;> simp

/-- Two buffers that agree on a stretch give the same `peek` there. -/
theorem peek_congr {b₁ b₂ : List α} {ofs n : Nat}
    (h : ∀ i, i < n → b₁[ofs + i]? = b₂[ofs + i]?) : peek b₁ ofs n = peek b₂ ofs n := by
  apply List.ext_getElem?
  intro i
  rw [getElem?_peek, getElem?_peek]
  split
  next hi => exact h i hi
  next => rfl

/-- A stretch that lies in the first of two joined buffers. -/
theorem peek_append_left {b₁ : List α} (b₂ : List α) {ofs n : Nat} (h : ofs + n ≤ b₁.length) :
    peek (b₁ ++ b₂) ofs n = peek b₁ ofs n := by
  apply peek_congr
  intro i hi
  rw [List.getElem?_append_left (by omega)]

/-- The same stretch with its length in its type; `none` where the buffer ends
before. -/
def peekVec (buf : List α) (ofs n : Nat) : Option (Vector α n) :=
  if h : (peek buf ofs n).length = n then some ⟨(peek buf ofs n).toArray, by simpa using h⟩
  else none

/-- A vector is read where all its bytes are there. -/
theorem peekVec_eq_some_iff {buf : List α} {ofs n : Nat} {v : Vector α n} :
    peekVec buf ofs n = some v ↔ peek buf ofs n = v.toList := by
  unfold peekVec
  split
  next h =>
    rw [Option.some.injEq]
    constructor
    · rintro rfl
      simp
    · intro hv
      apply Vector.toList_inj.mp
      simpa using hv
  next h =>
    simp only [reduceCtorEq, false_iff]
    intro hv
    exact h (by rw [hv, Vector.length_toList])

/-- It is a matter of the stretch alone. -/
theorem peekVec_congr {b₁ b₂ : List α} {ofs n : Nat} (h : peek b₁ ofs n = peek b₂ ofs n) :
    peekVec b₁ ofs n = peekVec b₂ ofs n := by
  apply Option.ext
  intro v
  rw [peekVec_eq_some_iff, peekVec_eq_some_iff, h]

/-- A stretch inside the buffer can be read. -/
theorem peekVec_of_le {buf : List α} {ofs n : Nat} (h : ofs + n ≤ buf.length) :
    ∃ v : Vector α n, peekVec buf ofs n = some v ∧ v.toList = peek buf ofs n := by
  have hlen := peek_length_of_le h
  refine ⟨⟨(peek buf ofs n).toArray, by simpa using hlen⟩, ?_, by simp⟩
  rw [peekVec_eq_some_iff]
  simp

/-! ## §2. `poke`. -/

@[simp] theorem poke_nil (buf : List α) (ofs : Nat) : poke buf ofs [] = buf := by
  simp [poke]

/-- A write inside the buffer keeps its length. -/
theorem poke_length {buf bs : List α} {ofs : Nat} (h : ofs + bs.length ≤ buf.length) :
    (poke buf ofs bs).length = buf.length := by
  simp [poke]
  omega

/-- What a `poke` stores. -/
theorem getElem?_poke_inside {buf bs : List α} {ofs i : Nat} (h : ofs + bs.length ≤ buf.length)
    (hlo : ofs ≤ i) (hhi : i < ofs + bs.length) : (poke buf ofs bs)[i]? = bs[i - ofs]? := by
  have hlen : (buf.take ofs).length = ofs := by simp; omega
  unfold poke
  rw [List.getElem?_append_left (by simp; omega), List.getElem?_append_right (by omega), hlen]

/-- What a `poke` leaves alone. -/
theorem getElem?_poke_outside {buf bs : List α} {ofs i : Nat} (h : ofs + bs.length ≤ buf.length)
    (hout : i < ofs ∨ ofs + bs.length ≤ i) : (poke buf ofs bs)[i]? = buf[i]? := by
  have hlen : (buf.take ofs).length = ofs := by simp; omega
  unfold poke
  rcases hout with hlt | hge
  · -- in front of the stored stretch
    rw [List.getElem?_append_left (by simp; omega), List.getElem?_append_left (by omega),
        List.getElem?_take, if_pos hlt]
  · -- behind it: the index skips as much as was dropped
    rw [List.getElem?_append_right (by simp; omega), List.getElem?_drop]
    congr 1
    simp
    omega

/-- A `poke`, item by item. -/
theorem getElem?_poke {buf bs : List α} {ofs : Nat} (h : ofs + bs.length ≤ buf.length) (i : Nat) :
    (poke buf ofs bs)[i]? = if ofs ≤ i ∧ i < ofs + bs.length then bs[i - ofs]? else buf[i]? := by
  split
  next hin => exact getElem?_poke_inside h hin.1 hin.2
  next hout => exact getElem?_poke_outside h (by omega)

/-- Reading back what was stored, or a part of it. -/
theorem peek_poke_inside {buf bs : List α} {ofs i n : Nat} (h : ofs + bs.length ≤ buf.length)
    (hn : i + n ≤ bs.length) : peek (poke buf ofs bs) (ofs + i) n = peek bs i n := by
  apply List.ext_getElem?
  intro k
  rw [getElem?_peek, getElem?_peek]
  split
  next hk =>
    rw [getElem?_poke_inside h (by omega) (by omega)]
    congr 1
    omega
  next => rfl

/-- **The frame rule**: a stretch that a `poke` does not meet reads as before. -/
theorem peek_poke_of_disjoint {buf bs : List α} {ofs i n : Nat}
    (h : ofs + bs.length ≤ buf.length) (hd : i + n ≤ ofs ∨ ofs + bs.length ≤ i) :
    peek (poke buf ofs bs) i n = peek buf i n := by
  apply peek_congr
  intro k hk
  exact getElem?_poke_outside h (by omega)

/-- From where it was stored on, a `poke` reads as the stretch and what stood
behind it. -/
theorem drop_poke {buf : List α} (bs : List α) {ofs : Nat} (h : ofs ≤ buf.length) :
    (poke buf ofs bs).drop ofs = bs ++ buf.drop (ofs + bs.length) := by
  have hlen : (buf.take ofs).length = ofs := by simp; omega
  unfold poke
  rw [List.append_assoc, List.drop_append, hlen, Nat.sub_self, List.drop_zero,
    List.drop_eq_nil_of_le (by omega), List.nil_append]

/-- Behind the stored stretch everything is as before. -/
theorem drop_poke_behind {buf bs : List α} {ofs n : Nat} (h : ofs + bs.length ≤ buf.length)
    (hn : ofs + bs.length ≤ n) : (poke buf ofs bs).drop n = buf.drop n := by
  apply List.ext_getElem?
  intro i
  rw [List.getElem?_drop, List.getElem?_drop, getElem?_poke_outside h (by omega)]

/-- Two `poke`s in a row are one. -/
theorem poke_append_poke {buf bs cs : List α} {ofs : Nat}
    (h : ofs + bs.length + cs.length ≤ buf.length) :
    poke (poke buf ofs bs) (ofs + bs.length) cs = poke buf ofs (bs ++ cs) := by
  have hbs : ofs + bs.length ≤ buf.length := by omega
  apply List.ext_getElem?
  intro i
  by_cases hin : ofs + bs.length ≤ i ∧ i < ofs + bs.length + cs.length
  · -- an item of `cs`
    rw [getElem?_poke_inside (by rw [poke_length hbs]; omega) hin.1 hin.2,
        getElem?_poke_inside (by simp; omega) (by omega) (by simp; omega),
        List.getElem?_append_right (by omega)]
    congr 1
    omega
  · rw [getElem?_poke_outside (by rw [poke_length hbs]; omega) (by omega)]
    by_cases hb : ofs ≤ i ∧ i < ofs + bs.length
    · -- an item of `bs`
      rw [getElem?_poke_inside hbs hb.1 hb.2,
          getElem?_poke_inside (by simp; omega) hb.1 (by simp; omega),
          List.getElem?_append_left (by omega)]
    · rw [getElem?_poke_outside hbs (by omega),
          getElem?_poke_outside (by simp; omega) (by simp; omega)]

end PicoosLwip.Framework
