/-
  PicoosLwip.Netif.Pbuf — lwIP's packet buffers, as the drivers see them.

  A frame is a chain of pbufs.  A driver reads and writes payload bytes through
  `payload`, and neither C nor lwIP keeps it below `len`: an index past `len`
  is the memory behind the payload.

  `pbuf_header`, with which a driver steps over the padding in front of a frame
  and back, is lwIP's; `PbufHeader` is what its documentation says of it.
-/
import Mathlib.Algebra.Group.Nat.Defs
import Mathlib.Logic.Function.Basic

namespace PicoosLwip.Netif

/-- One `struct pbuf`: the memory it lies in, where its payload starts there,
and how long that is. -/
structure Pbuf where
  mem : Nat → UInt8
  payload : Nat
  len : UInt16

/-- `((uint8_t*)q->payload)[i]` -/
def Pbuf.byteAt (q : Pbuf) (i : Nat) : UInt8 := q.mem (q.payload + i)

/-- `((uint8_t*)q->payload)[i] = b` -/
def Pbuf.setByte (q : Pbuf) (i : Nat) (b : UInt8) : Pbuf :=
  { q with mem := Function.update q.mem (q.payload + i) b }

/-- A chain of pbufs; `tot_len` is that of its first. -/
structure PbufChain where
  first : Pbuf
  next : List Pbuf
  tot_len : UInt16

/-- The pbufs in the order of `q = q->next`. -/
def PbufChain.segments (p : PbufChain) : List Pbuf := p.first :: p.next

/-! ## §1. The data of a chain. -/

/-- The payload. -/
def Pbuf.bytes (q : Pbuf) : List UInt8 := (List.range q.len.toNat).map q.byteAt

/-- The payloads of pbufs in a row. -/
def dataOf (qs : List Pbuf) : List UInt8 := qs.flatMap Pbuf.bytes

/-- The sum of the lengths. -/
def sumLen : List Pbuf → Nat
  | [] => 0
  | q :: qs => q.len.toNat + sumLen qs

/-- `tot_len` is the sum of the lengths. -/
def PbufChain.Consistent (p : PbufChain) : Prop := p.tot_len.toNat = sumLen p.segments

/-- There are `len` of them. -/
@[simp] theorem Pbuf.bytes_length (q : Pbuf) : q.bytes.length = q.len.toNat := by
  simp [Pbuf.bytes]

@[simp] theorem dataOf_nil : dataOf [] = [] := rfl

@[simp] theorem dataOf_cons (q : Pbuf) (qs : List Pbuf) : dataOf (q :: qs) = q.bytes ++ dataOf qs :=
  rfl

/-- The places of a chain's bytes behind `k`: those of the first pbuf, then the others'. -/
theorem range'_dataOf_cons (k : Nat) (q : Pbuf) (qs : List Pbuf) :
    List.range' k (dataOf (q :: qs)).length
      = List.range' k q.len.toNat ++ List.range' (k + q.len.toNat) (dataOf qs).length := by
  rw [dataOf_cons, List.length_append, Pbuf.bytes_length, List.range'_append_1]

/-- There are as many as all pbufs have. -/
theorem dataOf_length (qs : List Pbuf) : (dataOf qs).length = sumLen qs := by
  induction qs with
  | nil => rfl
  | cons q qs ih => rw [dataOf_cons, List.length_append, ih, Pbuf.bytes_length]; rfl

/-- In a consistent chain that is `tot_len`. -/
theorem PbufChain.Consistent.length_dataOf {p : PbufChain} (h : p.Consistent) :
    (dataOf p.segments).length = p.tot_len.toNat := by
  rw [dataOf_length]
  exact h.symm

/-- Storing leaves payload and length, and every other byte. -/
theorem Pbuf.byteAt_setByte (q : Pbuf) (i j : Nat) (b : UInt8) :
    (q.setByte i b).byteAt j = if j = i then b else q.byteAt j := by
  unfold Pbuf.byteAt Pbuf.setByte
  show Function.update q.mem (q.payload + i) b (q.payload + j) = _
  rw [Function.update_apply]
  simp only [Nat.add_left_cancel_iff]

/-- `memcpy(q->payload, src, q->len)` -/
def Pbuf.fill (q : Pbuf) (src : Nat → UInt8) : Pbuf :=
  { q with mem := fun a =>
      if q.payload ≤ a ∧ a < q.payload + q.len.toNat then src (a - q.payload) else q.mem a }

/-- A pbuf that is filled has what it was filled with. -/
theorem Pbuf.bytes_fill (q : Pbuf) (src : Nat → UInt8) :
    (q.fill src).bytes = (List.range q.len.toNat).map src := by
  unfold Pbuf.bytes
  apply List.map_congr_left
  intro i hi
  have hlt : i < q.len.toNat := List.mem_range.mp hi
  show (if q.payload ≤ q.payload + i ∧ q.payload + i < q.payload + q.len.toNat then
    src (q.payload + i - q.payload) else _) = src i
  rw [if_pos (by omega), Nat.add_sub_cancel_left]

/-- The same payload, in place and length; the bytes may differ. -/
def SameShape (q q' : Pbuf) : Prop := q'.payload = q.payload ∧ q'.len = q.len

/-! ## §2. `pbuf_header`. -/

/-- The payload without its first `n` bytes. -/
def Pbuf.drop (n : Nat) (q : Pbuf) : Pbuf :=
  { q with payload := q.payload + n, len := q.len - UInt16.ofNat n }

/-- The payload with the `n` bytes in front of it. -/
def Pbuf.reclaim (n : Nat) (q : Pbuf) : Pbuf :=
  { q with payload := q.payload - n, len := q.len + UInt16.ofNat n }

/-- `pbuf_header` as documented: a negative increment steps over the first bytes
of the first pbuf, a positive one steps back over bytes that the buffer has in
front of the payload; where that is not possible the chain stays as it is. -/
structure PbufHeader (hdr : PbufChain → Int → PbufChain) : Prop where
  drop : ∀ (p : PbufChain) (n : Nat), n ≤ p.first.len.toNat →
    hdr p (-n) = ⟨p.first.drop n, p.next, p.tot_len - UInt16.ofNat n⟩
  refuse : ∀ (p : PbufChain) (n : Nat), p.first.len.toNat < n → hdr p (-n) = p
  reclaim : ∀ (p : PbufChain) (n : Nat), n ≤ p.first.payload → p.tot_len.toNat + n < 2 ^ 16 →
    hdr p n = ⟨p.first.reclaim n, p.next, p.tot_len + UInt16.ofNat n⟩
  noRoom : ∀ (p : PbufChain) (n : Nat), ¬ (n ≤ p.first.payload ∧ p.tot_len.toNat + n < 2 ^ 16) →
    hdr p n = p

/-- The chain that a driver works on: `p` without its `ETH_PAD_SIZE` bytes of
padding, as `pbuf_header` leaves it. -/
def withoutPadding (hdr : PbufChain → Int → PbufChain) (pad : Nat) (p : PbufChain) : PbufChain :=
  if pad = 0 then p else hdr p (-pad)

/-- The chain with the padding back in front. -/
def withPadding (hdr : PbufChain → Int → PbufChain) (pad : Nat) (p : PbufChain) : PbufChain :=
  if pad = 0 then p else hdr p pad

/-- What is dropped is gone from the length. -/
theorem Pbuf.drop_len {n : Nat} {q : Pbuf} (h : n ≤ q.len.toNat) :
    (q.drop n).len.toNat = q.len.toNat - n := by
  have hlt : q.len.toNat < 2 ^ 16 := q.len.toNat_lt
  show (q.len - UInt16.ofNat n).toNat = _
  rw [UInt16.toNat_sub, UInt16.toNat_ofNat']
  omega

/-- A payload without its first `n` bytes. -/
theorem Pbuf.bytes_drop {n : Nat} {q : Pbuf} (h : n ≤ q.len.toNat) :
    (q.drop n).bytes = q.bytes.drop n := by
  unfold Pbuf.bytes
  rw [Pbuf.drop_len h, ← List.map_drop, List.range_eq_range' (n := q.len.toNat), List.drop_range',
    List.range'_eq_map_range, List.map_map]
  apply List.map_congr_left
  intro i _
  show q.mem (q.payload + n + i) = q.mem (q.payload + (0 + n * 1 + i))
  rw [Nat.mul_one, Nat.zero_add, Nat.add_assoc]

/-- Stepping over `n` bytes and back. -/
theorem Pbuf.reclaim_drop (n : Nat) (q : Pbuf) : (q.drop n).reclaim n = q := by
  unfold Pbuf.reclaim Pbuf.drop
  simp only [Nat.add_sub_cancel, UInt16.sub_add_cancel]

/-- A payload to which the `n` bytes in front of it are added. -/
theorem Pbuf.bytes_reclaim {n : Nat} {q : Pbuf} (hroom : n ≤ q.payload)
    (hfit : q.len.toNat + n < 2 ^ 16) :
    ∃ front, front.length = n ∧ (q.reclaim n).bytes = front ++ q.bytes := by
  have hlen : (q.reclaim n).len.toNat = n + q.len.toNat := by
    show (q.len + UInt16.ofNat n).toNat = _
    rw [UInt16.toNat_add, UInt16.toNat_ofNat']
    omega
  refine ⟨(List.range n).map (q.reclaim n).byteAt, by simp, ?_⟩
  unfold Pbuf.bytes
  rw [hlen, List.range_add, List.map_append, List.map_map]
  congr 1
  apply List.map_congr_left
  intro i _
  show q.mem (q.payload - n + (n + i)) = q.mem (q.payload + i)
  rw [← Nat.add_assoc, Nat.sub_add_cancel hroom]

namespace PbufHeader

variable {hdr : PbufChain → Int → PbufChain} (h : PbufHeader hdr) {pad : Nat} {p : PbufChain}

include h

/-- The first pbuf has room for the padding, and loses it. -/
theorem withoutPadding_of_le (hle : pad ≤ p.first.len.toNat) :
    withoutPadding hdr pad p = ⟨p.first.drop pad, p.next, p.tot_len - UInt16.ofNat pad⟩ := by
  unfold withoutPadding
  split
  next hzero =>
    subst hzero
    simp [Pbuf.drop]
  next => exact h.drop p pad hle

/-- A shorter one is left alone. -/
theorem withoutPadding_of_lt (hlt : p.first.len.toNat < pad) : withoutPadding hdr pad p = p := by
  unfold withoutPadding
  rw [if_neg (by omega), h.refuse p pad hlt]

/-- The payload can be moved back. -/
theorem withPadding_of_room (hroom : pad ≤ p.first.payload)
    (hfit : p.tot_len.toNat + pad < 2 ^ 16) :
    withPadding hdr pad p = ⟨p.first.reclaim pad, p.next, p.tot_len + UInt16.ofNat pad⟩ := by
  unfold withPadding
  split
  next hzero =>
    subst hzero
    simp [Pbuf.reclaim]
  next => exact h.reclaim p pad hroom hfit

/-- It cannot, and is left alone. -/
theorem withPadding_of_noRoom
    (hno : ¬ (pad ≤ p.first.payload ∧ p.tot_len.toNat + pad < 2 ^ 16)) :
    withPadding hdr pad p = p := by
  unfold withPadding
  split
  next => rfl
  next => exact h.noRoom p pad hno

/-- Without padding the lengths still add up. -/
theorem consistent (hp : p.Consistent) : (withoutPadding hdr pad p).Consistent := by
  by_cases hle : pad ≤ p.first.len.toNat
  · rw [h.withoutPadding_of_le hle]
    have hlt : p.tot_len.toNat < 2 ^ 16 := p.tot_len.toNat_lt
    have hsum : p.tot_len.toNat = p.first.len.toNat + sumLen p.next := hp
    show (p.tot_len - UInt16.ofNat pad).toNat
      = (p.first.drop pad).len.toNat + sumLen p.next
    rw [Pbuf.drop_len hle, UInt16.toNat_sub, UInt16.toNat_ofNat']
    omega
  · rw [h.withoutPadding_of_lt (by omega)]
    exact hp

/-- What is sent and received behind the padding. -/
theorem dataOf_withoutPadding (hle : pad ≤ p.first.len.toNat) :
    dataOf (withoutPadding hdr pad p).segments = (dataOf p.segments).drop pad := by
  rw [h.withoutPadding_of_le hle]
  show (p.first.drop pad).bytes ++ dataOf p.next = (p.first.bytes ++ dataOf p.next).drop pad
  have hlen : pad ≤ p.first.bytes.length := by
    rw [Pbuf.bytes_length]
    exact hle
  rw [Pbuf.bytes_drop hle, List.drop_append_of_le_length hlen]

/-- **Dropped and taken back, the padding leaves no mark.** -/
theorem withPadding_withoutPadding (hp : p.Consistent) (hle : pad ≤ p.first.len.toNat) :
    withPadding hdr pad (withoutPadding hdr pad p) = p := by
  have hlt : p.tot_len.toNat < 2 ^ 16 := p.tot_len.toNat_lt
  have hsum : p.tot_len.toNat = p.first.len.toNat + sumLen p.next := hp
  have hroom : pad ≤ (p.first.drop pad).payload := Nat.le_add_left pad _
  have hfit : (p.tot_len - UInt16.ofNat pad).toNat + pad < 2 ^ 16 := by
    rw [UInt16.toNat_sub, UInt16.toNat_ofNat']
    omega
  rw [h.withoutPadding_of_le hle, h.withPadding_of_room hroom hfit]
  simp only [Pbuf.reclaim_drop, UInt16.sub_add_cancel]

/-- Taken back, the padding is in front of the data again. -/
theorem dataOf_withPadding (hp : p.Consistent) (hroom : pad ≤ p.first.payload)
    (hfit : p.tot_len.toNat + pad < 2 ^ 16) : ∃ front, front.length = pad
      ∧ dataOf (withPadding hdr pad p).segments = front ++ dataOf p.segments := by
  have hsum : p.tot_len.toNat = p.first.len.toNat + sumLen p.next := hp
  obtain ⟨front, hlen, hbytes⟩ := Pbuf.bytes_reclaim hroom (by omega)
  refine ⟨front, hlen, ?_⟩
  rw [h.withPadding_of_room hroom hfit]
  show (p.first.reclaim pad).bytes ++ dataOf p.next = front ++ (p.first.bytes ++ dataOf p.next)
  rw [hbytes, List.append_assoc]

end PbufHeader

/-- A `pbuf_header` that does this. -/
def samplePbufHeader (p : PbufChain) (increment : Int) : PbufChain :=
  if increment < 0 then
    if increment.natAbs ≤ p.first.len.toNat then
      ⟨p.first.drop increment.natAbs, p.next, p.tot_len - UInt16.ofNat increment.natAbs⟩
    else p
  else if increment.toNat ≤ p.first.payload ∧ p.tot_len.toNat + increment.toNat < 2 ^ 16 then
    ⟨p.first.reclaim increment.toNat, p.next, p.tot_len + UInt16.ofNat increment.toNat⟩
  else p

/-- It does what lwIP's does. -/
theorem samplePbufHeader_spec : PbufHeader samplePbufHeader where
  drop p n hn := by
    unfold samplePbufHeader
    rcases Nat.eq_zero_or_pos n with rfl | hpos
    · -- nothing to step over
      have hfit : p.tot_len.toNat < 2 ^ 16 := p.tot_len.toNat_lt
      rw [if_neg (by omega), if_pos (by simpa using hfit)]
      simp [Pbuf.drop, Pbuf.reclaim]
    · rw [if_pos (by omega), if_pos (by omega), Int.natAbs_neg, Int.natAbs_natCast]
  refuse p n hn := by
    unfold samplePbufHeader
    rw [if_pos (by omega), if_neg (by omega)]
  reclaim p n hroom hfit := by
    unfold samplePbufHeader
    rw [if_neg (by omega), if_pos (by omega)]
    rfl
  noRoom p n hno := by
    unfold samplePbufHeader
    rw [if_neg (by omega), if_neg (by omega)]

end PicoosLwip.Netif
