/-
  PicoosLwip.Netif.Receive — what the CS8900A driver makes of a received frame.

  `lowLevelInput` fills the pbufs one by one, two bytes at a time, with a 16-bit
  index.  A pbuf of odd length gets one byte more than it has room for, and that
  byte is missing in the next one; at length 65535 the index wraps and the loop
  never ends.  A pbuf of even length is filled exactly.

  Main results:
    * `readPayload_spec` — an even pbuf is filled with what the chip delivers;
    * `readPayload_reads` — a loop that ends has stored at every even index;
    * `receiveInto_segments` — the fill is one loop over all pbufs;
    * `receives_iff`     — the frame is received exactly when all pbufs are even;
    * `odd_pbuf_overrun` — a frame of one byte.
-/
import PicoosLwip.Netif.Transmit

namespace PicoosLwip.Netif.Cs8900a

open PicoosLwip.Framework

/-! ## §1. What a run of `lowLevelInput` does. -/

/-- The frame bytes read from `RX_FRAME_PORT`. -/
def BusStep.delivered : BusStep → List UInt8
  | ⟨.cs8900aReadRxBuf _ _, b⟩ => [b.1, b.2]
  | _ => []

/-- All that has come out of the chip's buffer. -/
def delivered (tr : List BusStep) : List UInt8 := tr.flatMap BusStep.delivered

@[simp] theorem delivered_append (tr tr' : List BusStep) :
    delivered (tr ++ tr') = delivered tr ++ delivered tr' := List.flatMap_append

/-- Both bytes of every store into a pbuf of the chain `qs` lie inside it. -/
def StoresInside (qs : List Pbuf) (tr : List BusStep) : Prop :=
  ∀ k u b, ⟨.cs8900aReadRxBuf k u, b⟩ ∈ tr → ∃ q, qs[k]? = some q ∧ u.toNat + 1 < q.len.toNat

/-- Two bytes are stored into the `k`-th pbuf at index `u`. -/
def StoresAt (k u : Nat) (tr : List BusStep) : Prop :=
  ∃ v b, ⟨.cs8900aReadRxBuf k v, b⟩ ∈ tr ∧ v.toNat = u

/-- Nothing is stored outside in either part. -/
theorem StoresInside.append {qs : List Pbuf} {tr tr' : List BusStep} (h : StoresInside qs tr)
    (h' : StoresInside qs tr') : StoresInside qs (tr ++ tr') := by
  intro k u b hin
  rcases List.mem_append.mp hin with hin | hin
  · exact h k u b hin
  · exact h' k u b hin

/-- What is stored stays stored. -/
theorem StoresAt.left {k u : Nat} {tr : List BusStep} (tr' : List BusStep)
    (h : StoresAt k u tr) : StoresAt k u (tr ++ tr') := by
  obtain ⟨v, b, hin, hv⟩ := h
  exact ⟨v, b, List.mem_append_left _ hin, hv⟩

/-- It may be stored later. -/
theorem StoresAt.right {k u : Nat} (tr : List BusStep) {tr' : List BusStep}
    (h : StoresAt k u tr') : StoresAt k u (tr ++ tr') := by
  obtain ⟨v, b, hin, hv⟩ := h
  exact ⟨v, b, List.mem_append_right _ hin, hv⟩

/-- `pbuf_header` answers as `hdr`, and `pbuf_alloc` with the chain `p` for a
request of its total length, or with `NULL`. -/
def ReceivesInto (hdr : PbufChain → Int → PbufChain) (p : PbufChain) : BusStep → Prop
  | ⟨.pbuf_alloc n, ans⟩ => ans = none ∨ ans = some p ∧ n = p.tot_len
  | e => HeaderBy hdr e

/-- The frame is in the pbufs behind the padding, all of it and in order, and
nothing was stored outside them. -/
structure Received (hdr : PbufChain → Int → PbufChain) (pad : Nat) (p : PbufChain)
    (tr : List BusStep) (r : Option (Option PbufChain)) : Prop where
  frame : ∃ q, r = some (some (withPadding hdr pad q))
    ∧ List.Forall₂ SameShape (withoutPadding hdr pad p).segments q.segments
    ∧ dataOf q.segments = delivered tr
  inside : StoresInside (withoutPadding hdr pad p).segments tr

/-- With loops long enough, every run into the chain `p` that finds a frame and
memory receives the frame. -/
def ReceivesFrame (hdr : PbufChain → Int → PbufChain) (pad : Nat) (p : PbufChain) : Prop :=
  ∃ fuel, ∀ tr r, Program.Trace (lowLevelInput pad fuel) tr r →
    (∀ e ∈ tr, ReceivesInto hdr p e) → r ≠ some none → Received hdr pad p tr r

/-! ## §2. The copy loops over even pbufs. -/

/-- Two bytes that are stored at `u`, and kept from then on. -/
theorem bytes_of_stored {q q' : Pbuf} {u : Nat} {b : UInt8 × UInt8}
    (hkeep : ∀ i < u + 2, q'.byteAt i = ((q.setByte u b.1).setByte (u + 1) b.2).byteAt i) :
    (∀ i < u, q'.byteAt i = q.byteAt i) ∧ ∀ n, (List.range' u (n + 2)).map q'.byteAt
      = [b.1, b.2] ++ (List.range' (u + 2) n).map q'.byteAt := by
  constructor
  · intro i hi
    rw [hkeep i (by omega), Pbuf.byteAt_setByte, Pbuf.byteAt_setByte, if_neg (by omega),
      if_neg (by omega)]
  · intro n
    rw [List.range'_succ, List.range'_succ, List.map_cons, List.map_cons,
      hkeep _ (by omega), hkeep _ (by omega), Pbuf.byteAt_setByte, Pbuf.byteAt_setByte,
      if_neg (by omega), if_pos rfl, Pbuf.byteAt_setByte, if_pos rfl]
    rfl

section Loops

variable {ok : BusStep → Prop}

/-- **A pbuf of even length is filled exactly.** -/
theorem readPayload_spec (qs : List Pbuf) {k : Nat} {q₀ : Pbuf} (hk : qs[k]? = some q₀)
    (heven : q₀.len.toNat % 2 = 0) (fuel : Nat) (q : Pbuf) (u : UInt16) (hlen : q.len = q₀.len)
    (hu : u.toNat % 2 = 0) (hfuel : (q.len.toNat - u.toNat) / 2 < fuel) :
    Program.Ensures ok (readPayload fuel k q u) fun tr r => StoresInside qs tr ∧ ∃ q',
      r = some q' ∧ SameShape q q' ∧ (∀ i < u.toNat, q'.byteAt i = q.byteAt i)
      ∧ delivered tr = (List.range' u.toNat (q.len.toNat - u.toNat)).map q'.byteAt := by
  induction fuel generalizing q u with
  | zero => omega
  | succ fuel ih =>
      rw [readPayload]
      split
      next hlt =>
        have hlt' : u.toNat < q.len.toNat := hlt
        have hmax : q.len.toNat < 2 ^ 16 := q.len.toNat_lt
        -- both bytes fit, and the index does not wrap
        have hnext : (u + 2).toNat = u.toNat + 2 := by
          rw [UInt16.toNat_add]
          show (u.toNat + 2) % 2 ^ 16 = _
          rw [hlen] at hlt' hmax
          omega
        rw [← hlen] at heven
        refine Program.Ensures.call fun b _ => ?_
        refine (ih ((q.setByte u.toNat b.1).setByte (u.toNat + 1) b.2) (u + 2) hlen (by omega)
          (by show (q.len.toNat - _) / 2 < fuel; omega)).mono ?_
        rintro tr r ⟨hin, q', rfl, hshape, hkeep, hdel⟩
        rw [hnext] at hkeep hdel
        obtain ⟨hbefore, hpair⟩ := bytes_of_stored hkeep
        refine ⟨?_, q', rfl, hshape, hbefore, ?_⟩
        · intro k' v b' hmem
          rcases List.mem_cons.mp hmem with heq | hmem
          · obtain ⟨rfl, rfl⟩ := Op.cs8900aReadRxBuf.inj (congrArg Sigma.fst heq)
            exact ⟨q₀, hk, by rw [← hlen]; omega⟩
          · exact hin k' v b' hmem
        · have hcount : q.len.toNat - u.toNat = q.len.toNat - (u.toNat + 2) + 2 := by omega
          rw [hcount, hpair]
          show [b.1, b.2] ++ delivered tr = _
          rw [hdel]
          rfl
      next hge =>
        have hge' : ¬ u.toNat < q.len.toNat := hge
        have hcount : q.len.toNat - u.toNat = 0 := by omega
        refine Program.Ensures.ret ⟨?_, q, rfl, ⟨rfl, rfl⟩, fun _ _ => rfl, ?_⟩
        · intro k' v b hmem
          exact absurd hmem List.not_mem_nil
        · rw [hcount]
          rfl

/-- **Even pbufs in a row are filled exactly**, in order. -/
theorem readSegments_spec (all : List Pbuf) {fuel : Nat} (hfuel : 2 ^ 15 ≤ fuel) (qs : List Pbuf)
    (k : Nat) (hk : all.drop k = qs) (heven : ∀ q ∈ qs, q.len.toNat % 2 = 0) :
    Program.Ensures ok (readSegments fuel k qs) fun tr r => StoresInside all tr ∧ ∃ qs',
      r = some qs' ∧ List.Forall₂ SameShape qs qs' ∧ dataOf qs' = delivered tr := by
  induction qs generalizing k with
  | nil =>
      refine Program.Ensures.ret ⟨?_, [], rfl, .nil, rfl⟩
      intro k' v b hmem
      exact absurd hmem List.not_mem_nil
  | cons q qs ih =>
      obtain ⟨hq, hqs⟩ := List.forall_mem_cons.mp heven
      have hmax : q.len.toNat < 2 ^ 16 := q.len.toNat_lt
      -- the pbufs that are left begin with the `k`-th
      have hat : all[k]? = some q := by
        have := congrArg (·[0]?) hk
        simpa using this
      have hrest : all.drop (k + 1) = qs := by
        rw [← List.drop_drop, hk]
        rfl
      have hzero : (0 : UInt16).toNat = 0 := rfl
      refine Program.Ensures.bind
        (readPayload_spec all hat hq fuel q 0 rfl rfl (by rw [hzero]; omega)) ?_
      rintro tr _ ⟨hin, q', rfl, hshape, -, hdel⟩
      refine Program.Ensures.bind (ih (k + 1) hrest hqs) ?_
      rintro tr' _ ⟨hin', qs', rfl, hshapes, hdel'⟩
      -- this pbuf has taken the first bytes, the others take the rest
      rw [hzero, Nat.sub_zero, ← List.range_eq_range'] at hdel
      refine Program.Ensures.ret ⟨?_, q' :: qs', rfl, .cons hshape hshapes, ?_⟩
      · rw [List.append_nil]
        exact hin.append hin'
      · rw [List.append_nil, delivered_append, hdel, ← hdel', dataOf_cons]
        unfold Pbuf.bytes
        rw [hshape.2]

/-! ## §3. What a loop that ends has stored. -/

/-- **A copy loop that ends has stored at every even index** from its first on. -/
theorem readPayload_reads (k fuel : Nat) (q : Pbuf) (u : UInt16) :
    Program.Ensures ok (readPayload fuel k q u) fun tr r => r.isSome → ∀ v, u.toNat ≤ v →
      v < q.len.toNat → v % 2 = u.toNat % 2 → StoresAt k v tr := by
  induction fuel generalizing q u with
  | zero => exact Program.Ensures.ret fun hsome => absurd hsome (by simp)
  | succ fuel ih =>
      rw [readPayload]
      split
      next hlt =>
        refine Program.Ensures.call fun b _ => ?_
        refine (ih ((q.setByte u.toNat b.1).setByte (u.toNat + 1) b.2) (u + 2)).mono ?_
        intro tr r hlater hsome v hle hv hparity
        -- `v` is this round's index or a later one
        have hmax : q.len.toNat < 2 ^ 16 := q.len.toNat_lt
        by_cases hfirst : v = u.toNat
        · exact ⟨u, b, List.mem_cons_self .., hfirst.symm⟩
        · -- a later index: then the next one has not wrapped
          have hnext : (u + 2).toNat = u.toNat + 2 := by
            rw [UInt16.toNat_add]
            show (u.toNat + 2) % 2 ^ 16 = _
            omega
          exact (hlater hsome v (by omega) hv (by omega)).right [_]
      next hge =>
        have hge' : ¬ u.toNat < q.len.toNat := hge
        exact Program.Ensures.ret fun _ v hle hv _ => absurd hv (by omega)

/-- Every even index of every pbuf is filled. -/
theorem readSegments_reads (fuel : Nat) (qs : List Pbuf) (k : Nat) :
    Program.Ensures ok (readSegments fuel k qs) fun tr r => r.isSome → ∀ j q, qs[j]? = some q →
      ∀ v < q.len.toNat, v % 2 = 0 → StoresAt (k + j) v tr := by
  induction qs generalizing k with
  | nil => exact Program.Ensures.ret fun _ j q hj => absurd hj (by simp)
  | cons q qs ih =>
      refine Program.Ensures.bind (readPayload_reads k fuel q 0) ?_
      intro tr r hfirst
      cases r with
      -- the loop has not ended
      | none => exact Program.Ensures.ret fun hsome => absurd hsome (by simp)
      | some q' =>
          refine Program.Ensures.bind (ih (k + 1)) ?_
          intro tr' r' hlater
          cases r' with
          | none => exact Program.Ensures.ret fun hsome => absurd hsome (by simp)
          | some qs' =>
              refine Program.Ensures.ret fun _ j q'' hj v hv hparity => ?_
              rw [List.append_nil]
              cases j with
              -- the first pbuf, and then one of the others
              | zero =>
                  obtain rfl : q = q'' := Option.some.inj hj
                  exact (hfirst rfl v (Nat.zero_le v) hv hparity).left tr'
              | succ j =>
                  have hstore := hlater rfl j q'' hj v hv hparity
                  rw [show k + (j + 1) = k + 1 + j by omega]
                  exact hstore.right tr

end Loops

/-! ## §4. The driver around the loops. -/

/-- No frame bytes are read. -/
def ReadsNothing (tr : List BusStep) : Prop := ∀ k u b, ⟨.cs8900aReadRxBuf k u, b⟩ ∉ tr

/-- So nothing comes out. -/
theorem ReadsNothing.delivered {tr : List BusStep} (h : ReadsNothing tr) : delivered tr = [] := by
  unfold Cs8900a.delivered
  rw [List.flatMap_eq_nil_iff]
  rintro ⟨op, ans⟩ hin
  cases op with
  | cs8900aReadRxBuf k u => exact absurd hin (h k u ans)
  | _ => rfl

/-- And nothing is stored. -/
theorem ReadsNothing.storesInside {tr : List BusStep} (h : ReadsNothing tr) (qs : List Pbuf) :
    StoresInside qs tr := fun k u b hin => absurd hin (h k u b)

/-- Two such parts in a row. -/
theorem ReadsNothing.append {tr tr' : List BusStep} (h : ReadsNothing tr)
    (h' : ReadsNothing tr') : ReadsNothing (tr ++ tr') := by
  intro k u b hin
  rcases List.mem_append.mp hin with hin | hin
  · exact h k u b hin
  · exact h' k u b hin

section Driver

variable {ok : BusStep → Prop} {hdr : PbufChain → Int → PbufChain} {pad : Nat} {p : PbufChain}

/-- An operation other than the reading of frame bytes. -/
theorem readsNothing_singleton {op : Op} {ans : op.Ans} (h : ∀ k u, op ≠ .cs8900aReadRxBuf k u) :
    ReadsNothing [⟨op, ans⟩] := by
  intro k u b hin
  have heq := List.mem_singleton.mp hin
  exact h k u (congrArg Sigma.fst heq).symm

/-- Any other call. -/
theorem perform_readsNothing {op : Op} (h : ∀ k u, op ≠ .cs8900aReadRxBuf k u) :
    Program.Ensures ok (Program.perform op) fun tr _ => ReadsNothing tr :=
  Program.Ensures.perform fun _ _ => readsNothing_singleton h

/-- A frame that is skipped is not read. -/
theorem skipFrame_readsNothing :
    Program.Ensures ok cs8900aSkipFrame fun tr _ => ReadsNothing tr := by
  refine Program.Ensures.bind (perform_readsNothing (by simp)) ?_
  intro tr _ h
  refine Program.Ensures.bind (perform_readsNothing (by simp)) ?_
  intro tr' cfg h'
  exact (perform_readsNothing (by simp)).mono fun tr'' _ h'' => h.append (h'.append h'')

/-- The two steps over the padding. -/
theorem dropPadding_readsNothing (hok : ∀ e, ok e → HeaderBy hdr e) :
    Program.Ensures ok (dropPadding pad p) fun tr q =>
      ReadsNothing tr ∧ q = withoutPadding hdr pad p :=
  dropPadding_spec hok (fun _ _ _ => List.not_mem_nil)
    (fun _ _ _ => readsNothing_singleton (by simp)) pad p

/-- The padding is not read. -/
theorem reclaimPadding_readsNothing (hok : ∀ e, ok e → HeaderBy hdr e) :
    Program.Ensures ok (reclaimPadding pad p) fun tr q =>
      ReadsNothing tr ∧ q = withPadding hdr pad p :=
  reclaimPadding_spec hok (fun _ _ _ => List.not_mem_nil)
    (fun _ _ _ => readsNothing_singleton (by simp)) pad p

/-- **`receiveInto` is one loop over all pbufs**, between operations that read nothing. -/
theorem receiveInto_segments (hok : ∀ e, ok e → HeaderBy hdr e) {fuel : Nat}
    {R : List BusStep → Option (List Pbuf) → Prop}
    (hloop : Program.Ensures ok (readSegments fuel 0 (withoutPadding hdr pad p).segments) R) :
    Program.Ensures ok (receiveInto pad fuel p) fun tr r => ∃ front loop back filled,
      tr = front ++ loop ++ back ∧ ReadsNothing front ∧ ReadsNothing back ∧ R loop filled
        ∧ (filled = none ∧ r = none ∨ ∃ q : PbufChain, filled = some q.segments
          ∧ q.tot_len = (withoutPadding hdr pad p).tot_len ∧ r = some (withPadding hdr pad q)) := by
  refine Program.Ensures.bind (dropPadding_readsNothing hok) ?_
  rintro tr₁ q ⟨h₁, rfl⟩
  generalize withoutPadding hdr pad p = q at hloop ⊢
  refine Program.Ensures.bind (perform_readsNothing (by simp)) ?_
  intro tr₂ _ h₂
  have hnothing : ReadsNothing [] := fun _ _ _ => List.not_mem_nil
  -- the first pbuf, and then the others: together they are the loop
  refine Program.Ensures.bind (R := fun tr r => Program.Trace (readPayload fuel 0 q.first 0) tr r
    ∧ ∀ e ∈ tr, ok e) (fun _ _ htr hall => ⟨htr, hall⟩) ?_
  rintro tr₃ r₃ ⟨h₃, hok₃⟩
  cases r₃ with
  | none =>
      have hdone := hloop _ none (h₃.bind (.ret none)) (by simpa using hok₃)
      exact Program.Ensures.ret ⟨tr₁ ++ tr₂, tr₃ ++ [], [], none, by simp, h₁.append h₂, hnothing,
        hdone, .inl ⟨rfl, rfl⟩⟩
  | some first =>
      refine Program.Ensures.bind (R := fun tr r => Program.Trace (readSegments fuel 1 q.next) tr r
        ∧ ∀ e ∈ tr, ok e) (fun _ _ htr hall => ⟨htr, hall⟩) ?_
      rintro tr₄ r₄ ⟨h₄, hok₄⟩
      have hok₃₄ : ∀ e ∈ tr₃ ++ (tr₄ ++ []), ok e := by
        rw [List.append_nil]
        exact List.forall_mem_append.mpr ⟨hok₃, hok₄⟩
      cases r₄ with
      | none =>
          have hdone := hloop _ none (h₃.bind (h₄.bind (.ret none))) hok₃₄
          exact Program.Ensures.ret ⟨tr₁ ++ tr₂, tr₃ ++ (tr₄ ++ []), [], none, by simp,
            h₁.append h₂, hnothing, hdone, .inl ⟨rfl, rfl⟩⟩
      | some next =>
          have hdone := hloop _ (some (first :: next)) (h₃.bind (h₄.bind (.ret _))) hok₃₄
          refine Program.Ensures.bind (reclaimPadding_readsNothing hok) ?_
          rintro tr₅ _ ⟨h₅, rfl⟩
          refine Program.Ensures.bind (perform_readsNothing (by simp)) ?_
          intro tr₆ _ h₆
          exact Program.Ensures.ret ⟨tr₁ ++ tr₂, tr₃ ++ (tr₄ ++ []), tr₅ ++ tr₆, _, by simp,
            h₁.append h₂, h₅.append h₆, hdone, .inr ⟨⟨first, next, q.tot_len⟩, rfl, rfl, rfl⟩⟩

/-- **A chain of even pbufs is filled with the frame.** -/
theorem receiveInto_spec (hok : ∀ e, ok e → HeaderBy hdr e) {fuel : Nat} (hfuel : 2 ^ 15 ≤ fuel)
    (heven : ∀ q ∈ (withoutPadding hdr pad p).segments, q.len.toNat % 2 = 0) :
    Program.Ensures ok (receiveInto pad fuel p) fun tr r =>
      StoresInside (withoutPadding hdr pad p).segments tr ∧ ∃ q, r = some (withPadding hdr pad q)
        ∧ List.Forall₂ SameShape (withoutPadding hdr pad p).segments q.segments
        ∧ dataOf q.segments = delivered tr := by
  refine (receiveInto_segments hok (readSegments_spec _ hfuel _ 0 rfl heven)).mono ?_
  rintro _ r ⟨front, loop, back, _, rfl, hfront, hback, ⟨hin, qs, rfl, hshape, hdata⟩, hr⟩
  refine ⟨((hfront.storesInside _).append hin).append (hback.storesInside _), ?_⟩
  rcases hr with ⟨hnone, -⟩ | ⟨q, hq, -, rfl⟩
  · exact absurd hnone (by simp)
  · obtain rfl := Option.some.inj hq
    refine ⟨q, rfl, hshape, ?_⟩
    rw [hdata, delivered_append, delivered_append, hfront.delivered, hback.delivered,
      List.nil_append, List.append_nil]

/-- **A fill that ends has stored at every even index of every pbuf.** -/
theorem receiveInto_reads (hok : ∀ e, ok e → HeaderBy hdr e) (fuel : Nat) :
    Program.Ensures ok (receiveInto pad fuel p) fun tr r => r.isSome →
      ∀ (j : Nat) q, (withoutPadding hdr pad p).segments[j]? = some q →
        ∀ v < q.len.toNat, v % 2 = 0 → StoresAt j v tr := by
  refine (receiveInto_segments hok (readSegments_reads fuel _ 0)).mono ?_
  rintro _ r ⟨front, loop, back, filled, rfl, -, -, hstores, hr⟩ hsome j q hj v hv hparity
  rcases hr with ⟨-, rfl⟩ | ⟨q', rfl, -, -⟩
  · exact absurd hsome (by simp)
  · have hstore := hstores rfl j q hj v hv hparity
    rw [Nat.zero_add] at hstore
    exact (hstore.right front).left back

/-- **What `lowLevelInput` does**: nothing that matters here, or it gets a chain
and fills it. -/
theorem lowLevelInput_cases (fuel : Nat) :
    Program.Ensures ok (lowLevelInput pad fuel) fun tr r => r = some none ∨
      ∃ tr₀ tr₁ n p q, tr = tr₀ ++ tr₁ ∧ ReadsNothing tr₀ ∧ ok ⟨.pbuf_alloc n, some p⟩
        ∧ Program.Trace (receiveInto pad fuel p) tr₁ q ∧ (∀ e ∈ tr₁, ok e) ∧ r = q.map some := by
  refine Program.Ensures.bind (perform_readsNothing (by simp)) ?_
  intro tr₁ _ h₁
  refine Program.Ensures.bind (perform_readsNothing (by simp)) ?_
  intro tr₂ event h₂
  split
  next => exact Program.Ensures.ret (.inl rfl)
  next =>
    refine Program.Ensures.bind (perform_readsNothing (by simp)) ?_
    intro tr₃ _ h₃
    refine Program.Ensures.bind (perform_readsNothing (by simp)) ?_
    intro tr₄ len h₄
    refine Program.Ensures.bind (R := fun tr ans => ReadsNothing tr ∧ ∃ n, ok ⟨.pbuf_alloc n, ans⟩)
      (Program.Ensures.perform fun ans hans => ⟨readsNothing_singleton (by simp), _, hans⟩) ?_
    rintro tr₅ ans ⟨h₅, n, hans⟩
    cases ans with
    | none =>
        -- the frame is skipped and counted
        refine Program.Ensures.bind skipFrame_readsNothing ?_
        intro tr₆ _ _
        refine Program.Ensures.bind (perform_readsNothing (by simp)) ?_
        intro tr₇ _ _
        refine Program.Ensures.bind (perform_readsNothing (by simp)) ?_
        intro tr₈ _ _
        exact Program.Ensures.ret (.inl rfl)
    | some p =>
        refine Program.Ensures.bind (R := fun tr q => Program.Trace (receiveInto pad fuel p) tr q
          ∧ ∀ e ∈ tr, ok e) (fun tr q htr hall => ⟨htr, hall⟩) ?_
        rintro tr₆ q ⟨htr, hall⟩
        have hquiet := h₁.append (h₂.append (h₃.append (h₄.append h₅)))
        cases q <;>
          exact Program.Ensures.ret (.inr ⟨_, tr₆, n, p, _, by simp, hquiet, hans, htr, hall, rfl⟩)

/-! ## §5. Reception. -/

/-- Whatever else it promises, `pbuf_header` does what it is for. -/
theorem ReceivesInto.headerBy {e : BusStep} (h : ReceivesInto hdr p e) : HeaderBy hdr e := by
  obtain ⟨op, ans⟩ := e
  cases op with
  | pbuf_alloc n => trivial
  | _ => exact h

/-- **A chain of even pbufs receives the frame.** -/
theorem receivesFrame_of_even
    (heven : ∀ q ∈ (withoutPadding hdr pad p).segments, q.len.toNat % 2 = 0) :
    ReceivesFrame hdr pad p := by
  refine ⟨2 ^ 15, ?_⟩
  intro tr r htr hall hframe
  rcases lowLevelInput_cases (2 ^ 15) tr r htr hall with
    hnone | ⟨tr₀, tr₁, n, p', q, rfl, hquiet, halloc, hfill, hall₁, rfl⟩
  · exact absurd hnone hframe
  · rcases halloc with hnull | ⟨hsome, -⟩
    · exact absurd hnull (by simp)
    · obtain rfl : p' = p := Option.some.inj hsome
      obtain ⟨hin, q', rfl, hshape, hdata⟩ := receiveInto_spec (fun e => ReceivesInto.headerBy)
        (Nat.le_refl _) heven tr₁ q hfill hall₁
      refine ⟨⟨q', rfl, hshape, ?_⟩, (hquiet.storesInside _).append hin⟩
      rw [delivered_append, hquiet.delivered, hdata]
      rfl

/-- An lwIP that has the chain `p` and no other. -/
theorem receivesInto_alloc (hdr : PbufChain → Int → PbufChain) (p : PbufChain) (n : UInt16) :
    ReceivesInto hdr p ⟨.pbuf_alloc n, if n = p.tot_len then some p else none⟩ := by
  show (if n = p.tot_len then some p else none) = none ∨ _ = some p ∧ n = p.tot_len
  by_cases hn : n = p.tot_len
  · exact .inr ⟨if_pos hn, hn⟩
  · exact .inl (if_neg hn)

/-- A chip that announces a frame for the chain `p`, and an lwIP that has it. -/
def announcingChip (hdr : PbufChain → Int → PbufChain) (pad : Nat) (p : PbufChain) :
    (op : Op) → op.Ans
  | .cs8900aWrite _ _ => ()
  | .cs8900aRead _ => (0x0100 : UInt16)
  | .cs8900aReadAddrHighFirst _ => p.tot_len - UInt16.ofNat pad
  | .busOut _ => ()
  | .busIn _ => ()
  | .cs8900aWriteTxBuf _ _ => ()
  | .cs8900aReadRxBuf _ _ => ((1, 2) : UInt8 × UInt8)
  | .pbuf_alloc n => if n = p.tot_len then some p else none
  | .pbuf_header q increment => hdr q increment
  | .LINK_STATS_INC _ => ()

/-- The driver finds that frame and gets the chain. -/
theorem announcingChip_frame (hdr : PbufChain → Int → PbufChain) (pad : Nat) (p : PbufChain)
    (fuel : Nat) : ∃ tr r, Program.Trace (lowLevelInput pad fuel) tr r
      ∧ (∀ e ∈ tr, ReceivesInto hdr p e) ∧ r ≠ some none := by
  refine ⟨_, _, Program.trace_run (announcingChip hdr pad p) (lowLevelInput pad fuel), ?_, ?_⟩
  · rintro ⟨op, ans⟩ he
    obtain rfl : ans = announcingChip hdr pad p op := Program.answer_of_mem_run he
    cases op with
    | pbuf_alloc n =>
        exact receivesInto_alloc hdr p n
    | pbuf_header q increment => rfl
    | _ => trivial
  · have hevent : ¬ (0x0100 : UInt16) &&& 0xd00 = 0 := by decide
    have hread : ((cs8900aRead DATA_PORT).run (announcingChip hdr pad p)).2 = 0x0100 := rfl
    have hlen : ((cs8900aReadAddrHighFirst RX_FRAME_PORT).run (announcingChip hdr pad p)).2
        = p.tot_len - UInt16.ofNat pad := rfl
    have halloc : ∀ n, ((pbuf_alloc n).run (announcingChip hdr pad p)).2
        = if n = p.tot_len then some p else none := fun _ => rfl
    simp only [lowLevelInput, Program.run_bind, hread, hevent, if_false, hlen, halloc,
      UInt16.sub_add_cancel, if_true]
    -- the loop ends or it does not
    cases ((receiveInto pad fuel p).run (announcingChip hdr pad p)).2 <;>
      simp only [Program.run_pure, ne_eq, reduceCtorEq, not_false_eq_true, Option.some.injEq]

/-- **An odd pbuf is overrun**, if the loop over it ends at all. -/
theorem not_receivesFrame_of_odd {q : Pbuf} (hq : q ∈ (withoutPadding hdr pad p).segments)
    (hodd : q.len.toNat % 2 ≠ 0) : ¬ ReceivesFrame hdr pad p := by
  rintro ⟨fuel, hall⟩
  obtain ⟨tr, r, htr, hok, hframe⟩ := announcingChip_frame hdr pad p fuel
  obtain ⟨⟨q', rfl, -, -⟩, hin⟩ := hall tr r htr hok hframe
  obtain ⟨j, hj⟩ := List.mem_iff_getElem?.mp hq
  rcases lowLevelInput_cases fuel tr _ htr hok with
    hnone | ⟨tr₀, tr₁, n, p', q'', rfl, -, halloc, hfill, hok₁, hr⟩
  · exact absurd hnone (by simp)
  · rcases halloc with hnull | ⟨hsome, -⟩
    · exact absurd hnull (by simp)
    · obtain rfl : p' = p := Option.some.inj hsome
      have hdone : q''.isSome := by
        cases q'' with
        | none => exact absurd hr (by simp)
        | some _ => rfl
      -- the last byte of an odd pbuf has an even index
      obtain ⟨v, b, hmem, hv⟩ := receiveInto_reads (fun e => ReceivesInto.headerBy) fuel tr₁ q''
        hfill hok₁ hdone j q hj (q.len.toNat - 1) (by omega) (by omega)
      obtain ⟨q₁, hq₁, hlt⟩ := hin j v b (List.mem_append_right _ hmem)
      obtain rfl : q = q₁ := Option.some.inj (hj.symm.trans hq₁)
      omega

end Driver

/-- **The frame is received exactly when every pbuf is even.** -/
theorem receives_iff (hdr : PbufChain → Int → PbufChain) (pad : Nat) (p : PbufChain) :
    ReceivesFrame hdr pad p
      ↔ ∀ q ∈ (withoutPadding hdr pad p).segments, q.len.toNat % 2 = 0 := by
  constructor
  · intro hreceives q hq
    by_contra hodd
    exact not_receivesFrame_of_odd hq hodd hreceives
  · exact receivesFrame_of_even

/-! ## §6. Two sample chains. -/

/-- A frame of four bytes, split in two, behind two bytes of padding. -/
def evenChain : PbufChain := ⟨samplePbuf [] 0 4, [samplePbuf [] 0 2], 6⟩

/-- Two even pbufs: the frame is in them. -/
theorem receives_iff_even : ReceivesFrame samplePbufHeader 2 evenChain := by
  apply (receives_iff samplePbufHeader 2 evenChain).mpr
  decide

/-- Room for one byte. -/
def oneByteChain : PbufChain := ⟨samplePbuf [] 0 1, [], 1⟩

/-- Two bytes are stored there. -/
theorem odd_pbuf_overrun :
    oneByteChain.Consistent
      ∧ (∃ tr r, Program.Trace (lowLevelInput 0 2) tr r
          ∧ (∀ e ∈ tr, ReceivesInto samplePbufHeader oneByteChain e) ∧ r ≠ some none)
      ∧ ¬ ReceivesFrame samplePbufHeader 0 oneByteChain :=
  ⟨rfl, announcingChip_frame samplePbufHeader 0 oneByteChain 2,
    not_receivesFrame_of_odd (List.mem_cons_self ..) (by decide)⟩

end PicoosLwip.Netif.Cs8900a
