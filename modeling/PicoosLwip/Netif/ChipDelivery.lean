/-
  PicoosLwip.Netif.ChipDelivery — from a frame in the CS8900A to `netif->input`.

  Reading `PP_RxEvent` makes the chip offer its next frame at `RX_FRAME_PORT`: a status
  word, the length, and then the bytes in pairs, an odd last one with a filler.  What
  is not read by then is gone, and so is a frame that is skipped.

  `receives_iff` asks for pbufs of even length all along.  The last pbuf of a frame is as
  long as the frame leaves it.  Where it is odd the filler is stored behind its end,
  and the frame is complete all the same.

  Main results:
    * `receiveInto_fills`   — a chain is filled with what is delivered, and fillers;
    * `lowLevelInput_holds` — the chain that is fetched holds the frame;
    * `cs8900aIfInput_poll` — one round is one poll that delivers.
-/
import PicoosLwip.Netif.ChipPorts
import PicoosLwip.Netif.Delivery
import Mathlib.Data.List.Infix

namespace PicoosLwip.Netif.Cs8900a

open PicoosLwip.Framework

/-! ## §1. The copy loops. -/

/-- Rounds enough for every pbuf of less than 65535 bytes. -/
def copyRounds : Nat := 0x8000

/-- No index wraps. -/
def Short (q : Pbuf) : Prop := q.len.toNat + 1 < 65536

section Loops

variable {ok : BusStep → Prop} {fuel : Nat}

/-- **A pbuf is filled with what is delivered**, and with one byte more if it is odd. -/
theorem readPayload_fills (k fuel : Nat) (q : Pbuf) (u : UInt16) (hshort : Short q)
    (hu : u.toNat % 2 = 0) (hfuel : (q.len.toNat + 1 - u.toNat) / 2 < fuel) :
    Program.Ensures ok (readPayload fuel k q u) fun tr r => ∃ q', r = some q' ∧ SameShape q q'
      ∧ (∀ i < u.toNat, q'.byteAt i = q.byteAt i)
      ∧ delivered tr
        = (List.range' u.toNat (q.len.toNat + q.len.toNat % 2 - u.toNat)).map q'.byteAt := by
  induction fuel generalizing q u with
  | zero => omega
  | succ fuel ih =>
      unfold Short at hshort
      rw [readPayload]
      split
      next hlt =>
        have hlt' : u.toNat < q.len.toNat := hlt
        have hnext : (u + 2).toNat = u.toNat + 2 := by
          rw [UInt16.toNat_add]
          show (u.toNat + 2) % 2 ^ 16 = _
          omega
        refine Program.Ensures.call fun b _ => ?_
        refine (ih ((q.setByte u.toNat b.1).setByte (u.toNat + 1) b.2) (u + 2) hshort (by omega)
          (by show (q.len.toNat + 1 - _) / 2 < fuel; omega)).mono ?_
        rintro tr r ⟨q', rfl, hshape, hkeep, hdel⟩
        rw [hnext] at hkeep hdel
        obtain ⟨hbefore, hpair⟩ := bytes_of_stored hkeep
        refine ⟨q', rfl, hshape, hbefore, ?_⟩
        -- two bytes now, and the rest from `u + 2` on
        have hcount : q.len.toNat + q.len.toNat % 2 - u.toNat
            = q.len.toNat + q.len.toNat % 2 - (u.toNat + 2) + 2 := by omega
        rw [hcount, hpair]
        show [b.1, b.2] ++ delivered tr = _
        rw [hdel]
        rfl
      next hge =>
        have hge' : ¬ u.toNat < q.len.toNat := hge
        have hcount : q.len.toNat + q.len.toNat % 2 - u.toNat = 0 := by omega
        refine Program.Ensures.ret ⟨q, rfl, ⟨rfl, rfl⟩, fun _ _ => rfl, ?_⟩
        rw [hcount]
        rfl

/-- From the beginning. -/
theorem readPayload_padded (k : Nat) (q : Pbuf) (hshort : Short q) (hfuel : copyRounds ≤ fuel) :
    Program.Ensures ok (readPayload fuel k q 0) fun tr r => ∃ q', r = some q' ∧ SameShape q q'
      ∧ delivered tr = padded q' := by
  have hzero : (0 : UInt16).toNat = 0 := rfl
  have hrounds : (q.len.toNat + 1 - (0 : UInt16).toNat) / 2 < fuel := by
    unfold Short at hshort
    unfold copyRounds at hfuel
    rw [hzero]
    omega
  refine (readPayload_fills k fuel q 0 hshort rfl hrounds).mono ?_
  rintro tr r ⟨q', rfl, hshape, -, hdel⟩
  refine ⟨q', rfl, hshape, ?_⟩
  rw [hdel, hzero, Nat.sub_zero, ← List.range_eq_range', ← hshape.2]
  rfl

/-- All pbufs are filled in turn, each up to an even number of bytes. -/
theorem readSegments_fills (hfuel : copyRounds ≤ fuel) (qs : List Pbuf) (k : Nat)
    (hshort : ∀ q ∈ qs, Short q) :
    Program.Ensures ok (readSegments fuel k qs) fun tr r => ∃ qs', r = some qs'
      ∧ List.Forall₂ SameShape qs qs' ∧ delivered tr = qs'.flatMap padded := by
  induction qs generalizing k with
  | nil => exact Program.Ensures.ret ⟨[], rfl, .nil, rfl⟩
  | cons q qs ih =>
      obtain ⟨hq, hqs⟩ := List.forall_mem_cons.mp hshort
      refine Program.Ensures.bind (readPayload_padded k q hq hfuel) ?_
      rintro tr _ ⟨q', rfl, hshape, hdel⟩
      refine Program.Ensures.bind (ih (k + 1) hqs) ?_
      rintro tr' _ ⟨qs', rfl, hshapes, hdel'⟩
      refine Program.Ensures.ret ⟨q' :: qs', rfl, .cons hshape hshapes, ?_⟩
      rw [List.append_nil, delivered_append, hdel, hdel', List.flatMap_cons]

variable {hdr : PbufChain → Int → PbufChain} {pad : Nat} {p : PbufChain}

/-- **A chain is filled with what is delivered**, each pbuf padded to an even length. -/
theorem receiveInto_fills (hok : ∀ e, ok e → HeaderBy hdr e) (hfuel : copyRounds ≤ fuel)
    (hshort : ∀ q ∈ (withoutPadding hdr pad p).segments, Short q) :
    Program.Ensures ok (receiveInto pad fuel p) fun tr r => ∃ q, r = some (withPadding hdr pad q)
      ∧ List.Forall₂ SameShape (withoutPadding hdr pad p).segments q.segments
      ∧ q.tot_len = (withoutPadding hdr pad p).tot_len
      ∧ delivered tr = q.segments.flatMap padded := by
  refine (receiveInto_segments hok (readSegments_fills hfuel _ 0 hshort)).mono ?_
  rintro _ r ⟨front, loop, back, _, rfl, hfront, hback, ⟨qs, rfl, hshape, hdel⟩, hr⟩
  rcases hr with ⟨hnone, -⟩ | ⟨q, hq, htot, rfl⟩
  · exact absurd hnone (by simp)
  · obtain rfl := Option.some.inj hq
    refine ⟨q, rfl, hshape, htot, ?_⟩
    rw [delivered_append, delivered_append, hfront.delivered, hback.delivered, hdel,
      List.nil_append, List.append_nil]

end Loops

/-! ## §2. What the chip offers. -/

/-- The words at `RX_FRAME_PORT` that have not been read, each with its low byte first. -/
abbrev RxPort : Type := List (UInt8 × UInt8)

/-- The word of two bytes, the low one first. -/
def toWord (b : UInt8 × UInt8) : UInt16 := ⟨b.2.toBitVec ++ b.1.toBitVec⟩

/-- The two bytes of a word, the low one first. -/
def toBytes (w : UInt16) : UInt8 × UInt8 :=
  (⟨w.toBitVec.extractLsb' 0 8⟩, ⟨w.toBitVec.extractLsb' 8 8⟩)

/-- No byte is lost. -/
theorem toWord_toBytes (w : UInt16) : toWord (toBytes w) = w := word_of_bytes w

/-- The bytes of a frame in pairs. -/
def pairs (filler : UInt8) : List UInt8 → RxPort
  | [] => []
  | [b] => [(b, filler)]
  | b0 :: b1 :: bs => (b0, b1) :: pairs filler bs

/-- What the frame port gives for a frame: status, length, and the frame in pairs. -/
def offered (stat : UInt16) (filler : UInt8) (frame : List UInt8) : RxPort :=
  toBytes stat :: toBytes (UInt16.ofNat frame.length) :: pairs filler frame

/-- The bytes, as they are read. -/
def flat (port : RxPort) : List UInt8 := port.flatMap fun b => [b.1, b.2]

/-- The frame, and the filler behind an odd number of bytes. -/
theorem flat_pairs (filler : UInt8) (frame : List UInt8) :
    frame <+: flat (pairs filler frame)
      ∧ (flat (pairs filler frame)).length = frame.length + frame.length % 2 := by
  induction frame using pairs.induct with
  | case1 => exact ⟨List.nil_prefix, rfl⟩
  | case2 b => exact ⟨⟨[filler], rfl⟩, rfl⟩
  | case3 b0 b1 bs ih =>
      obtain ⟨hstart, hlen⟩ := ih
      have hcons : flat (pairs filler (b0 :: b1 :: bs)) = b0 :: b1 :: flat (pairs filler bs) := rfl
      rw [hcons]
      refine ⟨List.cons_prefix_cons.mpr ⟨rfl, List.cons_prefix_cons.mpr ⟨rfl, hstart⟩⟩, ?_⟩
      simp only [List.length_cons, hlen]
      omega

/-- What an operation finds at the port and leaves there. -/
def AtPort (c : Chip) (port : RxPort) : (op : Op) → op.Ans → RxPort → Prop
  -- a poll offers the next frame at the port
  | .cs8900aRead addr, _, port' =>
      if addr = DATA_PORT ∧ c.latch = PP_RxEvent then
        match c.receiver.queue with
        | [] => port' = port
        | frame :: _ => ∃ stat filler, port' = offered stat filler frame
      else port' = port
  -- SKIP_1 discards what is left of it
  | .cs8900aWrite addr data, _, port' =>
      port' = if addr = DATA_PORT ∧ c.latch = PP_RxCFG ∧ data &&& SKIP_1 ≠ 0 then [] else port
  -- status and length
  | .cs8900aReadAddrHighFirst addr, w, port' =>
      if addr = RX_FRAME_PORT then
        match port with
        | [] => port' = []
        | b :: rest => w = toWord b ∧ port' = rest
      else port' = port
  -- the frame; behind its end anything may be read
  | .cs8900aReadRxBuf _ _, b, port' =>
      match port with
      | [] => port' = []
      | b' :: rest => b = b' ∧ port' = rest
  | _, _, port' => port' = port

/-- Only the last pbuf may be of odd length. -/
def EvenButLast (qs : List Pbuf) : Prop := ∀ n ∈ (qs.map Pbuf.len).dropLast, n.toNat % 2 = 0

/-- What lwIP keeps to: without the padding its chains have one odd pbuf at most, which is
the last. -/
def PoolBy (hdr : PbufChain → Int → PbufChain) (pad : Nat) : BusStep → Prop
  | ⟨.pbuf_alloc len, alloc⟩ => ∀ p, alloc = some p →
      PoolChain pad len p ∧ EvenButLast (withoutPadding hdr pad p).segments
  | e => HeaderBy hdr e

/-- The chip and what it offers, with such an lwIP. -/
def rxEnv (alloc : Nat → Bool) (hdr : PbufChain → Int → PbufChain) (pad : Nat) :
    Program.Env (Chip × RxPort) Op Op.Ans
  | s, op, ans, s' => cs8900aEnv alloc s.1 op ans s'.1 ∧ AtPort s.1 s.2 op ans s'.2
      ∧ PoolBy hdr pad ⟨op, ans⟩

section Fetch

variable {alloc : Nat → Bool} {hdr : PbufChain → Int → PbufChain} {pad : Nat}

/-- Whatever else it promises, `pbuf_header` does what it is for. -/
theorem PoolBy.headerBy {e : BusStep} (h : PoolBy hdr pad e) : HeaderBy hdr e := by
  obtain ⟨op, ans⟩ := e
  cases op with
  | pbuf_alloc len => trivial
  | _ => exact h

/-- What is copied comes from the port, as long as there is something. -/
theorem delivered_at_port {α : Type} {m : Driver α} (hm : m.AllOps Op.Copies)
    {s s' : Chip × RxPort} {a : α} (h : Program.Exec (rxEnv alloc hdr pad) s m a s') :
    ∃ tr, Program.Trace m tr a ∧ (∀ e ∈ tr, PoolBy hdr pad e)
      ∧ ((delivered tr).length ≤ (flat s.2).length → delivered tr <+: flat s.2) := by
  induction h with
  | ret s a => exact ⟨[], .ret a, fun e he => absurd he List.not_mem_nil, fun _ => List.nil_prefix⟩
  | @call s s₁ s₂ op k ans a hop _ ih =>
      obtain ⟨tr, htr, hall, hstart⟩ := ih (hm.2 ans)
      obtain ⟨-, hport, hby⟩ := hop
      refine ⟨_, .call op k ans htr, List.forall_mem_cons.mpr ⟨hby, hall⟩, ?_⟩
      have hcopies := hm.1
      cases op with
      | cs8900aReadRxBuf k u =>
          obtain ⟨c, port⟩ := s
          obtain ⟨b0, b1⟩ := ans
          cases port with
          | nil =>
              -- the port has run out, and more is delivered than there was
              exact fun hlen => absurd hlen (by simp [delivered, BusStep.delivered, flat])
          | cons b rest =>
              obtain ⟨rfl, hrest⟩ : (b0, b1) = b ∧ s₁.2 = rest := hport
              rw [hrest] at hstart
              intro hlen
              have hlen' : (delivered tr).length + 2 ≤ (flat rest).length + 2 := hlen
              show [b0, b1] ++ delivered tr <+: [b0, b1] ++ flat rest
              exact (List.prefix_append_right_inj _).mpr (hstart (by omega))
      | busIn port | pbuf_header p increment | LINK_STATS_INC stat =>
          have hsame : s₁.2 = s.2 := hport
          rw [hsame] at hstart
          exact hstart
      | _ => exact hcopies.elim

/-- A frame on the wire, without its checksum. -/
structure OnWire (frame : List UInt8) : Prop where
  header : ethHdrSize ≤ frame.length
  fits : frame.length ≤ 1514

/-- Pbufs of the same shape have the same lengths. -/
theorem lens_of_shape {qs qs' : List Pbuf} (h : List.Forall₂ SameShape qs qs') :
    qs'.map Pbuf.len = qs.map Pbuf.len := by
  induction h with
  | nil => rfl
  | cons hq _ ih => rw [List.map_cons, List.map_cons, hq.2, ih]

/-- So which of them are even is the same. -/
theorem EvenButLast.of_shape {qs qs' : List Pbuf} (h : EvenButLast qs)
    (hshape : List.Forall₂ SameShape qs qs') : EvenButLast qs' := by
  unfold EvenButLast
  rw [lens_of_shape hshape]
  exact h

/-- Behind the only odd pbuf there is nothing to shift. -/
theorem EvenButLast.fillersHarmless {qs : List Pbuf} (h : EvenButLast qs) :
    FillersHarmless qs := by
  induction qs with
  | nil => trivial
  | cons q qs ih =>
      cases qs with
      | nil =>
          unfold FillersHarmless
          split
          · trivial
          · exact fun r hr => absurd hr List.not_mem_nil
      | cons r qs =>
          obtain ⟨hq, hrest⟩ := List.forall_mem_cons.mp h
          unfold FillersHarmless
          rw [if_pos hq]
          exact ih hrest

/-- A chain of `len` bytes that is filled from a port with the frame holds the frame. -/
theorem dataOf_of_filled {qs : List Pbuf} {frame bs : List UInt8} {filler : UInt8}
    (heven : EvenButLast qs) (hlen : (dataOf qs).length = frame.length)
    (hbs : bs = qs.flatMap padded)
    (hport : bs.length ≤ (flat (pairs filler frame)).length → bs <+: flat (pairs filler frame)) :
    dataOf qs = frame := by
  obtain ⟨hframe, hflat⟩ := flat_pairs filler frame
  have hfilled : FilledTo bs (dataOf qs) := hbs ▸ (filledTo_iff qs).mpr heven.fillersHarmless
  -- the frame and the data both begin what is at the port, and they are equally long
  have hdata : dataOf qs <+: bs := by
    rcases hfilled with rfl | ⟨-, b, rfl⟩
    · exact List.prefix_rfl
    · exact List.prefix_append _ _
  have hle : bs.length ≤ (flat (pairs filler frame)).length := by
    rw [hflat]
    rcases hfilled with rfl | ⟨hodd, b, rfl⟩
    · omega
    · rw [List.length_append, List.length_singleton]
      omega
  exact (List.prefix_of_prefix_length_le (hdata.trans (hport hle)) hframe (by omega)).eq_of_length
    hlen

/-- No pbuf is longer than all of them. -/
theorem len_le_sumLen {q : Pbuf} {qs : List Pbuf} (h : q ∈ qs) : q.len.toNat ≤ sumLen qs := by
  induction qs with
  | nil => exact absurd h List.not_mem_nil
  | cons r qs ih =>
      unfold sumLen
      rcases List.mem_cons.mp h with rfl | h
      · exact Nat.le_add_right _ _
      · exact Nat.le_trans (ih h) (Nat.le_add_left _ _)

/-- **A chain that is filled from the port carries the frame.** -/
theorem receiveInto_carries (hhdr : PbufHeader hdr) {fuel : Nat} (hfuel : copyRounds ≤ fuel)
    {s s' : Chip × RxPort} {p : PbufChain} {r : Option PbufChain} {frame : List UInt8}
    {filler : UInt8} (hport : s.2 = pairs filler frame) (hfits : pad + frame.length + 1 < 65536)
    (hcons : p.Consistent) (htot : p.tot_len.toNat = frame.length + pad)
    (hle : pad ≤ p.first.len.toNat) (heven : EvenButLast (withoutPadding hdr pad p).segments)
    (h : Program.Exec (rxEnv alloc hdr pad) s (receiveInto pad fuel p) r s') :
    ∃ q, r = some q ∧ Carries pad frame q ∧ q.first.len = p.first.len := by
  obtain ⟨tr, htr, hall, hstart⟩ := delivered_at_port (receiveInto_copies pad fuel p) h
  have hdropped : (withoutPadding hdr pad p).Consistent := hhdr.consistent hcons
  -- behind the padding there is room for the frame and for nothing else
  have hlen : sumLen (withoutPadding hdr pad p).segments = frame.length := by
    rw [← hdropped, hhdr.withoutPadding_of_le hle]
    show (p.tot_len - UInt16.ofNat pad).toNat = _
    rw [UInt16.toNat_sub, UInt16.toNat_ofNat']
    omega
  have hshort : ∀ q ∈ (withoutPadding hdr pad p).segments, Short q := by
    intro q hq
    have hmax := len_le_sumLen hq
    unfold Short
    omega
  obtain ⟨q, rfl, hshape, htot', hdel⟩ := receiveInto_fills (fun e => PoolBy.headerBy) hfuel hshort
    tr r htr hall
  have hsum : sumLen q.segments = frame.length := (sumLen_of_shape hshape).trans hlen
  have hq : q.Consistent := by
    show q.tot_len.toNat = _
    rw [htot', hdropped, hsum, hlen]
  rw [hport] at hstart
  have hdata : dataOf q.segments = frame := dataOf_of_filled (heven.of_shape hshape)
    ((dataOf_length _).trans hsum) hdel hstart
  obtain ⟨hfirst, hcarries⟩ := hhdr.refilled hcons hle hshape htot' hq
  rw [hdata] at hcarries
  exact ⟨_, rfl, hcarries, hfirst⟩

/-- **What is fetched is the frame**: the chain that `lowLevelInput` returns holds the first
frame of the queue. -/
theorem lowLevelInput_holds (hhdr : PbufHeader hdr) (hpad : pad + 1514 + 1 < 65536) {fuel : Nat}
    (hfuel : copyRounds ≤ fuel) {s s' : Chip × RxPort} {p : PbufChain} {frame : List UInt8}
    {queue : List (List UInt8)} (hfirst : s.1.receiver.queue = frame :: queue)
    (hframe : OnWire frame)
    (h : Program.Exec (rxEnv alloc hdr pad) s (lowLevelInput pad fuel) (some (some p)) s') :
    Carries pad frame p ∧ pad + ethHdrSize ≤ p.first.len.toNat := by
  obtain ⟨hheader, hfits⟩ := hframe
  obtain ⟨_, s₁, hselect, hpoll⟩ := Program.exec_bind.mp h
  obtain ⟨event, s₂, hread, hfetch⟩ := Program.exec_bind.mp hpoll
  obtain ⟨hchip₁, -, -⟩ := Program.exec_perform.mp hselect
  obtain ⟨-, hport₂, -⟩ := Program.exec_perform.mp hread
  obtain ⟨c₁, port₁⟩ := s₁
  obtain rfl : c₁ = { s.1 with latch := PP_RxEvent } := hchip₁
  simp only [AtPort, and_self, if_true, hfirst] at hport₂
  -- the poll has made the chip offer the frame: status, length, bytes
  obtain ⟨stat, filler, hoffered⟩ := hport₂
  split at hfetch
  next => exact absurd (Program.exec_pure.mp hfetch).1 (by simp)
  next =>
    obtain ⟨_, s₃, hstatus, hrest₃⟩ := Program.exec_bind.mp hfetch
    obtain ⟨len, s₄, hlength, hrest₄⟩ := Program.exec_bind.mp hrest₃
    obtain ⟨ans, s₅, halloc, hfill⟩ := Program.exec_bind.mp hrest₄
    obtain ⟨-, hport₃, -⟩ := Program.exec_perform.mp hstatus
    obtain ⟨-, hport₄, -⟩ := Program.exec_perform.mp hlength
    obtain ⟨-, hport₅, hpool⟩ := Program.exec_perform.mp halloc
    simp only [AtPort, if_true, hoffered, offered] at hport₃
    simp only [AtPort, if_true, hport₃.2, toWord_toBytes] at hport₄
    obtain ⟨rfl, hframe₄⟩ := hport₄
    have hframe₅ : s₅.2 = pairs filler frame := (show s₅.2 = s₄.2 from hport₅).trans hframe₄
    cases ans with
    | none =>
        obtain ⟨_, s₆, -, hcount⟩ := Program.exec_bind.mp hfill
        obtain ⟨_, s₇, -, hlast⟩ := Program.exec_bind.mp hcount
        obtain ⟨_, s₈, -, hret⟩ := Program.exec_bind.mp hlast
        exact absurd (Program.exec_pure.mp hret).1 (by simp)
    | some p₀ =>
        obtain ⟨⟨hcons, htot, hroom⟩, heven⟩ := hpool p₀ rfl
        obtain ⟨r, s₆, hinto, hret⟩ := Program.exec_bind.mp hfill
        -- the request is for the padding and the frame, and does not wrap
        have hreq : (UInt16.ofNat frame.length + UInt16.ofNat pad).toNat = frame.length + pad := by
          rw [UInt16.toNat_add, UInt16.toNat_ofNat', UInt16.toNat_ofNat']
          omega
        rw [hreq] at hroom
        have hle : pad + ethHdrSize ≤ p₀.first.len.toNat := by omega
        obtain ⟨q, rfl, hcarries, hlen⟩ := receiveInto_carries hhdr hfuel hframe₅ (by omega) hcons
          (by rw [htot, hreq]) (by omega) heven hinto
        obtain rfl : p = q := by simpa using (Program.exec_pure.mp hret).1
        rw [hlen]
        exact ⟨hcarries, hle⟩

/-! ## §3. One round. -/

/-- `lowLevelInput`, as it polls the queue. -/
theorem lowLevelInput_fetches (hhdr : PbufHeader hdr) (hpad : pad + 1514 + 1 < 65536) {fuel : Nat}
    (hfuel : copyRounds ≤ fuel) {s s' : Chip × RxPort} {p : Option PbufChain}
    (h : Program.Exec (rxEnv alloc hdr pad) s (lowLevelInput pad fuel) (some p) s') :
    Fetches alloc pad id OnWire s.1.receiver p s'.1.receiver := by
  refine ⟨cs8900a_fetched (h.view Prod.fst fun _ _ _ _ hop => hop.1), ?_⟩
  rintro frame queue q hfirst rfl hframe
  exact lowLevelInput_holds hhdr hpad hfuel hfirst hframe h

/-- The log is kept in the chip's receiver. -/
def noteRx (s : Chip × RxPort) (e : Event) : Chip × RxPort := (s.1.note e, s.2)

variable {pppoe : Bool}

/-- **One round is one poll that delivers.** -/
theorem cs8900aIfInput_poll (hhdr : PbufHeader hdr) (hpad : pad + 1514 + 1 < 65536) {fuel : Nat}
    (hfuel : copyRounds ≤ fuel) {s s' : Chip × RxPort} {again : Bool}
    (h : Program.Exec ((rxEnv alloc hdr pad).sum (stackEnv noteRx)) s
      (cs8900aIfInput pppoe pad fuel) (some again) s') :
    Poll alloc (fun frame ok l => OnWire frame → Delivered pppoe pad id frame ok l) s.1.receiver
      again s'.1.receiver :=
  ifInput_delivers (fun s => s.1.receiver) (fun _ _ => rfl)
    (fun _ _ => lowLevelInput_fetches hhdr hpad hfuel) h

end Fetch

end PicoosLwip.Netif.Cs8900a
