/-
  PicoosLwip.Netif.Transmit — what the CS8900A driver feeds to the chip.

  `lowLevelOutput` announces `p->tot_len` bytes and then strobes the pbufs one by
  one, two bytes at a time.  A pbuf of odd length costs one byte more than it
  has: the byte behind its payload.  At the end of the frame that is the filler
  the chip needs; inside the frame it shifts everything behind it.

  Main results:
    * `lowLevelOutput_spec`  — what is announced and strobed, for every chain;
    * `transmits_iff`        — the frame is transmitted exactly when the filler
                               bytes fall at its end, or might as well;
    * `odd_segments_shift_frame` — two pbufs of one byte.
-/
import PicoosLwip.Framework.Trace
import PicoosLwip.Netif.Cs8900a

namespace PicoosLwip.Netif.Cs8900a

open PicoosLwip.Framework

/-! ## §1. Bytes on the bus. -/

/-- A call and its answer. -/
abbrev BusStep : Type := Program.Step Op Op.Ans

/-- The bytes strobed into `TX_FRAME_PORT`. -/
def BusStep.strobed : BusStep → List UInt8
  | ⟨.cs8900aWriteTxBuf b0 b1, _⟩ => [b0, b1]
  | _ => []

/-- The length announced on `TX_LEN_PORT`. -/
def BusStep.announced : BusStep → List UInt16
  | ⟨.cs8900aWrite addr data, _⟩ => if addr = TX_LEN_PORT then [data] else []
  | _ => []

/-- All bytes that are written to the frame port. -/
def strobed (tr : List BusStep) : List UInt8 := tr.flatMap BusStep.strobed

/-- All lengths that the chip is told. -/
def announced (tr : List BusStep) : List UInt16 := tr.flatMap BusStep.announced

@[simp] theorem strobed_append (tr tr' : List BusStep) :
    strobed (tr ++ tr') = strobed tr ++ strobed tr' := List.flatMap_append

@[simp] theorem announced_append (tr tr' : List BusStep) :
    announced (tr ++ tr') = announced tr ++ announced tr' := List.flatMap_append

/-- `pbuf_header` answers as `hdr`. -/
def HeaderBy (hdr : PbufChain → Int → PbufChain) : BusStep → Prop
  | ⟨.pbuf_header p increment, q⟩ => q = hdr p increment
  | _ => True

/-- Nothing on the bus that belongs to the frame. -/
def Silent (tr : List BusStep) : Prop := strobed tr = [] ∧ announced tr = []

/-- Two silent parts in a row. -/
theorem Silent.append {tr tr' : List BusStep} (h : Silent tr) (h' : Silent tr') :
    Silent (tr ++ tr') := by
  refine ⟨?_, ?_⟩
  · rw [strobed_append, h.1, h'.1]
    rfl
  · rw [announced_append, h.2, h'.2]
    rfl

/-! ## §2. What each part sends. -/

section Parts

variable {hdr : PbufChain → Int → PbufChain}

/-- Programs that send nothing. -/
abbrev Quiet {α : Type} (hdr : PbufChain → Int → PbufChain) (m : Driver α) : Prop :=
  Program.Ensures (HeaderBy hdr) m fun tr _ => Silent tr

/-- Two quiet programs in a row. -/
theorem Quiet.bind {α β : Type} {m : Driver α} {f : α → Driver β} (hm : Quiet hdr m)
    (hf : ∀ a, Quiet hdr (f a)) : Quiet hdr (m >>= f) := by
  refine Program.Ensures.bind hm ?_
  intro tr a htr
  exact (hf a).mono fun tr' _ htr' => htr.append htr'

theorem Quiet.pure {α : Type} (a : α) : Quiet hdr (pure a : Driver α) :=
  Program.Ensures.ret ⟨rfl, rfl⟩

/-- A write to any other port announces nothing. -/
theorem quiet_cs8900aWrite {addr : Nat} (h : addr ≠ TX_LEN_PORT) (data : UInt16) :
    Quiet hdr (cs8900aWrite addr data) := by
  apply Program.Ensures.perform
  intro _ _
  refine ⟨rfl, ?_⟩
  simp [announced, BusStep.announced, h]

theorem quiet_cs8900aRead (addr : Nat) : Quiet hdr (cs8900aRead addr) :=
  Program.Ensures.perform fun _ _ => ⟨rfl, rfl⟩

theorem quiet_busOut (port : Nat) : Quiet hdr (busOut port) :=
  Program.Ensures.perform fun _ _ => ⟨rfl, rfl⟩

theorem quiet_stat (stat : LinkStat) : Quiet hdr (LINK_STATS_INC stat) :=
  Program.Ensures.perform fun _ _ => ⟨rfl, rfl⟩

theorem add_ne_txLen : ADD_PORT ≠ TX_LEN_PORT := by decide
theorem data_ne_txLen : DATA_PORT ≠ TX_LEN_PORT := by decide
theorem cmd_ne_txLen : TX_CMD_PORT ≠ TX_LEN_PORT := by decide

/-- Skipping sends nothing. -/
theorem quiet_skipFrame : Quiet hdr cs8900aSkipFrame := by
  apply Quiet.bind (quiet_cs8900aWrite add_ne_txLen _)
  intro _
  apply Quiet.bind (quiet_cs8900aRead _)
  intro cfg
  exact quiet_cs8900aWrite data_ne_txLen _

/-- Nor does looking at the bus status. -/
theorem quiet_readyForTx : Quiet hdr readyForTx := by
  apply Quiet.bind (quiet_cs8900aWrite add_ne_txLen _)
  intro _
  exact Quiet.bind (quiet_cs8900aRead _) fun _ => Quiet.pure _

/-- Waiting for the chip sends nothing, however long. -/
theorem quiet_waitForTx (u : Nat) : Quiet hdr (waitForTx u) := by
  induction u with
  | zero => exact quiet_readyForTx
  | succ u ih =>
      apply Quiet.bind quiet_readyForTx
      intro ready
      split
      · exact Quiet.pure _
      · exact Quiet.bind quiet_skipFrame fun _ => ih

/-- `len` bytes and, behind an odd number, the byte that follows them. -/
def padded (q : Pbuf) : List UInt8 :=
  (List.range (q.len.toNat + q.len.toNat % 2)).map q.byteAt

/-- The inner loop from index `u` on. -/
theorem sendPayload_spec (q : Pbuf) (u : Nat) (hu : u % 2 = 0) :
    Program.Ensures (HeaderBy hdr) (sendPayload q u) fun tr _ => announced tr = [] ∧
      strobed tr = (List.range' u (q.len.toNat + q.len.toNat % 2 - u)).map q.byteAt := by
  induction u using sendPayload.induct q with
  | case1 u hlt ih =>
      rw [sendPayload, if_pos hlt]
      refine Program.Ensures.call fun _ _ => ?_
      refine (ih (by omega)).mono ?_
      rintro tr _ ⟨hann, hstr⟩
      -- two bytes now, and the rest from `u + 2` on
      have hcount : q.len.toNat + q.len.toNat % 2 - u
          = (q.len.toNat + q.len.toNat % 2 - (u + 2)) + 1 + 1 := by omega
      refine ⟨hann, ?_⟩
      rw [hcount, List.range'_succ, List.range'_succ, List.map_cons, List.map_cons, ← hstr]
      rfl
  | case2 u hge =>
      rw [sendPayload, if_neg hge]
      have hcount : q.len.toNat + q.len.toNat % 2 - u = 0 := by omega
      rw [hcount]
      exact Program.Ensures.ret ⟨rfl, rfl⟩

/-- **The copy loops send each pbuf, padded to an even length.** -/
theorem sendSegments_spec (qs : List Pbuf) :
    Program.Ensures (HeaderBy hdr) (sendSegments qs) fun tr _ => announced tr = [] ∧
      strobed tr = qs.flatMap padded := by
  induction qs with
  | nil => exact Program.Ensures.ret ⟨rfl, rfl⟩
  | cons q qs ih =>
      refine Program.Ensures.bind (quiet_busOut _) ?_
      intro tr₀ _ hquiet
      refine Program.Ensures.bind (sendPayload_spec q 0 rfl) ?_
      rintro tr _ ⟨hann, hstr⟩
      refine ih.mono ?_
      rintro tr' _ ⟨hann', hstr'⟩
      constructor
      · rw [announced_append, announced_append, hquiet.2, hann, hann']
        rfl
      · rw [strobed_append, strobed_append, hquiet.1, hstr, hstr', Nat.sub_zero,
          ← List.range_eq_range']
        rfl

/-- Dropping the padding: the chain behind it, and a trace of at most one step. -/
theorem dropPadding_spec {ok : BusStep → Prop} (hok : ∀ e, ok e → HeaderBy hdr e)
    {P : List BusStep → Prop} (hnone : P []) (hone : ∀ p n q, P [⟨.pbuf_header p n, q⟩])
    (pad : Nat) (p : PbufChain) :
    Program.Ensures ok (dropPadding pad p) fun tr q => P tr ∧ q = withoutPadding hdr pad p := by
  unfold dropPadding withoutPadding
  split
  next => exact Program.Ensures.ret ⟨hnone, rfl⟩
  next => exact Program.Ensures.perform fun q hq => ⟨hone p _ q, hok _ hq⟩

/-- Taking it back, likewise. -/
theorem reclaimPadding_spec {ok : BusStep → Prop} (hok : ∀ e, ok e → HeaderBy hdr e)
    {P : List BusStep → Prop} (hnone : P []) (hone : ∀ p n q, P [⟨.pbuf_header p n, q⟩])
    (pad : Nat) (p : PbufChain) :
    Program.Ensures ok (reclaimPadding pad p) fun tr q => P tr ∧ q = withPadding hdr pad p := by
  unfold reclaimPadding withPadding
  split
  next => exact Program.Ensures.ret ⟨hnone, rfl⟩
  next => exact Program.Ensures.perform fun q hq => ⟨hone p _ q, hok _ hq⟩

/-- Nor does the padding. -/
theorem quiet_reclaimPadding (pad : Nat) (p : PbufChain) : Quiet hdr (reclaimPadding pad p) :=
  (reclaimPadding_spec (fun _ h => h) ⟨rfl, rfl⟩ (fun _ _ _ => ⟨rfl, rfl⟩) pad p).mono
    fun _ _ h => h.1

/-- **What `lowLevelOutput` announces and strobes** when it returns `ERR_OK`. -/
theorem lowLevelOutput_spec (pad : Nat) (p : PbufChain) :
    Program.Ensures (HeaderBy hdr) (lowLevelOutput pad p) fun tr r => r.1 = .ERR_OK →
      announced tr = [(withoutPadding hdr pad p).tot_len] ∧
      strobed tr = (withoutPadding hdr pad p).segments.flatMap padded := by
  refine Program.Ensures.bind (dropPadding_spec (P := Silent) (fun _ h => h) ⟨rfl, rfl⟩
    (fun _ _ _ => ⟨rfl, rfl⟩) pad p) ?_
  rintro tr₁ q ⟨hdrop, rfl⟩
  refine Program.Ensures.bind (quiet_cs8900aWrite cmd_ne_txLen _) ?_
  intro tr₂ _ hcmd
  refine Program.Ensures.bind (R := fun tr _ => announced tr = [(withoutPadding hdr pad p).tot_len]
    ∧ strobed tr = []) (Program.Ensures.perform fun _ _ => ⟨rfl, rfl⟩) ?_
  rintro tr₃ _ ⟨hlen, hlen'⟩
  refine Program.Ensures.bind (quiet_waitForTx 8) ?_
  intro tr₄ ready hwait
  cases ready with
  | false =>
      -- no space after nine polls
      have hne : ¬ Err.ERR_IF = Err.ERR_OK := by decide
      exact Program.Ensures.ret fun hok => absurd hok hne
  | true =>
      -- everything but the loop over the pbufs is silent at the frame port
      refine Program.Ensures.bind (sendSegments_spec _) ?_
      rintro tr₅ _ ⟨hann, hstr⟩
      refine (Quiet.bind (quiet_reclaimPadding pad _) fun _ =>
        Quiet.bind (quiet_stat _) fun _ => Quiet.pure _).mono ?_
      intro tr₆ _ htail _
      constructor
      · simp only [announced_append, hdrop.2, hcmd.2, hlen, hwait.2, hann, htail.2,
          List.nil_append, List.append_nil]
      · simp only [strobed_append, hdrop.1, hcmd.1, hlen', hwait.1, hstr, htail.1,
          List.nil_append, List.append_nil]

end Parts

/-! ## §3. Where the fillers fall. -/

/-- An even pbuf is written as it is. -/
theorem padded_even {q : Pbuf} (h : q.len.toNat % 2 = 0) : padded q = q.bytes := by
  unfold padded Pbuf.bytes
  rw [h]
  rfl

/-- An odd one is followed by the next byte of memory. -/
theorem padded_odd {q : Pbuf} (h : q.len.toNat % 2 ≠ 0) :
    padded q = q.bytes ++ [q.byteAt q.len.toNat] := by
  unfold padded Pbuf.bytes
  rw [show q.len.toNat + q.len.toNat % 2 = q.len.toNat + 1 by omega, List.range_succ,
    List.map_append]
  rfl

/-- Padding only adds bytes, and adds none exactly to pbufs of even length. -/
theorem length_padded (qs : List Pbuf) :
    (dataOf qs).length ≤ (qs.flatMap padded).length
      ∧ ((dataOf qs).length = (qs.flatMap padded).length
        ↔ ∀ q ∈ qs, q.len.toNat % 2 = 0) := by
  induction qs with
  | nil => simp
  | cons q qs ih =>
      have hpad : (padded q).length = q.len.toNat + q.len.toNat % 2 := by
        simp [padded]
      rw [dataOf_cons, List.flatMap_cons, List.length_append, List.length_append, hpad,
        Pbuf.bytes_length, List.forall_mem_cons, ← ih.2]
      have hle := ih.1
      omega

/-- Even pbufs are written as they are. -/
theorem padded_of_even {qs : List Pbuf} (h : ∀ q ∈ qs, q.len.toNat % 2 = 0) :
    qs.flatMap padded = dataOf qs ∧ (dataOf qs).length % 2 = 0 := by
  induction qs with
  | nil => exact ⟨rfl, rfl⟩
  | cons q qs ih =>
      obtain ⟨hq, hqs⟩ := List.forall_mem_cons.mp h
      obtain ⟨hbytes, hlen⟩ := ih hqs
      rw [List.flatMap_cons, dataOf_cons, padded_even hq, hbytes, List.length_append,
        Pbuf.bytes_length]
      exact ⟨rfl, by omega⟩

/-- A byte in front can be moved to the end of bytes that are all the same. -/
theorem cons_eq_append_singleton {x : UInt8} {l : List UInt8} :
    (∃ b, x :: l = l ++ [b]) ↔ ∀ y ∈ l, y = x := by
  induction l with
  | nil => simp
  | cons y l ih =>
      rw [List.forall_mem_cons, ← ih]
      constructor
      · rintro ⟨b, hb⟩
        obtain ⟨rfl, htail⟩ := List.cons.inj hb
        exact ⟨rfl, b, htail⟩
      · rintro ⟨rfl, b, hb⟩
        exact ⟨b, congrArg (List.cons y) hb⟩

/-- Behind the first pbuf of odd length, if there is one, all are even and hold
nothing but the byte that follows its payload in memory. -/
def FillersHarmless : List Pbuf → Prop
  | [] => True
  | q :: qs =>
      if q.len.toNat % 2 = 0 then FillersHarmless qs
      else ∀ r ∈ qs, r.len.toNat % 2 = 0 ∧ ∀ b ∈ r.bytes, b = q.byteAt q.len.toNat

instance FillersHarmless.decidable : DecidablePred FillersHarmless
  | [] => .isTrue trivial
  | q :: qs =>
      let _ := FillersHarmless.decidable qs
      inferInstanceAs (Decidable (if q.len.toNat % 2 = 0 then FillersHarmless qs
        else ∀ r ∈ qs, r.len.toNat % 2 = 0 ∧ ∀ b ∈ r.bytes, b = q.byteAt q.len.toNat))

/-- The bytes `bs` are the data, followed by at most one filler, and that only
behind an odd number. -/
def FilledTo (bs : List UInt8) (frame : List UInt8) : Prop :=
  bs = frame ∨ frame.length % 2 = 1 ∧ ∃ filler, bs = frame ++ [filler]

/-- **The pbufs padded one by one are the frame padded at its end** exactly where
the fillers are harmless. -/
theorem filledTo_iff (qs : List Pbuf) :
    FilledTo (qs.flatMap padded) (dataOf qs) ↔ FillersHarmless qs := by
  induction qs with
  | nil => exact iff_of_true (.inl rfl) trivial
  | cons q qs ih =>
      obtain ⟨hle, heven⟩ := length_padded qs
      unfold FillersHarmless
      rw [List.flatMap_cons, dataOf_cons]
      split
      next hq =>
        -- nothing happens at an even pbuf
        rw [← ih, padded_even hq]
        unfold FilledTo
        have hparity : (q.bytes ++ dataOf qs).length % 2 = (dataOf qs).length % 2 := by
          rw [List.length_append, Pbuf.bytes_length]
          omega
        simp only [hparity, List.append_cancel_left_eq, List.append_assoc]
      next hq =>
        rw [padded_odd hq]
        unfold FilledTo
        have hparity : (q.bytes ++ dataOf qs).length % 2 = 1 ↔ (dataOf qs).length % 2 = 0 := by
          rw [List.length_append, Pbuf.bytes_length]
          omega
        simp only [hparity, List.append_cancel_left_eq, List.append_assoc, List.singleton_append]
        constructor
        · rintro (hsame | ⟨-, b, hb⟩)
          · -- the filler makes it longer
            have hlen := congrArg List.length hsame
            rw [List.length_cons] at hlen
            omega
          · have hlen := congrArg List.length hb
            rw [List.length_cons, List.length_append, List.length_singleton] at hlen
            have hall := heven.mp (by omega)
            rw [(padded_of_even hall).1] at hb
            have hbytes := cons_eq_append_singleton.mp ⟨b, hb⟩
            intro r hr
            refine ⟨hall r hr, fun y hy => hbytes y ?_⟩
            exact List.mem_flatMap.mpr ⟨r, hr, hy⟩
        · intro hall
          obtain ⟨hpadded, hlen⟩ := padded_of_even fun r hr => (hall r hr).1
          refine .inr ⟨hlen, ?_⟩
          rw [hpadded]
          apply cons_eq_append_singleton.mpr
          intro y hy
          obtain ⟨r, hr, hy⟩ := List.mem_flatMap.mp hy
          exact (hall r hr).2 y hy

/-! ## §4. Transmission. -/

/-- The chip is told the length of the frame `q` and given its bytes. -/
structure Transmits (tr : List BusStep) (q : PbufChain) : Prop where
  announced : ∃ n, announced tr = [n] ∧ n.toNat = (dataOf q.segments).length
  strobed : FilledTo (strobed tr) (dataOf q.segments)

/-- **The driver transmits the frame it was given exactly when the fillers are
harmless.** -/
theorem transmits_iff {hdr : PbufChain → Int → PbufChain} (hhdr : PbufHeader hdr) {pad : Nat}
    {p p' : PbufChain} {tr : List BusStep} (htot : p.Consistent)
    (hrun : Program.Trace (lowLevelOutput pad p) tr (.ERR_OK, p'))
    (hanswers : ∀ e ∈ tr, HeaderBy hdr e) :
    Transmits tr (withoutPadding hdr pad p)
      ↔ FillersHarmless (withoutPadding hdr pad p).segments := by
  obtain ⟨hann, hstr⟩ := lowLevelOutput_spec pad p tr _ hrun hanswers rfl
  have hcons : (withoutPadding hdr pad p).Consistent := hhdr.consistent htot
  have hlen := hcons.length_dataOf
  rw [← filledTo_iff, ← hstr]
  constructor
  · exact fun h => h.strobed
  · exact fun h => ⟨⟨_, hann, hlen.symm⟩, h⟩

/-! ## §5. Two sample frames. -/

/-- A chip that is ready to transmit, and lwIP's `pbuf_header`. -/
def readyChip : (op : Op) → op.Ans
  | .cs8900aWrite _ _ => ()
  | .cs8900aRead _ => READY_FOR_TX_NOW
  | .cs8900aReadAddrHighFirst _ => (0 : UInt16)
  | .busOut _ => ()
  | .busIn _ => ()
  | .cs8900aWriteTxBuf _ _ => ()
  | .cs8900aReadRxBuf _ _ => ((0, 0) : UInt8 × UInt8)
  | .pbuf_alloc _ => (none : Option PbufChain)
  | .pbuf_header p increment => samplePbufHeader p increment
  | .LINK_STATS_INC _ => ()

/-- It takes every frame. -/
theorem readyChip_takes (pad : Nat) (p : PbufChain) :
    ∃ tr p', Program.Trace (lowLevelOutput pad p) tr (.ERR_OK, p')
      ∧ ∀ e ∈ tr, HeaderBy samplePbufHeader e := by
  have hready : (readyForTx.run readyChip).2 = true := rfl
  have hwait : ((waitForTx 8).run readyChip).2 = true := by
    simp [waitForTx, hready]
  have hok : ((lowLevelOutput pad p).run readyChip).2.1 = .ERR_OK := by
    simp [lowLevelOutput, hwait]
  have htrace := Program.trace_run readyChip (lowLevelOutput pad p)
  refine ⟨((lowLevelOutput pad p).run readyChip).1, ((lowLevelOutput pad p).run readyChip).2.2,
    ?_, ?_⟩
  · rw [← hok]
    exact htrace
  · rintro ⟨op, ans⟩ he
    obtain rfl : ans = readyChip op := Program.answer_of_mem_run he
    cases op <;> trivial

/-- A pbuf over given memory, its payload from `payload` on. -/
def samplePbuf (mem : List UInt8) (payload : Nat) (len : UInt16) : Pbuf :=
  ⟨fun i => mem.getD i 0, payload, len⟩

/-- Padding of two bytes and a frame of three, in two pbufs. -/
def paddedFrame : PbufChain :=
  ⟨samplePbuf [0, 0, 1, 2] 0 4, [samplePbuf [3, 9] 0 1], 5⟩

/-- It is transmitted. -/
theorem transmits_iff_padded :
    ∃ tr p', PbufHeader samplePbufHeader ∧ paddedFrame.Consistent
      ∧ Program.Trace (lowLevelOutput 2 paddedFrame) tr (.ERR_OK, p')
      ∧ dataOf (withoutPadding samplePbufHeader 2 paddedFrame).segments = [1, 2, 3]
      ∧ Transmits tr (withoutPadding samplePbufHeader 2 paddedFrame) := by
  obtain ⟨tr, p', htrace, hanswers⟩ := readyChip_takes 2 paddedFrame
  have htot : paddedFrame.Consistent := rfl
  refine ⟨tr, p', samplePbufHeader_spec, htot, htrace, by decide, ?_⟩
  exact (transmits_iff samplePbufHeader_spec htot htrace hanswers).mpr (by decide)

/-- Two pbufs of one byte each. -/
def splitFrame : PbufChain := ⟨samplePbuf [1, 9] 0 1, [samplePbuf [2, 9] 0 1], 2⟩

/-- Two bytes are announced and four are strobed, the second of them stray. -/
theorem odd_segments_shift_frame :
    ∃ tr p', splitFrame.Consistent ∧ Program.Trace (lowLevelOutput 0 splitFrame) tr (.ERR_OK, p')
      ∧ (∀ e ∈ tr, HeaderBy samplePbufHeader e)
      ∧ announced tr = [2] ∧ dataOf splitFrame.segments = [1, 2] ∧ strobed tr = [1, 9, 2, 9]
      ∧ ¬ Transmits tr (withoutPadding samplePbufHeader 0 splitFrame) := by
  obtain ⟨tr, p', htrace, hanswers⟩ := readyChip_takes 0 splitFrame
  obtain ⟨hann, hstr⟩ := lowLevelOutput_spec 0 splitFrame tr _ htrace hanswers rfl
  refine ⟨tr, p', rfl, htrace, hanswers, hann, by decide, hstr.trans (by decide), ?_⟩
  intro htransmits
  have hfill := htransmits.strobed
  rw [hstr, filledTo_iff] at hfill
  -- the second pbuf is odd too
  have heven := (hfill _ (List.mem_singleton.mpr rfl)).1
  exact absurd heven (by decide)

end PicoosLwip.Netif.Cs8900a
