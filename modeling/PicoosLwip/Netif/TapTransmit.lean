/-
  PicoosLwip.Netif.TapTransmit — what the tap driver sends.

  `lowLevelOutput` gathers the pbufs in `ethBuf`, one behind the other, and hands
  `tot_len` bytes of it to `write`.  What arrives there is the frame, whatever
  its pbufs; but nothing compares their lengths with the 1514 bytes that
  `ethBuf` has.

  Main results:
    * `lowLevelOutput_spec`  — where the bytes go, for every chain;
    * `sends_inside_iff`     — the copy stays inside `ethBuf` exactly for frames
                               of at most 1514 bytes;
    * `long_frame_overruns`  — one of 1515 bytes.
-/
import PicoosLwip.Netif.TapReceive

namespace PicoosLwip.Netif.Tapif

open PicoosLwip.Framework
open Cs8900a (Err)

/-! ## §1. Bytes stored and written. -/

/-- The indices of `ethBuf` at which a byte was stored. -/
def TapStep.stored : TapStep → List Nat
  | ⟨.memcpyTo ofs n, _⟩ => List.range' ofs n
  | _ => []

/-- The bytes handed to `write`. -/
def TapStep.written : TapStep → List (List UInt8)
  | ⟨.write ethBuf n, _⟩ => [(List.range n.toNat).map ethBuf]
  | _ => []

/-- All offsets in `ethBuf` that are written to. -/
def stored (tr : List TapStep) : List Nat := tr.flatMap TapStep.stored

/-- All that is written to the device. -/
def written (tr : List TapStep) : List (List UInt8) := tr.flatMap TapStep.written

@[simp] theorem stored_append (tr tr' : List TapStep) :
    stored (tr ++ tr') = stored tr ++ stored tr' := List.flatMap_append

@[simp] theorem written_append (tr tr' : List TapStep) :
    written (tr ++ tr') = written tr ++ written tr' := List.flatMap_append

/-- Neither. -/
def Idle (tr : List TapStep) : Prop := stored tr = [] ∧ written tr = []

/-! ## §2. Gathering a chain. -/

section Driver

variable {hdr : PbufChain → Int → PbufChain} {ok : TapStep → Prop} {pad : Nat} {p : PbufChain}

/-- **The pbufs go to consecutive parts of `ethBuf`**; what lies in front of them
stays. -/
theorem gather_spec (qs : List Pbuf) (bufPtr : Nat) (ethBuf : Nat → UInt8) :
    Program.Ensures ok (gather bufPtr ethBuf qs) fun tr buf =>
      stored tr = List.range' bufPtr (dataOf qs).length ∧ written tr = []
        ∧ (∀ i < bufPtr, buf i = ethBuf i)
        ∧ (List.range' bufPtr (dataOf qs).length).map buf = dataOf qs := by
  induction qs generalizing bufPtr ethBuf with
  | nil => exact Program.Ensures.ret ⟨rfl, rfl, fun _ _ => rfl, rfl⟩
  | cons q qs ih =>
      have hsplit := range'_dataOf_cons bufPtr q qs
      refine Program.Ensures.call fun _ _ => (ih _ _).mono ?_
      rintro tr buf ⟨hstored, hwritten, hfront, hdata⟩
      refine ⟨?_, hwritten, ?_, ?_⟩
      · rw [hsplit, ← hstored]
        rfl
      · intro i hi
        -- what lies in front is written by none of them
        rw [hfront i (by omega), if_neg (by omega)]
      · -- `q`'s own part lies in front of the others
        rw [hsplit, List.map_append, hdata, dataOf_cons]
        congr 1
        rw [List.range'_eq_map_range, List.map_map]
        apply List.map_congr_left
        intro i hi
        have hlt : i < q.len.toNat := List.mem_range.mp hi
        show buf (bufPtr + i) = q.byteAt i
        rw [hfront _ (by omega), if_pos (by omega), Nat.add_sub_cancel_left]

/-- The bytes of `ethBuf`, in one `write`. -/
theorem write_spec (ethBuf : Nat → UInt8) (n : UInt16) :
    Program.Ensures ok (write ethBuf n) fun tr (res : Int) => stored tr = []
      ∧ written tr = [(List.range n.toNat).map ethBuf] ∧ ok ⟨.write ethBuf n, res⟩ :=
  Program.Ensures.perform fun _ hres => ⟨rfl, rfl, hres⟩

/-- What follows the `write`. -/
theorem afterWrite_spec (hok : ∀ e, ok e → HeaderBy hdr e) (q : PbufChain) (res : Int) :
    Program.Ensures ok (if res = -1 then pure (Err.ERR_IF, q) else do
        let q ← reclaimPadding pad q
        LINK_STATS_INC .xmit
        pure (.ERR_OK, q)) fun tr r =>
      Idle tr ∧ r = if res = -1 then (.ERR_IF, q) else (.ERR_OK, withPadding hdr pad q) := by
  split
  next => exact Program.Ensures.ret ⟨⟨rfl, rfl⟩, rfl⟩
  next =>
    refine Program.Ensures.bind (reclaimPadding_spec (P := Idle) hok ⟨rfl, rfl⟩
      fun _ _ _ => ⟨rfl, rfl⟩) ?_
    rintro tr _ ⟨hreclaim, rfl⟩
    refine Program.Ensures.call fun _ _ => Program.Ensures.ret ⟨⟨?_, ?_⟩, rfl⟩
    · rw [stored_append, hreclaim.1]
      rfl
    · rw [written_append, hreclaim.2]
      rfl

/-- **What `lowLevelOutput` does** with a chain whose lengths add up, and what it
leaves of it. -/
theorem lowLevelOutput_spec (hok : ∀ e, ok e → HeaderBy hdr e) (stack : Nat → UInt8)
    (hcons : (withoutPadding hdr pad p).Consistent) :
    Program.Ensures ok (lowLevelOutput pad stack p) fun tr r =>
      stored tr = List.range (dataOf (withoutPadding hdr pad p).segments).length
        ∧ written tr = [dataOf (withoutPadding hdr pad p).segments]
        ∧ ∃ buf n, ∃ res : Int, ok ⟨.write buf n, res⟩
          ∧ r = if res = -1 then (.ERR_IF, withoutPadding hdr pad p)
                else (.ERR_OK, withPadding hdr pad (withoutPadding hdr pad p)) := by
  refine Program.Ensures.bind (dropPadding_spec (P := Idle) hok ⟨rfl, rfl⟩
    fun _ _ _ => ⟨rfl, rfl⟩) ?_
  rintro tr₁ q ⟨hdrop, rfl⟩
  -- write is told tot_len, which is the sum of the lengths
  have hlen := hcons.length_dataOf
  generalize withoutPadding hdr pad p = q at *
  refine Program.Ensures.bind (gather_spec q.segments 0 stack) ?_
  rintro tr₂ buf ⟨hgather, hgather', -, hdata⟩
  refine Program.Ensures.bind (write_spec buf q.tot_len) ?_
  rintro tr₃ res ⟨hwrite, hwrite', hres⟩
  refine (afterWrite_spec hok q res).mono ?_
  rintro tr₄ r ⟨hafter, hr⟩
  refine ⟨?_, ?_, buf, q.tot_len, res, hres, hr⟩
  · simp only [stored_append, hdrop.1, hgather, hwrite, hafter.1, List.nil_append,
      List.append_nil, List.range_eq_range']
  · -- as many bytes are written as were gathered
    rw [← hlen, List.range_eq_range', hdata] at hwrite'
    simp only [written_append, hdrop.2, hgather', hwrite', hafter.2, List.nil_append,
      List.append_nil]

end Driver

/-! ## §3. Inside the buffer. -/

/-- Bytes are stored inside `ethBuf` only, and what is sent with `ERR_OK` is the
chain `p` without its first `pad` bytes. -/
structure SendsInside (pad : Nat) (p : PbufChain) (tr : List TapStep) (err : Err) : Prop where
  stored : ∀ i ∈ stored tr, i < ethBufSize
  written : err = .ERR_OK → written tr = [(dataOf p.segments).drop pad]

/-- **The driver sends its frame from inside `ethBuf` exactly when the frame is not
longer than that.** -/
theorem sends_inside_iff {hdr : PbufChain → Int → PbufChain} (hhdr : PbufHeader hdr) {pad : Nat}
    {p : PbufChain} (htot : p.Consistent) (hpad : pad ≤ p.first.len.toNat)
    {stack : Nat → UInt8} {tr : List TapStep} {r : Err × PbufChain}
    (hrun : Program.Trace (lowLevelOutput pad stack p) tr r)
    (hanswers : ∀ e ∈ tr, HeaderBy hdr e) :
    SendsInside pad p tr r.1 ↔ p.tot_len.toNat ≤ ethBufSize + pad := by
  obtain ⟨hstored, hwritten, -⟩ :=
    lowLevelOutput_spec (fun _ h => h) stack (hhdr.consistent htot) tr r hrun hanswers
  rw [hhdr.dataOf_withoutPadding hpad] at hstored hwritten
  rw [List.length_drop, htot.length_dataOf] at hstored
  constructor
  · -- the last byte of the frame is stored as well
    intro hsends
    by_contra hlong
    have hlast : ethBufSize ∈ stored tr := by
      rw [hstored, List.mem_range]
      omega
    exact absurd (hsends.stored _ hlast) (Nat.lt_irrefl _)
  · -- a frame that fits
    intro hshort
    refine ⟨fun i hi => ?_, fun _ => hwritten⟩
    rw [hstored, List.mem_range] at hi
    omega

/-! ## §4. Two sample frames. -/

/-- A tap device that takes what it is given, and lwIP's `pbuf_header`. -/
def openTap : (op : Op) → op.Ans
  | .read => ReadResult.failed EAGAIN
  | .write _ n => (n.toNat : Int)
  | .memcpyFrom _ _ => ()
  | .memcpyTo _ _ => ()
  | .pbuf_alloc _ => (none : Option PbufChain)
  | .pbuf_header p increment => samplePbufHeader p increment
  | .LINK_STATS_INC _ => ()

/-- They are possible answers. -/
theorem openTap_headerBy {α : Type} {m : Driver α} :
    ∀ e ∈ (m.run openTap).1, HeaderBy samplePbufHeader e := by
  rintro ⟨op, ans⟩ he
  obtain rfl : ans = openTap op := Program.answer_of_mem_run he
  cases op <;> trivial

/-- A frame of `n` bytes in one pbuf. -/
def frameOf (n : UInt16) : PbufChain := ⟨⟨fun _ => 7, 0, n⟩, [], n⟩

/-- A frame of two bytes behind padding of two. -/
theorem sends_inside_iff_short : ∃ tr r, PbufHeader samplePbufHeader ∧ (frameOf 4).Consistent
    ∧ Program.Trace (lowLevelOutput 2 (fun _ => 0) (frameOf 4)) tr r
    ∧ SendsInside 2 (frameOf 4) tr r.1 ∧ r.1 = .ERR_OK ∧ written tr = [[7, 7]] := by
  have htrace := Program.trace_run openTap (lowLevelOutput 2 (fun _ => 0) (frameOf 4))
  have htot : (frameOf 4).Consistent := rfl
  have hsends := (sends_inside_iff samplePbufHeader_spec htot (by decide) htrace
    openTap_headerBy).mpr (by decide)
  exact ⟨_, _, samplePbufHeader_spec, htot, htrace, hsends, rfl, hsends.written rfl⟩

/-- One byte more than `ethBuf` has: it is stored behind the end, and `ERR_OK` is
returned. -/
theorem long_frame_overruns : ∃ tr r, PbufHeader samplePbufHeader ∧ (frameOf 1515).Consistent
    ∧ Program.Trace (lowLevelOutput 0 (fun _ => 0) (frameOf 1515)) tr r
    ∧ (∀ e ∈ tr, HeaderBy samplePbufHeader e) ∧ r.1 = .ERR_OK ∧ 1514 ∈ stored tr
    ∧ ¬ SendsInside 0 (frameOf 1515) tr r.1 := by
  have htrace := Program.trace_run openTap (lowLevelOutput 0 (fun _ => 0) (frameOf 1515))
  have hlast : 1514 ∈ stored ((lowLevelOutput 0 (fun _ => 0) (frameOf 1515)).run openTap).1 := by
    show 1514 ∈ List.range' 0 1515 ++ _
    exact List.mem_append_left _ (List.mem_range'_1.mpr (by decide))
  refine ⟨_, _, samplePbufHeader_spec, rfl, htrace, openTap_headerBy, rfl, hlast, ?_⟩
  intro hsends
  exact absurd (hsends.stored _ hlast) (by decide)

end PicoosLwip.Netif.Tapif
