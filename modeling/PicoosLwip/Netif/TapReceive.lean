/-
  PicoosLwip.Netif.TapReceive — what the tap driver makes of a `read`.

  `lowLevelInput` asks for a pbuf of as many bytes as `read` returned, narrowed to
  16 bits, and fills whatever chain it gets.  It knows one way in which `read` can
  fail: with any other `errno` the −1 becomes a length, and that many bytes of
  the stack become a frame.  A frame that was read is delivered as it is, if the
  first pbuf has room for the padding.

  Main results:
    * `receiveInto_spec`  — which bytes of `ethBuf` go where, for every chain;
    * `read_delivered_iff` — when the result is what `read` delivered;
    * `failed_read_is_a_frame` — a `read` that fails with `EIO`.
-/
import PicoosLwip.Framework.Trace
import PicoosLwip.Netif.Tapif

namespace PicoosLwip.Netif.Tapif

open PicoosLwip.Framework

/-- A call and its answer. -/
abbrev TapStep : Type := Program.Step Op Op.Ans

/-! ## §1. Bytes copied. -/

/-- The indices of `ethBuf` from which a pbuf was filled. -/
def TapStep.copied : TapStep → List Nat
  | ⟨.memcpyFrom ofs n, _⟩ => List.range' ofs n
  | _ => []

/-- All offsets in `ethBuf` that are read. -/
def copied (tr : List TapStep) : List Nat := tr.flatMap TapStep.copied

@[simp] theorem copied_append (tr tr' : List TapStep) :
    copied (tr ++ tr') = copied tr ++ copied tr' := List.flatMap_append

/-- `pbuf_header` answers as `hdr`. -/
def HeaderBy (hdr : PbufChain → Int → PbufChain) : TapStep → Prop
  | ⟨.pbuf_header p increment, q⟩ => q = hdr p increment
  | _ => True

/-- `read` answers `res` and `pbuf_alloc` answers `alloc`; `pbuf_header` answers
as `hdr`. -/
def AnsweredBy (hdr : PbufChain → Int → PbufChain) (res : ReadResult)
    (alloc : Option PbufChain) : TapStep → Prop
  | ⟨.read, ans⟩ => ans = res
  | ⟨.pbuf_alloc _, ans⟩ => ans = alloc
  | ⟨.pbuf_header p increment, q⟩ => q = hdr p increment
  | _ => True

/-- Whatever else it promises, `pbuf_header` does what it is for. -/
theorem AnsweredBy.headerBy {hdr : PbufChain → Int → PbufChain} {res : ReadResult}
    {alloc : Option PbufChain} (e : TapStep) (h : AnsweredBy hdr res alloc e) : HeaderBy hdr e := by
  obtain ⟨op, ans⟩ := e
  cases op with
  | pbuf_header p increment => exact h
  | _ => trivial

/-! ## §2. Filling a chain. -/

section Driver

variable {hdr : PbufChain → Int → PbufChain} {res : ReadResult} {alloc : Option PbufChain}
  {pad : Nat} {p : PbufChain}

/-- An operation that copies nothing. -/
theorem perform_copiesNothing {op : Op} (h : ∀ ofs n, op ≠ .memcpyFrom ofs n) :
    Program.Ensures (AnsweredBy hdr res alloc) (Program.perform op) fun tr ans =>
      copied tr = [] ∧ AnsweredBy hdr res alloc ⟨op, ans⟩ := by
  apply Program.Ensures.perform
  intro ans hans
  refine ⟨?_, hans⟩
  cases op with
  | memcpyFrom ofs n => exact absurd rfl (h ofs n)
  | _ => rfl

/-- It reads `n` bytes from `ofs` on. -/
theorem memcpyFrom_spec (ofs n : Nat) :
    Program.Ensures (AnsweredBy hdr res alloc) (memcpyFrom ofs n) fun tr _ =>
      copied tr = List.range' ofs n := by
  apply Program.Ensures.perform
  intro _ _
  exact List.append_nil _

/-- Dropping the padding: the chain behind it, and a trace of at most one step. -/
theorem dropPadding_spec {ok : TapStep → Prop} (hok : ∀ e, ok e → HeaderBy hdr e)
    {P : List TapStep → Prop} (hnone : P []) (hone : ∀ p n q, P [⟨.pbuf_header p n, q⟩]) :
    Program.Ensures ok (dropPadding pad p) fun tr q => P tr ∧ q = withoutPadding hdr pad p := by
  unfold dropPadding withoutPadding
  split
  next => exact Program.Ensures.ret ⟨hnone, rfl⟩
  next => exact Program.Ensures.perform fun q hq => ⟨hone p _ q, hok _ hq⟩

/-- Taking it back, likewise. -/
theorem reclaimPadding_spec {ok : TapStep → Prop} (hok : ∀ e, ok e → HeaderBy hdr e)
    {P : List TapStep → Prop} (hnone : P []) (hone : ∀ p n q, P [⟨.pbuf_header p n, q⟩]) :
    Program.Ensures ok (reclaimPadding pad p) fun tr q => P tr ∧ q = withPadding hdr pad p := by
  unfold reclaimPadding withPadding
  split
  next => exact Program.Ensures.ret ⟨hnone, rfl⟩
  next => exact Program.Ensures.perform fun q hq => ⟨hone p _ q, hok _ hq⟩

/-- The payload of a filled pbuf. -/
theorem bytes_fill_shift (q : Pbuf) (ethBuf : Nat → UInt8) (ofs : Nat) :
    (q.fill fun i => ethBuf (ofs + i)).bytes = (List.range' ofs q.len.toNat).map ethBuf := by
  rw [Pbuf.bytes_fill, List.range'_eq_map_range, List.map_map]
  rfl

/-- **The pbufs of a chain get consecutive parts of `ethBuf`.** -/
theorem scatter_spec (ethBuf : Nat → UInt8) (qs : List Pbuf) (bufPtr : Nat) :
    Program.Ensures (AnsweredBy hdr res alloc) (scatter ethBuf bufPtr qs) fun tr qs' =>
      copied tr = List.range' bufPtr (dataOf qs).length ∧ List.Forall₂ SameShape qs qs'
        ∧ dataOf qs' = (List.range' bufPtr (dataOf qs).length).map ethBuf := by
  induction qs generalizing bufPtr with
  | nil => exact Program.Ensures.ret ⟨rfl, .nil, rfl⟩
  | cons q qs ih =>
      have hsplit := range'_dataOf_cons bufPtr q qs
      refine Program.Ensures.bind (memcpyFrom_spec bufPtr q.len.toNat) ?_
      intro tr₁ _ hfirst
      refine Program.Ensures.bind (ih (bufPtr + q.len.toNat)) ?_
      rintro tr₂ qs' ⟨hrest, hshape, hdata⟩
      refine Program.Ensures.ret ⟨?_, .cons ⟨rfl, rfl⟩ hshape, ?_⟩
      · rw [List.append_nil, copied_append, hfirst, hrest, hsplit]
      · rw [dataOf_cons, bytes_fill_shift, hdata, hsplit, List.map_append]

/-- The chain `q` is `p` with the first bytes of `ethBuf` in its pbufs, as many as
there is room for; these were copied. -/
structure Filled (ethBuf : Nat → UInt8) (p q : PbufChain) (tr : List TapStep) : Prop where
  copied : copied tr = List.range (dataOf p.segments).length
  tot_len : q.tot_len = p.tot_len
  shape : List.Forall₂ SameShape p.segments q.segments
  data : dataOf q.segments = (List.range (dataOf p.segments).length).map ethBuf

/-- **`receiveInto` fills the chain behind its padding.** -/
theorem receiveInto_spec (ethBuf : Nat → UInt8) :
    Program.Ensures (AnsweredBy hdr res alloc) (receiveInto pad ethBuf p) fun tr r =>
      ∃ q, Filled ethBuf (withoutPadding hdr pad p) q tr ∧ r = withPadding hdr pad q := by
  refine Program.Ensures.bind (dropPadding_spec (P := fun tr => copied tr = [])
    AnsweredBy.headerBy rfl fun _ _ _ => rfl) ?_
  rintro tr₁ q ⟨hdrop, rfl⟩
  generalize withoutPadding hdr pad p = q
  -- ethBuf falls into the part of the first pbuf and the part of the others
  have hsplit : List.range (dataOf q.segments).length
      = List.range q.first.len.toNat
        ++ List.range' q.first.len.toNat (dataOf q.next).length := by
    rw [List.range_eq_range', List.range_eq_range']
    exact (range'_dataOf_cons 0 q.first q.next).trans (by rw [Nat.zero_add])
  refine Program.Ensures.bind (memcpyFrom_spec 0 q.first.len.toNat) ?_
  intro tr₂ _ hfirst
  rw [← List.range_eq_range'] at hfirst
  refine Program.Ensures.bind (scatter_spec ethBuf q.next q.first.len.toNat) ?_
  rintro tr₃ next ⟨hnext, hshape, hdata⟩
  refine Program.Ensures.bind (reclaimPadding_spec (P := fun tr => copied tr = [])
    AnsweredBy.headerBy rfl fun _ _ _ => rfl) ?_
  rintro tr₄ _ ⟨hreclaim, rfl⟩
  refine Program.Ensures.bind (perform_copiesNothing (by simp)) ?_
  rintro tr₅ _ ⟨hstat, -⟩
  refine Program.Ensures.ret ⟨⟨q.first.fill ethBuf, next, q.tot_len⟩,
    ⟨?_, rfl, .cons ⟨rfl, rfl⟩ hshape, ?_⟩, rfl⟩
  · simp only [copied_append, hdrop, hfirst, hnext, hreclaim, hstat, hsplit, List.nil_append,
      List.append_nil]
  · show (q.first.fill ethBuf).bytes ++ dataOf next = _
    rw [Pbuf.bytes_fill, hdata, hsplit, List.map_append]

/-! ## §3. `lowLevelInput`. -/

/-- The 16-bit length that `pbuf_alloc` is asked for. -/
def ReadResult.request (res : ReadResult) (pad : Nat) : UInt16 := UInt16.ofInt (res.len + pad)

/-- **What `lowLevelInput` does**: it returns `NULL`, with nothing copied, or fills
the chain it got. -/
theorem lowLevelInput_spec (stack : Nat → UInt8) :
    Program.Ensures (AnsweredBy hdr res alloc) (lowLevelInput pad stack) fun tr r =>
      (res.wouldBlock ∨ alloc = none) ∧ r = none ∧ copied tr = [] ∨
      ¬ res.wouldBlock ∧ ∃ p q, alloc = some p
        ∧ Filled (res.ethBuf stack) (withoutPadding hdr pad p) q tr
        ∧ r = some (withPadding hdr pad q) := by
  refine Program.Ensures.bind (perform_copiesNothing (by simp)) ?_
  rintro tr₁ r ⟨hread, hres⟩
  obtain rfl : r = res := hres
  split
  next hblock =>
    -- nothing there to read
    refine Program.Ensures.ret (.inl ⟨.inl hblock, rfl, ?_⟩)
    rw [List.append_nil, hread]
  next hblock =>
    refine Program.Ensures.bind (perform_copiesNothing (by simp)) ?_
    -- any other result, a failed one too, goes on to pbuf_alloc
    rintro tr₂ ans ⟨halloc, hans⟩
    obtain rfl : ans = alloc := hans
    cases ans with
    | none =>
        refine Program.Ensures.bind (perform_copiesNothing (by simp)) ?_
        rintro tr₃ _ ⟨hmemerr, -⟩
        refine Program.Ensures.bind (perform_copiesNothing (by simp)) ?_
        rintro tr₄ _ ⟨hdrop, -⟩
        refine Program.Ensures.ret (.inl ⟨.inr rfl, rfl, ?_⟩)
        simp only [copied_append, hread, halloc, hmemerr, hdrop, List.append_nil]
    | some p =>
        refine Program.Ensures.bind (receiveInto_spec _) ?_
        rintro tr₃ _ ⟨q, hfilled, rfl⟩
        refine Program.Ensures.ret (.inr ⟨hblock, p, q, rfl, ⟨?_, hfilled.tot_len,
          hfilled.shape, hfilled.data⟩, rfl⟩)
        simp only [copied_append, hread, halloc, hfilled.copied, List.nil_append, List.append_nil]

/-! ## §4. What was read and what is delivered. -/

/-- The result is `NULL`, or the delivered bytes behind the padding; only they were
copied, and nothing comes of a `read` that failed. -/
structure DeliversRead (pad : Nat) (res : ReadResult) (tr : List TapStep)
    (r : Option PbufChain) : Prop where
  data : ∀ q, r = some q → ∃ padding, padding.length = pad
    ∧ dataOf q.segments = padding ++ res.bytes
  copied : ∀ i ∈ copied tr, i < res.bytes.length
  failed : ∀ errno, res = .failed errno → r = none

/-- A chain as `pbuf_alloc` makes it for the request. -/
def Allocated (res : ReadResult) (pad : Nat) (alloc : Option PbufChain) : Prop :=
  ∀ p, alloc = some p → p.Consistent ∧ p.tot_len = res.request pad

/-- The length asked for is that of frame and padding, as 16 bits. -/
theorem request_got {bytes : List UInt8} (fits : bytes.length ≤ ethBufSize) (pad : Nat) :
    ((ReadResult.got bytes fits).request pad).toNat = (bytes.length + pad) % 2 ^ 16 := by
  show (UInt16.ofNat (((bytes.length : Int) + (pad : Int)) % 2 ^ 16).toNat).toNat = _
  rw [UInt16.toNat_ofNat']
  omega

/-- What `ethBuf` starts with is what was delivered. -/
theorem range_map_ethBuf (res : ReadResult) (stack : Nat → UInt8) :
    (List.range res.bytes.length).map (res.ethBuf stack) = res.bytes := by
  apply List.ext_getElem
  · simp
  · intro i h₁ h₂
    simp [ReadResult.ethBuf, List.getD, h₂]

/-- A filled chain is as long as before. -/
theorem Filled.consistent {ethBuf : Nat → UInt8} {q : PbufChain} {tr : List TapStep}
    (h : Filled ethBuf p q tr) (hp : p.Consistent) : q.Consistent := by
  show q.tot_len.toNat = _
  rw [← dataOf_length, h.data, h.tot_len, List.length_map, List.length_range, hp.length_dataOf]

/-- **With room for the padding the frame is delivered.** -/
theorem delivers_of_room (hhdr : PbufHeader hdr) {bytes : List UInt8}
    {fits : bytes.length ≤ ethBufSize} {stack : Nat → UInt8} {tr : List TapStep} {q : PbufChain}
    (hp : p.Consistent) (htot : p.tot_len = (ReadResult.got bytes fits).request pad)
    (hle : pad ≤ p.first.len.toNat)
    (hfilled : Filled ((ReadResult.got bytes fits).ethBuf stack) (withoutPadding hdr pad p) q tr) :
    DeliversRead pad (.got bytes fits) tr (some (withPadding hdr pad q)) := by
  have hsum : p.tot_len.toNat = p.first.len.toNat + sumLen p.next := hp
  have hreq : p.tot_len.toNat = (bytes.length + pad) % 2 ^ 16 := by
    rw [htot, request_got]
  have hfits : bytes.length ≤ 1514 := fits
  have hmax : p.tot_len.toNat < 2 ^ 16 := p.tot_len.toNat_lt
  -- the request did not wrap: the chain would be shorter than the padding
  have hexact : p.tot_len.toNat = bytes.length + pad := by omega
  have hcons : (withoutPadding hdr pad p).Consistent := hhdr.consistent hp
  have hdropped := hhdr.withoutPadding_of_le hle
  have htot' : (withoutPadding hdr pad p).tot_len.toNat = bytes.length := by
    rw [hdropped]
    show (p.tot_len - UInt16.ofNat pad).toNat = _
    rw [UInt16.toNat_sub, UInt16.toNat_ofNat']
    omega
  have hlen := hcons.length_dataOf.trans htot'
  have hcopied := hfilled.copied
  have hdata := hfilled.data
  rw [hlen] at hcopied hdata
  have hroom : pad ≤ q.first.payload := by
    have hshape := hfilled.shape
    rw [hdropped] at hshape
    cases hshape with
    | cons hfirst _ =>
        have hpayload : q.first.payload = p.first.payload + pad := hfirst.1
        omega
  obtain ⟨front, hfront, hwith⟩ := hhdr.dataOf_withPadding (hfilled.consistent hcons) hroom
    (by rw [hfilled.tot_len, htot']; omega)
  refine ⟨?_, ?_, ?_⟩
  · rintro _ ⟨⟩
    refine ⟨front, hfront, ?_⟩
    rw [hwith, hdata]
    exact congrArg (front ++ ·) (range_map_ethBuf (.got bytes fits) stack)
  · intro i hi
    rw [hcopied] at hi
    exact List.mem_range.mp hi
  · intro errno hfailed
    exact absurd hfailed (by simp)

/-- **Without room for the padding** the chain is filled to its end, and its data is
not behind any padding. -/
theorem room_of_delivers (hhdr : PbufHeader hdr) {bytes : List UInt8}
    {fits : bytes.length ≤ ethBufSize} {stack : Nat → UInt8} {tr : List TapStep} {q : PbufChain}
    (hp : p.Consistent) (htot : p.tot_len = (ReadResult.got bytes fits).request pad)
    (hfilled : Filled ((ReadResult.got bytes fits).ethBuf stack) (withoutPadding hdr pad p) q tr)
    (hdel : DeliversRead pad (.got bytes fits) tr (some (withPadding hdr pad q))) :
    pad ≤ p.first.len.toNat := by
  by_contra hlt
  rw [hhdr.withoutPadding_of_lt (by omega)] at hfilled
  have hreq : p.tot_len.toNat = (bytes.length + pad) % 2 ^ 16 := by
    rw [htot, request_got]
  have hlen : (dataOf q.segments).length = p.tot_len.toNat := by
    rw [hfilled.data, List.length_map, List.length_range, hp.length_dataOf]
  -- all of the chain was filled from delivered bytes
  have hle : p.tot_len.toNat ≤ bytes.length := by
    by_contra hmore
    have hlast := hdel.copied bytes.length
      (by rw [hfilled.copied, hp.length_dataOf]; exact List.mem_range.mpr (by omega))
    exact absurd hlast (Nat.lt_irrefl _)
  obtain ⟨padding, hpadding, hdata⟩ := hdel.data _ rfl
  have hresult := congrArg List.length hdata
  rw [List.length_append, hpadding] at hresult
  have hbytes : (ReadResult.got bytes fits).bytes.length = bytes.length := rfl
  by_cases hroom : pad ≤ q.first.payload ∧ q.tot_len.toNat + pad < 2 ^ 16
  · obtain ⟨front, hfront, hwith⟩ :=
      hhdr.dataOf_withPadding (hfilled.consistent hp) hroom.1 hroom.2
    have hfit := hroom.2
    rw [hwith, List.length_append, hfront, hlen] at hresult
    rw [hfilled.tot_len] at hfit
    omega
  · rw [hhdr.withPadding_of_noRoom hroom, hlen] at hresult
    omega

end Driver

/-- **The result is what `read` delivered exactly when** there is none, or a frame
was read and its padding fits into the first pbuf. -/
theorem read_delivered_iff {hdr : PbufChain → Int → PbufChain} (hhdr : PbufHeader hdr)
    {pad : Nat} {stack : Nat → UInt8} {res : ReadResult} {alloc : Option PbufChain}
    {tr : List TapStep} {r : Option PbufChain} (halloc : Allocated res pad alloc)
    (hrun : Program.Trace (lowLevelInput pad stack) tr r)
    (hanswers : ∀ e ∈ tr, AnsweredBy hdr res alloc e) :
    DeliversRead pad res tr r ↔ res.wouldBlock ∨ alloc = none ∨
      (∃ bytes fits, res = .got bytes fits) ∧ ∃ p, alloc = some p ∧ pad ≤ p.first.len.toNat := by
  rcases lowLevelInput_spec stack tr r hrun hanswers with
    ⟨hnone, rfl, hcopied⟩ | ⟨hblock, p, q, rfl, hfilled, rfl⟩
  · refine iff_of_true ⟨?_, ?_, fun _ _ => rfl⟩ ?_
    · intro q hq
      exact absurd hq (by simp)
    · intro i hi
      rw [hcopied] at hi
      exact absurd hi List.not_mem_nil
    · exact hnone.imp id .inl
  · obtain ⟨hp, htot⟩ := halloc p rfl
    cases res with
    | failed errno =>
        -- a chain for a length of −1
        constructor
        · intro hdel
          exact absurd (hdel.failed errno rfl) (by simp)
        · rintro (hblock' | hnone | ⟨⟨_, _, hgot⟩, -⟩)
          · exact absurd hblock' hblock
          · exact absurd hnone (by simp)
          · exact absurd hgot (by simp)
    | got bytes fits =>
        constructor
        · intro hdel
          exact .inr (.inr ⟨⟨bytes, fits, rfl⟩, p, rfl,
            room_of_delivers hhdr hp htot hfilled hdel⟩)
        · rintro (hblock' | hnone | ⟨-, p', hp', hle⟩)
          · exact absurd hblock' hblock
          · exact absurd hnone (by simp)
          · obtain rfl : p = p' := Option.some.inj hp'
            exact delivers_of_room hhdr hp htot hle hfilled

/-! ## §5. Two sample reads. -/

/-- A device that answers `res`, and an lwIP that answers `alloc`. -/
def sampleAnswers (res : ReadResult) (alloc : Option PbufChain) : (op : Op) → op.Ans
  | .read => res
  | .write _ n => (n.toNat : Int)
  | .memcpyFrom _ _ => ()
  | .memcpyTo _ _ => ()
  | .pbuf_alloc _ => alloc
  | .pbuf_header p increment => samplePbufHeader p increment
  | .LINK_STATS_INC _ => ()

/-- For each result of `read` there is a run. -/
theorem sampleAnswers_trace (pad : Nat) (stack : Nat → UInt8) (res : ReadResult)
    (alloc : Option PbufChain) : ∃ tr r, Program.Trace (lowLevelInput pad stack) tr r
      ∧ ∀ e ∈ tr, AnsweredBy samplePbufHeader res alloc e := by
  refine ⟨_, _, Program.trace_run (sampleAnswers res alloc) (lowLevelInput pad stack), ?_⟩
  rintro ⟨op, ans⟩ he
  obtain rfl : ans = sampleAnswers res alloc op := Program.answer_of_mem_run he
  cases op <;> trivial

/-- A frame of three bytes. -/
def sampleRead : ReadResult := .got [7, 8, 9] (by decide)

/-- Two pbufs for it, and two bytes of padding. -/
def sampleChain : PbufChain := ⟨⟨fun _ => 0, 16, 4⟩, [⟨fun _ => 0, 16, 1⟩], 5⟩

/-- It is a possible answer. -/
theorem sampleChain_allocated : Allocated sampleRead 2 (some sampleChain) := by
  rintro p ⟨⟩
  exact ⟨rfl, rfl⟩

/-- It is delivered. -/
theorem read_delivered_iff_frame :
    ∃ tr r, PbufHeader samplePbufHeader ∧ Allocated sampleRead 2 (some sampleChain)
      ∧ Program.Trace (lowLevelInput 2 fun _ => 0) tr r
      ∧ (∀ e ∈ tr, AnsweredBy samplePbufHeader sampleRead (some sampleChain) e)
      ∧ DeliversRead 2 sampleRead tr r := by
  obtain ⟨tr, r, htrace, hanswers⟩ :=
    sampleAnswers_trace 2 (fun _ => 0) sampleRead (some sampleChain)
  refine ⟨tr, r, samplePbufHeader_spec, sampleChain_allocated, htrace, hanswers, ?_⟩
  refine (read_delivered_iff samplePbufHeader_spec sampleChain_allocated htrace hanswers).mpr ?_
  exact .inr (.inr ⟨⟨_, _, rfl⟩, sampleChain, rfl, by decide⟩)

/-- Some error other than `EAGAIN`. -/
def EIO : Nat := 5

/-- A pbuf of 65535 bytes. -/
def longChain : PbufChain := ⟨⟨fun _ => 0, 0, 65535⟩, [], 65535⟩

/-- The `read` fails, and 65535 bytes of the stack are received. -/
theorem failed_read_is_a_frame :
    ∃ tr q, Allocated (.failed EIO) 0 (some longChain)
      ∧ Program.Trace (lowLevelInput 0 fun _ => 0) tr (some q)
      ∧ (∀ e ∈ tr, AnsweredBy samplePbufHeader (.failed EIO) (some longChain) e)
      ∧ copied tr = List.range 65535 ∧ ¬ DeliversRead 0 (.failed EIO) tr (some q) := by
  obtain ⟨tr, r, htrace, hanswers⟩ :=
    sampleAnswers_trace 0 (fun _ => 0) (.failed EIO) (some longChain)
  have hcons : longChain.Consistent := rfl
  rcases lowLevelInput_spec _ tr r htrace hanswers with
    ⟨hnone, -, -⟩ | ⟨-, p, q, hp, hfilled, rfl⟩
  · exact absurd hnone (by decide)
  · obtain rfl : longChain = p := Option.some.inj hp
    refine ⟨tr, _, ?_, htrace, hanswers, ?_, ?_⟩
    · rintro p ⟨⟩
      exact ⟨hcons, rfl⟩
    · have hcopied := hfilled.copied
      rwa [show withoutPadding samplePbufHeader 0 longChain = longChain from rfl,
        hcons.length_dataOf] at hcopied
    · intro hdel
      exact absurd (hdel.failed EIO rfl) (by simp)

end PicoosLwip.Netif.Tapif
