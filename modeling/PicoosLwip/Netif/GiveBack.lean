/-
  PicoosLwip.Netif.GiveBack — the pbuf after it was sent.

  TCP keeps a segment until it is acknowledged and may hand the same pbuf to the
  driver again.  Both drivers step over the padding in front of it and take it
  back at the end; but their `return ERR_IF` leaves in between, and the next try
  steps over the padding once more.

  Main results:
    * `waitForTx_exec`      — how the retry loop ends, for any bus status words;
    * `gives_back_iff`      — the pbuf is given back unchanged exactly when there
                              is no padding or no error;
    * `error_keeps_padding` — a failed `write`, and a chip that stays busy.
-/
import PicoosLwip.Framework.Environment
import PicoosLwip.Netif.Transmit
import PicoosLwip.Netif.TapTransmit

namespace PicoosLwip.Netif

open PicoosLwip.Framework
open Cs8900a (Err)

/-- `payload`, `len` and `tot_len` of `p'` are those of `p`. -/
structure GivenBack (p p' : PbufChain) : Prop where
  payload : p'.first.payload = p.first.payload
  len : p'.first.len = p.first.len
  tot_len : p'.tot_len = p.tot_len

/-- A chain that has lost its padding is not the one that was given. -/
theorem givenBack_withoutPadding {hdr : PbufChain → Int → PbufChain} (hhdr : PbufHeader hdr)
    {pad : Nat} {p : PbufChain} (hpad : pad ≤ p.first.len.toNat) :
    GivenBack p (withoutPadding hdr pad p) ↔ pad = 0 := by
  constructor
  · intro h
    have hpayload := h.payload
    rw [hhdr.withoutPadding_of_le hpad] at hpayload
    exact Nat.add_eq_left.mp hpayload
  · rintro rfl
    exact ⟨rfl, rfl, rfl⟩

/-! ## §1. The tap driver. -/

namespace Tapif

/-- `write` answers `res`, and `pbuf_header` as `hdr`. -/
def WriteBy (hdr : PbufChain → Int → PbufChain) (res : Int) : TapStep → Prop
  | ⟨.write _ _, ans⟩ => ans = res
  | ⟨.pbuf_header p increment, q⟩ => q = hdr p increment
  | _ => True

variable {hdr : PbufChain → Int → PbufChain} {pad : Nat} {p : PbufChain}

/-- Whatever `write` returns, `pbuf_header` does what it is for. -/
theorem WriteBy.headerBy {res : Int} (e : TapStep) (h : WriteBy hdr res e) : HeaderBy hdr e := by
  obtain ⟨op, ans⟩ := e
  cases op with
  | pbuf_header p increment => exact h
  | _ => trivial

/-- What becomes of the pbuf is decided by `write`. -/
theorem lowLevelOutput_givesBack (hhdr : PbufHeader hdr) (htot : p.Consistent)
    (hpad : pad ≤ p.first.len.toNat) {res : Int} {stack : Nat → UInt8} {tr : List TapStep}
    {err : Err} {p' : PbufChain} (hrun : Program.Trace (lowLevelOutput pad stack p) tr (err, p'))
    (hanswers : ∀ e ∈ tr, WriteBy hdr res e) : GivenBack p p' ↔ pad = 0 ∨ res ≠ -1 := by
  obtain ⟨-, -, buf, n, res', hres, hr⟩ :=
    lowLevelOutput_spec WriteBy.headerBy stack (hhdr.consistent htot) tr _ hrun hanswers
  obtain rfl : res' = res := hres
  by_cases hfail : res' = -1
  · rw [if_pos hfail] at hr
    obtain ⟨-, rfl⟩ := Prod.mk.inj hr
    rw [givenBack_withoutPadding hhdr hpad]
    exact ⟨.inl, fun h => h.resolve_right fun hne => hne hfail⟩
  · rw [if_neg hfail, hhdr.withPadding_withoutPadding htot hpad] at hr
    obtain ⟨-, rfl⟩ := Prod.mk.inj hr
    exact iff_of_true ⟨rfl, rfl, rfl⟩ (.inr hfail)

end Tapif

/-! ## §2. The CS8900A driver. -/

namespace Cs8900a

/-- The chip, as far as its bus status goes: the register that `ADD_PORT` selects,
and how often `PP_BusST` was read. -/
structure BusChip where
  latch : UInt16
  polls : Nat

/-- Its bus status words, in the order in which they are read, are `status`; every
other register may hold anything. -/
def busEnv (hdr : PbufChain → Int → PbufChain) (status : Nat → UInt16) :
    Program.Env BusChip Op Op.Ans
  | s, .cs8900aWrite addr data, _, s' =>
      s' = if addr = ADD_PORT then { s with latch := data } else s
  | s, .cs8900aRead addr, v, s' =>
      if addr = DATA_PORT ∧ s.latch = PP_BusST then
        v = status s.polls ∧ s' = { s with polls := s.polls + 1 }
      else s' = s
  | s, .pbuf_header p increment, q, s' => q = hdr p increment ∧ s' = s
  | s, _, _, s' => s' = s

/-- The chip has buffer space. -/
def Ready (status : UInt16) : Prop := status &&& READY_FOR_TX_NOW ≠ 0

instance (status : UInt16) : Decidable (Ready status) := inferInstanceAs (Decidable (_ ≠ _))

variable {hdr : PbufChain → Int → PbufChain} {status : Nat → UInt16} {s s' : BusChip} {pad : Nat}
  {p : PbufChain}

/-- A read of `DATA_PORT` is a poll if the latch selects the bus status. -/
theorem busEnv_read {addr : Nat} {v : UInt16} :
    busEnv hdr status s (.cs8900aRead addr) v s'
      ↔ if addr = DATA_PORT ∧ s.latch = PP_BusST then
          v = status s.polls ∧ s' = { s with polls := s.polls + 1 }
        else s' = s := Iff.rfl

/-- One look at the bus status. -/
theorem readyForTx_exec {ready : Bool}
    (h : Program.Exec (busEnv hdr status) s readyForTx ready s') :
    (ready = true ↔ Ready (status s.polls)) ∧ s'.polls = s.polls + 1 := by
  unfold readyForTx at h
  simp only [Program.exec_bind] at h
  obtain ⟨_, s₁, hwrite, v, s₂, hread, hret⟩ := h
  obtain rfl : s₁ = { s with latch := PP_BusST } := Program.exec_perform.mp hwrite
  have hans := busEnv_read.mp (Program.exec_perform.mp hread)
  rw [if_pos ⟨rfl, rfl⟩] at hans
  obtain ⟨rfl, rfl⟩ := hans
  obtain ⟨rfl, rfl⟩ := Program.exec_pure.mp hret
  exact ⟨bne_iff_ne, rfl⟩

theorem rxCfg_ne_busSt : PP_RxCFG ≠ PP_BusST := by decide

/-- Skipping a frame reads no bus status. -/
theorem skipFrame_exec {u : Unit} (h : Program.Exec (busEnv hdr status) s cs8900aSkipFrame u s') :
    s'.polls = s.polls := by
  unfold cs8900aSkipFrame at h
  simp only [Program.exec_bind] at h
  obtain ⟨_, s₁, hselect, cfg, s₂, hread, hwrite⟩ := h
  obtain rfl : s₁ = { s with latch := PP_RxCFG } := Program.exec_perform.mp hselect
  have hans := busEnv_read.mp (Program.exec_perform.mp hread)
  rw [if_neg fun hboth => absurd hboth.2 rxCfg_ne_busSt] at hans
  obtain rfl := hans
  obtain rfl : s' = { s with latch := PP_RxCFG } := Program.exec_perform.mp hwrite
  rfl

/-- **The retry loop succeeds exactly when one of its `u + 1` looks does.** -/
theorem waitForTx_exec {u : Nat} {ready : Bool}
    (h : Program.Exec (busEnv hdr status) s (waitForTx u) ready s') :
    ready = true ↔ ∃ n ≤ u, Ready (status (s.polls + n)) := by
  induction u generalizing s with
  | zero =>
      rw [(readyForTx_exec h).1]
      simp
  | succ u ih =>
      unfold waitForTx at h
      obtain ⟨now, s₁, hlook, hrest⟩ := Program.exec_bind.mp h
      obtain ⟨hnow, hpolls⟩ := readyForTx_exec hlook
      cases now with
      | true =>
          obtain ⟨rfl, -⟩ := Program.exec_pure.mp hrest
          exact iff_of_true rfl ⟨0, Nat.zero_le _, hnow.mp rfl⟩
      | false =>
          obtain ⟨_, s₂, hskip, hagain⟩ := Program.exec_bind.mp hrest
          have hbusy : ¬ Ready (status s.polls) := fun h => Bool.noConfusion (hnow.mpr h)
          rw [ih hagain, skipFrame_exec hskip, hpolls]
          -- the later looks are numbered from the second on
          constructor
          · rintro ⟨n, hn, hready⟩
            refine ⟨n + 1, by omega, ?_⟩
            rw [show s.polls + (n + 1) = s.polls + 1 + n by omega]
            exact hready
          · rintro ⟨n, hn, hready⟩
            cases n with
            | zero => exact absurd hready hbusy
            | succ n =>
                refine ⟨n, by omega, ?_⟩
                rw [show s.polls + 1 + n = s.polls + (n + 1) by omega]
                exact hready

/-- The chip has no part in it. -/
theorem dropPadding_exec {q : PbufChain}
    (h : Program.Exec (busEnv hdr status) s (dropPadding pad p) q s') :
    q = withoutPadding hdr pad p ∧ s' = s := by
  unfold dropPadding at h
  unfold withoutPadding
  split at h
  next hzero =>
    rw [if_pos hzero]
    exact Program.exec_pure.mp h
  next hne =>
    rw [if_neg hne]
    exact Program.exec_perform.mp h

/-- Nor in this. -/
theorem reclaimPadding_exec {q : PbufChain}
    (h : Program.Exec (busEnv hdr status) s (reclaimPadding pad p) q s') :
    q = withPadding hdr pad p := by
  unfold reclaimPadding at h
  unfold withPadding
  split at h
  next hzero =>
    rw [if_pos hzero]
    exact (Program.exec_pure.mp h).1
  next hne =>
    rw [if_neg hne]
    exact (Program.exec_perform.mp h).1

/-- A write to another port selects no register. -/
theorem cs8900aWrite_exec {addr : Nat} {data : UInt16} {u : Unit} (haddr : addr ≠ ADD_PORT)
    (h : Program.Exec (busEnv hdr status) s (cs8900aWrite addr data) u s') : s' = s := by
  have hans : s' = if addr = ADD_PORT then { s with latch := data } else s :=
    Program.exec_perform.mp h
  rw [hans, if_neg haddr]

/-- What becomes of the pbuf is decided by nine bus status words. -/
theorem lowLevelOutput_givesBack (hhdr : PbufHeader hdr) (htot : p.Consistent)
    (hpad : pad ≤ p.first.len.toNat) {err : Err} {p' : PbufChain} (hpolls : s.polls = 0)
    (h : Program.Exec (busEnv hdr status) s (lowLevelOutput pad p) (err, p') s') :
    GivenBack p p' ↔ pad = 0 ∨ ∃ n ≤ 8, Ready (status n) := by
  unfold lowLevelOutput at h
  simp only [Program.exec_bind] at h
  obtain ⟨q, s₁, hdrop, _, s₂, hcmd, _, s₃, hlen, ready, s₄, hwait, hrest⟩ := h
  obtain ⟨rfl, rfl⟩ := dropPadding_exec hdrop
  obtain rfl := cs8900aWrite_exec (by decide) hcmd
  obtain rfl := cs8900aWrite_exec (by decide) hlen
  have hready := waitForTx_exec hwait
  simp only [hpolls, Nat.zero_add] at hready
  rw [← hready]
  cases ready with
  | true =>
      obtain ⟨_, s₅, -, q', s₆, hreclaim, hend⟩ := by
        simpa only [if_pos, Program.exec_bind] using hrest
      obtain rfl := reclaimPadding_exec hreclaim
      obtain ⟨_, s₇, -, hret⟩ := hend
      obtain ⟨-, rfl⟩ := Prod.mk.inj (Program.exec_pure.mp hret).1
      rw [hhdr.withPadding_withoutPadding htot hpad]
      exact iff_of_true ⟨rfl, rfl, rfl⟩ (.inr rfl)
  | false =>
      obtain ⟨-, rfl⟩ := Prod.mk.inj (Program.exec_pure.mp hrest).1
      rw [givenBack_withoutPadding hhdr hpad]
      exact ⟨.inl, fun h => h.resolve_right Bool.noConfusion⟩

end Cs8900a

/-! ## §3. Both drivers. -/

/-- **Transmission gives the pbuf back unchanged exactly when there is no padding to
take back, or no error to return.** -/
theorem gives_back_iff {hdr : PbufChain → Int → PbufChain} (hhdr : PbufHeader hdr) {pad : Nat}
    {p : PbufChain} (htot : p.Consistent) (hpad : pad ≤ p.first.len.toNat) :
    (∀ stack res tr err p', Program.Trace (Tapif.lowLevelOutput pad stack p) tr (err, p') →
      (∀ e ∈ tr, Tapif.WriteBy hdr res e) → (GivenBack p p' ↔ pad = 0 ∨ res ≠ -1)) ∧
    (∀ status latch err p' s', Program.Exec (Cs8900a.busEnv hdr status) ⟨latch, 0⟩
        (Cs8900a.lowLevelOutput pad p) (err, p') s' →
      (GivenBack p p' ↔ pad = 0 ∨ ∃ n ≤ 8, Cs8900a.Ready (status n))) := by
  constructor
  · intro stack res tr err p' hrun hanswers
    exact Tapif.lowLevelOutput_givesBack hhdr htot hpad hrun hanswers
  · intro status latch err p' s' hrun
    exact Cs8900a.lowLevelOutput_givesBack hhdr htot hpad rfl hrun

/-! ## §4. Sample runs. -/

/-- A tap device whose `write` answers `res`. -/
def Tapif.writeAnswers (res : Int) : (op : Tapif.Op) → op.Ans
  | .write _ _ => res
  | op => Tapif.openTap op

/-- For each result of `write` there is a run. -/
theorem Tapif.writeAnswers_trace (res : Int) (pad : Nat) (p : PbufChain) :
    ∃ tr r, Program.Trace (Tapif.lowLevelOutput pad (fun _ => 0) p) tr r
      ∧ ∀ e ∈ tr, Tapif.WriteBy samplePbufHeader res e := by
  have htrace := Program.trace_run (Tapif.writeAnswers res)
    (Tapif.lowLevelOutput pad (fun _ => 0) p)
  refine ⟨_, _, htrace, ?_⟩
  rintro ⟨op, ans⟩ he
  obtain rfl : ans = Tapif.writeAnswers res op := Program.answer_of_mem_run he
  cases op <;> trivial

/-- A chip whose bus status is always the same. -/
def Cs8900a.busAnswers (status : UInt16) (s : BusChip) :
    (op : Cs8900a.Op) → op.Ans × BusChip
  | .cs8900aWrite addr data => ((), if addr = ADD_PORT then { s with latch := data } else s)
  | .cs8900aRead addr =>
      if addr = DATA_PORT ∧ s.latch = PP_BusST then (status, { s with polls := s.polls + 1 })
      else ((0 : UInt16), s)
  | op => (readyChip op, s)

/-- For each status there is a run. -/
theorem Cs8900a.busAnswers_exec (status : UInt16) (pad : Nat) (p : PbufChain) :
    ∃ r s', Program.Exec (busEnv samplePbufHeader fun _ => status) ⟨0, 0⟩
      (lowLevelOutput pad p) r s' := by
  have hanswers : ∀ s op, busEnv samplePbufHeader (fun _ => status) s op
      (busAnswers status s op).1 (busAnswers status s op).2 := by
    intro s op
    cases op with
    | cs8900aRead addr =>
        refine busEnv_read.mpr ?_
        unfold busAnswers
        dsimp only
        split
        · exact ⟨rfl, rfl⟩
        · rfl
    | pbuf_header p increment => exact ⟨rfl, rfl⟩
    | _ => rfl
  exact ⟨_, _, Program.exec_execWith hanswers (lowLevelOutput pad p) ⟨0, 0⟩⟩

/-- A frame behind padding of two bytes, which both devices take. -/
theorem gives_back_iff_taken : PbufHeader samplePbufHeader ∧ Cs8900a.paddedFrame.Consistent
    ∧ (∃ tr err p', Program.Trace (Tapif.lowLevelOutput 2 (fun _ => 0) Cs8900a.paddedFrame) tr
        (err, p') ∧ GivenBack Cs8900a.paddedFrame p')
    ∧ ∃ err p' s', Program.Exec (Cs8900a.busEnv samplePbufHeader fun _ => 0x0100) ⟨0, 0⟩
        (Cs8900a.lowLevelOutput 2 Cs8900a.paddedFrame) (err, p') s'
      ∧ GivenBack Cs8900a.paddedFrame p' := by
  have htot : Cs8900a.paddedFrame.Consistent := rfl
  have hpad : 2 ≤ Cs8900a.paddedFrame.first.len.toNat := by decide
  obtain ⟨htap, hchip⟩ := gives_back_iff samplePbufHeader_spec htot hpad
  obtain ⟨tr, r, htrace, hanswers⟩ := Tapif.writeAnswers_trace 5 2 Cs8900a.paddedFrame
  obtain ⟨r', s', hexec⟩ := Cs8900a.busAnswers_exec 0x0100 2 Cs8900a.paddedFrame
  refine ⟨samplePbufHeader_spec, htot, ⟨tr, r.1, r.2, htrace, ?_⟩, r'.1, r'.2, s', hexec, ?_⟩
  · exact (htap _ _ _ _ _ htrace hanswers).mpr (.inr (by decide))
  · exact (hchip _ _ _ _ _ hexec).mpr (.inr ⟨0, by decide⟩)

/-- With the same frame, a `write` that fails and a chip that is never ready. -/
theorem error_keeps_padding :
    (∃ tr err p', Program.Trace (Tapif.lowLevelOutput 2 (fun _ => 0) Cs8900a.paddedFrame) tr
        (err, p') ∧ (∀ e ∈ tr, Tapif.WriteBy samplePbufHeader (-1) e)
      ∧ ¬ GivenBack Cs8900a.paddedFrame p')
    ∧ ∃ err p' s', Program.Exec (Cs8900a.busEnv samplePbufHeader fun _ => 0) ⟨0, 0⟩
        (Cs8900a.lowLevelOutput 2 Cs8900a.paddedFrame) (err, p') s'
      ∧ ¬ GivenBack Cs8900a.paddedFrame p' := by
  have htot : Cs8900a.paddedFrame.Consistent := rfl
  have hpad : 2 ≤ Cs8900a.paddedFrame.first.len.toNat := by decide
  obtain ⟨tr, r, htrace, hanswers⟩ := Tapif.writeAnswers_trace (-1) 2 Cs8900a.paddedFrame
  obtain ⟨r', s', hexec⟩ := Cs8900a.busAnswers_exec 0 2 Cs8900a.paddedFrame
  have htap := Tapif.lowLevelOutput_givesBack samplePbufHeader_spec htot hpad htrace hanswers
  have hchip := Cs8900a.lowLevelOutput_givesBack samplePbufHeader_spec htot hpad rfl hexec
  refine ⟨⟨tr, r.1, r.2, htrace, hanswers, ?_⟩, r'.1, r'.2, s', hexec, ?_⟩
  · rw [htap]
    decide
  · rw [hchip]
    rintro (hpad | ⟨n, -, hready⟩)
    · exact absurd hpad (by decide)
    · exact absurd hready (by decide)

end PicoosLwip.Netif
