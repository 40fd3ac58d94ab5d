/-
  PicoosLwip.Netif.TapDelivery — from a frame in the tap device to `netif->input`.

  With lwIP's buffers as documented, what one round of the receive loop passes on is
  the first frame in the queue, byte for byte as far as `ethBuf` has room for it.

  Main results:
    * `lowLevelInput_carries` — the chain that is fetched holds that frame;
    * `tapIfInput_poll`       — one round is one poll that delivers.
-/
import PicoosLwip.Framework.Answers
import PicoosLwip.Netif.Delivery
import PicoosLwip.Netif.TapReceive

namespace PicoosLwip.Netif

open PicoosLwip.Framework

/-! ## §1. lwIP's buffers. -/

/-- What lwIP keeps to: its chains are such, and `pbuf_header` does as `hdr`. -/
def BuffersBy (hdr : PbufChain → Int → PbufChain) (pad : Nat) : Tapif.TapStep → Prop
  | ⟨.pbuf_alloc len, alloc⟩ => ∀ p, alloc = some p → PoolChain pad len p
  | ⟨.pbuf_header p increment, q⟩ => q = hdr p increment
  | _ => True

/-- The tap device with such an lwIP. -/
abbrev tapBuffersEnv (alloc : Nat → Bool) (hdr : PbufChain → Int → PbufChain) (pad : Nat) :
    Program.Env Receiver Tapif.Op Tapif.Op.Ans :=
  (tapEnv alloc).meeting (BuffersBy hdr pad)

section Fetch

variable {alloc : Nat → Bool} {hdr : PbufChain → Int → PbufChain} {pad : Nat}

/-- Such answers are answers around any `read` and `pbuf_alloc` that is not there. -/
theorem BuffersBy.answeredBy {res : Tapif.ReadResult} {p : Option PbufChain} {e : Tapif.TapStep}
    (h : BuffersBy hdr pad e) (hread : e.1 ≠ .read) (halloc : ∀ len, e.1 ≠ .pbuf_alloc len) :
    Tapif.AnsweredBy hdr res p e := by
  obtain ⟨op, ans⟩ := e
  cases op with
  | read => exact absurd rfl hread
  | pbuf_alloc len => exact absurd rfl (halloc len)
  | pbuf_header q increment => exact h
  | _ => trivial

/-- Neither `read` nor `pbuf_alloc`. -/
def Tapif.Op.Filling : Tapif.Op → Prop
  | .read => False
  | .pbuf_alloc _ => False
  | _ => True

/-- Copying asks for nothing else. -/
theorem tap_receiveInto_filling (ethBuf : Nat → UInt8) (p : PbufChain) :
    (Tapif.receiveInto pad ethBuf p).AllOps Tapif.Op.Filling := by
  have hweaken : ∀ op : Tapif.Op, op.Unnoticed → op.Filling := by
    intro op hop
    cases op <;> trivial
  refine .bind ((tap_dropPadding pad p).mono hweaken) fun q => ?_
  refine .bind (.perform trivial) fun _ => ?_
  refine .bind ((tap_scatter _ _ _).mono hweaken) fun next => ?_
  refine .bind ((tap_reclaimPadding pad _).mono hweaken) fun r => ?_
  exact .bind (.perform trivial) fun _ => .pure _

/-- **What is fetched is the frame**: the chain that `lowLevelInput` returns holds the
first frame of the queue, as far as `ethBuf` has room for it. -/
theorem lowLevelInput_carries (hhdr : PbufHeader hdr) {stack : Nat → UInt8} {p : PbufChain}
    {s s' : Receiver} {frame : List UInt8} {queue : List (List UInt8)}
    (hpad : pad + Tapif.ethBufSize < 65536) (hfirst : s.queue = frame :: queue)
    (hframe : ethHdrSize ≤ frame.length)
    (h : Program.Exec (tapBuffersEnv alloc hdr pad) s (Tapif.lowLevelInput pad stack) (some p) s') :
    Carries pad (frame.take Tapif.ethBufSize) p ∧ pad + ethHdrSize ≤ p.first.len.toNat := by
  obtain ⟨res, s₁, hread, hcopy⟩ := Program.exec_bind.mp h
  obtain ⟨⟨taken, htakes, rfl⟩, -⟩ := Program.exec_perform.mp hread
  obtain rfl : taken = some frame := by
    generalize hs : s = r at htakes
    cases htakes with
    | none => rw [hs] at hfirst; exact absurd hfirst (by simp)
    | some =>
        rw [hs] at hfirst
        rw [(List.cons.inj hfirst).1]
  have hlen : (frame.take Tapif.ethBufSize).length ≤ Tapif.ethBufSize := List.length_take_le _ _
  have hmin : (frame.take Tapif.ethBufSize).length = min Tapif.ethBufSize frame.length :=
    List.length_take
  obtain ⟨ans, s₂, halloc, hfill⟩ := Program.exec_bind.mp hcopy
  obtain ⟨-, hpool⟩ : _ ∧ BuffersBy hdr pad ⟨.pbuf_alloc _, ans⟩ := Program.exec_perform.mp halloc
  cases ans with
  | none =>
      obtain ⟨_, s₃, -, hlast⟩ := Program.exec_bind.mp hfill
      obtain ⟨_, s₄, -, hret⟩ := Program.exec_bind.mp hlast
      exact absurd (Program.exec_pure.mp hret).1 (by simp)
  | some p₀ =>
      obtain ⟨hcons, htot, hroom⟩ := hpool p₀ rfl
      obtain ⟨q, s₃, hinto, hret⟩ := Program.exec_bind.mp hfill
      obtain rfl := Option.some.inj (Program.exec_pure.mp hret).1
      obtain ⟨-, tr, htr, hall⟩ := Program.exec_meeting (tap_receiveInto_filling _ p₀) hinto
      have hanswers : ∀ e ∈ tr,
          Tapif.AnsweredBy hdr (.got (frame.take Tapif.ethBufSize) hlen) (some p₀) e := by
        intro e he
        obtain ⟨hby, hop⟩ := hall e he
        refine hby.answeredBy ?_ ?_
        · intro hread
          rw [hread] at hop
          exact hop
        · intro len halloc
          rw [halloc] at hop
          exact hop
      obtain ⟨r, hfilled, rfl⟩ := Tapif.receiveInto_spec _ tr p htr hanswers
      -- the request is for the padding and the frame, and does not wrap
      have hreq : p₀.tot_len.toNat = (frame.take Tapif.ethBufSize).length + pad := by
        rw [htot]
        refine (Tapif.request_got hlen pad).trans (Nat.mod_eq_of_lt ?_)
        exact Nat.lt_of_le_of_lt (Nat.add_le_add_right hlen pad) (by omega)
      have hfits : ethHdrSize ≤ (frame.take Tapif.ethBufSize).length := by
        rw [hmin]
        exact Nat.le_min.mpr ⟨by decide, hframe⟩
      rw [← htot, hreq] at hroom
      have hle : pad + ethHdrSize ≤ p₀.first.len.toNat := by omega
      have hdel := Tapif.delivers_of_room hhdr hcons htot (by omega) hfilled
      refine ⟨hdel.data _ rfl, ?_⟩
      rw [(hhdr.refilled hcons (by omega) hfilled.shape hfilled.tot_len
        (hfilled.consistent (hhdr.consistent hcons))).1]
      exact hle

/-! ## §2. One round. -/

/-- What the driver keeps of a frame: as much as fits in `ethBuf`. -/
def Tapif.kept (frame : List UInt8) : List UInt8 := frame.take Tapif.ethBufSize

/-- A frame with an Ethernet header. -/
def HasHeader (frame : List UInt8) : Prop := ethHdrSize ≤ frame.length

/-- A frame with a header is delivered. -/
abbrev Delivers (pppoe : Bool) (pad : Nat) (frame : List UInt8) (ok : Bool) (l : List Event) :
    Prop := HasHeader frame → Delivered pppoe pad Tapif.kept frame ok l

variable {pppoe : Bool} {s s' : Receiver}

/-- **One round is one poll that delivers.** -/
theorem tapIfInput_poll (hhdr : PbufHeader hdr) (hpad : pad + Tapif.ethBufSize < 65536)
    {stack : Nat → UInt8} {again : Bool}
    (h : Program.Exec ((tapBuffersEnv alloc hdr pad).sum (stackEnv Receiver.note)) s
      (tapIfInput pppoe pad stack) (some again) s') :
    Poll alloc (Delivers pppoe pad) s again s' := by
  refine ifInput_delivers id (fun _ _ => rfl) ?_ h
  intro p s₁ hlow
  obtain ⟨q, s₂, hfetch, hret⟩ := Program.exec_bind.mp hlow
  obtain ⟨hp, rfl⟩ := Program.exec_pure.mp hret
  obtain rfl : p = q := Option.some.inj hp
  refine ⟨tap_fetched (hfetch.mono fun _ _ _ _ hop => hop.1), ?_⟩
  rintro frame queue q hfirst rfl hframe
  exact lowLevelInput_carries hhdr hpad hfirst hframe hfetch

end Fetch

end PicoosLwip.Netif
