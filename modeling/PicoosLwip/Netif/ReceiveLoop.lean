/-
  PicoosLwip.Netif.ReceiveLoop — what the receive threads do with pending frames.

  The device is a queue of frames, and whether `pbuf_alloc` and `netif->input`
  succeed is open.  The threads run `while (tapIfInput(netif));` and
  `while (cs8900aIfInput(netif));`.  A frame for which there is no pbuf makes
  `lowLevelInput` return `NULL`, as an empty device does, and ends the loop: the
  frames behind it stay where they are.

  The CS8900A announces a frame in `PP_RxEvent`.  Reading that register takes the
  frame from the queue; what is not read of it is lost.

  Main results:
    * `tap_fetched`, `cs8900a_fetched` — what `lowLevelInput` does with the queue;
    * `ifInput_poll`  — around such a driver, one round is one poll;
    * `drained_iff`   — when the loops leave nothing behind;
    * `short_of_memory` — two frames, and no pbuf for the first.
-/
import PicoosLwip.Framework.Drain
import PicoosLwip.Netif.IfInput

namespace PicoosLwip.Netif

open PicoosLwip.Framework
open Cs8900a (LinkStat)

/-! ## §1. Frames and what becomes of them. -/

/-- What the environment of a receive thread writes down. -/
inductive Event where
  /-- The device handed over a frame. -/
  | taken (frame : List UInt8)
  | alloc (ok : Bool)
  | counted (stat : LinkStat)
  | input (p : PbufChain) (accepted : Bool)
  | freed (p : PbufChain)

/-- The pending frames, the calls of `pbuf_alloc`, and what happened. -/
abbrev Receiver : Type := Station (List UInt8) Event

/-- What happens to the pbuf of a frame: accepted by `netif->input`, or freed,
because that refused it or because nobody handles its type. -/
inductive HandedOver (p : PbufChain) : List Event → Prop
  | accepted : HandedOver p [.input p true]
  | refused : HandedOver p [.input p false, .freed p]
  | ignored : HandedOver p [.freed p]

/-- `l` accounts for the frame, for which `pbuf_alloc` succeeded or did not. -/
inductive Accounted (frame : List UInt8) : Bool → List Event → Prop
  | dropped :
      Accounted frame false [.taken frame, .alloc false, .counted .memerr, .counted .drop]
  | handedOver {p : PbufChain} {l : List Event} (h : HandedOver p l) :
      Accounted frame true ([.taken frame, .alloc true, .counted .recv] ++ l)

/-- One of the three ends of a frame. -/
def Event.isEnd : Event → Bool
  | .input _ accepted => accepted
  | .freed _ => true
  | .counted stat => stat == .drop
  | _ => false

/-- Exactly one of them happens. -/
theorem Accounted.one_end {frame : List UInt8} {ok : Bool} {l : List Event}
    (h : Accounted frame ok l) : l.countP Event.isEnd = 1 := by
  cases h with
  | dropped => rfl
  | handedOver h => cases h <;> rfl

/-- The device hands over the first frame, or finds none. -/
inductive Takes : Receiver → Option (List UInt8) → Receiver → Prop
  | none {n : Nat} {log : List Event} : Takes ⟨[], n, log⟩ none ⟨[], n, log⟩
  | some {frame : List UInt8} {queue : List (List UInt8)} {n : Nat} {log : List Event} :
      Takes ⟨frame :: queue, n, log⟩ (some frame) ⟨queue, n, log ++ [.taken frame]⟩

/-- One more event. -/
def Receiver.note (s : Receiver) (e : Event) : Receiver := { s with log := s.log ++ [e] }

/-- `pbuf_alloc` succeeds where `alloc` says so, by the number of the call. -/
def Receiver.allocates (alloc : Nat → Bool) (s : Receiver) (ans : Option PbufChain)
    (s' : Receiver) : Prop :=
  ans.isSome = alloc s.tries
    ∧ s' = ⟨s.queue, s.tries + 1, s.log ++ [.alloc (alloc s.tries)]⟩

/-! ## §2. The environments of the two drivers. -/

/-- What `read` makes of that; a frame longer than the buffer is cut off. -/
def tapRead : Option (List UInt8) → Tapif.ReadResult
  | none => .failed Tapif.EAGAIN
  | some frame => .got (frame.take Tapif.ethBufSize) (List.length_take_le _ _)

/-- A tap device with a queue of frames, and an lwIP with some memory. -/
def tapEnv (alloc : Nat → Bool) : Program.Env Receiver Tapif.Op Tapif.Op.Ans
  | s, .read, res, s' => ∃ frame, Takes s frame s' ∧ res = tapRead frame
  | s, .pbuf_alloc _, ans, s' => s.allocates alloc ans s'
  | s, .LINK_STATS_INC stat, _, s' => s' = s.note (.counted stat)
  | s, _, _, s' => s' = s

/-- The events of a valid frame in `PP_RxEvent`. -/
def announcesFrame (event : UInt16) : Prop := event &&& 0xd00 ≠ 0

/-- The chip: its address latch beside the queue. -/
structure Chip where
  latch : UInt16
  receiver : Receiver

/-- A chip with a queue of frames, and an lwIP with some memory. -/
def cs8900aEnv (alloc : Nat → Bool) : Program.Env Chip Cs8900a.Op Cs8900a.Op.Ans
  | s, .cs8900aWrite addr data, _, s' =>
      s' = if addr = Cs8900a.ADD_PORT then { s with latch := data } else s
  | s, .cs8900aRead addr, v, s' =>
      -- a read of the event register takes the next frame out of the queue
      if addr = Cs8900a.DATA_PORT ∧ s.latch = Cs8900a.PP_RxEvent then
        ∃ frame, Takes s.receiver frame s'.receiver ∧ s'.latch = s.latch
          ∧ (announcesFrame v ↔ frame ≠ none)
      else s' = s
  | s, .pbuf_alloc _, ans, s' => s.receiver.allocates alloc ans s'.receiver ∧ s'.latch = s.latch
  | s, .LINK_STATS_INC stat, _, s' => s' = { s with receiver := s.receiver.note (.counted stat) }
  | s, _, _, s' => s' = s

/-- The stack's answer. -/
def accepts (err : Int) : Bool := err == ERR_OK

/-- lwIP, over a state that keeps the log with `note`. -/
def stackEnv {σ : Type} (note : σ → Event → σ) : Program.Env σ StackOp StackOp.Ans
  | s, .input p, err, s' => s' = note s (.input p (accepts err))
  | s, .pbuf_free p, _, s' => s' = note s (.freed p)

/-! ## §3. One round. -/

/-- What `lowLevelInput` did: nothing was pending; there was no pbuf for the frame,
which is lost; or the frame is in a chain. -/
inductive Fetched (alloc : Nat → Bool) : Receiver → Option PbufChain → Receiver → Prop
  | idle {n : Nat} {log : List Event} : Fetched alloc ⟨[], n, log⟩ none ⟨[], n, log⟩
  | starved {frame : List UInt8} {queue : List (List UInt8)} {n : Nat} {log : List Event}
      (h : alloc n = false) : Fetched alloc ⟨frame :: queue, n, log⟩ none ⟨queue, n + 1,
        log ++ [.taken frame, .alloc false, .counted .memerr, .counted .drop]⟩
  | served {frame : List UInt8} {queue : List (List UInt8)} {n : Nat} {log : List Event}
      (p : PbufChain) (h : alloc n = true) : Fetched alloc ⟨frame :: queue, n, log⟩ (some p)
        ⟨queue, n + 1, log ++ [.taken frame, .alloc true, .counted .recv]⟩

section Round

variable {alloc : Nat → Bool} {v v₁ v₂ : Receiver} {frame : Option (List UInt8)}

/-- No pbuf, and the frame is dropped. -/
theorem Fetched.of_starved (htakes : Takes v frame v₁) (hsome : frame ≠ none)
    (halloc : v₁.allocates alloc none v₂) :
    Fetched alloc v none ((v₂.note (.counted .memerr)).note (.counted .drop)) := by
  obtain ⟨hans, rfl⟩ := halloc
  cases htakes with
  | none => exact absurd rfl hsome
  | @some frame queue n log =>
      have hfail : alloc n = false := hans.symm
      simp only [Receiver.note, hfail, List.append_assoc]
      exact .starved hfail

/-- A pbuf, and the frame is received. -/
theorem Fetched.of_served {p : PbufChain} (q : PbufChain) (htakes : Takes v frame v₁)
    (hsome : frame ≠ none) (halloc : v₁.allocates alloc (some p) v₂) :
    Fetched alloc v (some q) (v₂.note (.counted .recv)) := by
  obtain ⟨hans, rfl⟩ := halloc
  cases htakes with
  | none => exact absurd rfl hsome
  | @some frame queue n log =>
      have hgot : alloc n = true := hans.symm
      simp only [Receiver.note, hgot, List.append_assoc]
      exact .served q hgot

/-- No frame at all. -/
theorem Fetched.of_idle (htakes : Takes v none v₁) : Fetched alloc v none v₁ := by
  cases htakes with
  | none => exact .idle

/-- **The type decides** what happens to a chain. -/
theorem passOn_dispatch {σ Op : Type} {Ans : Op → Type} {env : Program.Env σ Op Ans}
    {note : σ → Event → σ} (view : σ → Receiver)
    (hnote : ∀ s e, view (note s e) = (view s).note e) {pppoe : Bool} {pad : Nat} {p : PbufChain}
    {s s' : σ} {r : Option Bool}
    (h : Program.Exec (env.sum (stackEnv note)) s (passOn pppoe pad p) r s') :
    r = some true ∧ ∃ l, view s' = ⟨(view s).queue, (view s).tries, (view s).log ++ l⟩
      ∧ if isHandled pppoe (ethType pad p) then l = [.input p true] ∨ l = [.input p false, .freed p]
        else l = [.freed p] := by
  unfold passOn at h
  split at h
  next htype =>
    simp only [if_pos htype]
    -- a type that the stack takes: the chain goes to input
    obtain ⟨err, s₁, hinput, hrest⟩ := Program.exec_bind.mp h
    obtain rfl : s₁ = note s (.input p (accepts err)) := Program.exec_performInr.mp hinput
    split at hrest
    next hne =>
      obtain ⟨_, s₂, hfree, hret⟩ := Program.exec_bind.mp hrest
      obtain rfl : s₂ = note _ (.freed p) := Program.exec_performInr.mp hfree
      obtain ⟨rfl, rfl⟩ := Program.exec_pure.mp hret
      -- input has failed, so the chain is freed here
      have hrefused : accepts err = false := by simpa [accepts] using hne
      refine ⟨rfl, _, ?_, .inr rfl⟩
      rw [hnote, hnote, hrefused]
      simp [Receiver.note]
    next heq =>
      obtain ⟨rfl, rfl⟩ := Program.exec_pure.mp hrest
      have haccepted : accepts err = true := by simpa [accepts] using heq
      refine ⟨rfl, _, ?_, .inl rfl⟩
      rw [hnote, haccepted]
      rfl
  next htype =>
    simp only [if_neg htype]
    -- any other type: freed at once
    obtain ⟨_, s₁, hfree, hret⟩ := Program.exec_bind.mp h
    obtain rfl : s₁ = note s (.freed p) := Program.exec_performInr.mp hfree
    obtain ⟨rfl, rfl⟩ := Program.exec_pure.mp hret
    refine ⟨rfl, _, ?_, rfl⟩
    rw [hnote]
    rfl

/-- Whatever its type is, it is handed over. -/
theorem HandedOver.of_dispatch {pppoe : Bool} {pad : Nat} {p : PbufChain} {l : List Event}
    (h : if isHandled pppoe (ethType pad p) then
        l = [.input p true] ∨ l = [.input p false, .freed p] else l = [.freed p]) :
    HandedOver p l := by
  split at h
  next =>
    rcases h with rfl | rfl
    · exact .accepted
    · exact .refused
  next =>
    obtain rfl := h
    exact .ignored

/-- **A round** fetches a chain and passes it on, and the loop goes on; or it fetches none, for
whatever reason, and the loop stops. -/
theorem ifInput_dispatch {σ Op : Type} {Ans : Op → Type} {env : Program.Env σ Op Ans}
    {note : σ → Event → σ} (view : σ → Receiver)
    (hnote : ∀ s e, view (note s e) = (view s).note e)
    {lowLevelInput : Program Op Ans (Option (Option PbufChain))} {pppoe again : Bool} {pad : Nat}
    {s s' : σ} (h : Program.Exec (env.sum (stackEnv note)) s (ifInput lowLevelInput pppoe pad)
      (some again) s') :
    (Program.Exec env s lowLevelInput (some none) s' ∧ again = false)
      ∨ ∃ p s₁ l, Program.Exec env s lowLevelInput (some (some p)) s₁ ∧ again = true
        ∧ view s' = ⟨(view s₁).queue, (view s₁).tries, (view s₁).log ++ l⟩
        ∧ if isHandled pppoe (ethType pad p) then
            l = [.input p true] ∨ l = [.input p false, .freed p] else l = [.freed p] := by
  obtain ⟨r, s₁, hlow, hrest⟩ := Program.exec_bind.mp h
  rw [Program.exec_inl] at hlow
  cases r with
  | none => exact absurd (Program.exec_pure.mp hrest).1 (by simp)
  | some p =>
      cases p with
      | none =>
          obtain ⟨hagain, rfl⟩ := Program.exec_pure.mp hrest
          exact .inl ⟨hlow, Option.some.inj hagain⟩
      | some p =>
          obtain ⟨hagain, l, hlog, hl⟩ := passOn_dispatch view hnote hrest
          exact .inr ⟨p, s₁, l, hlow, Option.some.inj hagain, hlog, hl⟩

/-- **One round around such a driver is one poll.** -/
theorem ifInput_poll {σ Op : Type} {Ans : Op → Type} {env : Program.Env σ Op Ans}
    {note : σ → Event → σ} (view : σ → Receiver)
    (hnote : ∀ s e, view (note s e) = (view s).note e)
    {lowLevelInput : Program Op Ans (Option (Option PbufChain))}
    (hfetch : ∀ s p s', Program.Exec env s lowLevelInput (some p) s' →
      Fetched alloc (view s) p (view s'))
    (pppoe : Bool) (pad : Nat) {s s' : σ} {b : Bool}
    (h : Program.Exec (env.sum (stackEnv note)) s (ifInput lowLevelInput pppoe pad) (some b) s') :
    Poll alloc Accounted (view s) b (view s') := by
  rcases ifInput_dispatch view hnote h with
    ⟨hlow, rfl⟩ | ⟨p, s₁, l, hlow, rfl, hlog, hl⟩
  · have hfetched := hfetch s none s' hlow
    generalize view s = v at hfetched ⊢
    generalize view s' = v' at hfetched ⊢
    cases hfetched with
    | idle => exact .idle
    | starved hfail => exact .taken hfail .dropped
  · have hfetched := hfetch s (some p) s₁ hlow
    rw [hlog]
    generalize view s = v at hfetched ⊢
    generalize view s₁ = v₁ at hfetched ⊢
    cases hfetched with
    | served _ hgot =>
        rw [List.append_assoc]
        exact .taken hgot (.handedOver (.of_dispatch hl))

/-! ## §4. The drivers. -/

/-- Operations of the tap driver that its environment does not notice. -/
def Tapif.Op.Unnoticed : Tapif.Op → Prop
  | .memcpyFrom _ _ => True
  | .pbuf_header _ _ => True
  | _ => False

/-- The device does not notice. -/
theorem tapEnv_unnoticed (op : Tapif.Op) (hop : op.Unnoticed) (s : Receiver) (ans : op.Ans)
    (s' : Receiver) (h : tapEnv alloc s op ans s') : s' = s := by
  cases op <;> first | exact h | exact hop.elim

/-- The device does not see the padding. -/
theorem tap_dropPadding (pad : Nat) (p : PbufChain) :
    (Tapif.dropPadding pad p).AllOps Tapif.Op.Unnoticed := by
  unfold Tapif.dropPadding
  split
  · exact .pure _
  · exact .perform trivial

theorem tap_reclaimPadding (pad : Nat) (p : PbufChain) :
    (Tapif.reclaimPadding pad p).AllOps Tapif.Op.Unnoticed := by
  unfold Tapif.reclaimPadding
  split
  · exact .pure _
  · exact .perform trivial

theorem tap_memcpyFrom (ofs n : Nat) : (Tapif.memcpyFrom ofs n).AllOps Tapif.Op.Unnoticed :=
  .perform trivial

/-- Nor the copying. -/
theorem tap_scatter (ethBuf : Nat → UInt8) (qs : List Pbuf) (bufPtr : Nat) :
    (Tapif.scatter ethBuf bufPtr qs).AllOps Tapif.Op.Unnoticed := by
  induction qs generalizing bufPtr with
  | nil => exact .pure _
  | cons q qs ih =>
      apply Program.AllOps.bind (tap_memcpyFrom _ _)
      intro _
      exact .bind (ih _) fun _ => .pure _

/-- Filling a chain is noticed by its counter only. -/
theorem tap_receiveInto {pad : Nat} {ethBuf : Nat → UInt8} {p q : PbufChain} {s s' : Receiver}
    (h : Program.Exec (tapEnv alloc) s (Tapif.receiveInto pad ethBuf p) q s') :
    s' = s.note (.counted .recv) := by
  unfold Tapif.receiveInto at h
  simp only [Program.exec_bind] at h
  obtain ⟨p₁, s₁, hdrop, _, s₂, hfirst, next, s₃, hnext, p₄, s₄, hreclaim, _, s₅, hstat, hret⟩ := h
  obtain rfl := hdrop.state_eq tapEnv_unnoticed (tap_dropPadding pad p)
  obtain rfl := hfirst.state_eq tapEnv_unnoticed (tap_memcpyFrom _ _)
  obtain rfl := hnext.state_eq tapEnv_unnoticed (tap_scatter _ _ _)
  obtain rfl := hreclaim.state_eq tapEnv_unnoticed (tap_reclaimPadding pad _)
  obtain rfl : s₅ = s₄.note (.counted .recv) := Program.exec_perform.mp hstat
  exact (Program.exec_pure.mp hret).2

/-- **The tap driver's `lowLevelInput`** takes a frame from the queue, if there is one. -/
theorem tap_fetched {pad : Nat} {stack : Nat → UInt8} {p : Option PbufChain} {s s' : Receiver}
    (h : Program.Exec (tapEnv alloc) s (Tapif.lowLevelInput pad stack) p s') :
    Fetched alloc s p s' := by
  obtain ⟨res, s₁, hread, hcopy⟩ := Program.exec_bind.mp h
  obtain ⟨frame, htakes, rfl⟩ := Program.exec_perform.mp hread
  cases frame with
  | none =>
      -- read had nothing
      obtain ⟨rfl, rfl⟩ := Program.exec_pure.mp hcopy
      exact .of_idle htakes
  | some frame =>
      obtain ⟨ans, s₂, halloc, hfill⟩ := Program.exec_bind.mp hcopy
      have htried : s₁.allocates alloc ans s₂ := Program.exec_perform.mp halloc
      cases ans with
      | none =>
          -- no pbuf: counted, and the frame is lost
          obtain ⟨_, s₃, hmemerr, hlast⟩ := Program.exec_bind.mp hfill
          obtain ⟨_, s₄, hdrop, hret⟩ := Program.exec_bind.mp hlast
          obtain rfl := Program.exec_perform.mp hmemerr
          obtain rfl := Program.exec_perform.mp hdrop
          obtain ⟨rfl, rfl⟩ := Program.exec_pure.mp hret
          exact .of_starved htakes (by simp) htried
      | some p₀ =>
          -- the chain is filled from ethBuf
          obtain ⟨q, s₃, hinto, hret⟩ := Program.exec_bind.mp hfill
          obtain rfl := tap_receiveInto hinto
          obtain ⟨rfl, rfl⟩ := Program.exec_pure.mp hret
          exact .of_served q htakes (by simp) htried

/-- Operations of the CS8900A driver that its environment does not notice. -/
def Cs8900a.Op.Unnoticed : Cs8900a.Op → Prop
  | .cs8900aReadAddrHighFirst _ => True
  | .busIn _ => True
  | .cs8900aReadRxBuf _ _ => True
  | .pbuf_header _ _ => True
  | _ => False

/-- The chip's queue does not change. -/
theorem cs8900aEnv_unnoticed (op : Cs8900a.Op) (hop : op.Unnoticed) (s : Chip) (ans : op.Ans)
    (s' : Chip) (h : cs8900aEnv alloc s op ans s') : s' = s := by
  cases op <;> first | exact h | exact hop.elim

theorem cs8900a_busIn (port : Nat) : (Cs8900a.busIn port).AllOps Cs8900a.Op.Unnoticed :=
  .perform trivial

theorem cs8900a_highFirst (addr : Nat) :
    (Cs8900a.cs8900aReadAddrHighFirst addr).AllOps Cs8900a.Op.Unnoticed :=
  .perform trivial

theorem cs8900a_dropPadding (pad : Nat) (p : PbufChain) :
    (Cs8900a.dropPadding pad p).AllOps Cs8900a.Op.Unnoticed := by
  unfold Cs8900a.dropPadding
  split
  · exact .pure _
  · exact .perform trivial

theorem cs8900a_reclaimPadding (pad : Nat) (p : PbufChain) :
    (Cs8900a.reclaimPadding pad p).AllOps Cs8900a.Op.Unnoticed := by
  unfold Cs8900a.reclaimPadding
  split
  · exact .pure _
  · exact .perform trivial

/-- A frame that is copied has left the queue already. -/
theorem cs8900a_readPayload (fuel k : Nat) (q : Pbuf) (u : UInt16) :
    (Cs8900a.readPayload fuel k q u).AllOps Cs8900a.Op.Unnoticed := by
  induction fuel generalizing q u with
  | zero => exact .pure _
  | succ fuel ih =>
      unfold Cs8900a.readPayload
      split
      · exact .bind (.perform trivial) fun _ => ih _ _
      · exact .pure _

/-- All its pbufs are of one frame. -/
theorem cs8900a_readSegments (fuel : Nat) (qs : List Pbuf) (k : Nat) :
    (Cs8900a.readSegments fuel k qs).AllOps Cs8900a.Op.Unnoticed := by
  induction qs generalizing k with
  | nil => exact .pure _
  | cons q qs ih =>
      apply Program.AllOps.bind (cs8900a_readPayload _ _ _ _)
      intro r
      cases r with
      | none => exact .pure _
      | some q =>
          apply Program.AllOps.bind (ih _)
          intro r
          cases r <;> exact .pure _

/-- Filling a chain is noticed by its counter only. -/
theorem cs8900a_receiveInto {pad fuel : Nat} {p q : PbufChain} {s s' : Chip}
    (h : Program.Exec (cs8900aEnv alloc) s (Cs8900a.receiveInto pad fuel p) (some q) s') :
    s' = { s with receiver := s.receiver.note (.counted .recv) } := by
  obtain ⟨p₁, s₁, hdrop, hcopy⟩ := Program.exec_bind.mp h
  obtain ⟨_, s₂, hbus, hfill⟩ := Program.exec_bind.mp hcopy
  obtain ⟨r, s₃, hfirst, hothers⟩ := Program.exec_bind.mp hfill
  obtain rfl := hdrop.state_eq cs8900aEnv_unnoticed (cs8900a_dropPadding pad p)
  obtain rfl := hbus.state_eq cs8900aEnv_unnoticed (cs8900a_busIn _)
  obtain rfl := hfirst.state_eq cs8900aEnv_unnoticed (cs8900a_readPayload _ _ _ _)
  cases r with
  | none => exact absurd (Program.exec_pure.mp hothers).1 (by simp)
  | some first =>
      obtain ⟨r, s₄, hnext, hlast⟩ := Program.exec_bind.mp hothers
      obtain rfl := hnext.state_eq cs8900aEnv_unnoticed (cs8900a_readSegments _ _ _)
      cases r with
      | none => exact absurd (Program.exec_pure.mp hlast).1 (by simp)
      | some next =>
          obtain ⟨p₅, s₅, hreclaim, hstats⟩ := Program.exec_bind.mp hlast
          obtain ⟨_, s₆, hstat, hret⟩ := Program.exec_bind.mp hstats
          obtain rfl := hreclaim.state_eq cs8900aEnv_unnoticed (cs8900a_reclaimPadding pad _)
          obtain rfl := Program.exec_perform.mp hstat
          exact (Program.exec_pure.mp hret).2

/-- Skipping a frame changes the latch, and nothing else that counts. -/
theorem cs8900a_skipFrame {s s' : Chip} {r : Unit}
    (h : Program.Exec (cs8900aEnv alloc) s Cs8900a.cs8900aSkipFrame r s') :
    s'.receiver = s.receiver := by
  have hports : ¬ Cs8900a.DATA_PORT = Cs8900a.ADD_PORT := by decide
  have hlatch : ¬ Cs8900a.PP_RxCFG = Cs8900a.PP_RxEvent := by decide
  obtain ⟨_, s₁, hselect, hmodify⟩ := Program.exec_bind.mp h
  obtain ⟨cfg, s₂, hread, hwrite⟩ := Program.exec_bind.mp hmodify
  obtain rfl : s₁ = { s with latch := Cs8900a.PP_RxCFG } := Program.exec_perform.mp hselect
  have hsame : cs8900aEnv alloc _ (.cs8900aRead Cs8900a.DATA_PORT) cfg s₂ :=
    Program.exec_perform.mp hread
  have hwritten : cs8900aEnv alloc s₂ (.cs8900aWrite Cs8900a.DATA_PORT _) r s' :=
    Program.exec_perform.mp hwrite
  -- PP_RxCFG is selected, so the read at the data port is no poll
  simp only [cs8900aEnv, hlatch, and_false, if_false] at hsame
  simp only [cs8900aEnv, hports, if_false] at hwritten
  rw [hwritten, hsame]

/-- **The CS8900A driver's `lowLevelInput`** takes a frame from the queue, if there is
one. -/
theorem cs8900a_fetched {pad fuel : Nat} {p : Option PbufChain} {s s' : Chip}
    (h : Program.Exec (cs8900aEnv alloc) s (Cs8900a.lowLevelInput pad fuel) (some p) s') :
    Fetched alloc s.receiver p s'.receiver := by
  obtain ⟨_, s₁, hselect, hpoll⟩ := Program.exec_bind.mp h
  obtain ⟨event, s₂, hread, hframe⟩ := Program.exec_bind.mp hpoll
  obtain rfl : s₁ = { s with latch := Cs8900a.PP_RxEvent } := Program.exec_perform.mp hselect
  obtain ⟨frame, htakes, -, hevent⟩ : ∃ frame, Takes s.receiver frame s₂.receiver
      ∧ s₂.latch = Cs8900a.PP_RxEvent ∧ (announcesFrame event ↔ frame ≠ none) :=
    Program.exec_perform.mp hread
  split at hframe
  next hnothing =>
    -- the event register announces no frame
    have hnone : frame = none := by
      by_contra hsome
      exact hevent.mpr hsome hnothing
    obtain ⟨hp, rfl⟩ := Program.exec_pure.mp hframe
    obtain rfl : p = none := Option.some.inj hp
    rw [hnone] at htakes
    exact .of_idle htakes
  next hsomething =>
    -- status and length are read first, high byte first
    have hsome : frame ≠ none := hevent.mp hsomething
    obtain ⟨_, s₃, hstatus, hrest₃⟩ := Program.exec_bind.mp hframe
    obtain ⟨len, s₄, hlen, hrest₄⟩ := Program.exec_bind.mp hrest₃
    obtain ⟨ans, s₅, halloc, hfill⟩ := Program.exec_bind.mp hrest₄
    obtain rfl := hstatus.state_eq cs8900aEnv_unnoticed (cs8900a_highFirst _)
    obtain rfl := hlen.state_eq cs8900aEnv_unnoticed (cs8900a_highFirst _)
    obtain ⟨htried, -⟩ : s₄.receiver.allocates alloc ans s₅.receiver ∧ s₅.latch = s₄.latch :=
      Program.exec_perform.mp halloc
    cases ans with
    | none =>
        -- no pbuf: the frame is skipped in the chip
        obtain ⟨_, s₆, hskip, hcount⟩ := Program.exec_bind.mp hfill
        obtain ⟨_, s₇, hmemerr, hlast⟩ := Program.exec_bind.mp hcount
        obtain ⟨_, s₈, hdrop, hret⟩ := Program.exec_bind.mp hlast
        obtain rfl := Program.exec_perform.mp hmemerr
        obtain rfl := Program.exec_perform.mp hdrop
        obtain ⟨hp, rfl⟩ := Program.exec_pure.mp hret
        obtain rfl : p = none := Option.some.inj hp
        rw [← cs8900a_skipFrame hskip] at htried
        exact .of_starved htakes hsome htried
    | some p₀ =>
        -- the chain is filled at the frame port
        obtain ⟨r, s₆, hinto, hret⟩ := Program.exec_bind.mp hfill
        cases r with
        | none => exact absurd (Program.exec_pure.mp hret).1 (by simp)
        | some q =>
            obtain rfl := cs8900a_receiveInto hinto
            obtain ⟨hp, rfl⟩ := Program.exec_pure.mp hret
            obtain rfl : p = some q := Option.some.inj hp
            exact .of_served q htakes hsome htried

end Round

/-! ## §5. The loops. -/

/-- The queue is empty, and each of its frames is accounted for, in order. -/
structure Drained (s s' : Receiver) : Prop where
  empty : s'.queue = []
  accounted : ∃ ls, s'.log = s.log ++ ls.flatten
    ∧ List.Forall₂ (fun frame l => ∃ ok, Accounted frame ok l) s.queue ls

/-- `pbuf_alloc` succeeds for every pending frame with another one behind it. -/
def MemoryForAllButLast (alloc : Nat → Bool) (s : Receiver) : Prop :=
  ∀ i, i + 1 < s.queue.length → alloc (s.tries + i) = true

/-- A loop that drains leaves nothing behind exactly with that much memory. -/
theorem drained_of_drain {alloc : Nat → Bool} {s s' : Receiver}
    (h : Drain alloc Accounted s s') : Drained s s' ↔ MemoryForAllButLast alloc s := by
  unfold MemoryForAllButLast
  rw [← h.empty_iff]
  constructor
  · exact fun hdrained => hdrained.empty
  · intro hempty
    obtain ⟨frames, ls, hqueue, hlog, hall⟩ := h.accounts
    rw [hempty, List.append_nil] at hqueue
    subst hqueue
    exact ⟨hempty, ls, hlog, hall⟩

/-- `while (tapIfInput(netif));` -/
def TapLoop (alloc : Nat → Bool) (pppoe : Bool) (pad : Nat) : Receiver → Receiver → Prop :=
  Program.WhileExec ((tapEnv alloc).sum (stackEnv Receiver.note)) (tapIfInput pppoe pad)

/-- One more event. -/
def Chip.note (s : Chip) (e : Event) : Chip := { s with receiver := s.receiver.note e }

/-- `while (cs8900aIfInput(netif));` -/
def Cs8900aLoop (alloc : Nat → Bool) (pppoe : Bool) (pad : Nat) : Chip → Chip → Prop :=
  Program.WhileExec ((cs8900aEnv alloc).sum (stackEnv Chip.note)) (cs8900aIfInput pppoe pad)

/-- **The loop of the tap driver** is a drain of its queue. -/
theorem tapLoop_drain {alloc : Nat → Bool} {pppoe : Bool} {pad : Nat} {s s' : Receiver}
    (h : TapLoop alloc pppoe pad s s') : Drain alloc Accounted s s' := by
  refine Drain.of_while id ?_ h
  intro stack s b s' hround
  refine ifInput_poll id (fun _ _ => rfl) ?_ pppoe pad hround
  intro s p s' hlow
  obtain ⟨q, s₁, hfetch, hret⟩ := Program.exec_bind.mp hlow
  obtain ⟨hp, rfl⟩ := Program.exec_pure.mp hret
  obtain rfl : p = q := Option.some.inj hp
  exact tap_fetched hfetch

/-- **The loop of the CS8900A driver** is one, too. -/
theorem cs8900aLoop_drain {alloc : Nat → Bool} {pppoe : Bool} {pad : Nat} {s s' : Chip}
    (h : Cs8900aLoop alloc pppoe pad s s') : Drain alloc Accounted s.receiver s'.receiver := by
  refine Drain.of_while Chip.receiver ?_ h
  intro fuel s b s' hround
  exact ifInput_poll Chip.receiver (fun _ _ => rfl) (fun _ _ _ => cs8900a_fetched) pppoe pad hround

/-- **The loops leave nothing behind exactly when** there is memory for every frame
but the last. -/
theorem drained_iff (alloc : Nat → Bool) (pppoe : Bool) (pad : Nat) :
    (∀ s s', TapLoop alloc pppoe pad s s' → (Drained s s' ↔ MemoryForAllButLast alloc s))
      ∧ ∀ s s', Cs8900aLoop alloc pppoe pad s s' →
        (Drained s.receiver s'.receiver ↔ MemoryForAllButLast alloc s.receiver) :=
  ⟨fun _ _ h => drained_of_drain (tapLoop_drain h),
    fun _ _ h => drained_of_drain (cs8900aLoop_drain h)⟩

/-! ## §6. Two pending frames. -/

/-- The pbuf that `pbuf_alloc` gives out, if it does. -/
def sampleAlloc (ok : Bool) (len : UInt16) : Option PbufChain :=
  if ok then some ⟨⟨fun _ => 0, 16, len⟩, [], len⟩ else none

/-- It is a possible answer. -/
theorem sampleAlloc_allocates (alloc : Nat → Bool) (s : Receiver) (len : UInt16) :
    s.allocates alloc (sampleAlloc (alloc s.tries) len)
      ⟨s.queue, s.tries + 1, s.log ++ [.alloc (alloc s.tries)]⟩ := by
  refine ⟨?_, rfl⟩
  unfold sampleAlloc
  cases alloc s.tries <;> rfl

/-- The next frame, and what is left. -/
def take (s : Receiver) : Option (List UInt8) × Receiver :=
  match s with
  | ⟨[], n, log⟩ => (none, ⟨[], n, log⟩)
  | ⟨frame :: queue, n, log⟩ => (some frame, ⟨queue, n, log ++ [.taken frame]⟩)

/-- It is the first frame that is taken. -/
theorem takes_take (s : Receiver) : Takes s (take s).1 (take s).2 := by
  obtain ⟨queue, n, log⟩ := s
  cases queue with
  | nil => exact .none
  | cons frame queue => exact .some

/-- The answers of a tap device. -/
def tapAnswer (alloc : Nat → Bool) (s : Receiver) : (op : Tapif.Op) → op.Ans × Receiver
  | .read => (tapRead (take s).1, (take s).2)
  | .write _ n => ((n.toNat : Int), s)
  | .memcpyFrom _ _ => ((), s)
  | .memcpyTo _ _ => ((), s)
  | .pbuf_alloc len => (sampleAlloc (alloc s.tries) len,
      ⟨s.queue, s.tries + 1, s.log ++ [.alloc (alloc s.tries)]⟩)
  | .pbuf_header p increment => (samplePbufHeader p increment, s)
  | .LINK_STATS_INC stat => ((), s.note (.counted stat))

/-- An event word. -/
def announcement : Option (List UInt8) → UInt16
  | none => 0
  | some _ => 0x0100

/-- It announces a frame where there is one. -/
theorem announcement_iff (frame : Option (List UInt8)) :
    announcesFrame (announcement frame) ↔ frame ≠ none := by
  cases frame with
  | none => simp [announcement, announcesFrame]
  | some frame =>
      have hbits : (0x0100 : UInt16) &&& 0xd00 ≠ 0 := by decide
      exact iff_of_true hbits (by simp)

/-- Every byte pair of the chip is the type of an ARP frame. -/
def cs8900aAnswer (alloc : Nat → Bool) (s : Chip) : (op : Cs8900a.Op) → op.Ans × Chip
  | .cs8900aWrite addr data =>
      ((), if addr = Cs8900a.ADD_PORT then { s with latch := data } else s)
  | .cs8900aRead addr =>
      if addr = Cs8900a.DATA_PORT ∧ s.latch = Cs8900a.PP_RxEvent then
        (announcement (take s.receiver).1, { s with receiver := (take s.receiver).2 })
      else ((0 : UInt16), s)
  | .cs8900aReadAddrHighFirst _ => ((60 : UInt16), s)
  | .busOut _ => ((), s)
  | .busIn _ => ((), s)
  | .cs8900aWriteTxBuf _ _ => ((), s)
  | .cs8900aReadRxBuf _ _ => (((8, 6) : UInt8 × UInt8), s)
  | .pbuf_alloc len => (sampleAlloc (alloc s.receiver.tries) len,
      { s with receiver := ⟨s.receiver.queue, s.receiver.tries + 1,
          s.receiver.log ++ [.alloc (alloc s.receiver.tries)]⟩ })
  | .pbuf_header p increment => (samplePbufHeader p increment, s)
  | .LINK_STATS_INC stat => ((), s.note (.counted stat))

/-- A stack that takes everything. -/
def stackAnswer {σ : Type} (note : σ → Event → σ) (s : σ) : (op : StackOp) → op.Ans × σ
  | .input p => (ERR_OK, note s (.input p true))
  | .pbuf_free p => ((), note s (.freed p))

/-- They are possible answers. -/
theorem tapAnswer_env (alloc : Nat → Bool) (s : Receiver) (op : Tapif.Op ⊕ StackOp) :
    (tapEnv alloc).sum (stackEnv Receiver.note) s op
      (Program.answerSum (tapAnswer alloc) (stackAnswer Receiver.note) s op).1
      (Program.answerSum (tapAnswer alloc) (stackAnswer Receiver.note) s op).2 := by
  rcases op with op | op
  · cases op with
    | read => exact ⟨_, takes_take s, rfl⟩
    | pbuf_alloc len => exact sampleAlloc_allocates alloc s len
    | _ => rfl
  · cases op <;> rfl

/-- They are possible answers. -/
theorem cs8900aAnswer_env (alloc : Nat → Bool) (s : Chip) (op : Cs8900a.Op ⊕ StackOp) :
    (cs8900aEnv alloc).sum (stackEnv Chip.note) s op
      (Program.answerSum (cs8900aAnswer alloc) (stackAnswer Chip.note) s op).1
      (Program.answerSum (cs8900aAnswer alloc) (stackAnswer Chip.note) s op).2 := by
  rcases op with op | op
  · cases op with
    | cs8900aRead addr =>
        by_cases hevent : addr = Cs8900a.DATA_PORT ∧ s.latch = Cs8900a.PP_RxEvent
        · simp only [Program.answerSum, cs8900aAnswer, Program.Env.sum, cs8900aEnv, if_pos hevent]
          exact ⟨_, takes_take s.receiver, trivial, announcement_iff _⟩
        · simp only [Program.answerSum, cs8900aAnswer, Program.Env.sum, cs8900aEnv, if_neg hevent]
    | pbuf_alloc len => exact ⟨sampleAlloc_allocates alloc s.receiver len, rfl⟩
    | _ => rfl
  · cases op <;> rfl

/-- Two ARP frames. -/
def twoFrames : Receiver :=
  ⟨List.replicate 2 (List.replicate 12 255 ++ [8, 6] ++ List.replicate 46 0), 0, []⟩

/-- The loop of the tap driver over them. -/
theorem tapLoop_twoFrames (alloc : Nat → Bool) (h : alloc = (fun _ => true) ∨ alloc = (· != 0)) :
    ∃ s', TapLoop alloc false 0 twoFrames s' := by
  have hrun : (Program.whileWith (Program.answerSum (tapAnswer alloc) (stackAnswer Receiver.note))
      (tapIfInput false 0 fun _ => 0) 3 twoFrames).isSome := by
    rcases h with rfl | rfl <;> rfl
  obtain ⟨s', hs'⟩ := Option.isSome_iff_exists.mp hrun
  exact ⟨s', Program.whileExec_of_whileWith (tapAnswer_env alloc) _ 3 twoFrames hs'⟩

/-- The loop of the CS8900A driver over them. -/
theorem cs8900aLoop_twoFrames (alloc : Nat → Bool)
    (h : alloc = (fun _ => true) ∨ alloc = (· != 0)) :
    ∃ s', Cs8900aLoop alloc false 0 ⟨0, twoFrames⟩ s' := by
  have hrun : (Program.whileWith (Program.answerSum (cs8900aAnswer alloc) (stackAnswer Chip.note))
      (cs8900aIfInput false 0 31) 3 ⟨0, twoFrames⟩).isSome := by
    rcases h with rfl | rfl <;> rfl
  obtain ⟨s', hs'⟩ := Option.isSome_iff_exists.mp hrun
  exact ⟨s', Program.whileExec_of_whileWith (cs8900aAnswer_env alloc) _ 3 _ hs'⟩

/-- With memory for both, both loops leave nothing behind. -/
theorem drained_iff_twoFrames :
    (∃ s', TapLoop (fun _ => true) false 0 twoFrames s' ∧ Drained twoFrames s')
      ∧ ∃ s', Cs8900aLoop (fun _ => true) false 0 ⟨0, twoFrames⟩ s'
        ∧ Drained twoFrames s'.receiver := by
  have hmemory : MemoryForAllButLast (fun _ => true) twoFrames := fun _ _ => rfl
  obtain ⟨s₁, h₁⟩ := tapLoop_twoFrames _ (.inl rfl)
  obtain ⟨s₂, h₂⟩ := cs8900aLoop_twoFrames _ (.inl rfl)
  obtain ⟨htap, hcs8900a⟩ := drained_iff (fun _ => true) false 0
  exact ⟨⟨s₁, h₁, (htap _ _ h₁).mpr hmemory⟩, s₂, h₂, (hcs8900a _ _ h₂).mpr hmemory⟩

/-- Without memory for the first, both loops leave the second where it is. -/
theorem short_of_memory :
    (∃ s', TapLoop (· != 0) false 0 twoFrames s' ∧ ¬ Drained twoFrames s')
      ∧ ∃ s', Cs8900aLoop (· != 0) false 0 ⟨0, twoFrames⟩ s'
        ∧ ¬ Drained twoFrames s'.receiver := by
  have hmemory : ¬ MemoryForAllButLast (· != 0) twoFrames := fun hall =>
    absurd (hall 0 (by decide)) (by decide)
  obtain ⟨s₁, h₁⟩ := tapLoop_twoFrames _ (.inr rfl)
  obtain ⟨s₂, h₂⟩ := cs8900aLoop_twoFrames _ (.inr rfl)
  have htap := drained_of_drain (tapLoop_drain h₁)
  have hcs8900a := drained_of_drain (cs8900aLoop_drain h₂)
  exact ⟨⟨s₁, h₁, fun h => hmemory (htap.mp h)⟩, s₂, h₂, fun h => hmemory (hcs8900a.mp h)⟩

end PicoosLwip.Netif
