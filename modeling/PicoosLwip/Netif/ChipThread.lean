/-
  PicoosLwip.Netif.ChipThread — the CS8900A interface, while frames come in at any time.

  The thread sleeps for ten milliseconds and then runs `while (cs8900aIfInput(netif));`.
  Frames come in between any two of its operations; nothing is sent meanwhile.

  What a read of `DATA_PORT` does depends on the address latch.  With `PP_RxEvent` there
  it takes a frame, and does not commute with one that comes in; with `PP_RxCFG` it
  does.  The thread knows what it has written to the latch.

  Main results:
    * `chip_rounds_atomic`     — a round might as well be done at one go;
    * `chip_frames_accounted`  — every frame is delivered, dropped or still in the chip,
                                 in order and byte for byte;
    * `chip_frames_polled`     — whatever came in before the thread last woke up has been
                                 taken when it sleeps again.
-/
import PicoosLwip.Framework.Service
import PicoosLwip.Netif.ChipDelivery

namespace PicoosLwip.Netif.Cs8900a

open PicoosLwip.Framework

/-! ## §1. The thread and the frames. -/

/-- The chip, what it offers, and all frames that have come in so far. -/
abbrev RxState : Type := (Chip × RxPort) × List (List UInt8)

/-- The same with another queue of frames. -/
def withQueue (s : Chip × RxPort) (queue : List (List UInt8)) : Chip × RxPort :=
  ({ s.1 with receiver := { s.1.receiver with queue := queue } }, s.2)

/-- A frame comes in, whatever the thread is doing. -/
inductive Arrives : RxState → List UInt8 → RxState → Prop
  | mk {s : Chip × RxPort} {arrived : List (List UInt8)} {frame : List UInt8} (h : OnWire frame) :
      Arrives (s, arrived) frame (withQueue s (s.1.receiver.queue ++ [frame]), arrived ++ [frame])

/-- `cs8900aThread`; `posTaskSleep` may return at any time. -/
def cs8900aThread (alloc : Nat → Bool) (hdr : PbufChain → Int → PbufChain) (pppoe : Bool)
    (pad : Nat) : Service RxState (Op ⊕ StackOp) (Sum.elim Op.Ans StackOp.Ans) (List UInt8) Unit
    where
  env := ((rxEnv alloc hdr pad).sum (stackEnv noteRx)).onFst _
  body _ := cs8900aIfInput pppoe pad copyRounds
  wakes s s' := s' = s
  event := Arrives

/-- Nothing has come in; the latch may have anything. -/
def poweredOn (latch : UInt16) : RxState := ((⟨latch, ⟨[], 0, []⟩⟩, []), [])

/-! ## §2. Rounds. -/

section

variable {alloc : Nat → Bool} {hdr : PbufChain → Int → PbufChain} {pppoe : Bool} {pad : Nat}

/-- What `op` leaves in the latch. -/
def latchAfter (latch : UInt16) : Op ⊕ StackOp → UInt16
  | .inl (.cs8900aWrite addr data) => if addr = ADD_PORT then data else latch
  | _ => latch

/-- The latch is what the last write to it says. -/
theorem latch_after {s s' : Chip × RxPort} {op : Op ⊕ StackOp}
    {ans : Sum.elim Op.Ans StackOp.Ans op}
    (h : (rxEnv alloc hdr pad).sum (stackEnv noteRx) s op ans s') :
    s'.1.latch = latchAfter s.1.latch op := by
  rcases op with op | op
  · obtain ⟨hchip, -, -⟩ := h
    cases op with
    | cs8900aWrite addr data =>
        have hwritten : s'.1 = if addr = ADD_PORT then { s.1 with latch := data } else s.1 := hchip
        show s'.1.latch = if addr = ADD_PORT then data else s.1.latch
        rw [hwritten]
        split <;> rfl
    | cs8900aRead addr =>
        -- a poll changes the receiver, but not the latch
        by_cases hpoll : addr = DATA_PORT ∧ s.1.latch = PP_RxEvent
        · simp only [cs8900aEnv, if_pos hpoll] at hchip
          obtain ⟨frame, -, hlatch, -⟩ := hchip
          exact hlatch
        · simp only [cs8900aEnv, if_neg hpoll] at hchip
          rw [hchip]
          rfl
    | pbuf_alloc len => exact hchip.2
    | LINK_STATS_INC stat =>
        rw [show s'.1 = { s.1 with receiver := s.1.receiver.note (.counted stat) } from hchip]
        rfl
    | cs8900aReadAddrHighFirst addr | busOut port | busIn port | cs8900aWriteTxBuf b0 b1
    | cs8900aReadRxBuf k u | pbuf_header p increment =>
        rw [show s'.1 = s.1 from hchip]
        rfl
  · cases op with
    | input p =>
        rw [show s' = noteRx s (.input p (accepts ans)) from h]
        rfl
    | pbuf_free p =>
        rw [show s' = noteRx s (.freed p) from h]
        rfl

/-- What the thread knows of the state is the address latch. -/
def latched (alloc : Nat → Bool) (hdr : PbufChain → Int → PbufChain) (pppoe : Bool) (pad : Nat) :
    (cs8900aThread alloc hdr pppoe pad).Located UInt16 where
  At latch s := s.1.1.latch = latch
  next := latchAfter
  somewhere s := ⟨_, rfl⟩
  op := by
    rintro _ s op ans s' rfl ⟨henv, -⟩
    exact latch_after henv
  event := by
    rintro _ _ _ _ rfl ⟨hframe⟩
    rfl

/-- Nothing but a poll looks at the queue. -/
def Apart (latch : UInt16) : Op ⊕ StackOp → Prop
  | .inl (.cs8900aRead addr) => ¬ (addr = DATA_PORT ∧ latch = PP_RxEvent)
  | _ => True

/-- **Apart from polls**, an operation does the same with any queue. -/
theorem queue_apart {s s' : Chip × RxPort} {op : Op ⊕ StackOp}
    {ans : Sum.elim Op.Ans StackOp.Ans op} (hop : Apart s.1.latch op)
    (h : (rxEnv alloc hdr pad).sum (stackEnv noteRx) s op ans s') (queue : List (List UInt8)) :
    s'.1.receiver.queue = s.1.receiver.queue ∧ (rxEnv alloc hdr pad).sum (stackEnv noteRx)
      (withQueue s queue) op ans (withQueue s' queue) := by
  obtain ⟨c, port⟩ := s
  obtain ⟨c', port'⟩ := s'
  rcases op with op | op
  · obtain ⟨hchip, hport, hby⟩ := h
    cases op with
    | cs8900aWrite addr data =>
        -- a write selects a register at most
        obtain rfl : c' = if addr = ADD_PORT then { c with latch := data } else c := hchip
        refine ⟨?_, ?_, hport, hby⟩
        · split <;> rfl
        · show _ = if _ then _ else _
          split <;> rfl
    | cs8900aRead addr =>
        -- a read of another register than the event register
        have hpoll : ¬ (addr = DATA_PORT ∧ c.latch = PP_RxEvent) := hop
        simp only [cs8900aEnv, if_neg hpoll] at hchip
        simp only [AtPort, if_neg hpoll] at hport
        subst hchip
        refine ⟨rfl, ?_, ?_, hby⟩
        · show if addr = DATA_PORT ∧ c'.latch = PP_RxEvent then _ else _
          exact Eq.mpr (if_neg hpoll) rfl
        · show if addr = DATA_PORT ∧ c'.latch = PP_RxEvent then _ else _
          exact Eq.mpr (if_neg hpoll) hport
    | pbuf_alloc len =>
        obtain ⟨⟨htried, hreceiver⟩, hlatch⟩ := hchip
        obtain ⟨latch, receiver⟩ := c'
        obtain rfl : receiver = _ := hreceiver
        obtain rfl : latch = c.latch := hlatch
        exact ⟨rfl, ⟨⟨htried, rfl⟩, rfl⟩, hport, hby⟩
    | LINK_STATS_INC stat =>
        obtain rfl : c' = { c with receiver := c.receiver.note (.counted stat) } := hchip
        exact ⟨rfl, rfl, hport, hby⟩
    | cs8900aReadAddrHighFirst addr | busOut port | busIn port | cs8900aWriteTxBuf b0 b1
    | cs8900aReadRxBuf k u | pbuf_header p increment =>
        obtain rfl : c' = c := hchip
        exact ⟨rfl, rfl, hport, hby⟩
  · -- the stack is told, and the queue is left alone
    cases op with
    | input p =>
        obtain ⟨rfl, rfl⟩ := Prod.mk.inj (show (c', port') = noteRx (c, port) _ from h)
        exact ⟨rfl, rfl⟩
    | pbuf_free p =>
        obtain ⟨rfl, rfl⟩ := Prod.mk.inj (show (c', port') = noteRx (c, port) _ from h)
        exact ⟨rfl, rfl⟩

/-- Such an operation and a frame that comes in change places, either way. -/
theorem rightMover_of_apart {latch : UInt16} {op : Op ⊕ StackOp} (hop : Apart latch op) :
    (latched alloc hdr pppoe pad).RightMover latch op := by
  rintro ⟨s, arrived⟩ ans ⟨t, arrived'⟩ frame s' rfl ⟨henv, harrived⟩ hevent
  obtain rfl : arrived' = arrived := harrived
  obtain ⟨hqueue, henv'⟩ := queue_apart hop henv (s.1.receiver.queue ++ [frame])
  cases hevent with
  | mk hframe =>
      refine ⟨_, .mk hframe, ?_, rfl⟩
      rw [hqueue]
      exact henv'

/-- So it may be done before a frame comes in as well as after. -/
theorem leftMover_of_apart {latch : UInt16} {op : Op ⊕ StackOp} (hop : Apart latch op) :
    (latched alloc hdr pppoe pad).LeftMover latch op := by
  rintro ⟨s, arrived⟩ frame t ans ⟨s', arrived'⟩ rfl hevent ⟨henv, harrived⟩
  cases hevent with
  | mk hframe =>
      obtain rfl : arrived' = arrived ++ [frame] := harrived
      -- the operation again, now with the queue as it was before the frame came in
      have happart : Apart (withQueue s (s.1.receiver.queue ++ [frame])).1.latch op := hop
      obtain ⟨hqueue, henv'⟩ := queue_apart happart henv s.1.receiver.queue
      refine ⟨(withQueue s' s.1.receiver.queue, arrived), ⟨henv', rfl⟩, ?_⟩
      have hback : Arrives (withQueue s' s.1.receiver.queue, arrived) frame
          (withQueue s' (s.1.receiver.queue ++ [frame]), arrived ++ [frame]) := .mk hframe
      rw [show s.1.receiver.queue ++ [frame] = s'.1.receiver.queue from hqueue.symm] at hback
      exact hback

/-- The latch, and whether an operation leaves the queue alone. -/
def latchModes : Modes (Op ⊕ StackOp) UInt16 where
  allowed := Apart
  next := latchAfter

/-- And so may all that follow the poll. -/
theorem leaving_of_keeps {α : Type} {latch : UInt16} {p : IfProgram Op Op.Ans α}
    {Q : UInt16 → Prop} (h : Program.Keeps latchModes latch p Q) :
    (latched alloc hdr pppoe pad).Leaving latch p := by
  have hany : Program.Keeps latchModes latch p fun _ => True := .weaken (fun _ _ => trivial) h
  exact hany.mono fun _ _ => leftMover_of_apart

/-- The rest of `lowLevelInput` behind `pbuf_alloc`. -/
theorem skipped_keeps (latch : UInt16) :
    Program.Keeps latchModes latch (Program.inl do
      cs8900aSkipFrame
      LINK_STATS_INC .memerr
      LINK_STATS_INC .drop
      pure (some none) : IfProgram Op Op.Ans (Option (Option PbufChain))) fun _ => True := by
  -- the register is read with `PP_RxCFG` in the latch
  have hlatch : ¬ PP_RxCFG = PP_RxEvent := by decide
  exact ⟨trivial, fun _ => ⟨fun h => hlatch h.2, fun _ => ⟨trivial, fun _ =>
    ⟨trivial, fun _ => ⟨trivial, fun _ => trivial⟩⟩⟩⟩⟩

/-- The chain is filled without a poll. -/
theorem filled_keeps (fuel : Nat) (p : PbufChain) (latch : UInt16) :
    Program.Keeps latchModes latch (Program.inl do
      match ← receiveInto pad fuel p with
      | none => pure none
      | some p => pure (some (some p)) : IfProgram Op Op.Ans (Option (Option PbufChain)))
      fun _ => True := by
  refine Program.Keeps.inl (Program.Keeps.bind
    (Program.Keeps.of_allOps ?_ (receiveInto_copies pad fuel p)) ?_)
  · intro op hop
    cases op with
    | busIn port | cs8900aReadRxBuf k u | pbuf_header p increment | LINK_STATS_INC stat =>
        exact ⟨trivial, rfl⟩
    | _ => exact hop.elim
  · rintro (_ | p) _ -
    · trivial
    · trivial

/-- So is passing it on. -/
theorem passOn_keeps (p : PbufChain) (latch : UInt16) :
    Program.Keeps latchModes latch (passOn pppoe pad p : IfProgram Op Op.Ans (Option Bool))
      fun _ => True := by
  unfold passOn
  split
  · refine ⟨trivial, fun (err : Int) => ?_⟩
    show Program.Keeps _ _ (if err ≠ ERR_OK then _ else _) _
    split
    · exact ⟨trivial, fun _ => trivial⟩
    · trivial
  · exact ⟨trivial, fun _ => trivial⟩

/-- **A round might as well be done at one go**, as far as frames that come in are concerned:
the latch is written, the chip polled, and the rest does not touch the queue. -/
theorem chip_rounds_atomic : (latched alloc hdr pppoe pad).RoundsAtomic := by
  intro _ latch
  -- the read of `PP_RxEvent` is the operation of whatever kind
  refine .enter (rightMover_of_apart trivial) fun _ => .commit fun (event : UInt16) => ?_
  generalize latchAfter _ _ = latch
  refine leaving_of_keeps (Q := fun _ => True) ?_
  refine Program.Keeps.bind (R := fun _ => True) ?_ ?_
  · show Program.Keeps _ _ (Program.inl (if event &&& 0xd00 = 0 then _ else _)) _
    split
    next => trivial
    next =>
      refine ⟨trivial, fun _ => ⟨trivial, fun len => ⟨trivial, fun (p : Option PbufChain) => ?_⟩⟩⟩
      cases p with
      | none => exact skipped_keeps _
      | some p => exact filled_keeps _ p _
  · rintro (_ | _ | p) latch' -
    · trivial
    · trivial
    · exact passOn_keeps p latch'

/-- One round is one poll, and nothing comes in from it. -/
theorem chip_round_poll (hhdr : PbufHeader hdr) (hpad : pad + 1514 + 1 < 65536)
    {s s' : RxState} {i : Unit} {again : Bool}
    (h : Program.Exec (cs8900aThread alloc hdr pppoe pad).env s
      ((cs8900aThread alloc hdr pppoe pad).body i) (some again) s') :
    Poll alloc (fun frame ok l => OnWire frame → Delivered pppoe pad id frame ok l)
      s.1.1.receiver again s'.1.1.receiver ∧ s'.2 = s.2 := by
  obtain ⟨hround, harrived⟩ := Program.exec_onFst.mp h
  exact ⟨cs8900aIfInput_poll hhdr hpad (Nat.le_refl _) hround, harrived⟩

/-! ## §3. Every frame, in order. -/

/-- The frames that came in are those that were taken and, behind them, those in the chip; the
log says of each frame that was taken what became of it, in the same order. -/
def RxInOrder (pppoe : Bool) (pad : Nat) (s : RxState) : Prop :=
  s.1.1.receiver.InOrder OnWire (Delivered pppoe pad id) s.2

/-- Nothing is lost or put out of order by a step. -/
theorem RxInOrder.step (hhdr : PbufHeader hdr) (hpad : pad + 1514 + 1 < 65536)
    {c c' : RxState × Bool} {l : Service.Label (List UInt8)} (h : RxInOrder pppoe pad c.1)
    (hstep : (cs8900aThread alloc hdr pppoe pad).RoundStep c l c') : RxInOrder pppoe pad c'.1 := by
  cases hstep with
  | wake hwake =>
      obtain rfl := hwake
      exact h
  | @round s s' i again hround =>
      obtain ⟨hpoll, harrived⟩ := chip_round_poll hhdr hpad hround
      show s'.1.1.receiver.InOrder OnWire (Delivered pppoe pad id) s'.2
      rw [harrived]
      exact Station.InOrder.poll h hpoll
  | event he =>
      cases he with
      | mk hframe => exact Station.InOrder.arrive h hframe

/-- **Every frame that came in is delivered or dropped, once, in order and byte for byte, or
still in the chip**, whenever the thread sleeps. -/
theorem chip_frames_accounted (hhdr : PbufHeader hdr) (hpad : pad + 1514 + 1 < 65536)
    {latch : UInt16} {ls : List (Service.Label (List UInt8))} {s : RxState}
    (hrun : Run (cs8900aThread alloc hdr pppoe pad).Step (poweredOn latch, .waiting) ls
      (s, .waiting)) :
    RxInOrder pppoe pad s := by
  obtain ⟨ks, hrounds, -⟩ := Service.reduce chip_rounds_atomic hrun
  apply hrounds.invariant fun c => RxInOrder pppoe pad c.1
  · exact .empty 0
  · exact fun c l c' hc => hc.step hhdr hpad

/-! ## §4. Whatever was there at the wake-up. -/

/-- Behind the frames `before` others came in, and when the thread sleeps only such are in the
chip, if there was always a pbuf. -/
def PolledSince (alloc : Nat → Bool) (before : List (List UInt8)) (c : RxState × Bool) : Prop :=
  ∃ later, c.1.2 = before ++ later ∧ (c.2 = true → (∀ n < c.1.1.1.receiver.tries, alloc n) →
    c.1.1.1.receiver.queue <:+ later)

/-- Each step keeps what has been polled. -/
theorem PolledSince.step (hhdr : PbufHeader hdr) (hpad : pad + 1514 + 1 < 65536)
    {before : List (List UInt8)} {c c' : RxState × Bool} {l : Service.Label (List UInt8)}
    (h : PolledSince alloc before c)
    (hstep : (cs8900aThread alloc hdr pppoe pad).RoundStep c l c') :
    PolledSince alloc before c' := by
  obtain ⟨later, hlater, hqueue⟩ := h
  cases hstep with
  | wake hwake =>
      obtain rfl := hwake
      exact ⟨later, hlater, nofun⟩
  | @round s s' i again hround =>
      obtain ⟨hpoll, harrived⟩ := chip_round_poll hhdr hpad hround
      refine ⟨later, harrived.trans hlater, ?_⟩
      intro hsleeps hmemory
      generalize s.1.1.receiver = r at hpoll
      generalize s'.1.1.receiver = r' at hpoll hmemory ⊢
      cases hpoll with
      | idle => exact List.nil_suffix
      | @taken frame queue n log l _ htry hout =>
          -- the thread stops at a frame only where there was no pbuf
          have hgot : alloc n := hmemory n (Nat.lt_succ_self n)
          rw [htry] at hgot
          rw [hgot] at hsleeps
          exact absurd hsleeps (by simp)
  | @event s s' waits frame he =>
      cases he with
      | @mk chip arrived _ hframe =>
          refine ⟨later ++ [frame], ?_, ?_⟩
          · show arrived ++ [frame] = before ++ (later ++ [frame])
            rw [← List.append_assoc]
            exact congrArg (· ++ [frame]) hlater
          · intro hsleeps hmemory
            obtain ⟨front, hfront⟩ := hqueue hsleeps hmemory
            refine ⟨front, ?_⟩
            show front ++ (chip.1.receiver.queue ++ [frame]) = later ++ [frame]
            rw [← List.append_assoc]
            exact congrArg (· ++ [frame]) hfront

/-- **Whatever had come in when the thread woke up has been taken** when it sleeps again, if
there was always a pbuf. -/
theorem chip_frames_polled (hhdr : PbufHeader hdr) (hpad : pad + 1514 + 1 < 65536)
    {ls : List (Service.Label (List UInt8))} {s₁ s : RxState}
    (hrun : Run (cs8900aThread alloc hdr pppoe pad).Step (s₁, .waiting) (.wake :: ls)
      (s, .waiting)) (hmemory : ∀ n < s.1.1.receiver.tries, alloc n) :
    ∃ later, s.2 = s₁.2 ++ later ∧ s.1.1.receiver.queue <:+ later := by
  obtain ⟨ks, hrounds, hseen⟩ := Service.reduce chip_rounds_atomic hrun
  obtain ⟨s₂, ks', hwake, hrest⟩ := Service.wake_first hrounds hseen
  obtain rfl : s₂ = s₁ := hwake
  have hstart : PolledSince alloc s₂.2 (s₂, false) := ⟨[], (List.append_nil _).symm, nofun⟩
  obtain ⟨later, hlater, hqueue⟩ := hrest.invariant (PolledSince alloc s₂.2) hstart
    fun _ _ _ hc => hc.step hhdr hpad
  exact ⟨later, hlater, hqueue rfl hmemory⟩

end

/-! ## §5. Two frames, one of odd length. -/

/-- An ARP frame and one byte more. -/
def oddFrame : List UInt8 := List.replicate 12 255 ++ [8, 6] ++ List.replicate 47 0

/-- An IP frame. -/
def evenFrame : List UInt8 := List.replicate 12 255 ++ [8, 0] ++ List.replicate 46 1

theorem oddFrame_onWire : OnWire oddFrame := by
  constructor <;> decide

theorem evenFrame_onWire : OnWire evenFrame := by
  constructor <;> decide

/-- The first word at the port, and what is left. -/
def popped : RxPort → (UInt8 × UInt8) × RxPort
  | [] => ((0, 0), [])
  | b :: rest => (b, rest)

/-- The chip of `cs8900aAnswer`, with its frames at the port. -/
def rxAnswer (s : Chip × RxPort) : (op : Op) → op.Ans × (Chip × RxPort)
  | .cs8900aRead addr =>
      ((cs8900aAnswer (fun _ => true) s.1 (.cs8900aRead addr)).1,
        (cs8900aAnswer (fun _ => true) s.1 (.cs8900aRead addr)).2,
        if addr = DATA_PORT ∧ s.1.latch = PP_RxEvent then
          s.1.receiver.queue.head?.elim s.2 (offered 0 0)
        else s.2)
  | .cs8900aWrite addr data =>
      ((), (cs8900aAnswer (fun _ => true) s.1 (.cs8900aWrite addr data)).2,
        if addr = DATA_PORT ∧ s.1.latch = PP_RxCFG ∧ data &&& SKIP_1 ≠ 0 then [] else s.2)
  | .cs8900aReadAddrHighFirst addr =>
      (toWord (popped s.2).1, s.1, if addr = RX_FRAME_PORT then (popped s.2).2 else s.2)
  | .cs8900aReadRxBuf _ _ => ((popped s.2).1, s.1, (popped s.2).2)
  | op => ((cs8900aAnswer (fun _ => true) s.1 op).1,
      (cs8900aAnswer (fun _ => true) s.1 op).2, s.2)

/-- They are possible answers of the chip. -/
theorem rxAnswer_env (s : Chip × RxPort) (op : Op) :
    rxEnv (fun _ => true) samplePbufHeader 0 s op (rxAnswer s op).1 (rxAnswer s op).2 := by
  have hchip := cs8900aAnswer_env (fun _ => true) s.1 (.inl op)
  obtain ⟨c, port⟩ := s
  cases op with
  | cs8900aRead addr =>
      refine ⟨hchip, ?_, trivial⟩
      by_cases hpoll : addr = DATA_PORT ∧ c.latch = PP_RxEvent
      · simp only [AtPort, rxAnswer, if_pos hpoll]
        -- the event says whether a frame is there
        cases c.receiver.queue with
        | nil => rfl
        | cons frame queue => exact ⟨0, 0, rfl⟩
      · simp only [AtPort, rxAnswer, if_neg hpoll]
  | cs8900aWrite addr data => exact ⟨hchip, rfl, trivial⟩
  | cs8900aReadAddrHighFirst addr =>
      refine ⟨rfl, ?_, trivial⟩
      by_cases haddr : addr = RX_FRAME_PORT
      · simp only [AtPort, rxAnswer, if_pos haddr]
        cases port with
        | nil => rfl
        | cons b rest => exact ⟨rfl, rfl⟩
      · simp only [AtPort, rxAnswer, if_neg haddr]
  | cs8900aReadRxBuf k u =>
      refine ⟨rfl, ?_, trivial⟩
      cases port with
      | nil => rfl
      | cons b rest => exact ⟨rfl, rfl⟩
  | pbuf_alloc len =>
      refine ⟨hchip, rfl, ?_⟩
      rintro p ⟨⟩
      exact ⟨⟨rfl, rfl, Nat.min_le_right _ _⟩, fun n hn => absurd hn List.not_mem_nil⟩
  | pbuf_header p increment => exact ⟨hchip, rfl, rfl⟩
  | busOut port | busIn port | cs8900aWriteTxBuf b0 b1 | LINK_STATS_INC stat =>
      exact ⟨hchip, rfl, trivial⟩

/-- The round that these answers give. -/
def sampleRound (s : RxState) : Option Bool × RxState :=
  let r := (cs8900aIfInput false 0 copyRounds).execWith
    (Program.answerSum rxAnswer (stackAnswer noteRx)) s.1
  (r.1, r.2, s.2)

/-- The thread, with enough memory and no padding. -/
abbrev sampleThread : Service RxState (Op ⊕ StackOp) (Sum.elim Op.Ans StackOp.Ans) (List UInt8)
    Unit := cs8900aThread (fun _ => true) samplePbufHeader false 0

/-- The round is one that the thread may make. -/
theorem sampleRound_exec (s : RxState) (again : Bool) (h : (sampleRound s).1 = some again) :
    Program.Exec sampleThread.env s (sampleThread.body ()) (some again) (sampleRound s).2 := by
  have hanswers : ∀ (s : Chip × RxPort) (op : Op ⊕ StackOp),
      (rxEnv (fun _ => true) samplePbufHeader 0).sum (stackEnv noteRx) s op
        (Program.answerSum rxAnswer (stackAnswer noteRx) s op).1
        (Program.answerSum rxAnswer (stackAnswer noteRx) s op).2 := by
    rintro s (op | op)
    · exact rxAnswer_env s op
    · cases op <;> rfl
  have hexec := Program.exec_execWith hanswers (cs8900aIfInput false 0 copyRounds) s.1
  have hagain : ((cs8900aIfInput false 0 copyRounds).execWith
      (Program.answerSum rxAnswer (stackAnswer noteRx)) s.1).1 = some again := h
  rw [hagain] at hexec
  exact Program.exec_onFst.mpr ⟨hexec, rfl⟩

/-- One more frame comes in. -/
def arrive (s : RxState) (frame : List UInt8) : RxState :=
  (withQueue s.1 (s.1.1.receiver.queue ++ [frame]), s.2 ++ [frame])

/-- The first frame has come in. -/
def oddArrived : RxState := arrive (poweredOn 0) oddFrame

/-- And has been taken, when the second one comes in. -/
def evenArrived : RxState := arrive (sampleRound oddArrived).2 evenFrame

/-- The thread wakes up and delivers both. -/
theorem run_past_frames : ∃ ls s, Run sampleThread.Step (oddArrived, .waiting) (.wake :: ls)
    (s, .waiting) ∧ s.2 = [oddFrame, evenFrame] ∧ s.1.1.receiver.queue = [] := by
  obtain ⟨ls₁, hodd, -⟩ := Service.run_ops (sampleRound_exec oddArrived true rfl)
  obtain ⟨ls₂, heven, -⟩ := Service.run_ops (sampleRound_exec evenArrived true rfl)
  obtain ⟨ls₃, hdone, -⟩ :=
    Service.run_ops (sampleRound_exec (sampleRound evenArrived).2 false rfl)
  have harrival : Run sampleThread.Step ((sampleRound oddArrived).2, .running (.ret (some true)))
      [.event evenFrame, .round true] (evenArrived, .running (sampleThread.body ())) :=
    Run.cons (.event (.mk evenFrame_onWire)) (Run.single (.again ()))
  have hrounds := hodd.append (harrival.append (heven.append (Run.cons (.again ()) hdone)))
  exact ⟨_, _, Run.cons (.wake () rfl) (hrounds.snoc .done), rfl, rfl⟩

/-- Both are accounted for. -/
theorem chip_frames_accounted_odd : ∃ ls s, PbufHeader samplePbufHeader ∧ 0 + 1514 + 1 < 65536
    ∧ Run sampleThread.Step (poweredOn 0, .waiting) ls (s, .waiting)
    ∧ s.2 = [oddFrame, evenFrame] ∧ s.1.1.receiver.queue = [] ∧ RxInOrder false 0 s := by
  obtain ⟨ls, s, hrun, harrived, hqueue⟩ := run_past_frames
  have hall : Run sampleThread.Step (poweredOn 0, .waiting) (.event oddFrame :: .wake :: ls)
      (s, .waiting) := Run.cons (.event (.mk oddFrame_onWire)) hrun
  exact ⟨_, s, samplePbufHeader_spec, by decide, hall, harrived, hqueue,
    chip_frames_accounted samplePbufHeader_spec (by decide) hall⟩

/-- The first had come in, and has been taken. -/
theorem chip_frames_polled_odd : ∃ ls s, PbufHeader samplePbufHeader ∧ 0 + 1514 + 1 < 65536
    ∧ Run sampleThread.Step (oddArrived, .waiting) (.wake :: ls) (s, .waiting)
    ∧ ∃ later, s.2 = [oddFrame] ++ later ∧ s.1.1.receiver.queue <:+ later := by
  obtain ⟨ls, s, hrun, -⟩ := run_past_frames
  exact ⟨ls, s, samplePbufHeader_spec, by decide, hrun,
    chip_frames_polled samplePbufHeader_spec (by decide) hrun fun _ _ => rfl⟩

end PicoosLwip.Netif.Cs8900a
