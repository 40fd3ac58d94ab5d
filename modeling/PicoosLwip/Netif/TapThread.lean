/-
  PicoosLwip.Netif.TapThread — the tap interface, while frames come in at any time.

  The device has a queue of frames and raises `SIGIO` for each; several of them are one
  pending signal.  Its handler signals `pollSema`.  The thread waits for that semaphore,
  for a second at most, and then runs `while (tapIfInput(netif));`.  `tapIfInit` may
  still be under way when the thread first runs.  All of this happens between any two
  operations of the thread.

  Main results:
    * `tap_rounds_atomic` — a round might as well be done at one go;
    * `frames_accounted`  — every frame is delivered, dropped or still queued, in order;
    * `frames_noticed`    — no frame waits unnoticed, except if the thread last woke up
                            before `pollSema` was set.
-/
import PicoosLwip.Framework.Service
import PicoosLwip.Netif.TapDelivery
import PicoosLwip.Netif.TapSetup
import Mathlib.Logic.Function.Iterate

namespace PicoosLwip.Netif.Tapif

open PicoosLwip.Framework

/-! ## §1. What happens around the thread. -/

/-- The state beside the device's queue. -/
structure Signals where
  /-- All frames that have come in so far. -/
  arrived : List (List UInt8)
  stage : Stage
  /-- `SIGIO` is pending. -/
  sigio : Bool
  /-- The count of `tapIf->sema`. -/
  sema : Nat
  /-- What is left of `tapIfInit`. -/
  init : Setup (Option (InitErr × Interface))

/-- What may happen between two operations of the thread. -/
inductive TapEvent where
  /-- A frame comes in. -/
  | arrives (frame : List UInt8)
  /-- `SIGIO` is handled. -/
  | ioReady
  /-- `tapIfInit` goes on. -/
  | setup

/-- `nosSemaSignal(pollSema)`; nothing comes of it while that is `NULL`. -/
def Signals.ioReadyContext (t : Signals) : Signals :=
  { t with sigio := false, sema := if t.stage.pollSema then t.sema + 1 else t.sema }

/-- `tapIfInit` makes the call `op`, which may have any answer, and goes on as `init`. -/
def Signals.afterCall (t : Signals) (op : SetupOp) (init : Setup (Option (InitErr × Interface))) :
    Signals :=
  { t with stage := setupModes.next t.stage op, sema := op.count t.sema, init := init }

/-- What each of these does. -/
inductive Happens : Receiver × Signals → TapEvent → Receiver × Signals → Prop
  | arrives {r : Receiver} {t : Signals} {frame : List UInt8} (h : HasHeader frame) :
      Happens (r, t) (.arrives frame) ({ r with queue := r.queue ++ [frame] },
        { t with arrived := t.arrived ++ [frame], sigio := t.sigio || t.stage.async })
  | ioReady {r : Receiver} {t : Signals} (h : t.sigio) :
      Happens (r, t) .ioReady (r, t.ioReadyContext)
  | setup {r : Receiver} {t : Signals} {op : SetupOp}
      {k : op.Ans → Setup (Option (InitErr × Interface))} (ans : op.Ans) (h : t.init = .call op k) :
      Happens (r, t) .setup (r, t.afterCall op (k ans))

/-- `nosSemaWait(tapIf->sema, MS(1000))` returns, once there is a thread to call it. -/
inductive NosSemaWait : Receiver × Signals → Receiver × Signals → Prop
  | granted {r : Receiver} {t : Signals} (hthread : t.stage.thread) (h : 0 < t.sema) :
      NosSemaWait (r, t) (r, { t with sema := t.sema - 1 })
  | timeout {r : Receiver} {t : Signals} (hthread : t.stage.thread) (h : t.sema = 0) :
      NosSemaWait (r, t) (r, t)

/-- `tapThread`; a round finds anything on its stack. -/
def tapThread (alloc : Nat → Bool) (hdr : PbufChain → Int → PbufChain) (pppoe : Bool)
    (pad : Nat) : Service (Receiver × Signals) (Op ⊕ StackOp) (Sum.elim Op.Ans StackOp.Ans)
      TapEvent (Nat → UInt8) where
  env := ((tapBuffersEnv alloc hdr pad).sum (stackEnv Receiver.note)).onFst Signals
  body := tapIfInput pppoe pad
  wakes := NosSemaWait
  event := Happens

/-- Before `tapIfInit`: nothing has come in. -/
def boot (ipv6 : Bool) (netif : Interface) : Receiver × Signals :=
  (⟨[], 0, []⟩, ⟨[], .start, false, 0, tapIfInit ipv6 netif⟩)

/-! ## §2. Rounds. -/

section

variable {alloc : Nat → Bool} {hdr : PbufChain → Int → PbufChain} {pppoe ipv6 : Bool} {pad : Nat}
  {netif : Interface}

/-- Everything but `read` leaves the queue alone, whatever is in it. -/
theorem queue_apart {op : Op ⊕ StackOp} (hop : op ≠ .inl .read)
    {ans : Sum.elim Op.Ans StackOp.Ans op} {r r' : Receiver}
    (h : (tapBuffersEnv alloc hdr pad).sum (stackEnv Receiver.note) r op ans r')
    (queue : List (List UInt8)) :
    r'.queue = r.queue ∧ (tapBuffersEnv alloc hdr pad).sum (stackEnv Receiver.note)
      { r with queue := queue } op ans { r' with queue := queue } := by
  rcases op with op | op
  · obtain ⟨henv, hby⟩ := h
    cases op with
    | read => exact absurd rfl hop
    | pbuf_alloc len =>
        -- the number of the call counts, not the queue
        obtain ⟨htried, rfl⟩ := henv
        exact ⟨rfl, ⟨htried, rfl⟩, hby⟩
    | LINK_STATS_INC stat =>
        obtain rfl : r' = r.note (.counted stat) := henv
        exact ⟨rfl, rfl, hby⟩
    | write ethBuf n | memcpyFrom ofs n | memcpyTo ofs n | pbuf_header p increment =>
        obtain rfl : r' = r := henv
        exact ⟨rfl, rfl, hby⟩
  · cases op with
    | input p =>
        obtain rfl : r' = r.note (.input p (accepts ans)) := h
        exact ⟨rfl, rfl⟩
    | pbuf_free p =>
        obtain rfl : r' = r.note (.freed p) := h
        exact ⟨rfl, rfl⟩

/-- An operation that is no `read` may be done before an event or after it. -/
theorem mover_of_not_read {op : Op ⊕ StackOp} (hop : op ≠ .inl .read) :
    (tapThread alloc hdr pppoe pad).Mover op := by
  rintro ⟨r, t⟩ e ⟨r₁, t₁⟩ ans ⟨r₂, t₂⟩ hevent ⟨henv, ht⟩
  obtain rfl : t₂ = t₁ := ht
  cases hevent with
  | ioReady h => exact ⟨(r₂, t), ⟨henv, rfl⟩, .ioReady h⟩
  | setup ans h => exact ⟨(r₂, t), ⟨henv, rfl⟩, .setup ans h⟩
  | @arrives _ _ frame h =>
      obtain ⟨hqueue, henv'⟩ := queue_apart hop henv r.queue
      obtain ⟨queue, n, log⟩ := r₂
      obtain rfl : queue = r.queue ++ [frame] := hqueue
      exact ⟨(⟨r.queue, n, log⟩, t), ⟨henv', rfl⟩, .arrives h⟩

/-- Passing on reads nothing. -/
theorem passOn_later (p : PbufChain) :
    (passOn pppoe pad p : IfProgram Op Op.Ans (Option Bool)).AllOps (· ≠ .inl .read) := by
  unfold passOn
  split
  next =>
    refine .bind (.perform nofun) fun err => ?_
    split
    · exact .bind (.perform nofun) fun _ => .pure _
    · exact .pure _
  next => exact .bind (.perform nofun) fun _ => .pure _

/-- A round begins with `read`, and there is no other. -/
theorem tapIfInput_afterFirst (stack : Nat → UInt8) :
    (tapIfInput pppoe pad stack).AfterFirst (· ≠ .inl .read) := by
  have hfilling : ∀ op : Op, op.Filling → (Sum.inl op : Op ⊕ StackOp) ≠ .inl .read := by
    rintro op hop heq
    rw [Sum.inl.inj heq] at hop
    exact hop
  refine .bind (.inl (.bind (.bind (.perform _) fun res => ?_) fun p => .pure _)) fun p => ?_
  · split
    next => exact .pure _
    next =>
      refine .bind (.perform nofun) fun alloc => ?_
      cases alloc with
      | none => exact .bind (.perform nofun) fun _ => .bind (.perform nofun) fun _ => .pure _
      | some p => exact .bind ((tap_receiveInto_filling _ p).mono hfilling) fun q => .pure _
  · rcases p with _ | _ | p
    · exact .pure _
    · exact .pure _
    · exact passOn_later p

/-- **A round might as well be done at one go**, as far as what happens around the thread
is concerned. -/
theorem tap_rounds_atomic : (tapThread alloc hdr pppoe pad).anywhere.RoundsAtomic := by
  apply Service.roundsAtomic_anywhere
  intro stack
  have hround : (tapIfInput pppoe pad stack).AfterFirst (· ≠ .inl .read) :=
    tapIfInput_afterFirst stack
  show (tapIfInput pppoe pad stack).AfterFirst _
  generalize tapIfInput pppoe pad stack = m at hround
  cases m with
  | ret b => exact hround
  | call op k => exact fun ans => (hround ans).mono fun _ => mover_of_not_read

/-- One round is one poll, and leaves what is around the thread alone. -/
theorem round_poll (hhdr : PbufHeader hdr) (hpad : pad + ethBufSize < 65536)
    {s s' : Receiver × Signals} {stack : Nat → UInt8} {again : Bool}
    (h : Program.Exec (tapThread alloc hdr pppoe pad).env s
      ((tapThread alloc hdr pppoe pad).body stack) (some again) s') :
    Poll alloc (Delivers pppoe pad) s.1 again s'.1 ∧ s'.2 = s.2 := by
  obtain ⟨hround, hrest⟩ := Program.exec_onFst.mp h
  exact ⟨tapIfInput_poll hhdr hpad hround, hrest⟩

/-! ## §3. Every frame, in order. -/

/-- The frames that came in are those that were taken and, behind them, those in the queue;
the log says of each frame that was taken what became of it, in the same order. -/
def InOrder (pppoe : Bool) (pad : Nat) (s : Receiver × Signals) : Prop :=
  s.1.InOrder HasHeader (Delivered pppoe pad kept) s.2.arrived

/-- A frame that comes in goes to the end. -/
theorem InOrder.happens {s s' : Receiver × Signals} {e : TapEvent} (h : InOrder pppoe pad s)
    (he : Happens s e s') : InOrder pppoe pad s' := by
  cases he with
  | ioReady _ | setup _ _ => exact h
  | arrives hframe => exact Station.InOrder.arrive h hframe

/-- So it is after every run of rounds. -/
theorem InOrder.of_rounds (hhdr : PbufHeader hdr) (hpad : pad + ethBufSize < 65536)
    {ks : List (Service.Label TapEvent)} {c : (Receiver × Signals) × Bool}
    (hrounds : Run (tapThread alloc hdr pppoe pad).RoundStep (boot ipv6 netif, true) ks c) :
    InOrder pppoe pad c.1 := by
  apply hrounds.invariant fun c => InOrder pppoe pad c.1
  · exact .empty 0
  · intro c l c' hc hstep
    cases hstep with
    | wake hwake =>
        cases hwake with
        | granted hthread h => exact hc
        | timeout hthread h => exact hc
    | @round s s' stack again hround =>
        obtain ⟨hpoll, hrest⟩ := round_poll hhdr hpad hround
        obtain ⟨r, t⟩ := s
        obtain ⟨r', t'⟩ := s'
        obtain rfl : t' = t := hrest
        exact Station.InOrder.poll hc hpoll
    | event he => exact hc.happens he

/-- **Every frame that came in is delivered or dropped, once and in order, or still in the
queue**, whenever the thread waits. -/
theorem frames_accounted (hhdr : PbufHeader hdr) (hpad : pad + ethBufSize < 65536)
    {ls : List (Service.Label TapEvent)} {s : Receiver × Signals}
    (hrun : Run (tapThread alloc hdr pppoe pad).Step (boot ipv6 netif, .waiting) ls (s, .waiting)) :
    InOrder pppoe pad s := by
  obtain ⟨ks, hrounds, -⟩ := Service.reduce tap_rounds_atomic hrun
  exact InOrder.of_rounds hhdr hpad hrounds

/-! ## §4. No frame waits unnoticed. -/

/-- How far `tapIfInit` is. -/
structure Sound (t : Signals) : Prop where
  keeps : Program.Keeps setupModes t.stage t.init fun _ => True
  stage : t.stage.Sound

/-- Nothing has been done yet. -/
theorem Sound.boot : Sound (boot ipv6 netif).2 := ⟨keeps_tapIfInit ipv6 netif, .start⟩

/-- The next call is in order. -/
theorem Sound.next {t : Signals} {op : SetupOp}
    {k : op.Ans → Setup (Option (InitErr × Interface))} (h : Sound t)
    (hinit : t.init = .call op k) :
    setupModes.allowed t.stage op
      ∧ ∀ ans, Program.Keeps setupModes (setupModes.next t.stage op) (k ans) fun _ => True := by
  have hkeeps := h.keeps
  rw [hinit] at hkeeps
  exact hkeeps

/-- Events keep the interface sound. -/
theorem Sound.happens {s s' : Receiver × Signals} {e : TapEvent} (h : Sound s.2)
    (he : Happens s e s') : Sound s'.2 := by
  cases he with
  | arrives _ | ioReady _ => exact ⟨h.keeps, h.stage⟩
  | setup ans hinit =>
      obtain ⟨hallowed, hnext⟩ := h.next hinit
      exact ⟨hnext ans, h.stage.next hallowed⟩

/-- A thread that has not woken up yet finds a token. -/
def FirstToken (t : Signals) : Prop := t.stage.sema → 0 < t.sema

/-- The first token is there until the thread takes it. -/
theorem FirstToken.happens {s s' : Receiver × Signals} {e : TapEvent} (hsound : Sound s.2)
    (h : FirstToken s.2) (he : Happens s e s') : FirstToken s'.2 := by
  cases he with
  | arrives _ => exact h
  | @ioReady r t _ =>
      intro hsema
      have htoken := h hsema
      show 0 < if t.stage.pollSema then t.sema + 1 else t.sema
      split <;> omega
  | setup ans hinit => exact SetupOp.count_pos h (hsound.next hinit).1

/-- Before the first wake-up. -/
theorem before_first_wake {ls : List (Service.Label TapEvent)}
    {c : (Receiver × Signals) × Service.Phase (Op ⊕ StackOp) (Sum.elim Op.Ans StackOp.Ans)}
    (hrun : Run (tapThread alloc hdr pppoe pad).Step (boot ipv6 netif, .waiting) ls c)
    (hnever : .wake ∉ ls) : c.2 = .waiting ∧ Sound c.1.2 ∧ FirstToken c.1.2 := by
  induction hrun with
  | nil => exact ⟨rfl, .boot, nofun⟩
  | snoc _ hstep ih =>
      obtain ⟨hphase, hsound, htoken⟩ := ih fun h => hnever (List.mem_append_left _ h)
      cases hstep with
      | wake i h => exact absurd (List.mem_append_right _ (List.mem_singleton_self _)) hnever
      | op h => exact absurd hphase nofun
      | again i => exact absurd hphase nofun
      | done => exact absurd hphase nofun
      | event he => exact ⟨hphase, hsound.happens he, htoken.happens hsound he⟩

/-- With `pollSema` set, whatever is in the queue when the thread waits has a token or a
pending signal, if there was always a pbuf. -/
structure Noticed (alloc : Nat → Bool) (s : Receiver × Signals) (waits : Bool) : Prop where
  sound : Sound s.2
  pollSema : s.2.stage.pollSema
  noticed : waits → (∀ n < s.1.tries, alloc n) → s.1.queue = [] ∨ 0 < s.2.sema ∨ s.2.sigio

/-- A frame that comes in is noticed, and what was noticed is. -/
theorem Noticed.step (hhdr : PbufHeader hdr) (hpad : pad + ethBufSize < 65536)
    {c c' : (Receiver × Signals) × Bool} {l : Service.Label TapEvent} (h : Noticed alloc c.1 c.2)
    (hstep : (tapThread alloc hdr pppoe pad).RoundStep c l c') : Noticed alloc c'.1 c'.2 := by
  cases hstep with
  | wake hwake =>
      cases hwake with
      | granted hthread htoken => exact ⟨⟨h.sound.keeps, h.sound.stage⟩, h.pollSema, nofun⟩
      | timeout hthread htoken => exact ⟨h.sound, h.pollSema, nofun⟩
  | @round s s' stack again hround =>
      obtain ⟨hpoll, hrest⟩ := round_poll hhdr hpad hround
      obtain ⟨r, t⟩ := s
      obtain ⟨r', t'⟩ := s'
      obtain rfl : t' = t := hrest
      refine ⟨h.sound, h.pollSema, ?_⟩
      intro hwaits hmemory
      cases hpoll with
      | idle => exact .inl rfl
      | @taken frame queue n log l _ htry hdelivers =>
          -- the thread stops at a frame only where there was no pbuf
          have hgot : alloc n := hmemory n (Nat.lt_succ_self n)
          rw [htry] at hgot
          rw [hgot] at hwaits
          exact absurd hwaits (by simp)
  | @event s s' waits e he =>
      have hsound := h.sound.happens he
      have hpollSema := h.pollSema
      have hthread := h.sound.stage.thread hpollSema
      cases he with
      | arrives hframe =>
          -- the device raises the signal
          refine ⟨hsound, hpollSema, fun _ _ => .inr (.inr ?_)⟩
          rw [Bool.or_eq_true]
          exact .inr (h.sound.stage.async hthread)
      | @ioReady r t hsigio =>
          -- the signal becomes a token
          refine ⟨hsound, hpollSema, fun _ _ => .inr (.inl ?_)⟩
          show 0 < if t.stage.pollSema then t.sema + 1 else t.sema
          rw [if_pos hpollSema]
          exact Nat.succ_pos _
      | @setup r t op k ans hinit =>
          refine ⟨hsound, Stage.pollSema_next hpollSema op, fun hwaits hmemory => ?_⟩
          have hcount := SetupOp.count_of_sema (h.sound.stage.sema hthread)
            (h.sound.next hinit).1 t.sema
          show r.queue = [] ∨ 0 < op.count t.sema ∨ t.sigio
          rw [hcount]
          exact h.noticed hwaits hmemory

/-- Rounds and wake-ups do not touch `tapIfInit`. -/
theorem sound_of_run (hhdr : PbufHeader hdr) (hpad : pad + ethBufSize < 65536)
    {ls : List (Service.Label TapEvent)} {s : Receiver × Signals}
    (hrun : Run (tapThread alloc hdr pppoe pad).Step (boot ipv6 netif, .waiting) ls (s, .waiting)) :
    Sound s.2 := by
  obtain ⟨ks, hrounds, -⟩ := Service.reduce tap_rounds_atomic hrun
  apply hrounds.invariant fun c => Sound c.1.2
  · exact .boot
  · intro c l c' hc hstep
    cases hstep with
    | wake hwake =>
        cases hwake with
        | granted hthread h => exact ⟨hc.keeps, hc.stage⟩
        | timeout hthread h => exact hc
    | @round s s' stack again hround =>
        rw [(round_poll hhdr hpad hround).2]
        exact hc
    | event he => exact hc.happens he

/-- Once the thread has woken up with `pollSema` set, it waits with everything noticed. -/
theorem noticed_of_wake (hhdr : PbufHeader hdr) (hpad : pad + ethBufSize < 65536)
    {ls : List (Service.Label TapEvent)} {s₁ s : Receiver × Signals} (hsound : Sound s₁.2)
    (hset : s₁.2.stage.pollSema)
    (hrun : Run (tapThread alloc hdr pppoe pad).Step (s₁, .waiting) (.wake :: ls) (s, .waiting)) :
    Noticed alloc s true := by
  obtain ⟨ks, hrounds, hseen⟩ := Service.reduce tap_rounds_atomic hrun
  obtain ⟨s₂, ks', hwake, hrest⟩ := Service.wake_first hrounds hseen
  have hstart : Noticed alloc s₂ false := by
    cases hwake with
    | granted hthread h => exact ⟨⟨hsound.keeps, hsound.stage⟩, hset, nofun⟩
    | timeout hthread h => exact ⟨hsound, hset, nofun⟩
  exact hrest.invariant (fun c => Noticed alloc c.1 c.2) hstart fun _ _ _ hc => hc.step hhdr hpad

/-- The last of several occurrences. -/
theorem last_mem {α : Type} {a : α} {l : List α} (h : a ∈ l) :
    ∃ pre post, l = pre ++ a :: post ∧ a ∉ post := by
  obtain ⟨post, pre, hl, hpost⟩ := List.eq_append_cons_of_mem (List.mem_reverse.mpr h)
  refine ⟨pre.reverse, post.reverse, ?_, fun hmem => hpost (List.mem_reverse.mp hmem)⟩
  have hrev := congrArg List.reverse hl
  rw [List.reverse_reverse] at hrev
  simpa using hrev

/-- **No frame waits unnoticed.**  Where the thread waits, and there was always a pbuf, a frame
in the queue has a token or a pending signal, or the thread last woke up, on the way to this
state, before `pollSema` was set. -/
theorem frames_noticed (hhdr : PbufHeader hdr) (hpad : pad + ethBufSize < 65536)
    {ls : List (Service.Label TapEvent)} {s : Receiver × Signals}
    (hrun : Run (tapThread alloc hdr pppoe pad).Step (boot ipv6 netif, .waiting) ls (s, .waiting))
    (hthread : s.2.stage.thread) (hmemory : ∀ n < s.1.tries, alloc n) (hleft : s.1.queue ≠ []) :
    0 < s.2.sema ∨ s.2.sigio ∨ ∃ pre post s₁, ls = pre ++ .wake :: post ∧ .wake ∉ post
      ∧ Run (tapThread alloc hdr pppoe pad).Step (boot ipv6 netif, .waiting) pre (s₁, .waiting)
      ∧ Run (tapThread alloc hdr pppoe pad).Step (s₁, .waiting) (.wake :: post) (s, .waiting)
      ∧ ¬ s₁.2.stage.pollSema := by
  by_cases hwoken : .wake ∈ ls
  · obtain ⟨pre, post, rfl, hlast⟩ := last_mem hwoken
    obtain ⟨c₁, hpre, hpost⟩ := hrun.of_append
    obtain ⟨c₂, hwake, -⟩ := hpost.of_cons
    cases hwake with
    | @wake s₁ s₂ stack h =>
        by_cases hset : s₁.2.stage.pollSema
        · -- every signal since then has counted
          have hnoticed := noticed_of_wake hhdr hpad (sound_of_run hhdr hpad hpre) hset hpost
          rcases hnoticed.noticed rfl hmemory with hempty | htoken | hsigio
          · exact absurd hempty hleft
          · exact .inl htoken
          · exact .inr (.inl hsigio)
        · -- pollSema was not set yet
          exact .inr (.inr ⟨pre, post, s₁, rfl, hlast, hpre, hpost, hset⟩)
  · -- the token that the semaphore was created with
    obtain ⟨-, hsound, htoken⟩ := before_first_wake hrun hwoken
    exact .inl (htoken (hsound.stage.sema hthread))

end

/-! ## §5. Two frames. -/

/-- The kernel and the operating system do what they are asked for. -/
def setupAnswer : (op : SetupOp) → op.Ans
  | .mem_malloc => true
  | .open_tap0 => (3 : Int)
  | .fcntl_F_GETFL => (2 : UInt32)
  | .system _ => ()
  | .sigaction => ()
  | .fcntl_F_SETOWN => ()
  | .fcntl_F_SETFL _ => ()
  | .nosSemaCreate _ => ()
  | .nosTaskCreate => ()
  | .setPollSema => ()

/-- The next call of `tapIfInit`. -/
def Signals.goOn (t : Signals) : Signals :=
  match t.init with
  | .ret _ => t
  | .call op k => t.afterCall op (k (setupAnswer op))

/-- An interface with an address and a mask. -/
def sampleInterface : Interface := ⟨[], 0, [], [], ⟨192, 168, 1, 1⟩, ⟨255, 255, 255, 0⟩⟩

/-- All of `tapIfInit`. -/
def setUp : Signals := Nat.iterate Signals.goOn 10 (boot false sampleInterface).2

/-- A short ARP frame. -/
def arpFrame : List UInt8 := List.replicate 12 255 ++ [8, 6] ++ List.replicate 46 0

/-- A short IP frame. -/
def ipFrame : List UInt8 := List.replicate 12 255 ++ [8, 0] ++ List.replicate 46 1

/-- The thread, with enough memory and two bytes of padding. -/
abbrev sampleThread : Service (Receiver × Signals) (Op ⊕ StackOp) (Sum.elim Op.Ans StackOp.Ans)
    TapEvent (Nat → UInt8) := tapThread (fun _ => true) samplePbufHeader false 2

/-- `n` calls of `tapIfInit`, one after the other. -/
theorem run_goOn (n : Nat) (r : Receiver) (t : Signals) :
    ∃ ks, Run sampleThread.RoundStep ((r, t), true) ks
      ((r, Nat.iterate Signals.goOn n t), true) := by
  induction n generalizing t with
  | zero => exact ⟨[], .nil⟩
  | succ n ih =>
      obtain ⟨ks, hrun⟩ := ih t.goOn
      cases hinit : t.init with
      -- tapIfInit has returned: there is nothing to call any more
      | ret a =>
          have hdone : t.goOn = t := by
            unfold Signals.goOn
            rw [hinit]
          rw [hdone] at hrun
          refine ⟨ks, ?_⟩
          rw [Function.iterate_succ_apply, hdone]
          exact hrun
      | call op k =>
          have hnext : t.goOn = t.afterCall op (k (setupAnswer op)) := by
            unfold Signals.goOn
            rw [hinit]
          rw [hnext] at hrun
          refine ⟨_ :: ks, Run.cons (.event (.setup (setupAnswer op) hinit)) ?_⟩
          rw [Function.iterate_succ_apply, hnext]
          exact hrun

/-- A device, an lwIP and a stack that do their part. -/
def sampleAnswer :
    (s : Receiver) → (op : Op ⊕ StackOp) → Sum.elim Op.Ans StackOp.Ans op × Receiver :=
  Program.answerSum (tapAnswer fun _ => true) (stackAnswer Receiver.note)

/-- They are possible answers. -/
theorem sampleAnswer_env (s : Receiver) (op : Op ⊕ StackOp) :
    (tapBuffersEnv (fun _ => true) samplePbufHeader 2).sum (stackEnv Receiver.note) s op
      (sampleAnswer s op).1 (sampleAnswer s op).2 := by
  have henv := tapAnswer_env (fun _ => true) s op
  rcases op with op | op
  · refine ⟨henv, ?_⟩
    cases op with
    | pbuf_alloc len =>
        rintro p ⟨⟩
        exact ⟨rfl, rfl, Nat.min_le_right _ _⟩
    | pbuf_header p increment => rfl
    | _ => trivial
  · exact henv

/-- The round that the sample answers give. -/
theorem sample_round {r : Receiver} {t : Signals} (again : Bool)
    (h : ((tapIfInput false 2 fun _ => 0).execWith sampleAnswer r).1 = some again) :
    sampleThread.RoundStep ((r, t), false) (.round again)
      ((((tapIfInput false 2 fun _ => 0).execWith sampleAnswer r).2, t), !again) := by
  have hexec := Program.exec_execWith sampleAnswer_env (tapIfInput false 2 fun _ => 0) r
  rw [h] at hexec
  exact .round (i := fun _ => 0) (Program.exec_onFst.mpr ⟨hexec, rfl⟩)

/-- It is long enough for a header. -/
theorem arpFrame_hasHeader : HasHeader arpFrame := by
  show ethHdrSize ≤ arpFrame.length
  decide

/-- It is long enough for a header. -/
theorem ipFrame_hasHeader : HasHeader ipFrame := by
  show ethHdrSize ≤ ipFrame.length
  decide

/-- The interface is up; the thread has found nothing, and a frame has come in. -/
theorem run_to_frame : ∃ ks, Run sampleThread.RoundStep ((boot false sampleInterface), true) ks
    ((⟨[arpFrame], 0, []⟩, { setUp with arrived := [arpFrame], sigio := true, sema := 0 }),
      true) := by
  obtain ⟨ks, hsetup⟩ := run_goOn 10 ⟨[], 0, []⟩ (boot false sampleInterface).2
  have hwake := hsetup.snoc (.wake (.granted rfl (by decide)))
  have hround := hwake.snoc (sample_round false rfl)
  exact ⟨_, hround.snoc (.event (.arrives arpFrame_hasHeader))⟩

/-- The signal is pending. -/
theorem frames_noticed_arp : ∃ ls s, PbufHeader samplePbufHeader ∧ 2 + ethBufSize < 65536
    ∧ Run sampleThread.Step (boot false sampleInterface, .waiting) ls (s, .waiting)
    ∧ s.2.stage.thread ∧ s.1.queue = [arpFrame] ∧ s.2.sema = 0
    ∧ (0 < s.2.sema ∨ s.2.sigio ∨ ∃ pre post s₁, ls = pre ++ .wake :: post ∧ .wake ∉ post
      ∧ Run sampleThread.Step (boot false sampleInterface, .waiting) pre (s₁, .waiting)
      ∧ Run sampleThread.Step (s₁, .waiting) (.wake :: post) (s, .waiting)
      ∧ ¬ s₁.2.stage.pollSema) := by
  obtain ⟨ks, hrounds⟩ := run_to_frame
  obtain ⟨ls, hrun, -⟩ := Service.expand hrounds
  exact ⟨ls, _, samplePbufHeader_spec, by decide, hrun, rfl, rfl, rfl,
    frames_noticed samplePbufHeader_spec (by decide) hrun rfl (fun _ _ => rfl) (by simp)⟩

/-- The signal is handled, the thread delivers the frame, and another that came in meanwhile. -/
theorem run_past_frames : ∃ ls s,
    Run sampleThread.Step (boot false sampleInterface, .waiting) ls (s, .waiting)
      ∧ s.1.queue = [] ∧ s.2.arrived = [arpFrame, ipFrame] ∧ Event.counted .drop ∉ s.1.log := by
  obtain ⟨ks, hrounds⟩ := run_to_frame
  have hhandled := hrounds.snoc (.event (.ioReady rfl))
  have hwake := hhandled.snoc (.wake (.granted rfl (by decide)))
  have harp := hwake.snoc (sample_round true rfl)
  have harrival := harp.snoc (.event (.arrives ipFrame_hasHeader))
  have hip := harrival.snoc (sample_round true rfl)
  have hdone := hip.snoc (sample_round false rfl)
  obtain ⟨ls, hrun, -⟩ := Service.expand hdone
  refine ⟨ls, _, hrun, rfl, rfl, ?_⟩
  show Event.counted .drop ∉ [.taken arpFrame, .alloc true, .counted .recv, .input _ true,
    .taken ipFrame, .alloc true, .counted .recv, .input _ true]
  simp

/-- Both are accounted for. -/
theorem frames_accounted_arp : ∃ ls s, PbufHeader samplePbufHeader ∧ 2 + ethBufSize < 65536
    ∧ Run sampleThread.Step (boot false sampleInterface, .waiting) ls (s, .waiting)
    ∧ s.1.queue = [] ∧ s.2.arrived = [arpFrame, ipFrame] ∧ InOrder false 2 s := by
  obtain ⟨ls, s, hrun, hqueue, harrived, -⟩ := run_past_frames
  exact ⟨ls, s, samplePbufHeader_spec, by decide, hrun, hqueue, harrived,
    frames_accounted samplePbufHeader_spec (by decide) hrun⟩

end PicoosLwip.Netif.Tapif
