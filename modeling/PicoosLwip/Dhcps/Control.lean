/-
  PicoosLwip.Dhcps.Control — starting and stopping the server from other threads.

  `dhcpServerStart` and `dhcpServerStop` do nothing themselves: they have lwIP's tcpip
  thread call `dhcpServerStartRaw` and `dhcpServerStopRaw`, some time later and between
  the datagrams, unless `tcpip_callback` refuses.  So a start may find the block of an
  earlier one although its caller was told to go on.  It does not where no two starts
  are accepted one after the other.

  Main results:
    * `control_reachable`  — the server sees a run of its own, with what was accepted in
                             the order of the calls;
    * `control_life_cycle` — its control block is in order at any time, and gone after
                             the last stop.
-/
import Mathlib.Data.List.Chain
import PicoosLwip.Dhcps.LifeCycle
import PicoosLwip.Framework.Deferred
import PicoosLwip.Framework.Environment

namespace PicoosLwip.Dhcps

open PicoosLwip.Framework

/-! ## §1. The two functions. -/

/-- What the tcpip thread may have to call. -/
inductive Callback where
  | dhcpServerStartRaw (netif : Netif)
  | dhcpServerStopRaw
  deriving DecidableEq

/-- What the two functions ask of lwIP. -/
inductive ControlOp where
  | tcpip_callback (callback : Callback)

/-- An `err_t`. -/
def ControlOp.Ans : ControlOp → Type
  | .tcpip_callback _ => Int

/-- The `err_t` of a call that was accepted. -/
def ERR_OK : Int := 0

/-- Asks the tcpip thread for a callback. -/
def tcpip_callback (callback : Callback) : Program ControlOp ControlOp.Ans Int :=
  Program.perform (ControlOp.tcpip_callback callback)

/-- Asks for a start on `netif`. -/
def dhcpServerStart (netif : Netif) : Program ControlOp ControlOp.Ans Int :=
  tcpip_callback (.dhcpServerStartRaw netif)

/-- Asks for a stop. -/
def dhcpServerStop : Program ControlOp ControlOp.Ans Int := tcpip_callback .dhcpServerStopRaw

/-! ## §2. Threads that call them. -/

/-- A call of an application. -/
inductive Request where
  | dhcpServerStart (netif : Netif)
  | dhcpServerStop
  deriving DecidableEq

/-- What a call runs. -/
def Request.body : Request → Program ControlOp ControlOp.Ans Int
  | .dhcpServerStart netif => Dhcps.dhcpServerStart netif
  | .dhcpServerStop => Dhcps.dhcpServerStop

/-- The callbacks that the tcpip thread has not called yet. -/
def callbackEnv : Program.Env (List Callback) ControlOp ControlOp.Ans
  | q, .tcpip_callback callback, (err : Int), q' =>
      q' = if err = ERR_OK then q ++ [callback] else q

/-- An application calls and gets an `err_t`, or the tcpip thread does something. -/
abbrev ControlLabel : Type := Deferred.Label (Op × List Event) (Request × Int)

/-- The callback that a step of the server is. -/
def Op.callback : Op → Option Callback
  | .start netif _ => some (.dhcpServerStartRaw netif)
  | .stop => some .dhcpServerStopRaw
  | .recv _ => none

/-- The callbacks to come, and the server. -/
inductive ControlStep (cfg : Config) :
    List Callback × Server → ControlLabel → List Callback × Server → Prop
  | call {q q' : List Callback} {s : Server} {r : Request} {err : Int}
      (h : Program.Exec callbackEnv q r.body err q') :
      ControlStep cfg (q, s) (.call (r, err)) (q', s)
  | callback {q : List Callback} {s s' : Server} {l : Op × List Event} {callback : Callback}
      (hl : l.1.callback = some callback) (h : ServerStep cfg s l s') :
      ControlStep cfg (callback :: q, s) (.act l) (q, s')
  | datagram {q : List Callback} {s s' : Server} {l : Op × List Event}
      (hl : l.1.callback = none) (h : ServerStep cfg s l s') :
      ControlStep cfg (q, s) (.act l) (q, s')

/-- What a call asks for. -/
def Request.callback : Request → Callback
  | .dhcpServerStart netif => .dhcpServerStartRaw netif
  | .dhcpServerStop => .dhcpServerStopRaw

/-- A call that returns anything but `ERR_OK` has asked for nothing. -/
def accepted (c : Request × Int) : Option Callback :=
  if c.2 = ERR_OK then some c.1.callback else none

/-- The server behind its callbacks. -/
def control (cfg : Config) : Deferred Server (Op × List Event) Callback (Request × Int) where
  step := ServerStep cfg
  request l := l.1.callback
  accepted := accepted

/-- A call appends the callback it asks for, if it is accepted. -/
theorem exec_body {q q' : List Callback} {r : Request} {err : Int}
    (h : Program.Exec callbackEnv q r.body err q') : q' = q ++ (accepted (r, err)).toList := by
  have hbody : r.body = tcpip_callback r.callback := by
    cases r <;> rfl
  rw [hbody] at h
  have hq : q' = if err = ERR_OK then q ++ [r.callback] else q := Program.exec_perform.mp h
  show q' = q ++ (if err = ERR_OK then some r.callback else none).toList
  by_cases herr : err = ERR_OK
  · rw [hq, if_pos herr, if_pos herr]
    rfl
  · rw [hq, if_neg herr, if_neg herr]
    exact (List.append_nil q).symm

/-- The server behind its callbacks is a deferred machine. -/
theorem ControlStep.deferred {cfg : Config} {s s' : List Callback × Server} {l : ControlLabel}
    (h : ControlStep cfg s l s') : (control cfg).Step s l s' := by
  cases h with
  | call h =>
      obtain rfl := exec_body h
      exact .call _
  | @callback q s s' l callback hl h =>
      have hstep : (control cfg).Step (((control cfg).request l).toList ++ q, s) (.act l) (q, s') :=
        .act h
      rw [show (control cfg).request l = some callback from hl] at hstep
      exact hstep
  | @datagram q s s' l hl h =>
      have hstep : (control cfg).Step (((control cfg).request l).toList ++ q, s) (.act l) (q, s') :=
        .act h
      rw [show (control cfg).request l = none from hl] at hstep
      exact hstep

/-! ## §3. The control block. -/

/-- The callback is a start. -/
def Callback.Starts : Callback → Prop
  | .dhcpServerStartRaw _ => True
  | .dhcpServerStopRaw => False

/-- No start is asked for right after another one. -/
def StopsBetween (callbacks : List Callback) : Prop :=
  callbacks.IsChain fun c c' => ¬ (c.Starts ∧ c'.Starts)

/-- One block at most, and none unless a start was the last callback. -/
structure InOrder (callbacks : List Callback) (s : Server) : Prop where
  one : OnePcb s.pcbs s.dhcpPcb
  started : s.dhcpPcb ≠ none → ∃ c ∈ callbacks.getLast?, c.Starts

/-- **One step keeps the order**, where no start comes right after another. -/
theorem InOrder.step {cfg : Config} {callbacks : List Callback} {s s' : Server}
    {l : Op × List Event} (h : InOrder callbacks s) (hs : ServerStep cfg s l s')
    (hgood : StopsBetween (callbacks ++ l.1.callback.toList)) :
    InOrder (callbacks ++ l.1.callback.toList) s' := by
  have hidle : StartsIdle s l.1 := by
    cases hs with
    | stop | recv => trivial
    | @start netif udpNew hfresh =>
        -- a start while the server runs comes right after another one
        by_contra hrunning
        obtain ⟨c, hc, hstarts⟩ := h.started hrunning
        exact (List.isChain_append.mp hgood).2.2 c hc _ rfl ⟨hstarts, trivial⟩
  refine ⟨h.one.step hs hidle, ?_⟩
  cases hs with
  | @start netif udpNew hfresh =>
      intro _
      exact ⟨.dhcpServerStartRaw netif, by simp [Op.callback], trivial⟩
  | stop => exact fun hne => absurd rfl hne
  | @recv _ d es hbound hrecv =>
      -- a datagram is no callback, and leaves the block as it is
      obtain ⟨-, hptr⟩ := recv_pcbs cfg d s
      rw [hrecv] at hptr
      intro hne
      rw [hptr] at hne
      show ∃ c ∈ (callbacks ++ []).getLast?, c.Starts
      rw [List.append_nil]
      exact h.started hne

variable {cfg : Config} {ls : List ControlLabel} {s : List Callback × Server}

/-- **The server sees a run of its own**, and the accepted callbacks in order. -/
theorem control_reachable (hrun : Run (ControlStep cfg) ([], bootServer) ls s) :
    Run (ServerStep cfg) bootServer (Deferred.acts ls) s.2
      ∧ (control cfg).served ls ++ s.1 = (control cfg).asked ls :=
  (control cfg).projects (hrun.mono fun _ _ _ => ControlStep.deferred)

/-- **The life of the control block**: however the callbacks and the datagrams (whose calls
return) come, there is at any time none or one that is bound and that the server knows, and
once the last stop is through there is none. -/
theorem control_life_cycle (hrun : Run (ControlStep cfg) ([], bootServer) ls s)
    (hstops : StopsBetween ((control cfg).asked ls)) :
    OnePcb s.2.pcbs s.2.dhcpPcb ∧ LifeCycle cfg s.2
      ∧ (s.1 = [] → (∀ c ∈ ((control cfg).asked ls).getLast?, ¬ c.Starts) → s.2.pcbs = []) := by
  have hdeferred : Run (control cfg).Step ([], bootServer) ls s :=
    hrun.mono fun _ _ _ => ControlStep.deferred
  have horder : InOrder ((control cfg).served ls) s.2 := by
    have hboot : InOrder [] bootServer := ⟨.stopped, fun hne => absurd rfl hne⟩
    refine (control cfg).invariant InOrder ?_ hboot ?_ hdeferred hstops
    · exact fun rs qs hgood => hgood.left_of_append
    · exact fun rs s l s' h hs hgood => h.step hs hgood
  refine ⟨horder.one, horder.one.lifeCycle, fun hqueue hlast => ?_⟩
  -- the queue is empty, so the last callback asked for is the last one served
  have hall := (control_reachable hrun).2
  rw [hqueue, List.append_nil] at hall
  rw [← hall] at hlast
  have hnone : s.2.dhcpPcb = none := by
    by_contra hrunning
    obtain ⟨c, hc, hstarts⟩ := horder.started hrunning
    exact hlast c hc hstarts
  have hone := horder.one
  rw [hnone] at hone
  generalize s.2.pcbs = pcbs at hone
  cases hone
  rfl

/-- A start, a DISCOVER, a stop that is refused, and one that is not and is called for
before the next DISCOVER. -/
theorem control_life_cycle_stopped : ∃ (es : List Event) (s : Server),
    Run (ControlStep sampleConfig) ([], bootServer)
      [.call (.dhcpServerStart sampleNetif, 0), .act (.start sampleNetif (some 1), []),
        .call (.dhcpServerStop, -1), .call (.dhcpServerStop, 0),
        .act (.recv (sampleMsg DHCPDISCOVER anyAddr macA []), es), .act (.stop, [])] ([], s)
      ∧ OnePcb s.pcbs s.dhcpPcb ∧ LifeCycle sampleConfig s ∧ s.pcbs = [] := by
  obtain ⟨es, _, hstep, _⟩ := sampleServer_discover allocateAddr_macA
  have hcall : ∀ r q s, ControlStep sampleConfig (q, s) (.call (r, 0)) (q ++ [r.callback], s) := by
    intro r q s
    cases r <;> exact .call (Program.exec_perform.mpr rfl)
  have hrefused : ∀ r q s, ControlStep sampleConfig (q, s) (.call (r, -1)) (q, s) := by
    intro r q s
    cases r <;> exact .call (Program.exec_perform.mpr rfl)
  have hrun := Run.cons (hcall (.dhcpServerStart sampleNetif) [] bootServer)
    (Run.cons (.callback rfl sampleServer_start)
      (Run.cons (hrefused .dhcpServerStop [] _)
        (Run.cons (hcall .dhcpServerStop [] _)
          (Run.cons (.datagram rfl (sampleServer_recv hstep)) (Run.single (.callback rfl .stop))))))
  have hstops : StopsBetween [.dhcpServerStartRaw sampleNetif, .dhcpServerStopRaw] := by
    simp [StopsBetween, Callback.Starts]
  obtain ⟨hone, hlife, hgone⟩ := control_life_cycle hrun hstops
  refine ⟨es, _, hrun, hone, hlife, hgone rfl ?_⟩
  intro c hc
  obtain rfl := Option.some.inj hc
  exact id

end PicoosLwip.Dhcps
