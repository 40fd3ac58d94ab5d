/-
  PicoosLwip.Dhcps.LifeCycle — the control block of the server over its life.

  `dhcpPcb` is one pointer, overwritten by every start and cleared by every
  stop, while `udp_recv` keeps the callback on the block it was called with.
  The pointer and the blocks that exist agree as long as no start finds a block
  of an earlier one; a start that does loses it: the old block stays bound and
  receiving, and a reply to what it receives goes through another block or
  through `NULL`.

  Main results:
    * `life_cycle_iff`      — every state of a run is sound exactly when each
                              start of the run finds `dhcpPcb` cleared;
    * `second_start_leaks`  — the run of two starts.
-/
import PicoosLwip.Dhcps.Requests

namespace PicoosLwip.Dhcps

open PicoosLwip.Framework

/-! ## §1. The block a call sends through. -/

/-- A call does not touch the control blocks. -/
theorem recv_pcbs (cfg : Config) (d : Datagram) (s : Server) :
    (dhcpRecv cfg d s).state.pcbs = s.pcbs
      ∧ (dhcpRecv cfg d s).state.dhcpPcb = s.dhcpPcb := by
  have hcase := dhcpRecv_cases cfg d s
  generalize dhcpRecv cfg d s = o at hcase
  cases hcase <;> exact ⟨rfl, rfl⟩

/-- The scan sends nothing. -/
theorem send_not_mem_scan {p : Pbuf} {s s' : Server} {es : List Event} {r : Except Fault Ip4Addr}
    (hs : p.scan s = ⟨es, s', r⟩) (pcb : Option Nat) (msg : List UInt8) (dest : Ip4Addr)
    (port : Nat) : Event.send pcb msg dest port ∉ es := by
  intro hin
  obtain ⟨k, n, heq⟩ := scan_reads hs _ hin
  exact absurd heq (by simp)

/-- **Every reply goes through `dhcpPcb`**, whichever block received. -/
theorem send_pcb {cfg : Config} {d : Datagram} {s : Server} {pcb : Option Nat}
    {msg : List UInt8} {dest : Ip4Addr} {port : Nat}
    (h : Event.send pcb msg dest port ∈ (dhcpRecv cfg d s).events) : pcb = s.dhcpPcb := by
  have hcase := dhcpRecv_cases cfg d s
  generalize dhcpRecv cfg d s = o at hcase h
  cases hcase with
  | noReply h' m addr leases hh hm ha hb =>
      cases hrp : d.rp <;> simp [enterEvents, noReplyEvents, hrp] at h
  | offer m addr leases b hh hm ha hb =>
      simp [enterEvents, newRespEvents] at h
      exact h.1
  | scanFault m addr leases b es e hh hm ha hb hscan =>
      simp [enterEvents, newRespEvents, send_not_mem_scan hscan] at h
  | ack m addr leases b mac es hh hm ha hb hscan hmac =>
      simp [enterEvents, newRespEvents, send_not_mem_scan hscan] at h
      exact h.1
  | nak m addr reqAddr leases b es hh hm ha hb hscan hne =>
      simp [enterEvents, newRespEvents, send_not_mem_scan hscan] at h
      exact h.1
  | _ => simp [enterEvents] at h

/-! ## §2. One block at most. -/

/-- No block, or one that is bound and that `dhcpPcb` points to. -/
inductive OnePcb : List Pcb → Option Nat → Prop
  | stopped : OnePcb [] none
  | running (id : Nat) : OnePcb [⟨id, true⟩] (some id)

/-- What the life cycle promises of a state: one block at most and `dhcpPcb`
pointing to it, every reply sent through the block that received, and no block
left receiving if the server is stopped now. -/
structure LifeCycle (cfg : Config) (s : Server) : Prop where
  count : s.pcbs.length ≤ 1
  pointer : s.dhcpPcb = s.pcbs.head?.map fun pcb => pcb.id
  sends : ∀ (d : Datagram), ∀ pcb ∈ s.pcbs, pcb.bound → ∀ via msg dest port,
    .send via msg dest port ∈ (dhcpRecv cfg d s).events → via = some pcb.id
  stop : ∀ pcb ∈ (dhcpServerStopRaw s).pcbs, ¬ pcb.bound

/-- A start that finds no block left over from an earlier one. -/
def StartsIdle (s : Server) : Op → Prop
  | .start _ _ => s.dhcpPcb = none
  | _ => True

/-- A state with one block at most is sound. -/
theorem OnePcb.lifeCycle {cfg : Config} {s : Server} (h : OnePcb s.pcbs s.dhcpPcb) :
    LifeCycle cfg s := by
  generalize hpcbs : s.pcbs = pcbs at h
  generalize hptr : s.dhcpPcb = ptr at h
  cases h with
  | stopped =>
      refine ⟨?_, ?_, ?_, ?_⟩
      · simp [hpcbs]
      · simp [hpcbs, hptr]
      · simp [hpcbs]
      · simp [dhcpServerStopRaw, hpcbs]
  | running id =>
      refine ⟨?_, ?_, ?_, ?_⟩
      · simp [hpcbs]
      · simp [hpcbs, hptr]
      · intro d pcb hpcb _ via msg dest port hsend
        rw [hpcbs, List.mem_singleton] at hpcb
        rw [send_pcb hsend, hptr, hpcb]
      · -- the stop removes the only block
        simp [dhcpServerStopRaw, hpcbs, hptr]

/-- **One step keeps one block at most**, unless it is a start over a block. -/
theorem OnePcb.step {cfg : Config} {s s' : Server} {l : Op × List Event}
    (h : OnePcb s.pcbs s.dhcpPcb) (hstep : ServerStep cfg s l s') (hidle : StartsIdle s l.1) :
    OnePcb s'.pcbs s'.dhcpPcb := by
  cases hstep with
  | @start netif udpNew _ =>
      have hptr : s.dhcpPcb = none := hidle
      have hpcbs : s.pcbs = [] := by
        rw [hptr] at h
        generalize s.pcbs = pcbs at h
        cases h
        rfl
      cases udpNew with
      | none =>
          show OnePcb s.pcbs none
          rw [hpcbs]
          exact .stopped
      | some id =>
          -- the port is free, so `udp_bind` succeeds
          show OnePcb (s.pcbs ++ [⟨id, s.pcbs.all fun pcb => !pcb.bound⟩]) (some id)
          rw [hpcbs]
          exact .running id
  | stop =>
      show OnePcb (s.pcbs.filter fun pcb => s.dhcpPcb ≠ some pcb.id) none
      generalize s.pcbs = pcbs at h
      generalize s.dhcpPcb = ptr at h
      cases h with
      | stopped => exact .stopped
      | running id =>
          rw [List.filter_cons_of_neg (by simp)]
          exact .stopped
  | @recv _ d es hbound hrecv =>
      obtain ⟨hpcbs, hptr⟩ := recv_pcbs cfg d s
      rw [hrecv] at hpcbs hptr
      rw [hpcbs, hptr]
      exact h

/-- A start over a block is what breaks the life cycle. -/
theorem LifeCycle.idle_of_start {cfg : Config} {s : Server} {netif : Netif} {udpNew : Option Nat}
    (h : LifeCycle cfg s) (hnext : LifeCycle cfg (dhcpServerStartRaw netif udpNew s)) :
    s.dhcpPcb = none := by
  have hptr := h.pointer
  cases hpcbs : s.pcbs with
  | nil => rw [hptr, hpcbs]; rfl
  | cons pcb pcbs =>
      exfalso
      cases udpNew with
      | none =>
          -- `dhcpPcb` is `NULL`, the block is still there
          have hnull : (none : Option Nat) = s.pcbs.head?.map fun pcb => pcb.id := hnext.pointer
          rw [hpcbs] at hnull
          simp at hnull
      | some id =>
          -- a second block
          have htwo : (s.pcbs ++ [_]).length ≤ 1 := hnext.count
          rw [hpcbs] at htwo
          simp at htwo

/-! ## §3. Whole runs. -/

variable {cfg : Config} {ls : List (Op × List Event)} {s : Server}

/-- Every state that the run `ls` from boot goes through is sound. -/
def SoundThroughout (cfg : Config) (ls : List (Op × List Event)) : Prop :=
  EachState (ServerStep cfg) bootServer (fun _ s => LifeCycle cfg s) ls

/-- Every start of the run `ls` from boot finds `dhcpPcb` cleared. -/
def StartsCleared (cfg : Config) (ls : List (Op × List Event)) : Prop :=
  EachStep (ServerStep cfg) bootServer (fun s l _ => StartsIdle s l.1) ls

/-- **A run of such starts keeps one block at most.** -/
theorem onePcb_of_run
    (hrun : Run (fun s l s' => ServerStep cfg s l s' ∧ StartsIdle s l.1) bootServer ls s) :
    OnePcb s.pcbs s.dhcpPcb := by
  apply hrun.invariant fun s => OnePcb s.pcbs s.dhcpPcb
  · exact .stopped
  · rintro s l s' hone ⟨hstep, hidle⟩
    exact hone.step hstep hidle

/-- **The life cycle is sound through a run exactly when every start of the run
finds `dhcpPcb` cleared.** -/
theorem life_cycle_iff (cfg : Config) (ls : List (Op × List Event)) :
    SoundThroughout cfg ls ↔ StartsCleared cfg ls := by
  constructor
  · intro hsound pre l post s s' hls hpre hstep
    cases hstep with
    | stop => trivial
    | recv hbound hrecv => trivial
    | @start netif udpNew hfresh =>
        -- the states before and behind the start are both sound
        have hbefore : LifeCycle cfg s := hsound pre _ s hls hpre
        have hstart : ServerStep cfg s (.start netif udpNew, []) _ := .start hfresh
        have hbehind := hsound (pre ++ [(.start netif udpNew, [])]) post _
          (by rw [hls]; simp) (hpre.snoc hstart)
        exact hbefore.idle_of_start hbehind
  · intro hidle
    exact EachStep.eachState hidle fun ls s hrun => (onePcb_of_run hrun).lifeCycle

/-! ## §4. Sample runs. -/

/-- A start, a DISCOVER and a stop. -/
theorem life_cycle_iff_discover :
    ∃ ls s, Run (ServerStep sampleConfig) bootServer ls s
      ∧ ls.map (fun l => l.1) = [.start sampleNetif (some 1),
          .recv (sampleMsg DHCPDISCOVER anyAddr macA []), .stop]
      ∧ SoundThroughout sampleConfig ls := by
  obtain ⟨es, _, hstep, _⟩ := sampleServer_discover allocateAddr_macA
  have hrun := Run.cons sampleServer_start (Run.cons (sampleServer_recv hstep) (Run.single .stop))
  refine ⟨_, _, hrun, rfl, (life_cycle_iff _ _).mpr (EachStep.cons ?_ ?_)⟩
  · intro s' _
    exact rfl
  · -- no start behind the first
    intro k hk s s' _
    rcases List.mem_cons.mp hk with rfl | hk
    · trivial
    · obtain rfl := List.mem_singleton.mp hk
      trivial

/-- A second start: the first block stays, bound and receiving, and the replies
to what it receives go through the second. -/
theorem second_start_leaks :
    ∃ ls s, Run (ServerStep sampleConfig) bootServer ls s
      ∧ ls.map (fun l => l.1) = [.start sampleNetif (some 1), .start sampleNetif (some 2)]
      ∧ s.pcbs = [⟨1, true⟩, ⟨2, false⟩] ∧ s.dhcpPcb = some 2
      ∧ (dhcpServerStopRaw s).pcbs = [⟨1, true⟩] ∧ ¬ SoundThroughout sampleConfig ls := by
  have hsecond : ServerStep sampleConfig (sampleServer []) (.start sampleNetif (some 2), []) _ :=
    .start (by decide)
  have hrun := Run.cons sampleServer_start (Run.single hsecond)
  refine ⟨_, _, hrun, rfl, rfl, rfl, by decide, ?_⟩
  intro hsound
  have htwo := (hsound _ [] _ (List.append_nil _).symm hrun).count
  exact absurd htwo (by decide)

end PicoosLwip.Dhcps
