/-
  PicoosLwip.Sockets.Leaks — no socket of lwIP is lost, unless a close fails.

  `socket` and `accept` take two resources, the slot first and the descriptor
  second, and give the slot back when there is no descriptor.  `sockClose`
  gives the two back in the other order, but does not look at the result of
  `lwip_close`: the slot is freed and 0 returned even where the descriptor is
  still open, and nothing then leads to it any more.

  Main results:
    * `nothing_lost_iff`   — a run loses no descriptor and reports every
                             failure exactly when each `lwip_close` in it succeeds;
    * `failed_close_leaks` — the run in which one does not.
-/
import PicoosLwip.Sockets.Aliasing

namespace PicoosLwip.Sockets

open PicoosLwip.Framework

/-! ## §1. What a run promises. -/

/-- The descriptor that lwIP returns to a call. -/
def Call.obtains : Call → Option Int
  | .socket (some _) sock => if sock = -1 then none else some sock
  | .accept _ (some _) sock => if sock = -1 then none else some sock
  | _ => none

/-- `socket` or `accept`. -/
def Call.Opens : Call → Prop
  | .socket _ _ => True
  | .accept _ _ _ => True
  | _ => False

/-- `socket`, `accept` or a close by slot, which is all there is here. -/
def Call.BySlot : Call → Prop
  | .closesocket _ _ => False
  | _ => True

/-- A call that goes by the slot. -/
def SlotStep (w : World) (l : Call × Int) (w' : World) : Prop :=
  CallStep w l w' ∧ l.1.BySlot

/-- Every descriptor obtained so far that is still open is in an allocated slot. -/
def ObtainedHeld (ls : List (Call × Int)) (w : World) : Prop :=
  ∀ fd ∈ ls.filterMap fun l => l.1.obtains, fd ∈ w.opened → ∃ i, w.socketFd i = some fd

/-- A call that fails says so and leaves what it could not release. -/
structure FailsCleanly (w : World) (l : Call × Int) (w' : World) : Prop where
  opens : l.1.Opens → l.2 = -1 → w' = w
  closes : ∀ i ok fd, l.1 = .close i ok → w.socketFd i = some fd → (lwip_close fd ok w).1 ≠ 0 →
    l.2 ≠ 0 ∧ w'.socketFd i = some fd

/-- No descriptor is lost in the run `ls`, and no failure hidden. -/
structure NothingLost (w₀ : World) (ls : List (Call × Int)) : Prop where
  held : EachState SlotStep w₀ ObtainedHeld ls
  clean : EachStep SlotStep w₀ FailsCleanly ls

/-- The `lwip_close` of a close succeeds. -/
def LwipCloses (w : World) : Call → Prop
  | .close i ok => ∀ fd, w.socketFd i = some fd → (lwip_close fd ok w).1 = 0
  | _ => True

/-! ## §2. One call. -/

variable {w w' : World} {l : Call × Int}

/-- lwIP has closed the descriptor. -/
theorem lwip_close_eq_zero {fd : Int} {ok : Bool} :
    (lwip_close fd ok w).1 = 0 ↔ fd ∈ w.opened ∧ ok = true := by
  unfold lwip_close
  split
  next h => exact ⟨fun _ => h, fun _ => rfl⟩
  next h =>
    have hfail : ¬ (-1 : Int) = 0 := by decide
    exact ⟨fun h0 => absurd h0 hfail, fun h' => absurd h' h⟩

/-- A free slot is nobody's. -/
theorem World.FreeSlot.socketFd {i : Nat} (h : w.FreeSlot i) : w.socketFd i = none := by
  obtain ⟨sl, hsl, hfree⟩ := h
  unfold World.socketFd
  rw [hsl]
  show sl.socketFd = none
  exact if_neg (by simp [hfree])

/-- **A descriptor just obtained** is in the slot that the call returns. -/
theorem held_of_obtains {fd : Int} (hstep : CallStep w l w') (h : l.1.obtains = some fd) :
    ∃ i, w'.socketFd i = some fd := by
  obtain ⟨c, r⟩ := l
  obtain ⟨hallowed, hrun⟩ := hstep
  -- both calls end in `finishOpen`
  have hfinish : ∀ i sock, w.FreeSlot i → (if sock = -1 then none else some sock) = some fd →
      finishOpen i sock (lwipOpen sock (uosFileAlloc i w)) = (r, w') →
      ∃ i, w'.socketFd i = some fd := by
    intro i sock hfree hsock heq
    split at hsock
    next => exact absurd hsock (by simp)
    next hne =>
      obtain rfl := Option.some.inj hsock
      rw [finishOpen_eq hfree, if_neg hne] at heq
      obtain ⟨-, rfl⟩ := Prod.mk.inj heq
      exact ⟨i, by rw [socketFd_grant hfree, if_pos rfl]⟩
  cases c with
  | socket slot sock =>
      cases slot with
      | none => exact absurd h (by simp [Call.obtains])
      | some i => exact hfinish i sock (hallowed.1 i rfl) h (Option.some.inj hrun)
  | accept s slot sock =>
      cases slot with
      | none => exact absurd h (by simp [Call.obtains])
      | some i =>
          simp only [Call.run, accept] at hrun
          split at hrun
          next => exact absurd hrun (by simp)
          next => exact hfinish i sock (hallowed.1 i rfl) h (Option.some.inj hrun)
  | close i ok => exact absurd h (by simp [Call.obtains])
  | closesocket s ok => exact absurd h (by simp [Call.obtains])

/-- **A call keeps the open descriptors held**, if its `lwip_close` succeeds. -/
theorem held_step {fd : Int} (hstep : SlotStep w l w') (hclose : LwipCloses w l.1)
    (hheld : fd ∈ w.opened → ∃ i, w.socketFd i = some fd) (hopen : fd ∈ w'.opened) :
    ∃ i, w'.socketFd i = some fd := by
  obtain ⟨hcall, hslot⟩ := hstep
  cases step_cases hcall with
  | failed c => exact hheld hopen
  | opens c i sock hfree hfresh hsock =>
      rcases List.mem_cons.mp hopen with rfl | hold
      · exact ⟨i, by rw [socketFd_grant hfree, if_pos rfl]⟩
      · obtain ⟨j, hj⟩ := hheld hold
        -- the slot handed out was free, so it is another one
        have hji : j ≠ i := by
          rintro rfl
          rw [hfree.socketFd] at hj
          exact absurd hj (by simp)
        exact ⟨j, by rw [socketFd_grant hfree, if_neg hji, hj]⟩
  | closes i fd' hfd hin =>
      obtain ⟨hold, hne⟩ := List.mem_filter.mp hopen
      obtain ⟨j, hj⟩ := hheld hold
      have hji : j ≠ i := by
        rintro rfl
        rw [hfd] at hj
        exact absurd (Option.some.inj hj).symm (of_decide_eq_true hne)
      exact ⟨j, by rw [socketFd_free, if_neg hji, socketFd_closeFd, hj]⟩
  | abandons i ok fd' hfd hfail => exact absurd (lwip_close_eq_zero.mp (hclose fd' hfd)) hfail
  | closesFd s fd' hfd hin => exact absurd hslot id

/-- A call whose `lwip_close` succeeds fails cleanly. -/
theorem failsCleanly_of_closes (hstep : SlotStep w l w') (hclose : LwipCloses w l.1) :
    FailsCleanly w l w' where
  opens hopens hfail := by
    obtain ⟨hcall, -⟩ := hstep
    cases step_cases hcall with
    | failed c => rfl
    | opens c i sock hfree hfresh hsock =>
        have hpos : (i : Int) = -1 := hfail
        omega
    | closes i fd hfd hin => exact absurd hopens id
    | abandons i ok fd hfd hno => exact absurd hopens id
    | closesFd s fd hfd hin => exact absurd hopens id
  closes i ok fd hl hfd hne := by
    rw [hl] at hclose
    exact absurd (hclose fd hfd) hne

/-- A close returns 0, whatever `lwip_close` does. -/
theorem close_returns_zero {i : Nat} {ok : Bool} {r : Int}
    (hstep : CallStep w (.close i ok, r) w') : r = 0 := by
  obtain ⟨-, hrun⟩ := hstep
  simp only [Call.run, sockClose] at hrun
  split at hrun
  next => exact absurd hrun (by simp)
  next =>
    split at hrun
    next => exact (Prod.mk.inj (Option.some.inj hrun)).1.symm
    next => exact absurd hrun (by simp)

/-! ## §3. Whole runs. -/

/-- **No descriptor is lost** in a run whose `lwip_close` calls all succeed. -/
theorem obtainedHeld_of_run {w₀ : World} {ls : List (Call × Int)}
    (hrun : Run (fun w l w' => SlotStep w l w' ∧ LwipCloses w l.1) w₀ ls w) :
    ObtainedHeld ls w := by
  induction hrun with
  | nil =>
      intro fd hfd
      exact absurd hfd (by simp)
  | @snoc ls w w' l _ hs ih =>
      intro fd hfd hopen
      rw [List.filterMap_append, List.mem_append] at hfd
      rcases hfd with hfd | hfd
      · exact held_step hs.1 hs.2 (ih fd hfd) hopen
      · obtain ⟨k, hk, hobt⟩ := List.mem_filterMap.mp hfd
        obtain rfl := List.mem_singleton.mp hk
        exact held_of_obtains hs.1.1 hobt

/-- **A run loses nothing and hides nothing exactly when each of its
`lwip_close` calls succeeds.** -/
theorem nothing_lost_iff (w₀ : World) (ls : List (Call × Int)) :
    NothingLost w₀ ls ↔ EachStep SlotStep w₀ (fun w l _ => LwipCloses w l.1) ls := by
  constructor
  · rintro ⟨-, hclean⟩ pre ⟨c, r⟩ post w w' hls hpre hstep
    cases c with
    | close i ok =>
        intro fd hfd
        by_contra hne
        -- it would have to report the failure, and returns 0
        have hreport := ((hclean pre _ post w w' hls hpre hstep).closes i ok fd rfl hfd hne).1
        exact hreport (close_returns_zero hstep.1)
    | _ => trivial
  · intro hcloses
    constructor
    · exact hcloses.eachState fun ls w hrun => obtainedHeld_of_run hrun
    · intro pre l post w w' hls hpre hstep
      exact failsCleanly_of_closes hstep (hcloses pre l post w w' hls hpre hstep)

/-- `lwip_close` fails: the slot is free, the descriptor open, and the close
returned 0. -/
theorem failed_close_leaks :
    ∃ ls w, Run SlotStep sampleWorld ls w
      ∧ ls = [(.socket (some 0) 0, 0), (.close 0 false, 0)]
      ∧ w.opened = [0] ∧ (∀ i, w.socketFd i = none) ∧ ¬ NothingLost sampleWorld ls := by
  have hclose : CallStep ⟨[openSlot 0, freshSlot], [0]⟩ (.close 0 false, 0)
      ⟨[{ openSlot 0 with allocated := false }, freshSlot], [0]⟩ :=
    ⟨⟨openSlot 0, rfl, rfl, rfl⟩, by decide⟩
  have hrun : Run SlotStep sampleWorld _ _ :=
    Run.cons ⟨first_socket, trivial⟩ (Run.single ⟨hclose, trivial⟩)
  have hnone : ∀ i, World.socketFd ⟨[{ openSlot 0 with allocated := false }, freshSlot], [0]⟩ i
      = none := by
    intro i
    match i with
    | 0 => rfl
    | 1 => rfl
    | _ + 2 => rfl
  refine ⟨_, _, hrun, rfl, rfl, hnone, ?_⟩
  intro hlost
  obtain ⟨i, hi⟩ := hlost.held _ [] _ (List.append_nil _).symm hrun 0 (by decide) (by decide)
  rw [hnone i] at hi
  exact absurd hi (by simp)

end PicoosLwip.Sockets
