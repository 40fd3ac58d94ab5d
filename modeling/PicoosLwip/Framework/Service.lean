/-
  PicoosLwip.Framework.Service — a thread that serves a device while things happen.

  The thread waits until it is woken.  Then it goes round: it runs a program over and
  over, until one run says that there is nothing left to do.  Meanwhile events change
  the state, before any of its operations.

  An operation may commute with the events, to the right or to the left.  Where a
  round consists of operations that move to the right, then one of whatever kind, and
  then of operations that move to the left, it is as good as atomic: an event during
  the round might as well have happened in front of it or behind it.  What an operation
  does may depend on the state, of which the thread may know something.

  Rules:
    * `Path.event`       — an event behind right movers, before them instead;
    * `LeftMover.past`   — a left mover, before a row of events instead of behind;
    * `Service.reduce`   — a waiting state reached by single operations is reached by
                           whole rounds, with the same wake-ups and events in the same
                           order;
    * `roundsAtomic_anywhere` — rounds of left movers, the first operation apart;
    * `Service.expand`   — whole rounds are rounds, operation by operation.
-/
import PicoosLwip.Framework.Answers
import PicoosLwip.Framework.Realize
import PicoosLwip.Framework.Run

namespace PicoosLwip.Framework

/-- Events `ε`; the rounds may differ in what they are given of `ι`. -/
structure Service (σ Op : Type) (Ans : Op → Type) (ε ι : Type) where
  /-- Who answers the thread. -/
  env : Program.Env σ Op Ans
  /-- One round; its result says whether another one is to follow. -/
  body : ι → Program Op Ans (Option Bool)
  /-- The thread's waiting may end. -/
  wakes : σ → σ → Prop
  event : σ → ε → σ → Prop

namespace Service

variable {σ Op ε ι : Type} {Ans : Op → Type}

/-- The thread waits, or has some of its round left to run. -/
inductive Phase (Op : Type) (Ans : Op → Type) : Type where
  | waiting
  | running (rest : Program Op Ans (Option Bool))

/-- What a step does. -/
inductive Label (ε : Type) : Type where
  | wake
  /-- An operation of the thread. -/
  | op
  /-- The end of a round; `again` is its result. -/
  | round (again : Bool)
  | event (e : ε)

variable (S : Service σ Op Ans ε ι)

/-- The thread performs an operation, or something else happens. -/
inductive Step : σ × Phase Op Ans → Label ε → σ × Phase Op Ans → Prop
  | wake {s s' : σ} (i : ι) (h : S.wakes s s') :
      Step (s, .waiting) .wake (s', .running (S.body i))
  | op {s s' : σ} {op : Op} {k : Ans op → Program Op Ans (Option Bool)} {ans : Ans op}
      (h : S.env s op ans s') : Step (s, .running (.call op k)) .op (s', .running (k ans))
  | again {s : σ} (i : ι) :
      Step (s, .running (.ret (some true))) (.round true) (s, .running (S.body i))
  | done {s : σ} : Step (s, .running (.ret (some false))) (.round false) (s, .waiting)
  | event {s s' : σ} {t : Phase Op Ans} {e : ε} (h : S.event s e s') :
      Step (s, t) (.event e) (s', t)

/-- The same by whole rounds; the thread waits where the flag is `true`. -/
inductive RoundStep : σ × Bool → Label ε → σ × Bool → Prop
  | wake {s s' : σ} (h : S.wakes s s') : RoundStep (s, true) .wake (s', false)
  | round {s s' : σ} {i : ι} {again : Bool}
      (h : Program.Exec S.env s (S.body i) (some again) s') :
      RoundStep (s, false) (.round again) (s', !again)
  | event {s s' : σ} {b : Bool} {e : ε} (h : S.event s e s') :
      RoundStep (s, b) (.event e) (s', b)

/-- What can be seen of a step from outside: a wake-up, or an event. -/
def Label.seen : Label ε → List (Option ε)
  | .wake => [none]
  | .event e => [some e]
  | .op | .round _ => []

/-- All that can be seen of some steps. -/
def seen (ls : List (Label ε)) : List (Option ε) := ls.flatMap Label.seen

/-- What is seen of a run is seen of its parts. -/
@[simp] theorem seen_append (ls ks : List (Label ε)) : seen (ls ++ ks) = seen ls ++ seen ks :=
  List.flatMap_append

@[simp] theorem seen_single (l : Label ε) : seen [l] = l.seen := List.append_nil _

/-! ## §1. Operations that commute with the events. -/

/-- What is known of the state while the thread runs: in mode `m` it is as `At m` says.
Operations lead from mode to mode, events leave it. -/
structure Located (M : Type) where
  At : M → σ → Prop
  next : M → Op → M
  somewhere : ∀ s, ∃ m, At m s
  op : ∀ {m s op ans s'}, At m s → S.env s op ans s' → At (next m op) s'
  event : ∀ {m s e s'}, At m s → S.event s e s' → At m s'

variable {S} {M : Type} (D : S.Located M)

/-- In mode `m`, what `op` does before an event, it does behind it as well. -/
def Located.RightMover (m : M) (op : Op) : Prop :=
  ∀ s ans t e s', D.At m s → S.env s op ans t → S.event t e s' →
    ∃ t', S.event s e t' ∧ S.env t' op ans s'

/-- In mode `m`, what `op` does behind an event, it does before it as well. -/
def Located.LeftMover (m : M) (op : Op) : Prop :=
  ∀ s e t ans s', D.At m s → S.event s e t → S.env t op ans s' →
    ∃ t', S.env s op ans t' ∧ S.event t' e s'

/-- Operations that move to the left. -/
def Located.Leaving {α : Type} (m : M) (p : Program Op Ans α) : Prop :=
  Program.Keeps ⟨D.LeftMover, D.next⟩ m p fun _ => True

/-- Operations that move to the right, then one of whatever kind, and behind it operations
that move to the left. -/
def Located.Atomic {α : Type} : M → Program Op Ans α → Prop
  | _, .ret _ => True
  | m, .call op k => (D.RightMover m op ∧ ∀ ans, Atomic (D.next m op) (k ans))
      ∨ ∀ ans, D.Leaving (D.next m op) (k ans)

/-- So is every round, in whatever mode it begins. -/
def Located.RoundsAtomic : Prop := ∀ i m, D.Atomic m (S.body i)

variable {D} {s₀ b s s' : σ}

/-- An operation that moves to the right, then the rest of the round. -/
theorem Located.Atomic.enter {α : Type} {m : M} {op : Op} {k : Ans op → Program Op Ans α}
    (hop : D.RightMover m op) (hk : ∀ ans, D.Atomic (D.next m op) (k ans)) :
    D.Atomic m (.call op k) := .inl ⟨hop, hk⟩

/-- Any operation, if all that follow move to the left. -/
theorem Located.Atomic.commit {α : Type} {m : M} {op : Op} {k : Ans op → Program Op Ans α}
    (hk : ∀ ans, D.Leaving (D.next m op) (k ans)) : D.Atomic m (.call op k) := .inr hk

/-- Such an operation goes before a row of events. -/
theorem Located.LeftMover.past {m : M} {op : Op} (hop : D.LeftMover m op) {ans : Ans op}
    {es : List ε} {r : σ} (hat : D.At m r) (hrun : Run S.event r es s) (h : S.env s op ans s') :
    ∃ r', S.env r op ans r' ∧ Run S.event r' es s' := by
  induction hrun generalizing s' with
  | nil => exact ⟨s', h, .nil⟩
  | @snoc es t t' e hrun he ih =>
      have ht : D.At m t := hrun.invariant (D.At m) hat fun _ _ _ hat he => D.event hat he
      obtain ⟨t'', htop, he'⟩ := hop _ _ _ _ _ ht he h
      obtain ⟨r', hr, hrun'⟩ := ih htop
      exact ⟨r', hr, .snoc hrun' he'⟩

/-- Operations that move to the right, from the beginning of `q` in the state `b` on. -/
inductive Path (D : S.Located M) {α : Type} (b : σ) (q : Program Op Ans α) :
    σ → Program Op Ans α → Prop
  | nil : Path D b q b q
  | snoc {m : M} {s s' : σ} {op : Op} {k : Ans op → Program Op Ans α} {ans : Ans op}
      (h : Path D b q s (.call op k)) (hat : D.At m s) (hop : D.RightMover m op)
      (henv : S.env s op ans s') : Path D b q s' (k ans)

/-- An event behind them could have happened before them. -/
theorem Path.event {α : Type} {p q : Program Op Ans α} {e : ε} (h : Path D b q s p)
    (he : S.event s e s') : ∃ b', S.event b e b' ∧ Path D b' q s' p := by
  induction h generalizing s' with
  | nil => exact ⟨s', he, .nil⟩
  | snoc _ hat hop henv ih =>
      obtain ⟨t, ht, htop⟩ := hop _ _ _ _ _ hat henv he
      obtain ⟨b', hb, hpath⟩ := ih ht
      exact ⟨b', hb, .snoc hpath (D.event hat ht) hop htop⟩

/-- A path and a run of what is left are a run of the whole. -/
theorem Path.exec {α : Type} {p q : Program Op Ans α} {a : α} (h : Path D b q s p)
    (hrest : Program.Exec S.env s p a s') : Program.Exec S.env b q a s' := by
  induction h with
  | nil => exact hrest
  | snoc _ _ _ henv ih => exact ih (.call henv hrest)

/-- Events, seen from outside. -/
theorem run_events {es : List ε} {b : Bool} (h : Run S.event s es s') :
    Run S.RoundStep (s, b) (es.map .event) (s', b) := by
  induction h with
  | nil => exact .nil
  | snoc _ he ih =>
      rw [List.map_append]
      exact .snoc ih (.event he)

/-- Events are seen as they are. -/
theorem seen_events (es : List ε) : seen (es.map .event) = es.map some := by
  induction es with
  | nil => rfl
  | cons e es ih =>
      show some e :: seen (es.map .event) = some e :: es.map some
      rw [ih]

/-! ## §2. Whole rounds. -/

/-- How a state is accounted for by whole rounds.  Before the operation of whatever kind
what the thread has done of the round could still be done behind all events.  Behind that
operation it could be done at the time of it, with the events `es` since then behind it. -/
inductive Reduced (D : S.Located M) (s₀ : σ) : List (Option ε) → σ × Phase Op Ans → Prop
  | waiting {ks : List (Label ε)} {s : σ} (hrun : Run S.RoundStep (s₀, true) ks (s, true)) :
      Reduced D s₀ (seen ks) (s, .waiting)
  | entering {ks : List (Label ε)} {b s : σ} {p : Program Op Ans (Option Bool)} {m : M} (i : ι)
      (hrun : Run S.RoundStep (s₀, true) ks (b, false)) (hpath : Path D b (S.body i) s p)
      (hat : D.At m s) (hatomic : D.Atomic m p) : Reduced D s₀ (seen ks) (s, .running p)
  | leaving {ks : List (Label ε)} {b r s : σ} {p : Program Op Ans (Option Bool)} {m : M}
      {es : List ε} (i : ι) (hrun : Run S.RoundStep (s₀, true) ks (b, false))
      (hbody : ∀ a s', Program.Exec S.env r p a s' → Program.Exec S.env b (S.body i) a s')
      (hat : D.At m r) (hleaving : D.Leaving m p) (hevents : Run S.event r es s) :
      Reduced D s₀ (seen ks ++ es.map some) (s, .running p)

/-- The beginning of a round. -/
theorem Reduced.fresh (hatomic : D.RoundsAtomic) {ks : List (Label ε)} (i : ι)
    (hrun : Run S.RoundStep (s₀, true) ks (s, false)) :
    Reduced D s₀ (seen ks) (s, .running (S.body i)) := by
  obtain ⟨m, hat⟩ := D.somewhere s
  exact .entering i hrun .nil hat (hatomic i m)

/-- A round that is done, and the events during it. -/
theorem run_round {ks : List (Label ε)} {r : σ} {es : List ε} {i : ι} {again : Bool}
    (hrun : Run S.RoundStep (s₀, true) ks (b, false))
    (hbody : Program.Exec S.env b (S.body i) (some again) r) (hevents : Run S.event r es s) :
    ∃ ks', Run S.RoundStep (s₀, true) ks' (s, !again) ∧ seen ks' = seen ks ++ es.map some := by
  refine ⟨_, (hrun.snoc (.round hbody)).append (run_events hevents), ?_⟩
  rw [seen_append, seen_append, seen_events, seen_single]
  exact congrArg (· ++ es.map some) (List.append_nil _)

/-- A round that has returned is done. -/
theorem Reduced.returned {vs : List (Option ε)} {again : Bool}
    (h : Reduced D s₀ vs (s, .running (.ret (some again)))) :
    ∃ ks, Run S.RoundStep (s₀, true) ks (s, !again) ∧ seen ks = vs := by
  generalize hc : (s, (Phase.running (.ret (some again)) : Phase Op Ans)) = c at h
  cases h with
  | waiting hrun => exact absurd (Prod.mk.inj hc).2 (by simp)
  | entering i hrun hpath hat hatomic =>
      obtain ⟨rfl, hp⟩ := Prod.mk.inj hc
      obtain rfl := Phase.running.inj hp
      obtain ⟨ks', hrun', hseen⟩ := run_round hrun (hpath.exec (.ret ..)) .nil
      rw [List.map_nil, List.append_nil] at hseen
      exact ⟨ks', hrun', hseen⟩
  | leaving i hrun hbody hat hleaving hevents =>
      obtain ⟨rfl, hp⟩ := Prod.mk.inj hc
      obtain rfl := Phase.running.inj hp
      exact run_round hrun (hbody _ _ (.ret ..)) hevents

/-- An operation of the thread joins the round. -/
theorem Reduced.op {vs : List (Option ε)} {op : Op} {k : Ans op → Program Op Ans (Option Bool)}
    {ans : Ans op} (h : Reduced D s₀ vs (s, .running (.call op k))) (hop : S.env s op ans s') :
    Reduced D s₀ vs (s', .running (k ans)) := by
  generalize hc : (s, (Phase.running (.call op k) : Phase Op Ans)) = c at h
  cases h with
  | waiting hrun => exact absurd (Prod.mk.inj hc).2 (by simp)
  | @entering ks b s p m i hrun hpath hat hatomic =>
      obtain ⟨rfl, hp⟩ := Prod.mk.inj hc
      obtain rfl := Phase.running.inj hp
      rcases hatomic with ⟨hright, hrest⟩ | hrest
      · exact .entering i hrun (hpath.snoc hat hright hop) (D.op hat hop) (hrest ans)
      · -- the operation of whatever kind: from here on the events are behind the round
        have hleft : Reduced D s₀ (seen ks ++ List.map some []) (s', .running (k ans)) :=
          .leaving i hrun (fun a s' h => hpath.exec (.call hop h)) (D.op hat hop) (hrest ans) .nil
        rwa [List.map_nil, List.append_nil] at hleft
  | leaving i hrun hbody hat hleaving hevents =>
      obtain ⟨rfl, hp⟩ := Prod.mk.inj hc
      obtain rfl := Phase.running.inj hp
      obtain ⟨r', hr, hevents'⟩ := Located.LeftMover.past hleaving.1 hat hevents hop
      exact .leaving i hrun (fun a s' hrest => hbody a s' (.call hr hrest)) (D.op hat hr)
        (hleaving.2 ans) hevents'

/-- An event is put in front of the round or behind it. -/
theorem Reduced.event {vs : List (Option ε)} {t : Phase Op Ans} {e : ε}
    (h : Reduced D s₀ vs (s, t)) (he : S.event s e s') :
    Reduced D s₀ (vs ++ [some e]) (s', t) := by
  have hseen : ∀ ks, seen ks ++ [some e] = seen (ks ++ [Label.event e]) := by
    intro ks
    rw [seen_append, seen_single]
    rfl
  cases h with
  | waiting hrun =>
      rw [hseen]
      exact .waiting (hrun.snoc (.event he))
  | entering i hrun hpath hat hatomic =>
      obtain ⟨b', hb, hpath'⟩ := hpath.event he
      rw [hseen]
      exact .entering i (hrun.snoc (.event hb)) hpath' (D.event hat he) hatomic
  | leaving i hrun hbody hat hleaving hevents =>
      rw [List.append_assoc, show [some e] = [e].map some from rfl, ← List.map_append]
      exact .leaving i hrun hbody hat hleaving (hevents.snoc he)

/-- Each step keeps the reduced view. -/
theorem Reduced.step (hatomic : D.RoundsAtomic) {vs : List (Option ε)}
    {l : Label ε} {c c' : σ × Phase Op Ans} (h : Reduced D s₀ vs c) (hstep : S.Step c l c') :
    Reduced D s₀ (vs ++ l.seen) c' := by
  cases hstep with
  | wake i hwake =>
      cases h with
      | waiting hrun =>
          rw [← seen_single, ← seen_append]
          exact .fresh hatomic i (hrun.snoc (.wake hwake))
  | op hop =>
      rw [show (Label.op : Label ε).seen = [] from rfl, List.append_nil]
      exact h.op hop
  | again i =>
      obtain ⟨ks, hrun, hseen⟩ := h.returned
      rw [show (Label.round true : Label ε).seen = [] from rfl, List.append_nil, ← hseen]
      exact .fresh hatomic i hrun
  | done =>
      obtain ⟨ks, hrun, hseen⟩ := h.returned
      rw [show (Label.round false : Label ε).seen = [] from rfl, List.append_nil, ← hseen]
      exact .waiting hrun
  | event he => exact h.event he

/-- So does a whole run. -/
theorem reduced_of_run (hatomic : D.RoundsAtomic) {ls : List (Label ε)} {c : σ × Phase Op Ans}
    (h : Run S.Step (s₀, .waiting) ls c) : Reduced D s₀ (seen ls) c := by
  induction h with
  | nil =>
      show Reduced D s₀ (seen []) _
      exact .waiting .nil
  | snoc _ hstep ih =>
      rw [seen_append, seen_single]
      exact ih.step hatomic hstep

/-- **Rounds are atomic.**  A state in which the thread waits is reached by whole rounds,
with the same wake-ups and events in the same order. -/
theorem reduce (hatomic : D.RoundsAtomic) {ls : List (Label ε)}
    (h : Run S.Step (s₀, .waiting) ls (s, .waiting)) :
    ∃ ks, Run S.RoundStep (s₀, true) ks (s, true) ∧ seen ks = seen ls := by
  have hreduced := reduced_of_run hatomic h
  generalize hvs : seen ls = vs at hreduced
  cases hreduced with
  | waiting hrun => exact ⟨_, hrun, rfl⟩

/-- Where nothing is known of the state. -/
def anywhere (S : Service σ Op Ans ε ι) : S.Located Unit where
  At _ _ := True
  next _ _ := ()
  somewhere _ := ⟨(), trivial⟩
  op _ _ := trivial
  event _ _ := trivial

/-- In every state, what `op` does behind an event, it does before it as well. -/
def Mover (S : Service σ Op Ans ε ι) (op : Op) : Prop :=
  ∀ s e t ans s', S.event s e t → S.env t op ans s' →
    ∃ t', S.env s op ans t' ∧ S.event t' e s'

/-- Movers may come in any order. -/
theorem leaving_anywhere {α : Type} {p : Program Op Ans α} (h : p.AllOps S.Mover) (m : Unit) :
    S.anywhere.Leaving m p := by
  induction p with
  | ret a => trivial
  | call op k ih => exact ⟨fun s e t ans s' _ => h.1 s e t ans s', fun ans => ih ans (h.2 ans)⟩

/-- Rounds of such operations, the first one apart. -/
theorem roundsAtomic_anywhere (h : ∀ i, (S.body i).AfterFirst S.Mover) :
    S.anywhere.RoundsAtomic := by
  intro i m
  have hbody := h i
  generalize S.body i = p at hbody
  cases p with
  | ret a => exact hbody.elim
  | call op k => exact .commit fun ans => leaving_anywhere (hbody ans) _

/-- Where a wake-up is the first that is seen, it is the first that happens. -/
theorem wake_first {ks : List (Label ε)} {vs : List (Option ε)} {c : σ × Bool}
    (h : Run S.RoundStep (s, true) ks c) (hseen : seen ks = none :: vs) :
    ∃ s' ks', S.wakes s s' ∧ Run S.RoundStep (s', false) ks' c := by
  cases ks with
  | nil => exact absurd hseen (by simp [seen])
  | cons l ks =>
      obtain ⟨c₁, hfirst, hrest⟩ := h.of_cons
      cases hfirst with
      | wake hwake => exact ⟨_, ks, hwake, hrest⟩
      | event he => exact absurd hseen (by simp [seen, Label.seen])

/-! ## §3. Single operations. -/

/-- The operations of a round, one by one. -/
theorem run_ops {p : Program Op Ans (Option Bool)} {r : Option Bool}
    (h : Program.Exec S.env s p r s') :
    ∃ ls, Run S.Step (s, .running p) ls (s', .running (.ret r)) ∧ seen ls = [] := by
  induction h with
  | ret s a => exact ⟨[], .nil, rfl⟩
  | call hop _ ih =>
      obtain ⟨ls, hrun, hseen⟩ := ih
      exact ⟨_, hrun.cons (.op hop), hseen⟩

/-- A state between two rounds, in the other view: the thread waits, or is at the beginning of
whatever round. -/
def Expanded (S : Service σ Op Ans ε ι) (s₀ : σ) (vs : List (Option ε)) : σ × Bool → Prop
  | (s, true) => ∃ ls, Run S.Step (s₀, .waiting) ls (s, .waiting) ∧ seen ls = vs
  | (s, false) =>
      ∀ i, ∃ ls, Run S.Step (s₀, .waiting) ls (s, .running (S.body i)) ∧ seen ls = vs

/-- Each step by rounds is a run of single steps. -/
theorem Expanded.step {vs : List (Option ε)} {l : Label ε} {c c' : σ × Bool}
    (h : Expanded S s₀ vs c) (hstep : S.RoundStep c l c') : Expanded S s₀ (vs ++ l.seen) c' := by
  cases hstep with
  | wake hwake =>
      obtain ⟨ls, hrun, rfl⟩ := h
      exact fun i => ⟨_, hrun.snoc (.wake i hwake), by simp⟩
  | @round s s' i again hround =>
      obtain ⟨ls, hrun, rfl⟩ := h i
      obtain ⟨ks, hops, hseen⟩ := run_ops hround
      cases again with
      | true => exact fun j => ⟨_, (hrun.append hops).snoc (.again j), by simp [hseen]⟩
      | false => exact ⟨_, (hrun.append hops).snoc .done, by simp [hseen]⟩
  | @event s s' b e he =>
      cases b with
      | true =>
          obtain ⟨ls, hrun, rfl⟩ := h
          exact ⟨_, hrun.snoc (.event he), by simp⟩
      | false =>
          intro i
          obtain ⟨ls, hrun, rfl⟩ := h i
          exact ⟨_, hrun.snoc (.event he), by simp⟩

/-- **Whole rounds are rounds**, operation by operation. -/
theorem expand {ks : List (Label ε)} (h : Run S.RoundStep (s₀, true) ks (s, true)) :
    ∃ ls, Run S.Step (s₀, .waiting) ls (s, .waiting) ∧ seen ls = seen ks := by
  have hexpanded : ∀ {ks c}, Run S.RoundStep (s₀, true) ks c → Expanded S s₀ (seen ks) c := by
    intro ks c hrun
    induction hrun with
    | nil => exact ⟨[], .nil, rfl⟩
    | snoc _ hstep ih =>
        rw [seen_append, seen_single]
        exact ih.step hstep
  exact hexpanded h

end Service

end PicoosLwip.Framework
