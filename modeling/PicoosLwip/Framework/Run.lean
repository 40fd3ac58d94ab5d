/-
  PicoosLwip.Framework.Run — finite runs of a labelled transition relation.

  A transition relation `step s l s'` says that the system can go from `s` to
  `s'` by the step `l`.  `Run step s₀ ls s` is a finite run: the labels `ls`
  in the order in which they happened, and the state `s` reached.  Runs grow
  at the END, so an induction over a run speaks about the history so far.

  Rules:
    * `Run.invariant`  — what one step preserves, every reachable state has;
    * `Run.split_mem`  — a label of a run splits the run at that step;
    * `Run.mono`       — a run whose steps all meet a condition is a run;
    * `Run.unique`     — deterministic steps lead to one state;
    * `Run.simulate`   — a run whose steps can all be done on another side;
    * `EachStep.eachState` — what every run of good steps gives, every state of
                         a run whose steps are all good has.
-/
import Mathlib.Data.List.Basic

namespace PicoosLwip.Framework

/-- `Run step s₀ ls s`: from `s₀` the steps `ls`, in order, lead to `s`. -/
inductive Run {σ ℓ : Type} (step : σ → ℓ → σ → Prop) (s₀ : σ) : List ℓ → σ → Prop
  | nil : Run step s₀ [] s₀
  | snoc {ls : List ℓ} {s s' : σ} {l : ℓ} :
      Run step s₀ ls s → step s l s' → Run step s₀ (ls ++ [l]) s'

namespace Run

variable {σ ℓ : Type} {step step' : σ → ℓ → σ → Prop} {s₀ s₁ s₂ : σ} {ls ks : List ℓ} {l : ℓ}

/-- One step is a run. -/
theorem single (h : step s₀ l s₁) : Run step s₀ [l] s₁ := snoc nil h

/-- A run without steps stays where it is. -/
theorem eq_of_nil (h : Run step s₀ [] s₁) : s₁ = s₀ := by
  generalize hls : ([] : List ℓ) = ls at h
  cases h with
  | nil => rfl
  | snoc _ _ => simp at hls

/-- Runs compose. -/
theorem append (h₁ : Run step s₀ ls s₁) (h₂ : Run step s₁ ks s₂) :
    Run step s₀ (ls ++ ks) s₂ := by
  induction h₂ with
  | nil => simpa using h₁
  | snoc _ hstep ih =>
      rw [← List.append_assoc]
      exact snoc ih hstep

/-- A step in front of a run. -/
theorem cons (h₁ : step s₀ l s₁) (h₂ : Run step s₁ ks s₂) : Run step s₀ (l :: ks) s₂ :=
  append (single h₁) h₂

/-- **The invariant rule.**  What holds at the start and is preserved by each
step holds of the state reached. -/
theorem invariant (I : σ → Prop) (h₀ : I s₀)
    (hstep : ∀ s l s', I s → step s l s' → I s') (h : Run step s₀ ls s₁) : I s₁ := by
  induction h with
  | nil => exact h₀
  | snoc _ hs ih => exact hstep _ _ _ ih hs

/-- A label of the run was produced by one of its steps: the run splits into
the part before that step, the step, and the part behind it. -/
theorem split_mem (h : Run step s₀ ls s₁) (hl : l ∈ ls) :
    ∃ pre s s' post, ls = pre ++ l :: post ∧ Run step s₀ pre s ∧ step s l s'
      ∧ Run step s' post s₁ := by
  induction h with
  | nil => simp at hl
  | @snoc ls s s' k hrun hs ih =>
      rcases List.mem_append.mp hl with hl | hl
      · -- the label is one of an earlier step
        obtain ⟨pre, t, t', post, hls, hpre, ht, hpost⟩ := ih hl
        refine ⟨pre, t, t', post ++ [k], ?_, hpre, ht, snoc hpost hs⟩
        rw [hls]
        simp
      · -- it is the last step's
        obtain rfl : l = k := by simpa using hl
        exact ⟨ls, s, s', [], rfl, hrun, hs, nil⟩

/-- A run, taken apart. -/
theorem of_append (h : Run step s₀ (ls ++ ks) s₂) :
    ∃ s₁, Run step s₀ ls s₁ ∧ Run step s₁ ks s₂ := by
  generalize hls : ls ++ ks = ms at h
  induction h generalizing ks with
  | nil =>
      obtain ⟨rfl, rfl⟩ := List.append_eq_nil_iff.mp hls
      exact ⟨_, nil, nil⟩
  | @snoc ms s s' l hrun hs ih =>
      rcases List.eq_nil_or_concat ks with rfl | ⟨ks, k, rfl⟩
      · rw [List.append_nil] at hls
        subst hls
        exact ⟨_, snoc hrun hs, nil⟩
      · rw [List.concat_eq_append, ← List.append_assoc] at hls
        obtain ⟨rfl, hl⟩ := List.append_inj' hls rfl
        obtain rfl : k = l := by simpa using hl
        obtain ⟨s₁, hpre, hpost⟩ := ih rfl
        rw [List.concat_eq_append]
        exact ⟨s₁, hpre, snoc hpost hs⟩

/-- The first step of a run. -/
theorem of_cons (h : Run step s₀ (l :: ks) s₂) : ∃ s₁, step s₀ l s₁ ∧ Run step s₁ ks s₂ := by
  obtain ⟨s₁, hfirst, hrest⟩ : ∃ s₁, Run step s₀ [l] s₁ ∧ Run step s₁ ks s₂ := of_append h
  generalize hls : [l] = ls at hfirst
  cases hfirst with
  | nil => exact absurd hls (by simp)
  | @snoc ms s _ k hrun hs =>
      cases ms with
      | nil =>
          obtain rfl := hrun.eq_of_nil
          obtain rfl : l = k := by simpa using hls
          exact ⟨s₁, hs, hrest⟩
      | cons _ _ => exact absurd hls (by simp)

/-- A weaker step relation has more runs. -/
theorem mono (hle : ∀ s l s', step s l s' → step' s l s') (h : Run step s₀ ls s₁) :
    Run step' s₀ ls s₁ := by
  induction h with
  | nil => exact nil
  | snoc _ hs ih => exact snoc ih (hle _ _ _ hs)

/-- **Deterministic steps lead to one state.** -/
theorem unique (hdet : ∀ s l s' s'', step s l s' → step s l s'' → s' = s'')
    (h : Run step s₀ ls s₁) (h' : Run step s₀ ls s₂) : s₁ = s₂ := by
  induction h generalizing s₂ with
  | nil => exact h'.eq_of_nil.symm
  | snoc _ hs ih =>
      obtain ⟨t, hpre, hlast⟩ := h'.of_append
      obtain ⟨t', hs', hend⟩ := hlast.of_cons
      obtain rfl := ih hpre
      obtain rfl := hend.eq_of_nil
      exact hdet _ _ _ _ hs hs'

/-- **The simulation rule.**  Where each step can be done on the other side, every run
can. -/
theorem simulate {τ : Type} {step' : τ → ℓ → τ → Prop} {R : σ → τ → Prop} {t₀ : τ}
    (hstep : ∀ s l s' t, R s t → step s l s' → ∃ t', step' t l t' ∧ R s' t')
    (h₀ : R s₀ t₀) (h : Run step s₀ ls s₁) : ∃ t₁, Run step' t₀ ls t₁ ∧ R s₁ t₁ := by
  induction h with
  | nil => exact ⟨t₀, nil, h₀⟩
  | snoc _ hs ih =>
      obtain ⟨t, hrun, hR⟩ := ih
      obtain ⟨t', hs', hR'⟩ := hstep _ _ _ _ hR hs
      exact ⟨t', snoc hrun hs', hR'⟩

end Run

/-! ## What holds all along a run. -/

section Along

variable {σ ℓ : Type} {step : σ → ℓ → σ → Prop} {s₀ s₁ : σ} {ls pre post : List ℓ}

/-- Every state that the steps `ls` lead through meets `I`, which may speak
about the steps so far. -/
def EachState (step : σ → ℓ → σ → Prop) (s₀ : σ) (I : List ℓ → σ → Prop) (ls : List ℓ) : Prop :=
  ∀ pre post s, ls = pre ++ post → Run step s₀ pre s → I pre s

/-- Every one of the steps `ls` meets `P`, between the states it happens in. -/
def EachStep (step : σ → ℓ → σ → Prop) (s₀ : σ) (P : σ → ℓ → σ → Prop) (ls : List ℓ) : Prop :=
  ∀ pre l post s s', ls = pre ++ l :: post → Run step s₀ pre s → step s l s' → P s l s'

/-- The steps of a prefix are steps of the run. -/
theorem EachStep.of_append {P : σ → ℓ → σ → Prop} (h : EachStep step s₀ P (pre ++ post)) :
    EachStep step s₀ P pre := by
  intro pre' l post' s s' hpre hrun hs
  refine h pre' l (post' ++ post) s s' ?_ hrun hs
  rw [hpre]
  simp

/-- A run whose steps all meet `P` is a run of the steps that do. -/
theorem Run.restrict {P : σ → ℓ → σ → Prop} (h : Run step s₀ ls s₁)
    (hP : EachStep step s₀ P ls) : Run (fun s l s' => step s l s' ∧ P s l s') s₀ ls s₁ := by
  induction h with
  | nil => exact .nil
  | @snoc ls s s' k hrun hs ih =>
      exact .snoc (ih hP.of_append) ⟨hs, hP ls k [] s s' rfl hrun hs⟩

/-- **From good steps to good states.**  What every run of steps with `P` gives,
every state of a run has whose steps all have `P`. -/
theorem EachStep.eachState {P : σ → ℓ → σ → Prop} {I : List ℓ → σ → Prop}
    (h : EachStep step s₀ P ls)
    (hI : ∀ ls s, Run (fun s l s' => step s l s' ∧ P s l s') s₀ ls s → I ls s) :
    EachState step s₀ I ls := by
  rintro pre post s rfl hrun
  exact hI pre s (hrun.restrict h.of_append)

/-- The first of the steps happens in `s₀`; `P` of a step is left to show for
that one and for those behind it. -/
theorem EachStep.cons {P : σ → ℓ → σ → Prop} {l : ℓ} (hfirst : ∀ s', step s₀ l s' → P s₀ l s')
    (hlater : ∀ k ∈ ls, ∀ s s', step s k s' → P s k s') : EachStep step s₀ P (l :: ls) := by
  intro pre k post s s' hls hrun hs
  cases pre with
  | nil =>
      obtain ⟨rfl, -⟩ := List.cons.inj hls
      obtain rfl := hrun.eq_of_nil
      exact hfirst s' hs
  | cons _ pre =>
      obtain ⟨-, htail⟩ := List.cons.inj hls
      refine hlater k ?_ s s' hs
      rw [htail]
      exact List.mem_append_right _ (List.mem_cons_self ..)

end Along

end PicoosLwip.Framework
