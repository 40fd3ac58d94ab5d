/-
  PicoosLwip.Framework.Ownership — resources along a list of events.

  An event may acquire, use or release a resource.  A list of events keeps to the
  life of its resources if nothing is used behind its release.

  Rules:
    * `noUseAfterRelease_append` — a part in front that releases nothing can be
                             left out of the account;
    * `releases_append`, `acquisitions_append` — counted part by part.
-/
import Mathlib.Data.List.Basic

namespace PicoosLwip.Framework

/-- What the events `ε` do with the resources `ρ`. -/
structure Usage (ε ρ : Type) where
  acquired : ε → Option ρ
  used : ε → Option ρ
  released : ε → Option ρ

namespace Usage

/-! ## §1. Nothing is used behind its release. -/

section Order

variable {ε ρ : Type} (U : Usage ε ρ)

/-- No event uses what an earlier one released. -/
def NoUseAfterRelease (es : List ε) : Prop :=
  es.Pairwise fun e e' => ∀ r, U.released e = some r → U.used e' ≠ some r

/-- No event releases anything. -/
def KeepsAll (es : List ε) : Prop := ∀ e ∈ es, U.released e = none

variable {U} {es es' : List ε}

/-- Two logs in a row. -/
theorem KeepsAll.append (h : U.KeepsAll es) (h' : U.KeepsAll es') : U.KeepsAll (es ++ es') :=
  List.forall_mem_append.mpr ⟨h, h'⟩

/-- Nothing is used. -/
theorem noUseAfterRelease_nil : U.NoUseAfterRelease [] := List.Pairwise.nil

/-- An event may not release what a later one uses. -/
theorem noUseAfterRelease_cons {e : ε} : U.NoUseAfterRelease (e :: es)
    ↔ (∀ e' ∈ es, ∀ r, U.released e = some r → U.used e' ≠ some r) ∧ U.NoUseAfterRelease es :=
  List.pairwise_cons

/-- **A part that releases nothing** adds nothing to what must not be used. -/
theorem noUseAfterRelease_append (h : U.KeepsAll es) :
    U.NoUseAfterRelease (es ++ es') ↔ U.NoUseAfterRelease es' := by
  have hfirst : ∀ e ∈ es, ∀ e' r, U.released e = some r → U.used e' ≠ some r := by
    intro e he e' r hr
    rw [h e he] at hr
    exact absurd hr (by simp)
  unfold NoUseAfterRelease
  rw [List.pairwise_append]
  constructor
  · exact fun hall => hall.2.1
  · intro hrest
    refine ⟨?_, hrest, ?_⟩
    · exact List.pairwise_of_forall_mem_list fun e he e' _ => hfirst e he e'
    · exact fun e he e' _ => hfirst e he e'

/-- The parts of such a list. -/
theorem NoUseAfterRelease.left (h : U.NoUseAfterRelease (es ++ es')) : U.NoUseAfterRelease es :=
  (List.pairwise_append.mp h).1

/-- The later part of a log is a log. -/
theorem NoUseAfterRelease.right (h : U.NoUseAfterRelease (es ++ es')) : U.NoUseAfterRelease es' :=
  (List.pairwise_append.mp h).2.1

end Order

/-! ## §2. How often. -/

section Count

variable {ε ρ : Type} [DecidableEq ρ] (U : Usage ε ρ)

/-- How often `r` is acquired. -/
def acquisitions (r : ρ) (es : List ε) : Nat := es.countP fun e => U.acquired e = some r

/-- How often `r` is released. -/
def releases (r : ρ) (es : List ε) : Nat := es.countP fun e => U.released e = some r

variable {U} {es es' : List ε} {r : ρ}

@[simp] theorem acquisitions_append :
    U.acquisitions r (es ++ es') = U.acquisitions r es + U.acquisitions r es' :=
  List.countP_append

@[simp] theorem releases_append :
    U.releases r (es ++ es') = U.releases r es + U.releases r es' := List.countP_append

theorem KeepsAll.releases_eq_zero (h : U.KeepsAll es) : U.releases r es = 0 := by
  unfold releases
  rw [List.countP_eq_zero]
  intro e he
  simp [h e he]

end Count

end Usage

end PicoosLwip.Framework
