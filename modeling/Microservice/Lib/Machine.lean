import Mathlib.Logic.Basic

-- A machine whose steps can fail. A failed step ends the run.
namespace Machine

variable {σ α : Type*} (step : σ → α → Option σ)

-- No step of the run fails, and each of its states satisfies `I`.
def Always (I : σ → Prop) : σ → List α → Prop
  | s, []      => I s
  | s, e :: es => I s ∧ ∃ s', step s e = some s' ∧ Always I s' es

-- Each step of the run is taken in a state in which it meets `C`.
def Each (C : σ → α → Prop) : σ → List α → Prop
  | _, []      => True
  | s, e :: es => C s e ∧ ∀ s', step s e = some s' → Each C s' es

variable {step} {I : σ → Prop} {C : σ → α → Prop} {s : σ} {es : List α}

theorem Always.start (h : Always step I s es) : I s := by
  cases es
  case nil  => exact h
  case cons => exact h.left

-- Where `C` is exactly what a step needs to succeed and to preserve `I`, it is exactly what a run
-- needs.
theorem always_iff_each (preserved : ∀ s e, I s → ((∃ s', step s e = some s' ∧ I s') ↔ C s e))
    (init : I s) : Always step I s es ↔ Each step C s es := by
  induction es generalizing s
  case nil => simp [Always, Each, init]
  case cons e es hi =>
    constructor
    case mp =>
      intro ⟨_, s', hs', h⟩
      refine ⟨(preserved s e init).mp ⟨s', hs', h.start⟩, fun t ht => ?_⟩
      cases hs'.symm.trans ht
      exact (hi h.start).mp h
    case mpr =>
      intro ⟨hC, h⟩
      have ⟨s', hs', hI⟩ := (preserved s e init).mpr hC
      exact ⟨init, s', hs', (hi hI).mpr (h s' hs')⟩

end Machine
