import Mathlib.Logic.Relation
import Mathlib.Data.List.Basic

-- A finite execution of a labelled step relation, starting in `s₀`: the list records the labels
-- of the steps taken, oldest first.
inductive Exec {σ α : Type*} (step : σ → α → σ → Prop) (s₀ : σ) : List α → σ → Prop
  | refl : Exec step s₀ [] s₀
  | snoc {es : List α} {s s' : σ} {e : α} :
    Exec step s₀ es s → step s e s' → Exec step s₀ (es ++ [e]) s'

namespace Exec

variable {σ α : Type*} {step step' : σ → α → σ → Prop} {s₀ s s' : σ} {e : α} {es es' : List α}

theorem single (h : step s e s') : Exec step s [e] s' :=
  snoc refl h

theorem trans (h : Exec step s₀ es s) (h' : Exec step s es' s') : Exec step s₀ (es ++ es') s' := by
  induction h'
  case refl           => simpa using h
  case snoc hstep hi  => exact List.append_assoc .. ▸ hi.snoc hstep

theorem cons (h : step s₀ e s) (h' : Exec step s es s') : Exec step s₀ (e :: es) s' :=
  (single h).trans h'

theorem nil_iff : Exec step s [] s' ↔ s = s' := by
  refine ⟨fun h => ?_, fun h => h ▸ refl⟩
  generalize hes : [] = es at h
  cases h
  case refl => rfl
  case snoc => simp at hes

theorem cons_iff : Exec step s (e :: es) s' ↔ ∃ s₁, step s e s₁ ∧ Exec step s₁ es s' := by
  refine ⟨fun h => ?_, fun ⟨_, hs, h⟩ => cons hs h⟩
  generalize hes : e :: es = es' at h
  induction h generalizing es
  case refl => cases hes
  case snoc es' s s' e' h hstep hi =>
    cases es'
    case nil =>
      cases hes
      cases nil_iff.mp h
      exact ⟨s', hstep, refl⟩
    case cons =>
      cases hes
      have ⟨s₁, hs, h⟩ := hi rfl
      exact ⟨s₁, hs, h.snoc hstep⟩

theorem append_iff : Exec step s (es ++ es') s' ↔ ∃ s₁, Exec step s es s₁ ∧ Exec step s₁ es' s' := by
  refine ⟨fun h => ?_, fun ⟨_, h, h'⟩ => h.trans h'⟩
  induction es generalizing s
  case nil => exact ⟨s, refl, h⟩
  case cons hi =>
    obtain ⟨s₂, hs, h⟩ := cons_iff.mp h
    obtain ⟨s₁, h, h'⟩ := hi h
    exact ⟨s₁, h.cons hs, h'⟩

theorem mono (hm : ∀ s e s', step s e s' → step' s e s') (h : Exec step s₀ es s) :
    Exec step' s₀ es s := by
  induction h
  case refl          => exact refl
  case snoc hstep hi => exact hi.snoc (hm _ _ _ hstep)

-- An execution that is computed.
theorem of_foldlM {f : σ → α → Option σ} (hf : ∀ s e s', f s e = some s' → step s e s')
    (h : es.foldlM f s = some s') : Exec step s es s' := by
  induction es generalizing s
  case nil => cases h; exact refl
  case cons e es hi =>
    rw [List.foldlM_cons] at h
    obtain ⟨s₁, hs₁, h⟩ := Option.bind_eq_some_iff.mp h
    exact cons (hf s e s₁ hs₁) (hi h)

-- The invariant rule: what holds at the start and is preserved by each step of the execution holds
-- at its end. The invariant may mention the labels of the steps taken so far.
theorem invariant {I : List α → σ → Prop} (init : I [] s₀)
    (preserved : ∀ es s e s', Exec step s₀ es s → I es s → step s e s' → I (es ++ [e]) s')
    (h : Exec step s₀ es s) : I es s := by
  induction h
  case refl               => exact init
  case snoc es _ _ _ hs hstep hi => exact preserved _ _ _ _ hs hi hstep

-- The same rule for an invariant of the states alone.
theorem preserves {I : σ → Prop} (init : I s₀)
    (preserved : ∀ s e s', I s → step s e s' → I s') (h : Exec step s₀ es s) : I s :=
  h.invariant (I := fun _ s => I s) init (fun _ s e s' _ => preserved s e s')

-- The progress rule: `R n s` says that the state is good and at most `n` away from the goal. If one gets
-- closer from every good state outside of the goal, then the goal can be reached.
theorem reach {R : Nat → σ → Prop} {G : σ → Prop} {P : α → Prop} {n : Nat}
    (closer : ∀ n s, R n s → ¬G s →
      ∃ es s' n', Exec step s es s' ∧ (∀ e ∈ es, P e) ∧ R n' s' ∧ n' < n) (h : R n s) :
    ∃ es s', Exec step s es s' ∧ (∀ e ∈ es, P e) ∧ (∃ n', R n' s') ∧ G s' := by
  induction n using Nat.strongRecOn generalizing s
  case ind n hi =>
    by_cases hg : G s
    case pos => exact ⟨[], s, refl, by simp, ⟨n, h⟩, hg⟩
    case neg =>
      obtain ⟨es₁, s₁, n₁, h₁, hp₁, hr, hn⟩ := closer n s h hg
      obtain ⟨es₂, s₂, h₂, hp₂, hr₂, hg₂⟩ := hi n₁ hn hr
      refine ⟨es₁ ++ es₂, s₂, h₁.trans h₂, fun e he => ?_, hr₂, hg₂⟩
      exact (List.mem_append.mp he).elim (hp₁ e) (hp₂ e)

-- An execution of a system is an execution of one of its components, as far as its steps concern the
-- component.
theorem project {σ' α' : Type*} {step' : σ' → α' → σ' → Prop} (π : σ → σ') (f : α → Option α')
    (idle : ∀ s e s', step s e s' → f e = none → π s' = π s)
    (active : ∀ s e s' e', step s e s' → f e = some e' → step' (π s) e' (π s'))
    (h : Exec step s₀ es s) : Exec step' (π s₀) (es.filterMap f) (π s) := by
  induction h
  case refl => exact refl
  case snoc s s' e _ hstep hi =>
    cases he : f e
    case none    => simpa [List.filterMap_append, he, idle s e s' hstep he] using hi
    case some e' => simpa [List.filterMap_append, he] using hi.snoc (active s e s' e' hstep he)

-- An execution of a component is one of the system, where the steps of the component are steps of the system.
theorem map {σ' α' : Type*} {step' : σ' → α' → σ' → Prop} (f : σ → σ') (g : α → α')
    (hf : ∀ s e s', step s e s' → step' (f s) (g e) (f s')) (h : Exec step s₀ es s) :
    Exec step' (f s₀) (es.map g) (f s) := by
  induction h
  case refl          => exact refl
  case snoc hstep hi => simpa using hi.snoc (hf _ _ _ hstep)

end Exec
