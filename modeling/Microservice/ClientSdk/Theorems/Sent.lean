import Microservice.ClientSdk.Theorems.Places

-- The id with which a call that has got it is going to be sent.
def SdkCall.rid : SdkCall → Option UInt32
  | .adding rid _ | .sending rid => some rid
  | _                            => none

namespace SdkCalls

section

def Event.sends (i : Nat) : Event → Bool
  | .sent j _ => j = i
  | _         => false

-- The id is the one that the callback of the call is registered under, if there is a callback.
def Registered (es : List Event) (i : Nat) (rid : UInt32) : Prop :=
  rid ≠ 0 → ∃ endTime, .register i rid endTime ∈ es

-- The call has the id.
abbrev Carries (s : SdkCalls) (i : Nat) (rid : UInt32) : Prop :=
  ∃ c, s.calls[i]? = some c ∧ c.rid = some rid

-- The call has returned.
abbrev Returned (s : SdkCalls) (i : Nat) : Prop :=
  s.calls[i]? = some .returned

end

variable {s s' : SdkCalls} {e : Event} {es : List Event} {rid : UInt32} {i j : Nat} {c : SdkCall}

theorem Registered.snoc (h : Registered es i rid) : Registered (es ++ [e]) i rid := by
  intro hne
  obtain ⟨endTime, hm⟩ := h hne
  exact ⟨endTime, List.mem_append_left _ hm⟩

-- A request is sent with the id of its own callback, and once.
structure Sending (es : List Event) (s : SdkCalls) : Prop where
  carried  : ∀ i rid, s.Carries i rid → Registered es i rid
  sent     : ∀ i rid, .sent i rid ∈ es → Registered es i rid
  returned : ∀ i rid, .sent i rid ∈ es → s.Returned i
  once     : ∀ i, es.countP (Event.sends i) ≤ 1

theorem init_sending : Sending [] init := by
  constructor <;> simp [init]

-- A step that sends nothing.
theorem Sending.quiet (h : Sending es s) (he : ∀ i, e.sends i = false)
    (hc : ∀ i rid, s'.Carries i rid → Registered (es ++ [e]) i rid) (hr : ∀ i, s.Returned i → s'.Returned i) :
    Sending (es ++ [e]) s' := by
  have hold : ∀ i rid, .sent i rid ∈ es ++ [e] → .sent i rid ∈ es := by
    intro i rid hm
    obtain hm | hm := List.mem_append.mp hm
    · exact hm
    · have hi := he i
      rw [← List.mem_singleton.mp hm] at hi
      simp [Event.sends] at hi
  constructor
  case carried  => exact hc
  case sent     => exact fun i rid hm => (h.sent i rid (hold i rid hm)).snoc
  case returned => exact fun i rid hm => hr i (h.returned i rid (hold i rid hm))
  case once     =>
    intro i
    rw [List.countP_append, List.countP_singleton, he i]
    exact h.once i

theorem carries_setCall (h : (s.setCall i c).Carries j rid) : (j = i ∧ c.rid = some rid) ∨ s.Carries j rid := by
  obtain ⟨c', hj, hc⟩ := h
  obtain ⟨rfl, rfl⟩ | ⟨_, hj⟩ := List.getElem?_set_cases hj
  · exact .inl ⟨rfl, hc⟩
  · exact .inr ⟨c', hj, hc⟩

-- A call that takes a step has not returned before.
theorem returned_setCall {c' : SdkCall} (hi : s.calls[i]? = some c') (hc : c' ≠ .returned) (hj : s.Returned j) :
    (s.setCall i c).Returned j := by
  have hij : i ≠ j := by
    rintro rfl
    exact hc (Option.some.inj (hi.symm.trans hj))
  exact (List.getElem?_set_ne hij).trans hj

theorem Sending.send (h : Sending es s) (hi : s.calls[i]? = some (.sending rid)) :
    Sending (es ++ [.sent i rid]) (s.setCall i .returned) := by
  have hnew : ∀ rid', .sent i rid' ∉ es := fun rid' hm => nomatch hi.symm.trans (h.returned i rid' hm)
  constructor
  case carried =>
    intro j rid' hj
    obtain ⟨_, hr⟩ | hj := carries_setCall hj
    · cases hr
    · exact (h.carried j rid' hj).snoc
  case sent =>
    intro j rid' hm
    obtain hm | hm := List.mem_append.mp hm
    · exact (h.sent j rid' hm).snoc
    · cases List.mem_singleton.mp hm
      exact (h.carried i rid ⟨_, hi, rfl⟩).snoc
  case returned =>
    intro j rid' hm
    obtain hm | hm := List.mem_append.mp hm
    · exact returned_setCall hi nofun (h.returned j rid' hm)
    · cases List.mem_singleton.mp hm
      exact List.getElem?_set_of_eq_some hi
  case once =>
    intro j
    rw [List.countP_append, List.countP_singleton]
    split
    case isFalse    => exact h.once j
    case isTrue hij =>
      cases of_decide_eq_true hij
      have hz : es.countP (Event.sends i) = 0 := by
        refine List.countP_eq_zero.mpr fun e hm he => ?_
        cases e <;> try cases he
        case sent k rid' =>
          cases of_decide_eq_true he
          exact hnew rid' hm
      omega

theorem Step.sending (hs : Step s e s') (h : Sending es s) : Sending (es ++ [e]) s' := by
  cases hs
  case sent hi => exact h.send hi
  case rpcCall =>
    refine h.quiet (fun _ => rfl) (fun i rid hi => ?_) fun i hi => List.getElem?_append_of_eq_some hi
    obtain ⟨c, hi, hc⟩ := hi
    obtain hi | ⟨_, rfl⟩ := List.getElem?_concat_cases hi
    · exact (h.carried i rid ⟨c, hi, hc⟩).snoc
    · cases hc
  case noCallBack hi =>
    refine h.quiet (fun _ => rfl) (fun j rid hj => ?_) fun j => returned_setCall hi nofun
    obtain ⟨_, hr⟩ | hj := carries_setCall hj
    · cases hr
      exact fun hne => absurd rfl hne
    · exact (h.carried j rid hj).snoc
  case genGid hi =>
    refine h.quiet (fun _ => rfl) (fun j rid hj => ?_) fun j => returned_setCall hi nofun
    obtain ⟨_, hr⟩ | hj := carries_setCall (s := s) hj
    · cases hr
    · exact (h.carried j rid hj).snoc
  case register hi =>
    refine h.quiet (fun _ => rfl) (fun j rid hj => ?_) fun j => returned_setCall hi nofun
    obtain ⟨rfl, hr⟩ | hj := carries_setCall (s := s) hj
    · cases hr
      exact fun _ => ⟨_, List.mem_append_right _ (List.mem_singleton.mpr rfl)⟩
    · exact (h.carried j rid hj).snoc
  case added hi _ =>
    refine h.quiet (fun _ => rfl) (fun j rid hj => ?_) fun j => returned_setCall hi nofun
    obtain ⟨rfl, hr⟩ | hj := carries_setCall (s := s) hj
    · cases hr
      exact (h.carried _ _ ⟨_, hi, rfl⟩).snoc
    · exact (h.carried j rid hj).snoc
  case getNil | get | deleted | callBack | mgr =>
    exact h.quiet (fun _ => rfl) (fun j rid hj => (h.carried j rid hj).snoc) fun _ hj => hj

theorem sending_of_exec (h : Exec Step init es s) : Sending es s :=
  h.invariant init_sending fun _ _ _ _ _ hi hs => hs.sending hi

end SdkCalls
