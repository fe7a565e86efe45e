import Microservice.Framework.Balancing
import Microservice.Framework.Theorems.LoadBalancer
import Microservice.Lib.Positions
import Microservice.Lib.RoundRobin

namespace Balancing

open LoadBalancer (Call)

variable {l lb : LoadBalancer} {s s' s₁ : Balancing} {e : Event} {es : List Event} {i : Nat} {ele : String}
  {call : Call}

-- The call with the number `i` has taken its copy of the elements in the state `s₁` of the run.
def Taken (l : LoadBalancer) (es : List Event) (i : Nat) (s₁ : Balancing) : Prop :=
  ∃ es₁ es₂, es = es₁ ++ .snapshot i :: es₂ ∧ Exec Step (start l) es₁ s₁

theorem Taken.snoc (h : Taken l es i s₁) : Taken l (es ++ [e]) i s₁ := by
  obtain ⟨es₁, es₂, rfl, h⟩ := h
  exact ⟨es₁, es₂ ++ [e], by simp, h⟩

theorem Taken.now (h : Exec Step (start l) es s) : Taken l (es ++ [.snapshot i]) i s :=
  ⟨es, [], rfl, h⟩

-- What a call may choose: nothing if there is nothing in the set, and an element of the set otherwise.
def Choosable (lb : LoadBalancer) (ele : String) : Prop :=
  (∀ ele', ele' ∉ lb) ∧ ele = "" ∨ ele ∈ lb

-- What a call has got from the copy that it has taken.
def Traced (l : LoadBalancer) (es : List Event) (i : Nat) : Call → Prop
  | .snapshot                  => True
  | .cursor m                  => ∃ s₁, Taken l es i s₁ ∧ m = s₁.lb.snapshot ∧ m ≠ []
  | .weight ele | .returned ele => ∃ s₁, Taken l es i s₁ ∧ Choosable s₁.lb ele
  | .panicked                  => False

theorem Traced.snoc (h : Traced l es i call) : Traced l (es ++ [e]) i call := by
  cases call
  case snapshot => trivial
  case cursor m =>
    obtain ⟨s₁, ht, hm⟩ := h
    exact ⟨s₁, ht.snoc, hm⟩
  case weight ele | returned ele =>
    obtain ⟨s₁, ht, hc⟩ := h
    exact ⟨s₁, ht.snoc, hc⟩
  case panicked => exact h

def AllTraced (l : LoadBalancer) (es : List Event) (s : Balancing) : Prop :=
  ∀ i call, s.calls[i]? = some call → Traced l es i call

theorem AllTraced.setCall (h : AllTraced l es s) (hc : Traced l (es ++ [e]) i call) :
    AllTraced l (es ++ [e]) (s.setCall i lb call) := by
  intro j call' hj
  obtain ⟨rfl, rfl⟩ | ⟨_, hj⟩ := List.getElem?_set_cases hj
  · exact hc
  · exact (h j call' hj).snoc

theorem AllTraced.step (hr : Exec Step (start l) es s) (h : AllTraced l es s) (hs : Step s e s') :
    AllTraced l (es ++ [e]) s' := by
  cases hs
  case addElement | delElement => exact fun i call hi => (h i call hi).snoc
  case loadBalance =>
    intro i call hi
    obtain hi | ⟨_, rfl⟩ := List.getElem?_concat_cases hi
    · exact (h i call hi).snoc
    · trivial
  case noElements i hi hn =>
    exact h.setCall ⟨s, .now hr, .inl ⟨LoadBalancer.snapshot_eq_nil_iff.mp hn, rfl⟩⟩
  case snapshot i hi hn => exact h.setCall ⟨s, .now hr, rfl, hn⟩
  case cursor i m lb ele hi hm =>
    obtain ⟨s₁, ht, rfl, _⟩ := h i _ hi
    have hele := LoadBalancer.mem_snapshot.mp (LoadBalancer.mem_of_moveCursor hm)
    exact h.setCall ⟨s₁, ht.snoc, .inr hele⟩
  case outOfRange i m lb hi hm =>
    -- The copy is not empty, so the cursor is in it.
    obtain ⟨_, _, _, hn⟩ := h i _ hi
    obtain ⟨_, _, hm'⟩ := s.lb.moveCursor_isSome hn
    cases hm.symm.trans hm'
  case weight i ele hi => exact h.setCall (h i _ hi).snoc

theorem allTraced_of_exec (h : Exec Step (start l) es s) : AllTraced l es s := by
  refine h.invariant ?_ fun _ _ _ _ hr hi hs => hi.step hr hs
  intro i call hi
  simp [start] at hi

-- A critical section of `LoadBalance`, not one of `AddElement` or `DelElement`.
def Event.Balances : Event → Prop
  | .addElement _ | .delElement _ => False
  | _                             => True

theorem Step.keys (hs : Step s e s') (he : e.Balances) : s'.lb.elements.keys = s.lb.elements.keys := by
  cases hs
  case addElement | delElement => exact he.elim
  case cursor hm | outOfRange hm =>
    rw [LoadBalancer.moveCursor_eq, Prod.mk.injEq] at hm
    rw [←hm.1]
    rfl
  case weight => exact LoadBalancer.keys_addWeight
  all_goals rfl

-- Only the last section of a call writes to a weight: to that of the element that it returns.
theorem Step.weight_cases (hs : Step s e s') (he : e.Balances)
    (hne : s'.lb.elements.lookup ele ≠ s.lb.elements.lookup ele) :
    ∃ i w, e = .weight i ∧ s'.calls[i]? = some (.returned ele) ∧
      s.lb.elements.lookup ele = some w ∧ s'.lb.elements.lookup ele = some (w + 1) := by
  cases hs
  case addElement | delElement => exact he.elim
  case cursor hm | outOfRange hm =>
    rw [LoadBalancer.moveCursor_eq, Prod.mk.injEq] at hm
    rw [←hm.1] at hne
    exact absurd rfl hne
  case weight i ele' hi =>
    rw [setCall, LoadBalancer.lookup_addWeight] at hne
    split at hne
    case isFalse => exact absurd rfl hne
    case isTrue he =>
      subst he
      cases hw : s.lb.elements.lookup ele
      case none   => simp [hw] at hne
      case some w =>
        refine ⟨i, w, rfl, List.getElem?_set_of_eq_some hi, rfl, ?_⟩
        rw [setCall, LoadBalancer.lookup_addWeight, if_pos rfl, hw, Option.map_some]
  all_goals exact absurd rfl hne

theorem loadBalance_safe (h : Exec Step (start l) es s) :
    (∀ (i : Nat) m, s.calls[i]? = some (.cursor m) →
      (s.lb.cursor m).toNat < m.length ∧
      (s.lb.cursor m + 1).toNat = (s.lb.cursor m).toNat + 1) ∧
    (∀ i : Nat, s.calls[i]? ≠ some .panicked) ∧
    (∀ i ele, s.calls[i]? = some (.returned ele) → ∃ s₁, Taken l es i s₁ ∧
      (ele = "" → (∀ ele', ele' ∉ s₁.lb) ∨ "" ∈ s₁.lb) ∧ ((∃ ele', ele' ∈ s₁.lb) → ele ∈ s₁.lb)) ∧
    ∀ e s', Step s e s' → e.Balances →
      (∀ ele, ele ∈ s'.lb ↔ ele ∈ s.lb) ∧
      ∀ ele, s'.lb.elements.lookup ele ≠ s.lb.elements.lookup ele →
        ∃ i w, e = .weight i ∧ s'.calls[i]? = some (.returned ele) ∧
          s.lb.elements.lookup ele = some w ∧ s'.lb.elements.lookup ele = some (w + 1) := by
  have ht := allTraced_of_exec h
  refine ⟨fun i m hi => ?_, fun i hi => ht i _ hi, fun i ele hi => ?_, fun e s' hs he => ⟨?_, ?_⟩⟩
  · obtain ⟨_, _, _, hn⟩ := ht i _ hi
    exact ⟨LoadBalancer.cursor_lt hn, LoadBalancer.cursor_add_one⟩
  · obtain ⟨s₁, ht, hc⟩ := ht i _ hi
    refine ⟨s₁, ht, fun he => ?_, fun ⟨ele', he⟩ => ?_⟩
    · exact hc.imp And.left (he ▸ ·)
    · exact hc.resolve_left fun hn => hn.1 ele' he
  · intro ele
    rw [←LoadBalancer.mem_keys, hs.keys he, LoadBalancer.mem_keys]
  · exact fun ele => hs.weight_cases he

-- A run that is computed.
def step (s : Balancing) : Event → Option Balancing
  | .addElement ele => some { s with lb := (s.lb.addElement ele).fst }
  | .delElement ele => some { s with lb := (s.lb.delElement ele).fst }
  | .loadBalance    => some { s with calls := s.calls ++ [.snapshot] }
  | .snapshot i     =>
    match s.calls[i]? with
    | some .snapshot =>
      some (s.setCall i s.lb (if s.lb.snapshot = [] then .weight "" else .cursor s.lb.snapshot))
    | _ => none
  | .cursor i ele   =>
    match s.calls[i]? with
    | some (.cursor m) =>
      if (s.lb.moveCursor m).snd = some ele then
        some (s.setCall i (s.lb.moveCursor m).fst (.weight ele))
      else
        none
    | _ => none
  | .outOfRange i   =>
    match s.calls[i]? with
    | some (.cursor m) =>
      if (s.lb.moveCursor m).snd = none then some (s.setCall i (s.lb.moveCursor m).fst .panicked) else none
    | _ => none
  | .weight i       =>
    match s.calls[i]? with
    | some (.weight ele) => some (s.setCall i (s.lb.addWeight ele) (.returned ele))
    | _                  => none

theorem Step.of_step (h : s.step e = some s') : Step s e s' := by
  unfold Balancing.step at h
  split at h
  case h_1 => cases h; exact .addElement _
  case h_2 => cases h; exact .delElement _
  case h_3 => cases h; exact .loadBalance
  case h_4 =>
    split at h <;> cases h
    case h_1 hi =>
      split
      case isTrue hn  => exact .noElements hi hn
      case isFalse hn => exact .snapshot hi hn
  case h_5 =>
    split at h <;> try cases h
    case h_1 hi =>
      split at h <;> cases h
      case isTrue hm => exact .cursor hi (Prod.ext rfl hm)
  case h_6 =>
    split at h <;> try cases h
    case h_1 hi =>
      split at h <;> cases h
      case isTrue hm => exact .outOfRange hi (Prod.ext rfl hm)
  case h_7 =>
    split at h <;> cases h
    case h_1 hi => exact .weight hi

-- The element that a call has returned.
def returned (s : Balancing) (i : Nat) : Option String :=
  match s.calls[i]? with
  | some (.returned ele) => some ele
  | _                    => none

theorem calls_of_returned (h : s.returned i = some ele) : s.calls[i]? = some (.returned ele) := by
  unfold returned at h
  split at h <;> cases h
  assumption

-- Two calls at once, while one element goes and another one comes. The first call returns an element that is
-- gone by then, the second one has the new element in its copy.
theorem loadBalance_safe_changing :
    ∃ es s, Exec Step (start .empty) es s ∧
      es = [.addElement "a", .addElement "b", .loadBalance, .loadBalance, .snapshot 0, .delElement "a",
        .addElement "c", .snapshot 1, .cursor 0 "a", .cursor 1 "c", .weight 1, .weight 0] ∧
      "a" ∉ s.lb ∧ s.lb.elements.lookup "c" = some 1 ∧ (∀ i : Nat, s.calls[i]? ≠ some .panicked) ∧
      (∃ s₁, Taken .empty es 0 s₁ ∧ ((∃ ele, ele ∈ s₁.lb) → "a" ∈ s₁.lb)) ∧
      ∃ s₁, Taken .empty es 1 s₁ ∧ ((∃ ele, ele ∈ s₁.lb) → "c" ∈ s₁.lb) := by
  let es : List Event := [.addElement "a", .addElement "b", .loadBalance, .loadBalance, .snapshot 0,
    .delElement "a", .addElement "c", .snapshot 1, .cursor 0 "a", .cursor 1 "c", .weight 1, .weight 0]
  have hr : ((es.foldlM step (start .empty)).any fun s =>
      "a" ∉ s.lb && s.lb.elements.lookup "c" = some 1 && s.returned 0 = some "a" &&
      s.returned 1 = some "c") = true := by
    decide +kernel
  simp only [Option.any_eq_true, Bool.and_eq_true, decide_eq_true_eq] at hr
  obtain ⟨s, hx, ⟨⟨ha, hc⟩, h₀⟩, h₁⟩ := hr
  have hrun : Exec Step (start .empty) es s := .of_foldlM (fun _ _ _ => Step.of_step) hx
  have ⟨_, hsafe, hret, _⟩ := loadBalance_safe hrun
  obtain ⟨s₁, ht₁, _, hmem₁⟩ := hret 0 "a" (calls_of_returned h₀)
  obtain ⟨s₂, ht₂, _, hmem₂⟩ := hret 1 "c" (calls_of_returned h₁)
  exact ⟨es, s, hrun, rfl, ha, hc, hsafe, ⟨s₁, ht₁, hmem₁⟩, s₂, ht₂, hmem₂⟩

-- The empty string may be an element.
theorem returns_empty_element :
    ∃ l es₁ es₂ s₁ s, Exec Step (start l) es₁ s₁ ∧ "" ∈ s₁.lb ∧
      Exec Step s₁ (.snapshot 0 :: es₂) s ∧ s.calls[0]? = some (.returned "") := by
  let l : LoadBalancer := (LoadBalancer.empty.addElement "").fst
  refine ⟨l, [.loadBalance], [.cursor 0 "", .weight 0], _, _, .single .loadBalance, by decide,
    .cons (.snapshot rfl (by decide)) (.cons (.cursor rfl rfl) (.single (.weight rfl))), rfl⟩

-- The elements that the calls of a run choose, in the order of their cursor steps.
def Event.chosen : Event → Option String
  | .cursor _ ele => some ele
  | _             => none

def chosen (es : List Event) : List String :=
  es.filterMap Event.chosen

-- The steps while no elements come or go.
def CallStep (s : Balancing) (e : Event) (s' : Balancing) : Prop :=
  Step s e s' ∧ e.Balances

-- The copies that the calls have taken are of the elements that there are.
def Current (s : Balancing) : Prop :=
  ∀ m, .cursor m ∈ s.calls → m = s.lb.snapshot

-- Whatever calls there are and however their sections are interleaved: as many consecutive cursor steps as
-- there are elements choose each of them once.
def Fair (l : LoadBalancer) : Prop :=
  ∀ calls es s, Current ⟨l, calls⟩ → Exec CallStep ⟨l, calls⟩ es s →
    (∀ xs ys zs, chosen es = xs ++ ys ++ zs → ys.length = l.elements.keys.length →
      ys.Perm l.elements.keys) ∧
    ∀ k, (chosen es).length = k * l.elements.keys.length → ∀ ele ∈ l, (chosen es).count ele = k

theorem chosen_snoc : chosen (es ++ [e]) = chosen es ++ e.chosen.toList := by
  cases he : e.chosen <;> simp [chosen, he]

theorem CallStep.snapshot (hs : CallStep s e s') : s'.lb.snapshot = s.lb.snapshot := by
  simp only [LoadBalancer.snapshot, hs.1.keys hs.2]

theorem Current.step (h : s.Current) (hs : CallStep s e s') : s'.Current := by
  intro m hm
  rw [hs.snapshot]
  obtain ⟨hs, he⟩ := hs
  cases hs
  case addElement | delElement => exact he.elim
  case loadBalance => exact h m (by simpa using hm)
  case snapshot =>
    obtain hm | hm := List.mem_or_eq_of_mem_set hm
    · exact h m hm
    · exact Call.cursor.inj hm
  case noElements | cursor | outOfRange | weight =>
    obtain hm | hm := List.mem_or_eq_of_mem_set hm
    · exact h m hm
    · cases hm

-- What one step does to the cursor, and what it chooses.
theorem CallStep.cursor_cases (hs : CallStep s e s') (hc : s.Current) (hn : s.lb.snapshot ≠ []) :
    e.chosen = none ∧ s'.lb.rrbIdx = s.lb.rrbIdx ∨
    ∃ ele, e.chosen = some ele ∧ s.lb.moveCursor s.lb.snapshot = (s'.lb, some ele) := by
  obtain ⟨hs, he⟩ := hs
  cases hs
  case addElement | delElement => exact he.elim
  case loadBalance | snapshot | noElements => exact .inl ⟨rfl, rfl⟩
  case cursor ele hi hm =>
    cases hc _ (List.mem_of_getElem? hi)
    exact .inr ⟨ele, rfl, hm⟩
  case outOfRange hi hm =>
    cases hc _ (List.mem_of_getElem? hi)
    obtain ⟨_, _, hm'⟩ := s.lb.moveCursor_isSome hn
    cases hm.symm.trans hm'
  case weight => exact .inl ⟨rfl, LoadBalancer.rrbIdx_addWeight⟩

-- What the runs with the elements of `l` keep.
structure Kept (l : LoadBalancer) (s : Balancing) : Prop where
  current  : s.Current
  snapshot : s.lb.snapshot = l.snapshot

theorem Kept.step (h : Kept l s) (hs : CallStep s e s') : Kept l s' where
  current  := h.current.step hs
  snapshot := hs.snapshot.trans h.snapshot

-- With a length of 16 bits, the calls go round and round through the sorted elements.
structure Cycling (l : LoadBalancer) (es : List Event) (s : Balancing) : Prop extends Kept l s where
  cycles : l.snapshot.Cycles (l.cursor l.snapshot).toNat (chosen es)
  next   : (s.lb.cursor l.snapshot).toNat =
    ((l.cursor l.snapshot).toNat + (chosen es).length) % l.snapshot.length

theorem Cycling.step (hn : l.snapshot ≠ []) (hl : l.snapshot.length < 2 ^ 16) (h : Cycling l es s)
    (hs : CallStep s e s') : Cycling l (es ++ [e]) s' := by
  refine ⟨h.toKept.step hs, ?_, ?_⟩ <;> rw [chosen_snoc] <;>
    obtain ⟨he, hi⟩ | ⟨ele, he, hm⟩ := hs.cursor_cases h.current (h.snapshot ▸ hn)
  case refine_1.inl => simpa [he] using h.cycles
  case refine_1.inr =>
    have hele : l.snapshot[(s.lb.cursor l.snapshot).toNat]? = some ele := by
      rw [h.snapshot] at hm
      exact congrArg Prod.snd hm
    rw [he]
    exact h.cycles.concat (h.next ▸ hele)
  case refine_2.inl =>
    have hc : s'.lb.cursor l.snapshot = s.lb.cursor l.snapshot := by simp only [LoadBalancer.cursor, hi]
    simpa [he, hc] using h.next
  case refine_2.inr =>
    have hlb : (s.lb.moveCursor l.snapshot).fst = s'.lb := by
      rw [h.snapshot] at hm
      exact congrArg Prod.fst hm
    rw [he, ←hlb, LoadBalancer.cursor_moveCursor hn hl, h.next, Nat.mod_add_mod]
    simp [Nat.add_assoc]

theorem cycling_of_exec {calls : List Call} (hn : l.snapshot ≠ []) (hl : l.snapshot.length < 2 ^ 16)
    (hc : Current ⟨l, calls⟩) (h : Exec CallStep ⟨l, calls⟩ es s) : Cycling l es s := by
  refine h.invariant ?_ fun _ _ _ _ _ hi hs => hi.step hn hl hs
  refine ⟨⟨hc, rfl⟩, .nil, ?_⟩
  exact (Nat.mod_eq_of_lt (LoadBalancer.cursor_lt hn)).symm

theorem fair_of_length_lt (hn : l.snapshot ≠ []) (hl : l.snapshot.length < 2 ^ 16) : Fair l := by
  intro calls es s hc h
  have hlen : l.snapshot.length = l.elements.keys.length := LoadBalancer.perm_snapshot.length_eq
  have hcy := (cycling_of_exec hn hl hc h).cycles
  refine ⟨fun xs ys zs hes hys => ?_, fun k hk ele hele => ?_⟩
  · rw [hes] at hcy
    exact (hcy.left.right.perm (hys.trans hlen.symm)).trans LoadBalancer.perm_snapshot
  · rw [←hlen] at hk
    exact hcy.count_eq LoadBalancer.nodup_snapshot hk (LoadBalancer.mem_snapshot.mpr hele)

-- Otherwise, what the cursor does not reach is never chosen.
theorem not_chosen {last : String} {n : Nat} (hl : l.snapshot[n]? = some last) (hn : 2 ^ 16 ≤ n + 1)
    {calls : List Call} (hc : Current ⟨l, calls⟩) (h : Exec CallStep ⟨l, calls⟩ es s) :
    last ∉ chosen es := by
  have hne : l.snapshot ≠ [] := by
    intro he
    simp [he] at hl
  suffices hk : Kept l s ∧ last ∉ chosen es from hk.2
  refine h.invariant (I := fun es s => Kept l s ∧ last ∉ chosen es) ⟨⟨hc, rfl⟩, by simp [chosen]⟩ ?_
  intro es s e s' _ ⟨hk, hi⟩ hs
  refine ⟨hk.step hs, ?_⟩
  rw [chosen_snoc]
  obtain ⟨he, _⟩ | ⟨ele, he, hm⟩ := hs.cursor_cases hk.current (hk.snapshot ▸ hne)
  · simpa [he] using hi
  · -- The elements differ, and the cursor is below the last place.
    rw [hk.snapshot] at hm
    have hele : l.snapshot[(s.lb.cursor l.snapshot).toNat]? = some ele := congrArg Prod.snd hm
    have hlt := s.lb.cursor_add_one_lt (m := l.snapshot)
    have hlast : last ≠ ele := by
      rintro rfl
      have hbound := (List.getElem?_eq_some_iff.mp hl).1
      have heq := (List.getElem?_inj hbound LoadBalancer.nodup_snapshot).mp (hl.trans hele.symm)
      omega
    simp [he, hi, hlast]

theorem exists_call (hn : s.lb.snapshot ≠ []) :
    ∃ es s', Exec CallStep s es s' ∧ (chosen es).length = 1 := by
  obtain ⟨lb, ele, hm⟩ := s.lb.moveCursor_isSome hn
  generalize hi : s.calls.length = i
  have h₀ : (s.calls ++ [Call.snapshot])[i]? = some .snapshot := hi ▸ List.getElem?_concat_length
  have h₁ := List.getElem?_set_of_eq_some (a := Call.cursor s.lb.snapshot) h₀
  have h₂ := List.getElem?_set_of_eq_some (a := Call.weight ele) h₁
  have hrun : Exec CallStep s [.loadBalance, .snapshot i, .cursor i ele, .weight i] _ :=
    .cons ⟨.loadBalance, trivial⟩ <| .cons ⟨.snapshot h₀ hn, trivial⟩ <|
    .cons ⟨.cursor h₁ hm, trivial⟩ <| .single ⟨.weight h₂, trivial⟩
  exact ⟨_, _, hrun, rfl⟩

-- One call after the other.
theorem exists_calls (hn : s.lb.snapshot ≠ []) (k : Nat) :
    ∃ es s', Exec CallStep s es s' ∧ (chosen es).length = k := by
  induction k generalizing s
  case zero => exact ⟨[], s, .refl, rfl⟩
  case succ k hi =>
    obtain ⟨es₁, s₁, h₁, hl₁⟩ := exists_call hn
    have hs : s₁.lb.snapshot ≠ [] :=
      h₁.preserves (I := fun s => s.lb.snapshot ≠ []) hn fun _ _ _ hn hs => hs.snapshot ▸ hn
    obtain ⟨es₂, s₂, h₂, hl₂⟩ := hi hs
    refine ⟨es₁ ++ es₂, s₂, h₁.trans h₂, ?_⟩
    rw [chosen, List.filterMap_append, List.length_append, ←chosen, ←chosen, hl₁, hl₂, Nat.add_comm]

theorem not_fair_of_le_length (hl : 2 ^ 16 ≤ l.snapshot.length) : ¬Fair l := by
  intro hf
  have hlen : l.snapshot.length = l.elements.keys.length := LoadBalancer.perm_snapshot.length_eq
  have hlast : l.snapshot.length - 1 < l.snapshot.length := by omega
  have hn : l.snapshot ≠ [] := List.length_pos_iff.mp (by omega)
  obtain ⟨es, s, h, hk⟩ := exists_calls (s := start l) hn l.snapshot.length
  have hc : Current (start l) := by simp [Current, start]
  have hperm := (hf [] es s hc h).1 [] (chosen es) [] (by simp) (hk.trans hlen)
  -- The last element is one that has to be chosen.
  have hmem := (hperm.trans LoadBalancer.perm_snapshot.symm).mem_iff.mpr (List.getElem_mem hlast)
  exact not_chosen (List.getElem?_eq_getElem hlast) (by omega) hc h hmem

theorem fair_iff (h : ∃ ele, ele ∈ l) : Fair l ↔ l.elements.keys.length < 2 ^ 16 := by
  have hn : l.snapshot ≠ [] := by
    obtain ⟨ele, hele⟩ := h
    exact List.ne_nil_of_mem (LoadBalancer.mem_snapshot.mpr hele)
  rw [←LoadBalancer.perm_snapshot.length_eq]
  constructor
  case mp  => exact fun hf => Nat.not_le.mp fun hl => not_fair_of_le_length hl hf
  case mpr => exact fair_of_length_lt hn

-- The load balancer after `n` elements were added.
def added : Nat → LoadBalancer
  | 0     => .empty
  | n + 1 => ((added n).addElement (String.ofList (List.replicate (n + 1) 'e'))).fst

theorem length_le_of_mem_added {n : Nat} (h : ele ∈ added n) : ele.length ≤ n := by
  induction n
  case zero      => cases h
  case succ n hi =>
    obtain rfl | h := LoadBalancer.mem_addElement.mp h
    · simp
    · exact Nat.le_succ_of_le (hi h)

theorem length_keys_added (n : Nat) : (added n).elements.keys.length = n := by
  induction n
  case zero      => rfl
  case succ n hi =>
    have hn : String.ofList (List.replicate (n + 1) 'e') ∉ added n := by
      intro hm
      have hl := length_le_of_mem_added hm
      simp at hl
    rw [added, LoadBalancer.keys_addElement hn, List.length_cons, hi]

theorem added_three_fair : Fair (added 3) :=
  (fair_iff ⟨"e", by decide⟩).mpr (by rw [length_keys_added]; decide)

theorem added_not_fair : (added (2 ^ 16)).elements.keys.length = 2 ^ 16 ∧ ¬Fair (added (2 ^ 16)) := by
  have hl := length_keys_added (2 ^ 16)
  exact ⟨hl, not_fair_of_le_length (by rw [LoadBalancer.perm_snapshot.length_eq, hl])⟩

end Balancing
