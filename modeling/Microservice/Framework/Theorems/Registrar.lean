import Microservice.Framework.Registrar
import Microservice.Lib.Exec

namespace Registrar

variable {s s' : Registrar} {call n now : Nat} {e : Event} {es es' : List Event} {g : Goroutine} {pc : Regist}
  {pc' : Option Regist}

-- The goroutine that makes a request, if the event is one for the key or its lease.
def Event.requestOf : Event → Option Goroutine
  | .grant g _       => some g
  | .put g _ _ _     => some g
  | .keepAlive g _ _ => some g
  | .get _           => some .watch
  | .revoke _        => some .main
  | _                => none

def Event.granted : Event → Option LeaseID
  | .grant _ lease => lease
  | _              => none

def Event.isPut : Event → Bool
  | .put .. => true
  | _       => false

-- The requests of a goroutine, oldest first.
def requests (g : Goroutine) (es : List Event) : List Event :=
  es.filter (·.requestOf = some g)

-- The watch makes no request before `Start` has registered the service.
def Alone (es : List Event) (g : Goroutine) : Prop :=
  g = .main → requests .watch es = []

-- A goroutine has a reason to call `ServiceRegist`.
def Due (es : List Event) : Goroutine → Prop
  | .main  => requests .main es = []
  | .watch => [.get (some false)] <:+ requests .watch es

-- What a request comes after. `es` are the events before it.
def InOrder (es : List Event) : Event → Prop
  | .grant g _        => Alone es g ∧ Due es g
  | .put g id value _ => Alone es g ∧ [.grant g (some id)] <:+ requests g es ∧ value = es.countP Event.isPut + 1
  | .keepAlive g id _ => Alone es g ∧ ∃ value, [.grant g (some id), .put g id value true] <:+ requests g es
  | .revoke id        => (es.filterMap Event.granted).getLast? = some id
  | _                 => True

theorem requests_append : requests g (es ++ es') = requests g es ++ requests g es' :=
  List.filter_append ..

theorem requests_of_eq (h : e.requestOf = some g) : requests g [e] = [e] := by
  simp [requests, h]

theorem requests_of_ne (h : e.requestOf ≠ some g) : requests g [e] = [] := by
  simp [requests, h]

-- Where a call of `ServiceRegist` is, in terms of the requests before.
def Regist.After (g : Goroutine) (es : List Event) (lease : Option LeaseID) : Regist → Prop
  | .grant     => Due es g
  | .put       => ∃ id, lease = some id ∧ [.grant g (some id)] <:+ requests g es
  | .keepAlive => ∃ id value, lease = some id ∧ [.grant g (some id), .put g id value true] <:+ requests g es
  | .receive   => True

theorem Regist.After.snoc {lease : Option LeaseID} (h : pc.After g es lease) (he : e.requestOf ≠ some g) :
    pc.After g (es ++ [e]) lease := by
  have hr : requests g (es ++ [e]) = requests g es := by
    rw [requests_append, requests_of_ne he, List.append_nil]
  cases pc
  case grant   => cases g <;> rwa [After, Due, hr]
  case receive => trivial
  all_goals rwa [After, hr]

namespace Regist.Step

theorem lease (h : Regist.Step g s pc e pc' s') : s'.lease = e.granted.or s.lease := by
  cases h <;> rfl

theorem leaseDV (h : Regist.Step g s pc e pc' s') : s'.leaseDV = s.leaseDV + [e].countP Event.isPut := by
  cases h <;> rfl

theorem frame (h : Regist.Step g s pc e pc' s') :
    ∃ lease leaseDV, s' = { s with lease := lease, leaseDV := leaseDV } := by
  cases h <;> exact ⟨_, _, rfl⟩

theorem preserves_main (h : Regist.Step g s pc e pc' s') : s'.main = s.main := by
  cases h <;> rfl

theorem preserves_watch (h : Regist.Step g s pc e pc' s') : s'.watch = s.watch := by
  cases h <;> rfl

theorem preserves_exit (h : Regist.Step g s pc e pc' s') : s'.exit = s.exit := by
  cases h <;> rfl

theorem requestOf_ne {g' : Goroutine} (h : Regist.Step g s pc e pc' s') (hne : g ≠ g') :
    e.requestOf ≠ some g' := by
  cases h <;> simp [Event.requestOf, hne]

theorem after (h : Regist.Step g s pc e pc' s') (ha : pc.After g es s.lease) :
    ∀ next ∈ pc', next.After g (es ++ [e]) s'.lease := by
  intro next hnext
  cases h
  case granted id =>
    cases hnext
    refine ⟨id, rfl, ?_⟩
    rw [requests_append, requests_of_eq rfl]
    exact List.suffix_append ..
  case put id ok hid =>
    obtain ⟨id', hid', hr⟩ := ha
    cases hid.symm.trans hid'
    cases ok <;> cases hnext
    refine ⟨id, s.leaseDV + 1, hid, ?_⟩
    rw [requests_append, requests_of_eq rfl]
    obtain ⟨before, hr⟩ := hr
    exact ⟨before, by simp [← hr]⟩
  case keepAlive ok _ =>
    cases ok <;> cases hnext
    trivial
  all_goals cases hnext

theorem inOrder (h : Regist.Step g s pc e pc' s') (ha : pc.After g es s.lease)
    (hdv : s.leaseDV = es.countP Event.isPut) (hw : Alone es g) : InOrder es e := by
  cases h
  case receive => trivial
  case put id _ hid =>
    obtain ⟨id', hid', hr⟩ := ha
    cases hid.symm.trans hid'
    exact ⟨hw, hr, by rw [hdv]⟩
  case keepAlive id _ hid =>
    obtain ⟨id', value, hid', hr⟩ := ha
    cases hid.symm.trans hid'
    exact ⟨hw, value, hr⟩
  all_goals exact ⟨hw, ha⟩

end Regist.Step

-- `Start` has not come to the end of `LeaseWatch`.
def Main.starting : Main → Bool
  | .new | .regist _ | .leaseWatch => true
  | _                              => false

-- The events so far, and where the goroutines are.
structure Ordered (es : List Event) (s : Registrar) : Prop where
  lease   : s.lease = (es.filterMap Event.granted).getLast?
  leaseDV : s.leaseDV = es.countP Event.isPut
  idle    : s.main.starting → s.watch = .idle
  quiet   : s.watch = .idle → requests .watch es = []
  new     : s.main = .new → requests .main es = []
  main    : ∀ pc, s.main = .regist pc → pc.After .main es s.lease
  watch   : ∀ pc, s.watch = .regist pc → pc.After .watch es s.lease

theorem init_ordered : Ordered [] (start now) where
  lease   := rfl
  leaseDV := rfl
  idle    := fun _ => rfl
  quiet   := fun _ => rfl
  new     := fun _ => rfl
  main    := nofun
  watch   := nofun

theorem starting_closing : s.closing.starting = false := by
  unfold closing
  split <;> rfl

theorem starting_stopping : s.stopping.starting = false := by
  unfold stopping
  split
  case isTrue  => rfl
  case isFalse => exact starting_closing

namespace Main.Step

theorem lease (h : Main.Step s e s') : s'.lease = e.granted.or s.lease := by
  cases h
  case regist hs => exact hs.lease
  all_goals rfl

theorem leaseDV (h : Main.Step s e s') : s'.leaseDV = s.leaseDV + [e].countP Event.isPut := by
  cases h
  case regist hs => exact hs.leaseDV
  all_goals rfl

theorem requestOf_ne (h : Main.Step s e s') : e.requestOf ≠ some .watch := by
  cases h
  case regist hs => exact hs.requestOf_ne nofun
  all_goals nofun

-- The end of `Start`, or the watch is left alone.
theorem watch (h : Main.Step s e s') :
    s'.watch = s.watch ∨ s.main = .leaseWatch ∧ s'.main = .started ∧ s'.watch = .loop := by
  cases h
  case regist hs     => exact .inl hs.preserves_watch
  case leaseWatch hm => exact .inr ⟨hm, rfl, rfl⟩
  all_goals exact .inl rfl

theorem starting (h : Main.Step s e s') (hs : s'.main.starting) : s.main.starting ∧ s'.watch = s.watch := by
  cases h
  case new hm       => exact ⟨by rw [hm]; rfl, rfl⟩
  case regist hm hr => exact ⟨by rw [hm]; rfl, hr.preserves_watch⟩
  case stop         => cases starting_stopping.symm.trans hs
  case revoke       => cases starting_closing.symm.trans hs
  all_goals cases hs

theorem ne_new (h : Main.Step s e s') : s'.main ≠ .new := by
  intro hn
  cases h
  case new ok _         => cases ok <;> cases hn
  case regist pc' _ _ _ => cases pc' <;> cases hn
  case stop             => cases starting_stopping.symm.trans (congrArg Main.starting hn)
  case revoke           => cases starting_closing.symm.trans (congrArg Main.starting hn)
  all_goals cases hn

theorem preserves_lease (h : Main.Step s e s') (hs : s.main.starting = false) : s'.lease = s.lease := by
  cases h
  case regist hm _ => rw [hm] at hs; cases hs
  all_goals rfl

theorem after (h : Main.Step s e s') (hn : s.main = .new → requests .main es = [])
    (ha : ∀ pc, s.main = .regist pc → pc.After .main es s.lease) :
    ∀ pc, s'.main = .regist pc → pc.After .main (es ++ [e]) s'.lease := by
  intro pc hpc
  cases h
  case new ok hm =>
    cases ok <;> cases hpc
    rw [Regist.After, Due, requests_append, hn hm]
    rfl
  case regist pc₀ pc' s₁ hm hs =>
    cases pc' <;> cases hpc
    exact hs.after (ha pc₀ hm) pc rfl
  case stop   => cases starting_stopping.symm.trans (congrArg Main.starting hpc)
  case revoke => cases starting_closing.symm.trans (congrArg Main.starting hpc)
  all_goals cases hpc

end Main.Step

namespace Watch.Step

theorem lease (h : Watch.Step s e s') : s'.lease = e.granted.or s.lease := by
  cases h
  case regist pc' _ _ hs => cases pc' <;> exact hs.lease
  all_goals rfl

theorem leaseDV (h : Watch.Step s e s') : s'.leaseDV = s.leaseDV + [e].countP Event.isPut := by
  cases h
  case regist pc' _ _ hs => cases pc' <;> exact hs.leaseDV
  all_goals rfl

theorem requestOf_ne (h : Watch.Step s e s') : e.requestOf ≠ some .main := by
  cases h
  case regist hs => exact hs.requestOf_ne nofun
  all_goals nofun

theorem preserves_main (h : Watch.Step s e s') : s'.main = s.main := by
  cases h
  case regist pc' _ _ hs => cases pc' <;> exact hs.preserves_main
  all_goals rfl

theorem ne_idle (h : Watch.Step s e s') : s.watch ≠ .idle := by
  cases h <;> simp [*]

theorem ne_idle_after (h : Watch.Step s e s') : s'.watch ≠ .idle := by
  cases h
  case loop              => simp only [setWatch]; split <;> nofun
  case regist pc' _ _ hs => cases pc' <;> nofun
  all_goals nofun

theorem after (h : Watch.Step s e s') (ha : ∀ pc, s.watch = .regist pc → pc.After .watch es s.lease) :
    ∀ pc, s'.watch = .regist pc → pc.After .watch (es ++ [e]) s'.lease := by
  intro pc hpc
  cases h
  case missing =>
    cases hpc
    rw [Regist.After, Due, requests_append]
    exact List.suffix_append ..
  case regist pc₀ pc' s₁ hw hs =>
    cases pc' <;> cases hpc
    exact hs.after (ha pc₀ hw) pc rfl
  case loop => simp only [setWatch] at hpc; split at hpc <;> cases hpc
  all_goals cases hpc

end Watch.Step

theorem Step.lease (h : Step s e s') : s'.lease = e.granted.or s.lease := by
  cases h
  case tick    => rfl
  case main h  => exact h.lease
  case watch h => exact h.lease

theorem Step.leaseDV (h : Step s e s') : s'.leaseDV = s.leaseDV + [e].countP Event.isPut := by
  cases h
  case tick    => rfl
  case main h  => exact h.leaseDV
  case watch h => exact h.leaseDV

-- The watch runs when `Start` is done.
theorem Ordered.starting (ho : Ordered es s) (hw : s.watch ≠ .idle) : s.main.starting = false :=
  Bool.eq_false_iff.mpr fun hm => hw (ho.idle hm)

theorem Ordered.inOrder (ho : Ordered es s) (h : Step s e s') : InOrder es e := by
  cases h
  case tick => trivial
  case main h =>
    cases h
    case regist pc _ _ hm hs =>
      exact hs.inOrder (ho.main pc hm) ho.leaseDV fun _ => ho.quiet (ho.idle (by rw [hm]; rfl))
    case revoke hid => exact ho.lease.symm.trans hid
    all_goals trivial
  case watch h =>
    cases h
    case regist pc _ _ hw hs => exact hs.inOrder (ho.watch pc hw) ho.leaseDV nofun
    all_goals trivial

theorem Ordered.step (ho : Ordered es s) (h : Step s e s') : Ordered (es ++ [e]) s' where
  lease := by
    rw [h.lease, ho.lease, List.filterMap_append, List.getLast?_append]
    cases he : e.granted <;> simp [he]
  leaseDV := by
    rw [h.leaseDV, ho.leaseDV, List.countP_append]
  idle := by
    intro hs
    cases h
    case tick    => exact ho.idle hs
    case main h  => exact (h.starting hs).2.trans (ho.idle (h.starting hs).1)
    case watch h => exact absurd (ho.idle (h.preserves_main ▸ hs)) h.ne_idle
  quiet := by
    intro hi
    cases h
    case tick    => rw [requests_append, ho.quiet hi]; rfl
    case main h  =>
      obtain hw | ⟨-, -, hw⟩ := h.watch
      · rw [requests_append, ho.quiet (hw.symm.trans hi), requests_of_ne h.requestOf_ne, List.append_nil]
      · cases hi.symm.trans hw
    case watch h => exact absurd hi h.ne_idle_after
  new := by
    intro hn
    cases h
    case tick    => rw [requests_append, ho.new hn]; rfl
    case main h  => exact absurd hn h.ne_new
    case watch h =>
      rw [requests_append, ho.new (h.preserves_main.symm.trans hn), requests_of_ne h.requestOf_ne, List.append_nil]
  main := by
    intro pc hm
    cases h
    case tick    => exact (ho.main pc hm).snoc nofun
    case main h  => exact h.after ho.new ho.main pc hm
    case watch h =>
      have hs : s.main.starting := by rw [← h.preserves_main, hm]; rfl
      exact absurd (ho.idle hs) h.ne_idle
  watch := by
    intro pc hw
    cases h
    case tick    => exact (ho.watch pc hw).snoc nofun
    case watch h => exact h.after ho.watch pc hw
    case main h  =>
      obtain hw' | ⟨-, -, hw'⟩ := h.watch
      · have hs := hw'.symm.trans hw
        rw [h.preserves_lease (ho.starting (by rw [hs]; nofun))]
        exact (ho.watch pc hs).snoc h.requestOf_ne
      · cases hw.symm.trans hw'

theorem ordered_of_exec (h : Exec Step (start now) es s) : Ordered es s :=
  h.invariant init_ordered fun _ _ _ _ _ ho hs => ho.step hs

theorem inOrder_of_exec {post : List Event} (h : Exec Step (start now) (es ++ e :: post) s) : InOrder es e := by
  obtain ⟨s₁, h₁, h₂⟩ := Exec.append_iff.mp h
  obtain ⟨s₂, hs, -⟩ := Exec.cons_iff.mp h₂
  exact (ordered_of_exec h₁).inOrder hs

-- The requests that are left for the watch when `exit` is set: the loop ends at its next turn.
def Watch.left : Watch → Nat
  | .select            => 4
  | .get               => 4
  | .regist .grant     => 3
  | .regist .put       => 2
  | .regist .keepAlive => 1
  | _                  => 0

theorem Watch.left_le (watch : Watch) : watch.left ≤ 4 := by
  unfold left
  split <;> decide

theorem watch_setRegist : (s.setRegist pc').watch = pc'.elim .loop .regist := by
  cases pc' <;> rfl

theorem Regist.Step.left (h : Regist.Step .watch s pc e pc' s') :
    (requests .watch [e]).length + (pc'.elim Watch.loop .regist).left ≤ (Watch.regist pc).left := by
  have hlen : (requests .watch [e]).length ≤ 1 := List.length_filter_le ..
  cases h
  case receive => exact Nat.le_refl _
  all_goals refine Nat.le_trans (Nat.add_le_add_right hlen _) ?_
  case put ok _       => cases ok <;> decide
  case keepAlive ok _ => cases ok <;> decide
  all_goals decide

theorem Watch.Step.left (h : Watch.Step s e s') (he : s.exit = true) :
    (requests .watch [e]).length + s'.watch.left ≤ s.watch.left := by
  cases h
  case loop hw      => simp [hw, he, requests, Event.requestOf, Watch.left, setWatch]
  case regist hw hs => rw [hw, watch_setRegist]; exact hs.left
  all_goals simp [*, requests, Event.requestOf, Watch.left, setWatch, rearm]

theorem Watch.Step.preserves_exit (h : Watch.Step s e s') : s'.exit = s.exit := by
  cases h
  case regist pc' _ _ hs => cases pc' <;> exact hs.preserves_exit
  all_goals rfl

-- `Stop` has returned.
structure Stopped (s : Registrar) : Prop where
  main : s.main = .stopped
  exit : s.exit = true

theorem Step.stopped (h : Step s .exit s') : Stopped s' := by
  cases h
  case main h =>
    cases h
    case regist hs => cases hs
    case exit      => exact ⟨rfl, rfl⟩
  case watch h =>
    cases h
    case regist hs => cases hs

theorem Stopped.step (hs : Stopped s) (h : Step s e s') :
    Stopped s' ∧ (requests .watch [e]).length + s'.watch.left ≤ s.watch.left := by
  cases h
  case tick    => exact ⟨⟨hs.main, hs.exit⟩, Nat.le_of_eq (Nat.zero_add _)⟩
  case main h  => cases h <;> cases hs.main.symm.trans ‹_›
  case watch h => exact ⟨⟨h.preserves_main.trans hs.main, h.preserves_exit.trans hs.exit⟩, h.left hs.exit⟩

theorem Stopped.requests_le (hs : Stopped s) (h : Exec Step s es s') : (requests .watch es).length ≤ 4 := by
  have hi : Stopped s' ∧ (requests .watch es).length + s'.watch.left ≤ s.watch.left := by
    refine h.invariant (I := fun es s' => Stopped s' ∧ (requests .watch es).length + s'.watch.left ≤ s.watch.left)
      ⟨hs, Nat.le_of_eq (Nat.zero_add _)⟩ fun es s₁ e s₂ _ hi hstep => ?_
    obtain ⟨hs₂, hle⟩ := hi.1.step hstep
    rw [requests_append, List.length_append]
    exact ⟨hs₂, by omega⟩
  have hle := s.watch.left_le
  omega

-- Whatever etcd answers, the requests of the driver are in order. When `Stop` has returned, at most one turn of the
-- watch is left.
theorem requests_in_order (h : Exec Step (start now) es s) :
    (∀ pre e post, es = pre ++ e :: post → InOrder pre e) ∧
    ∀ pre post, es = pre ++ .exit :: post → (requests .watch post).length ≤ 4 := by
  constructor
  · rintro pre e post rfl
    exact inOrder_of_exec h
  · rintro pre post rfl
    obtain ⟨s₁, -, h₂⟩ := Exec.append_iff.mp h
    obtain ⟨s₂, hs, hpost⟩ := Exec.cons_iff.mp h₂
    exact hs.stopped.requests_le hpost

-- `Stop` revokes the lease and returns while the watch looks for the key.
def demoStop : List Event :=
  [.new true, .grant .main (some 1), .put .main 1 1 true, .keepAlive .main 1 true, .receive .main, .leaseWatch,
    .started, .loop, .tick 1000, .select, .stop, .revoke 1, .close]

-- The watch then registers the service again.
def demoRest : List Event :=
  [.get (some false), .grant .watch (some 2), .put .watch 2 2 true, .keepAlive .watch 2 true, .receive .watch, .loop]

theorem exec_demoRest : ∃ s, Exec Step (start 0) (demoStop ++ .exit :: demoRest) s ∧ s.watch = .ended := by
  refine ⟨_, .cons (.main (.new rfl)) <| .cons (.main (.regist rfl .granted)) <|
    .cons (.main (.regist rfl (.put rfl))) <| .cons (.main (.regist rfl (.keepAlive rfl))) <|
    .cons (.main (.regist rfl .receive)) <| .cons (.main (.leaseWatch rfl)) <| .cons (.main (.started rfl)) <|
    .cons (.watch (.loop rfl)) <| .cons .tick <| .cons (.watch (.select rfl (Nat.le_refl 1000))) <|
    .cons (.main (.stop rfl)) <| .cons (.main (.revoke rfl rfl)) <| .cons (.main (.close rfl)) <|
    .cons (.main (.exit rfl)) <| .cons (.watch (.missing rfl)) <| .cons (.watch (.regist rfl .granted)) <|
    .cons (.watch (.regist rfl (.put rfl))) <| .cons (.watch (.regist rfl (.keepAlive rfl))) <|
    .cons (.watch (.regist rfl .receive)) <| .single (.watch (.loop rfl)), rfl⟩

-- Four requests are made after `Stop`.
theorem requests_after_stop : (requests .watch demoRest).length = 4 ∧
    InOrder (demoStop ++ .exit :: demoRest.take 3) (.keepAlive .watch 2 true) ∧
    ∃ s, Exec Step (start 0) (demoStop ++ .exit :: demoRest) s ∧ (requests .watch demoRest).length ≤ 4 := by
  obtain ⟨s, h, -⟩ := exec_demoRest
  obtain ⟨hin, hle⟩ := requests_in_order h
  exact ⟨by decide, hin _ _ (demoRest.drop 4) rfl, s, h, hle _ _ rfl⟩

-- Since when the watch waits for something but the timer.
def waits (s : Registrar) : Nat :=
  if s.watch = .select then max s.timeCh s.watchSince else s.watchSince

theorem waits_select (h : s.watch = .select) : s.waits = max s.timeCh s.watchSince :=
  if_pos h

theorem waits_of_ne (h : s.watch ≠ .select) : s.waits = s.watchSince :=
  if_neg h

-- Whatever a goroutine waits for comes within `call`, or within `call` after `n` if it was waiting then.
structure InTime (call n : Nat) (s : Registrar) : Prop where
  main  : s.main.starting → s.now ≤ max s.mainSince n + call
  watch : s.watch ≠ .idle → s.watch ≠ .ended → s.now ≤ max s.waits n + call

instance : Decidable (s.InTime call n) :=
  decidable_of_iff ((s.main.starting → s.now ≤ max s.mainSince n + call) ∧
    (s.watch ≠ .idle → s.watch ≠ .ended → s.now ≤ max s.waits n + call)) ⟨fun h => ⟨h.1, h.2⟩, fun h => ⟨h.1, h.2⟩⟩

-- Requests do not fail, and `Stop` is not called.
def Event.succeeds : Event → Bool
  | .new ok           => ok
  | .grant _ lease    => lease.isSome
  | .put _ _ _ ok     => ok
  | .keepAlive _ _ ok => ok
  | .get found        => found.isSome
  | .stop             => false
  | _                 => true

structure Prompt (call n : Nat) (s : Registrar) (e : Event) (s' : Registrar) : Prop where
  step     : Step s e s'
  inTime   : s'.InTime call n
  succeeds : e.succeeds

-- The driver has a client, and `Stop` was not called.
def Running (s : Registrar) : Prop :=
  s.main.starting ∨ s.cli = true ∧ (s.main = .started ∨ s.main = .serving)

-- What a state of the driver says about where it comes from.
structure Sound (s : Registrar) : Prop where
  stopped : s.exit = true ∨ s.watch = .ended → s.main = .stopped
  idle    : s.watch = .idle → s.main.starting ∨ s.cli = false
  times   : s.timeCh ≤ s.now + 5 * 1000 ∧ s.mainSince ≤ s.now ∧ s.watchSince ≤ s.now

theorem init_sound : Sound (start now) where
  stopped := nofun
  idle    := fun _ => .inl rfl
  times   := by simp [start]

theorem Main.Step.ne_stopped (h : Main.Step s e s') : s.main ≠ .stopped := by
  cases h <;> simp [*]

theorem Main.Step.stopped (h : Main.Step s e s') (hs : s'.exit = true ∨ s'.watch = .ended) :
    s'.main = .stopped ∨ s.exit = true ∨ s.watch = .ended := by
  cases h
  case exit       => exact .inl rfl
  case started    => exact .inr (.inr (hs.resolve_left nofun))
  case leaseWatch => exact .inr (.inl (hs.resolve_right nofun))
  case regist hr  => exact .inr (hr.preserves_exit ▸ hr.preserves_watch ▸ hs)
  all_goals exact .inr hs

theorem Main.Step.idle (h : Main.Step s e s') (hi : s.main.starting ∨ s.cli = false) (hw : s'.watch = .idle) :
    s'.main.starting ∨ s'.cli = false := by
  cases h
  case new ok _         => cases ok <;> simp [setMain, Main.starting]
  case regist pc' _ _ _ => cases pc' <;> exact .inl rfl
  case leaseWatch       => cases hw
  all_goals exact .inr (hi.resolve_left (by simp [*, Main.starting]))

theorem Watch.Step.stopped (h : Watch.Step s e s') (hs : s'.exit = true ∨ s'.watch = .ended) :
    s.exit = true := by
  obtain hs | hs := hs
  case inl => exact h.preserves_exit ▸ hs
  case inr =>
    cases h
    case loop              => simpa [setWatch] using hs
    case regist pc' _ _ hr => cases pc' <;> cases hs
    all_goals cases hs

theorem Step.times (h : Step s e s')
    (ht : s.timeCh ≤ s.now + 5 * 1000 ∧ s.mainSince ≤ s.now ∧ s.watchSince ≤ s.now) :
    s'.timeCh ≤ s'.now + 5 * 1000 ∧ s'.mainSince ≤ s'.now ∧ s'.watchSince ≤ s'.now := by
  cases h
  case tick => dsimp only; omega
  case main h =>
    cases h
    case regist hr =>
      obtain ⟨lease, leaseDV, rfl⟩ := hr.frame
      dsimp only [setMain]
      omega
    all_goals
      dsimp only [setMain, rearm, setWatch]
      omega
  case watch h =>
    cases h
    case regist pc' _ _ hr =>
      obtain ⟨lease, leaseDV, rfl⟩ := hr.frame
      cases pc'
      all_goals
        dsimp only [setRegist, Option.elim, rearm, setWatch]
        omega
    all_goals
      dsimp only [rearm, setWatch]
      omega

theorem Step.now_le (h : Step s e s') : s.now ≤ s'.now := by
  cases h
  case tick => exact Nat.le_add_right ..
  case main h =>
    cases h
    case regist hr => obtain ⟨lease, leaseDV, rfl⟩ := hr.frame; exact Nat.le_refl _
    all_goals exact Nat.le_refl _
  case watch h =>
    cases h
    case regist pc' _ _ hr =>
      obtain ⟨lease, leaseDV, rfl⟩ := hr.frame
      cases pc' <;> exact Nat.le_refl _
    all_goals exact Nat.le_refl _

theorem Sound.step (hs : Sound s) (h : Step s e s') : Sound s' where
  stopped := by
    intro hst
    cases h
    case tick    => exact hs.stopped hst
    case main h  => exact (h.stopped hst).resolve_right fun hst => h.ne_stopped (hs.stopped hst)
    case watch h => exact h.preserves_main.trans (hs.stopped (.inl (h.stopped hst)))
  idle := by
    intro hw
    cases h
    case tick    => exact hs.idle hw
    case main h  =>
      obtain hw' | ⟨-, -, hw'⟩ := h.watch
      · exact h.idle (hs.idle (hw'.symm.trans hw)) hw
      · cases hw.symm.trans hw'
    case watch h => exact absurd hw h.ne_idle_after
  times := h.times hs.times

theorem sound_of_exec (h : Exec Step (start now) es s) : Sound s :=
  h.preserves init_sound fun _ _ _ hs h => hs.step h

-- The key is found, or a registration is made.
def Event.done : Event → Bool
  | .get found        => found = some true
  | .keepAlive _ _ ok => ok
  | _                 => false

-- How long it takes from where a call of `ServiceRegist` is, at most. After the receive, it takes another turn of
-- the watch.
def Regist.needs (call : Nat) : Regist → Nat
  | .grant     => 3 * call
  | .put       => 2 * call
  | .keepAlive => call
  | .receive   => 1000 + 8 * call

theorem Regist.Step.needs (call : Nat) (h : Regist.Step g s pc e pc' s') (he : e.succeeds) (hd : e.done = false) :
    pc'.elim (1000 + 7 * call) (Regist.needs call) + call ≤ pc.needs call := by
  cases h
  case grantFailed => cases he
  case keepAlive   => cases he; cases hd
  case put         => cases he; simp only [if_true, Option.elim, Regist.needs]; omega
  all_goals
    simp only [Option.elim, Regist.needs]
    omega

def Main.needs (call : Nat) : Main → Nat
  | .new       => 4 * call
  | .regist pc => pc.needs call
  | _          => 1000 + 7 * call

-- When the watch has found the key or has made a registration at the latest.
def watchBy (call n : Nat) (s : Registrar) : Nat :=
  match s.watch with
  | .loop      => max s.timeCh (max s.watchSince n + call) + 5 * call
  | .select    => max s.timeCh (max s.watchSince n) + 5 * call
  | .regist pc => max s.watchSince n + pc.needs call
  | _          => max s.watchSince n + 4 * call

-- The driver finds the key, or makes a registration, until `T`.
inductive Racing (call n T : Nat) (s : Registrar) : Prop
  | starting :
    s.main.starting → s.exit = false → s.watch = .idle → max s.mainSince n + s.main.needs call ≤ T →
    Racing call n T s
  | watching :
    s.main = .started ∨ s.main = .serving → s.exit = false → s.watch ≠ .idle → s.watch ≠ .ended →
    s.watchBy call n ≤ T → Racing call n T s

theorem Racing.mainStep {T : Nat} (hr : Racing call n T s) (ht : s.InTime call n) (hn : n ≤ s.now)
    (h : Main.Step s e s') (he : e.succeeds) (hd : e.done = false) : Racing call n T s' := by
  cases hr
  case starting hs hx hi hT =>
    have hnow := ht.main hs
    cases h
    case new ok hm =>
      cases ok <;> cases he
      refine .starting rfl hx hi ?_
      simp only [hm, Main.needs] at hT
      simp only [setMain, if_true, Main.needs, Regist.needs]
      omega
    case regist pc' _ hm hr =>
      have hneeds := hr.needs call he hd
      obtain ⟨lease, leaseDV, rfl⟩ := hr.frame
      simp only [hm, Main.needs] at hT
      cases pc'
      all_goals
        refine .starting rfl hx hi ?_
        simp only [Option.elim] at hneeds
        simp only [setMain, Option.elim, Main.needs]
        omega
    case leaseWatch hm =>
      refine .watching (.inl rfl) hx nofun nofun ?_
      simp only [hm, Main.needs] at hT
      simp only [watchBy, setMain, rearm, setWatch]
      omega
    all_goals simp [*, Main.starting] at hs
  case watching hm hx hi hend hT =>
    cases h
    case started => exact .watching (.inr rfl) rfl hi hend hT
    case stop    => cases he
    all_goals simp [*] at hm

theorem Racing.watchStep {T : Nat} (hr : Racing call n T s) (ht : s.InTime call n) (hn : n ≤ s.now)
    (h : Watch.Step s e s') (he : e.succeeds) (hd : e.done = false) : Racing call n T s' := by
  cases hr
  case starting hi _ => exact absurd hi h.ne_idle
  case watching hm hx hi hend hT =>
    have hnow := ht.watch hi hend
    unfold watchBy at hT
    cases h
    case found  => cases hd
    case failed => cases he
    case loop hw =>
      simp only [hw] at hT
      rw [waits_of_ne (by rw [hw]; nofun)] at hnow
      rw [hx]
      refine .watching hm hx nofun nofun ?_
      simp only [watchBy, setWatch, Bool.false_eq_true, if_false]
      omega
    case select hw _ =>
      simp only [hw] at hT
      rw [waits_select hw] at hnow
      refine .watching hm hx nofun nofun ?_
      simp only [watchBy, setWatch]
      omega
    case missing hw =>
      simp only [hw] at hT
      rw [waits_of_ne (by rw [hw]; nofun)] at hnow
      refine .watching hm hx nofun nofun ?_
      simp only [watchBy, setWatch, Regist.needs]
      omega
    case regist pc' _ hw hr =>
      have hneeds := hr.needs call he hd
      obtain ⟨lease, leaseDV, rfl⟩ := hr.frame
      simp only [hw] at hT
      rw [waits_of_ne (by rw [hw]; nofun)] at hnow
      cases pc'
      all_goals
        refine .watching hm hx nofun nofun ?_
        simp only [Option.elim] at hneeds
        simp only [watchBy, setRegist, Option.elim, rearm, setWatch]
        omega

theorem Racing.step {T : Nat} (hr : Racing call n T s) (ht : s.InTime call n) (hn : n ≤ s.now)
    (h : Prompt call n s e s') (hd : e.done = false) : Racing call n T s' := by
  cases h.step
  case main hs  => exact hr.mainStep ht hn hs h.succeeds hd
  case watch hs => exact hr.watchStep ht hn hs h.succeeds hd
  case tick     =>
    cases hr
    case starting hs hx hi hT      => exact .starting hs hx hi hT
    case watching hm hx hi hend hT => exact .watching hm hx hi hend hT

theorem Regist.needs_bounds (call : Nat) (pc : Regist) :
    call ≤ pc.needs call ∧ pc.needs call ≤ 1000 + 8 * call := by
  cases pc <;> simp only [Regist.needs] <;> omega

theorem Main.needs_bounds (call : Nat) (main : Main) :
    call ≤ main.needs call ∧ main.needs call ≤ 1000 + 8 * call := by
  unfold needs
  split
  case h_2 pc => exact pc.needs_bounds call
  all_goals omega

theorem Racing.now_le {T : Nat} (hr : Racing call n T s) (ht : s.InTime call n) : s.now ≤ T := by
  cases hr
  case starting hs _ _ hT =>
    have hnow := ht.main hs
    have hle := s.main.needs_bounds call
    omega
  case watching hi hend hT =>
    have hnow := ht.watch hi hend
    unfold watchBy at hT
    split at hT
    case h_2 hw => rw [waits_select hw] at hnow; omega
    case h_3 pc hw =>
      rw [waits_of_ne (by rw [hw]; nofun)] at hnow
      have hle := pc.needs_bounds call
      omega
    case h_1 hw    => rw [waits_of_ne (by rw [hw]; nofun)] at hnow; omega
    case h_4 hne _ => rw [waits_of_ne hne] at hnow; omega

theorem inTime_now : s.InTime call s.now where
  main  := fun _ => by omega
  watch := fun _ _ => by omega

theorem Running.racing (call : Nat) (hr : s.Running) (ho : Ordered es s) (hs : Sound s) :
    Racing call s.now (s.now + (5 * 1000 + 8 * call)) s := by
  obtain ⟨hch, hmain, hwatch⟩ := hs.times
  have hstop : s.main ≠ .stopped := by
    rintro hm
    simp [Running, hm, Main.starting] at hr
  have hx : s.exit = false := Bool.eq_false_iff.mpr fun hx => hstop (hs.stopped (.inl hx))
  obtain hst | ⟨hcli, hm⟩ := hr
  case inl =>
    refine .starting hst hx (ho.idle hst) ?_
    have hle := s.main.needs_bounds call
    omega
  case inr =>
    have hidle : s.watch ≠ .idle := by
      intro hi
      obtain hst | hc := hs.idle hi
      · obtain hm | hm := hm <;> rw [hm] at hst <;> cases hst
      · cases hcli.symm.trans hc
    refine .watching hm hx hidle (fun hend => hstop (hs.stopped (.inr hend))) ?_
    unfold watchBy
    split
    case h_3 pc _ =>
      have hle := pc.needs_bounds call
      omega
    all_goals omega

theorem Racing.exec {T : Nat} (hr : Racing call n T s) (ht : s.InTime call n) (hn : n ≤ s.now)
    (h : Exec (Prompt call n) s es s') :
    (∃ e ∈ es, e.done) ∨ Racing call n T s' ∧ s'.InTime call n ∧ n ≤ s'.now := by
  induction h
  case refl => exact .inr ⟨hr, ht, hn⟩
  case snoc e _ hs hi =>
    obtain ⟨e, he, hd⟩ | ⟨hr, ht, hn⟩ := hi
    · exact .inl ⟨e, List.mem_append_left _ he, hd⟩
    · cases hd : e.done
      case true  => exact .inl ⟨e, by simp, hd⟩
      case false => exact .inr ⟨hr.step ht hn hs hd, hs.inTime, Nat.le_trans hn hs.step.now_le⟩

-- A driver that is not stopped is soon told that its key is there, or has put it again and keeps it, if requests
-- succeed from now on. The first requests of the registration may have been made before.
theorem registered_again {es₀ : List Event} (h₀ : Exec Step (start now) es₀ s) (hr : s.Running)
    (h : Exec (Prompt call s.now) s es s') (hnow : s.now + (5 * 1000 + 8 * call) < s'.now) :
    .get (some true) ∈ es ∨ ∃ pre post g id value, es = pre ++ .keepAlive g id true :: post ∧
      [.grant g (some id), .put g id value true] <:+ requests g (es₀ ++ pre) := by
  have hracing := hr.racing call (ordered_of_exec h₀) (sound_of_exec h₀)
  obtain ⟨e, he, hd⟩ | ⟨hr, ht, -⟩ := hracing.exec inTime_now (Nat.le_refl _) h
  case inr => exact absurd (hr.now_le ht) (Nat.not_le.mpr hnow)
  case inl =>
    cases e
    case get found =>
      cases of_decide_eq_true hd
      exact .inl he
    case keepAlive g id ok =>
      cases hd
      obtain ⟨pre, post, rfl⟩ := List.append_of_mem he
      have hrun := h₀.trans (h.mono fun _ _ _ => Prompt.step)
      rw [← List.append_assoc] at hrun
      obtain ⟨-, value, hreq⟩ := inOrder_of_exec hrun
      exact .inr ⟨pre, post, g, id, value, rfl, hreq⟩
    all_goals cases hd

-- The registration by `Start` fails. The watch waits for its timer.
def demoFailed : Registrar where
  now        := 0
  cli        := true
  lease      := none
  leaseDV    := 0
  exit       := false
  main       := .serving
  watch      := .select
  timeCh     := 1000
  mainSince  := 0
  watchSince := 0

theorem exec_demoFailed :
    Exec Step (start 0) [.new true, .grant .main none, .leaseWatch, .started, .loop] demoFailed :=
  .cons (.main (.new rfl)) <| .cons (.main (.regist rfl .grantFailed)) <| .cons (.main (.leaseWatch rfl)) <|
    .cons (.main (.started rfl)) <| .single (.watch (.loop rfl))

def demoAgain : List Event :=
  [.tick 1005, .select, .tick 10, .get (some false), .tick 10, .grant .watch (some 7), .tick 10,
    .put .watch 7 1 true, .tick 10, .keepAlive .watch 7 true, .receive .watch, .loop, .tick 1000, .select,
    .get (some true), .loop, .tick 5000]

theorem exec_demoAgain : ∃ s, Exec (Prompt 10 0) demoFailed demoAgain s ∧ s.now = 7045 := by
  refine ⟨_, .cons ⟨.tick, ?_, rfl⟩ <| .cons ⟨.watch (.select rfl (by decide)), ?_, rfl⟩ <|
    .cons ⟨.tick, ?_, rfl⟩ <| .cons ⟨.watch (.missing rfl), ?_, rfl⟩ <|
    .cons ⟨.tick, ?_, rfl⟩ <| .cons ⟨.watch (.regist rfl .granted), ?_, rfl⟩ <|
    .cons ⟨.tick, ?_, rfl⟩ <| .cons ⟨.watch (.regist rfl (.put rfl)), ?_, rfl⟩ <|
    .cons ⟨.tick, ?_, rfl⟩ <| .cons ⟨.watch (.regist rfl (.keepAlive rfl)), ?_, rfl⟩ <|
    .cons ⟨.watch (.regist rfl .receive), ?_, rfl⟩ <| .cons ⟨.watch (.loop rfl), ?_, rfl⟩ <|
    .cons ⟨.tick, ?_, rfl⟩ <| .cons ⟨.watch (.select rfl (by decide)), ?_, rfl⟩ <|
    .cons ⟨.watch (.found rfl), ?_, rfl⟩ <| .cons ⟨.watch (.loop rfl), ?_, rfl⟩ <|
    .single ⟨.tick, ?_, rfl⟩, rfl⟩
  all_goals decide

theorem registered_again_after_failure : ∃ s, Exec (Prompt 10 demoFailed.now) demoFailed demoAgain s ∧
    (.get (some true) ∈ demoAgain ∨ ∃ pre post g id value, demoAgain = pre ++ .keepAlive g id true :: post ∧
      [.grant g (some id), .put g id value true] <:+
        requests g ([.new true, .grant .main none, .leaseWatch, .started, .loop] ++ pre)) := by
  obtain ⟨s, h, hnow⟩ := exec_demoAgain
  refine ⟨s, h, ?_⟩
  exact registered_again exec_demoFailed (.inr ⟨rfl, .inr rfl⟩) h (by rw [hnow]; decide)

end Registrar
