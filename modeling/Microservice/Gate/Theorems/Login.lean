import Microservice.Gate.Login
import Microservice.Lib.Exec
import Microservice.Lib.Positions

-- Different client ids have different keys, on all gates.
theorem GateService.eq_of_key {service service' : GateService} {X Y : String}
    (h : service.key X = service'.key Y) : X = Y := by
  have h := congrArg String.toList h
  rw [←String.toList_inj]
  cases service <;> cases service' <;> simp [GateService.key] at h <;> exact h

theorem GateService.service_eq_of_key {service service' : GateService} {X Y : String}
    (h : service.key X = service'.key Y) : service = service' := by
  have h := congrArg String.toList h
  cases service <;> cases service' <;> simp [GateService.key] at h <;> rfl

-- The frames that log a client id in or off.
def Frame.Concerns (X : String) : Frame → Prop
  | .login Y | .logoff Y => Y = X
  | .restore _           => False

-- What redis should have once the frame is processed.
def GateConn.expected (conn : GateConn) : Frame → Option String
  | .login _ => some conn.location
  | _        => none

namespace GateClient

variable {redis redis' redis₀ : Redis} {c c' : GateClient} {conn : GateConn} {e : Event} {es : List Event}
variable {n m : Nat} {X Y : String} {f : Frame}

theorem finish_eq_some : c.finish n X = some c' ↔ c.reader = some (n, X) ∧ { c with reader := none } = c' := by
  unfold finish
  split <;> simp [*]

theorem take_eq_some :
    c.take n f = some c' ↔ (n, f) ∈ c.tasks ∧ { c with tasks := c.tasks.erase (n, f) } = c' := by
  unfold take
  split <;> simp [*]

-- What a step of the connection does.
inductive Change (redis : Redis) (c : GateClient) : Event → Redis → GateClient → Prop
  | send (f : Frame) : Change redis c (.send f) redis { c with frames := c.frames ++ [f] }
  | login (X : String) (frames : List Frame) :
    c.reader = none → c.frames = .login X :: frames →
    Change redis c .read redis
      { c with frames := frames, count := c.count + 1, reader := some (c.count, X) }
  | task (f : Frame) (frames : List Frame) :
    c.reader = none → c.frames = f :: frames → (∀ X, f ≠ .login X) →
    Change redis c .read redis
      { c with frames := frames, count := c.count + 1, tasks := c.tasks ++ [(c.count, f)] }
  | set (n : Nat) (X : String) :
    c.reader = some (n, X) →
    Change redis c (.set n X) (redis.insert (c.conn.service.key X) c.conn.location)
      { c with reader := none }
  | setFailed (n : Nat) (X : String) :
    c.reader = some (n, X) → Change redis c (.setFailed n X) redis { c with reader := none }
  | del (n : Nat) (X : String) :
    (n, .logoff X) ∈ c.tasks →
    Change redis c (.del n X) (redis.erase (c.conn.service.key X))
      { c with tasks := c.tasks.erase (n, .logoff X) }
  | delFailed (n : Nat) (X : String) :
    (n, .logoff X) ∈ c.tasks →
    Change redis c (.delFailed n X) redis { c with tasks := c.tasks.erase (n, .logoff X) }
  | restore (n : Nat) (X : String) (e : Event) :
    (n, .restore X) ∈ c.tasks → e = .forward n X ∨ e = .lost n X →
    Change redis c e redis { c with tasks := c.tasks.erase (n, .restore X) }

theorem Step.change (h : Step (redis, c) e (redis', c')) : Change redis c e redis' c' := by
  cases e <;> simp only [Step, step] at h
  case send f => cases h; exact .send f
  case read =>
    split at h <;> cases h
    case h_1 f frames hr hf =>
      cases f
      case login            => exact .login _ _ hr hf
      case logoff | restore => exact .task _ _ hr hf (by simp)
  all_goals
    obtain ⟨c', hc, he⟩ := Option.map_eq_some_iff.mp h
    cases he
  case set n X       => obtain ⟨hr, he⟩ := finish_eq_some.mp hc; exact he ▸ .set n X hr
  case setFailed n X => obtain ⟨hr, he⟩ := finish_eq_some.mp hc; exact he ▸ .setFailed n X hr
  case del n X       => obtain ⟨ht, he⟩ := take_eq_some.mp hc; exact he ▸ .del n X ht
  case delFailed n X => obtain ⟨ht, he⟩ := take_eq_some.mp hc; exact he ▸ .delFailed n X ht
  case forward n X   => obtain ⟨ht, he⟩ := take_eq_some.mp hc; exact he ▸ .restore n X _ ht (.inl rfl)
  case lost n X      => obtain ⟨ht, he⟩ := take_eq_some.mp hc; exact he ▸ .restore n X _ ht (.inr rfl)

-- The frames that the client has written.
def sent (es : List Event) : List Frame :=
  es.filterMap fun
    | .send f => some f
    | _       => none

theorem sent_send : sent (es ++ [.send f]) = sent es ++ [f] :=
  List.filterMap_append

theorem sent_of_ne (h : ∀ f, e ≠ .send f) : sent (es ++ [e]) = sent es := by
  cases e
  case send f => cases h f rfl
  all_goals exact List.filterMap_append.trans (List.append_nil _)

-- What has been done goes back to the frames that have been read: the login that the reader runs is the
-- last of them, and each one before it is done or in the task pool.
structure Account (log : List Frame) (es : List Event) (c : GateClient) : Prop where
  count  : log.length = c.count
  reader : ∀ n X, c.reader = some (n, X) → n + 1 = c.count ∧ log[n]? = some (.login X)
  tasks  : ∀ n f, (n, f) ∈ c.tasks → log[n]? = some f
  set    : ∀ n X, .set n X ∈ es → log[n]? = some (.login X) ∧ ∀ m Y, c.reader = some (m, Y) → n < m
  del    : ∀ n X, .del n X ∈ es → log[n]? = some (.logoff X)
  login  : ∀ n X, log[n]? = some (.login X) →
    c.reader = some (n, X) ∨ .set n X ∈ es ∨ .setFailed n X ∈ es
  logoff : ∀ n X, log[n]? = some (.logoff X) →
    (n, .logoff X) ∈ c.tasks ∨ .del n X ∈ es ∨ .delFailed n X ∈ es

theorem accepted_account : Account [] [] (accepted conn) := by
  constructor <;> simp [accepted]

variable {log frames : List Frame}

theorem Account.lt (h : Account log es c) (hn : log[n]? = some f) : n < c.count :=
  h.count ▸ (List.getElem?_eq_some_iff.mp hn).1

theorem Account.send (h : Account log es c) (g : Frame) :
    Account log (es ++ [.send g]) { c with frames := frames } := by
  constructor <;> simp only [List.mem_append, List.mem_singleton, reduceCtorEq, or_false]
  exacts [h.count, h.reader, h.tasks, h.set, h.del, h.login, h.logoff]

theorem Account.read_login (h : Account log es c) (hr : c.reader = none) (X : String) :
    Account (log ++ [.login X]) (es ++ [.read])
      { c with frames := frames, count := c.count + 1, reader := some (c.count, X) } where
  count       := by simp [h.count]
  reader n Y  := by rintro ⟨⟩; exact ⟨rfl, h.count ▸ List.getElem?_concat_length⟩
  tasks n f t := List.getElem?_append_of_eq_some (h.tasks n f t)
  set n Y hs  := by
    have hn := (h.set n Y (by simpa using hs)).1
    refine ⟨List.getElem?_append_of_eq_some hn, ?_⟩
    rintro _ _ ⟨⟩
    exact h.lt hn
  del n Y hd  := List.getElem?_append_of_eq_some (h.del n Y (by simpa using hd))
  login n Y hn := by
    obtain hn | ⟨rfl, he⟩ := List.getElem?_concat_cases hn
    · have hl := h.login n Y hn
      simp only [hr, reduceCtorEq, false_or] at hl
      exact .inr (by simpa using hl)
    · cases he
      exact .inl (by simp [h.count])
  logoff n Y hn := by
    obtain hn | ⟨_, he⟩ := List.getElem?_concat_cases hn
    · simpa using h.logoff n Y hn
    · cases he

theorem Account.read_task (h : Account log es c) (hr : c.reader = none) (hf : ∀ X, f ≠ .login X) :
    Account (log ++ [f]) (es ++ [.read])
      { c with frames := frames, count := c.count + 1, tasks := c.tasks ++ [(c.count, f)] } where
  count       := by simp [h.count]
  reader n Y  := by simp [hr]
  tasks n g t := by
    obtain t | t := List.mem_append.mp t
    · exact List.getElem?_append_of_eq_some (h.tasks n g t)
    · cases List.mem_singleton.mp t
      exact h.count ▸ List.getElem?_concat_length
  set n Y hs  := by
    have hn := (h.set n Y (by simpa using hs)).1
    exact ⟨List.getElem?_append_of_eq_some hn, by simp [hr]⟩
  del n Y hd  := List.getElem?_append_of_eq_some (h.del n Y (by simpa using hd))
  login n Y hn := by
    obtain hn | ⟨_, he⟩ := List.getElem?_concat_cases hn
    · simpa using h.login n Y hn
    · cases hf Y he.symm
  logoff n Y hn := by
    obtain hn | ⟨rfl, rfl⟩ := List.getElem?_concat_cases hn
    · have hl := h.logoff n Y hn
      simp only [List.mem_append, List.mem_singleton, reduceCtorEq, or_false]
      exact hl.imp_left .inl
    · exact .inl (by simp [h.count])

-- The reader gets to the end of a login.
theorem Account.finish (h : Account log es c) (hr : c.reader = some (n, X))
    (he : e = .set n X ∨ e = .setFailed n X) : Account log (es ++ [e]) { c with reader := none } where
  count       := h.count
  reader _ _  := nofun
  tasks       := h.tasks
  set m Y hs  := by
    refine ⟨?_, nofun⟩
    obtain hs | hs := List.mem_append.mp hs
    · exact (h.set m Y hs).1
    · rw [List.mem_singleton] at hs
      subst hs
      obtain he | he := he <;> cases he
      exact (h.reader n X hr).2
  del m Y hd  := by
    obtain hd | hd := List.mem_append.mp hd
    · exact h.del m Y hd
    · rw [List.mem_singleton] at hd
      subst hd
      obtain he | he := he <;> cases he
  login m Y hm := by
    obtain hl | hl := h.login m Y hm
    · cases hr.symm.trans hl
      obtain rfl | rfl := he <;> simp
    · exact .inr (hl.imp (List.mem_append_left _) (List.mem_append_left _))
  logoff m Y hm := (h.logoff m Y hm).imp_right (·.imp (List.mem_append_left _) (List.mem_append_left _))

-- A worker of the pool runs a task.
theorem Account.take (h : Account log es c) (ht : (n, f) ∈ c.tasks)
    (hset : ∀ m Y, e ≠ .set m Y) (hdel : ∀ m Y, e = .del m Y → m = n ∧ f = .logoff Y)
    (hf : ∀ Y, f = .logoff Y → e = .del n Y ∨ e = .delFailed n Y) :
    Account log (es ++ [e]) { c with tasks := c.tasks.erase (n, f) } where
  count       := h.count
  reader      := h.reader
  tasks m g t := h.tasks m g (List.mem_of_mem_erase t)
  set m Y hs  := by
    obtain hs | hs := List.mem_append.mp hs
    · exact h.set m Y hs
    · exact absurd (List.mem_singleton.mp hs).symm (hset m Y)
  del m Y hd  := by
    obtain hd | hd := List.mem_append.mp hd
    · exact h.del m Y hd
    · obtain ⟨rfl, rfl⟩ := hdel m Y (List.mem_singleton.mp hd).symm
      exact h.tasks _ _ ht
  login m Y hm := (h.login m Y hm).imp_right (·.imp (List.mem_append_left _) (List.mem_append_left _))
  logoff m Y hm := by
    obtain hl | hl := h.logoff m Y hm
    · by_cases he : (m, Frame.logoff Y) = (n, f)
      case neg => exact .inl ((List.mem_erase_of_ne he).mpr hl)
      case pos =>
        cases he
        exact .inr (by obtain rfl | rfl := hf Y rfl <;> simp)
    · exact .inr (hl.imp (List.mem_append_left _) (List.mem_append_left _))

-- The frames that have been written are those that have been read and those that have not.
def Accounted (es : List Event) (c : GateClient) : Prop :=
  ∃ log, sent es = log ++ c.frames ∧ Account log es c

theorem Accounted.step (h : Accounted es c) (hc : Change redis c e redis' c') :
    Accounted (es ++ [e]) c' := by
  have ⟨log, hs, h⟩ := h
  cases hc
  case send g => exact ⟨log, by simp [sent_send, hs], h.send g⟩
  case login X frames hr hf =>
    exact ⟨log ++ [.login X], by simp [sent_of_ne, hs, hf], h.read_login hr X⟩
  case task f frames hr hf hn => exact ⟨log ++ [f], by simp [sent_of_ne, hs, hf], h.read_task hr hn⟩
  case set hr       => exact ⟨log, by simp [sent_of_ne, hs], h.finish hr (.inl rfl)⟩
  case setFailed hr => exact ⟨log, by simp [sent_of_ne, hs], h.finish hr (.inr rfl)⟩
  case del n X ht   =>
    refine ⟨log, by simp [sent_of_ne, hs], h.take ht nofun ?_ ?_⟩
    · rintro _ _ ⟨⟩; exact ⟨rfl, rfl⟩
    · rintro _ ⟨⟩; exact .inl rfl
  case delFailed n X ht =>
    refine ⟨log, by simp [sent_of_ne, hs], h.take ht nofun nofun ?_⟩
    rintro _ ⟨⟩; exact .inr rfl
  case restore n X ht he =>
    obtain rfl | rfl := he <;> exact ⟨log, by simp [sent_of_ne, hs], h.take ht nofun nofun nofun⟩

-- The events that write to the key of a client id.
def Event.writes (X : String) : Event → Bool
  | .set _ Y | .del _ Y => Y = X
  | _                   => false

def Event.num : Event → Nat
  | .set n _ | .setFailed n _ | .del n _ | .delFailed n _ | .forward n _ | .lost n _ => n
  | .send _ | .read => 0

-- What the last write to a key leaves there.
def left (conn : GateConn) (old : Option String) : Option Event → Option String
  | some (.set ..) => some conn.location
  | some _         => none
  | none           => old

-- The writes to the key of `X`: the last one counts, and a login comes after all that it follows.
structure Writes (redis₀ : Redis) (conn : GateConn) (X : String) (es : List Event) (redis : Redis)
    (c : GateClient) : Prop where
  conn_eq : c.conn = conn
  value   : redis (conn.service.key X) =
    left conn (redis₀ (conn.service.key X)) (es.filter (·.writes X)).getLast?
  order   : (es.filter (·.writes X)).Pairwise fun e e' => ∀ m Y, e' = .set m Y → e.num < m

theorem filter_writes (h : e.writes X = true) :
    (es ++ [e]).filter (·.writes X) = es.filter (·.writes X) ++ [e] := by
  simp [List.filter_append, h]

theorem filter_writes_of_ne (h : e.writes X = false) :
    (es ++ [e]).filter (·.writes X) = es.filter (·.writes X) := by
  simp [List.filter_append, h]

theorem Writes.idle (h : Writes redis₀ conn X es redis c) (he : e.writes X = false)
    (hr : redis' (conn.service.key X) = redis (conn.service.key X)) (hc : c'.conn = c.conn) :
    Writes redis₀ conn X (es ++ [e]) redis' c' where
  conn_eq := hc.trans h.conn_eq
  value   := by rw [hr, h.value, filter_writes_of_ne he]
  order   := by rw [filter_writes_of_ne he]; exact h.order

theorem Writes.write (h : Writes redis₀ conn X es redis c) (he : e.writes X = true)
    (hr : redis' (conn.service.key X) = left conn (redis₀ (conn.service.key X)) (some e))
    (hc : c'.conn = c.conn) (ho : ∀ m Y, e = .set m Y → ∀ e' ∈ es, e'.writes X → e'.num < m) :
    Writes redis₀ conn X (es ++ [e]) redis' c' where
  conn_eq := hc.trans h.conn_eq
  value   := by rw [hr, filter_writes he, List.getLast?_concat]
  order   := by
    rw [filter_writes he, List.pairwise_append]
    refine ⟨h.order, List.pairwise_singleton _ _, ?_⟩
    intro e₁ h₁ e₂ h₂ m Y h
    have ⟨h₁, hw⟩ := List.mem_filter.mp h₁
    exact ho m Y (List.mem_singleton.mp h₂ ▸ h) e₁ h₁ hw

-- When the reader runs a login, all that has been written before goes back to earlier frames.
theorem Account.num_lt (h : Account log es c) (hr : c.reader = some (n, Y)) (he : e ∈ es)
    (hw : e.writes X) : e.num < n := by
  cases e <;> simp only [Event.writes, Bool.false_eq_true] at hw
  case set k Z => exact (h.set k Z he).2 n Y hr
  case del k Z =>
    have hk := h.del k Z he
    have ⟨hn, hl⟩ := h.reader n Y hr
    have hne : k ≠ n := by
      rintro rfl
      cases hk.symm.trans hl
    have := h.lt hk
    simp only [Event.num]
    omega

theorem Writes.step (h : Writes redis₀ conn X es redis c) (ha : Accounted es c)
    (hc : Change redis c e redis' c') : Writes redis₀ conn X (es ++ [e]) redis' c' := by
  have hconn := h.conn_eq
  cases hc
  case send | login | task | setFailed | delFailed => exact h.idle rfl rfl rfl
  case restore he => obtain rfl | rfl := he <;> exact h.idle rfl rfl rfl
  case set n Y hr =>
    subst hconn
    by_cases hY : Y = X
    case pos =>
      subst hY
      obtain ⟨log, _, ha⟩ := ha
      refine h.write (by simp [Event.writes]) (by simp [left]) rfl ?_
      rintro _ _ ⟨⟩ e he hw
      exact ha.num_lt hr he hw
    case neg =>
      exact h.idle (by simp [Event.writes, hY])
        (Partial.insert_of_ne fun hk => hY (GateService.eq_of_key hk).symm) rfl
  case del n Y ht =>
    subst hconn
    by_cases hY : Y = X
    case pos => subst hY; exact h.write (by simp [Event.writes]) (by simp [left]) rfl (by simp)
    case neg =>
      exact h.idle (by simp [Event.writes, hY])
        (Partial.erase_of_ne fun hk => hY (GateService.eq_of_key hk).symm) rfl

theorem writes_of_exec (h : Exec Step (redis₀, accepted conn) es (redis, c)) :
    Accounted es c ∧ Writes redis₀ conn X es redis c := by
  refine h.invariant (I := fun es s => Accounted es s.snd ∧ Writes redis₀ conn X es s.fst s.snd) ?_ ?_
  · exact ⟨⟨[], rfl, accepted_account⟩, ⟨rfl, rfl, .nil⟩⟩
  · intro es s e s' _ ⟨ha, hw⟩ hs
    exact ⟨ha.step hs.change, hw.step ha hs.change⟩

theorem mem_of_pair_sublist {a b w : Event} (h : [a, b].Sublist (es ++ [w])) (hw : b ≠ w) : a ∈ es := by
  cases List.pair_sublist_concat h
  case inl h => exact h.subset List.mem_cons_self
  case inr h => exact absurd h.1 hw

-- The last frame for the client id has been processed.
theorem Account.processed (h : Account log es c) (hr : c.reader = none) (ht : c.tasks = [])
    (hs : ∀ n Y, .setFailed n Y ∉ es ∧ .delFailed n Y ∉ es) (hn : log[n]? = some f)
    (hf : f.Concerns X) : f = .login X ∧ .set n X ∈ es ∨ f = .logoff X ∧ .del n X ∈ es := by
  cases f
  case login Y =>
    obtain rfl : Y = X := hf
    have hl := h.login n Y hn
    exact .inl ⟨rfl, by simpa [hr, (hs n Y).1] using hl⟩
  case logoff Y =>
    obtain rfl : Y = X := hf
    have hl := h.logoff n Y hn
    exact .inr ⟨rfl, by simpa [ht, (hs n Y).2] using hl⟩
  case restore => exact hf.elim

-- Once everything is processed, the key of the client id is what its last frame asked for, if and only if
-- that frame is not a login which a logoff has run after.
theorem login_state_iff (h : Exec Step (redis₀, accepted conn) es (redis, c)) (hp : c.Processed)
    (hs : ∀ n Y, .setFailed n Y ∉ es ∧ .delFailed n Y ∉ es) (hn : (sent es)[n]? = some f)
    (hf : f.Concerns X) (hl : ∀ m g, n < m → (sent es)[m]? = some g → ¬g.Concerns X) :
    redis (conn.service.key X) = conn.expected f ↔ ∀ m, ¬[.set n X, .del m X].Sublist es := by
  have ⟨⟨log, hlog, ha⟩, hw⟩ := writes_of_exec (X := X) h
  have ⟨hfr, hr, ht⟩ := hp
  rw [hfr, List.append_nil] at hlog
  rw [hlog] at hn hl
  have hdone := ha.processed hr ht hs hn hf
  -- Only the writes matter, and there is at least that of the last frame.
  have hsub m : [.set n X, .del m X].Sublist es ↔
      [.set n X, .del m X].Sublist (es.filter (·.writes X)) :=
    ⟨fun h => by simpa [Event.writes] using h.filter (·.writes X), fun h => h.trans List.filter_sublist⟩
  have hmem {e} (he : e ∈ es) (hw : e.writes X) : e ∈ es.filter (·.writes X) :=
    List.mem_filter.mpr ⟨he, hw⟩
  obtain hnil | ⟨ws, w, hws⟩ := List.eq_nil_or_concat (es.filter (·.writes X))
  case inl =>
    obtain ⟨_, he⟩ | ⟨_, he⟩ := hdone <;> cases hnil ▸ hmem he (by simp [Event.writes])
  rw [List.concat_eq_append] at hws
  simp only [hw.value, hsub, hws, List.getLast?_concat]
  have ⟨hw', hwX⟩ : w ∈ es ∧ w.writes X := List.mem_filter.mp (hws ▸ by simp)
  have horder := (List.pairwise_append.mp (hws ▸ hw.order)).2.2
  cases w <;> simp only [Event.writes, Bool.false_eq_true, decide_eq_true_eq] at hwX <;> subst hwX
  case set m Y =>
    have hm : m ≤ n := by
      by_contra hlt
      exact hl m _ (by omega) (ha.set m Y hw').1 rfl
    have hlt {e} (he : e ∈ ws) : e.num < m := horder e he _ (by simp) m Y rfl
    obtain ⟨rfl, he⟩ | ⟨rfl, he⟩ := hdone
    case inl =>
      refine iff_of_true rfl fun k hk => ?_
      have := hlt (mem_of_pair_sublist hk nofun)
      exact absurd this (by simpa [Event.num] using hm)
    case inr =>
      have he := hmem he (by simp [Event.writes])
      rw [hws] at he
      have := hlt (e := .del n Y) (by simpa using he)
      exact absurd this (by simpa [Event.num] using hm)
  case del k Y =>
    obtain ⟨rfl, he⟩ | ⟨rfl, he⟩ := hdone
    case inl =>
      have he := hmem he (by simp [Event.writes])
      rw [hws] at he
      have he : .set n Y ∈ ws := by simpa using he
      refine iff_of_false nofun fun hk => hk k ?_
      exact (List.singleton_sublist.mpr he).append (List.Sublist.refl [_])
    case inr =>
      refine iff_of_true rfl fun m hm => ?_
      have he := (hsub m).mpr (hws ▸ hm) |>.subset (List.mem_cons_self ..)
      cases hn.symm.trans (ha.set n Y he).1

-- A connection to a client gate.
def demoConn : GateConn where
  service    := .clientGate
  listerAddr := ⟨"[::]:9000", by decide⟩
  connID     := ⟨"10.0.0.7:51000", by decide⟩

-- The logoff is done before the login is read.
theorem login_state_of_logoff_login :
    let es := [.send (.logoff "x"), .send (.login "x"), .read, .del 0 "x", .read, .set 1 "x"]
    ∃ redis c, Exec Step (fun _ => none, accepted demoConn) es (redis, c) ∧ c.Processed ∧
      (sent es)[1]? = some (.login "x") ∧ redis "c_x" = some demoConn.location := by
  intro es
  have ⟨redis, c, h, hp⟩ : ∃ redis c,
      es.foldlM (fun s e => step s.1 s.2 e) (fun _ => none, accepted demoConn) = some (redis, c) ∧
      c.Processed := ⟨_, _, rfl, rfl, rfl, rfl⟩
  have h : Exec Step _ es _ := .of_foldlM (fun _ _ _ h => h) h
  refine ⟨redis, c, h, hp, rfl, ?_⟩
  refine (login_state_iff (n := 1) (f := .login "x") h hp (by simp [es]) rfl rfl ?_).mpr ?_
  · intro m g hm hg
    have hlt : m < 2 := (List.getElem?_eq_some_iff.mp hg).1
    omega
  · intro m hm
    have hm : Event.set 1 "x" ∈ es.dropLast := mem_of_pair_sublist (w := .set 1 "x") hm nofun
    exact absurd hm (by decide)

-- The login is run by the reader while the logoff before it is still in the task pool.
theorem login_lost_to_queued_logoff :
    let es := [.send (.logoff "x"), .send (.login "x"), .read, .read, .set 1 "x", .del 0 "x"]
    ∃ redis c, Exec Step (fun _ => none, accepted demoConn) es (redis, c) ∧ c.Processed ∧
      (sent es).getLast? = some (.login "x") ∧ redis "c_x" = none :=
  ⟨_, _, .of_foldlM (f := fun s e => step s.1 s.2 e) (fun _ _ _ h => h) rfl, ⟨rfl, rfl, rfl⟩, rfl, rfl⟩

end GateClient
