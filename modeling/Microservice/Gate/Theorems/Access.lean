import Microservice.Gate.Replay
import Microservice.Gate.Theorems.Basic

namespace Gate

section

variable {ρ : Type*}

-- The permissions in a report that comes over a connection to the service `key`.
def reportOf (key : RemoteId) : Source → Rpc ρ → Option (Partial String Bool)
  | .remote r, .accessReport _ access => if r.id = key then some access else none
  | _, _                              => none

-- The report that a step reads from a connection to the service.
def Event.reports (key : RemoteId) : Event ρ → Option (Partial String Bool)
  | .frame src rpc => reportOf key src rpc.body
  | _              => none

-- The most recent report that was received over a connection to the service.
def latestReport (key : RemoteId) (es : List (Event ρ)) : Option (Partial String Bool) :=
  (es.filterMap (Event.reports key)).getLast?

def Event.forwards (i : Nat) : Event ρ → Bool
  | .send j _ (.g2sRpcCall ..) => j = i
  | _                          => false

def Forwarded (es : List (Event ρ)) (i : Nat) : Prop :=
  ∃ e ∈ es, e.forwards i = true

-- When the request was checked, the most recent report of the service marked the inner rpc as accessible.
def Permitted (cfg : Config ρ) (es : List (Event ρ)) (i : Nat) (req : RouteReq) : Prop :=
  ∃ pre post access, es = pre ++ .check i :: post ∧ latestReport req.remoteID pre = some access ∧
    access (cfg.rpcName req.innerRpc) = some true

-- What is forwarded for a TCP client is what the service itself has permitted.
def AccessControlled (cfg : Config ρ) (es : List (Event ρ)) (g : Gate ρ) : Prop :=
  ∀ i t req, g.At i t → t.rpc = .route req → t.src.IsTcpClient → Forwarded es i → Permitted cfg es i req

-- A report about a service is received over a connection to it.
def Event.OwnReport (e : Event ρ) : Prop :=
  ∀ i src key access, e = .report i src key access → ∃ r, src = .remote r ∧ r.id = key

instance : DecidablePred (Event.OwnReport : Event ρ → Prop) := fun e =>
  match e with
  | .report _ (.remote r) key _ =>
    decidable_of_iff (r.id = key) ⟨fun h => by rintro _ _ _ _ ⟨⟩; exact ⟨r, rfl, h⟩, fun h => by
      obtain ⟨_, ⟨⟩, h⟩ := h _ _ _ _ rfl
      exact h⟩
  | .report _ (.tcpClient _) _ _ => .isFalse fun h => nomatch h _ _ _ _ rfl
  | .accept _ | .close _ | .rmgr _ | .frame .. | .take _ | .check _ | .reject .. | .choose _
  | .noReply _ | .genGid .. | .register .. | .added .. | .get .. | .deleted .. | .lookup _ | .send ..
  | .done _ | .panic _ | .mgr _ => .isTrue nofun

def Rpc.request : Rpc ρ → Option RouteReq
  | .route req => some req
  | _          => none

def Task.reports (key : RemoteId) (t : Task ρ) : Option (Partial String Bool) :=
  reportOf key t.src t.rpc

-- All reports that were received over connections to the service are handled.
def Settled (g : Gate ρ) (key : RemoteId) : Prop :=
  ∀ t ∈ g.tasks, (t.reports key).isSome → t.pc.Ended

instance (g : Gate ρ) (key : RemoteId) : Decidable (g.Settled key) :=
  inferInstanceAs (Decidable (∀ t ∈ g.tasks, (t.reports key).isSome → t.pc.Ended))

-- The reports of a service are handled in the order in which they were received, and those received before a
-- request of a client for the service is checked are handled before it is.
def ReportsFirst (g : Gate ρ) : Event ρ → Prop
  | .report i (.remote r) _ _ => ∀ t ∈ g.tasks.drop (i + 1), (t.reports r.id).isSome → ¬t.pc.Ended
  | .check i =>
    ∀ t ∈ g.tasks[i]?, ∀ req ∈ t.rpc.request, t.src.IsTcpClient → g.Settled req.remoteID
  | _ => True

instance (g : Gate ρ) : DecidablePred g.ReportsFirst := fun e =>
  match e with
  | .report i (.remote r) _ _ =>
    inferInstanceAs (Decidable (∀ t ∈ g.tasks.drop (i + 1), (t.reports r.id).isSome → ¬t.pc.Ended))
  | .check i =>
    inferInstanceAs (Decidable
      (∀ t ∈ g.tasks[i]?, ∀ req ∈ t.rpc.request, t.src.IsTcpClient → g.Settled req.remoteID))
  | .report _ (.tcpClient _) _ _ | .accept _ | .close _ | .rmgr _ | .frame .. | .take _ | .reject .. | .choose _
  | .noReply _ | .genGid .. | .register .. | .added .. | .get .. | .deleted .. | .lookup _ | .send ..
  | .done _ | .panic _ | .mgr _ => .isTrue trivial

-- A step in which the services report on themselves, and are heard in time.
structure Reported (cfg : Config ρ) (g : Gate ρ) (e : Event ρ) (g' : Gate ρ) : Prop where
  step  : Step cfg g e g'
  own   : e.OwnReport
  first : g.ReportsFirst e

-- The route handler has passed the check.
def Pc.Passed : Pc → Prop
  | .choosing _ | .drawn _ | .adding .. | .sending _ => True
  | _                                                => False

-- What a report has brought into the table, if it is handled.
def Task.handled (key : RemoteId) (t : Task ρ) : Option (Partial String Bool) :=
  if t.pc.Ended then t.reports key else none

-- The last report of the service, of those that are handled.
def lastHandled (g : Gate ρ) (key : RemoteId) : Option (Partial String Bool) :=
  (g.tasks.filterMap (Task.handled key)).getLast?

end

variable {ρ : Type*} {cfg : Config ρ} {g g' : Gate ρ} {e : Event ρ} {es : List (Event ρ)}
variable {i : Nat} {t s : Task ρ} {req : RouteReq} {key : RemoteId}

theorem Rpc.eq_route_of_request {rpc : Rpc ρ} (h : rpc.request = some req) : rpc = .route req := by
  cases rpc <;> simp_all [Rpc.request]

theorem reportOf_eq_some {src : Source} {rpc : Rpc ρ} {access : Partial String Bool}
    (h : reportOf key src rpc = some access) :
    ∃ r serviceKey, src = .remote r ∧ r.id = key ∧ rpc = .accessReport serviceKey access := by
  unfold reportOf at h
  split at h
  case h_2 => cases h
  case h_1 r serviceKey access =>
    split at h <;> cases h
    case isTrue hr => exact ⟨r, serviceKey, rfl, hr, rfl⟩

-- The handler of a report has not begun, or is done.
def Task.Reporting (t : Task ρ) : Prop :=
  ∀ serviceKey access, t.rpc = .accessReport serviceKey access → t.pc = .start ∨ t.pc = .finished

-- A step of the handler of a report handles it, or leaves it where it is.
theorem Act.reporting (ha : Act cfg g e g') (ht : g.At i t) (hr : t.Reporting) (hs : g'.At i s)
    (hrpc : s.rpc = .accessReport serviceKey access) :
    s.pc = t.pc ∨ (t.pc = .start ∧ s.pc = .finished ∧ e = .report i t.src serviceKey access) := by
  obtain ⟨ht', _⟩ | ⟨src, rpc, he, hl, rfl⟩ | ⟨t', ht', hm⟩ := ha.taskStep.back hs
  · obtain rfl := ht.unique ht'
    exact .inl rfl
  · have hlt := (List.getElem?_eq_some_iff.mp ht).1
    omega
  obtain rfl := ht.unique ht'
  obtain hpc | hpc := hr serviceKey access (hm.rpc ▸ hrpc)
  case inr => exact .inl (hm.ended (by simp [hpc, Pc.Ended]))
  have hact := hm.actor
  cases ha <;> simp only [Event.actor, Option.some.injEq, reduceCtorEq] at hact <;> subst hact
  case take hi _ =>
    obtain rfl := hs.moved hi rfl
    obtain rfl := At.unique hi ht
    exact .inl rfl
  all_goals
    rename g.Runs _ _ => hrun
    obtain rfl := At.unique hrun.1 ht
    obtain rfl := hs.moved hrun.1 rfl
  case report hrpc' _ =>
    cases hrpc'.symm.trans hrpc
    exact .inr ⟨hpc, rfl, rfl⟩
  case send ho _ | tooLong ho _ =>
    obtain ⟨_, _, hr', _⟩ | ⟨_, _, hr', _⟩ | ⟨_, _, _, _, hr', _⟩ | ⟨_, _, _, _, hr', _⟩ :=
      Task.outgoing_cases ho <;> cases hr'.symm.trans hrpc
  all_goals
    rename Task.pc _ = _ => hpc'
    simp_all [Rpc.cbid]

theorem accessible_of_permission (hid : cfg.identity = .clientGate) (hc : t.src.IsTcpClient)
    (h : g.permission cfg t.src req = none) :
    ∃ access, g.gClientAccess req.remoteID = some access ∧
      access (cfg.rpcName req.innerRpc) = some true := by
  unfold permission at h
  rw [if_pos ⟨hid, hc⟩] at h
  split at h
  case h_1 => cases h
  case h_2 access ha =>
    split at h
    case h_1 hr => exact ⟨access, ha, hr⟩
    case h_2    => cases h

-- A handler gets past the check by passing it.
theorem Act.passed_cases (ha : Act cfg g e g') (hi : g'.At i s) (hr : s.rpc = .route req)
    (hp : s.pc.Passed) :
    (∃ t, g.At i t ∧ t.rpc = .route req ∧ t.src = s.src ∧ t.pc.Passed) ∨
    (e = .check i ∧ g.permission cfg s.src req = none) := by
  obtain ⟨hi', _⟩ | ⟨_, _, _, _, rfl⟩ | ⟨t, ht, hm⟩ := ha.taskStep.back hi
  · exact .inl ⟨s, hi', hr, rfl, hp⟩
  · exact hp.elim
  have hact := hm.actor
  cases ha <;> simp only [Event.actor, Option.some.injEq, reduceCtorEq] at hact <;> subst hact
  case take ht' _ =>
    obtain rfl := hi.moved ht' rfl
    exact .inl ⟨_, ht', hr, rfl, hp⟩
  all_goals
    rename g.Runs _ _ => hrun
    obtain rfl := hi.moved hrun.1 rfl
  case check hrpc _ hperm =>
    cases hrpc.symm.trans hr
    exact .inr ⟨rfl, hperm⟩
  case choose hpc _ _ | noReply hpc _ | genGid hpc _ | register hpc _ | added hpc _ =>
    exact .inl ⟨_, hrun.1, hr, rfl, by simp [hpc, Pc.Passed]⟩
  case refuse | notExist =>
    unfold rejected at hp
    split at hp <;> exact hp.elim
  all_goals exact hp.elim

theorem Permitted.snoc (h : Permitted cfg es i req) : Permitted cfg (es ++ [e]) i req := by
  obtain ⟨pre, post, access, rfl, hl, ha⟩ := h
  exact ⟨pre, post ++ [e], access, by simp, hl, ha⟩

-- The reports of a service are among the tasks, and the table has the last of those that are handled.
structure Reports (es : List (Event ρ)) (g : Gate ρ) : Prop where
  read  : ∀ key, es.filterMap (Event.reports key) = g.tasks.filterMap (Task.reports key)
  tasks : ∀ i t, g.At i t → t.Reporting
  table : ∀ key, g.gClientAccess key = g.lastHandled key

theorem init_reports : Reports [] (init : Gate ρ) := by
  constructor <;> simp [init, lastHandled]

theorem Act.read (ha : Act cfg g e g') (key : RemoteId) :
    g'.tasks.filterMap (Task.reports key) =
      g.tasks.filterMap (Task.reports key) ++ (e.reports key).toList := by
  generalize hts : g'.tasks = ts
  have hstep := hts ▸ ha.taskStep
  cases hstep
  case idle hact he =>
    have hn : e.reports key = none := by
      cases e <;> first | rfl | exact absurd rfl (he _ _)
    simp [hn]
  case frame src rpc he =>
    have hr : e.reports key = (Task.new src rpc).reports key := by rw [he]; rfl
    rw [List.filterMap_append, hr]
    cases hr : (Task.new src rpc).reports key <;> simp [hr]
  case move i t t' hi hm =>
    have hn : e.reports key = none := by
      have hact := hm.actor
      cases e <;> first | rfl | cases hact
    have hf : t'.reports key = t.reports key := by rw [Task.reports, Task.reports, hm.src, hm.rpc]
    rw [List.filterMap_set_of_eq_some hi hf, hn]
    simp

theorem Act.reporting_tasks (ha : Act cfg g e g') (h : ∀ i t, g.At i t → t.Reporting) (hs : g'.At i s) :
    s.Reporting := by
  intro serviceKey access hrpc
  obtain ⟨hi, _⟩ | ⟨src, rpc, _, _, rfl⟩ | ⟨t, ht, hm⟩ := ha.taskStep.back hs
  · exact h i s hi serviceKey access hrpc
  · exact .inl rfl
  · obtain hpc | ⟨_, hpc, _⟩ := ha.reporting ht (h i t ht) hs hrpc
    · rw [hpc]
      exact h i t ht serviceKey access (hm.rpc ▸ hrpc)
    · exact .inr hpc

-- What is handled stays handled, and only the step of a report adds to it.
theorem Act.handled (ha : Act cfg g e g') (h : ∀ i t, g.At i t → t.Reporting) (ht : g.At i t) (hs : g'.At i s)
    (hm : Moves e i t s) (hn : ∀ src serviceKey access, e ≠ .report i src serviceKey access) :
    s.handled key = t.handled key := by
  have hrep : s.reports key = t.reports key := by rw [Task.reports, Task.reports, hm.src, hm.rpc]
  cases hr : t.reports key
  case none => simp [Task.handled, hrep, hr]
  case some =>
    obtain ⟨r, serviceKey, _, _, hrpc⟩ := reportOf_eq_some hr
    obtain hpc | ⟨_, _, he⟩ := ha.reporting ht (h i t ht) hs (hm.rpc.trans hrpc)
    · simp [Task.handled, hrep, hpc]
    · exact absurd he (hn _ _ _)

theorem Act.of_report (ha : Act cfg g e g') (he : e = .report i src serviceKey access) :
    ∃ t, g.At i t ∧ t.src = src ∧ t.rpc = .accessReport serviceKey access ∧ t.pc = .start ∧
      g'.tasks = g.tasks.set i { t with pc := .finished } ∧
      g'.gClientAccess = g.gClientAccess.insert serviceKey access := by
  cases ha <;> cases he
  case report hpc hrun hrpc => exact ⟨_, hrun.1, rfl, hrpc, hpc, rfl, rfl⟩

theorem Act.gClientAccess (ha : Act cfg g e g')
    (hn : ∀ i src serviceKey access, e ≠ .report i src serviceKey access) :
    g'.gClientAccess = g.gClientAccess := by
  cases ha <;> first | rfl | exact absurd rfl (hn _ _ _ _)

theorem Act.table_of_report (ha : Act cfg g (.report i (.remote r) r.id access) g')
    (hf : g.ReportsFirst (.report i (.remote r) r.id access)) (h : g.gClientAccess key = g.lastHandled key) :
    g'.gClientAccess key = g'.lastHandled key := by
  obtain ⟨t, hi, hsrc, hrpc, hpc, htasks, htable⟩ := ha.of_report rfl
  have hnew : ({ t with pc := .finished } : Task ρ).handled key = if r.id = key then some access else none := by
    simp [Task.handled, Task.reports, reportOf, Pc.Ended, hsrc, hrpc]
  rw [htable, lastHandled, htasks]
  by_cases hk : r.id = key
  case pos =>
    -- The reports that were read later are still to be handled.
    have hlater : ∀ u ∈ g.tasks.drop (i + 1), u.handled key = none := by
      intro u hu
      cases hr : u.reports key
      case none => simp [Task.handled, hr]
      case some => simp [Task.handled, hf u hu (by simp [hk, hr])]
    rw [hk, Partial.insert_self, List.getLast?_filterMap_set hi (hnew.trans (if_pos hk)) hlater]
  case neg =>
    have hold : t.handled key = none := by simp [Task.handled, hpc, Pc.Ended]
    rw [Partial.insert_of_ne (Ne.symm hk), h, lastHandled,
      List.filterMap_set_of_eq_some hi (hnew.trans ((if_neg hk).trans hold.symm))]

theorem Act.table (ha : Act cfg g e g') (ho : e.OwnReport) (hf : g.ReportsFirst e)
    (ht : ∀ i t, g.At i t → t.Reporting) (h : g.gClientAccess key = g.lastHandled key) :
    g'.gClientAccess key = g'.lastHandled key := by
  by_cases he : ∃ i src serviceKey access, e = .report i src serviceKey access
  case pos =>
    obtain ⟨i, src, serviceKey, access, rfl⟩ := he
    obtain ⟨r, rfl, rfl⟩ := ho _ _ _ _ rfl
    exact ha.table_of_report hf h
  case neg =>
    have hn : ∀ i src serviceKey access, e ≠ .report i src serviceKey access := fun i src serviceKey access hr =>
      he ⟨i, src, serviceKey, access, hr⟩
    rw [ha.gClientAccess hn, h, lastHandled, lastHandled]
    generalize hts : g'.tasks = ts
    have hstep := hts ▸ ha.taskStep
    cases hstep
    case idle  => rfl
    case frame src rpc _ =>
      have hnew : (Task.new src rpc).handled key = none := by simp [Task.handled, Task.new, Pc.Ended]
      rw [List.filterMap_append, List.filterMap_cons_none hnew, List.filterMap_nil, List.append_nil]
    case move i t t' hi hm =>
      have hs : g'.At i t' := (at_set hi hts).mpr (.inl ⟨rfl, rfl⟩)
      rw [List.filterMap_set_of_eq_some hi (ha.handled ht hi hs hm fun src => hn i src)]

theorem Reports.step (h : Reports es g) (hs : Reported cfg g e g') : Reports (es ++ [e]) g' where
  read key  := by
    rw [hs.step.act.read, ← h.read, List.filterMap_append]
    cases hr : e.reports key <;> simp [hr]
  tasks _ _ := hs.step.act.reporting_tasks h.tasks
  table _   := hs.step.act.table hs.own hs.first h.tasks (h.table _)

-- Once all reports of a service are handled, the table has the one that was read last.
theorem Reports.latest (h : Reports es g) (hs : g.Settled key) : g.gClientAccess key = latestReport key es := by
  have hall : g.tasks.filterMap (Task.handled key) = g.tasks.filterMap (Task.reports key) := by
    refine List.filterMap_congr fun t hm => ?_
    cases hr : t.reports key
    case none => simp [Task.handled, hr]
    case some => simp [Task.handled, hr, hs t hm (by simp [hr])]
  rw [h.table, lastHandled, hall, latestReport, h.read]

-- What is known of the requests of clients that have passed the check is known of those that were forwarded.
structure Checked (P : Nat → RouteReq → Prop) (es : List (Event ρ)) (g : Gate ρ) : Prop where
  passed : ∀ i t req, g.At i t → t.rpc = .route req → t.src.IsTcpClient → t.pc.Passed → P i req
  ended  : ∀ i, Forwarded es i → ∃ t, g.At i t ∧ t.pc.Ended
  sent   : ∀ i t req, g.At i t → t.rpc = .route req → t.src.IsTcpClient → Forwarded es i → P i req

theorem init_checked {P : Nat → RouteReq → Prop} : Checked P [] (init : Gate ρ) where
  passed := by simp [init]
  ended  := by simp [Forwarded]
  sent   := by simp [Forwarded]

theorem forwarded_snoc : Forwarded (es ++ [e]) i ↔ Forwarded es i ∨ e.forwards i = true := by
  simp [Forwarded, or_and_right, exists_or]

theorem Event.eq_send_of_forwards (h : e.forwards i = true) :
    ∃ conn isOrdered grid innerRpc, e = .send i conn (.g2sRpcCall isOrdered grid innerRpc) := by
  unfold Event.forwards at h
  split at h
  case h_1 => cases of_decide_eq_true h; exact ⟨_, _, _, _, rfl⟩
  case h_2 => cases h

-- A request that passes the check is permitted by the most recent report.
theorem Reported.permitted (hs : Reported cfg g e g') (hid : cfg.identity = .clientGate) (h : Reports es g)
    (hi : g'.At i s) (hr : s.rpc = .route req) (hc : s.src.IsTcpClient) (he : e = .check i)
    (hp : g.permission cfg s.src req = none) : Permitted cfg (es ++ [e]) i req := by
  subst he
  obtain ⟨access, hk, hacc⟩ := accessible_of_permission hid hc hp
  have hset : g.Settled req.remoteID := by
    obtain ⟨_, hact⟩ | ⟨_, _, he, _⟩ | ⟨t, ht, hm⟩ := hs.step.act.taskStep.back hi
    · exact absurd rfl hact
    · cases he
    · exact hs.first t ht req (by rw [← hm.rpc, hr]; rfl) (hm.src ▸ hc)
  exact ⟨es, [], access, rfl, (h.latest hset).symm.trans hk, hacc⟩

theorem Act.checked {P P' : Nat → RouteReq → Prop} (ha : Act cfg g e g') (h : Checked P es g)
    (hmono : ∀ i req, P i req → P' i req)
    (hcheck : ∀ i s req, g'.At i s → s.rpc = .route req → s.src.IsTcpClient → e = .check i →
      g.permission cfg s.src req = none → P' i req) :
    Checked P' (es ++ [e]) g' := by
  constructor
  case passed =>
    intro i s req hi hr hc hp
    obtain ⟨t, ht, hr, hsrc, hp⟩ | ⟨he, hperm⟩ := ha.passed_cases hi hr hp
    · exact hmono i req (h.passed i t req ht hr (hsrc ▸ hc) hp)
    · exact hcheck i s req hi hr hc he hperm
  case ended =>
    intro i hf
    obtain hf | hf := forwarded_snoc.mp hf
    · have ⟨t, ht, he⟩ := h.ended i hf
      have ⟨t', ht', hp, _⟩ := ha.ended ht he
      exact ⟨t', ht', hp ▸ he⟩
    · obtain ⟨conn, _, _, _, he⟩ := Event.eq_send_of_forwards hf
      have ⟨t, _, _, _, ht⟩ := ha.of_send he
      exact ⟨_, ht, trivial⟩
  case sent =>
    intro i s req hi hr hc hf
    obtain hf | hf := forwarded_snoc.mp hf
    · have ⟨t, ht, he⟩ := h.ended i hf
      have ⟨t', ht', _, hr', hs, _⟩ := ha.ended ht he
      obtain rfl := hi.unique ht'
      exact hmono i req (h.sent i t req ht (hr'.symm.trans hr) (hs ▸ hc) hf)
    · -- A handler that is about to send a call has passed the check.
      obtain ⟨conn, _, _, _, he⟩ := Event.eq_send_of_forwards hf
      have ⟨t, hrun, hout, _, ht⟩ := ha.of_send he
      obtain rfl := hi.unique ht
      obtain ⟨_, _, _, _, _, hm⟩ | ⟨_, _, hr', hp, _, _⟩ | ⟨_, _, _, _, _, _, hm⟩ | ⟨_, _, _, _, _, _, hm⟩ :=
        Task.outgoing_cases hout <;> try cases hm
      exact hmono i req (h.passed i t req hrun.1 hr hc (by simp [hp, Pc.Passed]))

structure AccessInv (cfg : Config ρ) (es : List (Event ρ)) (g : Gate ρ) : Prop where
  reports : Reports es g
  checked : Checked (Permitted cfg es) es g

theorem AccessInv.step (hid : cfg.identity = .clientGate) (hs : Reported cfg g e g') (h : AccessInv cfg es g) :
    AccessInv cfg (es ++ [e]) g' where
  reports := h.reports.step hs
  checked := hs.step.act.checked h.checked (fun _ _ => Permitted.snoc) fun _ _ _ => hs.permitted hid h.reports

-- A service forbids an rpc and then permits it, and a client sends a request for the rpc.
def reportedRequest (src : Source) : List (Turn Unit) :=
  .rmgr (.connectRemote "n" "s" "i" 1 ⟨1, "i:1"⟩) ::
  .frame src (.accessReport "n:s" fun _ => none) ::
  .frame src (.accessReport "n:s" (Partial.insert (fun _ => none) "f" true)) ::
  .task 0 :: .task 0 :: .task 1 :: .task 1 ::
  .frame (.tcpClient ⟨0, "c"⟩) (.route ⟨"n", "s", 0, false, Config.innerRpc "f"⟩) ::
  List.replicate 10 (.task 2)

-- Where the services report on themselves and are heard in time, nothing is forwarded for a client but what
-- the most recent report of the service permits. Whatever the clients send, the table has the last of the
-- service's own reports that is handled, which is the most recent one as soon as all of them are.
theorem forwarded_only_if_permitted (hid : cfg.identity = .clientGate) (h : Exec (Reported cfg) init es g) :
    AccessControlled cfg es g ∧
    ∀ key, g.gClientAccess key = g.lastHandled key ∧
      (g.Settled key → g.gClientAccess key = latestReport key es) := by
  have h := h.invariant (I := AccessInv cfg) ⟨init_reports, init_checked⟩ fun _ _ _ _ _ hi hs => hi.step hid hs
  exact ⟨h.checked.sent, fun key => ⟨h.reports.table key, h.reports.latest⟩⟩

-- A service whose last report permits an inner rpc gets the request of a client for it.
theorem reported_service_permitted :
    ∃ (cfg : Config Unit) (es : List (Event Unit)) (g : Gate Unit) (t : Task Unit) (req : RouteReq),
      cfg.identity = .clientGate ∧ Exec (Reported cfg) init es g ∧
      g.At 2 t ∧ t.rpc = .route req ∧ t.src.IsTcpClient ∧ Forwarded es 2 ∧ Permitted cfg es 2 req := by
  let cfg := Config.msgpack .clientGate
  let xs := reportedRequest (.remote ⟨"n:s", 1, "i:1"⟩)
  have hr : ((replay cfg (fun g e => e.OwnReport && g.ReportsFirst e) 0 xs init).any fun (es, g) =>
      es.any (Event.forwards 2) &&
      g.tasks[2]?.any fun t => t.src.IsTcpClient && t.rpc.request.isSome) = true := by
    decide +kernel
  simp only [Option.any_eq_true, Bool.and_eq_true, decide_eq_true_eq, List.any_eq_true, Prod.exists,
    Option.isSome_iff_exists] at hr
  obtain ⟨es, g, hx, hf, t, ht, hc, req, hreq⟩ := hr
  have hrpc := Rpc.eq_route_of_request hreq
  have hx : Exec (Reported cfg) init es g := (exec_of_replay xs hx).mono fun _ _ _ h => by
    have ⟨hs, h⟩ := h
    simp only [Bool.and_eq_true, decide_eq_true_eq] at h
    exact ⟨hs, h.1, h.2⟩
  have ⟨h, _⟩ := forwarded_only_if_permitted rfl hx
  exact ⟨cfg, es, g, t, req, rfl, hx, ht, hrpc, hc, hf, h 2 t req ht hrpc hc hf⟩

-- A client reports itself what it wants to call. The service has reported nothing.
theorem client_reports_access :
    ∃ (cfg : Config Unit) (es : List (Event Unit)) (g : Gate Unit),
      cfg.identity = .clientGate ∧ Exec (Step cfg) init es g ∧ ¬AccessControlled cfg es g := by
  let cfg := Config.msgpack .clientGate
  let xs := reportedRequest (.tcpClient ⟨0, "c"⟩)
  have hr : ((replay cfg (fun _ _ => true) 0 xs init).any fun (es, g) =>
      es.any (Event.forwards 2) &&
      g.tasks[2]?.any fun t => t.src.IsTcpClient && t.rpc.request.any fun req =>
        es.all fun e => (e.reports req.remoteID).isNone) = true := by
    decide +kernel
  simp only [Option.any_eq_true, Bool.and_eq_true, decide_eq_true_eq, List.any_eq_true, Prod.exists,
    List.all_eq_true, Option.isNone_iff_eq_none] at hr
  obtain ⟨es, g, hx, hf, t, ht, hc, req, hreq, hes⟩ := hr
  refine ⟨cfg, es, g, rfl, (exec_of_replay xs hx).mono fun _ _ _ h => h.1, fun h => ?_⟩
  obtain ⟨pre, post, access, rfl, hl, _⟩ := h 2 t req ht (Rpc.eq_route_of_request hreq) hc hf
  have hn : pre.filterMap (Event.reports req.remoteID) = [] :=
    List.filterMap_eq_nil_iff.mpr fun e he => hes e (List.mem_append_left _ he)
  simp [latestReport, hn] at hl

end Gate
