import Microservice.Gate.Theorems.AccessReport
import Microservice.Network.Theorems.Calls

namespace Network

open SimpleRpcMgr (Defaults Op setUp)

-- A service as it has set up its handlers. Handlers are registered with force by clients only.
structure Service (ρ : Type) where
  defaults : Defaults ρ
  ops      : List (Op ρ)
  rmgr     : SimpleRpcMgr ρ
  ok       : setUp defaults ops = .ok rmgr
  unforced : ∀ name gen, .registRpcHandlerForce name gen ∉ ops

variable {ρ : Type} {cfg : Config ρ} {services : RemoteId → Service ρ} {svc : Service ρ} {s s' : Network ρ}
variable {e : Event ρ} {es : List (Event ρ)} {access : Partial String Bool} {name innerRpc : Bytes} {i : Nat}

-- What a gate reads in a report of the service.
def Reports (cfg : Config ρ) (svc : Service ρ) (access : Partial String Bool) : Prop :=
  ∃ entries, Partial.Enumerates entries svc.rmgr.clientAccess ∧
    access = .ofEntries (entries.map fun e => (cfg.text e.1, e.2))

-- The handler of the name is for clients.
def Service.Accessible (svc : Service ρ) (name : Bytes) : Prop :=
  ∃ h, svc.rmgr.rpcs name = some (.user h (some true))

-- A process of the service has handlers for the names that are registered, whatever they do.
def Serves (svc : Service ρ) (own : Bytes → Option (RpcHandle.UserHandler ρ)) : Prop :=
  ∀ name, (RpcHandle.registered own name).isSome = (svc.rmgr.rpcs name).isSome

-- A step in which the reports about a service tell what it has registered, whoever they are from, the calls get to
-- processes of the service that they are for, and the other services do not ask for rpcs that are calls themselves.
-- The order cache does not grant the second one if an address passes from one service to another. A client may
-- send whatever it wants but for other reports.
structure Guarded (cfg : Config ρ) (services : RemoteId → Service ρ) (s : Network ρ) (e : Event ρ)
    (s' : Network ρ) : Prop where
  step    : Step cfg s e s'
  noReuse : s.gate.NoReuse
  reports : ∀ i src key access, e = .gate (.report i src key access) → Reports cfg (services key) access
  plain   : ∀ ge call t, e = .gate ge → forwarded ge = some call → s.gate.At call.task t →
    ¬t.src.IsTcpClient → Plain cfg call.innerRpc
  serves  : ∀ run t req, e = .handle run → s.gate.At run.call.task t → t.rpc = .route req →
    Serves (services req.remoteID) run.own

theorem Reports.apply (h : Reports cfg svc access) (ht : Function.Injective cfg.text) :
    access (cfg.text name) = svc.rmgr.clientAccess name := by
  obtain ⟨entries, he, rfl⟩ := h
  rw [Partial.ofEntries_map ht, he.ofEntries_eq]

-- A call is no rpc for clients.
theorem Service.Accessible.plain (h : svc.Accessible (cfg.wire.rpcName innerRpc).1) : Plain cfg innerRpc := by
  obtain ⟨h, hr⟩ := h
  constructor
  · intro hn
    rw [hn, SimpleRpcMgr.rpcs_default svc.ok svc.unforced List.mem_cons_self] at hr
    cases hr
  · intro hn
    rw [hn, SimpleRpcMgr.rpcs_default svc.ok svc.unforced (List.mem_cons_of_mem _ List.mem_cons_self)] at hr
    cases hr

theorem Guarded.gate_idle (hs : Guarded cfg services s e s') (he : e.gateEvent = none) : s'.gate = s.gate := by
  cases hs.step <;> first | rfl | cases he

theorem Guarded.gate_active {ge : Gate.Event ρ} (hs : Guarded cfg services s e s') (he : e.gateEvent = some ge) :
    Gate.Step cfg.gate s.gate ge s'.gate ∧
      ∀ i src key access, ge = .report i src key access → Reports cfg (services key) access := by
  constructor
  case left => cases hs.step <;> cases he <;> assumption
  case right =>
    rintro i src key access rfl
    cases e <;> cases he
    exact hs.reports i src key access rfl

-- The inner rpc of a request is accessible in the service that the request is for.
def Allowed (cfg : Config ρ) (services : RemoteId → Service ρ) (_ : Nat) (req : Gate.RouteReq) : Prop :=
  (services req.remoteID).Accessible (cfg.wire.rpcName req.innerRpc).1

-- The table has reports of the services only, so what passes the check is accessible.
structure Access (cfg : Config ρ) (services : RemoteId → Service ρ) (es : List (Gate.Event ρ)) (g : Gate ρ) :
    Prop where
  table   : ∀ key access, g.gClientAccess key = some access → Reports cfg (services key) access
  checked : Gate.Checked (Allowed cfg services) es g

theorem Reports.accessible (h : Reports cfg svc access) (ht : Function.Injective cfg.text)
    (ha : access (cfg.text name) = some true) : svc.Accessible name :=
  (SimpleRpcMgr.clientAccess_eq_true_iff svc.ok).mp ((h.apply ht).symm.trans ha)

theorem Access.step {ge : Gate.Event ρ} {g g' : Gate ρ} {ges : List (Gate.Event ρ)}
    (h : Access cfg services ges g) (hid : cfg.identity = .clientGate) (ht : Function.Injective cfg.text)
    (ha : Gate.Act cfg.gate g ge g')
    (hr : ∀ i src key access, ge = .report i src key access → Reports cfg (services key) access) :
    Access cfg services (ges ++ [ge]) g' where
  table key access hk := by
    by_cases he : ∃ i src key access, ge = .report i src key access
    case neg =>
      rw [ha.gClientAccess fun i src key access hr => he ⟨i, src, key, access, hr⟩] at hk
      exact h.table key access hk
    case pos =>
      obtain ⟨i, src, key', access', he⟩ := he
      obtain ⟨_, _, _, _, _, _, htable⟩ := ha.of_report he
      rw [htable, Partial.insert_eq_some_iff] at hk
      obtain ⟨rfl, rfl⟩ | ⟨_, hk⟩ := hk
      · exact hr i src key access' he
      · exact h.table key access hk
  checked := by
    refine ha.checked h.checked (fun _ _ => id) fun i t req _ _ hc _ hp => ?_
    obtain ⟨access, hk, hacc⟩ := Gate.accessible_of_permission hid hc hp
    exact (h.table _ access hk).accessible ht hacc

-- A call was handled by the service that it was for.
def Served (services : RemoteId → Service ρ) (s : Network ρ) (run : Run ρ) : Prop :=
  ∃ t req, s.gate.At run.call.task t ∧ t.rpc = .route req ∧ Serves (services req.remoteID) run.own

theorem Served.step {run : Run ρ} (h : Served services s run) (hs : Guarded cfg services s e s') :
    Served services s' run := by
  obtain ⟨t, req, hi, hr, hserves⟩ := h
  cases he : e.gateEvent
  case none    => exact ⟨t, req, by rwa [hs.gate_idle he], hr, hserves⟩
  case some ge =>
    obtain ⟨t', hi', rfl | hm⟩ := (hs.gate_active he).1.act.taskStep.forth hi
    · exact ⟨t', req, hi', hr, hserves⟩
    · exact ⟨t', req, hi', hm.rpc.trans hr, hserves⟩

def reportOf : Event ρ → Option (Gate.Source × RemoteId × Partial String Bool)
  | .gate (.report _ src key access) => some (src, key, access)
  | _                                => none

def demoGate : Config Unit :=
  { demoConfig with identity := .clientGate }

end Network
