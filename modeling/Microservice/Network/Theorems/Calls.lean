import Microservice.Framework.Theorems.RpcHandle
import Microservice.Gate.Theorems.Access
import Microservice.Gate.Theorems.Correlation
import Microservice.Gate.Theorems.Sent
import Microservice.Network.Replay

namespace RpcHandle

-- A call of an rpc that is no call itself sends its own response, if any.
theorem process_of_not_nested (hn : nested w rpcs innerRpc = none)
    (h : process w rpcs fuel grid innerRpc err = some eff) :
    eff.sent = [] ∨ (grid ≠ 0 ∧ eff.sent = [rsp w rpcs err grid innerRpc]) := by
  cases fuel
  case zero => cases h
  case succ fuel =>
    obtain ⟨a, err', hr, ha⟩ := rpcHandle_of_not_nested grid err (process w rpcs fuel) hn
    obtain ⟨eff', hp, _, hsent⟩ := process_of_rpcHandle hr rfl ha
    cases hp.symm.trans h
    obtain ⟨hs, _⟩ | ⟨hs, hg, _⟩ := hsent
    · exact .inl hs
    · exact .inr ⟨hg, hs⟩

end RpcHandle

namespace Gate

-- A task is there already, or its frame was just read.
theorem Act.task_cases {ρ : Type*} {cfg : Config ρ} {g g' : Gate ρ} {e : Event ρ} {t : Task ρ}
    (ha : Act cfg g e g') (hj : g'.At j t) :
    (∃ s, g.At j s ∧ s.rpc = t.rpc ∧ s.src = t.src) ∨
    ∃ src rpc, e = .frame src rpc ∧ t.rpc = rpc.body ∧ t.src = src := by
  obtain ⟨hj, _⟩ | ⟨src, rpc, he, _, rfl⟩ | ⟨s, hs, hm⟩ := ha.taskStep.back hj
  · exact .inl ⟨t, hj, rfl, rfl⟩
  · exact .inr ⟨src, rpc, he, rfl, rfl⟩
  · exact .inl ⟨s, hs, hm.rpc.symm, hm.src.symm⟩

end Gate

namespace Network

variable {ρ : Type} {cfg : Config ρ} {s s' : Network ρ} {e : Event ρ} {es : List (Event ρ)}
variable {ge : Gate.Event ρ} {g : Gate ρ} {call : Call} {r : RpcHandle.Rsp ρ} {run : Run ρ}
variable {runs runs' : List (Run ρ)} {innerRpc : Bytes} {i : Nat}

def Event.gateEvent : Event ρ → Option (Gate.Event ρ)
  | .gate e   => some e
  | .handle _ => none

-- What the gate does.
def gateEvents (es : List (Event ρ)) : List (Gate.Event ρ) :=
  es.filterMap Event.gateEvent

theorem gateEvents_gate : gateEvents (es ++ [.gate ge]) = gateEvents es ++ [ge] := by
  simp [gateEvents, Event.gateEvent]

theorem gateEvents_handle : gateEvents (es ++ [.handle run]) = gateEvents es := by
  simp [gateEvents, Event.gateEvent]

-- The inner rpc is none that is handled by `RpcG2SRpcCallHandler`, which would respond by itself.
structure Plain (cfg : Config ρ) (innerRpc : Bytes) : Prop where
  call    : (cfg.wire.rpcName innerRpc).1 ≠ .ascii SimpleRpc.msgG2SRpcCall
  ordered : (cfg.wire.rpcName innerRpc).1 ≠ .ascii SimpleRpc.msgG2SRpcCallOrdered

theorem Plain.not_nested (h : Plain cfg innerRpc) :
    RpcHandle.nested cfg.wire (RpcHandle.registered own) innerRpc = none := by
  simp only [RpcHandle.nested, RpcHandle.registered, h.call, h.ordered, or_self, if_false]
  cases own (cfg.wire.rpcName innerRpc).1 <;> rfl

-- A step under the assumptions on the connections, and on what is called.
structure Assumed (cfg : Config ρ) (s : Network ρ) (e : Event ρ) (s' : Network ρ) : Prop where
  step    : Step cfg s e s'
  noReuse : s.gate.NoReuse
  plain   : ∀ ge call, e = .gate ge → forwarded ge = some call → Plain cfg call.innerRpc

-- The answer to a call that was handled.
def Run.rsp (cfg : Config ρ) (run : Run ρ) : RpcHandle.Rsp ρ :=
  RpcHandle.rsp cfg.wire (RpcHandle.registered run.own) run.err run.call.grid run.call.innerRpc

def Answered (cfg : Config ρ) (runs : List (Run ρ)) (r : RpcHandle.Rsp ρ) : Prop :=
  ∃ run ∈ runs, run.call.grid ≠ 0 ∧ r = run.rsp cfg

theorem Answered.mono (h : Answered cfg runs r) (hs : runs ⊆ runs') : Answered cfg runs' r := by
  obtain ⟨run, hm, ha⟩ := h
  exact ⟨run, hs hm, ha⟩

-- The same for a response as the gate has read it.
def AnsweredAs (cfg : Config ρ) (runs : List (Run ρ)) (grid : UInt32) (error : String) (reply : Option ρ) :
    Prop :=
  ∃ r, Answered cfg runs r ∧ r.grid = grid ∧ cfg.text r.error = error ∧ r.reply = reply

-- The gate has sent the call.
def Sent (es : List (Event ρ)) (call : Call) : Prop :=
  ∃ ge ∈ gateEvents es, forwarded ge = some call

theorem Sent.snoc (h : Sent es call) : Sent (es ++ [e]) call := by
  obtain ⟨ge, hm, hf⟩ := h
  exact ⟨ge, by simp only [gateEvents, List.filterMap_append, List.mem_append]; exact .inl hm, hf⟩

theorem eq_send_of_forwarded (h : forwarded ge = some call) :
    ∃ ordered, ge = .send call.task call.conn (.g2sRpcCall ordered call.grid call.innerRpc) := by
  unfold forwarded at h
  split at h <;> cases h
  exact ⟨_, rfl⟩

-- Where everything comes from that is under way: calls from the gate, responses from the runs of calls, if they
-- are not from a client.
structure Inv (cfg : Config ρ) (es : List (Event ρ)) (s : Network ρ) : Prop where
  gate  : Exec (fun g e g' => Gate.Step cfg.gate g e g' ∧ g.NoReuse) .init (gateEvents es) s.gate
  count : ∀ i, s.calls.countP (·.task = i) + s.runs.countP (·.call.task = i) =
    (gateEvents es).countP (Gate.Event.forwards i)
  calls : ∀ call ∈ s.calls, Sent es call ∧ Plain cfg call.innerRpc
  runs  : ∀ run ∈ s.runs, Sent es run.call
  rsps  : ∀ conn r, (conn, r) ∈ s.rsps → Answered cfg s.runs r
  tasks : ∀ j t grid error reply, s.gate.At j t → t.rpc = .rsp grid error reply →
    t.src.IsTcpClient ∨ AnsweredAs cfg s.runs grid error reply

theorem init_inv : Inv cfg [] (init : Network ρ) where
  gate  := .refl
  count := by simp [init, gateEvents]
  calls := by simp [init]
  runs  := by simp [init]
  rsps  := by simp [init]
  tasks := by simp [init, Gate.init]

theorem forwards_of_forwarded (hf : forwarded ge = some call) : ge.forwards i = decide (call.task = i) := by
  obtain ⟨_, rfl⟩ := eq_send_of_forwarded hf
  rfl

theorem not_forwards (hf : forwarded ge = none) : ge.forwards i = false := by
  cases ge <;> first | rfl | skip
  case send msg => cases msg <;> first | rfl | cases hf

theorem responded_of_body (hb : rpc.body = .rsp grid error reply) (hc : ¬src.IsTcpClient) :
    Responded (.frame src rpc : Gate.Event ρ) := by
  cases src
  case tcpClient => exact absurd trivial hc
  case remote    => simp [Responded, hb]

-- A step of the gate that reads no response of a service.
theorem Inv.gate_step (h : Inv cfg es s) (hg : Gate.Step cfg.gate s.gate ge g) (hu : s.gate.NoReuse)
    (hr : ¬Responded ge) :
    Exec (fun g e g' => Gate.Step cfg.gate g e g' ∧ g.NoReuse) .init (gateEvents (es ++ [.gate ge])) g ∧
    ∀ j t grid error reply, g.At j t → t.rpc = .rsp grid error reply →
      t.src.IsTcpClient ∨ AnsweredAs cfg s.runs grid error reply := by
  refine ⟨?_, fun j t grid error reply hj hrpc => ?_⟩
  · rw [gateEvents_gate]
    exact h.gate.snoc ⟨hg, hu⟩
  · obtain ⟨t₀, hj₀, hr₀, hsrc₀⟩ | ⟨src, rpc, rfl, hb, rfl⟩ := hg.act.task_cases hj
    · exact hsrc₀ ▸ h.tasks j t₀ grid error reply hj₀ (hr₀.trans hrpc)
    · exact .inl (by_contra fun hc => hr (responded_of_body (hb.symm.trans hrpc) hc))

theorem Inv.gate_quiet (h : Inv cfg es s) (hg : Gate.Step cfg.gate s.gate ge g) (hu : s.gate.NoReuse)
    (hf : forwarded ge = none) (hr : ¬Responded ge) : Inv cfg (es ++ [.gate ge]) { s with gate := g } where
  gate            := (h.gate_step hg hu hr).1
  count i         := by
    rw [gateEvents_gate, List.countP_append, List.countP_singleton, not_forwards hf]
    exact h.count i
  calls call hm   := (h.calls call hm).imp_left Sent.snoc
  runs run hm     := (h.runs run hm).snoc
  rsps            := h.rsps
  tasks           := (h.gate_step hg hu hr).2

theorem Inv.forward (h : Inv cfg es s) (hg : Gate.Step cfg.gate s.gate ge g) (hu : s.gate.NoReuse)
    (hf : forwarded ge = some call) (hp : Plain cfg call.innerRpc) :
    Inv cfg (es ++ [.gate ge]) { s with gate := g, calls := s.calls ++ [call] } := by
  have hr : ¬Responded ge := by
    obtain ⟨_, rfl⟩ := eq_send_of_forwarded hf
    exact id
  constructor
  case gate  => exact (h.gate_step hg hu hr).1
  case tasks => exact (h.gate_step hg hu hr).2
  case rsps  => exact h.rsps
  case runs  => exact fun run hm => (h.runs run hm).snoc
  case count =>
    intro i
    have hi := h.count i
    simp only [gateEvents_gate, List.countP_append, List.countP_singleton, forwards_of_forwarded hf]
    omega
  case calls =>
    intro call' hm
    obtain hm | hm := List.mem_append.mp hm
    · exact (h.calls call' hm).imp_left Sent.snoc
    · cases List.mem_singleton.mp hm
      exact ⟨⟨ge, by simp [gateEvents_gate], hf⟩, hp⟩

theorem Inv.handle (h : Inv cfg es s) (hc : s.calls = cs ++ call :: cs')
    (hp : RpcHandle.process cfg.wire (RpcHandle.registered own) fuel call.grid call.innerRpc err = some eff) :
    Inv cfg (es ++ [.handle ⟨call, own, err⟩])
      { s with
        calls := cs ++ cs'
        runs  := s.runs ++ [⟨call, own, err⟩]
        rsps  := s.rsps ++ eff.sent.map (call.conn, ·) } := by
  obtain ⟨hsent, hplain⟩ := h.calls call (by simp [hc])
  have hsub : s.runs ⊆ s.runs ++ [⟨call, own, err⟩] := List.subset_append_left ..
  constructor
  case gate  => rw [gateEvents_handle]; exact h.gate
  case count =>
    intro i
    have hi := h.count i
    simp only [gateEvents_handle, hc, List.countP_append, List.countP_cons, List.countP_nil] at hi ⊢
    omega
  case calls =>
    intro call' hm
    have hm : call' ∈ s.calls := hc ▸ List.Sublist.mem hm (by simp)
    exact (h.calls call' hm).imp_left Sent.snoc
  case runs  =>
    intro run hm
    obtain hm | hm := List.mem_append.mp hm
    · exact (h.runs run hm).snoc
    · cases List.mem_singleton.mp hm
      exact hsent.snoc
  case rsps  =>
    intro conn r hm
    obtain hm | hm := List.mem_append.mp hm
    · exact (h.rsps conn r hm).mono hsub
    · -- The call is plain, so what it sends is its answer.
      obtain ⟨r', hm, he⟩ := List.mem_map.mp hm
      cases he
      obtain hs | ⟨hg, hs⟩ := RpcHandle.process_of_not_nested hplain.not_nested hp
      · simp [hs] at hm
      · rw [hs, List.mem_singleton] at hm
        exact ⟨_, List.mem_append_right _ (List.mem_singleton.mpr rfl), hg, hm⟩
  case tasks =>
    intro j t grid error reply hj hr
    refine (h.tasks j t grid error reply hj hr).imp_right fun ha => ?_
    obtain ⟨r, ha, hr⟩ := ha
    exact ⟨r, ha.mono hsub, hr⟩

theorem Inv.respond {remote : Remote} (h : Inv cfg es s) (hr : s.rsps = rs ++ (remote.conn, r) :: rs')
    (hu : s.gate.NoReuse)
    (hg : Gate.Step cfg.gate s.gate (.frame (.remote remote) (.rsp r.grid (cfg.text r.error) r.reply)) g) :
    Inv cfg (es ++ [.gate (.frame (.remote remote) (.rsp r.grid (cfg.text r.error) r.reply))])
      { s with gate := g, rsps := rs ++ rs' } := by
  have ha : Answered cfg s.runs r := h.rsps remote.conn r (by simp [hr])
  constructor
  case gate  =>
    rw [gateEvents_gate]
    exact h.gate.snoc ⟨hg, hu⟩
  case count =>
    intro i
    rw [gateEvents_gate, List.countP_append, List.countP_singleton]
    exact h.count i
  case calls => exact fun call hm => (h.calls call hm).imp_left Sent.snoc
  case runs  => exact fun run hm => (h.runs run hm).snoc
  case rsps  => exact fun conn r' hm => h.rsps conn r' (hr ▸ List.Sublist.mem hm (by simp))
  case tasks =>
    intro j t grid error reply hj hrpc
    obtain ⟨t₀, hj₀, hr₀, hsrc₀⟩ | ⟨_, _, he, hb, _⟩ := hg.act.task_cases hj
    · exact hsrc₀ ▸ h.tasks j t₀ grid error reply hj₀ (hr₀.trans hrpc)
    · cases he
      cases hb.symm.trans hrpc
      exact .inr ⟨r, ha, rfl, rfl, rfl⟩

theorem inv_of_exec (h : Exec (Assumed cfg) init es s) : Inv cfg es s := by
  refine h.invariant init_inv fun es s e s' _ hi ha => ?_
  obtain ⟨hs, hu, hplain⟩ := ha
  cases hs
  case gate hg hf hr => exact hi.gate_quiet hg hu hf hr
  case forward hg hf => exact hi.forward hg hu hf (hplain _ _ rfl hf)
  case handle hc hp  => exact hi.handle hc hp
  case respond hr hg => exact hi.respond hr hu hg

theorem mem_gateEvents (h : .gate ge ∈ es) : ge ∈ gateEvents es :=
  List.mem_filterMap.mpr ⟨_, h, rfl⟩

theorem forwards_le_sendsBy {ges : List (Gate.Event ρ)} :
    ges.countP (Gate.Event.forwards i) ≤ ges.countP (Gate.Event.sendsBy i) := by
  refine List.countP_mono_left fun ge _ hf => ?_
  obtain ⟨_, _, _, _, rfl⟩ := Gate.Event.eq_send_of_forwards hf
  simp [Gate.Event.sendsBy]

-- A client has sent the gate a response by itself.
def Forged (s : Network ρ) (grid : UInt32) (err : String) (reply : Option ρ) : Prop :=
  ∃ k u, s.gate.At k u ∧ u.src.IsTcpClient ∧ u.rpc = .rsp grid err reply

-- Why a request gets a response: the gate refuses it, and no service hears of it, a service has handled the inner
-- rpc of just this request, or a client has responded to the id that the gate has given to the request.
inductive Cause (cfg : Config ρ) (s : Network ρ) (i : Nat) (req : Gate.RouteReq) (err : String)
    (reply : Option ρ) : Prop
  | refused :
    Gate.Refusal cfg.gate req err → reply = none → (∀ run ∈ s.runs, run.call.task ≠ i) →
    Cause cfg s i req err reply
  | answered (run : Run ρ) :
    run ∈ s.runs → run.call.task = i → run.call.innerRpc = req.innerRpc →
    cfg.text (run.rsp cfg).error = err → (run.rsp cfg).reply = reply → Cause cfg s i req err reply
  | forged (t : Gate.Task ρ) :
    s.gate.At i t → t.grid ≠ 0 → Forged s t.grid err reply → Cause cfg s i req err reply

theorem Inv.once (h : Inv cfg es s) (hn : Gate.drawn (gateEvents es) < 2 ^ 32) (i : Nat) :
    s.calls.countP (·.task = i) + s.runs.countP (·.call.task = i) ≤ 1 := by
  rw [h.count i]
  exact forwards_le_sendsBy.trans ((Gate.correlated_of_exec h.gate hn).written.once i)

theorem Inv.cause (h : Inv cfg es s) (hn : Gate.drawn (gateEvents es) < 2 ^ 32)
    (hm : .gate (.send j conn (.g2cRpcRsp rid err reply)) ∈ es) :
    ∃ i t req, s.gate.At i t ∧ t.rpc = .route req ∧ req.rid = rid ∧ t.src.conn = conn ∧
      Cause cfg s i req err reply := by
  have hgate := Gate.correlated_of_exec h.gate hn
  have hout := Gate.outgoing_of_exec (h.gate.mono fun _ _ _ h => h.1)
  have hm := mem_gateEvents hm
  obtain ⟨t, hj, _, ⟨req, hr, hrid, hconn, hreply, href⟩ | ⟨grid, hr⟩⟩ := hout.rsp hm
  · refine ⟨j, t, req, hj, hr, hrid, hconn, .refused href hreply fun run hrun hj => ?_⟩
    -- A handler that has refused the request has not sent it as well.
    obtain ⟨ge, hge, hf⟩ := h.runs run hrun
    obtain ⟨_, rfl⟩ := eq_send_of_forwarded hf
    have he := List.eq_of_countP_le_one (hgate.written.once j) hm hge (by simp [Gate.Event.sendsBy])
      (by simp [Gate.Event.sendsBy, hj])
    cases he
  · obtain ⟨_, _, ⟨hne, i, u, req, hi, hug, hru, hrid, hconn⟩, _⟩ :=
      hgate.written.rsp j conn rid err reply hm t grid err reply hj hr
    refine ⟨i, u, req, hi, hru, hrid, hconn, ?_⟩
    obtain hc | ⟨r, ⟨run, hrun, _, rfl⟩, hgrid, herr, hreply⟩ := h.tasks j t grid err reply hj hr
    · exact .forged u hi (hug ▸ hne) ⟨j, t, hj, hc, hug ▸ hr⟩
    · obtain ⟨ge, hge, hf⟩ := h.runs run hrun
      obtain ⟨_, rfl⟩ := eq_send_of_forwarded hf
      obtain ⟨u', req', hi', _, hru', hug', hinner⟩ := hout.call hge
      -- The id of the response is that of one request only.
      obtain rfl : i = run.call.task :=
        hgate.drawn.inj i _ u u' hi hi' (hug.trans (hgrid.symm.trans hug'.symm)) (hug ▸ hne)
      cases hi.unique hi'
      cases hru.symm.trans hru'
      exact .answered run hrun rfl hinner.symm herr hreply

-- All requests are over one connection, and no other connection has its id.
def onlyOver (c : Conn) (g : Gate ρ) : Bool :=
  (g.tasks.all fun t => t.grid = 0 || t.src.conn = c) &&
  (g.clients (getConnID c)).all (· = c) && (g.rmgr.remotes (getConnID c)).isNone

theorem noReuse_of_onlyOver (h : onlyOver c g = true) : g.NoReuse := by
  simp only [onlyOver, Bool.and_eq_true, List.all_eq_true, Bool.or_eq_true, decide_eq_true_eq,
    Option.isNone_iff_eq_none, Option.all_eq_true] at h
  obtain ⟨⟨ht, hc⟩, hr⟩ := h
  intro t hm hne _
  obtain rfl := (ht t hm).resolve_left hne
  exact ⟨fun conn hconn => hc conn hconn, by simp [Gate.Task.clientID, hr]⟩

-- The conditions of `Assumed` in that case.
def assumedFor (cfg : Config ρ) (c : Conn) (s : Network ρ) (e : Event ρ) : Bool :=
  onlyOver c s.gate &&
  (e.gateEvent.bind forwarded).all fun call =>
    (cfg.wire.rpcName call.innerRpc).1 ≠ .ascii SimpleRpc.msgG2SRpcCall &&
    (cfg.wire.rpcName call.innerRpc).1 ≠ .ascii SimpleRpc.msgG2SRpcCallOrdered

theorem Assumed.of_assumedFor (h : Step cfg s e s' ∧ assumedFor cfg c s e = true) : Assumed cfg s e s' := by
  obtain ⟨hs, h⟩ := h
  simp only [assumedFor, Bool.and_eq_true, decide_eq_true_eq, Option.all_eq_true] at h
  refine ⟨hs, noReuse_of_onlyOver h.1, ?_⟩
  rintro ge call rfl hcall
  obtain ⟨h₁, h₂⟩ := h.2 call (by simpa [Event.gateEvent] using hcall)
  exact ⟨h₁, h₂⟩

-- A service whose rpc `x` answers with what is in the session.
def demoOwn (rpcName : Bytes) : Option (RpcHandle.UserHandler Unit) :=
  if rpcName = .ascii "x" then
    some ⟨[⟨⟨.ascii "S", .ascii "*string"⟩, Bytes, Msgpack.str⟩], fun _ err => ⟨err, some (), false⟩⟩
  else
    none

def demoConfig : Config Unit where
  identity := .serviceGate
  wire     := Wire.msgpack
  text bs  := String.ofList (bs.map fun b => Char.ofNat b.toNat)

-- A client makes two requests, which are forwarded to the only service. The first one is answered by it, the
-- second one by another client.
def demoTurns (c d : Conn) (r : Remote) : List (Turn Unit) :=
  [.gate (.accept c), .gate (.rmgr (.connectRemote "n" "s" "i" 1 r.conn)),
    .gate (.frame (.tcpClient c) (.route ⟨"n", "s", 7, false, RpcHandle.demoRpc⟩))] ++
  List.replicate 11 (.gate (.task 0)) ++ [.gate .mgr, .gate (.task 0), .handle demoOwn [], .respond r] ++
  List.replicate 3 (.gate (.task 1)) ++ .gate .mgr :: List.replicate 2 (.gate (.task 1)) ++
  .gate (.frame (.tcpClient c) (.route ⟨"n", "s", 8, false, RpcHandle.demoRpc⟩)) ::
  List.replicate 11 (.gate (.task 2)) ++ [.gate .mgr, .gate (.task 2)] ++
  .gate (.frame (.tcpClient d) (.rsp 2 "no" none)) :: List.replicate 5 (.gate (.task 3))

theorem eq_of_rspTo (h : rspTo conn e = some (rid, err, reply)) :
    ∃ j, e = .gate (.send j conn (.g2cRpcRsp rid err reply)) := by
  unfold rspTo at h
  split at h
  case h_2 => cases h
  case h_1 =>
    split at h <;> cases h
    case isTrue hc => exact ⟨_, by rw [hc]⟩

-- Whatever is called, over whichever connections and in any order, a response of the gate to a request is one
-- to the inner rpc of this request, if it is not from a client, and no request is handled twice.
theorem responses_to_own_calls (h : Exec (Assumed cfg) init es s)
    (hn : Gate.drawn (gateEvents es) < 2 ^ 32) :
    (∀ j conn rid err reply, .gate (.send j conn (.g2cRpcRsp rid err reply)) ∈ es →
      ∃ i t req, s.gate.At i t ∧ t.rpc = .route req ∧ req.rid = rid ∧ t.src.conn = conn ∧
        Cause cfg s i req err reply) ∧
    ∀ i, s.calls.countP (·.task = i) + s.runs.countP (·.call.task = i) ≤ 1 := by
  have hinv := inv_of_exec h
  exact ⟨fun j conn rid err reply hm => hinv.cause hn hm, fun i => hinv.once hn i⟩

theorem responses_to_own_calls_answered :
    ∃ es s, Exec (Assumed demoConfig) init es s ∧ Gate.drawn (gateEvents es) < 2 ^ 32 ∧
      (∃ i t req, s.gate.At i t ∧ t.rpc = .route req ∧ req.rid = 7 ∧ t.src.conn = ⟨0, "c"⟩ ∧
        Cause demoConfig s i req "" (some ())) ∧
      ∃ i t req, s.gate.At i t ∧ t.rpc = .route req ∧ req.rid = 8 ∧ t.src.conn = ⟨0, "c"⟩ ∧
        Cause demoConfig s i req "no" none := by
  let xs := demoTurns ⟨0, "c"⟩ ⟨2, "d"⟩ ⟨"n:s", 1, "i:1"⟩
  have hr : ((replay demoConfig (assumedFor demoConfig ⟨0, "c"⟩) 0 xs init).any fun r =>
      Gate.drawn (gateEvents r.1) = 2 &&
        (r.1.any fun e => rspTo ⟨0, "c"⟩ e = some (7, "", some ())) &&
        r.1.any fun e => rspTo ⟨0, "c"⟩ e = some (8, "no", none)) = true := by
    decide +kernel
  simp only [Option.any_eq_true, Bool.and_eq_true, decide_eq_true_eq, List.any_eq_true, Prod.exists] at hr
  obtain ⟨es, s, hx, ⟨hn, e₁, hm₁, he₁⟩, e₂, hm₂, he₂⟩ := hr
  have hx : Exec (Assumed demoConfig) init es s := (exec_of_replay _ hx).mono fun _ _ _ => .of_assumedFor
  have hn : Gate.drawn (gateEvents es) < 2 ^ 32 := hn.trans_lt (by decide)
  obtain ⟨j₁, rfl⟩ := eq_of_rspTo he₁
  obtain ⟨j₂, rfl⟩ := eq_of_rspTo he₂
  have ⟨h, _⟩ := responses_to_own_calls hx hn
  exact ⟨es, s, hx, hn, h j₁ _ 7 "" (some ()) hm₁, h j₂ _ 8 "no" none hm₂⟩

end Network
