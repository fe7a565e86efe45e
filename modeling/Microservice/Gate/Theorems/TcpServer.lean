import Microservice.Framework.Theorems.HandleRead
import Microservice.Lib.Positions
import Microservice.Gate.TcpServer

namespace TcpServer

open SimpleRpc

variable {c : Codec} {self k : Nat} {connID : ConnId} {m m' : Shared} {job job' : Job}
  {client client' : Client} {e : ClientEvent} {es : List ClientEvent} {body : Bytes}

namespace Codec

-- A `MSG_C2G_VERTIFY` with the right key.
structure Verifies (c : Codec) (body : Bytes) : Prop where
  name : c.rpcName body = some msgC2GVertify
  key  : c.secretKey body = some vertifySecretKey

theorem name_eq_vertify_iff : c.name body = msgC2GVertify ↔ c.rpcName body = some msgC2GVertify := by
  cases h : c.rpcName body <;> simp [name, h, msgC2GVertify]

theorem Verifies.dispatches (h : c.Verifies body) : c.dispatches body = true := by
  simp [Codec.dispatches, name_eq_vertify_iff.mpr h.name, h.key, rpcs]

theorem name_ne_of_isCall (h : c.isCall body = true) : c.name body ≠ msgC2GVertify := by
  intro hn
  simp [isCall, hn, msgC2GVertify, msgG2SRpcCall, msgG2SRpcCallOrdered] at h

end Codec

-- The bytes that a step has read.
def ClientEvent.bytes : ClientEvent → Bytes
  | .turn o => o.result.bytes
  | _       => []

def ClientEvent.check : ClientEvent → Option (Bytes × Bool)
  | .preCheck body pass => some (body, pass)
  | _                   => none

-- The frames in the bytes that a connection has read.
def frames (es : List ClientEvent) : List Bytes :=
  (Packet.parse (es.flatMap ClientEvent.bytes)).1

-- The frames that have gone through `PreCheck`, with its results.
def checks (es : List ClientEvent) : List (Bytes × Bool) :=
  es.filterMap ClientEvent.check

theorem checks_snoc : checks (es ++ [e]) = checks es ++ e.check.toList := by
  cases h : e.check <;> simp [checks, h]

theorem checks_mono {x : Bytes × Bool} (h : (checks es)[k]? = some x) :
    (checks (es ++ [e]))[k]? = some x := by
  have ⟨hl, _⟩ := List.getElem?_eq_some_iff.mp h
  rwa [checks_snoc, List.getElem?_append_left hl]

-- What a read loop has decoded and not yet checked.
def Reader.todo : Reader → List Bytes
  | .decoding bodies           => bodies
  | .checking _ body bodies    => body :: bodies
  | .refusing _ bodies         => bodies
  | .handling _ bodies         => bodies
  | .waiting _ bodies          => bodies
  | _                          => []

-- The bodies of the stream are checked in order. Those of the last read may still have to be.
structure Reading (es : List ClientEvent) (client : Client) : Prop where
  received : client.received = some (Packet.parse (es.flatMap ClientEvent.bytes)).2
  frames   : (checks es).map Prod.fst ++ client.reader.todo = frames es
  count    : client.count = (checks es).length
  alive    : ∀ state, client.reader = .reading state → state ≠ .exit

theorem Reading.turn {o : Observed} {tcp : TcpClient} {bodies : List Bytes} (h : Reading es client)
    (hs : client.reader = .reading o.state) (hf : ReadLoop.Readable client.toRecvBuf o)
    (ht : TcpClient.turn ReadLoop.collect o client.toTcpClient [] = .next (tcp, bodies)) :
    Reading (es ++ [.turn o]) { client with toTcpClient := tcp, reader := .decoding bodies } := by
  have hframes := h.frames
  simp only [hs, Reader.todo, List.append_nil] at hframes
  by_cases hb : o.result.bytes = []
  case pos =>
    have ⟨hbuf, hnil⟩ := (ReadLoop.tcpClient_lawful ReadLoop.collect).silent ht hb
    exact {
      received := by simpa [hbuf, ClientEvent.bytes, hb] using h.received
      frames   := by simpa [checks_snoc, ClientEvent.check, ClientEvent.bytes, hb, hnil, Reader.todo,
        TcpServer.frames] using hframes
      count    := by simpa [checks_snoc, ClientEvent.check] using h.count
      alive    := nofun }
  case neg =>
    have ⟨tcp', hn, hr⟩ :=
      ReadLoop.turn_collect (h.alive _ hs) hf h.received (Packet.split_parse_tail _) hb
    cases ht.symm.trans hn
    have happ := Packet.parse_append (es.flatMap ClientEvent.bytes) o.result.bytes
    exact {
      received := by simp [ClientEvent.bytes, happ, hr]
      frames   := by simp [checks_snoc, ClientEvent.check, ClientEvent.bytes, happ, Reader.todo,
        TcpServer.frames, hframes]
      count    := by simpa [checks_snoc, ClientEvent.check] using h.count
      alive    := nofun }

-- A loop that runs is left after a read without bytes only.
theorem Reading.bytes_of_leave {o : Observed} (h : Reading es client)
    (hs : client.reader = .reading o.state) (hf : ReadLoop.Readable client.toRecvBuf o)
    (ht : TcpClient.turn ReadLoop.collect o client.toTcpClient [] = .exit) : o.result.bytes = [] := by
  by_contra hb
  have ⟨_, hn, _⟩ :=
    ReadLoop.turn_collect (h.alive _ hs) hf h.received (Packet.split_parse_tail _) hb
  cases ht.symm.trans hn

-- A step that neither reads nor checks keeps what is left to check.
theorem Reading.idle (h : Reading es client) (hb : e.bytes = []) (hc : e.check = none)
    (hr : client'.toRecvBuf = client.toRecvBuf) (hn : client'.count = client.count)
    (ht : client'.reader.todo = client.reader.todo)
    (ha : ∀ state, client'.reader = .reading state → state ≠ .exit) : Reading (es ++ [e]) client' where
  received := by simpa [hb, hr] using h.received
  frames   := by simpa [checks_snoc, hc, ht, TcpServer.frames, hb] using h.frames
  count    := by simpa [checks_snoc, hc, hn] using h.count
  alive    := ha

theorem Reading.check {pass : Bool} (h : Reading es client)
    (hr : client'.toRecvBuf = client.toRecvBuf) (hn : client'.count = client.count + 1)
    (ht : client.reader.todo = body :: client'.reader.todo)
    (ha : ∀ state, client'.reader ≠ .reading state) :
    Reading (es ++ [.preCheck body pass]) client' where
  received := by simpa [ClientEvent.bytes, hr] using h.received
  frames   := by
    have hf := h.frames
    simpa [checks_snoc, ClientEvent.check, ClientEvent.bytes, TcpServer.frames, ht] using hf
  count    := by simp [checks_snoc, ClientEvent.check, hn, h.count]
  alive    := fun state hs => absurd hs (ha state)

-- The frame that was let pass becomes a task of the read loop or of the pool.
theorem Client.produce_reader (c : Codec) (client : Client) (body : Bytes) (bodies : List Bytes) :
    (client.produce c body bodies).reader = .handling ⟨client.count, body, .queued⟩ bodies ∨
    (client.produce c body bodies).reader = .waiting client.count bodies ∨
    (client.produce c body bodies).reader = .decoding bodies := by
  simp only [produce]
  split
  case isTrue  => simp
  case isFalse => split <;> simp

theorem Client.produce_spec (c : Codec) (client : Client) (body : Bytes) (bodies : List Bytes) :
    (client.produce c body bodies).toTcpClient = client.toTcpClient ∧
    (client.produce c body bodies).connID = client.connID ∧
    (client.produce c body bodies).count = client.count + 1 := by
  simp only [produce]
  split
  case isTrue  => simp
  case isFalse => split <;> simp

theorem JobStep.event (h : JobStep c connID m job e m' job') : e = .internal ∨ e = .handle job.idx := by
  cases h <;> simp

theorem Reading.produce {bodies : List Bytes} (h : Reading es client)
    (ht : client.reader.todo = body :: bodies) :
    Reading (es ++ [.preCheck body true]) (client.produce c body bodies) := by
  have ⟨hb, _, hn⟩ := client.produce_spec c body bodies
  obtain hr | hr | hr := client.produce_reader c body bodies <;>
    exact h.check (congrArg _ hb) hn (by rw [ht, hr, Reader.todo]) (by simp [hr])

theorem Reading.step (h : Reading es client) (hs : ClientStep c self m client e m' client') :
    Reading (es ++ [e]) client' := by
  cases hs
  case turn hr hf ht => exact h.turn hr hf ht
  case leave hr hf ht =>
    have hb := h.bytes_of_leave hr hf ht
    exact h.idle (by simpa [ClientEvent.bytes] using hb) rfl rfl rfl (by simp [hr, Reader.todo]) nofun
  case head hr hs =>
    refine h.idle rfl rfl rfl rfl (by simp [hr, Reader.todo]) ?_
    intro state hs'
    cases hs'
    exact hs
  case vertify hr _ => exact h.produce (by rw [hr, Reader.todo])
  case pass hr _    => exact h.produce (by rw [hr, Reader.todo])
  case fail hr _ => exact h.check rfl rfl (by simp [hr, Reader.todo]) nofun
  case sync hr hj =>
    obtain rfl | rfl := hj.event <;> exact h.idle rfl rfl rfl rfl (by simp [hr, Reader.todo]) nofun
  case pool hj =>
    obtain rfl | rfl := hj.event <;> exact h.idle rfl rfl rfl rfl rfl h.alive
  all_goals
    rename client.reader = _ => hr
    exact h.idle rfl rfl rfl rfl (by simp [hr, Reader.todo]) nofun

-- The task that a read loop runs itself.
def Reader.tasks : Reader → List Job
  | .handling job _ => [job]
  | _               => []

def Client.tasks (client : Client) : List Job :=
  client.reader.tasks ++ client.jobs

-- The clients that a connection has looked up and may still read or write the state of.
inductive Client.Holds (client : Client) (k : Nat) : Prop
  | checking (body : Bytes) (bodies : List Bytes) :
    client.reader = .checking k body bodies → Client.Holds client k
  | refusing (bodies : List Bytes) : client.reader = .refusing k bodies → Client.Holds client k
  | setting (job : Job) : job ∈ client.tasks → job.pc = .setting k → Client.Holds client k

theorem Client.mem_tasks_of_jobs (h : job ∈ client.jobs) : job ∈ client.tasks :=
  List.mem_append_right _ h

theorem Client.mem_tasks_of_handling {bodies : List Bytes} (h : client.reader = .handling job bodies) :
    job ∈ client.tasks := by
  simp [tasks, h, Reader.tasks]

theorem Client.mem_tasks_produce {bodies : List Bytes}
    (h : job ∈ (client.produce c body bodies).tasks) :
    job ∈ client.tasks ∨ job = ⟨client.count, body, .queued⟩ := by
  have hj : job ∈ client.jobs ∨ job = ⟨client.count, body, .queued⟩ := by
    simp only [produce] at h
    split at h
    case isTrue => simpa [tasks, Reader.tasks, or_comm] using h
    case isFalse => split at h <;> simpa [tasks, Reader.tasks] using h
  exact hj.imp_left mem_tasks_of_jobs

theorem JobStep.clients_eq (h : JobStep c connID m job e m' job') : m'.clients = m.clients := by
  cases h <;> rfl

theorem JobStep.state_cases (h : JobStep c connID m job e m' job') :
    m'.state = m.state ∨ ∃ k, job.pc = .setting k ∧ m'.state = Function.update m.state k .ok := by
  cases h
  case setState k hp => exact .inr ⟨k, hp, rfl⟩
  all_goals exact .inl rfl

theorem JobStep.not_done (h : JobStep c connID m job e m' job') : job.pc ≠ .done := by
  cases h <;> simp_all

-- A task finds a client under the id of its own connection.
theorem JobStep.found (h : JobStep c connID m job e m' job') (hk : job'.pc = .setting k) :
    m.clients connID = some k := by
  cases h <;> simp_all

theorem ClientStep.connID_eq (h : ClientStep c self m client e m' client') :
    client'.connID = client.connID := by
  cases h
  case vertify body bodies _ _ => exact (client.produce_spec c body bodies).2.1
  case pass body bodies _ _    => exact (client.produce_spec c body bodies).2.1
  all_goals rfl

-- A task after a step is one from before, as it was or one step further, or the one of a frame that
-- `PreCheck` has let pass.
theorem ClientStep.task_cases (h : ClientStep c self m client e m' client')
    (hj : job' ∈ client'.tasks) :
    job' ∈ client.tasks ∨ (∃ job ∈ client.tasks, JobStep c client.connID m job e m' job') ∨
    ∃ body, e = .preCheck body true ∧ job' = ⟨client.count, body, .queued⟩ ∧
      (c.name body ≠ msgC2GVertify → ∃ k, client.Holds k ∧ m.state k = .ok) := by
  cases h
  case vertify body bodies hr hn =>
    obtain hj | rfl := Client.mem_tasks_produce hj
    · exact .inl hj
    · exact .inr <| .inr ⟨body, rfl, rfl, fun hv => absurd hn hv⟩
  case pass k body bodies hr hs =>
    obtain hj | rfl := Client.mem_tasks_produce hj
    · exact .inl hj
    · exact .inr <| .inr ⟨body, rfl, rfl, fun _ => ⟨k, .checking body bodies hr, hs⟩⟩
  case sync job job₁ bodies hr hs =>
    simp only [Client.tasks, Reader.tasks, List.mem_append, List.mem_singleton] at hj
    obtain rfl | hj := hj
    · exact .inr <| .inl ⟨job, Client.mem_tasks_of_handling hr, hs⟩
    · exact .inl <| Client.mem_tasks_of_jobs hj
  case pool i job job₁ hi hs =>
    simp only [Client.tasks, List.mem_append] at hj
    obtain hj | hj := hj
    · exact .inl <| List.mem_append_left _ hj
    · obtain hj | rfl := List.mem_or_eq_of_mem_set hj
      · exact .inl <| Client.mem_tasks_of_jobs hj
      · exact .inr <| .inl ⟨job, Client.mem_tasks_of_jobs (List.mem_of_getElem? hi), hs⟩
  all_goals exact .inl <| Client.mem_tasks_of_jobs (by simpa [Client.tasks, Reader.tasks] using hj)

theorem ClientStep.task_of_handle (h : ClientStep c self m client e m' client') (he : e = .handle k) :
    ∃ job ∈ client.tasks, job.idx = k := by
  cases h
  case sync hr hj =>
    obtain rfl | rfl := hj.event <;> cases he
    exact ⟨_, Client.mem_tasks_of_handling hr, rfl⟩
  case pool hi hj =>
    obtain rfl | rfl := hj.event <;> cases he
    exact ⟨_, Client.mem_tasks_of_jobs (List.mem_of_getElem? hi), rfl⟩
  all_goals cases he

-- What a connection does to the states of the clients.
theorem ClientStep.state_cases (h : ClientStep c self m client e m' client') :
    m'.state = m.state ∨
    (∃ k bodies, client.reader = .refusing k bodies ∧ m'.state = Function.update m.state k .exit) ∨
    ∃ job ∈ client.tasks, ∃ k, job.pc = .setting k ∧ m'.state = Function.update m.state k .ok := by
  cases h
  case refuse k bodies hr => exact .inr <| .inl ⟨k, bodies, hr, rfl⟩
  case sync hr hj =>
    exact hj.state_cases.imp_right fun hk => .inr ⟨_, Client.mem_tasks_of_handling hr, hk⟩
  case pool hi hj =>
    exact hj.state_cases.imp_right fun hk =>
      .inr ⟨_, Client.mem_tasks_of_jobs (List.mem_of_getElem? hi), hk⟩
  all_goals exact .inl rfl

-- A connection is deleted from the clients as it closes, and is closed for good then.
theorem ClientStep.clients_cases (h : ClientStep c self m client e m' client') :
    (m'.clients = m.clients ∧ (client'.reader = .closed ↔ client.reader = .closed)) ∨
    (client.reader = .closing ∧ client'.reader = .closed ∧
      m'.clients = m.clients.erase client.connID) := by
  cases h
  case close hr => exact .inr ⟨hr, rfl, rfl⟩
  case vertify body bodies hr _ =>
    obtain hp | hp | hp := client.produce_reader c body bodies <;> exact .inl ⟨rfl, by simp [hr, hp]⟩
  case pass body bodies hr _ =>
    obtain hp | hp | hp := client.produce_reader c body bodies <;> exact .inl ⟨rfl, by simp [hr, hp]⟩
  case sync hr hj => exact .inl ⟨hj.clients_eq, by simp [hr]⟩
  case pool hi hj => exact .inl ⟨hj.clients_eq, .rfl⟩
  all_goals
    rename client.reader = _ => hr
    exact .inl ⟨rfl, by simp [hr]⟩

-- A client is looked up under the id of the connection itself.
theorem ClientStep.holds_cases (h : ClientStep c self m client e m' client') (hk : client'.Holds k) :
    client.Holds k ∨ m.clients client.connID = some k := by
  cases hk
  case setting job hj hp =>
    obtain hj | ⟨job, _, hs⟩ | ⟨_, _, rfl, _⟩ := h.task_cases hj
    · exact .inl <| .setting job hj hp
    · exact .inr <| hs.found hp
    · cases hp
  case checking body' bodies' hr =>
    cases h
    case getTcpClient hf => cases hr; exact .inr hf
    case pool            => exact .inl <| .checking _ _ hr
    case vertify body bodies _ _ =>
      obtain hp | hp | hp := client.produce_reader c body bodies <;> cases hp.symm.trans hr
    case pass body bodies _ _ =>
      obtain hp | hp | hp := client.produce_reader c body bodies <;> cases hp.symm.trans hr
    all_goals cases hr
  case refusing bodies' hr =>
    cases h
    case fail hc _       => cases hr; exact .inl <| .checking _ _ hc
    case pool            => exact .inl <| .refusing _ hr
    case vertify body bodies _ _ =>
      obtain hp | hp | hp := client.produce_reader c body bodies <;> cases hp.symm.trans hr
    case pass body bodies _ _ =>
      obtain hp | hp | hp := client.produce_reader c body bodies <;> cases hp.symm.trans hr
    all_goals cases hr

-- Nothing happens on the connection any more.
structure Client.Finished (client : Client) : Prop where
  closed : client.reader = .closed
  done   : ∀ job ∈ client.jobs, job.pc = .done

theorem ClientStep.not_finished (h : ClientStep c self m client e m' client') : ¬client.Finished := by
  intro hf
  have hc := hf.closed
  cases h
  case pool hi hj => exact hj.not_done <| hf.done _ (List.mem_of_getElem? hi)
  all_goals
    rename client.reader = _ => hr
    cases hr.symm.trans hc

variable {s s' : TcpServer} {i j : Nat} {identity : Gate.ServerIdentity} {ev : Event} {evs : List Event}

-- No id stands for two connections at a time: a connection is accepted under an id only after all is
-- finished that came over earlier ones with that id, and likewise for the connections to services.
def Unshared (s : TcpServer) : Event → Prop
  | .accept connID =>
    (∀ client ∈ s.conns, client.connID = connID → client.Finished) ∧
    ∀ r ∈ s.remoteJobs, r.1 = connID → r.2.pc = .done
  | .remote connID => ∀ client ∈ s.conns, client.connID = connID → client.Finished
  | _ => True

-- Then an id leads to the connection that it is looked up for.
structure Sole (s : TcpServer) : Prop where
  sole       : ∀ {i j : Nat} {client client' : Client}, s.conns[i]? = some client →
    s.conns[j]? = some client' → client.connID = client'.connID → i < j → client.Finished
  apart      : ∀ {connID : ConnId} {job : Job} {client : Client}, (connID, job) ∈ s.remoteJobs →
    job.pc ≠ .done → client ∈ s.conns → client.connID = connID → client.Finished
  listed     : ∀ {connID : ConnId} {k : Nat}, s.clients connID = some k →
    ∃ client, s.conns[k]? = some client ∧ client.connID = connID ∧ client.reader ≠ .closed
  registered : ∀ {i : Nat} {client : Client}, s.conns[i]? = some client → client.reader ≠ .closed →
    s.clients client.connID = some i
  own        : ∀ {i k : Nat} {client : Client}, s.conns[i]? = some client → client.Holds k → k = i
  remoteOwn  : ∀ {connID : ConnId} {job : Job} {k : Nat}, (connID, job) ∈ s.remoteJobs →
    job.pc ≠ .setting k

namespace Sole

theorem eq_of_connID (h : Sole s) (hi : s.conns[i]? = some client) (hj : s.conns[j]? = some client')
    (he : client.connID = client'.connID) (hf : ¬client.Finished) (hf' : ¬client'.Finished) : i = j := by
  obtain hl | rfl | hl := Nat.lt_trichotomy i j
  · exact absurd (h.sole hi hj he hl) hf
  · rfl
  · exact absurd (h.sole hj hi he.symm hl) hf'

theorem found (h : Sole s) (hi : s.conns[i]? = some client) (hf : ¬client.Finished)
    (hk : s.clients client.connID = some k) : k = i := by
  have ⟨_, hk, he, hc⟩ := h.listed hk
  exact h.eq_of_connID hk hi he (hc ·.closed) hf

theorem not_found (h : Sole s) (hj : (connID, job) ∈ s.remoteJobs) (hd : job.pc ≠ .done) :
    s.clients connID = none := by
  cases hk : s.clients connID
  case none   => rfl
  case some k =>
    have ⟨_, hk, he, hc⟩ := h.listed hk
    exact absurd (h.apart hj hd (List.mem_of_getElem? hk) he).closed hc

theorem createTcpServer : Sole createTcpServer := by
  constructor <;> simp [TcpServer.createTcpServer]

theorem accept {now : Int} (h : Sole s) (hu : Unshared s (.accept connID)) :
    Sole (s.accept identity connID now) := by
  have hfresh {i client} (hi : s.conns[i]? = some client) := hu.1 client (List.mem_of_getElem? hi)
  constructor
  case sole =>
    intro i j client client' hi hj he hl
    obtain hj | ⟨rfl, rfl⟩ := List.getElem?_concat_cases hj <;>
      obtain hi | ⟨rfl, rfl⟩ := List.getElem?_concat_cases hi
    · exact h.sole hi hj he hl
    · have := (List.getElem?_eq_some_iff.mp hj).1
      omega
    · exact hfresh hi he
    · omega
  case apart =>
    intro connID' job client hj hd hc he
    obtain hc | hc := List.mem_append.mp hc
    · exact h.apart hj hd hc he
    · cases List.mem_singleton.mp hc
      exact absurd (hu.2 _ hj he.symm) hd
  case listed =>
    intro connID' k hk
    obtain ⟨rfl, rfl⟩ | ⟨_, hk⟩ := Partial.insert_eq_some_iff.mp hk
    · exact ⟨_, List.getElem?_concat_length, rfl, nofun⟩
    · have ⟨client, hc, hd⟩ := h.listed hk
      exact ⟨client, List.getElem?_append_of_eq_some hc, hd⟩
  case registered =>
    intro i client hi hr
    obtain hi | ⟨rfl, rfl⟩ := List.getElem?_concat_cases hi
    · have hn : client.connID ≠ connID := fun he => hr (hfresh hi he).closed
      exact (Partial.insert_of_ne hn).trans (h.registered hi hr)
    · exact Partial.insert_self
  case own =>
    intro i k client hi hk
    obtain hi | ⟨rfl, rfl⟩ := List.getElem?_concat_cases hi
    · exact h.own hi hk
    · cases hk
      case setting hj _ => cases hj
      all_goals
        rename Reader.accepted = _ => hr
        cases hr
  case remoteOwn => exact h.remoteOwn

theorem clientStep (h : Sole s) (hc : s.conns[self]? = some client)
    (hs : ClientStep c self s.toShared client e m client') :
    Sole { s with toShared := m, conns := s.conns.set self client' } := by
  have hf := hs.not_finished
  have he' := hs.connID_eq
  have hlen := (List.getElem?_eq_some_iff.mp hc).1
  constructor
  case sole =>
    intro i j client₁ client₂ hi hj he hl
    obtain ⟨rfl, rfl⟩ | ⟨_, hi'⟩ := List.getElem?_set_cases hi <;>
      obtain ⟨rfl, rfl⟩ | ⟨_, hj'⟩ := List.getElem?_set_cases hj
    · omega
    · exact absurd (h.sole hc hj' (he'.symm.trans he) hl) hf
    · exact h.sole hi' hc (he.trans he') hl
    · exact h.sole hi' hj' he hl
  case apart =>
    intro connID job client₁ hj hd hm he
    obtain hm | rfl := List.mem_or_eq_of_mem_set hm
    · exact h.apart hj hd hm he
    · exact absurd (h.apart hj hd (List.mem_of_getElem? hc) (he'.symm.trans he)) hf
  case listed =>
    intro connID k hk
    obtain ⟨heq, hcl⟩ | ⟨_, _, heq⟩ := hs.clients_cases
    · have ⟨client₁, hk, he, hr⟩ := h.listed (heq ▸ hk)
      by_cases hi : self = k
      · subst hi
        cases hc.symm.trans hk
        exact ⟨client', List.getElem?_set_self hlen, he'.trans he, mt hcl.mp hr⟩
      · exact ⟨client₁, (List.getElem?_set_ne hi).trans hk, he, hr⟩
    · have ⟨hne, hk⟩ := Partial.erase_eq_some_iff.mp (heq ▸ hk)
      have ⟨client₁, hk, he, hr⟩ := h.listed hk
      have hi : self ≠ k := by
        rintro rfl
        cases hc.symm.trans hk
        exact hne he.symm
      exact ⟨client₁, (List.getElem?_set_ne hi).trans hk, he, hr⟩
  case registered =>
    intro i client₁ hi hr
    obtain ⟨heq, hcl⟩ | ⟨_, hcl, heq⟩ := hs.clients_cases <;>
      obtain ⟨rfl, rfl⟩ | ⟨hn, hi⟩ := List.getElem?_set_cases hi
    · exact heq ▸ he' ▸ h.registered hc (mt hcl.mpr hr)
    · exact heq ▸ h.registered hi hr
    · exact absurd hcl hr
    · have hne : client₁.connID ≠ client.connID :=
        fun he => hn (h.eq_of_connID hi hc he (hr ·.closed) hf)
      exact heq ▸ (Partial.erase_of_ne hne).trans (h.registered hi hr)
  case own =>
    intro i k client₁ hi hk
    obtain ⟨rfl, rfl⟩ | ⟨_, hi⟩ := List.getElem?_set_cases hi
    · obtain hk | hk := hs.holds_cases hk
      · exact h.own hc hk
      · exact h.found hc hf hk
    · exact h.own hi hk
  case remoteOwn => exact h.remoteOwn

theorem remote (h : Sole s) (hu : Unshared s (.remote connID)) :
    Sole { s with remoteJobs := s.remoteJobs ++ [(connID, ⟨0, body, .queued⟩)] } where
  sole       := h.sole
  listed     := h.listed
  registered := h.registered
  own        := h.own
  apart      := by
    intro connID' job client hj hd hc he
    obtain hj | hj := List.mem_append.mp hj
    · exact h.apart hj hd hc he
    · cases List.mem_singleton.mp hj
      exact hu client hc he
  remoteOwn  := by
    intro connID' job k hj hk
    obtain hj | hj := List.mem_append.mp hj
    · exact h.remoteOwn hj hk
    · cases List.mem_singleton.mp hj
      cases hk

-- A task from a connection to a service finds no client, so it changes nothing.
theorem remoteJob (h : Sole s) (hi : s.remoteJobs[i]? = some (connID, job))
    (hs : JobStep c connID s.toShared job e m job') :
    m = s.toShared ∧ Sole { s with toShared := m, remoteJobs := s.remoteJobs.set i (connID, job') } := by
  have hj := List.mem_of_getElem? hi
  have hm : m = s.toShared := by
    cases hs
    case setState hk => exact absurd hk (h.remoteOwn hj)
    all_goals rfl
  subst hm
  refine ⟨rfl, ⟨h.sole, ?apart, h.listed, h.registered, h.own, ?remoteOwn⟩⟩
  case apart =>
    intro connID' job₁ client hj₁ hd hc he
    obtain hj₁ | heq := List.mem_or_eq_of_mem_set hj₁
    · exact h.apart hj₁ hd hc he
    · cases heq
      exact h.apart hj hs.not_done hc he
  case remoteOwn =>
    intro connID' job₁ k hj₁ hk
    obtain hj₁ | heq := List.mem_or_eq_of_mem_set hj₁
    · exact h.remoteOwn hj₁ hk
    · cases heq
      cases (h.not_found hj hs.not_done).symm.trans (hs.found hk)

theorem step (h : Sole s) (hu : Unshared s ev) (hs : Step c identity s ev s') : Sole s' := by
  cases hs
  case accept              => exact h.accept hu
  case client hc hs        => exact h.clientStep hc hs
  case remote              => exact h.remote hu
  case remoteJob hi hs     => exact (h.remoteJob hi hs).2
  case stop                => exact ⟨h.sole, h.apart, h.listed, h.registered, h.own, h.remoteOwn⟩

end Sole

end TcpServer
