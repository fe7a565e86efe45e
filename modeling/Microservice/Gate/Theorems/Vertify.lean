import Microservice.Gate.Theorems.TcpServer

namespace TcpServer

open SimpleRpc

variable {c : Codec} {self i j k : Nat} {connID : ConnId} {m m' : Shared} {job job' : Job}
  {client client' : Client} {e : ClientEvent} {es : List ClientEvent} {body : Bytes}
  {s s' : TcpServer} {ev : Event} {evs : List Event} {state state' : TcpClientState}

-- The events of one connection.
def Event.of (self : Nat) : Event → Option ClientEvent
  | .client i e => if i = self then some e else none
  | _           => none

def history (self : Nat) (evs : List Event) : List ClientEvent :=
  evs.filterMap (Event.of self)

theorem history_snoc_of_none (h : ev.of self = none) : history self (evs ++ [ev]) = history self evs := by
  simp [history, h]

theorem history_snoc : history self (evs ++ [.client self e]) = history self evs ++ [e] := by
  simp [history, Event.of]

theorem Step.length_le {identity : Gate.ServerIdentity} (h : Step c identity s ev s') :
    s.conns.length ≤ s'.conns.length := by
  cases h
  case accept => simp [TcpServer.accept]
  case client => simp
  all_goals exact Nat.le_refl _

theorem history_of_length_le {identity : Gate.ServerIdentity}
    (h : Exec (Step c identity) createTcpServer evs s) (hl : s.conns.length ≤ self) :
    history self evs = [] := by
  induction h
  case refl => rfl
  case snoc evs s s' ev _ hs hi =>
    have hl' := Nat.le_trans hs.length_le hl
    rw [history_snoc_of_none, hi hl']
    cases hs
    case client i _ _ _ hc _ =>
      have hlt := (List.getElem?_eq_some_iff.mp hc).1
      exact if_neg (by omega)
    all_goals rfl

-- A connection that was just accepted by a gate for clients.
structure Client.Fresh (client : Client) : Prop where
  buf    : client.toRecvBuf = .make
  reader : client.reader = .accepted
  count  : client.count = 0
  jobs   : client.jobs = []

-- The steps of a server in which no id is shared.
def Separate (c : Codec) (s : TcpServer) (ev : Event) (s' : TcpServer) : Prop :=
  Step c .clientGate s ev s' ∧ Unshared s ev

theorem sole_of_exec (h : Exec (Separate c) createTcpServer evs s) : Sole s :=
  h.preserves .createTcpServer fun _ _ _ hi ⟨hs, hu⟩ => hi.step hu hs

-- What a step is for one connection: a step of its own, the start of it, or a step that leaves it alone,
-- except that all clients are told to exit as the server stops.
theorem Separate.view (hs : Separate c s ev s') (h : Sole s) (hc : s'.conns[self]? = some client') :
    (∃ client e, ev = .client self e ∧ s.conns[self]? = some client ∧
      ClientStep c self s.toShared client e s'.toShared client') ∨
    (s.conns.length = self ∧ ev.of self = none ∧ client'.Fresh ∧ s'.state self = .init) ∨
    (s.conns[self]? = some client' ∧ ev.of self = none ∧
      (s'.state self = s.state self ∨ ev = .stop ∧ s'.state self = .exit)) := by
  cases hs.1
  case accept now _ _ =>
    obtain hc | ⟨rfl, rfl⟩ := List.getElem?_concat_cases hc
    · have hlt := (List.getElem?_eq_some_iff.mp hc).1
      exact .inr <| .inr ⟨hc, rfl, .inl <| Function.update_of_ne (by omega) ..⟩
    · exact .inr <| .inl ⟨rfl, rfl, ⟨rfl, rfl, rfl, rfl⟩, Function.update_self ..⟩
  case client i client₁ e m client₂ hi hcs =>
    obtain ⟨rfl, rfl⟩ | ⟨hn, hc⟩ := List.getElem?_set_cases hc
    · exact .inl ⟨client₁, e, rfl, hi, hcs⟩
    · refine .inr <| .inr ⟨hc, if_neg (Ne.symm hn), .inl ?_⟩
      -- A connection only sets the state of the client that it has looked up, which is its own.
      obtain hst | ⟨k, _, hr, hst⟩ | ⟨job, hj, k, hk, hst⟩ := hcs.state_cases
      · exact congrFun hst self
      · cases h.own hi (.refusing _ hr)
        exact (congrFun hst self).trans (Function.update_of_ne hn ..)
      · cases h.own hi (.setting job hj hk)
        exact (congrFun hst self).trans (Function.update_of_ne hn ..)
  case remote => exact .inr <| .inr ⟨hc, rfl, .inl rfl⟩
  case remoteJob hi hjs =>
    obtain ⟨rfl, _⟩ := h.remoteJob hi hjs
    exact .inr <| .inr ⟨hc, rfl, .inl rfl⟩
  case stop =>
    refine .inr <| .inr ⟨hc, rfl, ?_⟩
    simp only [stopClients]
    split
    case isTrue  => exact .inr ⟨trivial, rfl⟩
    case isFalse => exact .inl rfl

-- An invariant of a single connection holds in every run of the server.
theorem client_invariant {P : List Event → TcpClientState → Client → Prop}
    (fresh : ∀ evs client, history self evs = [] → client.Fresh → P evs .init client)
    (own : ∀ evs s client e m client', Exec (Separate c) createTcpServer evs s → Sole s →
      s.conns[self]? = some client → ClientStep c self s.toShared client e m client' →
      P evs (s.state self) client → P (evs ++ [.client self e]) (m.state self) client')
    (other : ∀ evs ev client state state', ev.of self = none →
      (state' = state ∨ ev = .stop ∧ state' = .exit) → P evs state client → P (evs ++ [ev]) state' client)
    (h : Exec (Separate c) createTcpServer evs s) (hc : s.conns[self]? = some client) :
    P evs (s.state self) client := by
  induction h generalizing client
  case refl => simp [createTcpServer] at hc
  case snoc evs s s' ev h hs hi =>
    have hsole := sole_of_exec h
    obtain ⟨client₁, e, rfl, hc₁, hcs⟩ | ⟨hl, he, hf, hst⟩ | ⟨hc₁, he, hst⟩ := hs.view hsole hc
    · exact own evs s client₁ e _ client h hsole hc₁ hcs (hi hc₁)
    · have hh := history_of_length_le (h.mono fun _ _ _ hs => hs.1) (Nat.le_of_eq hl)
      exact hst ▸ fresh _ client ((history_snoc_of_none he).trans hh) hf
    · exact other evs ev client _ _ he hst (hi hc₁)

theorem reading_of_exec (h : Exec (Separate c) createTcpServer evs s)
    (hc : s.conns[self]? = some client) : Reading (history self evs) client := by
  refine client_invariant (P := fun evs _ client => Reading (history self evs) client) ?_ ?_ ?_ h hc
  · intro evs client hh hf
    exact {
      received := by simp [hh, hf.buf, Packet.parse_nil, RecvBuf.make_received]
      frames   := by simp [hh, hf.reader, Reader.todo, checks, frames, Packet.parse_nil]
      count    := by simp [hh, hf.count, checks]
      alive    := by simp [hf.reader] }
  · intro evs s client e m client' _ _ _ hs hr
    rw [history_snoc]
    exact hr.step hs
  · intro evs ev client _ _ he _ hr
    rwa [history_snoc_of_none he]

-- The frame with the number `j` has been checked, and is a `MSG_C2G_VERTIFY` with the right key.
def Verified (c : Codec) (es : List ClientEvent) (j : Nat) : Prop :=
  ∃ body pass, (checks es)[j]? = some (body, pass) ∧ c.Verifies body

theorem Verified.mono (h : Verified c es j) : Verified c (es ++ [e]) j :=
  have ⟨body, pass, hj, hv⟩ := h
  ⟨body, pass, checks_mono hj, hv⟩

def VerifiedBefore (c : Codec) (es : List ClientEvent) (k : Nat) : Prop :=
  ∃ j < k, Verified c es j

theorem VerifiedBefore.mono (h : VerifiedBefore c es k) : VerifiedBefore c (es ++ [e]) k :=
  have ⟨j, hj, hv⟩ := h
  ⟨j, hj, hv.mono⟩

theorem VerifiedBefore.le {k' : Nat} (h : VerifiedBefore c es k) (hk : k ≤ k') : VerifiedBefore c es k' :=
  have ⟨j, hj, hv⟩ := h
  ⟨j, Nat.lt_of_lt_of_le hj hk, hv⟩

-- A frame may be handled if it is a `MSG_C2G_VERTIFY` or there is a right one before it.
def Admitted (c : Codec) (es : List ClientEvent) (k : Nat) : Prop :=
  ∃ body, (checks es)[k]? = some (body, true) ∧ (c.name body ≠ msgC2GVertify → VerifiedBefore c es k)

theorem Admitted.mono (h : Admitted c es k) : Admitted c (es ++ [e]) k :=
  have ⟨body, hk, hv⟩ := h
  ⟨body, checks_mono hk, fun hn => (hv hn).mono⟩

-- Why a task may be where it is: it can only have come to another body than that of its frame by a call,
-- which is not a `MSG_C2G_VERTIFY`.
structure Justified (c : Codec) (es : List ClientEvent) (job : Job) : Prop where
  checked : (checks es)[job.idx]? = some (job.body, true)
  outer   : c.name job.body ≠ msgC2GVertify → VerifiedBefore c es job.idx
  inner   : ∀ body, job.pc = .running body → body = job.body ∨ VerifiedBefore c es job.idx
  setting : ∀ k, job.pc = .setting k → VerifiedBefore c es (job.idx + 1)

theorem Justified.admitted (h : Justified c es job) : Admitted c es job.idx :=
  ⟨job.body, h.checked, h.outer⟩

theorem Justified.mono (h : Justified c es job) : Justified c (es ++ [e]) job where
  checked            := checks_mono h.checked
  outer hn           := (h.outer hn).mono
  inner body hp      := (h.inner body hp).imp_right (·.mono)
  setting k hp       := (h.setting k hp).mono

theorem Justified.done (h : Justified c es job) : Justified c es { job with pc := .done } :=
  ⟨h.checked, h.outer, nofun, nofun⟩

theorem Justified.step (h : Justified c es job) (hs : JobStep c connID m job e m' job') :
    Justified c es job' := by
  cases hs
  case process => exact ⟨h.checked, h.outer, fun _ hp => .inl (JobPc.running.inj hp).symm, nofun⟩
  case call body _ hp hc _ _ =>
    have hv : VerifiedBefore c es job.idx := by
      obtain rfl | hv := h.inner body hp
      · exact h.outer (Codec.name_ne_of_isCall hc)
      · exact hv
    exact ⟨h.checked, h.outer, fun _ _ => .inr hv, nofun⟩
  case vertify body k hp hn hk _ =>
    have hv : VerifiedBefore c es (job.idx + 1) := by
      obtain rfl | hv := h.inner body hp
      · exact ⟨job.idx, Nat.lt_succ_self _, _, _, h.checked, Codec.name_eq_vertify_iff.mp hn, hk⟩
      · exact hv.le (Nat.le_succ _)
    exact ⟨h.checked, h.outer, nofun, fun _ _ => hv⟩
  all_goals exact h.done

-- The state of a client is OK only after a right `MSG_C2G_VERTIFY` among its frames, and only then are
-- other frames handled.
structure Guard (c : Codec) (es : List ClientEvent) (state : TcpClientState) (client : Client) :
    Prop where
  tasks   : ∀ job ∈ client.tasks, Justified c es job
  ok      : state = .ok → VerifiedBefore c es (checks es).length
  handled : ∀ k, .handle k ∈ es → Admitted c es k

theorem Justified.verified (h : Justified c es job) (hk : job.pc = .setting k) :
    VerifiedBefore c es (checks es).length :=
  (h.setting k hk).le (List.getElem?_eq_some_iff.mp h.checked).1

theorem Guard.step (h : Guard c es (m.state self) client) (hr : Reading es client)
    (hown : ∀ k, client.Holds k → k = self) (hs : ClientStep c self m client e m' client') :
    Guard c (es ++ [e]) (m'.state self) client' where
  tasks := by
    intro job' hj
    obtain hj | ⟨job, hj, hjs⟩ | ⟨body, rfl, rfl, hn⟩ := hs.task_cases hj
    · exact (h.tasks job' hj).mono
    · exact ((h.tasks job hj).step hjs).mono
    · refine ⟨?_, ?_, by simp, by simp⟩
      · simp [checks_snoc, ClientEvent.check, hr.count]
      · intro hv
        obtain ⟨k, hk, hok⟩ := hn hv
        have hb := h.ok (hown k hk ▸ hok)
        exact (hr.count ▸ hb).mono
  ok := by
    intro hok
    have hb : VerifiedBefore c es (checks es).length := by
      obtain hst | ⟨k, _, hrd, hst⟩ | ⟨job, hj, k, hk, hst⟩ := hs.state_cases
      · exact h.ok (congrFun hst self ▸ hok)
      · cases hown k (.refusing _ hrd)
        rw [hst, Function.update_self] at hok
        cases hok
      · exact (h.tasks job hj).verified hk
    exact hb.mono.le (by simp [checks_snoc])
  handled := by
    intro k hk
    obtain hk | hk := List.mem_append.mp hk
    · exact (h.handled k hk).mono
    · obtain ⟨job, hj, hidx⟩ := hs.task_of_handle (List.mem_singleton.mp hk).symm
      exact hidx ▸ (h.tasks job hj).admitted.mono

theorem guard_of_exec (h : Exec (Separate c) createTcpServer evs s)
    (hc : s.conns[self]? = some client) : Guard c (history self evs) (s.state self) client := by
  refine client_invariant (P := fun evs state client => Guard c (history self evs) state client)
    ?_ ?_ ?_ h hc
  · intro evs client hh hf
    exact ⟨by simp [Client.tasks, hf.reader, hf.jobs, Reader.tasks], nofun, by simp [hh]⟩
  · intro evs s client e m client' h hsole hc hs hg
    rw [history_snoc]
    exact hg.step (reading_of_exec h hc) (fun k => hsole.own hc) hs
  · intro evs ev client state state' he hst hg
    rw [history_snoc_of_none he]
    refine ⟨hg.tasks, fun hok => ?_, hg.handled⟩
    obtain rfl | ⟨_, rfl⟩ := hst
    · exact hg.ok hok
    · cases hok

-- The frame with the number `j` is a right `MSG_C2G_VERTIFY`, and there is none of another name before
-- it, as far as the frames have been checked.
structure Opening (c : Codec) (es : List ClientEvent) (j : Nat) : Prop where
  before : ∀ i < j, ∀ body pass, (checks es)[i]? = some (body, pass) → c.name body = msgC2GVertify
  right  : ∀ body pass, (checks es)[j]? = some (body, pass) → c.Verifies body

theorem Opening.of_snoc (h : Opening c (es ++ [e]) j) : Opening c es j where
  before i hi body pass hc := h.before i hi body pass (checks_mono hc)
  right body pass hc       := h.right body pass (checks_mono hc)

-- The task of a right `MSG_C2G_VERTIFY` that has not set the state yet.
structure Job.Verifying (c : Codec) (n : Nat) (job : Job) : Prop where
  body : c.Verifies job.body
  pc   : job.pc = .queued ∨ job.pc = .running job.body ∨ job.pc = .setting n

-- The client of the connection is registered, so the task gets to the `SetState`.
theorem Job.Verifying.step (h : job.Verifying c self) (hm : m.clients connID = some self)
    (hs : JobStep c connID m job e m' job') : job'.Verifying c self ∨ m'.state self = .ok := by
  have ⟨hb, hp⟩ := h
  have hn := Codec.name_eq_vertify_iff.mpr hb.name
  cases hs
  case process => exact .inl ⟨hb, .inr <| .inl rfl⟩
  case skip hd => cases hb.dispatches.symm.trans hd
  case setState k hk =>
    obtain hp | hp | hp := hp <;> cases hp.symm.trans hk
    exact .inr <| Function.update_self ..
  all_goals
    rename job.pc = _ => hk
    obtain hp | hp | hp := hp <;> cases hp.symm.trans hk
  case call     => exact absurd hn (Codec.name_ne_of_isCall ‹c.isCall job.body = true›)
  case noCall   => exact absurd hn (Codec.name_ne_of_isCall ‹c.isCall job.body = true›)
  case keyError => exact absurd hb.key ‹_›
  case notExist => cases hm.symm.trans ‹m.clients connID = none›
  case vertify  =>
    cases hm.symm.trans ‹m.clients connID = some _›
    exact .inl ⟨hb, .inr <| .inr rfl⟩
  case other    => exact absurd hn ‹_›

-- How a stream goes on that is opened by its frame with the number `j`: the read loop runs the task of
-- that frame to its end before it checks the next one.
structure Opened (c : Codec) (n j : Nat) (es : List ClientEvent) (state : TcpClientState)
    (client : Client) : Prop where
  passed   : ∀ x ∈ checks es, x.2 = true
  calm     : ∀ k bodies, client.reader ≠ .refusing k bodies
  checking : ∀ k body bodies, client.reader = .checking k body bodies → c.name body ≠ msgC2GVertify
  running  : state ≠ .exit
  ok       : j < client.count →
    state = .ok ∨ ∃ job bodies, client.reader = .handling job bodies ∧ job.Verifying c n

namespace Opened

-- The state stays what it is, or becomes OK.
theorem state_cases (h : Opened c self j es (m.state self) client)
    (hown : ∀ k, client.Holds k → k = self) (hs : ClientStep c self m client e m' client') :
    m'.state self = m.state self ∨ m'.state self = .ok := by
  obtain hst | ⟨k, _, hr, _⟩ | ⟨job, hj, k, hk, hst⟩ := hs.state_cases
  · exact .inl <| congrFun hst self
  · exact absurd hr (h.calm k _)
  · cases hown k (.setting job hj hk)
    exact .inr <| (congrFun hst self).trans (Function.update_self ..)

theorem ok_of_reader (h : Opened c self j es state client) (hj : j < client.count)
    (hr : ∀ job bodies, client.reader ≠ .handling job bodies) : state = .ok := by
  obtain ho | ⟨job, bodies, hh, _⟩ := h.ok hj
  · exact ho
  · exact absurd hh (hr job bodies)

-- No check fails.
theorem pass {bodies : List Bytes} {pass : Bool} (h : Opened c self j es (m.state self) client)
    (ho : Opening c (es ++ [.preCheck body pass]) j) (hr : Reading es client)
    (hc : client.reader = .checking self body bodies) : m.state self = .ok := by
  have hn := h.checking _ _ _ hc
  have hx : (checks (es ++ [.preCheck body pass]))[client.count]? = some (body, pass) := by
    simp [checks_snoc, ClientEvent.check, hr.count]
  obtain hl | rfl | hl := Nat.lt_trichotomy client.count j
  · exact absurd (ho.before _ hl _ _ hx) hn
  · exact absurd (Codec.name_eq_vertify_iff.mpr (ho.right _ _ hx).name) hn
  · exact h.ok_of_reader hl (by simp [hc])

-- A step between two checks, outside of the tasks that the read loop runs.
theorem idle (h : Opened c self j es state client) (hc : e.check = none)
    (hn : client'.count = client.count) (hr : ∀ job bodies, client.reader ≠ .handling job bodies)
    (hrun : state' ≠ .exit) (hok : state = .ok → state' = .ok)
    (calm : ∀ k bodies, client'.reader ≠ .refusing k bodies)
    (checking : ∀ k body bodies, client'.reader = .checking k body bodies →
      c.name body ≠ msgC2GVertify) : Opened c self j (es ++ [e]) state' client' where
  passed   := by simpa [checks_snoc, hc] using h.passed
  calm     := calm
  checking := checking
  running  := hrun
  ok hj    := .inl <| hok <| h.ok_of_reader (hn ▸ hj) hr

theorem passed_snoc (h : Opened c self j es state client) :
    ∀ x ∈ checks (es ++ [.preCheck body true]), x.2 = true := by
  intro x hx
  rw [checks_snoc] at hx
  obtain hx | hx := List.mem_append.mp hx
  · exact h.passed x hx
  · cases List.mem_singleton.mp hx
    rfl

-- The frame that opens the stream is handled by the read loop at once.
theorem vertify {bodies : List Bytes} (h : Opened c self j es state client)
    (ho : Opening c (es ++ [.preCheck body true]) j) (hr : Reading es client)
    (hd : client.reader = .decoding (body :: bodies)) (hn : c.name body = msgC2GVertify) :
    Opened c self j (es ++ [.preCheck body true]) state (client.produce c body bodies) := by
  have hp : client.produce c body bodies =
      { client with
        count  := client.count + 1
        reader := .handling ⟨client.count, body, .queued⟩ bodies } := if_pos (.inl hn)
  rw [hp]
  refine ⟨h.passed_snoc, nofun, nofun, h.running, fun hj => ?_⟩
  obtain hj | rfl := Nat.lt_succ_iff_lt_or_eq.mp hj
  · exact .inl <| h.ok_of_reader hj (by simp [hd])
  · have hv := ho.right body true (by simp [checks_snoc, ClientEvent.check, hr.count])
    exact .inr ⟨_, bodies, rfl, hv, .inl rfl⟩

theorem produce {bodies : List Bytes} (h : Opened c self j es state client) (hok : state = .ok) :
    Opened c self j (es ++ [.preCheck body true]) state (client.produce c body bodies) := by
  refine ⟨h.passed_snoc, ?_, ?_, h.running, fun _ => .inl hok⟩ <;>
    obtain hp | hp | hp := client.produce_reader c body bodies <;> simp [hp]

theorem step (h : Opened c self j es (m.state self) client) (ho : Opening c (es ++ [e]) j)
    (hr : Reading es client) (hown : ∀ k, client.Holds k → k = self)
    (hm : client.reader ≠ .closed → m.clients client.connID = some self)
    (hs : ClientStep c self m client e m' client') :
    Opened c self j (es ++ [e]) (m'.state self) client' := by
  have hst := h.state_cases hown hs
  have hrun : m'.state self ≠ .exit := by
    obtain hst | hst := hst
    · exact hst ▸ h.running
    · simp [hst]
  have hok : m.state self = .ok → m'.state self = .ok := by
    intro hok
    obtain hst | hst := hst
    · exact hst.trans hok
    · exact hst
  cases hs
  case vertify hd hn => exact h.vertify ho hr hd hn
  case pass hc _     =>
    cases hown _ (.checking _ _ hc)
    exact h.produce (h.pass ho hr hc)
  case fail hc hn =>
    cases hown _ (.checking _ _ hc)
    exact absurd (h.pass ho hr hc) hn
  case getTcpClient hd hn _ =>
    refine h.idle rfl rfl (by simp [hd]) hrun hok (by simp) ?_
    intro k body bodies hc
    cases hc
    exact hn
  case refuse hc => exact absurd hc (h.calm _ _)
  case sync hh hj =>
    have he : e.check = none := by obtain rfl | rfl := hj.event <;> rfl
    refine ⟨by simpa [checks_snoc, he] using h.passed, by simp, by simp, hrun, fun hl => ?_⟩
    obtain ho | ⟨_, _, hh', hv⟩ := h.ok hl
    · exact .inl <| hok ho
    · cases hh.symm.trans hh'
      obtain hv | hv := hv.step (hm (by simp [hh])) hj
      · exact .inr ⟨_, _, rfl, hv⟩
      · exact .inl hv
  case synced hh hd =>
    refine ⟨by simpa [checks_snoc, ClientEvent.check] using h.passed, by simp, by simp, hrun, fun hl => ?_⟩
    obtain ho | ⟨_, _, hh', hv⟩ := h.ok hl
    · exact .inl <| hok ho
    · cases hh.symm.trans hh'
      obtain hp | hp | hp := hv.pc <;> cases hp.symm.trans hd
  case pool hj =>
    have he : e.check = none := by obtain rfl | rfl := hj.event <;> rfl
    refine ⟨by simpa [checks_snoc, he] using h.passed, h.calm, h.checking, hrun, fun hl => ?_⟩
    exact (h.ok hl).imp_left hok
  all_goals
    rename client.reader = _ => hd
    exact h.idle rfl rfl (by simp [hd]) hrun hok (by simp) (by simp)

end Opened

theorem opened_of_exec (h : Exec (Separate c) createTcpServer evs s) (hstop : .stop ∉ evs)
    (ho : Opening c (history self evs) j) (hc : s.conns[self]? = some client) :
    Opened c self j (history self evs) (s.state self) client := by
  refine client_invariant (P := fun evs state client => .stop ∉ evs → Opening c (history self evs) j →
    Opened c self j (history self evs) state client) ?_ ?_ ?_ h hc hstop ho
  · intro evs client hh hf _ _
    exact ⟨by simp [hh, checks], by simp [hf.reader], by simp [hf.reader], nofun, by simp [hf.count]⟩
  · intro evs s client e m client' h hsole hc hs hi hstop ho
    rw [history_snoc] at ho ⊢
    have hi := hi (fun hm => hstop (List.mem_append_left _ hm)) ho.of_snoc
    exact hi.step ho (reading_of_exec h hc) (fun k => hsole.own hc) (hsole.registered hc) hs
  · intro evs ev client state state' he hst hi hstop ho
    rw [history_snoc_of_none he] at ho ⊢
    have hi := hi (fun hm => hstop (List.mem_append_left _ hm)) ho
    obtain rfl | ⟨rfl, _⟩ := hst
    · exact hi
    · exact absurd (List.mem_append_right _ (List.mem_singleton_self _)) hstop

-- No frame of another name reaches its handler unless a right `MSG_C2G_VERTIFY` stands before it in the
-- stream.
def Guarded (c : Codec) (es : List ClientEvent) : Prop :=
  ∀ k, .handle k ∈ es → ∃ body, (frames es)[k]? = some body ∧
    (c.rpcName body ≠ some msgC2GVertify →
      ∃ j < k, ∃ body', (frames es)[j]? = some body' ∧ c.Verifies body')

-- If the first frames of the stream are `MSG_C2G_VERTIFY`s up to a right one, then every later frame passes
-- `PreCheck`: no check has failed, and the next one finds the client itself, in the state OK.
def Passing (c : Codec) (self : Nat) (es : List ClientEvent) (m : Shared) (client : Client) : Prop :=
  ∀ j body, (frames es)[j]? = some body → c.Verifies body →
    (∀ i < j, ∀ body, (frames es)[i]? = some body → c.rpcName body = some msgC2GVertify) →
    (∀ k body pass, j < k → (checks es)[k]? = some (body, pass) → pass = true) ∧
    (∀ body bodies, j < client.count → client.reader = .decoding (body :: bodies) →
      m.clients client.connID = some self ∧ m.state self = .ok)

-- The frames that a connection has received are checked in the order of the stream, and what holds of the
-- stream of every connection.
structure Authenticated (c : Codec) (evs : List Event) (s : TcpServer) (n : Nat) (client : Client) :
    Prop where
  checked : (checks (history n evs)).map Prod.fst ++ client.reader.todo = frames (history n evs)
  guarded : Guarded c (history n evs)
  passing : .stop ∉ evs → Passing c n (history n evs) s.toShared client

theorem Reading.frame {x : Bytes × Bool} (h : Reading es client) (hk : (checks es)[k]? = some x) :
    (TcpServer.frames es)[k]? = some x.1 := by
  rw [←h.frames]
  exact List.getElem?_append_of_eq_some (by simp [hk])

section

-- The steps of one connection alone.
def ClientRun (c : Codec) (self : Nat) (p : Shared × Client) (e : ClientEvent) (p' : Shared × Client) :
    Prop :=
  ClientStep c self p.1 p.2 e p'.1 p'.2

variable {p p' : Shared × Client} {U : TcpServer → Event → Prop} {bodies : List Bytes}

theorem exec_of_clientRun (hU : ∀ s e, U s (.client self e))
    (h : Exec (ClientRun c self) p es p') (hs : s.toShared = p.1) (hc : s.conns[self]? = some p.2) :
    Exec (fun s ev s' => Step c .clientGate s ev s' ∧ U s ev) s (es.map (.client self))
      { s with toShared := p'.1, conns := s.conns.set self p'.2 } := by
  have hlen := (List.getElem?_eq_some_iff.mp hc).1
  induction h
  case refl =>
    have hset : s.conns.set self p.2 = s.conns := by
      rw [←(List.getElem?_eq_some_iff.mp hc).2, List.set_getElem_self]
    rw [hset, ←hs]
    exact .refl
  case snoc es q q' e _ hstep hi =>
    rw [List.map_append]
    refine hi.snoc ⟨?_, hU _ _⟩
    have hstep : Step c .clientGate { s with toShared := q.1, conns := s.conns.set self q.2 }
        (.client self e) { s with toShared := q'.1, conns := (s.conns.set self q.2).set self q'.2 } :=
      .client (List.getElem?_set_self hlen) hstep
    rwa [List.set_set] at hstep

-- The first read of a connection.
theorem exec_read (client : Client) (chunk : Bytes) (now : Int) (hr : client.reader = .accepted)
    (hb : client.toRecvBuf = .make) (hm : m.clients client.connID = some self)
    (hs : m.state self ≠ .exit) (hc : chunk ≠ []) (hl : chunk.length ≤ 10485760) :
    ∃ tcp, Exec (ClientRun c self) (m, client)
      [.internal, .internal, .turn ⟨.data chunk, now, true, m.state self⟩]
      (m, { client with toTcpClient := tcp, reader := .decoding (Packet.parse chunk).1 }) := by
  have hfree : client.free = 10485760 := by
    have hz : RecvBuf.make.remainLen.toNat = 0 := rfl
    rw [RecvBuf.free, RecvBuf.recvBuf_length, hb, hz]
  have hread : ReadLoop.Readable client.toRecvBuf ⟨.data chunk, now, true, m.state self⟩ := by
    intro chunk' h
    obtain h | h := h <;> cases h
    exact ⟨List.length_pos_iff.mpr hc, hfree ▸ hl⟩
  have hnil : client.received = some [] := by rw [hb, RecvBuf.make_received]
  obtain ⟨tcp, ht, _⟩ := ReadLoop.turn_collect hs hread hnil rfl hc
  have h₁ : ClientRun c self (m, client) .internal (m, { client with reader := .head }) := .start hr hm
  have h₂ : ClientRun c self (m, { client with reader := .head }) .internal
      (m, { client with reader := .reading (m.state self) }) := .head rfl hs
  exact ⟨tcp, ((Exec.single h₁).snoc h₂).snoc (.turn rfl hread ht)⟩

-- A right `MSG_C2G_VERTIFY` is handled at once.
theorem exec_vertify (client : Client) (hr : client.reader = .decoding (body :: bodies))
    (hm : m.clients client.connID = some self) (hv : c.Verifies body) :
    Exec (ClientRun c self) (m, client)
      [.preCheck body true, .handle client.count, .internal, .internal, .internal]
      (m.setState self .ok, { client with count := client.count + 1, reader := .decoding bodies }) := by
  have hn := Codec.name_eq_vertify_iff.mpr hv.name
  have h₁ : ClientRun c self (m, client) (.preCheck body true)
      (m, { client with
        count  := client.count + 1
        reader := .handling ⟨client.count, body, .queued⟩ bodies }) := by
    have h : ClientStep c self m client (.preCheck body true) m (client.produce c body bodies) :=
      .vertify hr hn
    rwa [Client.produce, if_pos (.inl hn)] at h
  have hsync {m₁ m₂ : Shared} {pc pc' : JobPc} {e : ClientEvent}
      (hj : JobStep c client.connID m₁ ⟨client.count, body, pc⟩ e m₂ ⟨client.count, body, pc'⟩) :
      ClientRun c self
        (m₁, { client with
          count  := client.count + 1
          reader := .handling ⟨client.count, body, pc⟩ bodies }) e
        (m₂, { client with
          count  := client.count + 1
          reader := .handling ⟨client.count, body, pc'⟩ bodies }) := .sync rfl hj
  have h₂ := (Exec.single h₁).snoc <| hsync (.process rfl hv.dispatches)
  have h₃ := h₂.snoc <| hsync (.vertify rfl hn hv.key hm)
  have h₄ := h₃.snoc <| hsync (.setState rfl)
  have h₅ : ClientRun c self (m.setState self .ok, { client with
      count  := client.count + 1
      reader := .handling ⟨client.count, body, .done⟩ bodies }) .internal
      (m.setState self .ok, { client with
        count  := client.count + 1
        reader := .decoding bodies }) := .synced rfl rfl
  exact h₄.snoc h₅

-- Any other frame passes then, and most of them go to the pool.
theorem exec_pass (client : Client) (hr : client.reader = .decoding (body :: bodies))
    (hm : m.clients client.connID = some self) (hs : m.state self = .ok)
    (hn : c.name body ∉ [msgC2GVertify, msgGateLogin, msgG2SRpcCallOrdered]) :
    Exec (ClientRun c self) (m, client) [.internal, .preCheck body true]
      (m, { client with
        count  := client.count + 1
        reader := .decoding bodies
        jobs   := client.jobs ++ [⟨client.count, body, .queued⟩] }) := by
  simp only [List.mem_cons, List.not_mem_nil, or_false, not_or] at hn
  have h₁ : ClientRun c self (m, client) .internal
      (m, { client with reader := .checking self body bodies }) := .getTcpClient hr hn.1 hm
  have h₂ : ClientStep c self m { client with reader := .checking self body bodies }
      (.preCheck body true) m
      (Client.produce c { client with reader := .checking self body bodies } body bodies) :=
    .pass rfl hs
  rw [Client.produce, if_neg (by simp [hn]), if_neg hn.2.2] at h₂
  exact (Exec.single h₁).snoc h₂

end

-- The bodies of a right `MSG_C2G_VERTIFY`, of a call of it and of a heart beat.
def demoCodec : Codec where
  rpcName body   := if body = [1] then some msgC2GVertify else if body = [2] then some msgG2SRpcCall else
    some msgHeartBeatReq
  secretKey body := if body = [1] then some vertifySecretKey else none
  innerRpc body  := if body = [2] then some [1] else none
  args _         := true

theorem demoCodec_verifies : demoCodec.Verifies [1] :=
  ⟨rfl, rfl⟩

theorem demoCodec_name {b : UInt8} (hb : b ≠ 1) :
    demoCodec.name [b] ∉ [msgC2GVertify, msgGateLogin, msgG2SRpcCallOrdered] := by
  by_cases h : b = 2 <;> simp [Codec.name, demoCodec, hb, h] <;> decide

-- A server that has accepted its first connection.
def oneClient : TcpServer :=
  createTcpServer.accept .clientGate "p" 0

theorem oneClient_clients : oneClient.clients "p" = some 0 := by
  simp [oneClient, TcpServer.accept, createTcpServer]

theorem oneClient_state : oneClient.state 0 = .init := by
  simp [oneClient, TcpServer.accept, createTcpServer]

theorem exec_oneClient {U : TcpServer → Event → Prop} (h : U createTcpServer (.accept "p")) :
    Exec (fun s ev s' => Step c .clientGate s ev s' ∧ U s ev) createTcpServer [.accept "p"] oneClient :=
  .single ⟨.accept 0 rfl (by simp [createTcpServer]), h⟩

theorem unshared_oneClient : Unshared createTcpServer (.accept "p") := by
  simp [Unshared, createTcpServer]

-- The first connection opens with a right `MSG_C2G_VERTIFY` and one more frame, in one read.
theorem exec_demo {U : TcpServer → Event → Prop} (hU : ∀ s self e, U s (.client self e))
    (haccept : U createTcpServer (.accept "p")) {b : UInt8} (hb : b ≠ 1) :
    ∃ evs tcp state clients, state 0 = .ok ∧
      Exec (fun s ev s' => Step demoCodec .clientGate s ev s' ∧ U s ev) createTcpServer evs
        ⟨⟨state, clients⟩, [⟨tcp, "p", .decoding [], 2, [⟨1, [b], .queued⟩]⟩], [], false⟩ := by
  obtain ⟨tcp, hread⟩ := exec_read (c := demoCodec) (m := oneClient.toShared)
    ⟨⟨.make, 0⟩, "p", .accepted, 0, []⟩ [0, 1, 1, 0, 1, b] 0 rfl rfl oneClient_clients
    (by simp [oneClient_state]) (by simp) (by simp)
  rw [Packet.parse_byte, Packet.parse_byte, Packet.parse_nil] at hread
  have hvertify := exec_vertify (m := oneClient.toShared) ⟨tcp, "p", .decoding [[1], [b]], 0, []⟩ rfl
    oneClient_clients demoCodec_verifies
  have hpass := exec_pass (m := oneClient.setState 0 .ok) ⟨tcp, "p", .decoding [[b]], 1, []⟩ rfl
    oneClient_clients (by simp [Shared.setState]) (demoCodec_name hb)
  have h₂ := exec_of_clientRun (hU · 0) ((hread.trans hvertify).trans hpass) rfl rfl
  exact ⟨_, tcp, _, _, Function.update_self .., (exec_oneClient haccept).trans h₂⟩

theorem authenticated_of_unshared (h : Exec (Separate c) createTcpServer evs s) :
    ∀ self client, s.conns[self]? = some client → Authenticated c evs s self client := by
  intro self client hc
  have hr := reading_of_exec h hc
  have hg := guard_of_exec h hc
  have hsole := sole_of_exec h
  refine ⟨hr.frames, ?guarded, ?passing⟩
  case guarded =>
    intro k hk
    have ⟨body, hb, hv⟩ := hg.handled k hk
    refine ⟨body, hr.frame hb, fun hn => ?_⟩
    have ⟨j, hj, body', _, hb', hv⟩ := hv (mt Codec.name_eq_vertify_iff.mp hn)
    exact ⟨j, hj, body', hr.frame hb', hv⟩
  case passing =>
    intro hstop j body hj hv hbefore
    have ho : Opening c (history self evs) j := {
      before i hi body pass hb := Codec.name_eq_vertify_iff.mpr (hbefore i hi body (hr.frame hb))
      right body' pass hb      := by cases hj.symm.trans (hr.frame hb); exact hv }
    have ho := opened_of_exec h hstop ho hc
    refine ⟨fun k body pass _ hb => ho.passed _ (List.mem_of_getElem? hb), fun body bodies hl hd => ?_⟩
    exact ⟨hsole.registered hc (by simp [hd]), ho.ok_of_reader hl (by simp [hd])⟩

-- A heart beat that is read together with the `MSG_C2G_VERTIFY` before it.
theorem authenticated_heart_beat :
    ∃ evs s, Exec (Separate demoCodec) createTcpServer evs s ∧
      ∃ client, s.conns[0]? = some client ∧ client.count = 2 ∧ Authenticated demoCodec evs s 0 client := by
  have ⟨evs, tcp, _, _, _, h⟩ := exec_demo (U := Unshared) (fun _ _ _ => trivial) unshared_oneClient
    (b := 3) (by decide)
  exact ⟨evs, _, h, _, rfl, rfl, authenticated_of_unshared h 0 _ rfl⟩

-- No two connections are open under one id, there are no frames from services, and the server does not
-- stop.
def Undisturbed (s : TcpServer) : Event → Prop
  | .accept connID        => ∀ client ∈ s.conns, client.connID = connID → client.reader = .closed
  | .client ..            => True
  | .remote _ | .remoteJob | .stop => False

theorem history_append {evs' : List Event} :
    history self (evs ++ evs') = history self evs ++ history self evs' :=
  List.filterMap_append

theorem history_map_client (self : Nat) (es : List ClientEvent) :
    history self (es.map (.client self)) = es := by
  induction es
  case nil        => rfl
  case cons _ _ hi => simpa [history, Event.of] using hi

theorem history_map_client_of_ne (h : i ≠ self) (es : List ClientEvent) :
    history self (es.map (.client i)) = [] := by
  simp [history, Event.of, h]

-- The end of the connection, by an error of a read.
theorem exec_close (client : Client) (hr : client.reader = .decoding []) (hs : m.state self = .ok) :
    Exec (ClientRun c self) (m, client)
      [.internal, .internal, .turn ⟨.failure, 0, true, .ok⟩, .internal]
      (m.delete client.connID, { client with reader := .closed }) := by
  have h₁ : ClientRun c self (m, client) .internal (m, { client with reader := .head }) := .decoded hr
  have h₂ : ClientRun c self (m, { client with reader := .head }) .internal
      (m, { client with reader := .reading (m.state self) }) := .head rfl (by simp [hs])
  have h₃ : ClientRun c self (m, { client with reader := .reading (m.state self) })
      (.turn ⟨.failure, 0, true, .ok⟩) (m, { client with reader := .closing }) :=
    .leave (congrArg _ hs) (by simp [ReadLoop.Readable]) (by simp [TcpClient.turn])
  have h₄ : ClientRun c self (m, { client with reader := .closing }) .internal
      (m.delete client.connID, { client with reader := .closed }) := .close rfl
  exact (((Exec.single h₁).snoc h₂).snoc h₃).snoc h₄

-- A call of a `MSG_C2G_VERTIFY`, run by a worker of the pool, sets the state of whoever is registered under
-- the id of its connection by then.
theorem exec_pool (client : Client) (hj : client.jobs = [⟨k, [2], .queued⟩])
    (hm : m.clients client.connID = some i) :
    Exec (ClientRun demoCodec self) (m, client) [.handle k, .internal, .internal, .internal]
      (m.setState i .ok, { client with jobs := [⟨k, [2], .done⟩] }) := by
  have hd : demoCodec.dispatches [2] = true := by decide
  have hpool {m₁ m₂ : Shared} {pc pc' : JobPc} {e : ClientEvent}
      (hs : JobStep demoCodec client.connID m₁ ⟨k, [2], pc⟩ e m₂ ⟨k, [2], pc'⟩) :
      ClientRun demoCodec self (m₁, { client with jobs := [⟨k, [2], pc⟩] }) e
        (m₂, { client with jobs := [⟨k, [2], pc'⟩] }) :=
    .pool (i := 0) rfl hs
  have h₁ : ClientRun demoCodec self (m, client) (.handle k)
      (m, { client with jobs := [⟨k, [2], .running [2]⟩] }) := by
    have h : ClientRun demoCodec self (m, { client with jobs := [⟨k, [2], .queued⟩] }) (.handle k) _ :=
      hpool (.process rfl hd)
    rwa [←hj] at h
  have h₂ := (Exec.single h₁).snoc <| hpool (.call rfl (by decide) rfl (by decide))
  have h₃ := h₂.snoc <| hpool (.vertify rfl rfl rfl hm)
  exact h₃.snoc <| hpool (.setState rfl)

-- A client verifies itself, calls `MSG_C2G_VERTIFY` through the pool, closes the connection and opens a new
-- one from the same port. The call is handled only then, and verifies the new connection.
theorem unverified_frame_handled :
    ∃ evs s, Exec (fun s ev s' => Step demoCodec .clientGate s ev s' ∧ Undisturbed s ev) createTcpServer
        evs s ∧
      (∃ client, s.conns[1]? = some client) ∧ ¬Guarded demoCodec (history 1 evs) := by
  have hU : ∀ s self e, Undisturbed s (.client self e) := fun _ _ _ => trivial
  have ⟨evs₁, tcp, st, cl, hok, h₁⟩ := exec_demo hU nofun (b := 2) (by decide)
  -- The first connection ends with its call still in the pool.
  have hclose := exec_of_clientRun
    (s := ⟨⟨st, cl⟩, [⟨tcp, "p", .decoding [], 2, [⟨1, [2], .queued⟩]⟩], [], false⟩) (hU · 0)
    (exec_close (c := demoCodec) (m := ⟨st, cl⟩) _ rfl hok) rfl rfl
  have h₂ : Exec _ _ _ (TcpServer.mk ⟨st, cl.erase "p"⟩
      [⟨tcp, "p", .closed, 2, [⟨1, [2], .queued⟩]⟩] [] false) := h₁.trans hclose
  have hh₂ : history 1 _ = [] := history_of_length_le (h₂.mono fun _ _ _ hs => hs.1) (by simp)
  let fresh : Client := ⟨⟨.make, 0⟩, "p", .accepted, 0, []⟩
  have h₃ : Exec _ _ _ (TcpServer.mk ⟨Function.update st 1 .init, (cl.erase "p").insert "p" 1⟩
      [⟨tcp, "p", .closed, 2, [⟨1, [2], .queued⟩]⟩, fresh] [] false) :=
    h₂.snoc (e := .accept "p") ⟨.accept 0 rfl (by simp), by simp [Undisturbed]⟩
  generalize hcl : (cl.erase "p").insert "p" 1 = cl' at h₃
  have hp : cl' "p" = some 1 := by rw [←hcl, Partial.insert_self]
  have hpool := exec_of_clientRun
    (s := ⟨⟨Function.update st 1 .init, cl'⟩, [⟨tcp, "p", .closed, 2, [⟨1, [2], .queued⟩]⟩, fresh], [], false⟩)
    (hU · 0) (exec_pool (m := ⟨Function.update st 1 .init, cl'⟩) _ rfl hp) rfl rfl
  have h₄ : Exec _ _ _ (TcpServer.mk ⟨Function.update (Function.update st 1 .init) 1 .ok, cl'⟩
      [⟨tcp, "p", .closed, 2, [⟨1, [2], .done⟩]⟩, fresh] [] false) := h₃.trans hpool
  generalize hst : Function.update (Function.update st 1 .init) 1 .ok = st' at h₄
  have hok' : st' 1 = .ok := by rw [←hst, Function.update_self]
  -- The second connection sends a heart beat.
  have ⟨tcp', hread⟩ := exec_read (c := demoCodec) (m := ⟨st', cl'⟩) fresh [0, 1, 3] 0 rfl rfl hp
    (by simp [hok']) nofun (by simp)
  rw [Packet.parse_byte, Packet.parse_nil] at hread
  have hpass := exec_pass (m := ⟨st', cl'⟩) ⟨tcp', "p", .decoding [[3]], 0, []⟩ rfl hp hok'
    (demoCodec_name (b := 3) (by decide))
  have hhandle : ClientRun demoCodec 1 (⟨st', cl'⟩, ⟨tcp', "p", .decoding [], 1, [⟨0, [3], .queued⟩]⟩)
      (.handle 0) (⟨st', cl'⟩, ⟨tcp', "p", .decoding [], 1, [⟨0, [3], .running [3]⟩]⟩) :=
    .pool (i := 0) rfl (.process rfl (by decide))
  have h₅ := h₄.trans <| exec_of_clientRun (hU · 1) ((hread.trans hpass).snoc hhandle) rfl rfl
  refine ⟨_, _, h₅, ⟨_, rfl⟩, fun hg => ?_⟩
  rw [history_append, history_append, history_snoc_of_none rfl, hh₂, history_map_client,
    history_map_client_of_ne Nat.zero_ne_one] at hg
  have ⟨body, hb, hv⟩ := hg 0 (by simp)
  have hb : (Packet.parse [0, 1, 3]).1[0]? = some body := hb
  rw [Packet.parse_byte] at hb
  cases hb
  have ⟨j, hj, _⟩ := hv (by decide)
  exact Nat.not_lt_zero j hj

end TcpServer
