import Microservice.Gate.Theorems.Vertify

namespace TcpServer

open SimpleRpc

variable {c : Codec} {identity : Gate.ServerIdentity} {s s' : TcpServer} {ev : Event}
  {evs evs' : List Event} {client : Client} {job : Job} {self k : Nat} {body : Bytes} {m : Shared}

-- Some `RpcC2GVertifyHandler` has seen the right key and found the client `k`, and sets its state next.
def Setting (s : TcpServer) (k : Nat) : Prop :=
  (∃ client ∈ s.conns, ∃ job ∈ client.tasks, job.pc = .setting k) ∨
  ∃ r ∈ s.remoteJobs, r.2.pc = .setting k

-- None of them does so for a client in EXIT.
def Quiet (s : TcpServer) : Prop :=
  ∀ k < s.conns.length, s.Setting k → s.state k ≠ .exit

-- No step takes a client out of EXIT.
def Lasting (c : Codec) (identity : Gate.ServerIdentity) (s : TcpServer) : Prop :=
  ∀ ev s', Step c identity s ev s' → ∀ k < s.conns.length, s.state k = .exit → s'.state k = .exit

theorem update_cases {state : Nat → TcpClientState} {v : TcpClientState} (j : Nat) :
    Function.update state j v k = state k ∨ k = j ∧ Function.update state j v k = v := by
  by_cases he : k = j
  case pos => exact .inr ⟨he, he ▸ Function.update_self ..⟩
  case neg => exact .inl <| Function.update_of_ne he ..

-- The state of a client changes by `Stop`, by a check that fails or by a `RpcC2GVertifyHandler`.
theorem Step.state_cases (hs : Step c identity s ev s') (hk : k < s.conns.length) :
    s'.state k = s.state k ∨ s'.state k = .exit ∨ s.Setting k := by
  cases hs
  case accept => exact .inl <| Function.update_of_ne (Nat.ne_of_lt hk) ..
  case client hc hcs =>
    obtain hst | ⟨j, _, _, hst⟩ | ⟨job, hj, j, hp, hst⟩ := hcs.state_cases
    · exact .inl <| congrFun hst k
    · obtain hu | ⟨_, hu⟩ := update_cases (k := k) j
      · exact .inl <| (congrFun hst k).trans hu
      · exact .inr <| .inl <| (congrFun hst k).trans hu
    · obtain hu | ⟨rfl, _⟩ := update_cases (k := k) j
      · exact .inl <| (congrFun hst k).trans hu
      · exact .inr <| .inr <| .inl ⟨_, List.mem_of_getElem? hc, job, hj, hp⟩
  case remote => exact .inl rfl
  case remoteJob hi hjs =>
    obtain hst | ⟨j, hp, hst⟩ := hjs.state_cases
    · exact .inl <| congrFun hst k
    · obtain hu | ⟨rfl, _⟩ := update_cases (k := k) j
      · exact .inl <| (congrFun hst k).trans hu
      · exact .inr <| .inr <| .inr ⟨_, List.mem_of_getElem? hi, hp⟩
  case stop =>
    simp only [stopClients]
    split
    case isTrue  => exact .inr <| .inl rfl
    case isFalse => exact .inl rfl

theorem ClientStep.of_setting (hj : job ∈ client.tasks) (hp : job.pc = .setting k) :
    ∃ client', ClientStep c self m client .internal (m.setState k .ok) client' := by
  have hs : JobStep c client.connID m job .internal (m.setState k .ok) { job with pc := .done } :=
    .setState hp
  obtain hj | hj := List.mem_append.mp hj
  · cases hr : client.reader
    case handling job' bodies =>
      rw [hr, Reader.tasks, List.mem_singleton] at hj
      exact ⟨_, .sync hr (hj ▸ hs)⟩
    all_goals
      rw [hr] at hj
      cases hj
  · obtain ⟨i, hi⟩ := List.mem_iff_getElem?.mp hj
    exact ⟨_, .pool hi hs⟩

theorem Setting.step (h : s.Setting k) : ∃ ev s', Step c identity s ev s' ∧ s'.state k = .ok := by
  obtain ⟨client, hm, job, hj, hp⟩ | ⟨⟨connID, job⟩, hm, hp⟩ := h
  · obtain ⟨self, hc⟩ := List.mem_iff_getElem?.mp hm
    obtain ⟨client', hs⟩ : ∃ client', ClientStep c self s.toShared client .internal _ client' :=
      ClientStep.of_setting hj hp
    exact ⟨_, _, .client hc hs, Function.update_self ..⟩
  · obtain ⟨i, hi⟩ := List.mem_iff_getElem?.mp hm
    exact ⟨_, _, .remoteJob hi (.setState hp), Function.update_self ..⟩

theorem lasting_iff_quiet : s.Lasting c identity ↔ s.Quiet := by
  constructor
  case mp =>
    intro hl k hk hset he
    obtain ⟨ev, s', hs, hok⟩ : ∃ ev s', Step c identity s ev s' ∧ _ := hset.step
    cases hok.symm.trans (hl ev s' hs k hk he)
  case mpr =>
    intro hq ev s' hs k hk he
    obtain hst | hst | hset := hs.state_cases hk
    · exact hst.trans he
    · exact hst
    · exact absurd he (hq k hk hset)

-- The steps from a state in which EXIT lasts, of a server in which no id is shared.
def Calm (c : Codec) (identity : Gate.ServerIdentity) (s : TcpServer) (ev : Event) (s' : TcpServer) :
    Prop :=
  Step c identity s ev s' ∧ Unshared s ev ∧ s.Quiet

-- A frame that needs the state OK is not let pass for a client in EXIT.
theorem Step.not_exit_of_preCheck (hs : Step c identity s (.client self (.preCheck body true)) s')
    (h : Sole s) (hn : c.name body ≠ msgC2GVertify) : s.state self ≠ .exit := by
  cases hs
  case client hc hcs =>
    cases hcs
    case vertify hv  => exact absurd hv hn
    case pass hok hr =>
      cases h.own hc (.checking _ _ hr)
      rw [hok]
      exact nofun
    case sync hjs => obtain he | he := hjs.event <;> cases he
    case pool hjs => obtain he | he := hjs.event <;> cases he

-- All clients that are registered after `Stop` are in EXIT.
def Halted (s : TcpServer) : Prop :=
  s.stop = true → ∀ connID k, s.clients connID = some k → s.state k = .exit

-- After `Stop` no connection is accepted, and clients are only removed.
theorem Step.of_stop (hs : Step c identity s ev s') (h : s.stop = true) :
    s'.stop = true ∧ s'.conns.length = s.conns.length ∧
    ∀ connID k, s'.clients connID = some k → s.clients connID = some k := by
  cases hs
  case accept hstop _ => cases h.symm.trans hstop
  case stop hstop     => cases h.symm.trans hstop
  case remote         => exact ⟨h, rfl, fun _ _ => id⟩
  case client hcs =>
    refine ⟨h, List.length_set .., fun connID k hk => ?_⟩
    obtain ⟨heq, _⟩ | ⟨_, _, heq⟩ := hcs.clients_cases
    · exact heq ▸ hk
    · exact (Partial.erase_eq_some_iff.mp (heq ▸ hk)).2
  case remoteJob hjs => exact ⟨h, rfl, fun _ _ hk => hjs.clients_eq ▸ hk⟩

theorem Sole.length (h : Sole s) {connID : ConnId} (hk : s.clients connID = some k) :
    k < s.conns.length := by
  obtain ⟨_, hc, _⟩ := h.listed hk
  exact (List.getElem?_eq_some_iff.mp hc).1

theorem Sole.stopClients (h : Sole s) : s.stopClients.Halted := by
  intro _ connID k hk
  obtain ⟨client, hc, rfl, _⟩ := h.listed hk
  have hk : s.clients client.connID = some k := hk
  exact if_pos (by simpa [hc] using hk)

theorem Halted.step (h : s.Halted) (hsole : Sole s) (hs : Calm c identity s ev s') : s'.Halted := by
  obtain ⟨hs, _, hq⟩ := hs
  cases hstop : s.stop
  case true =>
    intro _ connID k hk
    have hk := (hs.of_stop hstop).2.2 connID k hk
    exact lasting_iff_quiet.mpr hq ev s' hs k (hsole.length hk) (h hstop connID k hk)
  case false =>
    cases hs
    case stop => exact hsole.stopClients
    all_goals
      intro hstop'
      cases hstop.symm.trans hstop'

theorem calm_invariant (h : Exec (Calm c identity) createTcpServer evs s) : Sole s ∧ s.Halted := by
  have hinit : createTcpServer.Halted := by simp [Halted, createTcpServer]
  refine h.preserves (I := fun s => Sole s ∧ s.Halted) ⟨.createTcpServer, hinit⟩ ?_
  intro s ev s' hi hs
  exact ⟨hi.1.step hs.2.1 hs.1, hi.2.step hi.1 hs⟩

-- EXIT is final for the connection with the handle `k`, over the steps `evs'` to the state `s'`: it stays
-- in EXIT, and lets no frame pass that needs the state OK.
structure Final (c : Codec) (k : Nat) (evs' : List Event) (s' : TcpServer) : Prop where
  stays   : s'.state k = .exit
  refuses : ∀ body, .client k (.preCheck body true) ∈ evs' → c.name body = msgC2GVertify

-- The server has stopped and has no clients but those from before, in the state `s`. They are in EXIT.
structure Stopped (s s' : TcpServer) : Prop where
  stop    : s'.stop = true
  length  : s'.conns.length = s.conns.length
  clients : ∀ connID k, s'.clients connID = some k → s.clients connID = some k ∧ s'.state k = .exit

theorem final_of_calm (h₁ : Exec (Calm c identity) createTcpServer evs s)
    (h₂ : Exec (Calm c identity) s evs' s') (hk : k < s.conns.length) (he : s.state k = .exit) :
    Final c k evs' s' ∧ k < s'.conns.length := by
  induction h₂
  case refl => exact ⟨⟨he, nofun⟩, hk⟩
  case snoc evs' s₁ s₂ ev h₂ hs hi =>
    obtain ⟨hf, hl⟩ := hi
    have hsole := (calm_invariant (h₁.trans h₂)).1
    refine ⟨⟨lasting_iff_quiet.mpr hs.2.2 ev s₂ hs.1 k hl hf.stays, fun body hb => ?_⟩,
      Nat.lt_of_lt_of_le hl hs.1.length_le⟩
    obtain hb | hb := List.mem_append.mp hb
    · exact hf.refuses body hb
    · cases List.mem_singleton.mp hb
      by_contra hn
      exact hs.1.not_exit_of_preCheck hsole hn hf.stays

theorem stopped_of_calm (h₁ : Exec (Calm c identity) createTcpServer evs s)
    (h₂ : Exec (Calm c identity) s evs' s') (hstop : s.stop = true) : Stopped s s' := by
  induction h₂
  case refl => exact ⟨hstop, rfl, fun connID k hk => ⟨hk, (calm_invariant h₁).2 hstop connID k hk⟩⟩
  case snoc evs' s₁ s₂ ev h₂ hs hi =>
    obtain ⟨hstop₂, hl, hcl⟩ := hs.1.of_stop hi.stop
    have hhalted := (calm_invariant ((h₁.trans h₂).snoc hs)).2
    refine ⟨hstop₂, hl.trans hi.length, fun connID k hk => ?_⟩
    exact ⟨(hi.clients connID k (hcl connID k hk)).1, hhalted hstop₂ connID k hk⟩

-- EXIT lasts over the next step exactly if no `RpcC2GVertifyHandler` is about to set the state of a client
-- in EXIT. In a run of such steps EXIT is final, whether a failed check or `Stop` has set it.
theorem exit_final_of_calm (h₁ : Exec (Calm c identity) createTcpServer evs s)
    (h₂ : Exec (Calm c identity) s evs' s') :
    (s'.Lasting c identity ↔ s'.Quiet) ∧
    (∀ k < s.conns.length, s.state k = .exit → Final c k evs' s') ∧
    (s.stop = true → Stopped s s') :=
  ⟨lasting_iff_quiet, fun _ hk he => (final_of_calm h₁ h₂ hk he).1, stopped_of_calm h₁ h₂⟩

-- A client is accepted, the server stops, and the read loop of the client sees EXIT and closes.
theorem exit_final_of_stop :
    ∃ evs s evs' s', Exec (Calm demoCodec .clientGate) createTcpServer evs s ∧
      Exec (Calm demoCodec .clientGate) s evs' s' ∧ s.stop = true ∧ s.clients "p" = some 0 ∧
      Final demoCodec 0 evs' s' ∧ Stopped s s' ∧ s'.clients "p" = none := by
  let client (reader : Reader) : Client := ⟨⟨.make, 0⟩, "p", reader, 0, []⟩
  have hquiet {m : Shared} {reader : Reader} {stop : Bool} (hr : reader.tasks = []) :
      Quiet ⟨m, [client reader], [], stop⟩ := by
    simp [Quiet, Setting, client, Client.tasks, hr]
  have h₁ : Exec (Calm demoCodec .clientGate) createTcpServer [.accept "p"] oneClient :=
    exec_oneClient (U := fun s ev => Unshared s ev ∧ s.Quiet)
      ⟨unshared_oneClient, by simp [Quiet, createTcpServer]⟩
  have hstop : Calm demoCodec .clientGate oneClient .stop oneClient.stopClients :=
    ⟨.stop rfl, trivial, hquiet rfl⟩
  have h₂ := h₁.snoc hstop
  have he : oneClient.stopClients.state 0 = .exit := by
    simp [stopClients, oneClient, TcpServer.accept, createTcpServer]
  have hstep {m m' : Shared} {r r' : Reader} (hr : r.tasks = [])
      (hs : ClientStep demoCodec 0 m (client r) .internal m' (client r')) :
      Calm demoCodec .clientGate ⟨m, [client r], [], true⟩ (.client 0 .internal)
        ⟨m', [client r'], [], true⟩ := ⟨.client rfl hs, trivial, hquiet hr⟩
  have h₃ : Exec (Calm demoCodec .clientGate) oneClient.stopClients _ _ :=
    .single <| hstep (r := .accepted) rfl (.start rfl oneClient_clients)
  have h₄ := h₃.snoc <| hstep rfl (.exit rfl he)
  have h₅ := h₄.snoc <| hstep rfl (.close rfl)
  obtain ⟨_, hfinal, hstopped⟩ := exit_final_of_calm h₂ h₅
  have hgone : oneClient.clients.erase "p" "p" = none := Partial.erase_self
  exact ⟨_, _, _, _, h₂, h₅, rfl, oneClient_clients, hfinal 0 Nat.one_pos he, hstopped rfl, hgone⟩

-- A frame that is not let pass sends the client to EXIT.
theorem exec_refuse {bodies : List Bytes} (client : Client)
    (hr : client.reader = .decoding (body :: bodies)) (hm : m.clients client.connID = some self)
    (hs : m.state self ≠ .ok) (hn : c.name body ≠ msgC2GVertify) :
    Exec (ClientRun c self) (m, client) [.internal, .preCheck body false, .internal]
      (m.setState self .exit,
        { client with count := client.count + 1, reader := .decoding bodies }) := by
  have h₁ : ClientRun c self (m, client) .internal
      (m, { client with reader := .checking self body bodies }) := .getTcpClient hr hn hm
  have h₂ : ClientRun c self (m, { client with reader := .checking self body bodies })
      (.preCheck body false)
      (m, { client with count := client.count + 1, reader := .refusing self bodies }) := .fail rfl hs
  have h₃ : ClientRun c self
      (m, { client with count := client.count + 1, reader := .refusing self bodies }) .internal
      (m.setState self .exit,
        { client with count := client.count + 1, reader := .decoding bodies }) := .refuse rfl
  exact ((Exec.single h₁).snoc h₂).snoc h₃

-- One read brings a heart beat, which is illegal, a right `MSG_C2G_VERTIFY` and another heart beat. The
-- client is in EXIT after the first frame, and the third one passes.
theorem frame_passes_after_exit :
    ∃ evs s evs' s', Exec (Separate demoCodec) createTcpServer evs s ∧
      Exec (Separate demoCodec) s evs' s' ∧ s.clients "p" = some 0 ∧ s.state 0 = .exit ∧
      s'.clients "p" = some 0 ∧ s'.state 0 = .ok ∧
      .client 0 (.preCheck [3] true) ∈ evs' ∧ demoCodec.name [3] ≠ msgC2GVertify := by
  have hU : ∀ s e, Unshared s (.client 0 e) := fun _ _ => trivial
  have hn : demoCodec.name [3] ≠ msgC2GVertify := by decide
  have h₁ : Exec (Separate demoCodec) createTcpServer _ _ := exec_oneClient unshared_oneClient
  have hp := oneClient_clients
  obtain ⟨tcp, hread⟩ := exec_read (c := demoCodec) (m := oneClient.toShared)
    ⟨⟨.make, 0⟩, "p", .accepted, 0, []⟩ [0, 1, 3, 0, 1, 1, 0, 1, 3] 0 rfl rfl hp
    (by simp [oneClient_state]) (by simp) (by simp)
  rw [Packet.parse_byte, Packet.parse_byte, Packet.parse_byte, Packet.parse_nil] at hread
  have hrefuse := exec_refuse (c := demoCodec) (m := oneClient.toShared)
    ⟨tcp, "p", .decoding [[3], [1], [3]], 0, []⟩ rfl hp (by simp [oneClient_state]) hn
  have h₂ := h₁.trans <| exec_of_clientRun hU (hread.trans hrefuse) rfl rfl
  let m := oneClient.setState 0 .exit
  have he : m.state 0 = .exit := by simp [m, Shared.setState]
  have hok : (m.setState 0 .ok).state 0 = .ok := by simp [Shared.setState]
  have hvertify := exec_vertify (m := m) ⟨tcp, "p", .decoding [[1], [3]], 1, []⟩ rfl hp
    demoCodec_verifies
  have hpass := exec_pass (m := m.setState 0 .ok) ⟨tcp, "p", .decoding [[3]], 2, []⟩ rfl hp hok
    (demoCodec_name (b := 3) (by decide))
  have h₃ := exec_of_clientRun (s := ⟨m, [⟨tcp, "p", .decoding [[1], [3]], 1, []⟩], [], false⟩) hU
    (hvertify.trans hpass) rfl rfl
  exact ⟨_, _, _, _, h₂, h₃, hp, he, hp, hok, by simp, hn⟩

end TcpServer
