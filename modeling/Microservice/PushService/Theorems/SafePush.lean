import Microservice.PushService.Theorems.Cluster

namespace ClientSdk

variable {k : Codec} {e : Event} {stack stack' : Stack} {out : Output} {req : G2CPush} {phase : Phase}

-- The push is among the nested calls.
def Stack.Has (stack : Stack) (req : G2CPush) : Prop :=
  ∃ phase, .g2cPush req phase ∈ stack

theorem Stack.has_cons {p : Process} (h : Stack.Has stack req) : Stack.Has (p :: stack) req :=
  have ⟨phase, h⟩ := h
  ⟨phase, List.mem_cons_of_mem _ h⟩

theorem Stack.has_setPhase {p : Process} (h : Stack.Has (p.setPhase phase :: stack) req) :
    Stack.Has (p :: stack) req := by
  have ⟨phase', h⟩ := h
  obtain h | h := List.mem_cons.mp h
  · cases p <;> cases h
    exact ⟨_, List.mem_cons_self ..⟩
  · exact ⟨phase', List.mem_cons_of_mem _ h⟩

theorem Stack.has_return (h : (Stack.return stack).Has req) : stack.Has req := by
  cases stack
  case nil  => exact h
  case cons => exact has_setPhase h

theorem Stack.has_unwind (h : stack.unwind = some stack') (hr : stack'.Has req) : stack.Has req := by
  induction stack
  case nil => cases h
  case cons p ps hi =>
    cases p
    case g2cPush    => exact has_cons (hi h)
    case g2sRpcCall =>
      cases h
      exact has_setPhase (p := .g2sRpcCall _ _) hr

-- A task is given a new push only as the inner rpc of what it runs.
theorem Codec.step_has (h : k.step e stack = some (stack', out)) (hr : stack'.Has req) :
    stack.Has req ∨ e = .enter ∧ ∃ p ∈ stack.head?, k.dispatch p.innerRpc = .g2cPush req := by
  unfold Codec.step at h
  split at h
  case h_1 p ps =>
    split at h <;> try cases h
    split at h <;> cases h
    case h_1 hd =>
      have ⟨phase, hr⟩ := hr
      obtain hr | hr := List.mem_cons.mp hr
      · cases hr
        exact .inr ⟨rfl, _, rfl, hd⟩
      · exact .inl (Stack.has_setPhase ⟨phase, hr⟩)
    case h_2 =>
      have ⟨phase, hr⟩ := hr
      obtain hr | hr := List.mem_cons.mp hr
      · cases hr
      · exact .inl (Stack.has_setPhase ⟨phase, hr⟩)
    case h_3 => exact .inl (Stack.has_setPhase hr)
    case h_4 => exact .inl (Stack.has_cons (Stack.has_return hr))
    case h_5 => exact .inl (Stack.has_return hr)
  case h_2 =>
    split at h <;> cases h
    exact .inl (Stack.has_setPhase hr)
  case h_3 =>
    split at h <;> try cases h
    have ⟨_, hu, he⟩ := Option.map_eq_some_iff.mp h
    cases he
    exact .inl (Stack.has_unwind hu hr)
  case h_4 =>
    split at h <;> cases h <;> exact .inl (Stack.has_cons (Stack.has_return hr))
  case h_5 => cases h

-- A task answers for a push when the handler of its inner rpc has run to the end.
theorem Codec.step_output (h : k.step e stack = some (stack', out)) :
    out = .none ∨ ∃ req, stack.Has req ∧ out = ⟨[req.innerRpc], reply req.pid⟩ := by
  unfold Codec.step at h
  split at h
  case h_1 =>
    split at h <;> try cases h
    split at h <;> cases h <;> exact .inl rfl
  case h_2 => split at h <;> cases h; exact .inl rfl
  case h_3 =>
    split at h <;> try cases h
    have ⟨_, _, he⟩ := Option.map_eq_some_iff.mp h
    cases he
    exact .inl rfl
  case h_4 =>
    split at h <;> cases h
    case h_1 => exact .inr ⟨_, ⟨_, List.mem_cons_self ..⟩, rfl⟩
    case h_2 => exact .inl rfl
  case h_5 => cases h

theorem mem_reply {pid pid' : Bytes} (h : pid' ∈ reply pid) : pid' = pid ∧ pid ≠ [] := by
  unfold reply at h
  split at h
  case isTrue hn => exact ⟨List.mem_singleton.mp h, fun he => hn (he ▸ rfl)⟩
  case isFalse   => cases h

end ClientSdk

namespace Cluster

open ClientSdk (Codec)

variable {k : Codec} {s s' : Cluster} {e : Event} {es : List Event} {pid innerRpc : Bytes}

-- The message is the one of the record that the pid is the id of.
def Genuine (s : Cluster) (pid innerRpc : Bytes) : Prop :=
  pid = [] ∨ ∃ p, s.Stored p ∧ p.pid = pid ∧ p.pushMsg = innerRpc

-- A push that is run as the inner rpc of another one does not ask for a reply.
def Plain (k : Codec) (s : Cluster) : Event → Prop
  | .client i .enter =>
    ∀ stack ∈ s.tasks[i]?, ∀ p ∈ stack.head?, ∀ req, k.dispatch p.innerRpc = .g2cPush req → req.pid = []
  | _ => True

def PlainStep (k : Codec) (s : Cluster) (e : Event) (s' : Cluster) : Prop :=
  Step k s e s' ∧ s.Plain k e

theorem Genuine.step (h : s.Genuine pid innerRpc) (hs : Step k s e s') : s'.Genuine pid innerRpc :=
  h.imp_right fun ⟨p, hp, he⟩ => ⟨p, hp.step hs, he⟩

-- The id of a record goes with its message on all the ways to the clients and back.
structure Safe (s : Cluster) : Prop where
  unique   : s.mongo.Pairwise fun r r' => r.id ≠ r'.id
  handlers : s.AllStored
  p2g      : ∀ msg ∈ s.p2g, s.Genuine msg.snd.pid msg.snd.innerRpc
  g2c      : ∀ msg ∈ s.g2c, s.Genuine msg.pid msg.innerRpc
  tasks    : ∀ stack ∈ s.tasks, ∀ req, stack.Has req → s.Genuine req.pid req.innerRpc
  replies  : ∀ pid ∈ s.replies, ∃ p, s.Stored p ∧ p.pid = pid ∧ p.pushMsg ∈ s.handled
  arrived  : ∀ r ∈ s.mongo, r.state = .arrived → r.pushMsg ∈ s.handled

theorem start_safe {nameSpace : String} : (start nameSpace).Safe := by
  constructor <;> simp [start, AllStored]

theorem Safe.unique_step (h : s.Safe) (hs : Step k s e s') :
    s'.mongo.Pairwise fun r r' => r.id ≠ r'.id := by
  obtain hm | ⟨_, req, id, _, _, hn, hm⟩ | ⟨pid, _, _, hm⟩ := hs.mongo_cases <;> rw [hm]
  · exact h.unique
  · refine List.pairwise_append.mpr ⟨h.unique, List.pairwise_singleton _ _, ?_⟩
    intro r hr r' hr'
    cases List.mem_singleton.mp hr'
    exact hn r hr
  · refine List.pairwise_map.mpr (h.unique.imp fun hne => ?_)
    split <;> split <;> exact hne

theorem Safe.p2g_step (h : s.Safe) (hs : Step k s e s') :
    ∀ msg ∈ s'.p2g, s'.Genuine msg.snd.pid msg.snd.innerRpc := by
  have keep msg (hm : msg ∈ s.p2g) := (h.p2g msg hm).step hs
  have stored hd (hh : hd ∈ s.handlers) p (hp : p ∈ hd.pushes) := (h.handlers hd hh p hp).imp_right (·.step hs)
  cases hs
  case send hd p _ _ hi ht _ =>
    intro msg hm
    obtain hm | hm := List.mem_append.mp hm
    · exact keep msg hm
    · cases List.mem_singleton.mp hm
      refine (stored hd (List.mem_of_getElem? hi) p (Handler.mem_pushes_of_toGate ht)).imp_right ?_
      exact fun hp => ⟨p, hp, rfl, rfl⟩
  all_goals exact keep

theorem Safe.g2c_step (h : s.Safe) (hs : Step k s e s') :
    ∀ msg ∈ s'.g2c, s'.Genuine msg.pid msg.innerRpc := by
  have keep msg (hm : msg ∈ s.g2c) := (h.g2c msg hm).step hs
  have hp2g msg (hm : msg ∈ s.p2g) := (h.p2g msg hm).step hs
  cases hs
  case p2gPush connID msg hm =>
    intro m hm'
    obtain hm' | hm' := List.mem_append.mp hm'
    · exact keep m hm'
    · cases List.mem_singleton.mp hm'
      exact hp2g _ hm
  all_goals exact keep

theorem Safe.tasks_step (h : s.Safe) (hs : PlainStep k s e s') :
    ∀ stack ∈ s'.tasks, ∀ req, stack.Has req → s'.Genuine req.pid req.innerRpc := by
  have ⟨hs, hp⟩ := hs
  have keep stack (hm : stack ∈ s.tasks) req (hr : stack.Has req) := (h.tasks stack hm req hr).step hs
  have hg2c msg (hm : msg ∈ s.g2c) := (h.g2c msg hm).step hs
  cases hs
  case g2cPush msg hm =>
    intro stack hst req hr
    obtain hst | hst := List.mem_append.mp hst
    · exact keep stack hst req hr
    · cases List.mem_singleton.mp hst
      have ⟨_, hr⟩ := hr
      cases List.mem_singleton.mp hr
      exact hg2c _ hm
  case client i e stack stack' out hi hk =>
    intro st hst req hr
    obtain hst | rfl := List.mem_or_eq_of_mem_set hst
    · exact keep st hst req hr
    · obtain hr | ⟨rfl, p, hp', hd⟩ := Codec.step_has hk hr
      · exact keep stack (List.mem_of_getElem? hi) req hr
      · exact .inl (hp stack hi p hp' req hd)
  all_goals exact keep

theorem Step.handled_subset (hs : Step k s e s') : s.handled ⊆ s'.handled := by
  cases hs
  case client => exact List.subset_append_left _ _
  all_goals exact List.Subset.refl _

theorem Safe.replies_step (h : s.Safe) (hs : Step k s e s') :
    ∀ pid ∈ s'.replies, ∃ p, s'.Stored p ∧ p.pid = pid ∧ p.pushMsg ∈ s'.handled := by
  have keep pid (hp : pid ∈ s.replies) : ∃ p, s'.Stored p ∧ p.pid = pid ∧ p.pushMsg ∈ s'.handled :=
    have ⟨p, hp, he, hh⟩ := h.replies pid hp
    ⟨p, hp.step hs, he, hs.handled_subset hh⟩
  have tasks stack (hm : stack ∈ s.tasks) req (hr : stack.Has req) := (h.tasks stack hm req hr).step hs
  cases hs
  case client stack _ out hi hk =>
    intro pid hp
    obtain hp | hp := List.mem_append.mp hp
    · exact keep pid hp
    · obtain rfl | ⟨req, hr, rfl⟩ := Codec.step_output hk
      · cases hp
      · obtain ⟨rfl, hne⟩ := ClientSdk.mem_reply hp
        obtain hn | ⟨p, hp, he, hm⟩ := tasks stack (List.mem_of_getElem? hi) req hr
        · exact absurd hn hne
        · exact ⟨p, hp, he, List.mem_append_right _ (by simp [hm])⟩
  all_goals exact keep

theorem Safe.eq_of_id {r r' : Record} (h : s.Safe) (hr : r ∈ s.mongo) (hr' : r' ∈ s.mongo)
    (he : r.id = r'.id) : r = r' := by
  have hsymm : Std.Symm fun r r' : Record => r.id ≠ r'.id := ⟨fun _ _ => Ne.symm⟩
  by_contra hne
  exact h.unique.forall hr hr' hne he

-- Only the record that a reply names is marked, and its message has been handled.
theorem Safe.arrived_step (h : s.Safe) (hs : Step k s e s') :
    ∀ r ∈ s'.mongo, r.state = .arrived → r.pushMsg ∈ s'.handled := by
  intro r hr ha
  apply hs.handled_subset
  obtain hm | ⟨_, _, _, _, _, _, hm⟩ | ⟨pid, hp, _, hm⟩ := hs.mongo_cases <;> rw [hm] at hr
  · exact h.arrived r hr ha
  · obtain hr | hr := List.mem_append.mp hr
    · exact h.arrived r hr ha
    · cases List.mem_singleton.mp hr
      cases ha
  · have ⟨r', hr', hpush, hid, hc⟩ := Mongo.mem_updateOne hr
    have hmsg : r'.pushMsg = r.pushMsg := congrArg Push.pushMsg hpush
    obtain rfl | hc := hc
    · exact h.arrived r hr' ha
    · have ⟨p, ⟨r₀, hr₀, he⟩, hpid, hh⟩ := h.replies pid hp
      have hr₀id : r₀.id.bytes = pid := (congrArg Push.pid he).trans hpid
      have heq : r' = r₀ := by
        apply h.eq_of_id hr' hr₀
        rw [hid, hc, ← hr₀id, ObjectID.ofPid_bytes]
      subst heq
      have hmsg' : r'.pushMsg = p.pushMsg := congrArg Push.pushMsg he
      exact hmsg ▸ hmsg' ▸ hh

theorem Safe.step (h : s.Safe) (hs : PlainStep k s e s') : s'.Safe where
  unique   := h.unique_step hs.1
  handlers := h.handlers.step hs.1
  p2g      := h.p2g_step hs.1
  g2c      := h.g2c_step hs.1
  tasks    := h.tasks_step hs
  replies  := h.replies_step hs.1
  arrived  := h.arrived_step hs.1

-- Once it is inserted, a safe push has its record, which is marked as not arrived as long as the handler of
-- no client has run to its end on the message.
theorem safe_push_never_lost {nameSpace : String} {es₁ es₂ : List Event} {s₁ s₂ : Cluster} {i : Nat}
    {req : PushReq} {id : ObjectID} (h₁ : Exec (PlainStep k) (start nameSpace) es₁ s₁)
    (hi : s₁.handlers[i]? = some (.push req)) (hs : PlainStep k s₁ (.insert i id) s₂)
    (h₂ : Exec (PlainStep k) s₂ es₂ s) :
    ∃ r ∈ s.mongo, r.id = id ∧ r.pushMsg = req.pushMsg ∧
      (r.state = .unarrive ∨ req.pushMsg ∈ s.handled) := by
  have hsafe : s.Safe := ((h₁.snoc hs).trans h₂).preserves start_safe fun _ _ _ => Safe.step
  have ⟨r, hr, he⟩ : s.Stored (req.push id.bytes) :=
    h₂.preserves (I := fun s => s.Stored (req.push id.bytes)) (hs.1.stored hi)
      fun _ _ _ hp hs => hp.step hs.1
  have hmsg : r.pushMsg = req.pushMsg := congrArg Push.pushMsg he
  refine ⟨r, hr, ObjectID.ext_bytes (congrArg Push.pid he), hmsg, ?_⟩
  cases ha : r.state
  case unarrive => exact .inl rfl
  case arrived  => exact .inr (hmsg ▸ hsafe.arrived r hr ha)

theorem plain_of_own {i : Nat} {p : ClientSdk.Process} {ps : ClientSdk.Stack}
    (hi : s.tasks[i]? = some (p :: ps)) (hd : k.dispatch p.innerRpc = .own) :
    s.Plain k (.client i .enter) := by
  intro stack hst q hq req hr
  cases hi.symm.trans hst
  cases hq
  cases hd.symm.trans hr

-- The msgpack of an rpc without arguments whose name is one letter, and of a `MSG_G2C_PUSH`.
def demoRpc (c : Char) : Bytes :=
  [0xa1, c.toNat.toUInt8]

def demoPush (id : ObjectID) (innerRpc : Bytes) : Bytes :=
  demoRpc 'n' ++ [0xc4, 12] ++ id.bytes ++ [0xa2, 0x6e, 0x73, 0xc4, innerRpc.length.toUInt8] ++ innerRpc

def demoCodec : Codec where
  rpcName
    | 0xa1 :: c :: _ => String.singleton (Char.ofNat c.toNat)
    | _              => ""
  pushReq
    | _ :: _ :: 0xc4 :: 12 :: args =>
      match args.drop 12 with
      | 0xa2 :: 0x6e :: 0x73 :: 0xc4 :: n :: innerRpc =>
        some ⟨args.take 12, "ns", innerRpc.take n.toNat⟩
      | _ => none
    | _ => none
  callReq _ := none
  own rpcName := rpcName = "x" ∨ rpcName = "y"
  decodes _ := true

def demoId : ObjectID where
  bytes  := [0, 1, 2, 3, 4, 5, 6, 7, 8, 9, 10, 11]
  length := rfl

-- The client "x" is logged in on a gate that the push service knows, and there is a safe push for it.
def demoState : Cluster :=
  { start "ns" with
    redis        := Partial.insert (fun _ => none) "c_x" GateClient.demoConn.location
    gGateAddrMap := Partial.insert (fun _ => none) "[::]:9000" "10.0.0.9:40000"
    clients      := ["10.0.0.9:40000"]
    handlers     := [.push ⟨"x", "client", true, demoRpc 'x'⟩]
    gateClients  := [⟨GateClient.demoConn, [], 1, none, []⟩] }

theorem exec_demoState : ∃ es, Exec (PlainStep demoCodec) (start "ns") es demoState :=
  ⟨_, .cons ⟨.gateAccept GateClient.demoConn, trivial⟩ <|
    .cons ⟨.gate (j := 0) (e := .send (.login "x")) rfl rfl, trivial⟩ <|
    .cons ⟨.gate (j := 0) (e := .read) rfl rfl, trivial⟩ <|
    .cons ⟨.gate (j := 0) (e := .set 0 "x") rfl rfl, trivial⟩ <|
    .cons ⟨.accept "10.0.0.9:40000", trivial⟩ <|
    .cons ⟨.rspListenAddr "[::]:9000" "10.0.0.9:40000", trivial⟩ <|
    .single ⟨.s2pPush ⟨"x", "client", true, demoRpc 'x'⟩, trivial⟩⟩

def demoInserted : Cluster :=
  { demoState with
    mongo    := [⟨demoId, "x", "client", demoRpc 'x', .unarrive⟩]
    handlers := [.pushing ⟨"x", "client", demoRpc 'x', demoId.bytes⟩ (.get "c_x")] }

-- The push goes to the client, which handles and answers it.
theorem safe_push_handled : ∃ es₁ es₂ s, Exec (PlainStep demoCodec) (start "ns") es₁ demoState ∧
    PlainStep demoCodec demoState (.insert 0 demoId) demoInserted ∧
    Exec (PlainStep demoCodec) demoInserted es₂ s ∧
    (s.mongo.map Record.state) = [.arrived] ∧ demoRpc 'x' ∈ s.handled := by
  have ⟨es₁, h₁⟩ := exec_demoState
  have hi : demoState.handlers[0]? = some (.push ⟨"x", "client", true, demoRpc 'x'⟩) := rfl
  have hs : PlainStep demoCodec demoState (.insert 0 demoId) demoInserted :=
    ⟨Step.insert hi rfl (List.forall_mem_nil _), trivial⟩
  have ⟨es₂, s, h₂, hst⟩ : ∃ es₂ s, Exec (PlainStep demoCodec) demoInserted es₂ s ∧
      s.mongo = [⟨demoId, "x", "client", demoRpc 'x', .arrived⟩] :=
    ⟨_, _, .cons ⟨.get (i := 0) rfl rfl, trivial⟩ <|
      .cons ⟨.lookup (i := 0) rfl rfl rfl, trivial⟩ <|
      .cons ⟨.send (i := 0) rfl rfl (by decide), trivial⟩ <|
      .cons ⟨.p2gPush (List.mem_singleton_self _), trivial⟩ <|
      .cons ⟨.g2cPush (List.mem_singleton_self _), trivial⟩ <|
      .cons ⟨.client (i := 0) (e := .enter) rfl rfl, plain_of_own rfl rfl⟩ <|
      .cons ⟨.client (i := 0) (e := .finish) rfl rfl, trivial⟩ <|
      .cons ⟨.client (i := 0) (e := .complete) rfl rfl, trivial⟩ <|
      .single ⟨.reply (List.mem_singleton_self _), trivial⟩, rfl⟩
  refine ⟨es₁, es₂, s, h₁, hs, h₂, by simp [hst], ?_⟩
  have ⟨r, hr, _, _, hr'⟩ := safe_push_never_lost h₁ hi hs h₂
  cases List.mem_singleton.mp (hst ▸ hr)
  exact hr'.resolve_left nofun

-- A service pushes a message that is a `MSG_G2C_PUSH` itself, with the id of the record of another push. The
-- client runs the handler of "y" for it and answers for that record, whose message nobody has got.
theorem safe_push_answered_for_another : ∃ es₁ es₂ s, Exec (Step demoCodec) (start "ns") es₁ demoInserted ∧
    Exec (Step demoCodec) demoInserted es₂ s ∧
    s.mongo = [⟨demoId, "x", "client", demoRpc 'x', .arrived⟩] ∧ demoRpc 'x' ∉ s.handled := by
  have ⟨es₁, h₁⟩ := exec_demoState
  have hi : demoState.handlers[0]? = some (.push ⟨"x", "client", true, demoRpc 'x'⟩) := rfl
  have hs : Step demoCodec demoState (.insert 0 demoId) demoInserted :=
    Step.insert hi rfl (List.forall_mem_nil _)
  have h₂ : ∃ es₂ s, Exec (Step demoCodec) demoInserted es₂ s ∧
      s.mongo = [⟨demoId, "x", "client", demoRpc 'x', .arrived⟩] ∧
      s.handled = [demoRpc 'y', demoPush demoId (demoRpc 'y')] :=
    ⟨_, _, .cons (.getFailed (i := 0) rfl rfl) <|
      .cons (.s2pPush ⟨"x", "client", false, demoPush demoId (demoRpc 'y')⟩) <|
      .cons (.unsafePush (i := 1) rfl rfl) <|
      .cons (.get (i := 1) rfl rfl) <|
      .cons (.lookup (i := 1) rfl rfl rfl) <|
      .cons (.send (i := 1) rfl rfl (by decide)) <|
      .cons (.p2gPush (List.mem_singleton_self _)) <|
      .cons (.g2cPush (List.mem_singleton_self _)) <|
      .cons (.client (i := 0) (e := .enter) rfl rfl) <|
      .cons (.client (i := 0) (e := .enter) rfl rfl) <|
      .cons (.client (i := 0) (e := .finish) rfl rfl) <|
      .cons (.client (i := 0) (e := .complete) rfl rfl) <|
      .cons (.client (i := 0) (e := .complete) rfl rfl) <|
      .single (.reply (List.mem_singleton_self _)), rfl, rfl⟩
  have ⟨es₂, s, h₂, hm, hh⟩ := h₂
  refine ⟨es₁ ++ [.insert 0 demoId], es₂, s, (h₁.mono fun _ _ _ => And.left).snoc hs, h₂, hm, ?_⟩
  rw [hh]
  decide

end Cluster
