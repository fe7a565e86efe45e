import Microservice.Lib.Exec
import Microservice.Framework.HeartBeat
import Microservice.Framework.Theorems.Frames

theorem Turn.map_eq_next_iff {γ δ : Type*} {f : γ → δ} {t : Turn γ} {d : δ} :
    t.map f = .next d ↔ ∃ c, t = .next c ∧ f c = d := by
  cases t <;> simp [map]

-- A read hands over the bodies that it completes.
theorem ReadLoop.Lawful.collects {γ : Type*} {turn : Observed → γ → List Bytes → Turn (γ × List Bytes)}
    {buf : γ → RecvBuf} {alive : Observed → Prop} {overflow : UInt32 → Bool} {c : γ} {o : Observed} {tail : Bytes}
    (l : Lawful collect turn buf alive overflow) (ha : alive o) (hf : Readable (buf c) o)
    (hr : (buf c).received = some tail) (ht : Packet.split tail = none) (hb : o.result.bytes ≠ []) :
    ∃ c', turn o c [] = .next (c', (Packet.parse (tail ++ o.result.bytes)).1) ∧
      (buf c').received = some (Packet.parse (tail ++ o.result.bytes)).2 := by
  have hp : (buf c).Parsed collect [] tail [] :=
    ⟨by simp [Packet.parse_of_none ht], by simp [Packet.parse_of_none ht, hr]⟩
  obtain ⟨c', bodies, hn, hp'⟩ := l.receive ha (List.length_pos_iff.mpr hb) hf hp
  have hbodies := hp'.handed
  rw [foldl_collect, List.nil_append] at hbodies
  exact ⟨c', hbodies ▸ hn, hp'.tail⟩

section Turns

variable {σ : Type*} {rpcDecode : σ → Bytes → σ} {o : Observed} {s s' : σ}

-- A turn that goes on has got bytes, or the connection was not silent for too long.
theorem TcpClient.turn_next {c c' : TcpClient} (h : TcpClient.turn rpcDecode o c s = .next (c', s')) :
    o.result.bytes ≠ [] ∧ c'.lastActiveTime = o.now ∨
      o.result.bytes = [] ∧ c' = c ∧ s' = s ∧ keepAlive o c.lastActiveTime := by
  simp only [TcpClient.turn, Turn.ite_exit_eq_next_iff] at h
  obtain ⟨-, h⟩ := h
  cases hr : o.result <;>
    simp only [hr, Turn.ite_eq_next_iff, Turn.ite_exit_eq_next_iff, Turn.map_eq_next_iff, reduceCtorEq] at h
  case timeout =>
    obtain ⟨hk, he⟩ := h
    cases he
    exact .inr ⟨rfl, rfl, rfl, hk⟩
  all_goals
    obtain ⟨hb, _, _, he⟩ := h
    cases he
    exact .inl ⟨fun hn => hb (congrArg List.length hn), rfl⟩

theorem Remote.turn_next {r r' : Remote.Conn} (h : Remote.turn rpcDecode o r s = .next (r', s')) :
    o.result.bytes ≠ [] ∧ r'.lastActiveTime = o.now ∨
      o.result.bytes = [] ∧ r' = r ∧ s' = s ∧ keepAlive o r.lastActiveTime := by
  unfold Remote.turn at h
  cases hr : o.result <;>
    simp only [hr, Turn.ite_eq_next_iff, Turn.ite_exit_eq_next_iff, Turn.map_eq_next_iff, reduceCtorEq] at h
  case timeout =>
    obtain ⟨hk, he⟩ := h
    cases he
    exact .inr ⟨rfl, rfl, rfl, hk⟩
  all_goals
    obtain ⟨hb, _, _, he⟩ := h
    cases he
    exact .inl ⟨fun hn => hb (congrArg List.length hn), rfl⟩

end Turns

namespace Link

open SimpleRpc (msgHeartBeatReq msgHeartBeatRsp)

variable {ρ : Type} {w : Wire ρ} {cfg : Timing} {s s' : Link} {p q : Side} {l l' : Loop} {o : Observed} {e : Event}
  {es : List Event} {kind : Side → Kind} {bodies : List Bytes} {tail body msg : Bytes} {t T now : Int}
  {rest taken : List (Int × UInt8)}

theorem eq_or_eq_not (p q : Side) : q = p ∨ q = !p := by
  cases p <;> cases q <;> simp

@[simp]
theorem setPeer_peer_self {x : Peer} : (s.setPeer p x).peer p = x := by
  simp [setPeer]

@[simp]
theorem setPeer_peer_not {x : Peer} : (s.setPeer p x).peer (!p) = s.peer !p := by
  simp [setPeer]

@[simp]
theorem setPeer_wire {x : Peer} : (s.setPeer p x).wire = s.wire := rfl

@[simp]
theorem setPeer_now {x : Peer} : (s.setPeer p x).now = s.now := rfl

@[simp]
theorem setPeer_cut {x : Peer} : (s.setPeer p x).cut = s.cut := rfl

@[simp]
theorem setWire_wire_self : (s.setWire p rest).wire p = rest := by
  simp [setWire]

@[simp]
theorem setWire_wire_not : (s.setWire p rest).wire (!p) = s.wire !p := by
  simp [setWire]

@[simp]
theorem setWire_peer : (s.setWire p rest).peer = s.peer := rfl

@[simp]
theorem setWire_now : (s.setWire p rest).now = s.now := rfl

@[simp]
theorem setWire_cut : (s.setWire p rest).cut = s.cut := rfl

@[simp]
theorem setWire_self : s.setWire p (s.wire p) = s := by
  simp [setWire]

@[simp]
theorem send_peer : (s.send p msg).peer = s.peer := by
  simp only [send]
  split <;> rfl

@[simp]
theorem send_now : (s.send p msg).now = s.now := by
  simp only [send]
  split <;> rfl

@[simp]
theorem send_cut : (s.send p msg).cut = s.cut := by
  simp only [send]
  split <;> rfl

@[simp]
theorem send_wire_not : (s.send p msg).wire (!p) = s.wire !p := by
  simp only [send]
  split <;> simp

theorem send_wire (hc : s.cut = false) : (s.send p msg).wire p = s.wire p ++ msg.map (s.now, ·) := by
  simp [send, hc]

theorem send_setPeer {x : Peer} : (s.setPeer p x).send q msg = (s.send q msg).setPeer p x := by
  cases hc : s.cut
  case true  => simp [send, hc]
  case false => simp [send, hc, setPeer, setWire]

-- A read that gets bytes hands over the messages that they complete.
theorem Loop.turn_of_bytes (hs : o.state ≠ .exit) (hf : ReadLoop.Readable l.buf o)
    (hr : l.buf.received = some tail) (ht : Packet.split tail = none) (hb : o.result.bytes ≠ []) :
    ∃ l', l.turn o = .next (l', (Packet.parse (tail ++ o.result.bytes)).1) ∧
      l'.buf.received = some (Packet.parse (tail ++ o.result.bytes)).2 := by
  cases l
  case tcpClient c =>
    obtain ⟨c', hn, hr'⟩ := (ReadLoop.tcpClient_lawful ReadLoop.collect).collects hs hf hr ht hb
    exact ⟨tcpClient c', by simp [turn, hn, Turn.map], hr'⟩
  case remote r =>
    obtain ⟨r', hn, hr'⟩ := (ReadLoop.remote_lawful ReadLoop.collect).collects trivial hf hr ht hb
    exact ⟨remote r', by simp [turn, hn, Turn.map], hr'⟩
  case gateProxy b =>
    obtain ⟨b', hn, hr'⟩ := (ReadLoop.gateProxy_lawful ReadLoop.collect).collects trivial hf hr ht hb
    exact ⟨gateProxy b', by simp [turn, hn, Turn.map], hr'⟩

theorem Loop.turn_next (h : l.turn o = .next (l', bodies)) :
    o.result.bytes ≠ [] ∧ l'.lastActiveTime = l.lastActiveTime.map (fun _ => o.now) ∨
      o.result.bytes = [] ∧ l' = l ∧ bodies = [] ∧ ∀ t, l.lastActiveTime = some t → keepAlive o t := by
  cases l
  case tcpClient c =>
    obtain ⟨⟨c', _⟩, hc, he⟩ := Turn.map_eq_next_iff.mp h
    cases he
    obtain ⟨hb, ht⟩ | ⟨hb, rfl, rfl, hk⟩ := TcpClient.turn_next hc
    · exact .inl ⟨hb, congrArg some ht⟩
    · refine .inr ⟨hb, rfl, rfl, ?_⟩
      rintro t ⟨⟩
      exact hk
  case remote r =>
    obtain ⟨⟨r', _⟩, hc, he⟩ := Turn.map_eq_next_iff.mp h
    cases he
    obtain ⟨hb, ht⟩ | ⟨hb, rfl, rfl, hk⟩ := Remote.turn_next hc
    · exact .inl ⟨hb, congrArg some ht⟩
    · refine .inr ⟨hb, rfl, rfl, ?_⟩
      rintro t ⟨⟩
      exact hk
  case gateProxy b =>
    obtain ⟨⟨b', _⟩, hc, he⟩ := Turn.map_eq_next_iff.mp h
    cases he
    refine .inl ⟨?_, rfl⟩
    unfold GateProxy.turn at hc
    cases hr : o.result <;> simp_all [ReadResult.bytes]

theorem Loop.turn_of_timeout (hs : o.state ≠ .exit) (ho : o.result = .timeout)
    (hl : l.lastActiveTime = some t) (hk : keepAlive o t) : l.turn o = .next (l, []) := by
  cases l
  case gateProxy b => cases hl
  all_goals
    cases hl
    simp [turn, TcpClient.turn, Remote.turn, hs, ho, hk, Turn.map]

def reqBody (w : Wire ρ) : Bytes :=
  w.rpcEncode (.ascii msgHeartBeatReq) []

theorem length_beat (hs : w.Standard) {name : Bytes} (hn : name.length = 1) :
    (w.rpcEncode name []).length ≤ SimpleRpc.maxSize := by
  rw [hs.length_rpcEncode hn]
  decide

theorem Loop.admitted (l : Loop) : SimpleRpc.Admitted (l.session .ok) := by
  cases l <;> simp [SimpleRpc.Admitted, session]

theorem req_mem_requests (hw : w.Inverts SimpleRpc.maxSize) (hs : w.Standard) {session : SimpleRpc.SessionState}
    (ha : SimpleRpc.Admitted session) (h : reqBody w ∈ bodies) : Beat.req ∈ requests w session bodies := by
  have hg : rpcs (.ascii msgHeartBeatReq) = some ⟨[], fun _ => Beat.req⟩ := if_pos rfl
  have hd : SimpleRpc.rpcDecode w rpcs session (reqBody w) = some .req :=
    SimpleRpc.rpcDecode_rpcEncode hw ha hg (by simp) () (length_beat hs rfl)
  exact List.mem_filter.mpr ⟨List.mem_filterMap.mpr ⟨_, h, hd⟩, rfl⟩

-- A side receives: behind the part of a message in its buffer, the bytes on the way to it are whole messages.
structure Receiving (s : Link) (p : Side) (l : Loop) (tail : Bytes) : Prop where
  loop     : (s.peer p).loop = some l
  received : l.buf.received = some tail
  part     : Packet.split tail = none
  whole    : (Packet.parse (tail ++ (s.wire p).map Prod.snd)).2 = []

-- A side has asked for a sign of life by the time `T`: its request is among the messages on the way to the
-- other side, or waits for its answer there, or there are bytes on the way back.
inductive Awaited (cfg : Timing) (w : Wire ρ) (s : Link) (p : Side) (T : Int) : Prop
  | req {l : Loop} {tail : Bytes} {front back : List (Int × UInt8)} :
    Receiving s (!p) l tail → s.wire (!p) = front ++ back → (∀ b ∈ front, b.1 ≤ T) →
    reqBody w ∈ (Packet.parse (tail ++ front.map Prod.snd)).1 → Awaited cfg w s p T
  | task {t : Int} : t ∈ (s.peer !p).tasks → t ≤ T + cfg.delivery → Awaited cfg w s p T
  | back {b : Int × UInt8} : b ∈ s.wire p → b.1 ≤ T + cfg.delivery + cfg.answer → Awaited cfg w s p T

theorem Awaited.mono {T' : Int} (h : Awaited cfg w s p T) (hle : T ≤ T') : Awaited cfg w s p T' := by
  cases h
  case req hr hf hT hreq => exact .req hr hf (fun b hb => Int.le_trans (hT b hb) hle) hreq
  case task hm hT        => exact .task hm (by omega)
  case back hb hT        => exact .back hb (by omega)

-- In a state in time. A side that has been silent for 10 seconds at its last turn has asked.
structure Inv (cfg : Timing) (w : Wire ρ) (s : Link) : Prop where
  uncut     : s.cut = false
  inTime    : InTime cfg s
  receiving : ∀ p, ∃ l tail, Receiving s p l tail
  sent      : ∀ p, ∀ b ∈ s.wire p, b.1 ≤ s.now
  asked     : ∀ p l t, (s.peer p).loop = some l → l.lastActiveTime = some t →
    10 * 1000 < (s.peer p).turned + cfg.clock p - t →
    Awaited cfg w s p (t - cfg.clock p + 10 * 1000 + cfg.period)

theorem Receiving.of_eq (hr : Receiving s p l tail) (hl : (s'.peer p).loop = (s.peer p).loop)
    (hw : s'.wire p = s.wire p) : Receiving s' p l tail :=
  ⟨hl ▸ hr.loop, hr.received, hr.part, hw ▸ hr.whole⟩

theorem Receiving.send (hr : Receiving s q l tail) (hb : body.length ≤ SimpleRpc.maxSize)
    (hm : SimpleRpc.messageEncode body = some msg) : Receiving (s.send p msg) q l tail := by
  cases hc : s.cut
  case true  => exact hr.of_eq (by simp) (by simp [Link.send, hc])
  case false =>
    obtain rfl | rfl := eq_or_eq_not p q
    case inl =>
      refine ⟨by simpa using hr.loop, hr.received, hr.part, ?_⟩
      have hmsg : (msg.map (s.now, ·)).map Prod.snd = msg := by simp [Function.comp_def]
      rw [send_wire hc, List.map_append, hmsg, ←List.append_assoc, Packet.parse_append, hr.whole, List.nil_append,
        SimpleRpc.parse_messageEncode hb hm]
    case inr => exact hr.of_eq (by simp) send_wire_not

theorem Awaited.send (h : Awaited cfg w s p T) (hc : s.cut = false) (hb : body.length ≤ SimpleRpc.maxSize)
    (hm : SimpleRpc.messageEncode body = some msg) : Awaited cfg w (s.send q msg) p T := by
  have hext (p : Side) : ∃ new, (s.send q msg).wire p = s.wire p ++ new := by
    obtain rfl | rfl := eq_or_eq_not q p
    case inl => exact ⟨_, send_wire hc⟩
    case inr => exact ⟨[], by simp⟩
  cases h
  case req hr hf hT hreq =>
    obtain ⟨new, hnew⟩ := hext (!p)
    exact .req (hr.send hb hm) (by rw [hnew, hf, List.append_assoc]) hT hreq
  case task ht hT => exact .task (by simpa using ht) hT
  case back hb hT =>
    obtain ⟨new, hnew⟩ := hext p
    exact .back (hnew ▸ List.mem_append_left _ hb) hT

theorem mem_send (h : b ∈ (s.send p msg).wire q) : b ∈ s.wire q ∨ b.1 = s.now := by
  cases hc : s.cut
  case true => exact .inl (by simpa [send, hc] using h)
  case false =>
    obtain rfl | rfl := eq_or_eq_not p q
    case inl =>
      rw [send_wire hc] at h
      obtain h | h := List.mem_append.mp h
      · exact .inl h
      · obtain ⟨_, _, rfl⟩ := List.mem_map.mp h
        exact .inr rfl
    case inr => exact .inl (by simpa using h)

theorem InTime.send (h : InTime cfg s) : InTime cfg (s.send p msg) where
  turns hl := by simpa using h.turns (by simpa using hl)
  reads hl hb := by
    obtain hb | hb := mem_send hb
    · simpa using h.reads (by simpa using hl) hb
    · simp only [send_now, hb]
      omega
  answers hl ht := by simpa using h.answers (by simpa using hl) (by simpa using ht)

theorem Inv.send (h : Inv cfg w s) (hb : body.length ≤ SimpleRpc.maxSize)
    (hm : SimpleRpc.messageEncode body = some msg) : Inv cfg w (s.send p msg) where
  uncut := by simp [h.uncut]
  inTime := h.inTime.send
  receiving q := by
    obtain ⟨l, tail, hr⟩ := h.receiving q
    exact ⟨l, tail, hr.send hb hm⟩
  sent q b hq := by
    obtain hq | hq := mem_send hq
    · simpa using h.sent q b hq
    · simp [hq]
  asked q l t hl ht hlate :=
    (h.asked q l t (by simpa using hl) ht (by simpa using hlate)).send h.uncut hb hm

theorem Receiving.isSome (hr : Receiving s p l tail) : (s.peer p).loop.isSome :=
  Option.isSome_iff_exists.mpr ⟨l, hr.loop⟩

-- The part of a message in the buffer holds no request.
theorem Receiving.now_le (hr : Receiving s p l tail) (ht : InTime cfg s) {front back : List (Int × UInt8)}
    (hf : s.wire p = front ++ back) (hT : ∀ b ∈ front, b.1 ≤ T)
    (hreq : reqBody w ∈ (Packet.parse (tail ++ front.map Prod.snd)).1) : s.now ≤ T + cfg.delivery := by
  cases front
  case nil => simp [Packet.parse_of_none hr.part] at hreq
  case cons b front =>
    have hb := ht.reads hr.isSome (show b ∈ s.wire p by simp [hf])
    have hT := hT b List.mem_cons_self
    omega

theorem Inv.isSome (h : Inv cfg w s) (p : Side) : (s.peer p).loop.isSome := by
  obtain ⟨l, tail, hr⟩ := h.receiving p
  exact hr.isSome

-- Nobody waits longer for a sign of life than two messages and a task take.
theorem Inv.now_le_of_awaited (h : Inv cfg w s) (ha : Awaited cfg w s p T) :
    s.now ≤ T + 2 * cfg.delivery + cfg.answer := by
  cases ha
  case req hr hf hT hreq =>
    have hn := hr.now_le h.inTime hf hT hreq
    omega
  case task ht hT =>
    have hn := h.inTime.answers (h.isSome _) ht
    omega
  case back hb hT =>
    have hn := h.inTime.reads (h.isSome _) hb
    omega

theorem Inv.silence (h : Inv cfg w s) (hl : (s.peer p).loop = some l) (ht : l.lastActiveTime = some t) :
    s.now + cfg.clock p - t ≤ 10 * 1000 + cfg.period + 2 * cfg.delivery + cfg.answer := by
  by_cases hlate : 10 * 1000 < (s.peer p).turned + cfg.clock p - t
  case pos =>
    have hn := h.now_le_of_awaited (h.asked p l t hl ht hlate)
    omega
  case neg =>
    have hn := h.inTime.turns hl (Option.isSome_iff_exists.mpr ⟨t, ht⟩)
    omega

theorem setPeer_loop {x : Peer} (hl : x.loop = (s.peer p).loop) (q : Side) :
    ((s.setPeer p x).peer q).loop = (s.peer q).loop := by
  obtain rfl | rfl := eq_or_eq_not p q <;> simp [hl]

theorem setTasks_loop {tasks : List Int} (q : Side) :
    ((s.setPeer p { s.peer p with tasks := tasks }).peer q).loop = (s.peer q).loop :=
  setPeer_loop (by simp) q

theorem setTasks_turned {tasks : List Int} (q : Side) :
    ((s.setPeer p { s.peer p with tasks := tasks }).peer q).turned = (s.peer q).turned := by
  obtain rfl | rfl := eq_or_eq_not p q <;> simp

theorem mem_tasks {before after : List Int} (ht : (s.peer p).tasks = before ++ t :: after) :
    ∀ t' ∈ before ++ after, t' ∈ (s.peer p).tasks := by
  intro t' h
  rw [ht]
  exact (List.Sublist.append_left (List.sublist_cons_self t after) before).subset h

-- An end changes, but not its loop. It has no new tasks, and its last turn is the same or has just ended.
theorem InTime.setPeer (h : InTime cfg s) {x : Peer} (hl : x.loop = (s.peer p).loop)
    (ht : x.turned = (s.peer p).turned ∨ x.turned = s.now) (hs : ∀ t ∈ x.tasks, t ∈ (s.peer p).tasks) :
    InTime cfg (s.setPeer p x) := by
  refine ⟨fun {q l} hq hd => ?_, fun hq => h.reads (setPeer_loop hl _ ▸ hq), fun {q t} hq hm => ?_⟩
  all_goals rw [setPeer_loop hl] at hq; obtain rfl | rfl := eq_or_eq_not p q
  · have hturns := h.turns hq hd
    simp only [setPeer_peer_self, setPeer_now]
    omega
  · simpa using h.turns hq hd
  · exact h.answers hq (hs t (by simpa using hm))
  · exact h.answers hq (by simpa using hm)

theorem Inv.setPeer (h : Inv cfg w s) {x : Peer} (hl : x.loop = (s.peer p).loop)
    (ht : x.turned = (s.peer p).turned ∨ x.turned = s.now) (hs : ∀ t ∈ x.tasks, t ∈ (s.peer p).tasks)
    (hask : ∀ q l t, (s.peer q).loop = some l → l.lastActiveTime = some t →
      10 * 1000 < ((s.setPeer p x).peer q).turned + cfg.clock q - t →
      Awaited cfg w (s.setPeer p x) q (t - cfg.clock q + 10 * 1000 + cfg.period)) :
    Inv cfg w (s.setPeer p x) where
  uncut := h.uncut
  inTime := h.inTime.setPeer hl ht hs
  receiving q := by
    obtain ⟨l, tail, hr⟩ := h.receiving q
    exact ⟨l, tail, hr.of_eq (setPeer_loop hl q) rfl⟩
  sent := h.sent
  asked q l t hq := hask q l t (setPeer_loop hl q ▸ hq)

theorem Inv.pause (h : Inv cfg w s) (hl : (s.peer p).loop = some l)
    (hask : ∀ t, l.lastActiveTime = some t → 10 * 1000 < s.now + cfg.clock p - t →
      Awaited cfg w s p (t - cfg.clock p + 10 * 1000 + cfg.period)) :
    Inv cfg w (s.setPeer p { s.peer p with turned := s.now }) := by
  refine h.setPeer rfl (.inr rfl) (fun _ => id) fun q l' t hq ht hlate => ?_
  have ha : Awaited cfg w s q (t - cfg.clock q + 10 * 1000 + cfg.period) := by
    obtain rfl | rfl := eq_or_eq_not p q
    · cases hl.symm.trans hq
      exact hask t ht (by simpa using hlate)
    · exact h.asked _ l' t hq ht (by simpa using hlate)
  cases ha
  case req hr hf hT hreq => exact .req (hr.of_eq (setPeer_loop (by simp) _) rfl) hf hT hreq
  case back hb hT        => exact .back hb hT
  case task hm hT        =>
    refine .task ?_ hT
    obtain rfl | rfl := eq_or_eq_not p q <;> simpa using hm

-- An answer is on its way, its task is over. The answered request may be the one that the other side waits for.
theorem Inv.done (h : Inv cfg w s) {before after : List Int} (ht : (s.peer p).tasks = before ++ t :: after)
    (hback : ∃ b ∈ s.wire (!p), b.1 = s.now) :
    Inv cfg w (s.setPeer p { s.peer p with tasks := before ++ after }) := by
  refine h.setPeer rfl (.inl rfl) (mem_tasks ht) fun q l' t' hq hl hlate => ?_
  rw [setTasks_turned] at hlate
  cases h.asked q l' t' hq hl hlate
  case req hr hf hT hreq => exact .req (hr.of_eq (setPeer_loop (by simp) _) rfl) hf hT hreq
  case back hb hT        => exact .back hb hT
  case task hm hT        =>
    obtain rfl | rfl := eq_or_eq_not p q
    · exact .task (by simpa using hm) hT
    · obtain ⟨b, hb, hn⟩ := hback
      have hnow := h.inTime.answers (h.isSome _) hm
      exact .back hb (by omega)

theorem Inv.not_broken (h : Inv cfg w s) (p : Side) : ¬s.Broken p := by
  rintro (hc | hn)
  · cases hc.symm.trans h.uncut
  · simpa [hn] using h.isSome !p

-- The side `p` has read all but `rest`, and has got new tasks.
def arrived (s : Link) (p : Side) (l : Loop) (rest : List (Int × UInt8)) (new : List Int) : Link :=
  (s.setWire p rest).setPeer p ⟨l, s.now, (s.peer p).tasks ++ new⟩

theorem turned_of_next (h : l.turn o = .next (l', bodies)) :
    s.turned w p l o rest =
      s.arrived p l' rest ((requests w (l.session o.state) bodies).map fun _ => s.now) := by
  simp [turned, h, arrived]

section Arrived

variable {new : List Int}

@[simp]
theorem arrived_peer_self : (s.arrived p l rest new).peer p = ⟨l, s.now, (s.peer p).tasks ++ new⟩ := by
  simp [arrived]

@[simp]
theorem arrived_peer_not : (s.arrived p l rest new).peer (!p) = s.peer !p := by
  simp [arrived]

@[simp]
theorem arrived_wire_self : (s.arrived p l rest new).wire p = rest := by
  simp [arrived]

@[simp]
theorem arrived_wire_not : (s.arrived p l rest new).wire (!p) = s.wire !p := by
  simp [arrived]

@[simp]
theorem arrived_now : (s.arrived p l rest new).now = s.now := rfl

theorem InTime.arrived (h : InTime cfg s) (ho : (s.peer p).loop.isSome) (hwire : s.wire p = taken ++ rest)
    (hnew : ∀ t ∈ new, t = s.now) : InTime cfg (s.arrived p l rest new) := by
  refine ⟨fun {q l} hq hd => ?_, fun {q b} hq hb => ?_, fun {q t} hq ht => ?_⟩
  all_goals obtain rfl | rfl := eq_or_eq_not p q
  · simp only [arrived_peer_self, arrived_now]
    omega
  · simpa using h.turns (by simpa using hq) hd
  · exact h.reads ho (hwire ▸ List.mem_append_right _ (by simpa using hb))
  · simpa using h.reads (by simpa using hq) (by simpa using hb)
  · rw [arrived_peer_self] at ht
    obtain ht | ht := List.mem_append.mp ht
    · exact h.answers ho ht
    · rw [arrived_now, hnew t ht]
      omega
  · simpa using h.answers (by simpa using hq) (by simpa using ht)

variable (new) in
theorem Receiving.arrived (h : Receiving s p l tail) (hwire : s.wire p = taken ++ rest)
    (hr : l'.buf.received = some (Packet.parse (tail ++ taken.map Prod.snd)).2) :
    Receiving (s.arrived p l' rest new) p l' (Packet.parse (tail ++ taken.map Prod.snd)).2 := by
  refine ⟨by simp, hr, Packet.split_parse_tail _, ?_⟩
  have hwhole := h.whole
  rw [hwire, List.map_append, ←List.append_assoc, Packet.parse_append] at hwhole
  simpa using hwhole

-- What a side gets are the first bytes on the way to it. Those of a request that the other side waits for may be
-- among them, all or some.
theorem Awaited.arrived (h : Awaited cfg w s (!p) T) (ht : InTime cfg s) (hr : Receiving s p l tail)
    (hwire : s.wire p = taken ++ rest)
    (hr' : Receiving (s.arrived p l' rest new) p l' (Packet.parse (tail ++ taken.map Prod.snd)).2)
    (hnew : reqBody w ∈ (Packet.parse (tail ++ taken.map Prod.snd)).1 → s.now ∈ new) :
    Awaited cfg w (s.arrived p l' rest new) (!p) T := by
  cases h
  case task ht hT =>
    rw [Bool.not_not] at ht
    exact .task (by simp [ht]) hT
  case back hb hT => exact .back (by simpa using hb) hT
  case req front back hr₁ hf hT hreq =>
    rw [Bool.not_not] at hr₁ hf
    cases hr.loop.symm.trans hr₁.loop
    cases hr.received.symm.trans hr₁.received
    have hnow := hr.now_le ht hf hT hreq
    have hgot (hreq : reqBody w ∈ (Packet.parse (tail ++ taken.map Prod.snd)).1) :
        Awaited cfg w (s.arrived p l' rest new) (!p) T :=
      .task (by simp [hnew hreq]) hnow
    obtain ⟨ys, rfl, hrest⟩ | ⟨ys, rfl, hrest⟩ := List.append_eq_append_iff.mp (hwire.symm.trans hf)
    · rw [List.map_append, ←List.append_assoc, Packet.parse_append] at hreq
      obtain hreq | hreq := List.mem_append.mp hreq
      · exact hgot hreq
      · refine .req (by rwa [Bool.not_not]) (by simpa using hrest) ?_ hreq
        exact fun b hb => hT b (List.mem_append_right _ hb)
    · refine hgot ?_
      rw [List.map_append, ←List.append_assoc, Packet.parse_append]
      exact List.mem_append_left _ hreq

end Arrived

theorem Inv.read (hw : w.Inverts SimpleRpc.maxSize) (hs : w.Standard) (h : Inv cfg w s)
    (hl : (s.peer p).loop = some l) (hwire : s.wire p = taken ++ rest) (hne : taken ≠ [])
    (hfree : taken.length ≤ l.buf.free) (ho : o.result = .data (taken.map Prod.snd))
    (hnow : o.now = s.now + cfg.clock p) (hok : o.state = .ok) : Inv cfg w (s.turned w p l o rest) := by
  obtain ⟨_, tail, hr⟩ := h.receiving p
  cases hl.symm.trans hr.loop
  have hbytes : o.result.bytes = taken.map Prod.snd := by simp [ho, ReadResult.bytes]
  have hne : o.result.bytes ≠ [] := by simpa [hbytes] using hne
  have hf : ReadLoop.Readable l.buf o := by
    rintro chunk (hc | hc)
    · cases ho.symm.trans hc
      exact ⟨List.length_pos_iff.mpr (hbytes ▸ hne), by simpa using hfree⟩
    · cases ho.symm.trans hc
  obtain ⟨l', hn, hreceived⟩ := Loop.turn_of_bytes (by simp [hok]) hf hr.received hr.part hne
  have hactive : l'.lastActiveTime = l.lastActiveTime.map fun _ => o.now := by
    obtain ⟨_, ha⟩ | ⟨hb, _⟩ := Loop.turn_next hn
    · exact ha
    · exact absurd hb hne
  rw [hbytes] at hn hreceived
  rw [turned_of_next hn, hok]
  have hr' := hr.arrived ((requests w (l.session .ok) (Packet.parse (tail ++ taken.map Prod.snd)).1).map fun _ => s.now)
    hwire hreceived
  refine ⟨h.uncut, h.inTime.arrived hr.isSome hwire (by simp), fun q => ?_, fun q b hb => ?_,
    fun q l t hq ht hlate => ?_⟩
  all_goals obtain rfl | rfl := eq_or_eq_not p q
  · exact ⟨l', _, hr'⟩
  · obtain ⟨l₁, tail₁, hr₁⟩ := h.receiving !p
    exact ⟨l₁, tail₁, hr₁.of_eq (by simp) (by simp)⟩
  · exact h.sent q b (hwire ▸ List.mem_append_right _ (by simpa using hb))
  · exact h.sent _ b (by simpa using hb)
  · -- The side has just been active.
    simp only [arrived_peer_self, Option.some.injEq] at hq hlate
    subst hq
    rw [hactive, Option.map_eq_some_iff] at ht
    obtain ⟨_, _, rfl⟩ := ht
    omega
  · have ha := h.asked (!p) l t (by simpa using hq) ht (by simpa using hlate)
    refine ha.arrived h.inTime hr hwire hr' fun hreq => ?_
    exact List.mem_map.mpr ⟨_, req_mem_requests hw hs (Loop.admitted _) hreq, rfl⟩

theorem keepAlive_of_le (hb : o.heartBeat = true) (hle : o.now - t ≤ 20 * 1000) : keepAlive o t = true := by
  simp only [keepAlive, hb, gt_iff_lt, Int.not_lt.mpr hle, if_false, ite_self]

-- A deadline passes. The loop goes on, since the connection has not been silent for 20 seconds.
theorem Inv.keepAlive (h : Inv cfg w s) (hcfg : 2 * cfg.delivery + cfg.answer + cfg.period ≤ 10 * 1000)
    (hl : (s.peer p).loop = some l) (hd : l.lastActiveTime = some t) (hb : o.heartBeat = true)
    (hnow : o.now = s.now + cfg.clock p) : o.now - t ≤ 20 * 1000 ∧ keepAlive o t = true := by
  have hsilence := h.silence hl hd
  have hle : o.now - t ≤ 20 * 1000 := by omega
  exact ⟨hle, keepAlive_of_le hb hle⟩

theorem turned_of_timeout (hl : (s.peer p).loop = some l) (hd : l.lastActiveTime = some t)
    (ho : o.result = .timeout) (hok : o.state = .ok) (hk : keepAlive o t = true) :
    s.turned w p l o (s.wire p) = s.setPeer p { s.peer p with turned := s.now } := by
  have hn := Loop.turn_of_timeout (by simp [hok]) ho hd hk
  simp [turned_of_next hn, Link.arrived, requests, hl]

theorem heartBeat_of_timeout (ho : o.result = .timeout) (hok : o.state = .ok) (hd : l.lastActiveTime = some t) :
    l.heartBeat o = true ↔ 10 * 1000 < o.now - t ∧ o.now - t ≤ 20 * 1000 := by
  have hgoesOn : l.goesOn o = true := by
    cases l <;> simp [Loop.goesOn, hok]
  simp [Loop.heartBeat, ho, hd, hgoesOn]

-- The request goes behind the other messages, which are whole.
theorem Inv.asks (hs : w.Standard) (h : Inv cfg w s) (hm : SimpleRpc.messageEncode (reqBody w) = some msg) :
    Awaited cfg w (s.send (!p) msg) p s.now := by
  have hle : (reqBody w).length ≤ SimpleRpc.maxSize := length_beat hs rfl
  obtain ⟨l, tail, hr⟩ := h.receiving !p
  refine .req (hr.send hle hm) (List.append_nil _).symm (fun b hb => ?_) ?_
  · simpa using (h.send (p := !p) hle hm).sent _ b hb
  · have hmsg : (msg.map (s.now, ·)).map Prod.snd = msg := by simp [Function.comp_def]
    rw [send_wire h.uncut, List.map_append, hmsg, ←List.append_assoc, Packet.parse_append, hr.whole, List.nil_append,
      SimpleRpc.parse_messageEncode hle hm]
    simp

-- The connection is not cut and none of its ends goes away. A client is verified when it is read from.
def Healthy : Event → Prop
  | .cut | .close _ => False
  | .turn _ o       => o.state = .ok
  | _               => True

theorem Inv.step (hw : w.Inverts SimpleRpc.maxSize) (hs : w.Standard)
    (hcfg : 2 * cfg.delivery + cfg.answer + cfg.period ≤ 10 * 1000) (h : Inv cfg w s) (hstep : Step cfg w s e s')
    (hok : Healthy e) : Inv cfg w s' := by
  cases hstep
  case tick d ht =>
    refine ⟨h.uncut, ht, fun p => ?_, fun p b hb => ?_, fun p l t hl hd hlate => ?_⟩
    · obtain ⟨l, tail, hr⟩ := h.receiving p
      exact ⟨l, tail, hr.of_eq rfl rfl⟩
    · exact Int.le_trans (h.sent p b hb) (Int.le_add_of_nonneg_right (Int.natCast_nonneg d))
    · cases h.asked p l t hl hd hlate
      case req hr hf hT hreq => exact .req (hr.of_eq rfl rfl) hf hT hreq
      case task hm hT        => exact .task hm hT
      case back hb hT        => exact .back hb hT
  case turn p l o rest hl hreads hnow hbeat =>
    cases hreads
    case data hne hfree ho hwire => exact h.read hw hs hl hwire hne hfree ho hnow hok
    case timeout hd ho hb =>
      obtain ⟨t, hd⟩ := Option.isSome_iff_exists.mp hd
      obtain ⟨hle, hk⟩ := h.keepAlive hcfg hl hd (hb.resolve_right (h.not_broken p)) hnow
      rw [turned_of_timeout hl hd ho hok hk]
      refine h.pause hl fun t' ht' hlate => ?_
      cases hd.symm.trans ht'
      rw [Bool.eq_false_iff, Ne, heartBeat_of_timeout ho hok hd] at hbeat
      omega
    case eof hb _ _ _ => exact absurd hb (h.not_broken p)
    case failure hb _ => exact absurd hb (h.not_broken p)
  case beat p l o rest msg hl hreads hnow hbeat hm =>
    cases hreads
    case data ho _ => simp [Loop.heartBeat, ho] at hbeat
    case timeout hd ho hb =>
      obtain ⟨t, hd⟩ := Option.isSome_iff_exists.mp hd
      have hb := hb.resolve_right (h.not_broken p)
      obtain ⟨hle, hk⟩ := h.keepAlive hcfg hl hd hb hnow
      have hsend := h.send (p := !p) (length_beat hs rfl) hm
      have hwire : s.wire p = (s.send (!p) msg).wire p := by simpa using (send_wire_not (s := s) (p := !p)).symm
      rw [if_pos hb, hwire, turned_of_timeout (by simpa using hl) hd ho hok hk]
      refine hsend.pause (by simpa using hl) fun t' ht' _ => ?_
      cases hd.symm.trans ht'
      by_cases hlate : 10 * 1000 < (s.peer p).turned + cfg.clock p - t
      case pos => exact hsend.asked p l t (by simpa using hl) hd (by simpa using hlate)
      case neg =>
        have hturns := h.inTime.turns hl (Option.isSome_iff_exists.mpr ⟨t, hd⟩)
        exact (h.asks hs hm).mono (by omega)
    case eof hb _ _ _ => exact absurd hb (h.not_broken p)
    case failure hb _ => exact absurd hb (h.not_broken p)
  case answer p before after t msg ho ht hm =>
    have hle : (w.rpcEncode (.ascii msgHeartBeatRsp) []).length ≤ SimpleRpc.maxSize := length_beat hs rfl
    have hback : ∃ b ∈ (s.send (!p) msg).wire (!p), b.1 = s.now := by
      cases (SimpleRpc.messageEncode_eq_some hle).symm.trans hm
      rw [send_wire h.uncut]
      exact ⟨_, List.mem_append_right _ (List.mem_cons_self ..), rfl⟩
    have ht' : ((s.send (!p) msg).peer p).tasks = before ++ t :: after := by rw [send_peer, ht]
    have hdone := (h.send hle hm).done ht' (by simpa using hback)
    rw [send_peer] at hdone
    rwa [send_setPeer]
  case post hle hm => exact h.send hle hm
  case close => exact hok.elim
  case cut   => exact hok.elim

theorem Kind.lastActiveTime_loop {k : Kind} (h : (k.loop now).lastActiveTime = some t) : t = now := by
  cases k <;> simp_all [loop, Loop.lastActiveTime]

theorem Inv.connected : Inv cfg w (connected cfg kind now) := by
  refine ⟨rfl, ⟨fun _ _ => ?_, fun _ hb => ?_, fun _ ht => ?_⟩, fun p => ?_, fun _ _ hb => ?_, fun p l t hl hd hlate => ?_⟩
  · simp only [Link.connected]
    omega
  · cases hb
  · cases ht
  · refine ⟨_, [], rfl, ?_, rfl, ?_⟩
    · cases kind p <;> simp [Kind.loop, Loop.buf, RecvBuf.make_received]
    · exact congrArg Prod.snd Packet.parse_nil
  · cases hb
  · cases hl
    have ht := Kind.lastActiveTime_loop hd
    simp only [Link.connected, ht] at hlate
    omega

-- On a network that delivers in time, a healthy connection stays open for good, however little there is to send.
theorem stays_open (hw : w.Inverts SimpleRpc.maxSize) (hs : w.Standard)
    (hcfg : 2 * cfg.delivery + cfg.answer + cfg.period ≤ 10 * 1000)
    (h : Exec (Step cfg w) (connected cfg kind now) es s) (hok : ∀ e ∈ es, Healthy e) (p : Side) :
    ∃ l, (s.peer p).loop = some l ∧ ∀ t, l.lastActiveTime = some t →
      s.now + cfg.clock p - t ≤ 10 * 1000 + cfg.period + 2 * cfg.delivery + cfg.answer := by
  have hinv : Inv cfg w s := by
    refine h.invariant (I := fun es s => (∀ e ∈ es, Healthy e) → Inv cfg w s) (fun _ => .connected) ?_ hok
    intro es s e s' _ hi hstep hok
    have hold := hi fun e he => hok e (List.mem_append_left _ he)
    exact hold.step hw hs hcfg hstep (hok e (by simp))
  obtain ⟨l, _, hr⟩ := hinv.receiving p
  exact ⟨l, hr.loop, fun t ht => hinv.silence hr.loop ht⟩

-- A deadline passes at an end that does not send a heart beat, or whose heart beats get lost.
theorem Step.pass {msg : Bytes} (hl : (s.peer p).loop = some l) (hd : l.lastActiveTime = some t)
    (ho : o.result = .timeout) (hb : o.heartBeat = true) (hnow : o.now = s.now + cfg.clock p) (hok : o.state = .ok)
    (hle : o.now - t ≤ 20 * 1000) (hm : SimpleRpc.messageEncode (reqBody w) = some msg)
    (hq : l.heartBeat o = false ∨ s.cut = true) :
    Step cfg w s (.turn p o) (s.setPeer p { s.peer p with turned := s.now }) := by
  have hreads : s.Reads p l o (s.wire p) := .timeout (Option.isSome_iff_exists.mpr ⟨t, hd⟩) ho (.inl hb)
  have hturned := turned_of_timeout (w := w) hl hd ho hok (keepAlive_of_le hb hle)
  cases hbeat : l.heartBeat o
  case false => exact hturned ▸ .turn hl hreads hnow hbeat
  case true  =>
    have hsend : s.send (!p) msg = s := by simp [send, hq.resolve_left (by simp [hbeat])]
    have hstep : Step cfg w s (.turn p o) _ := .beat hl hreads hnow hbeat hm
    rwa [hsend, ite_self, hturned] at hstep

def demoTiming : Timing where
  delivery := 1000
  answer   := 1000
  period   := 5000
  clock p  := if p then 7 else 0

def demoKind (p : Side) : Kind :=
  if p then .remote else .tcpClient

-- Both ends have been silent from the start.
def demoLink (cut : Bool) (now : Int) (turned : Side → Int) : Link where
  now    := now
  peer p := ⟨(demoKind p).loop (demoTiming.clock p), turned p, []⟩
  wire _ := []
  cut    := cut

def demoTimeout (p : Side) (now : Int) : Observed where
  result    := .timeout
  now       := now + demoTiming.clock p
  heartBeat := true
  state     := .ok

theorem connected_eq_demoLink : connected demoTiming demoKind 0 = demoLink false 0 fun _ => 0 := by
  simp only [connected, demoLink, Int.zero_add]

theorem demoKind_lastActiveTime (p : Side) (now : Int) : ((demoKind p).loop now).lastActiveTime = some now := by
  cases p <;> rfl

section Demo

variable {cut : Bool} {turned : Side → Int}

theorem demoLink_tick (d : Nat) (h : ∀ p, now + d ≤ turned p + 5000) :
    Step demoTiming Wire.msgpack (demoLink cut now turned) (.tick d) (demoLink cut (now + d) turned) := by
  refine .tick ⟨fun _ _ => h _, fun _ hb => ?_, fun _ ht => ?_⟩
  · cases hb
  · cases ht

variable (turned) in
theorem demoLink_turn (p : Side) (h : now ≤ 20 * 1000) (hq : now ≤ 10 * 1000 ∨ cut = true) :
    Step demoTiming Wire.msgpack (demoLink cut now turned) (.turn p (demoTimeout p now))
      (demoLink cut now (Function.update turned p now)) := by
  have hd := demoKind_lastActiveTime p (demoTiming.clock p)
  have hset : demoLink cut now (Function.update turned p now) = (demoLink cut now turned).setPeer p
      { (demoLink cut now turned).peer p with turned := (demoLink cut now turned).now } := by
    simp only [setPeer, demoLink, Link.mk.injEq, true_and, and_true]
    funext q
    obtain rfl | rfl := eq_or_eq_not p q <;> simp
  rw [hset]
  refine .pass rfl hd rfl rfl rfl rfl ?_ rfl (hq.imp_left fun hle => ?_)
  · simp only [demoTimeout]
    omega
  · rw [Bool.eq_false_iff, Ne, heartBeat_of_timeout rfl rfl hd]
    simp only [demoTimeout]
    omega

variable (cut) in
-- Five seconds, and a turn of each end.
theorem demoLink_round (now : Int) (h : now + 5000 ≤ 20 * 1000) (hq : now + 5000 ≤ 10 * 1000 ∨ cut = true) :
    Exec (Step demoTiming Wire.msgpack) (demoLink cut now fun _ => now)
      [.tick 5000, .turn false (demoTimeout false (now + 5000)), .turn true (demoTimeout true (now + 5000))]
      (demoLink cut (now + 5000) fun _ => now + 5000) := by
  have hturned : Function.update (Function.update (fun _ : Side => now) false (now + 5000)) true (now + 5000) =
      fun _ => now + 5000 := by
    funext p
    cases p <;> rfl
  have hturns := (Exec.single (demoLink_turn (fun _ => now) false h hq)).snoc (demoLink_turn _ true h hq)
  exact hturned ▸ .cons (demoLink_tick 5000 fun _ => Int.le_rfl) hturns

end Demo

theorem stays_open_asked :
    ∃ es s, Exec (Step demoTiming Wire.msgpack) (connected demoTiming demoKind 0) es s ∧ (∀ e ∈ es, Healthy e) ∧
      s.wire true ≠ [] ∧ ∀ p, ∃ l, (s.peer p).loop = some l ∧ ∀ t, l.lastActiveTime = some t →
        s.now + demoTiming.clock p - t ≤ 10 * 1000 + 5000 + 2 * 1000 + 1000 := by
  have hrounds := (demoLink_round false 0 (by decide) (.inl (by decide))).trans
    (demoLink_round false 5000 (by decide) (.inl (by decide)))
  have hbeat : Step demoTiming Wire.msgpack (demoLink false 10001 fun _ => 10000)
      (.turn false (demoTimeout false 10001)) _ :=
    .beat rfl (.timeout rfl rfl (.inl rfl)) rfl rfl rfl
  have hrun := (hrounds.snoc (demoLink_tick 1 fun _ => by decide)).snoc hbeat
  rw [←connected_eq_demoLink] at hrun
  have hopen := stays_open (Wire.msgpack_inverts (by decide)) Wire.msgpack_standard (by decide) hrun
    (by simp [Healthy, demoTimeout])
  exact ⟨_, _, hrun, by simp [Healthy, demoTimeout], List.cons_ne_nil _ _, hopen⟩

-- In any run: the last turn of an open end has found it silent for at most 20 seconds.
structure Watched (cfg : Timing) (kind : Side → Kind) (s : Link) : Prop where
  inTime : InTime cfg s
  sent   : ∀ p, ∀ b ∈ s.wire p, b.1 ≤ s.now
  active : ∀ p l t, (s.peer p).loop = some l → l.lastActiveTime = some t →
    t ≤ s.now + cfg.clock p ∧ (s.peer p).turned + cfg.clock p - t ≤ 20 * 1000
  timed  : ∀ p l, (s.peer p).loop = some l → kind p ≠ .gateProxy → l.lastActiveTime.isSome

theorem le_of_keepAlive (h : keepAlive o t = true) : o.now - t ≤ 20 * 1000 := by
  simp only [keepAlive] at h
  split_ifs at h <;> omega

theorem Watched.connected : Watched cfg kind (connected cfg kind now) := by
  have h : Inv cfg Wire.msgpack (Link.connected cfg kind now) := .connected
  refine ⟨h.inTime, h.sent, fun p l t hl hd => ?_, fun p l hl hk => ?_⟩
  · cases hl
    have ht := Kind.lastActiveTime_loop hd
    simp only [Link.connected, ht]
    omega
  · cases hl
    cases hp : kind p <;> simp_all [Kind.loop, Loop.lastActiveTime]

-- Messages and tasks are nothing to the loops.
theorem Watched.send (h : Watched cfg kind s) : Watched cfg kind (s.send p msg) := by
  refine ⟨h.inTime.send, fun q b hb => ?_, fun q l t hl => ?_, fun q l hl => ?_⟩
  · obtain hb | hb := mem_send hb
    · simpa using h.sent q b hb
    · simp [hb]
  · simpa using h.active q l t (by simpa using hl)
  · exact h.timed q l (by simpa using hl)

theorem Reads.wire (h : s.Reads p l o rest) :
    ∃ taken, s.wire p = taken ++ rest ∧ o.result.bytes = taken.map Prod.snd := by
  cases h
  case data taken _ _ ho hw => exact ⟨taken, hw, by simp [ho, ReadResult.bytes]⟩
  case timeout ho _         => exact ⟨[], rfl, by simp [ho, ReadResult.bytes]⟩
  case eof taken _ _ ho hw  => exact ⟨taken, hw, by simp [ho, ReadResult.bytes]⟩
  case failure ho           => exact ⟨[], rfl, by simp [ho, ReadResult.bytes]⟩

theorem turned_of_exit (h : ∀ r, l.turn o ≠ .next r) :
    s.turned w p l o rest = (s.setWire p rest).setPeer p { s.peer p with loop := none } := by
  cases ht : l.turn o
  case next r => exact absurd ht (h r)
  all_goals simp [turned, ht]

theorem turned_now : (s.turned w p l o rest).now = s.now := by
  unfold turned
  split <;> rfl

theorem turned_cut : (s.turned w p l o rest).cut = s.cut := by
  unfold turned
  split <;> rfl

-- What is left on the way was on the way before.
theorem mem_turned (hwire : s.wire p = taken ++ rest) (hb : b ∈ (s.turned w p l o rest).wire q) : b ∈ s.wire q := by
  have hset : (s.turned w p l o rest).wire = (s.setWire p rest).wire := by
    unfold turned
    split <;> rfl
  rw [hset] at hb
  obtain rfl | rfl := eq_or_eq_not p q
  · exact hwire ▸ List.mem_append_right _ (by simpa using hb)
  · simpa using hb

theorem InTime.closed (h : InTime cfg s) :
    InTime cfg ((s.setWire p rest).setPeer p { s.peer p with loop := none }) := by
  refine ⟨fun {q l} hq hd => ?_, fun {q b} hq hb => ?_, fun {q t} hq ht => ?_⟩
  all_goals obtain rfl | rfl := eq_or_eq_not p q
  · simp at hq
  · simpa using h.turns (by simpa using hq) hd
  · simp at hq
  · simpa using h.reads (by simpa using hq) (by simpa using hb)
  · simp at hq
  · simpa using h.answers (by simpa using hq) (by simpa using ht)

-- An end closes the connection, maybe after a last read.
theorem Watched.closed (h : Watched cfg kind s) (hwire : s.wire p = taken ++ rest) :
    Watched cfg kind ((s.setWire p rest).setPeer p { s.peer p with loop := none }) := by
  refine ⟨h.inTime.closed, fun q b hb => ?_, fun q l t hq => ?_, fun q l hq => ?_⟩
  all_goals obtain rfl | rfl := eq_or_eq_not p q
  · exact h.sent q b (hwire ▸ List.mem_append_right _ (by simpa using hb))
  · exact h.sent _ b (by simpa using hb)
  · simp at hq
  · simpa using h.active _ l t (by simpa using hq)
  · simp at hq
  · exact h.timed _ l (by simpa using hq)

theorem Watched.turn (h : Watched cfg kind s) (hl : (s.peer p).loop = some l) (hwire : s.wire p = taken ++ rest)
    (hnow : o.now = s.now + cfg.clock p) : Watched cfg kind (s.turned w p l o rest) := by
  by_cases hn : ∃ r, l.turn o = .next r
  case neg =>
    rw [turned_of_exit (not_exists.mp hn)]
    exact h.closed hwire
  case pos =>
    have hsent : ∀ q, ∀ b ∈ (s.turned w p l o rest).wire q, b.1 ≤ (s.turned w p l o rest).now :=
      fun q b hb => (h.sent q b (mem_turned hwire hb)).trans_eq turned_now.symm
    obtain ⟨⟨l', bodies⟩, hn⟩ := hn
    rw [turned_of_next hn] at hsent ⊢
    refine ⟨h.inTime.arrived (by simp [hl]) hwire (by simp), hsent, fun q l₁ t hq hd => ?_, fun q l₁ hq hk => ?_⟩
    all_goals obtain rfl | rfl := eq_or_eq_not p q
    · simp only [arrived_peer_self, Option.some.injEq] at hq
      subst hq
      simp only [arrived_peer_self, arrived_now]
      obtain ⟨_, ha⟩ | ⟨_, rfl, _, hk⟩ := Loop.turn_next hn
      · rw [ha, Option.map_eq_some_iff] at hd
        obtain ⟨_, _, rfl⟩ := hd
        omega
      · have hle := le_of_keepAlive (hk t hd)
        have hold := h.active q _ t hl hd
        omega
    · simpa using h.active _ l₁ t (by simpa using hq) hd
    · simp only [arrived_peer_self, Option.some.injEq] at hq
      subst hq
      have hold := h.timed q l hl hk
      obtain ⟨_, ha⟩ | ⟨_, rfl, _⟩ := Loop.turn_next hn
      · simpa [ha] using hold
      · exact hold
    · exact h.timed _ l₁ (by simpa using hq) hk

theorem Watched.step (h : Watched cfg kind s) (hstep : Step cfg w s e s') : Watched cfg kind s' := by
  cases hstep
  case tick d ht =>
    refine ⟨ht, fun p b hb => ?_, fun p l t hl hd => ?_, h.timed⟩
    · exact Int.le_trans (h.sent p b hb) (Int.le_add_of_nonneg_right (Int.natCast_nonneg d))
    · have hold := h.active p l t hl hd
      simp only
      omega
  case turn hl hreads hnow _ =>
    obtain ⟨_, hwire, _⟩ := hreads.wire
    exact h.turn hl hwire hnow
  case beat p l o rest msg hl hreads hnow _ _ =>
    obtain ⟨taken, hwire, _⟩ := hreads.wire
    split
    · have hsent : (s.send (!p) msg).wire p = taken ++ rest := by
        simpa [hwire] using send_wire_not (s := s) (p := !p)
      exact h.send.turn (by simpa using hl) hsent (by simpa using hnow)
    · exact h.turn hl hwire hnow
  case answer p before after t msg ho ht hm =>
    refine Watched.send ⟨h.inTime.setPeer rfl (.inl rfl) (mem_tasks ht), h.sent, fun q l t hq => ?_,
      fun q l hq => ?_⟩
    all_goals rw [setTasks_loop] at hq
    · rw [setTasks_turned]
      exact h.active q l t hq
    · exact h.timed q l hq
  case post => exact h.send
  case close p =>
    have hclosed := h.closed (show s.wire p = [] ++ s.wire p from rfl)
    rwa [setWire_self] at hclosed
  case cut arrived harrived =>
    refine ⟨⟨h.inTime.turns, fun hl hb => ?_, h.inTime.answers⟩, fun p b hb => ?_, h.active, h.timed⟩
    · exact h.inTime.reads hl ((harrived _).subset hb)
    · exact h.sent p b ((harrived p).subset hb)

-- After a cut at `T` only those bytes arrive that were sent before.
structure Dark (cfg : Timing) (T : Int) (s : Link) : Prop where
  cut    : s.cut = true
  wire   : ∀ p, ∀ b ∈ s.wire p, b.1 ≤ T
  active : ∀ p l t, (s.peer p).loop = some l → l.lastActiveTime = some t → t ≤ T + cfg.delivery + cfg.clock p

theorem Dark.send (h : Dark cfg T s) : s.send p msg = s := by
  simp [Link.send, h.cut]

theorem Dark.closed (h : Dark cfg T s) (hwire : ∀ q, ∀ b ∈ s'.wire q, b ∈ s.wire q) (hcut : s'.cut = s.cut)
    (hself : (s'.peer p).loop = none) (hother : (s'.peer !p).loop = (s.peer !p).loop) : Dark cfg T s' := by
  refine ⟨hcut.trans h.cut, fun q b hb => h.wire q b (hwire q b hb), fun q l t hq hd => ?_⟩
  obtain rfl | rfl := eq_or_eq_not p q
  · exact nomatch hself.symm.trans hq
  · exact h.active _ l t (hother.symm.trans hq) hd

theorem Dark.turn (h : Dark cfg T s) (ht : InTime cfg s) (hl : (s.peer p).loop = some l)
    (hreads : s.Reads p l o rest) (hnow : o.now = s.now + cfg.clock p) : Dark cfg T (s.turned w p l o rest) := by
  obtain ⟨taken, hwire, hbytes⟩ := hreads.wire
  have hmem : ∀ q, ∀ b ∈ (s.turned w p l o rest).wire q, b ∈ s.wire q := fun q b => mem_turned hwire
  by_cases hn : ∃ r, l.turn o = .next r
  case neg =>
    refine h.closed (p := p) hmem turned_cut ?_ ?_
    all_goals rw [turned_of_exit (not_exists.mp hn)]; simp
  case pos =>
    obtain ⟨⟨l', bodies⟩, hn⟩ := hn
    refine ⟨turned_cut.trans h.cut, fun q b hb => h.wire q b (hmem q b hb), fun q l₁ t hq hd => ?_⟩
    rw [turned_of_next hn] at hq
    obtain rfl | rfl := eq_or_eq_not p q
    · simp only [arrived_peer_self, Option.some.injEq] at hq
      subst hq
      obtain ⟨hne, ha⟩ | ⟨_, rfl, _⟩ := Loop.turn_next hn
      · -- The bytes were sent before the cut, and are read in time.
        rw [ha, Option.map_eq_some_iff] at hd
        obtain ⟨_, _, rfl⟩ := hd
        obtain ⟨b, taken', rfl⟩ := List.exists_cons_of_ne_nil (show taken ≠ [] by rintro rfl; exact hne hbytes)
        have hb : b ∈ s.wire q := by simp [hwire]
        have hread := ht.reads (by simp [hl]) hb
        have hsent := h.wire q b hb
        omega
      · exact h.active q _ t hl hd
    · exact h.active _ l₁ t (by simpa using hq) hd

theorem Dark.step (h : Dark cfg T s) (ht : InTime cfg s) (hstep : Step cfg w s e s') : Dark cfg T s' := by
  cases hstep
  case tick => exact ⟨h.cut, h.wire, h.active⟩
  case turn hl hreads hnow _ => exact h.turn ht hl hreads hnow
  case beat hl hreads hnow _ _ =>
    rw [h.send, ite_self]
    exact h.turn ht hl hreads hnow
  case answer =>
    rw [send_setPeer, h.send]
    exact ⟨h.cut, h.wire, fun q l t hq => h.active q l t (setTasks_loop q ▸ hq)⟩
  case post =>
    rw [h.send]
    exact h
  case close p => exact h.closed (p := p) (fun _ _ => id) rfl (by simp) (by simp)
  case cut harrived => exact ⟨rfl, fun p b hb => h.wire p b ((harrived p).subset hb), h.active⟩

-- The ends with a deadline find out that the other one cannot be reached, within 20 seconds, one turn and the time
-- of a delivery, since what has arrived before the cut is still read.
theorem cut_noticed {es₁ es₂ : List Event} {s₁ : Link} (h₁ : Exec (Step cfg w) (connected cfg kind now) es₁ s₁)
    (h₂ : Exec (Step cfg w) s₁ (.cut :: es₂) s) (hk : kind p ≠ .gateProxy)
    (hlate : s₁.now + 20 * 1000 + cfg.delivery + cfg.period < s.now) : (s.peer p).loop = none := by
  have hw₁ : Watched cfg kind s₁ := h₁.preserves .connected fun _ _ _ => Watched.step
  obtain ⟨hwatched, hdark⟩ : Watched cfg kind s ∧ Dark cfg s₁.now s := by
    obtain ⟨s₂, hcut, h₂⟩ := Exec.cons_iff.mp h₂
    have hw₂ := hw₁.step hcut
    refine h₂.preserves (I := fun s => Watched cfg kind s ∧ Dark cfg s₁.now s) ⟨hw₂, ?_⟩
      fun _ _ _ h hs => ⟨h.1.step hs, h.2.step h.1.inTime hs⟩
    cases hcut
    refine ⟨rfl, hw₂.sent, fun p l t hl hd => ?_⟩
    have hold := (hw₁.active p l t hl hd).1
    omega
  by_contra hopen
  obtain ⟨l, hl⟩ := Option.ne_none_iff_exists'.mp hopen
  have hd := hwatched.timed p l hl hk
  obtain ⟨t, ht⟩ := Option.isSome_iff_exists.mp hd
  have hturn := hwatched.inTime.turns hl hd
  have hsilent := (hwatched.active p l t hl ht).2
  have hlast := hdark.active p l t hl ht
  omega

-- A deadline passes at an end that has been silent for too long.
theorem Step.leave (hl : (s.peer p).loop = some l) (hd : l.lastActiveTime = some t) (ho : o.result = .timeout)
    (hb : o.heartBeat = true) (hnow : o.now = s.now + cfg.clock p) (hok : o.state = .ok)
    (hlt : 20 * 1000 < o.now - t) : Step cfg w s (.turn p o) (s.setPeer p { s.peer p with loop := none }) := by
  have hreads : s.Reads p l o (s.wire p) := .timeout (Option.isSome_iff_exists.mpr ⟨t, hd⟩) ho (.inl hb)
  have hbeat : l.heartBeat o = false := by
    rw [Bool.eq_false_iff, Ne, heartBeat_of_timeout ho hok hd]
    omega
  have hexit (r : Loop × List Bytes) : l.turn o ≠ .next r := by
    intro hn
    obtain ⟨hne, _⟩ | ⟨_, _, _, hk⟩ := Loop.turn_next hn
    · exact hne (by simp [ho, ReadResult.bytes])
    · have hle := le_of_keepAlive (hk t hd)
      omega
  have hstep : Step cfg w s (.turn p o) _ := .turn hl hreads hnow hbeat
  rwa [turned_of_exit hexit, setWire_self] at hstep

-- Both ends have closed the connection.
def demoClosed (now : Int) : Link where
  now    := now
  peer _ := ⟨none, 20000, []⟩
  wire _ := []
  cut    := true

theorem demoLink_close :
    Exec (Step demoTiming Wire.msgpack) (demoLink true 25000 fun _ => 20000)
      [.turn false (demoTimeout false 25000), .turn true (demoTimeout true 25000), .tick 1001] (demoClosed 26001) := by
  have hfirst : Step demoTiming Wire.msgpack (demoLink true 25000 fun _ => 20000)
      (.turn false (demoTimeout false 25000)) _ :=
    .leave rfl rfl rfl rfl rfl rfl (by decide)
  have hlast : Step demoTiming Wire.msgpack ((demoLink true 25000 fun _ => 20000).setPeer false ⟨none, 20000, []⟩)
      (.turn true (demoTimeout true 25000)) _ :=
    .leave rfl rfl rfl rfl rfl rfl (by decide)
  have hclosed : ((demoLink true 25000 fun _ => 20000).setPeer false ⟨none, 20000, []⟩).setPeer true
      ⟨none, 20000, []⟩ = demoClosed 25000 := by
    simp only [setPeer, demoLink, demoClosed, Link.mk.injEq, true_and, and_true]
    funext p
    cases p <;> rfl
  have htick : Step demoTiming Wire.msgpack (demoClosed 25000) (.tick 1001) (demoClosed 26001) := by
    refine .tick ⟨fun hl _ => ?_, fun _ hb => ?_, fun _ ht => ?_⟩
    · cases hl
    · cases hb
    · cases ht
  exact .cons hfirst (.cons hlast (hclosed ▸ .single htick))

theorem cut_noticed_closed :
    ∃ es s, Exec (Step demoTiming Wire.msgpack) (connected demoTiming demoKind 0) (.cut :: es) s ∧
      s.now = 26001 ∧ ∀ p, (s.peer p).loop = none := by
  have hcut : Step demoTiming Wire.msgpack (connected demoTiming demoKind 0) .cut (demoLink true 0 fun _ => 0) :=
    connected_eq_demoLink ▸ .cut fun _ => List.prefix_rfl
  have hrounds := (((demoLink_round true 0 (by decide) (.inr rfl)).trans
    (demoLink_round true 5000 (by decide) (.inr rfl))).trans
    (demoLink_round true 10000 (by decide) (.inr rfl))).trans
    (demoLink_round true 15000 (by decide) (.inr rfl))
  have hrun := (hrounds.snoc (demoLink_tick 5000 fun _ => by decide)).trans demoLink_close
  have hclosed (p : Side) := cut_noticed (p := p) .refl (.cons hcut hrun) (by cases p <;> decide) (by decide)
  exact ⟨_, _, .cons hcut hrun, rfl, hclosed⟩

end Link
