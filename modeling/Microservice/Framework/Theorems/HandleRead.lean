import Microservice.Framework.HandleRead
import Microservice.Framework.Theorems.SimpleRpc

namespace RecvBuf

variable {σ : Type*} {rpcDecode : σ → Bytes → σ} {s s₀ : σ} {b : RecvBuf}

-- `recvBuf[:remainLen]`, the bytes that are received and not yet decoded.
def received (b : RecvBuf) : Option Bytes :=
  b.recvBuf.slice 0 b.remainLen.toNat

theorem received_eq_some_iff {bs : Bytes} :
    b.received = some bs ↔
      b.remainLen.toNat ≤ b.recvBuf.length ∧ b.recvBuf.take b.remainLen.toNat = bs := by
  simp [received, Bytes.slice]

theorem received_length {bs : Bytes} (h : b.received = some bs) : bs.length = b.remainLen.toNat := by
  have ⟨hl, h⟩ := received_eq_some_iff.mp h
  rw [←h, List.length_take]
  omega

theorem make_received : make.received = some [] := by
  simp [received_eq_some_iff, make]

theorem recvBuf_length (b : RecvBuf) : b.recvBuf.length = 10485760 :=
  b.size_eq

theorem read_remainLen {bs chunk : Bytes} (h : b.received = some bs) (hf : chunk.length ≤ b.free) :
    (b.read chunk).remainLen.toNat = b.remainLen.toNat + chunk.length := by
  have ⟨hl, _⟩ := received_eq_some_iff.mp h
  have hb := b.recvBuf_length
  rw [free] at hf
  rw [read, UInt32.toNat_add, UInt32.toNat_ofNat']
  omega

-- A read that fits appends its bytes to the received ones.
theorem read_received {bs chunk : Bytes} (h : b.received = some bs) (hf : chunk.length ≤ b.free) :
    (b.read chunk).received = some (bs ++ chunk) := by
  have hc := read_remainLen h hf
  have ⟨hl, h⟩ := received_eq_some_iff.mp h
  have hb := b.recvBuf_length
  rw [free] at hf
  have ht : (b.recvBuf.take b.remainLen.toNat).length = b.remainLen.toNat := by simp [hl]
  refine received_eq_some_iff.mpr ⟨?_, ?_⟩
  · rw [hc, (b.read chunk).recvBuf_length]
    omega
  · rw [hc, ←h]
    simp only [read, Bytes.copy, List.length_drop, List.take_of_length_le hf, ←List.append_assoc]
    exact List.take_left' (by simp [hl])

-- How much of the buffer is decoded, and what is behind it.
theorem decoded (rpcDecode : σ → Bytes → σ) (s : σ) {bs : Bytes} (h : b.received = some bs) :
    ∃ procLen,
      SimpleRpc.messageDecode rpcDecode bs s = some (procLen, (Packet.parse bs).1.foldl rpcDecode s) ∧
      procLen ≤ b.remainLen ∧ (b.remainLen - procLen).toNat = (Packet.parse bs).2.length ∧
      b.recvBuf.slice procLen.toNat (procLen + (b.remainLen - procLen)).toNat =
        some (Packet.parse bs).2 := by
  have hl := received_length h
  have ⟨hr, hbs⟩ := received_eq_some_iff.mp h
  have hb := b.recvBuf_length
  have ht := Packet.parse_tail_length_le bs
  have hd := Packet.drop_eq_parse_tail bs
  have hm : SimpleRpc.messageDecode rpcDecode bs s = _ := SimpleRpc.messageDecode_eq (by omega)
  generalize Packet.parse bs = p at ht hd hm
  have hp : (UInt32.ofNat (bs.length - p.2.length)).toNat = bs.length - p.2.length := by
    rw [UInt32.toNat_ofNat']
    omega
  generalize UInt32.ofNat (bs.length - p.2.length) = procLen at hp hm
  have hle : procLen ≤ b.remainLen := UInt32.le_iff_toNat_le.mpr (by omega)
  have hn : (b.remainLen - procLen).toNat = p.2.length := by
    rw [UInt32.toNat_sub_of_le _ _ hle, hp]
    omega
  have ha : (procLen + (b.remainLen - procLen)).toNat = b.remainLen.toNat := by
    rw [UInt32.toNat_add, hn, hp]
    omega
  refine ⟨procLen, hm, hle, hn, ?_⟩
  rw [ha, hp, Bytes.slice, if_pos ⟨by omega, hr⟩, hbs, hd]

-- Decoding hands the received bodies over and leaves the tail at the front of the buffer.
theorem decode_eq (rpcDecode : σ → Bytes → σ) (s : σ) {bs : Bytes} (h : b.received = some bs) :
    ∃ b', b.decode rpcDecode s = some (b', (Packet.parse bs).1.foldl rpcDecode s) ∧
      b'.received = some (Packet.parse bs).2 := by
  have hb := b.recvBuf_length
  have ht : (Packet.parse bs).2.length ≤ b.recvBuf.length := by
    have hl := received_length h
    have ⟨hr, _⟩ := received_eq_some_iff.mp h
    have hle := Packet.parse_tail_length_le bs
    omega
  obtain ⟨procLen, hm, _, hn, hs⟩ := decoded rpcDecode s h
  generalize Packet.parse bs = p at ht hm hn hs
  refine ⟨⟨b.recvBuf.copy p.2, b.remainLen - procLen, (Bytes.length_copy ..).trans b.size_eq⟩, ?_, ?_⟩
  · rw [received] at h
    simp only [decode, h, hm, Option.bind_some, hs, Option.map_some]
    exact if_neg (UInt32.not_lt_zero)
  · refine received_eq_some_iff.mpr ⟨?_, ?_⟩
    · rw [hn, Bytes.length_copy]
      omega
    · simp only [hn, Bytes.copy, List.take_of_length_le ht]
      exact List.take_left' rfl

-- The state of a read loop that has received `stream` so far.
structure Parsed (rpcDecode : σ → Bytes → σ) (s₀ : σ) (stream : Bytes) (b : RecvBuf) (s : σ) :
    Prop where
  handed : s = (Packet.parse stream).1.foldl rpcDecode s₀
  tail   : b.received = some (Packet.parse stream).2

theorem Parsed.make : Parsed rpcDecode s₀ [] make s₀ where
  handed := by simp [Packet.parse_nil]
  tail   := by simp [Packet.parse_nil, make_received]

-- The test for an overflow succeeds for no buffer that is at most full.
def Admits (overflow : UInt32 → Bool) : Prop :=
  ∀ l, l ≤ recvBufMaxLen → overflow l = false

-- A read that fits keeps the loop running, and the received bytes parsed as the reference does.
theorem Parsed.receive {overflow : UInt32 → Bool} {stream chunk : Bytes} (ha : Admits overflow)
    (h : Parsed rpcDecode s₀ stream b s) (hf : chunk.length ≤ b.free) :
    ∃ b' s', b.receive overflow rpcDecode chunk s = .next (b', s') ∧
      Parsed rpcDecode s₀ (stream ++ chunk) b' s' := by
  have hr := read_received h.tail hf
  have ⟨hl, _⟩ := received_eq_some_iff.mp hr
  have ⟨b', hd, ht⟩ := decode_eq rpcDecode s hr
  have hn : b.receive overflow rpcDecode chunk s =
      .next (b', (Packet.parse ((Packet.parse stream).2 ++ chunk)).1.foldl rpcDecode s) := by
    rw [RecvBuf.receive, ha _ (UInt32.le_iff_toNat_le.mpr (size_eq _ ▸ hl)), hd]
    exact if_neg Bool.false_ne_true
  have happ := Packet.parse_append stream chunk
  exact ⟨b', _, hn, by rw [happ, List.foldl_append, ←h.handed], by rw [happ, ht]⟩

end RecvBuf

theorem TcpClient.overflow_admits : RecvBuf.Admits overflow := by
  intro l hl
  simp [overflow, UInt32.not_lt.mpr hl]

theorem Remote.overflow_admits : RecvBuf.Admits overflow := by
  intro l hl
  simp [overflow, UInt32.not_lt.mpr hl]

namespace ReadLoop

variable {σ γ : Type*}

-- The turns of a read loop that go on to the next one. `buf` is the buffer of a connection.
def Step (turn : Observed → γ → σ → Turn (γ × σ)) (buf : γ → RecvBuf) :
    γ × σ → Observed → γ × σ → Prop :=
  fun (c, s) o c' => Readable (buf c) o ∧ turn o c s = .next c'

def stream (os : List Observed) : Bytes :=
  os.flatMap (·.result.bytes)

-- All that a turn does is to receive the bytes that were read, if there are any. A loop that is not
-- running takes no turn.
structure Lawful (rpcDecode : σ → Bytes → σ) (turn : Observed → γ → σ → Turn (γ × σ))
    (buf : γ → RecvBuf) (alive : Observed → Prop) (overflow : UInt32 → Bool) : Prop where
  admits  : RecvBuf.Admits overflow
  running : turn o c s = .next c' → alive o
  silent  : turn o c s = .next (c', s') → o.result.bytes = [] → buf c' = buf c ∧ s' = s
  reads   : alive o → 0 < o.result.bytes.length →
    (buf c).receive overflow rpcDecode o.result.bytes s = .next (b, s') →
    ∃ c', turn o c s = .next (c', s') ∧ buf c' = b

variable {rpcDecode : σ → Bytes → σ} {turn : Observed → γ → σ → Turn (γ × σ)} {buf : γ → RecvBuf}
  {alive : Observed → Prop} {overflow : UInt32 → Bool} {s s₀ : σ} {c c₀ : γ} {o : Observed}
  {os : List Observed} {b : RecvBuf} {bytes : Bytes}

theorem Readable.fits (h : Readable b o) : o.result.bytes.length ≤ b.free := by
  cases hr : o.result
  case data chunk => exact (h chunk <| .inl hr).2
  case eof chunk  => exact (h chunk <| .inr hr).2
  all_goals simp [ReadResult.bytes]

theorem Lawful.receive (l : Lawful rpcDecode turn buf alive overflow) (hr : alive o)
    (hb : 0 < o.result.bytes.length) (hf : Readable (buf c) o)
    (hp : (buf c).Parsed rpcDecode s₀ bytes s) :
    ∃ c' s', turn o c s = .next (c', s') ∧
      (buf c').Parsed rpcDecode s₀ (bytes ++ o.result.bytes) s' := by
  have ⟨b, s', hn, hp⟩ := hp.receive l.admits hf.fits
  have ⟨c', ht, hc⟩ := l.reads hr hb hn
  exact ⟨c', s', ht, hc ▸ hp⟩

-- Every run of a read loop has handed over what the reference parser finds in the bytes read so
-- far, and holds its tail.
theorem Lawful.parsed (l : Lawful rpcDecode turn buf alive overflow) (hc : buf c₀ = .make)
    (h : Exec (Step turn buf) (c₀, s₀) os (c, s)) :
    (buf c).Parsed rpcDecode s₀ (stream os) s := by
  refine h.invariant (I := fun os c => (buf c.1).Parsed rpcDecode s₀ (stream os) c.2) ?_ ?_
  · exact hc ▸ .make
  · intro os ⟨c, s⟩ o ⟨c', s'⟩ _ hp ⟨hf, ht⟩
    have hs : stream (os ++ [o]) = stream os ++ o.result.bytes := by simp [stream]
    rw [hs]
    by_cases hb : 0 < o.result.bytes.length
    case pos =>
      have ⟨_, _, ht', hp'⟩ := l.receive (l.running ht) hb hf hp
      cases ht.symm.trans ht'
      exact hp'
    case neg =>
      have he := List.eq_nil_of_length_eq_zero (Nat.eq_zero_of_not_pos hb)
      have ⟨hb, hs⟩ := l.silent ht he
      simpa [he, hb, hs] using hp

-- What it means for a read loop to decode like the reference parser over the whole stream: whatever
-- the cuts between the reads, the bodies of the reference are handed over, in order and each once,
-- the tail is what remains in the buffer, and no read ends the loop while it is running.
def Streams (rpcDecode : σ → Bytes → σ) (turn : Observed → γ → σ → Turn (γ × σ))
    (buf : γ → RecvBuf) (alive : Observed → Prop) (c₀ : γ) (s₀ : σ) : Prop :=
  ∀ os c s, Exec (Step turn buf) (c₀, s₀) os (c, s) →
    s = (Packet.parse (stream os)).1.foldl rpcDecode s₀ ∧
    (buf c).received = some (Packet.parse (stream os)).2 ∧
    ∀ o, alive o → 0 < o.result.bytes.length → Readable (buf c) o →
      ∃ c' s', Exec (Step turn buf) (c₀, s₀) (os ++ [o]) (c', s')

theorem Lawful.streams (l : Lawful rpcDecode turn buf alive overflow) (hc : buf c₀ = .make) :
    Streams rpcDecode turn buf alive c₀ s₀ := by
  intro os c s h
  have hp := l.parsed hc h
  refine ⟨hp.handed, hp.tail, ?_⟩
  intro o hr hb hf
  have ⟨c', s', ht, _⟩ := l.receive hr hb hf hp
  exact ⟨c', s', h.snoc ⟨hf, ht⟩⟩

end ReadLoop

namespace Turn

variable {γ : Type*} {p : Prop} [Decidable p] {t : Turn γ} {c : γ}

@[simp]
theorem ite_exit_eq_next_iff : (if p then .exit else t) = .next c ↔ ¬p ∧ t = .next c := by
  by_cases h : p <;> simp [h]

@[simp]
theorem ite_eq_next_iff : (if p then t else .exit) = .next c ↔ p ∧ t = .next c := by
  by_cases h : p <;> simp [h]

end Turn

namespace ReadLoop

variable {σ : Type*} (rpcDecode : σ → Bytes → σ)

theorem tcpClient_lawful :
    Lawful rpcDecode (TcpClient.turn rpcDecode) TcpClient.toRecvBuf (·.state ≠ .exit)
      TcpClient.overflow where
  admits := TcpClient.overflow_admits
  running {o c s c'} h := by
    by_cases hs : o.state = .exit <;> simp_all [TcpClient.turn]
  silent {o c s c' s'} h he := by
    cases hres : o.result <;> simp_all [ReadResult.bytes, TcpClient.turn]
  reads {o c s b s'} hr hb hn := by
    cases hres : o.result <;> simp only [hres, ReadResult.bytes, List.length_nil, Nat.lt_irrefl] at hb hn
    all_goals
      have he := Nat.ne_of_gt hb
      exact ⟨⟨b, o.now⟩, by simp [TcpClient.turn, hres, hr, he, hn, Turn.map], rfl⟩

theorem foldl_collect (bodies bodies' : List Bytes) :
    bodies'.foldl collect bodies = bodies ++ bodies' := by
  induction bodies' generalizing bodies
  case nil          => simp
  case cons body hi => simp [collect, hi]

-- A read hands over the bodies that it completes.
theorem turn_collect {o : Observed} {tcp : TcpClient} {tail : Bytes} (ho : o.state ≠ .exit)
    (hf : Readable tcp.toRecvBuf o) (hr : tcp.received = some tail)
    (ht : Packet.split tail = none) (hb : o.result.bytes ≠ []) :
    ∃ tcp', TcpClient.turn collect o tcp [] = .next (tcp', (Packet.parse (tail ++ o.result.bytes)).1) ∧
      tcp'.received = some (Packet.parse (tail ++ o.result.bytes)).2 := by
  have hp : tcp.Parsed collect [] tail [] :=
    ⟨by simp [Packet.parse_of_none ht], by simp [Packet.parse_of_none ht, hr]⟩
  have ⟨tcp', bodies, hn, hp'⟩ :=
    (tcpClient_lawful collect).receive ho (List.length_pos_iff.mpr hb) hf hp
  have hbodies := hp'.handed
  rw [foldl_collect, List.nil_append] at hbodies
  exact ⟨tcp', hbodies ▸ hn, hp'.tail⟩

theorem remote_lawful :
    Lawful rpcDecode (Remote.turn rpcDecode) Remote.Conn.toRecvBuf (fun _ => True)
      Remote.overflow where
  admits := Remote.overflow_admits
  running _ := trivial
  silent {o c s c' s'} h he := by
    cases hres : o.result <;> simp_all [ReadResult.bytes, Remote.turn]
  reads {o c s b s'} _ hb hn := by
    cases hres : o.result <;> simp only [hres, ReadResult.bytes, List.length_nil, Nat.lt_irrefl] at hb hn
    all_goals
      have he := Nat.ne_of_gt hb
      exact ⟨⟨b, o.now⟩, by simp [Remote.turn, hres, he, hn, Turn.map], rfl⟩

theorem gateProxy_lawful :
    Lawful rpcDecode (GateProxy.turn rpcDecode) id (fun _ => True) GateProxy.overflow where
  admits := Remote.overflow_admits
  running _ := trivial
  silent {o c s c' s'} h he := by
    cases hres : o.result <;> simp_all [ReadResult.bytes, GateProxy.turn]
  reads {o c s b s'} _ hb hn := by
    cases hres : o.result <;> simp only [hres, ReadResult.bytes, List.length_nil, Nat.lt_irrefl] at hb hn
    all_goals
      have he := Nat.ne_of_gt hb
      exact ⟨b, by simpa [GateProxy.turn, hres, he] using hn, rfl⟩

-- The three copies of the read loop decode a stream like the reference parser does.
theorem handleRead_streams (s₀ : σ) (now : Int) :
    Streams rpcDecode (TcpClient.turn rpcDecode) TcpClient.toRecvBuf (·.state ≠ .exit)
      ⟨.make, now⟩ s₀ ∧
    Streams rpcDecode (Remote.turn rpcDecode) Remote.Conn.toRecvBuf (fun _ => True)
      ⟨.make, now⟩ s₀ ∧
    Streams rpcDecode (GateProxy.turn rpcDecode) id (fun _ => True) .make s₀ :=
  ⟨(tcpClient_lawful rpcDecode).streams rfl, (remote_lawful rpcDecode).streams rfl,
    (gateProxy_lawful rpcDecode).streams rfl⟩

end ReadLoop
