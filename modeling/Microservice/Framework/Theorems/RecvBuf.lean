import Microservice.Framework.Theorems.Frames

namespace SimpleRpc

variable {σ : Type*} {rpcDecode : σ → Bytes → σ} {msg : Bytes} {s : σ} {offset pkgLen : UInt32}

-- The loop of `MessageDecode` finds a complete packet behind `offset`.
structure messageDecode.Complete (msg : Bytes) (offset pkgLen : UInt32) : Prop where
  more : offset < UInt32.ofNat msg.length
  size : ¬(UInt32.ofNat msg.length - offset < messageSizeLen)
  read : (msg.slice offset.toNat msg.length).bind readPacketLen = some pkgLen
  fits : ¬(UInt32.ofNat msg.length - offset < messageSizeLen + pkgLen)

-- The offsets with which the turns of the loop begin.
inductive messageDecode.Visits (msg : Bytes) : UInt32 → Prop
  | start : Visits msg 0
  | next {o l : UInt32} : Visits msg o → Complete msg o l → Visits msg (o + messageSizeLen + l)

namespace messageDecode

theorem toNat_ofNat_length_le : (UInt32.ofNat msg.length).toNat ≤ msg.length := by
  rw [UInt32.toNat_ofNat']
  exact Nat.mod_le ..

theorem Complete.bounds (h : Complete msg offset pkgLen) :
    (offset + messageSizeLen).toNat = offset.toNat + 2 ∧
    (offset + messageSizeLen + pkgLen).toNat = offset.toNat + 2 + pkgLen.toNat ∧
    offset.toNat + 2 + pkgLen.toNat ≤ msg.length := by
  obtain ⟨_, _, hp⟩ := Option.bind_eq_some_iff.mp h.read
  obtain ⟨h₁, h₂, hle⟩ := next_offset_toNat h.more (readPacketLen_lt hp) h.fits
  exact ⟨h₁, h₂, Nat.le_trans hle toNat_ofNat_length_le⟩

theorem Visits.le (h : Visits msg offset) : offset.toNat ≤ msg.length := by
  cases h
  case start   => exact Nat.zero_le _
  case next hc =>
    obtain ⟨_, he, hle⟩ := hc.bounds
    omega

-- The loop ends with an offset that it visits.
theorem visits_of_loop {procLen : UInt32} {s' : σ} (hv : Visits msg offset)
    (h : loop rpcDecode msg (UInt32.ofNat msg.length) offset s = some (procLen, s')) :
    Visits msg procLen := by
  induction offset, s using messageDecode.loop.induct rpcDecode msg (UInt32.ofNat msg.length)
  case case1 offset s h₁ h₂ =>
    rw [loop, dif_pos h₁, if_pos h₂] at h
    cases h
    exact hv
  case case2 offset s h₁ h₂ h₃ =>
    obtain ⟨_, hl⟩ := exists_packetLen h₁ h₂ toNat_ofNat_length_le
    cases h₃.symm.trans hl
  case case3 offset s h₁ h₂ pkgLen h₃ h₄ =>
    rw [loop_packet h₁ h₂ h₃, if_pos h₄] at h
    cases h
    exact hv
  case case4 offset s h₁ h₂ pkgLen h₃ h₄ h₅ hi =>
    rw [loop_packet h₁ h₂ h₃, if_neg h₄, if_pos h₅] at h
    exact hi (hv.next ⟨h₁, h₂, h₃, h₄⟩) h
  case case5 offset s h₁ h₂ pkgLen h₃ h₄ h₅ h₆ =>
    rw [loop_packet h₁ h₂ h₃, if_neg h₄, if_neg h₅, h₆] at h
    cases h
  case case6 offset s h₁ h₂ pkgLen h₃ h₄ h₅ buf h₆ hi =>
    rw [loop_packet h₁ h₂ h₃, if_neg h₄, if_neg h₅, h₆] at h
    exact hi (hv.next ⟨h₁, h₂, h₃, h₄⟩) h
  case case7 offset s h₁ =>
    rw [loop, dif_neg h₁] at h
    cases h
    exact hv

end messageDecode

open messageDecode in
-- Every buffer is decoded to the end. No offset on the way is behind the end of the buffer.
theorem messageDecode_bounds (rpcDecode : σ → Bytes → σ) (msg : Bytes) (s : σ) :
    (∃ procLen s', messageDecode rpcDecode msg s = some (procLen, s') ∧ Visits msg procLen) ∧
    ∀ offset, Visits msg offset → offset.toNat ≤ msg.length ∧
      ∀ pkgLen, Complete msg offset pkgLen →
        (offset + messageSizeLen).toNat ≤ msg.length ∧
        (offset + messageSizeLen + pkgLen).toNat ≤ msg.length := by
  have hlt := Nat.mod_lt msg.length (show 2 ^ 32 > 0 by decide)
  constructor
  case left =>
    have hd : messageDecode rpcDecode msg s = _ :=
      (messageDecode_eq_take msg).trans (messageDecode_eq (by rw [List.length_take]; omega))
    exact ⟨_, _, hd, visits_of_loop .start hd⟩
  case right =>
    intro offset hv
    refine ⟨hv.le, fun pkgLen hc => ?_⟩
    obtain ⟨h₁, h₂, hle⟩ := hc.bounds
    omega

end SimpleRpc

namespace RecvBuf

variable {σ : Type*} {rpcDecode : σ → Bytes → σ} {s s₀ : σ} {b : RecvBuf} {chunk stream : Bytes}
  {overflow : UInt32 → Bool}

-- The decoding of a buffer: all slices are in range, and nothing is taken off `remainLen` that is not in it.
def Decodes (rpcDecode : σ → Bytes → σ) (b : RecvBuf) (s : σ) : Prop :=
  ∃ msg procLen s', b.recvBuf.slice 0 b.remainLen.toNat = some msg ∧
    SimpleRpc.messageDecode rpcDecode msg s = some (procLen, s') ∧ procLen ≤ b.remainLen ∧
    (b.remainLen - procLen).toNat = b.remainLen.toNat - procLen.toNat ∧ ¬(b.remainLen - procLen < 0) ∧
    (b.recvBuf.slice procLen.toNat (procLen + (b.remainLen - procLen)).toNat).isSome

-- What holds at the start of each turn of a read loop: of the buffer, and of every read that may follow.
structure Safe (overflow : UInt32 → Bool) (rpcDecode : σ → Bytes → σ) (b : RecvBuf) (s : σ) : Prop where
  remain : b.remainLen ≤ SimpleRpc.messageSizeLen + 65534
  free   : 0 < b.free
  reads  : ∀ chunk, chunk.length ≤ b.free →
    (b.read chunk).remainLen.toNat = b.remainLen.toNat + chunk.length ∧
    (b.read chunk).remainLen ≤ recvBufMaxLen ∧ overflow (b.read chunk).remainLen = false ∧
    Decodes rpcDecode (b.read chunk) s

theorem decodes_of_received {bs : Bytes} (h : b.received = some bs) : Decodes rpcDecode b s := by
  obtain ⟨procLen, hm, hle, _, hs⟩ := decoded rpcDecode s h
  refine ⟨bs, procLen, _, h, hm, hle, ?_, UInt32.not_lt_zero, ?_⟩
  · exact UInt32.toNat_sub_of_le _ _ hle
  · exact Option.isSome_iff_exists.mpr ⟨_, hs⟩

theorem Parsed.safe (ha : Admits overflow) (h : Parsed rpcDecode s₀ stream b s) :
    Safe overflow rpcDecode b s := by
  have htail := Packet.length_le_of_split_eq_none (Packet.split_parse_tail stream)
  rw [received_length h.tail] at htail
  have hlen := b.recvBuf_length
  constructor
  case remain => exact UInt32.le_iff_toNat_le.mpr htail
  case free   => rw [RecvBuf.free]; omega
  case reads  =>
    intro chunk hf
    have hr := read_received h.tail hf
    obtain ⟨hle, _⟩ := received_eq_some_iff.mp hr
    have hmax : (b.read chunk).remainLen ≤ recvBufMaxLen :=
      UInt32.le_iff_toNat_le.mpr (size_eq _ ▸ hle)
    exact ⟨read_remainLen h.tail hf, hmax, ha _ hmax, decodes_of_received hr⟩

end RecvBuf

namespace Turn

variable {γ : Type*} {p : Prop} [Decidable p] {t : Turn γ}

@[simp]
theorem ite_exit_eq_panic_iff : (if p then .exit else t) = .panic ↔ ¬p ∧ t = .panic := by
  by_cases h : p <;> simp [h]

@[simp]
theorem ite_eq_panic_iff : (if p then t else .exit) = .panic ↔ p ∧ t = .panic := by
  by_cases h : p <;> simp [h]

end Turn

namespace ReadLoop

variable {σ γ : Type*} {rpcDecode : σ → Bytes → σ} {turn : Observed → γ → σ → Turn (γ × σ)}
  {buf : γ → RecvBuf} {alive : Observed → Prop} {overflow : UInt32 → Bool} {s₀ : σ} {c₀ : γ}

-- The arithmetic of a read loop is safe at the start of each of its turns, and no turn panics.
def Safe (overflow : UInt32 → Bool) (rpcDecode : σ → Bytes → σ)
    (turn : Observed → γ → σ → Turn (γ × σ)) (buf : γ → RecvBuf) (c₀ : γ) (s₀ : σ) : Prop :=
  ∀ os c s, Exec (Step turn buf) (c₀, s₀) os (c, s) →
    (buf c).Safe overflow rpcDecode s ∧ ∀ o, Readable (buf c) o → turn o c s ≠ .panic

-- A turn that panics has got bytes.
theorem Lawful.safe (l : Lawful rpcDecode turn buf alive overflow) (hc : buf c₀ = .make)
    (hp : ∀ o c s, turn o c s = .panic → alive o ∧ 0 < o.result.bytes.length) :
    Safe overflow rpcDecode turn buf c₀ s₀ := by
  intro os c s h
  have hparsed := l.parsed hc h
  refine ⟨hparsed.safe l.admits, fun o ho hn => ?_⟩
  obtain ⟨halive, hb⟩ := hp o c s hn
  obtain ⟨_, _, ht, _⟩ := l.receive halive hb ho hparsed
  cases hn.symm.trans ht

theorem bytes_of_tcpClient_panic {o : Observed} {c : TcpClient} {s : σ}
    (h : TcpClient.turn rpcDecode o c s = .panic) : o.state ≠ .exit ∧ 0 < o.result.bytes.length := by
  simp only [TcpClient.turn, Turn.ite_exit_eq_panic_iff] at h
  refine ⟨h.1, ?_⟩
  cases hres : o.result <;> simp_all [ReadResult.bytes, List.length_pos_iff]

theorem bytes_of_remote_panic {o : Observed} {c : Remote.Conn} {s : σ}
    (h : Remote.turn rpcDecode o c s = .panic) : 0 < o.result.bytes.length := by
  unfold Remote.turn at h
  cases hres : o.result <;> simp_all [ReadResult.bytes, List.length_pos_iff]

theorem bytes_of_gateProxy_panic {o : Observed} {b : RecvBuf} {s : σ}
    (h : GateProxy.turn rpcDecode o b s = .panic) : 0 < o.result.bytes.length := by
  unfold GateProxy.turn at h
  cases hres : o.result <;> simp_all [ReadResult.bytes, List.length_pos_iff]

theorem handleRead_safe (rpcDecode : σ → Bytes → σ) (s₀ : σ) (now : Int) :
    Safe TcpClient.overflow rpcDecode (TcpClient.turn rpcDecode) TcpClient.toRecvBuf ⟨.make, now⟩ s₀ ∧
    Safe Remote.overflow rpcDecode (Remote.turn rpcDecode) Remote.Conn.toRecvBuf ⟨.make, now⟩ s₀ ∧
    Safe GateProxy.overflow rpcDecode (GateProxy.turn rpcDecode) id .make s₀ ∧
    ∀ msg s, (∃ procLen s', SimpleRpc.messageDecode rpcDecode msg s = some (procLen, s') ∧
        SimpleRpc.messageDecode.Visits msg procLen) ∧
      ∀ offset, SimpleRpc.messageDecode.Visits msg offset → offset.toNat ≤ msg.length ∧
        ∀ pkgLen, SimpleRpc.messageDecode.Complete msg offset pkgLen →
          (offset + SimpleRpc.messageSizeLen).toNat ≤ msg.length ∧
          (offset + SimpleRpc.messageSizeLen + pkgLen).toNat ≤ msg.length := by
  refine ⟨(tcpClient_lawful rpcDecode).safe rfl ?_, (remote_lawful rpcDecode).safe rfl ?_,
    (gateProxy_lawful rpcDecode).safe rfl ?_, SimpleRpc.messageDecode_bounds rpcDecode⟩
  · exact fun o c s h => bytes_of_tcpClient_panic h
  · exact fun o c s h => ⟨trivial, bytes_of_remote_panic h⟩
  · exact fun o b s h => ⟨trivial, bytes_of_gateProxy_panic h⟩

end ReadLoop
