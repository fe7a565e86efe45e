import Microservice.Framework.Theorems.HandleRead
import Microservice.Framework.Theorems.RpcDecode

namespace SimpleRpc

variable {σ : Type*} {rpcDecode : σ → Bytes → σ} {msg body : Bytes} {bodies : List Bytes} {s : σ}
  {b₀ b₁ : UInt8}

-- What `MessageEncode` makes of a body that is not too long.
def frame (body : Bytes) : Bytes :=
  writePacketLen (.ofNat body.length) ++ body

theorem writePacketLen_packetLength (h : Packet.length b₀ b₁ ≤ maxSize) :
    writePacketLen (.ofNat (Packet.length b₀ b₁)) = [b₀, b₁] := by
  have hmax : maxSize = 16384 := rfl
  have h₀ := b₀.toNat_lt
  have h₁ := b₁.toNat_lt
  have hl : (UInt32.ofNat (Packet.length b₀ b₁)).toNat = 256 * b₀.toNat + b₁.toNat :=
    UInt32.toNat_ofNat_of_lt' (by simp only [UInt32.size]; omega)
  rw [writePacketLen, hl, List.cons.injEq, List.cons.injEq]
  refine ⟨UInt8.toNat_inj.mp ?_, UInt8.toNat_inj.mp ?_, rfl⟩ <;> rw [UInt8.toNat_ofNat'] <;> omega

theorem framing_writes : Packet.framing.Writes frame (·.length ≤ maxSize) where
  split body rest h := by
    have hf : frame body ++ rest = _ :: _ :: (body ++ rest) := rfl
    exact Packet.split_eq_some_iff.mpr ⟨_, _, hf, (packetLength_writePacketLen h).symm⟩
  write body msg rest h hle := by
    obtain ⟨b₀, b₁, rfl, hl⟩ := Packet.split_eq_some_iff.mp h
    rw [frame, hl, writePacketLen_packetLength (hl ▸ hle)]
    rfl

theorem mapM_messageEncode (h : ∀ body ∈ bodies, body.length ≤ maxSize) :
    bodies.mapM messageEncode = some (bodies.map frame) := by
  induction bodies
  case nil => rfl
  case cons body bodies hi =>
    have hb := messageEncode_eq_some (h body List.mem_cons_self)
    have hbs := hi fun body hb => h body (List.mem_cons_of_mem _ hb)
    simp [List.mapM_cons, hb, hbs, frame]

-- Without packets that are too long, nothing is left out.
theorem parse_eq_framing_parse (h : ∀ body ∈ (Packet.framing.parse msg).1, body.length ≤ maxSize) :
    Packet.parse msg = Packet.framing.parse msg := by
  have hf : (Packet.framing.parse msg).1.filter (·.length ≤ maxPacketSize.toNat) = _ :=
    List.filter_eq_self.mpr fun body hb => decide_eq_true (h body hb)
  rw [Packet.parse, hf]

theorem slice_append {front rest : Bytes} {lo hi : Nat} (h : hi ≤ front.length) :
    (front ++ rest).slice lo hi = front.slice lo hi := by
  have hl : hi ≤ (front ++ rest).length := by
    rw [List.length_append]
    omega
  simp only [Bytes.slice, h, hl, List.take_append_of_le_length h]

-- The length of a packet is in its first two bytes.
theorem readPacketLen_append {front rest : Bytes} {offset : Nat} (h : offset + 2 ≤ front.length) :
    ((front ++ rest).slice offset (front ++ rest).length).bind readPacketLen =
      (front.slice offset front.length).bind readPacketLen := by
  have hl : offset ≤ (front ++ rest).length := by
    rw [List.length_append]
    omega
  rw [Bytes.slice_from hl, Bytes.slice_from (by omega), Option.bind_some, Option.bind_some,
    List.drop_append_of_le_length (by omega)]
  match hd : front.drop offset with
  | b₀ :: b₁ :: _ => rfl
  | [] | [_] =>
    have hl := congrArg List.length hd
    rw [List.length_drop] at hl
    simp at hl
    omega

-- The loop reads only what is in front of the end that it is given.
theorem messageDecode.loop_append {front rest : Bytes} {bufLen : UInt32} (offset : UInt32)
    (hb : bufLen.toNat = front.length) :
    loop rpcDecode (front ++ rest) bufLen offset s = loop rpcDecode front bufLen offset s := by
  have hread {offset : UInt32} (h₁ : offset < bufLen) (h₂ : ¬(bufLen - offset < messageSizeLen)) :
      ((front ++ rest).slice offset.toNat (front ++ rest).length).bind readPacketLen =
        (front.slice offset.toNat front.length).bind readPacketLen := by
    have hn := (sub_lt_messageSizeLen_iff h₁).not.mp h₂
    exact readPacketLen_append (by omega)
  have hend {offset pkgLen : UInt32} (h₁ : offset < bufLen)
      (hp : (front.slice offset.toNat front.length).bind readPacketLen = some pkgLen)
      (hc : ¬(bufLen - offset < messageSizeLen + pkgLen)) :
      (offset + messageSizeLen + pkgLen).toNat ≤ front.length := by
    obtain ⟨_, he, hle, _⟩ := split_of_packet h₁ hb hp hc
    omega
  induction offset, s using messageDecode.loop.induct rpcDecode front bufLen
  case case1 offset s h₁ h₂ =>
    rw [loop, dif_pos h₁, if_pos h₂, loop, dif_pos h₁, if_pos h₂]
  case case2 offset s h₁ h₂ h₃ =>
    obtain ⟨_, hl⟩ := exists_packetLen h₁ h₂ (Nat.le_of_eq hb)
    cases h₃.symm.trans hl
  case case3 offset s h₁ h₂ pkgLen h₃ h₄ =>
    rw [loop_packet h₁ h₂ h₃, loop_packet h₁ h₂ ((hread h₁ h₂).trans h₃), if_pos h₄, if_pos h₄]
  case case7 offset s h₁ =>
    rw [loop, dif_neg h₁, loop, dif_neg h₁]
  case case4 offset s h₁ h₂ pkgLen h₃ h₄ h₅ hi =>
    rw [loop_packet h₁ h₂ h₃, loop_packet h₁ h₂ ((hread h₁ h₂).trans h₃), if_neg h₄, if_neg h₄,
      if_pos h₅, if_pos h₅, hi]
  case case5 offset s h₁ h₂ pkgLen h₃ h₄ h₅ h₆ =>
    rw [loop_packet h₁ h₂ h₃, loop_packet h₁ h₂ ((hread h₁ h₂).trans h₃), if_neg h₄, if_neg h₄,
      if_neg h₅, if_neg h₅, slice_append (hend h₁ h₃ h₄), h₆, Option.bind_none, Option.bind_none]
  case case6 offset s h₁ h₂ pkgLen h₃ h₄ h₅ buf h₆ hi =>
    rw [loop_packet h₁ h₂ h₃, loop_packet h₁ h₂ ((hread h₁ h₂).trans h₃), if_neg h₄, if_neg h₄,
      if_neg h₅, if_neg h₅, slice_append (hend h₁ h₃ h₄), h₆, Option.bind_some, Option.bind_some, hi]

-- A buffer of more than 32 bits of length is decoded up to the length that is left of it.
theorem messageDecode_eq_take (msg : Bytes) :
    messageDecode rpcDecode msg s = messageDecode rpcDecode (msg.take (msg.length % 2 ^ 32)) s := by
  have hle := Nat.mod_le msg.length (2 ^ 32)
  have hlen : (msg.take (msg.length % 2 ^ 32)).length = msg.length % 2 ^ 32 := List.length_take_of_le hle
  have hbuf : UInt32.ofNat (msg.take (msg.length % 2 ^ 32)).length = UInt32.ofNat msg.length := by
    rw [hlen]
    exact UInt32.toNat_inj.mp (by simp)
  rw [messageDecode, messageDecode, hbuf]
  nth_rewrite 1 [←List.take_append_drop (msg.length % 2 ^ 32) msg]
  exact messageDecode.loop_append 0 (by rw [hlen]; exact UInt32.toNat_ofNat')

-- `MessageDecode` hands these bodies to `RpcDecode`, whatever that does, and returns `procLen`.
def Dispatches (msg : Bytes) (procLen : UInt32) (bodies : List Bytes) : Prop :=
  ∀ (σ : Type) (rpcDecode : σ → Bytes → σ) (s : σ),
    messageDecode rpcDecode msg s = some (procLen, bodies.foldl rpcDecode s)

-- A buffer of 32 bits of length without packets that are too long.
theorem dispatches_of_framing (hl : msg.length < 2 ^ 32)
    (h : ∀ body ∈ (Packet.framing.parse msg).1, body.length ≤ maxSize) :
    Dispatches msg (.ofNat (msg.length - (Packet.framing.parse msg).2.length))
      (Packet.framing.parse msg).1 := by
  intro σ rpcDecode s
  rw [messageDecode_eq hl, parse_eq_framing_parse h]

-- The frames of the bodies, with the part of a frame behind them.
theorem dispatches_frames {tail : Bytes} (hb : ∀ body ∈ bodies, body.length ≤ maxSize)
    (hf : (bodies.flatMap frame).length ≤ recvBufMaxLen.toNat) (ht : Packet.split tail = none) :
    Dispatches (bodies.flatMap frame ++ tail) (.ofNat (bodies.flatMap frame).length) bodies := by
  have hp : Packet.framing.parse (bodies.flatMap frame ++ tail) = (bodies, tail) :=
    framing_writes.parse_flatMap hb ht
  have hl : (bodies.flatMap frame ++ tail).length < 2 ^ 32 := by
    have hmax : recvBufMaxLen.toNat = 10485760 := rfl
    have htail := Packet.length_le_of_split_eq_none ht
    rw [List.length_append]
    omega
  have hd := dispatches_of_framing hl (hp ▸ hb)
  rwa [hp, List.length_append, Nat.add_sub_cancel] at hd

-- A buffer is given back by the frames of the bodies that are dispatched, up to where they end.
theorem frames_of_dispatches (h : ∀ body ∈ (Packet.framing.parse msg).1, body.length ≤ maxSize) :
    ∃ procLen bodies, Dispatches msg procLen bodies ∧
      (∀ body ∈ bodies, body.length ≤ maxSize) ∧ bodies.flatMap frame = msg.take procLen.toNat := by
  generalize hn : msg.length % 2 ^ 32 = n
  have hlt : n < 2 ^ 32 := hn ▸ Nat.mod_lt _ (by decide)
  have hlen : (msg.take n).length = n := List.length_take_of_le (hn ▸ Nat.mod_le ..)
  -- The frames in front are among those of the whole buffer.
  have hfront : ∀ body ∈ (Packet.framing.parse (msg.take n)).1, body.length ≤ maxSize := by
    intro body hb
    have hp := Packet.framing.prefix_parse_append (msg.take n) (msg.drop n)
    rw [List.take_append_drop] at hp
    exact h body (hp.subset hb)
  have hd := dispatches_of_framing (by omega) hfront
  have happ := framing_writes.flatMap_parse hfront
  generalize Packet.framing.parse (msg.take n) = p at hfront hd happ
  refine ⟨.ofNat ((msg.take n).length - p.2.length), p.1, fun σ rpcDecode s => ?_, hfront, ?_⟩
  · rw [messageDecode_eq_take, hn, hd]
  · have hsum := congrArg List.length happ
    rw [List.length_append, hlen] at hsum
    have hproc : (UInt32.ofNat ((msg.take n).length - p.2.length)).toNat = (p.1.flatMap frame).length := by
      rw [hlen, UInt32.toNat_ofNat_of_lt' (by simp only [UInt32.size]; omega)]
      omega
    calc p.1.flatMap frame
      _ = (msg.take n).take (p.1.flatMap frame).length := by rw [←happ, List.take_left]
      _ = msg.take (p.1.flatMap frame).length          := by rw [List.take_take, Nat.min_eq_left (by omega)]
      _ = _                                            := by rw [hproc]

-- Encoding and decoding are inverse to each other.
theorem messageEncode_messageDecode :
    (∀ bodies tail, (∀ body ∈ bodies, body.length ≤ maxSize) → Packet.split tail = none →
      ∃ frames, bodies.mapM messageEncode = some frames ∧
        (frames.flatten.length ≤ recvBufMaxLen.toNat → ∃ procLen,
          Dispatches (frames.flatten ++ tail) procLen bodies ∧ procLen.toNat = frames.flatten.length)) ∧
    ∀ msg, (∀ body ∈ (Packet.framing.parse msg).1, body.length ≤ maxSize) →
      ∃ procLen bodies frames, Dispatches msg procLen bodies ∧
        bodies.mapM messageEncode = some frames ∧ frames.flatten = msg.take procLen.toNat := by
  constructor
  case left =>
    intro bodies tail hb ht
    refine ⟨bodies.map frame, mapM_messageEncode hb, fun hf => ⟨_, dispatches_frames hb hf ht, ?_⟩⟩
    have hmax : recvBufMaxLen.toNat = 10485760 := rfl
    have hlen : (bodies.flatMap frame).length ≤ recvBufMaxLen.toNat := hf
    exact UInt32.toNat_ofNat_of_lt' (by simp only [UInt32.size]; omega)
  case right =>
    intro msg h
    obtain ⟨procLen, bodies, hd, hb, hf⟩ := frames_of_dispatches h
    exact ⟨procLen, bodies, bodies.map frame, hd, mapM_messageEncode hb, hf⟩

end SimpleRpc
