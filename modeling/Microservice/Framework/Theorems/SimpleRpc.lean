import Microservice.Lib.Framing
import Microservice.Framework.SimpleRpc

namespace Bytes

theorem slice_eq_some {s : Bytes} {lo hi : Nat} (hl : lo ≤ hi) (hh : hi ≤ s.length) :
    s.slice lo hi = some ((s.drop lo).take (hi - lo)) := by
  simp [slice, hl, hh, List.drop_take]

theorem slice_from {s : Bytes} {lo : Nat} (h : lo ≤ s.length) :
    s.slice lo s.length = some (s.drop lo) := by
  simp [slice, h]

end Bytes

namespace Packet

-- The two length bytes in front of a packet, in big-endian order.
def length (b₀ b₁ : UInt8) : Nat :=
  256 * b₀.toNat + b₁.toNat

def split : Bytes → Option (Bytes × Bytes)
  | b₀ :: b₁ :: rest =>
    if length b₀ b₁ ≤ rest.length
    then some (rest.take (length b₀ b₁), rest.drop (length b₀ b₁))
    else none
  | _ => none

theorem split_eq_some_iff {bs body rest : Bytes} :
    split bs = some (body, rest) ↔
      ∃ b₀ b₁, bs = b₀ :: b₁ :: (body ++ rest) ∧ body.length = length b₀ b₁ := by
  match bs with
  | [] | [_] => simp [split]
  | b₀ :: b₁ :: tl =>
    simp only [split, Option.ite_none_right_eq_some, Option.some.injEq, Prod.mk.injEq,
      List.cons.injEq]
    constructor
    · rintro ⟨hl, rfl, rfl⟩
      exact ⟨b₀, b₁, by simp, by simp [hl]⟩
    · rintro ⟨_, _, ⟨rfl, rfl, rfl⟩, hl⟩
      simp [←hl]

-- A packet that is not complete lacks at least one byte.
theorem length_le_of_split_eq_none {bs : Bytes} (h : split bs = none) : bs.length ≤ 2 ^ 16 := by
  match bs with
  | [] | [_]         => simp
  | b₀ :: b₁ :: rest =>
    have h₀ := b₀.toNat_lt
    have h₁ := b₁.toNat_lt
    by_cases hl : length b₀ b₁ ≤ rest.length
    case pos => simp [split, hl] at h
    case neg =>
      simp only [length, List.length_cons] at hl ⊢
      omega

-- A stream of packets: two length bytes, then as many bytes of body.
def framing : Framing UInt8 Bytes where
  split := split
  suffix h := by
    have ⟨b₀, b₁, h, _⟩ := split_eq_some_iff.mp h
    exact ⟨b₀ :: b₁ :: _, by simp [h]; rfl⟩
  shrink h := by
    have ⟨_, _, h, _⟩ := split_eq_some_iff.mp h
    simp [h]
    omega
  stable h := by
    have ⟨b₀, b₁, h, hl⟩ := split_eq_some_iff.mp h
    exact split_eq_some_iff.mpr ⟨b₀, b₁, by simp [h], hl⟩

-- The reference parser over a whole stream: the bodies of its complete packets, without those that
-- are too long, and the unparsed tail.
def parse (stream : Bytes) : List Bytes × Bytes :=
  ((framing.parse stream).1.filter (·.length ≤ SimpleRpc.maxPacketSize.toNat),
    (framing.parse stream).2)

theorem parse_append (xs ys : Bytes) :
    parse (xs ++ ys) =
      ((parse xs).1 ++ (parse ((parse xs).2 ++ ys)).1, (parse ((parse xs).2 ++ ys)).2) := by
  simp [parse, framing.parse_append xs ys]

theorem split_parse_tail (stream : Bytes) : split (parse stream).2 = none :=
  framing.split_parse_tail stream

theorem parse_tail_length_le (stream : Bytes) : (parse stream).2.length ≤ stream.length :=
  (framing.parse_tail_suffix stream).length_le

theorem drop_eq_parse_tail (stream : Bytes) :
    stream.drop (stream.length - (parse stream).2.length) = (parse stream).2 :=
  (List.suffix_iff_eq_drop.mp <| framing.parse_tail_suffix stream).symm

theorem parse_of_none {bs : Bytes} (h : split bs = none) : parse bs = ([], bs) := by
  simp [parse, Framing.parse_of_none (F := framing) h]

theorem parse_nil : parse [] = ([], []) :=
  parse_of_none rfl

theorem parse_of_some {bs body rest : Bytes} (h : split bs = some (body, rest)) :
    parse bs =
      (if body.length ≤ SimpleRpc.maxPacketSize.toNat then body :: (parse rest).1
        else (parse rest).1, (parse rest).2) := by
  simp [parse, Framing.parse_of_some (F := framing) h, List.filter_cons]

-- A packet whose body is one byte.
theorem parse_byte (b : UInt8) (rest : Bytes) :
    parse (0 :: 1 :: b :: rest) = ([b] :: (parse rest).1, (parse rest).2) := by
  have hs : split (0 :: 1 :: b :: rest) = some ([b], rest) := split_eq_some_iff.mpr ⟨0, 1, rfl, rfl⟩
  have hl : [b].length ≤ SimpleRpc.maxPacketSize.toNat := by simp [SimpleRpc.maxPacketSize]
  rw [parse_of_some hs, if_pos hl]

end Packet

namespace SimpleRpc

variable {σ : Type*} {rpcDecode : σ → Bytes → σ} {msg : Bytes} {s : σ}

theorem readUint16_toNat (b₀ b₁ : UInt8) :
    ((b₀.toUInt16 <<< 8) ||| b₁.toUInt16).toNat = Packet.length b₀ b₁ := by
  have h₀ := b₀.toNat_lt
  have h₁ := b₁.toNat_lt
  have hs : b₀.toNat <<< 8 % 2 ^ 16 = 2 ^ 8 * b₀.toNat := by
    rw [Nat.shiftLeft_eq, Nat.mul_comm]
    exact Nat.mod_eq_of_lt (by omega)
  calc ((b₀.toUInt16 <<< 8) ||| b₁.toUInt16).toNat
    _ = b₀.toNat <<< 8 % 2 ^ 16 ||| b₁.toNat := by
      rw [UInt16.toNat_or, UInt16.toNat_shiftLeft, UInt8.toNat_toUInt16, UInt8.toNat_toUInt16]
      rfl
    _ = 2 ^ 8 * b₀.toNat ||| b₁.toNat := by rw [hs]
    _ = 2 ^ 8 * b₀.toNat + b₁.toNat   := (Nat.two_pow_add_eq_or_of_lt h₁ _).symm

-- The length that `ReadPacketLen` finds in front of a packet.
theorem readPacketLen_eq_some_iff {buf : Bytes} {l : UInt32} :
    readPacketLen buf = some l ↔
      ∃ b₀ b₁ rest, buf = b₀ :: b₁ :: rest ∧ l.toNat = Packet.length b₀ b₁ := by
  match buf with
  | [] | [_] => simp [readPacketLen, readUint16]
  | b₀ :: b₁ :: rest =>
    simp only [readPacketLen, readUint16, Option.map_some, Option.some.injEq, List.cons.injEq,
      ←readUint16_toNat]
    constructor
    · rintro rfl
      exact ⟨b₀, b₁, rest, by simp, by simp⟩
    · rintro ⟨_, _, _, ⟨rfl, rfl, rfl⟩, hl⟩
      exact UInt32.toNat_inj.mp (by simp [hl])

-- One packet in front of `offset`, read by the reference and by the loop.
theorem split_drop_of_readPacketLen {offset : Nat} {pkgLen : UInt32}
    (hr : readPacketLen (msg.drop offset) = some pkgLen)
    (hc : offset + 2 + pkgLen.toNat ≤ msg.length) :
    Packet.split (msg.drop offset) =
      some ((msg.drop (offset + 2)).take pkgLen.toNat, msg.drop (offset + 2 + pkgLen.toNat)) := by
  have ⟨b₀, b₁, rest, hd, hl⟩ := readPacketLen_eq_some_iff.mp hr
  have hrest : msg.drop (offset + 2) = rest := by simp [←List.drop_drop, hd]
  refine Packet.split_eq_some_iff.mpr ⟨b₀, b₁, ?_, ?_⟩
  · rw [hd, ←List.drop_drop (j := offset + 2), hrest, List.take_append_drop]
  · rw [←hl, List.length_take, List.length_drop]
    omega

theorem split_drop_eq_none {offset : Nat} {pkgLen : UInt32}
    (hr : readPacketLen (msg.drop offset) = some pkgLen)
    (hc : msg.length < offset + 2 + pkgLen.toNat) : Packet.split (msg.drop offset) = none := by
  have ⟨b₀, b₁, rest, hd, hl⟩ := readPacketLen_eq_some_iff.mp hr
  have := congrArg List.length hd
  simp only [List.length_drop, List.length_cons] at this
  simp only [hd, Packet.split, ←hl]
  exact if_neg (by omega)

theorem split_eq_none_of_length_lt (bs : Bytes) (h : bs.length < 2) : Packet.split bs = none := by
  match bs with
  | [] | [_]    => rfl
  | _ :: _ :: _ => simp only [List.length_cons] at h; omega

theorem readPacketLen_isSome (buf : Bytes) (h : 2 ≤ buf.length) :
    ∃ l, readPacketLen buf = some l := by
  match buf with
  | [] | [_]      => simp at h
  | b₀ :: b₁ :: _ => exact ⟨_, rfl⟩

-- The bounds that the tests at the head of the loop establish.
theorem sub_lt_messageSizeLen_iff {bufLen offset : UInt32} (h : offset < bufLen) :
    bufLen - offset < messageSizeLen ↔ bufLen.toNat < offset.toNat + 2 := by
  have := UInt32.lt_iff_toNat_lt.mp h
  simp only [messageSizeLen, UInt32.lt_iff_toNat_lt, toNat_sub_of_lt h, UInt32.toNat_ofNat]
  omega

theorem sub_lt_messageSizeLen_add_iff {bufLen offset pkgLen : UInt32} (h : offset < bufLen)
    (hp : pkgLen.toNat < 65536) :
    bufLen - offset < messageSizeLen + pkgLen ↔ bufLen.toNat < offset.toNat + 2 + pkgLen.toNat := by
  have := UInt32.lt_iff_toNat_lt.mp h
  simp only [messageSizeLen, UInt32.lt_iff_toNat_lt, toNat_sub_of_lt h, UInt32.toNat_add,
    UInt32.toNat_ofNat]
  omega

-- The two bytes of the length are in the buffer.
theorem exists_packetLen {bufLen offset : UInt32} (h : offset < bufLen)
    (hs : ¬(bufLen - offset < messageSizeLen)) (hb : bufLen.toNat ≤ msg.length) :
    ∃ pkgLen, (msg.slice offset.toNat msg.length).bind readPacketLen = some pkgLen := by
  have hn := (sub_lt_messageSizeLen_iff h).not.mp hs
  obtain ⟨l, hl⟩ := readPacketLen_isSome (msg.drop offset.toNat) (by rw [List.length_drop]; omega)
  exact ⟨l, by rw [Bytes.slice_from (by omega), Option.bind_some, hl]⟩

-- The result of the loop when the rest of the buffer is parsed by the reference.
def messageDecode.parsed (rpcDecode : σ → Bytes → σ) (msg rest : Bytes) (s : σ) : UInt32 × σ :=
  (UInt32.ofNat (msg.length - (Packet.parse rest).2.length), (Packet.parse rest).1.foldl rpcDecode s)

theorem messageDecode.parsed_of_none {offset : UInt32} (ho : offset.toNat ≤ msg.length)
    (h : Packet.split (msg.drop offset.toNat) = none) :
    parsed rpcDecode msg (msg.drop offset.toNat) s = (offset, s) := by
  have he : msg.length - (msg.length - offset.toNat) = offset.toNat := by omega
  simp [parsed, Packet.parse_of_none h, he]

theorem messageDecode.parsed_of_some {body rest tail : Bytes}
    (h : Packet.split rest = some (body, tail)) :
    parsed rpcDecode msg rest s =
      parsed rpcDecode msg tail
        (if body.length ≤ maxPacketSize.toNat then rpcDecode s body else s) := by
  by_cases hl : body.length ≤ maxPacketSize.toNat <;> simp [parsed, Packet.parse_of_some h, hl]

-- One turn of the loop at the head of a packet.
theorem messageDecode.loop_packet {bufLen offset pkgLen : UInt32} (h₁ : offset < bufLen)
    (h₂ : ¬(bufLen - offset < messageSizeLen))
    (hp : (msg.slice offset.toNat msg.length).bind readPacketLen = some pkgLen) :
    loop rpcDecode msg bufLen offset s =
      if bufLen - offset < messageSizeLen + pkgLen then some (offset, s)
      else if pkgLen > maxPacketSize then
        loop rpcDecode msg bufLen (offset + messageSizeLen + pkgLen) s
      else
        (msg.slice (offset + messageSizeLen).toNat (offset + messageSizeLen + pkgLen).toNat).bind
          fun buf => loop rpcDecode msg bufLen (offset + messageSizeLen + pkgLen) (rpcDecode s buf) := by
  rw [loop, dif_pos h₁, if_neg h₂]
  split
  case h_1 hn => simp [hp] at hn
  case h_2 l hl =>
    cases Option.some.inj (hp.symm.trans hl)
    split
    · rfl
    · congr 1
      split <;> simp only [*, Option.bind_none, Option.bind_some]

-- What the loop knows once the packet at `offset` is complete.
theorem messageDecode.split_of_packet {bufLen offset pkgLen : UInt32} (h₁ : offset < bufLen)
    (hb : bufLen.toNat = msg.length)
    (hp : (msg.slice offset.toNat msg.length).bind readPacketLen = some pkgLen)
    (hc : ¬(bufLen - offset < messageSizeLen + pkgLen)) :
    (offset + messageSizeLen).toNat = offset.toNat + 2 ∧
    (offset + messageSizeLen + pkgLen).toNat = offset.toNat + 2 + pkgLen.toNat ∧
    offset.toNat + 2 + pkgLen.toNat ≤ msg.length ∧
    Packet.split (msg.drop offset.toNat) =
      some ((msg.drop (offset.toNat + 2)).take pkgLen.toNat,
        msg.drop (offset.toNat + 2 + pkgLen.toNat)) := by
  have ho := UInt32.lt_iff_toNat_lt.mp h₁
  have hr : readPacketLen (msg.drop offset.toNat) = some pkgLen := by
    simpa [Bytes.slice_from (show offset.toNat ≤ msg.length by omega)] using hp
  have ⟨he₁, he₂, hn⟩ := next_offset_toNat h₁ (readPacketLen_lt hr) hc
  exact ⟨he₁, he₂, by omega, split_drop_of_readPacketLen hr (by omega)⟩

-- The loop parses what is behind its offset as the reference does, and stops at the tail.
theorem messageDecode.loop_eq (bufLen offset : UInt32)
    (hb : bufLen.toNat = msg.length) (ho : offset.toNat ≤ msg.length) :
    loop rpcDecode msg bufLen offset s = some (parsed rpcDecode msg (msg.drop offset.toNat) s) := by
  have hs : msg.slice offset.toNat msg.length = some (msg.drop offset.toNat) := Bytes.slice_from ho
  induction offset, s using messageDecode.loop.induct rpcDecode msg bufLen
  case case1 offset s h₁ h₂ =>
    have hn := (sub_lt_messageSizeLen_iff h₁).mp h₂
    have hsp := split_eq_none_of_length_lt (msg.drop offset.toNat) (by simp; omega)
    rw [loop, dif_pos h₁, if_pos h₂, parsed_of_none ho hsp]
  case case2 offset s h₁ h₂ h₃ =>
    have ⟨_, hl⟩ := exists_packetLen h₁ h₂ (Nat.le_of_eq hb)
    cases h₃.symm.trans hl
  case case3 offset s h₁ h₂ pkgLen h₃ h₄ =>
    have hr : readPacketLen (msg.drop offset.toNat) = some pkgLen := by simpa [hs] using h₃
    have hn := (sub_lt_messageSizeLen_add_iff h₁ (readPacketLen_lt hr)).mp h₄
    rw [loop_packet h₁ h₂ h₃, if_pos h₄, parsed_of_none ho (split_drop_eq_none hr (by omega))]
  case case7 offset s h₁ =>
    have hn := UInt32.lt_iff_toNat_lt.not.mp h₁
    have hsp := split_eq_none_of_length_lt (msg.drop offset.toNat) (by simp; omega)
    rw [loop, dif_neg h₁, parsed_of_none ho hsp]
  case case4 offset s h₁ h₂ pkgLen h₃ h₄ h₅ hi =>
    have ⟨_, he, hn, hsp⟩ := split_of_packet h₁ hb h₃ h₄
    have := UInt32.lt_iff_toNat_lt.mp h₅
    rw [loop_packet h₁ h₂ h₃, if_neg h₄, if_pos h₅, hi (by omega) (Bytes.slice_from (by omega)),
      parsed_of_some hsp, he, if_neg]
    simp
    omega
  case case5 offset s h₁ h₂ pkgLen h₃ h₄ h₅ h₆ =>
    have ⟨_, _, _, _⟩ := split_of_packet h₁ hb h₃ h₄
    rw [Bytes.slice_eq_some (by omega) (by omega)] at h₆
    contradiction
  case case6 offset s h₁ h₂ pkgLen h₃ h₄ h₅ buf h₆ hi =>
    have ⟨he₁, he₂, hn, hsp⟩ := split_of_packet h₁ hb h₃ h₄
    have := UInt32.lt_iff_toNat_lt.not.mp h₅
    have hbuf : buf = (msg.drop (offset.toNat + 2)).take pkgLen.toNat := by
      rw [Bytes.slice_eq_some (by omega) (by omega), Option.some.injEq, he₁, he₂] at h₆
      rw [←h₆]
      congr 1
      omega
    rw [loop_packet h₁ h₂ h₃, if_neg h₄, if_neg h₅, h₆, Option.bind_some,
      hi (by omega) (Bytes.slice_from (by omega)), parsed_of_some hsp, he₂, if_pos, hbuf]
    simp
    omega

-- `MessageDecode` hands `RpcDecode` the bodies that the reference parser finds in the buffer, in
-- order, and returns the length of the buffer without the tail.
theorem messageDecode_eq (h : msg.length < 2 ^ 32) :
    messageDecode rpcDecode msg s =
      some (UInt32.ofNat (msg.length - (Packet.parse msg).2.length),
        (Packet.parse msg).1.foldl rpcDecode s) :=
  messageDecode.loop_eq _ 0 (UInt32.toNat_ofNat_of_lt h) (by simp)

end SimpleRpc
