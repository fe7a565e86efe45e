import Microservice.Framework.RpcEncode
import Microservice.Lib.Msgpack

namespace Wire

variable {ρ : Type} {w : Wire ρ}

-- The sizes that msgpack has for what the framework sends.
structure Standard (w : Wire ρ) : Prop where
  str    : ∀ s, (w.str.encode s).length = (Msgpack.strHeader s.length).length + s.length
  uint32 : ∀ v, (w.uint32.encode v).length = 5
  bool   : ∀ b, (w.bool.encode b).length = 1
  bin    : ∀ s, (w.bin.encode s).length = (Msgpack.binHeader s.length).length + s.length
  nil    : (w.reply.encode none).length = 1

theorem Standard.length_rpcEncode (hw : w.Standard) {name args : Bytes} (hn : name.length = 1) :
    (w.rpcEncode name args).length = 2 + args.length := by
  simp [rpcEncode, hw.str, hn, Msgpack.length_strHeader]

-- A message fits with a string of which there is not more than the header of three bytes.
theorem Standard.length_str_le_iff (hw : w.Standard) {s : Bytes} {N : Nat} (hN : 2 ^ 8 + 3 ≤ N)
    (hN' : N ≤ 2 ^ 16) : (w.str.encode s).length ≤ N ↔ s.length + 3 ≤ N := by
  rw [hw.str, Msgpack.length_strHeader]
  split <;> [skip; split <;> [skip; split]] <;> omega

-- The formats of msgpack, with nil and the empty map as replies.
def msgpack : Wire Unit where
  str    := Msgpack.str
  uint32 := Msgpack.uint32
  bool   := Msgpack.bool
  bin    := Msgpack.bin
  access := Msgpack.map Msgpack.str Msgpack.bool
  reply  :=
    { encode := fun
        | none    => [0xc0]
        | some () => [0x80]
      decode := fun
        | 0xc0 :: rest => (.ok none, rest)
        | 0x80 :: rest => (.ok (some ()), rest)
        | rest         => (.error [], rest) }

theorem msgpack_standard : msgpack.Standard where
  str    := Msgpack.length_str
  uint32 := fun _ => rfl
  bool   := fun _ => rfl
  bin    := Msgpack.length_bin
  nil    := rfl

end Wire

namespace SimpleRpc

theorem gt_maxPacketSize_iff {buf : Bytes} (h : buf.length < 2 ^ 32) :
    UInt32.ofNat buf.length > maxPacketSize ↔ maxSize < buf.length := by
  rw [gt_iff_lt, UInt32.lt_iff_toNat_lt, UInt32.toNat_ofNat_of_lt' h]
  rfl

-- The length is cut down to 32 bits before it is compared.
theorem messageEncode_eq_none_iff {buf : Bytes} : messageEncode buf = none ↔ maxSize < buf.length % 2 ^ 32 := by
  have hgt : UInt32.ofNat buf.length > maxPacketSize ↔ maxSize < buf.length % 2 ^ 32 := by
    rw [gt_iff_lt, UInt32.lt_iff_toNat_lt, UInt32.toNat_ofNat']
    rfl
  rw [← hgt]
  by_cases h : UInt32.ofNat buf.length > maxPacketSize <;> simp [messageEncode, h]

theorem messageEncode_eq_some {buf : Bytes} (h : buf.length ≤ maxSize) :
    messageEncode buf = some (writePacketLen (.ofNat buf.length) ++ buf) := by
  have hlt : buf.length < 2 ^ 32 := Nat.lt_of_le_of_lt h (by decide)
  have hle : ¬UInt32.ofNat buf.length > maxPacketSize := by
    rw [gt_maxPacketSize_iff hlt]
    exact Nat.not_lt.mpr h
  simp [messageEncode, hle, UInt32.toNat_ofNat_of_lt' hlt]

theorem messageEncode_eq_none {buf : Bytes} (h : maxSize < buf.length) (hlt : buf.length < 2 ^ 32) :
    messageEncode buf = none := by
  simp [messageEncode, (gt_maxPacketSize_iff hlt).mpr h]

end SimpleRpc
