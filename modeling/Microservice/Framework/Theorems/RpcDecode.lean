import Microservice.Framework.RpcDecode
import Microservice.Framework.Theorems.RpcEncode
import Microservice.Framework.Theorems.SimpleRpc

namespace Wire

variable {ρ : Type} {w : Wire ρ} {N : Nat} {name args : Bytes}

-- The encoding of each value tells where it ends, and decoding into its type gives it back. A byte slice is
-- written as it is.
structure Inverts (w : Wire ρ) (N : Nat) : Prop where
  str    : w.str.Inverts N
  uint32 : w.uint32.Inverts N
  bool   : w.bool.Inverts N
  bin    : w.bin.Inverts N
  access : w.access.Inverts N
  reply  : w.reply.Inverts N
  slice  : ∀ b, b.length ≤ (w.bin.encode b).length

theorem Inverts.rpcName (hw : w.Inverts N) (hN : (w.rpcEncode name args).length ≤ N) :
    w.rpcName (w.rpcEncode name args) = (name, args) := by
  have hle : (w.str.encode name).length ≤ N := by
    simp only [rpcEncode, List.length_append] at hN
    omega
  simp only [Wire.rpcName, rpcEncode, hw.str name args hle]

-- The arguments of an rpc fill the fields that they are meant for.
theorem decodeAll_args {κ : Type} {fs : List (Codec.Field κ)} (hfs : ∀ f ∈ fs, f.codec.Inverts N)
    (vs : Codec.Values fs) (hN : (w.rpcEncode name (Codec.encodeAll fs vs)).length ≤ N) :
    Codec.decodeAll fs (Codec.encodeAll fs vs) = (.ok vs, []) := by
  have hargs : (Codec.encodeAll fs vs).length ≤ N := by
    simp only [rpcEncode, List.length_append] at hN
    omega
  have hd := Codec.decodeAll_encodeAll hfs vs hargs []
  rwa [List.append_nil] at hd

theorem msgpack_inverts (hN : N < 2 ^ 32) : msgpack.Inverts N where
  str    := Msgpack.str_inverts hN
  uint32 := Msgpack.uint32_inverts N
  bool   := Msgpack.bool_inverts N
  bin    := Msgpack.bin_inverts hN
  access := Msgpack.map_inverts hN (Msgpack.str_inverts hN) (Msgpack.bool_inverts N) fun e => by
    simp [Codec.pair, Msgpack.bool]
  reply  := by
    intro reply rest _
    cases reply <;> rfl
  slice  := by
    intro b
    have hb : (msgpack.bin.encode b).length = _ := Msgpack.length_bin b
    omega

end Wire

namespace SimpleRpc

variable {ρ : Type} {w : Wire ρ} {β : Type*} {rpcs : Bytes → Option (Generator β)} {session : SessionState}
variable {name buf msg : Bytes} {gen : Generator β} {N : Nat}

-- A session that `PreCheck` lets everything pass of.
def Admitted (session : SessionState) : Prop :=
  ∀ state ∈ session, state = .ok

theorem Admitted.preCheck (hs : Admitted session) (rpcName : Bytes) :
    SimpleRpc.preCheck session rpcName = true := by
  unfold SimpleRpc.preCheck
  split
  case isTrue => rfl
  case isFalse =>
    cases session
    case none       => rfl
    case some state => exact decide_eq_true (hs state rfl)

-- An rpc gets to the handler of its name, and its arguments into the fields of the request.
theorem rpcDecode_rpcEncode (hw : w.Inverts N) (hs : Admitted session) (hr : rpcs name = some gen)
    (hfs : ∀ f ∈ gen.fields, f.codec.Inverts N) (values : Codec.Values gen.fields)
    (hN : (w.rpcEncode name (Codec.encodeAll gen.fields values)).length ≤ N) :
    rpcDecode w rpcs session (w.rpcEncode name (Codec.encodeAll gen.fields values)) =
      some (gen.handler values) := by
  simp only [rpcDecode, hw.rpcName hN, hs.preCheck, if_true, hr, Wire.decodeAll_args hfs values hN]

theorem packetLength_writePacketLen {n : Nat} (hn : n ≤ maxSize) :
    Packet.length (.ofNat ((UInt32.ofNat n).toNat / 2 ^ 8)) (.ofNat (UInt32.ofNat n).toNat) = n := by
  have hmax : maxSize = 16384 := rfl
  rw [UInt32.toNat_ofNat_of_lt' (by simp only [UInt32.size]; omega)]
  simp only [Packet.length, UInt8.toNat_ofNat']
  omega

-- One message has one packet.
theorem parse_messageEncode (hle : buf.length ≤ maxSize) (hm : messageEncode buf = some msg) :
    Packet.parse msg = ([buf], []) := by
  cases (messageEncode_eq_some hle).symm.trans hm
  have hsplit : Packet.split (writePacketLen (.ofNat buf.length) ++ buf) = some (buf, []) :=
    Packet.split_eq_some_iff.mpr ⟨_, _, by simp [writePacketLen], (packetLength_writePacketLen hle).symm⟩
  have hle : buf.length ≤ maxPacketSize.toNat := hle
  rw [Packet.parse_of_some hsplit, if_pos hle, Packet.parse_nil]

theorem handlers_messageEncode (hle : buf.length ≤ maxSize) (hm : messageEncode buf = some msg) :
    handlers w rpcs session msg = some (rpcDecode w rpcs session buf).toList := by
  have hlen : msg.length < 2 ^ 32 := by
    have hmax : maxSize = 16384 := rfl
    cases (messageEncode_eq_some hle).symm.trans hm
    simp [writePacketLen]
    omega
  simp [handlers, messageDecode_eq hlen, parse_messageEncode hle hm]

variable (rpcs) in
-- The way of an rpc from one process to another.
theorem handlers_of_rpcEncode (hw : w.Inverts maxSize) (hs : Admitted session) (hr : rpcs name = some gen)
    (hfs : ∀ f ∈ gen.fields, f.codec.Inverts maxSize) (values : Codec.Values gen.fields)
    (hbuf : buf = w.rpcEncode name (Codec.encodeAll gen.fields values)) (hle : buf.length ≤ maxSize) :
    ∃ msg, messageEncode buf = some msg ∧ handlers w rpcs session msg = some [gen.handler values] := by
  subst hbuf
  refine ⟨_, messageEncode_eq_some hle, ?_⟩
  rw [handlers_messageEncode hle (messageEncode_eq_some hle), rpcDecode_rpcEncode hw hs hr hfs values hle]
  rfl

end SimpleRpc

namespace RpcHandle

variable {ρ : Type} {w : Wire ρ} {rpcs : Bytes → Option (Handler ρ)} {h : Handler ρ} {N : Nat} {name : Bytes}

-- What `rpcHandle` returns when the handler has run.
def finish (grid : UInt32) (rpcName : Bytes) (eff : Effect ρ) (rsp : Option ρ) :
    (Bytes × Option ρ) × Effect ρ :=
  (if grid = 0 then ([], none)
    else match rsp with
      | none       => (needResponse rpcName, none)
      | some reply => (eff.err, some reply), doProcessWithPanicProtect eff)

-- The inner rpc of a call gets to the handler of its name, and its arguments into the fields of the request.
theorem rpcHandle_rpcEncode (hw : w.Inverts N) (hr : rpcs name = some h)
    (hfs : ∀ f ∈ h.fields w, f.codec.Inverts N) (values : Codec.Values (h.fields w))
    (hN : (w.rpcEncode name (Codec.encodeAll (h.fields w) values)).length ≤ N)
    (call : UInt32 → Bytes → Bytes → Option (Effect ρ)) (grid : UInt32) (err : Bytes) :
    rpcHandle w rpcs call grid (w.rpcEncode name (Codec.encodeAll (h.fields w) values)) err =
      (h.process w call values err).map fun (eff, rsp) => finish grid name eff rsp := by
  simp only [rpcHandle, hw.rpcName hN, hr, Wire.decodeAll_args hfs values hN]
  cases h.process w call values err
  case none => rfl
  case some r =>
    have ⟨eff, rsp⟩ := r
    by_cases hg : grid = 0
    case pos => simp [finish, hg]
    case neg => cases rsp <;> simp [finish, hg, doProcessWithPanicProtect]

end RpcHandle
