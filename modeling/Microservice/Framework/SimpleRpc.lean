import Microservice.Framework.Utils

namespace SimpleRpc

variable {σ : Type*}

def maxPacketSize : UInt32 := 16 * 1024

def messageSizeLen : UInt32 := 2

def readPacketLen (buf : Bytes) : Option UInt32 :=
  (readUint16 buf).map UInt16.toUInt32

theorem readPacketLen_lt {buf : Bytes} {l : UInt32} (h : readPacketLen buf = some l) :
    l.toNat < 65536 := by
  simp only [readPacketLen, Option.map_eq_some_iff] at h
  obtain ⟨v, _, rfl⟩ := h
  simpa using v.toNat_lt

theorem toNat_sub_of_lt {a b : UInt32} (h : a < b) : (b - a).toNat = b.toNat - a.toNat :=
  UInt32.toNat_sub_of_le _ _ (UInt32.le_of_lt h)

-- The packet behind `offset` is complete, so the next offset does not leave the buffer.
theorem next_offset_toNat {bufLen offset pkgLen : UInt32} (ho : offset < bufLen)
    (hp : pkgLen.toNat < 65536) (hc : ¬(bufLen - offset < messageSizeLen + pkgLen)) :
    (offset + messageSizeLen).toNat = offset.toNat + 2 ∧
    (offset + messageSizeLen + pkgLen).toNat = offset.toNat + 2 + pkgLen.toNat ∧
    offset.toNat + 2 + pkgLen.toNat ≤ bufLen.toNat := by
  have hb := bufLen.toNat_lt
  have ho' := UInt32.lt_iff_toNat_lt.mp ho
  simp only [messageSizeLen, UInt32.lt_iff_toNat_lt, toNat_sub_of_lt ho, UInt32.toNat_add,
    UInt32.toNat_ofNat] at hc ⊢
  omega

-- The loop of `MessageDecode`. What `RpcDecode` does to the process is left open: it takes a state
-- to the next one for every body it is handed. The result is the offset behind the last complete
-- packet, `none` is a run-time panic.
def messageDecode.loop (rpcDecode : σ → Bytes → σ) (msg : Bytes) (bufLen offset : UInt32) (s : σ) :
    Option (UInt32 × σ) :=
  if _ho : offset < bufLen then
    if bufLen - offset < messageSizeLen then
      some (offset, s)
    else
      match _hp : (msg.slice offset.toNat msg.length).bind readPacketLen with
      | none => none
      | some pkgLen =>
        if _hc : bufLen - offset < messageSizeLen + pkgLen then
          some (offset, s)
        else if pkgLen > maxPacketSize then
          loop rpcDecode msg bufLen (offset + messageSizeLen + pkgLen) s
        else
          match msg.slice (offset + messageSizeLen).toNat (offset + messageSizeLen + pkgLen).toNat with
          | none     => none
          | some buf => loop rpcDecode msg bufLen (offset + messageSizeLen + pkgLen) (rpcDecode s buf)
  else
    some (offset, s)
termination_by bufLen.toNat - offset.toNat
decreasing_by
  all_goals
    obtain ⟨_, _, hp⟩ := Option.bind_eq_some_iff.mp _hp
    have := next_offset_toNat _ho (readPacketLen_lt hp) _hc
    omega

def messageDecode (rpcDecode : σ → Bytes → σ) (msg : Bytes) (s : σ) : Option (UInt32 × σ) :=
  messageDecode.loop rpcDecode msg (UInt32.ofNat msg.length) 0 s

end SimpleRpc
