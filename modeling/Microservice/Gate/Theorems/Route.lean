import Microservice.Framework.Theorems.RpcEncode
import Microservice.Gate.Route

namespace Route

open SimpleRpc

variable {ρ : Type} {w : Wire ρ} {s : State} {req : Req} {t : Target} {buf err : Bytes}

theorem length_notExist : (notExist req).length = req.nameSpace.length + req.service.length + 19 := by
  have h₁ : (Bytes.ascii "service ").length = 8 := by decide
  have h₂ : (Bytes.ascii ":").length = 1 := by decide
  have h₃ : (Bytes.ascii " not exist").length = 10 := by decide
  simp only [notExist, List.length_append, h₁, h₂, h₃]
  omega

theorem length_notAllow {rpcName : Bytes} : (notAllow req rpcName).length =
    req.nameSpace.length + req.service.length + rpcName.length + 16 := by
  have h₁ : (Bytes.ascii "rpc ").length = 4 := by decide
  have h₂ : (Bytes.ascii ":").length = 1 := by decide
  have h₃ : (Bytes.ascii " not allow").length = 10 := by decide
  simp only [notAllow, List.length_append, h₁, h₂, h₃]
  omega

-- The names in the request are so short that an error with them leaves room for the rest of the response.
def Req.Short (w : Wire ρ) (req : Req) : Prop :=
  req.nameSpace.length + req.service.length ≤ 16354 ∧
  req.nameSpace.length + req.service.length + (w.rpcName req.innerRpc).1.length ≤ 16357

-- The room that there is for an error.
theorem length_errorRsp (hw : w.Standard) (h : errorRsp w req err = some (t, buf)) :
    buf.length ≤ maxSize ↔ err.length ≤ 16373 := by
  unfold errorRsp at h
  split at h
  case isTrue  => cases h
  case isFalse =>
    cases h
    have hstr := hw.length_str_le_iff (s := err) (N := 16376) (by decide) (by decide)
    have hmax : maxSize = 16384 := rfl
    rw [hw.length_rpcEncode rfl, hmax]
    simp only [List.length_append, hw.uint32, hw.nil]
    omega

-- A call is shorter than the request it is for.
theorem length_call (hw : w.Standard) : (call w s req).length ≤ (req.encode w).length := by
  have hargs : (w.uint32.encode (grid s req) ++ w.bin.encode req.innerRpc).length =
      5 + (w.bin.encode req.innerRpc).length := by simp [hw.uint32]
  have hcall : (call w s req).length = 7 + (w.bin.encode req.innerRpc).length := by
    unfold call
    split <;> rw [hw.length_rpcEncode rfl, hargs] <;> omega
  rw [hcall, Req.encode, hw.length_rpcEncode rfl]
  simp only [List.length_append, hw.uint32, hw.bool]
  omega

theorem permission_cases (h : permission w s req = some err) :
    err = notExist req ∨ err = notAllow req (w.rpcName req.innerRpc).1 := by
  unfold permission at h
  split at h
  case isFalse => cases h
  case isTrue =>
    split at h
    case h_1 => cases h; exact .inl rfl
    case h_2 =>
      simp only at h
      split at h <;> cases h
      exact .inr rfl

theorem Req.Short.process_fits (hw : w.Standard) (hin : (req.encode w).length ≤ maxSize)
    (hr : req.rid = 0 ∨ req.Short w) (h : process w s req = some (t, buf)) : buf.length ≤ maxSize := by
  have herr {err} (he : err = notExist req ∨ err = notAllow req (w.rpcName req.innerRpc).1)
      (h : errorRsp w req err = some (t, buf)) : buf.length ≤ maxSize := by
    obtain hr | hr := hr
    · simp [errorRsp, hr] at h
    · rw [length_errorRsp hw h]
      have ⟨hr₁, hr₂⟩ := hr
      obtain rfl | rfl := he
      · rw [length_notExist]; omega
      · rw [length_notAllow]; omega
  unfold process at h
  split at h
  case h_1 err hp => exact herr (permission_cases hp) h
  case h_2 =>
    split at h
    case h_1 => cases h; exact Nat.le_trans (length_call hw) hin
    case h_2 => exact herr (.inl rfl) h

-- The gate of a client that it rejects, because it does not know the service or because of the rpc.
def rejecting (gClientAccess : Partial Bytes (Partial Bytes Bool)) : State :=
  ⟨.clientGate, true, gClientAccess, none, 0⟩

theorem process_unknown : process w (rejecting fun _ => none) req = errorRsp w req (notExist req) :=
  rfl

theorem process_forbidden : process w (rejecting fun _ => some fun _ => none) req =
    errorRsp w req (notAllow req (w.rpcName req.innerRpc).1) :=
  rfl

-- Whatever the gate knows of permissions and remotes, what it sends for the request fits into a message, if
-- and only if there is nothing to respond to or the names in the request leave room for an error.
theorem process_fits_iff (hw : w.Standard) (hin : (req.encode w).length ≤ maxSize) :
    (∀ s t buf, process w s req = some (t, buf) → buf.length ≤ maxSize ∧ (messageEncode buf).isSome) ↔
    req.rid = 0 ∨ req.Short w := by
  constructor
  case mpr =>
    intro hr s t buf h
    have hle := Req.Short.process_fits hw hin hr h
    exact ⟨hle, by rw [messageEncode_eq_some hle]; rfl⟩
  case mp =>
    intro h
    by_cases hr : req.rid = 0
    case pos => exact .inl hr
    case neg =>
      refine .inr ?_
      have hroom err (s : State) (hs : process w s req = errorRsp w req err) : err.length ≤ 16373 := by
        have ⟨t, buf, he⟩ : ∃ t buf, errorRsp w req err = some (t, buf) := by simp [errorRsp, hr]
        exact (length_errorRsp hw he).mp (h s t buf (hs.trans he)).1
      have h₁ := hroom _ _ process_unknown
      have h₂ := hroom _ _ process_forbidden
      rw [length_notExist] at h₁
      rw [length_notAllow] at h₂
      exact ⟨by omega, by omega⟩

-- A request with names of one letter.
theorem process_fits_short :
    Wire.msgpack.Standard ∧
    (Req.encode Wire.msgpack ⟨.ascii "n", .ascii "s", 1, false, []⟩).length ≤ maxSize ∧
    ∀ s t buf, process Wire.msgpack s ⟨.ascii "n", .ascii "s", 1, false, []⟩ = some (t, buf) →
      buf.length ≤ maxSize ∧ (messageEncode buf).isSome := by
  have hin : (Req.encode Wire.msgpack ⟨.ascii "n", .ascii "s", 1, false, []⟩).length ≤ maxSize := by
    decide
  refine ⟨Wire.msgpack_standard, hin, ?_⟩
  exact (process_fits_iff Wire.msgpack_standard hin).mpr <| .inr ⟨by decide, by decide⟩

-- A namespace of 16370 bytes makes a request that is just not too long. The gate does not know the service,
-- and the error with the name of it is too long to be sent.
theorem process_panics : ∃ req s t buf, (Req.encode Wire.msgpack req).length ≤ maxSize ∧
    process Wire.msgpack s req = some (t, buf) ∧ maxSize < buf.length ∧ messageEncode buf = none := by
  let req : Req := ⟨List.replicate 16370 0x6e, [], 1, false, []⟩
  have hw := Wire.msgpack_standard
  have hns : req.nameSpace.length = 16370 := List.length_replicate
  have hin : (Req.encode Wire.msgpack req).length = 16384 := by
    rw [Req.encode, hw.length_rpcEncode rfl]
    simp only [List.length_append, hw.str, hw.uint32, hw.bool, hw.bin, hns, Msgpack.length_strHeader,
      Msgpack.length_binHeader]
    decide
  have ⟨t, buf, he, hbuf⟩ : ∃ t buf, errorRsp Wire.msgpack req (notExist req) = some (t, buf) ∧
      buf.length = 16400 := by
    refine ⟨_, _, rfl, ?_⟩
    rw [hw.length_rpcEncode rfl]
    simp only [List.length_append, hw.str, hw.uint32, hw.nil, length_notExist, hns, Msgpack.length_strHeader]
    decide
  have hlt : maxSize < buf.length := hbuf ▸ by decide
  refine ⟨req, _, t, buf, Nat.le_of_eq hin, process_unknown.trans he, hlt, ?_⟩
  exact messageEncode_eq_none hlt (hbuf ▸ by decide)

end Route
