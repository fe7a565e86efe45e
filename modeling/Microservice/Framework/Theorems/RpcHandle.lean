import Microservice.Framework.RpcHandle
import Microservice.Framework.Theorems.RpcEncode

namespace Wire

variable {ρ : Type} {w : Wire ρ} {buf : Bytes}

-- Decoding goes forward, and a byte slice is shorter than what it is decoded from.
structure Shrinks (w : Wire ρ) : Prop where
  str    : w.str.Consumes
  uint32 : w.uint32.Consumes
  bin    : ∀ bs b rest, w.bin.decode bs = (.ok b, rest) → b.length < bs.length

theorem Shrinks.rpcName (hw : w.Shrinks) : (w.rpcName buf).2.length ≤ buf.length := by
  have h := hw.str buf
  unfold Wire.rpcName
  split
  all_goals
    rename_i hd
    rwa [hd] at h

theorem msgpack_shrinks : msgpack.Shrinks where
  str    := Msgpack.str_consumes
  uint32 := Msgpack.uint32_consumes
  bin    := fun _ _ _ => Msgpack.bin_shrinks

end Wire

namespace RpcHandle

open SimpleRpc

variable {ρ : Type} {w : Wire ρ} {rpcs : Bytes → Option (Handler ρ)} {grid grid' : UInt32}
variable {innerRpc innerRpc' err : Bytes} {call : UInt32 → Bytes → Bytes → Option (Effect ρ)}
variable {a : Bytes × Option ρ} {eff : Effect ρ} {fuel : Nat}

-- The call that the inner rpc of a call is.
def nested (w : Wire ρ) (rpcs : Bytes → Option (Handler ρ)) (innerRpc : Bytes) : Option (UInt32 × Bytes) :=
  match rpcs (w.rpcName innerRpc).1 with
  | some .call =>
    match (Codec.decodeAll (callFields w) (w.rpcName innerRpc).2).1 with
    | .ok (grid, innerRpc, _) => some (grid, innerRpc)
    | .error _                => none
  | _ => none

-- `MSG_G2S_RPC_CALL`
def callEncode (w : Wire ρ) (grid : UInt32) (innerRpc : Bytes) : Bytes :=
  w.rpcEncode (.ascii msgG2SRpcCall) (w.uint32.encode grid ++ w.bin.encode innerRpc)

-- What a call with an id is answered.
def answer (w : Wire ρ) (rpcs : Bytes → Option (Handler ρ)) (err innerRpc : Bytes) : Bytes × Option ρ :=
  let (rpcName, rest) := w.rpcName innerRpc
  match rpcs rpcName with
  | none   => (notExist rpcName, none)
  | some h =>
    match (Codec.decodeAll (h.fields w) rest).1 with
    | .error (field, e) => (decodeError rpcName field e, none)
    | .ok values        =>
      match h, values with
      | .call, _        => (needResponse rpcName, none)
      | .user h, values =>
        match (h.process values err).rsp with
        | none       => (needResponse rpcName, none)
        | some reply => ((h.process values err).err, some reply)

theorem nested_eq_some (h : nested w rpcs innerRpc = some (grid', innerRpc')) :
    rpcs (w.rpcName innerRpc).1 = some .call ∧
    (Codec.decodeAll (callFields w) (w.rpcName innerRpc).2).1 = .ok (grid', innerRpc', ()) := by
  unfold nested at h
  split at h
  case h_1 hr =>
    split at h <;> cases h
    exact ⟨hr, ‹_›⟩
  case h_2 => cases h

theorem length_notExist {rpcName : Bytes} : (notExist rpcName).length = rpcName.length + 14 := by
  have h₁ : (Bytes.ascii "rpc ").length = 4 := by decide
  have h₂ : (Bytes.ascii " not exist").length = 10 := by decide
  simp only [notExist, List.length_append, h₁, h₂]
  omega

-- A call inside of a call is shorter.
theorem length_of_nested (hw : w.Shrinks) (h : nested w rpcs innerRpc = some (grid', innerRpc')) :
    innerRpc'.length < innerRpc.length := by
  have hd := (nested_eq_some h).2
  have hname : (w.rpcName innerRpc).2.length ≤ innerRpc.length := hw.rpcName
  simp only [callFields, Codec.decodeAll] at hd
  split at hd
  case h_1 => cases hd
  case h_2 grid rest hg =>
    have hgrid := hw.uint32 (w.rpcName innerRpc).2
    rw [hg] at hgrid
    split at hd
    case h_1 => cases hd
    case h_2 values rest' hv =>
      cases hd
      split at hv
      case h_1 => cases hv
      case h_2 hb =>
        have hbin := hw.bin _ _ _ hb
        cases hv
        simp only at hgrid
        omega

variable (grid err call) in
-- A call inside of a call is run, and there is nothing that it could respond with.
theorem rpcHandle_of_nested (h : nested w rpcs innerRpc = some (grid', innerRpc')) :
    rpcHandle w rpcs call grid innerRpc err = (call grid' innerRpc' err).map fun eff =>
      (if grid = 0 then ([], none) else answer w rpcs err innerRpc, { eff with panicked := false }) := by
  have ⟨hr, hv⟩ := nested_eq_some h
  have hv : (Codec.decodeAll (Handler.fields w .call) (w.rpcName innerRpc).2).1 = _ := hv
  simp only [rpcHandle, answer, hr, hv, Handler.process]
  cases call grid' innerRpc' err
  case none     => rfl
  case some eff => by_cases hg : grid = 0 <;> simp [hg, doProcessWithPanicProtect]

variable (grid err call) in
-- Anything else sends no response by itself.
theorem rpcHandle_of_not_nested (h : nested w rpcs innerRpc = none) :
    ∃ a err', rpcHandle w rpcs call grid innerRpc err = some (a, ⟨[], err', false⟩) ∧
      (grid ≠ 0 → a = answer w rpcs err innerRpc) := by
  cases hr : rpcs (w.rpcName innerRpc).1
  case none =>
    simp only [rpcHandle, answer, hr]
    exact ⟨_, _, rfl, fun _ => rfl⟩
  case some hd =>
    cases hv : (Codec.decodeAll (hd.fields w) (w.rpcName innerRpc).2).1
    case error =>
      simp only [rpcHandle, answer, hr, hv]
      exact ⟨_, _, rfl, fun _ => rfl⟩
    case ok values =>
      cases hd
      case call =>
        have ⟨_, _, _⟩ := values
        have hv : (Codec.decodeAll (callFields w) (w.rpcName innerRpc).2).1 = _ := hv
        simp [nested, hr, hv] at h
      case user hu =>
        simp only [rpcHandle, answer, hr, hv, Handler.process, doProcessWithPanicProtect]
        by_cases hg : grid = 0
        case pos => exact ⟨_, _, by rw [if_pos hg], fun hn => (hn hg).elim⟩
        case neg =>
          rw [if_neg hg]
          cases (hu.process values err).rsp
          case none => exact ⟨_, _, rfl, fun _ => rfl⟩
          case some => exact ⟨_, _, rfl, fun _ => rfl⟩

-- The calls inside of a call, at any depth.
inductive Nested (w : Wire ρ) (rpcs : Bytes → Option (Handler ρ)) : Bytes → UInt32 → Bytes → Prop
  | head {innerRpc innerRpc' : Bytes} {grid : UInt32} :
    nested w rpcs innerRpc = some (grid, innerRpc') → Nested w rpcs innerRpc grid innerRpc'
  | tail {innerRpc innerRpc' innerRpc'' : Bytes} {grid grid' : UInt32} :
    nested w rpcs innerRpc = some (grid', innerRpc') → Nested w rpcs innerRpc' grid innerRpc'' →
    Nested w rpcs innerRpc grid innerRpc''

-- The response to a call, and that it fits into a message.
def rsp (w : Wire ρ) (rpcs : Bytes → Option (Handler ρ)) (err : Bytes) (grid : UInt32) (innerRpc : Bytes) :
    Rsp ρ :=
  ⟨grid, (answer w rpcs err innerRpc).1, (answer w rpcs err innerRpc).2⟩

def Rsp.Fits (w : Wire ρ) (rsp : Rsp ρ) : Prop :=
  messageEncode (rsp.encode w) ≠ none

theorem Rsp.fits_iff {rsp : Rsp ρ} (h : (rsp.encode w).length < 2 ^ 32) :
    rsp.Fits w ↔ (rsp.encode w).length ≤ maxSize := by
  constructor
  case mp =>
    intro hf
    apply Nat.le_of_not_lt
    exact fun hlt => hf (messageEncode_eq_none hlt h)
  case mpr =>
    intro hle hn
    cases hn.symm.trans (messageEncode_eq_some hle)

-- The calls inside of the call respond to nothing.
def Silent (w : Wire ρ) (rpcs : Bytes → Option (Handler ρ)) (err innerRpc : Bytes) : Prop :=
  ∀ grid innerRpc', Nested w rpcs innerRpc grid innerRpc' →
    grid = 0 ∨ ¬(rsp w rpcs err grid innerRpc').Fits w

theorem silent_of_not_nested (h : nested w rpcs innerRpc = none) : Silent w rpcs err innerRpc := by
  intro grid innerRpc' hn
  cases hn
  case head hn   => cases h.symm.trans hn
  case tail hn _ => cases h.symm.trans hn

theorem silent_of_nested (h : nested w rpcs innerRpc = some (grid', innerRpc')) :
    Silent w rpcs err innerRpc ↔
    (grid' = 0 ∨ ¬(rsp w rpcs err grid' innerRpc').Fits w) ∧ Silent w rpcs err innerRpc' := by
  constructor
  case mp => exact fun hs => ⟨hs _ _ (.head h), fun _ _ hn => hs _ _ (.tail h hn)⟩
  case mpr =>
    intro ⟨hg, hs⟩ _ _ hn
    cases hn
    case head hn   => cases h.symm.trans hn; exact hg
    case tail hn _ => cases h.symm.trans hn; exact hs _ _ ‹_›

-- What a call does once what is inside of it has been done.
theorem process_of_rpcHandle
    (h : rpcHandle w rpcs (process w rpcs fuel) grid innerRpc err = some (a, eff)) (hp : eff.panicked = false)
    (ha : grid ≠ 0 → a = answer w rpcs err innerRpc) :
    ∃ eff', process w rpcs (fuel + 1) grid innerRpc err = some eff' ∧
      (eff'.panicked = false ↔ grid = 0 ∨ (rsp w rpcs err grid innerRpc).Fits w) ∧
      (eff'.sent = eff.sent ∧ (grid = 0 ∨ ¬(rsp w rpcs err grid innerRpc).Fits w) ∨
        eff'.sent = eff.sent ++ [rsp w rpcs err grid innerRpc] ∧ grid ≠ 0 ∧
          (rsp w rpcs err grid innerRpc).Fits w) := by
  simp only [process, h]
  by_cases hg : grid = 0
  case pos => exact ⟨eff, by rw [if_pos hg], by simp [hp, hg], .inl ⟨rfl, .inl hg⟩⟩
  case neg =>
    have ha := ha hg
    subst ha
    rw [if_neg hg]
    cases hm : messageEncode ((rsp w rpcs err grid innerRpc).encode w)
    case none =>
      have hf : ¬(rsp w rpcs err grid innerRpc).Fits w := fun hf => hf hm
      simp only [rsp] at hm
      rw [hm]
      exact ⟨{ eff with panicked := true }, rfl, by simp [hg, hf], .inl ⟨rfl, .inr hf⟩⟩
    case some msg =>
      have hf : (rsp w rpcs err grid innerRpc).Fits w := fun hf => nomatch hm.symm.trans hf
      simp only [rsp] at hm
      rw [hm]
      exact ⟨_, rfl, by simp [hp, hf], .inr ⟨rfl, hg, hf⟩⟩

variable (rpcs grid err) in
-- The induction is on the fuel, which is used up by the depth of the calls. What the calls inside have sent
-- comes first.
theorem process_sent (hw : w.Shrinks) (hf : innerRpc.length < fuel) :
    ∃ eff inner, process w rpcs fuel grid innerRpc err = some eff ∧
      (eff.panicked = false ↔ grid = 0 ∨ (rsp w rpcs err grid innerRpc).Fits w) ∧
      (inner = [] ↔ Silent w rpcs err innerRpc) ∧
      (eff.sent = inner ∧ (grid = 0 ∨ ¬(rsp w rpcs err grid innerRpc).Fits w) ∨
        eff.sent = inner ++ [rsp w rpcs err grid innerRpc] ∧ grid ≠ 0 ∧
          (rsp w rpcs err grid innerRpc).Fits w) := by
  induction fuel generalizing grid innerRpc
  case zero => exact absurd hf (Nat.not_lt_zero _)
  case succ fuel hi =>
    cases hn : nested w rpcs innerRpc
    case none =>
      have ⟨a, err', hr, ha⟩ := rpcHandle_of_not_nested grid err (process w rpcs fuel) hn
      have ⟨eff, hp, hpanic, hsent⟩ := process_of_rpcHandle hr rfl ha
      exact ⟨eff, [], hp, hpanic, iff_of_true rfl (silent_of_not_nested hn), hsent⟩
    case some call =>
      have ⟨grid', innerRpc'⟩ := call
      have hlt := length_of_nested hw hn
      have ⟨eff', inner', hp', _, hinner', hsent'⟩ := @hi grid' innerRpc' (by omega)
      have hr := rpcHandle_of_nested grid err (process w rpcs fuel) hn
      rw [hp'] at hr
      have ⟨eff, hp, hpanic, hsent⟩ := process_of_rpcHandle hr rfl (fun hg => if_neg hg)
      refine ⟨eff, eff'.sent, hp, hpanic, ?_, hsent⟩
      rw [silent_of_nested hn, ← hinner']
      cases hsent'
      case inl hs => simp [hs.1, hs.2]
      case inr hs => simp [hs.1, hs.2.1, hs.2.2]

variable (rpcs grid innerRpc err fuel) in
-- A call is responded to exactly once, and to nothing if it has no id, if and only if the response fits and
-- no call inside of it responds.
theorem process_responds_once_iff (hw : w.Shrinks) (hf : innerRpc.length < fuel) :
    ∃ eff, process w rpcs fuel grid innerRpc err = some eff ∧
      (eff.panicked = false ∧ eff.sent.map Rsp.grid = (if grid = 0 then [] else [grid]) ↔
        (grid = 0 ∨ (rsp w rpcs err grid innerRpc).Fits w) ∧ Silent w rpcs err innerRpc) := by
  have ⟨eff, inner, hp, hpanic, hinner, hsent⟩ := process_sent rpcs grid err hw hf
  refine ⟨eff, hp, ?_⟩
  rw [hpanic, ← hinner]
  apply and_congr_right
  intro hfits
  cases hsent
  case inl hs =>
    have hg : grid = 0 := hs.2.elim id fun hn => hfits.resolve_right hn
    simp [hs.1, hg]
  case inr hs => simp [hs.1, hs.2.1, rsp]

-- A service with the calls and an rpc of one string.
def demoRpcs (rpcName : Bytes) : Option (Handler Unit) :=
  if rpcName = .ascii msgG2SRpcCall ∨ rpcName = .ascii msgG2SRpcCallOrdered then
    some .call
  else if rpcName = .ascii "x" then
    some <| .user ⟨[⟨⟨.ascii "S", .ascii "*string"⟩, Bytes, Msgpack.str⟩], fun _ err => ⟨err, some (), false⟩⟩
  else
    none

def demoRpc : Bytes :=
  Wire.msgpack.rpcEncode (.ascii "x") (Msgpack.str.encode (Bytes.ascii "y"))

theorem process_responds_to_user : ∃ eff, process Wire.msgpack demoRpcs 5 7 demoRpc [] = some eff ∧
    eff.panicked = false ∧ eff.sent.map Rsp.grid = [7] := by
  have hn : nested Wire.msgpack demoRpcs demoRpc = none := by decide
  have hf : (rsp Wire.msgpack demoRpcs [] 7 demoRpc).Fits Wire.msgpack :=
    (Rsp.fits_iff (by decide)).mpr (by decide)
  have ⟨eff, hp, hiff⟩ := process_responds_once_iff demoRpcs 7 demoRpc [] 5 Wire.msgpack_shrinks (by decide)
  exact ⟨eff, hp, hiff.mpr ⟨.inr hf, silent_of_not_nested hn⟩⟩

-- The call of a call.
example : (process Wire.msgpack demoRpcs 25 7 (callEncode Wire.msgpack 7 demoRpc) []).map
    (·.sent.map Rsp.grid) = some [7, 7] := by
  decide

-- A name of 16371 bytes makes a call that is just not too long. There is no such rpc, and the error with the
-- name is too long to be sent. Nothing recovers from the panic of that.
theorem process_panics_unknown : ∃ innerRpc, (callEncode Wire.msgpack 1 innerRpc).length ≤ maxSize ∧
    ∀ fuel > 0, process Wire.msgpack (fun _ => none) fuel 1 innerRpc [] = some ⟨[], [], true⟩ := by
  have ⟨rpcName, hlen⟩ : ∃ rpcName : Bytes, rpcName.length = 16371 :=
    ⟨List.replicate 16371 0x6e, List.length_replicate⟩
  have hw := Wire.msgpack_standard
  have hinner : (Msgpack.str.encode rpcName).length = 16374 := by
    rw [Msgpack.length_str, hlen, Msgpack.length_strHeader]
    decide
  have hname : Wire.msgpack.rpcName (Msgpack.str.encode rpcName) = (rpcName, []) := by
    have hd := Msgpack.str_inverts (N := 16374) (by decide) rpcName [] (Nat.le_of_eq hinner)
    rw [List.append_nil] at hd
    simp only [Wire.rpcName, Wire.msgpack, hd]
  have hrsp : (Rsp.encode Wire.msgpack ⟨1, notExist rpcName, none⟩).length = 16396 := by
    rw [Rsp.encode, hw.length_rpcEncode rfl]
    simp only [List.length_append, hw.str, hw.uint32, hw.nil, length_notExist, hlen, Msgpack.length_strHeader]
    decide
  refine ⟨Msgpack.str.encode rpcName, ?_, ?_⟩
  case refine_1 =>
    rw [callEncode, hw.length_rpcEncode rfl]
    simp only [List.length_append, hw.uint32, hw.bin, hinner, Msgpack.length_binHeader]
    decide
  case refine_2 =>
    intro fuel hf
    cases fuel
    case zero => cases hf
    case succ =>
      have hnone : messageEncode (Rsp.encode Wire.msgpack ⟨1, notExist rpcName, none⟩) = none :=
        messageEncode_eq_none (hrsp ▸ by decide) (hrsp ▸ by decide)
      simp only [process, rpcHandle, hname, hnone]
      rfl

end RpcHandle
