import Microservice.Framework.Theorems.RpcDecode
import Microservice.Framework.Theorems.RpcHandle
import Microservice.Framework.Theorems.SimpleRpcMgr
import Microservice.Gate.AccessReport

namespace AccessReport

open SimpleRpc SimpleRpcMgr

variable {ρ : Type} {w : Wire ρ} {session : SessionState} {nameSpace service key : Bytes}
variable {entries : List (Bytes × Bool)} {d : Defaults ρ} {ops : List (Op ρ)} {rmgr : SimpleRpcMgr ρ}

-- The report of a service gets to the handler of the gate with the table in it.
theorem report_decoded {β : Type*} (others : Bytes → Option (Generator β)) (hw : w.Inverts maxSize)
    (hs : Admitted session) (hle : (rpcPermissionReport w nameSpace service entries).length ≤ maxSize) :
    ∃ msg, messageEncode (rpcPermissionReport w nameSpace service entries) = some msg ∧
      handlers w (rpcs w others) session msg =
        some [.inl ⟨nameSpace ++ .ascii ":" ++ service, .ofEntries entries⟩] := by
  refine handlers_of_rpcEncode (rpcs w others) hw hs (if_pos rfl) ?_
    (nameSpace ++ .ascii ":" ++ service, entries, ()) ?_ hle
  · simp only [reqFields, List.mem_cons, List.not_mem_nil, or_false]
    rintro f (rfl | rfl)
    · exact hw.str
    · exact hw.access
  · simp [rpcPermissionReport, reqFields, Codec.encodeAll]

-- The reports of other services leave the entry of a service as it is.
theorem foldl_process_of_ne {t : Partial Bytes (Partial Bytes Bool)} {reqs : List Req}
    (h : ∀ req ∈ reqs, req.serviceKey ≠ key) : reqs.foldl process t key = t key := by
  induction reqs generalizing t
  case nil => rfl
  case cons req reqs hi =>
    rw [List.foldl_cons, hi fun r hr => h r (List.mem_cons_of_mem _ hr), process,
      Partial.insert_of_ne (h req List.mem_cons_self).symm]

-- Once the report of a service has come in, and until the next one for it, a client gate lets the request of
-- a client for the service pass just if the handler that the service has registered last for the inner rpc
-- permits it. It does not matter in which order the encoder finds the entries of the table.
theorem client_permitted_iff {β : Type*} (others : Bytes → Option (Generator β)) (nameSpace service : Bytes)
    (hw : w.Inverts maxSize) (hs : Admitted session) (hset : setUp d ops = .ok rmgr)
    (he : Partial.Enumerates entries rmgr.clientAccess)
    (hle : (rpcPermissionReport w nameSpace service entries).length ≤ maxSize) :
    ∃ msg report, messageEncode (rpcPermissionReport w nameSpace service entries) = some msg ∧
      handlers w (rpcs w others) session msg = some [.inl report] ∧
      ∀ (t : Partial Bytes (Partial Bytes Bool)) (reqs : List Req) (s : Route.State) (req : Route.Req),
        (∀ r ∈ reqs, r.serviceKey ≠ report.serviceKey) →
        s.identity = .clientGate → s.isTcpClient = true →
        s.gClientAccess = reqs.foldl process (process t report) →
        req.nameSpace ++ .ascii ":" ++ req.service = nameSpace ++ .ascii ":" ++ service →
        (Route.permission w s req = none ↔ ∃ h, Partial.ofEntries (d.generators ++ registrations ops)
          (w.rpcName req.innerRpc).1 = some (.user h (some true))) := by
  obtain ⟨msg, hm, hd⟩ := report_decoded others hw hs hle
  refine ⟨msg, _, hm, hd, fun t reqs s req hne hid htcp hacc hkey => ?_⟩
  have hentry : s.gClientAccess (req.nameSpace ++ .ascii ":" ++ req.service) = some rmgr.clientAccess := by
    rw [hacc, hkey, foldl_process_of_ne hne, process, he.ofEntries_eq, Partial.insert_self]
  rw [← rpcs_of_setUp hset, ← clientAccess_eq_true_iff hset, Route.permission, if_pos ⟨hid, htcp⟩, hentry]
  simp only
  split
  case h_1 h => exact iff_of_true rfl h
  case h_2 h => exact iff_of_false nofun h

-- A service with the rpc `x` for clients.
def demoHandler : RpcHandle.UserHandler Unit :=
  ⟨[⟨⟨.ascii "S", .ascii "*string"⟩, Bytes, Msgpack.str⟩], fun _ err => ⟨err, some (), false⟩⟩

def demoDefaults : Defaults Unit :=
  ⟨demoHandler, demoHandler, demoHandler⟩

def demoOps : List (Op Unit) :=
  [.registRpcHandler (.ascii "x") (.user demoHandler (some true)), .stopRcpHandlerRegist]

theorem client_permitted_iff_registered :
    ∃ entries msg report,
      messageEncode (rpcPermissionReport Wire.msgpack (.ascii "n") (.ascii "s") entries) = some msg ∧
      handlers Wire.msgpack (rpcs Wire.msgpack fun _ => (none : Option (Generator Unit))) none msg =
        some [.inl report] ∧
      Route.permission Wire.msgpack ⟨.clientGate, true, process (fun _ => none) report, none, 0⟩
        ⟨.ascii "n", .ascii "s", 0, false, RpcHandle.demoRpc⟩ = none := by
  let entries : List (Bytes × Bool) :=
    [(.ascii "b", false), (.ascii "t", false), (.ascii "d", false), (.ascii "e", false), (.ascii "f", false),
      (.ascii "x", true)]
  obtain ⟨rmgr, hset, hacc⟩ : ∃ rmgr, setUp demoDefaults demoOps = .ok rmgr ∧
      rmgr.clientAccess = .ofEntries entries := ⟨_, rfl, rfl⟩
  have he : Partial.Enumerates entries rmgr.clientAccess := hacc ▸ Partial.enumerates_ofEntries (by decide)
  have hs : Admitted none := by simp [Admitted]
  obtain ⟨msg, report, hm, hd, hp⟩ := client_permitted_iff (fun _ => (none : Option (Generator Unit)))
    (.ascii "n") (.ascii "s") (Wire.msgpack_inverts (by decide)) hs hset he (by decide)
  refine ⟨entries, msg, report, hm, hd, (hp (fun _ => none) [] _ _ ?_ rfl rfl rfl rfl).mpr ⟨demoHandler, rfl⟩⟩
  exact fun _ hr => absurd hr List.not_mem_nil

end AccessReport
