import Microservice.Framework.SimpleRpcMgr
import Microservice.Gate.Route

-- The handler of the reports of the services, with its message as it is on the wire.
namespace AccessReport

open SimpleRpc

variable {ρ : Type}

-- `RpcS2GRpcAccessReportReq`
structure Req where
  serviceKey : Bytes
  access     : Partial Bytes Bool

def reqFields (w : Wire ρ) : List (Codec.Field RpcHandle.FieldName) :=
  [⟨⟨.ascii "ServiceKey", .ascii "*string"⟩, Bytes, w.str⟩,
    ⟨⟨.ascii "Access", .ascii "*map[string]bool"⟩, List (Bytes × Bool), w.access⟩]

-- The entries of a map are set in the order in which they are read.
def generator (w : Wire ρ) : Generator Req where
  fields := reqFields w
  handler | (serviceKey, entries, _) => ⟨serviceKey, .ofEntries entries⟩

-- `RpcS2GRpcAccessReportHandler.Process`
def process (gClientAccess : Partial Bytes (Partial Bytes Bool)) (req : Req) :
    Partial Bytes (Partial Bytes Bool) :=
  gClientAccess.insert req.serviceKey req.access

-- The table of a gate, of whose handlers all others are left open.
def rpcs {β : Type*} (w : Wire ρ) (others : Bytes → Option (Generator β)) (rpcName : Bytes) :
    Option (Generator (Req ⊕ β)) :=
  if rpcName = .ascii msgS2GRpcAccessReport then
    some ⟨reqFields w, fun values => .inl ((generator w).handler values)⟩
  else
    (others rpcName).map fun gen => ⟨gen.fields, fun values => .inr (gen.handler values)⟩

end AccessReport
