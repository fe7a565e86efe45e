import Microservice.Framework.DefaultRpcHandler
import Microservice.Framework.SimpleRpc
import Microservice.Lib.Codec

-- The bytes of a text. Go strings are byte slices too, and what a client sends as one need not be a text.
def Bytes.ascii (s : String) : Bytes :=
  s.toList.map fun c => .ofNat c.toNat

-- The bytes of a Go string.
def Bytes.utf8 (s : String) : Bytes :=
  s.toByteArray.data.toList

-- What the framework needs of msgpack. `access` are the `map[string]bool`, with the entries in the order in
-- which they are written. `ρ` are the replies, `map[string]interface{}`, of which `none` is nil.
structure Wire (ρ : Type) where
  str    : Codec Bytes
  uint32 : Codec UInt32
  bool   : Codec Bool
  bin    : Codec Bytes
  access : Codec (List (Bytes × Bool))
  reply  : Codec (Option ρ)

namespace Wire

variable {ρ : Type}

-- `decoder.Decode(&rpcName)`. If it fails, the name stays empty.
def rpcName (w : Wire ρ) (buf : Bytes) : Bytes × Bytes :=
  match w.str.decode buf with
  | (.ok rpcName, rest) => (rpcName, rest)
  | (.error _, rest)    => ([], rest)

-- `args` is what the encoder writes for the arguments.
def rpcEncode (w : Wire ρ) (name : Bytes) (args : Bytes) : Bytes :=
  w.str.encode name ++ args

end Wire

namespace SimpleRpc

def maxSize : Nat :=
  maxPacketSize.toNat

def writePacketLen (v : UInt32) : Bytes :=
  [.ofNat (v.toNat / 2 ^ 8), .ofNat v.toNat]

-- A message that is too long is a panic.
def messageEncode (buf : Bytes) : Option Bytes :=
  let bufLen := UInt32.ofNat buf.length
  if bufLen > maxPacketSize then
    none
  else
    some (writePacketLen bufLen ++ buf.take bufLen.toNat)

end SimpleRpc
