import Microservice.Framework.Discovery
import Microservice.Lib.Strings
import Mathlib.Algebra.Group.Nat.Defs
import Mathlib.Data.List.ReduceOption

structure GlobalConfig where
  nameSpace : String
  service   : String
  port      : Int

namespace EtcdDriver

def genEtcdServiceKey (cfg : GlobalConfig) (localIP : String) : String :=
  "/ms/" ++ cfg.nameSpace ++ "/" ++ cfg.service ++ "/" ++ localIP ++ ":" ++ toString cfg.port

def genEtcdWatchKey (nameSpace : String) : String :=
  "/ms/" ++ nameSpace

-- What `ServiceDiscover` and `ServiceWatch` take from a key. Where they index out of range, it is `none`.
structure RemoteInfo where
  nameSpace : String
  service   : String
  ip        : String
  port      : UInt32

def onRemoteDiscover (info : RemoteInfo) : Discovery.Event :=
  .put info.nameSpace info.service info.ip info.port

def onRemoteDisappear (info : RemoteInfo) : Discovery.Event :=
  .delete info.nameSpace info.service info.ip info.port

inductive EventType
  | put
  | delete
  | unknown

-- The goroutine that is started for one event. An event of an unknown type is logged.
def EventType.handle : EventType → RemoteInfo → Option Discovery.Event
  | .put, info    => some (onRemoteDiscover info)
  | .delete, info => some (onRemoteDisappear info)
  | .unknown, _   => none

-- The keys that etcd has for a query or a watch with a prefix.
def withPrefix (p : String) (keys : List String) : List String :=
  keys.filter fun key => p.toList.isPrefixOf key.toList

end EtcdDriver
