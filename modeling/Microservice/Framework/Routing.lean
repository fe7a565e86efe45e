import Microservice.Framework.RemoteMgr
import Microservice.Lib.Exec
import Mathlib.Logic.Function.Iterate

-- The remote manager when its operations run one after the other.
namespace RemoteMgr

def critical (remoteID : RemoteId) (isOrdered : Bool) (clientID : ConnId) (s : RemoteMgr × Choice) :
    RemoteMgr × Choice :=
  s.1.choiceRemote remoteID isOrdered clientID s.2

-- A call of `ChoiceRemote` from its start to its end. It has eight critical sections at most.
def choose (m : RemoteMgr) (remoteID : RemoteId) (isOrdered : Bool) (clientID : ConnId) :
    RemoteMgr × Choice :=
  (critical remoteID isOrdered clientID)^[8] (m, .start)

-- `handle` is the number of the connection that `ConnectRemote` makes. Its remote address is the one that was
-- dialled.
inductive Op
  | choose (remoteID : RemoteId) (isOrdered : Bool) (clientID : ConnId) (remote : Option Remote)
  | discover (nameSpace svrName ip : String) (port : UInt32) (handle : Nat)
  | disappear (remoteID : RemoteId) (connID : ConnId)
  | close (clientID : ConnId)

inductive OpStep (m : RemoteMgr) : Op → RemoteMgr → Prop
  | choose {remoteID isOrdered clientID m' remote} :
    m.choose remoteID isOrdered clientID = (m', .returned remote) →
    OpStep m (.choose remoteID isOrdered clientID remote) m'
  | discover (nameSpace svrName ip port handle) :
    OpStep m (.discover nameSpace svrName ip port handle)
      (m.connectRemote nameSpace svrName ip port ⟨handle, genConnIDByIPPort ip port⟩)
  | disappear {remoteID connID m'} :
    m.onRemoteDisappear remoteID connID = some m' → OpStep m (.disappear remoteID connID) m'
  | close (clientID) : OpStep m (.close clientID) (m.delRemoteOrderCache clientID)

end RemoteMgr
