import Microservice.Framework.RemoteMgr

-- The services that a gate knows: its goroutines for the events of etcd, the read loops of its
-- connections, and the requests that it routes meanwhile.

-- The points between the critical sections of a goroutine of `OnRemoteDiscover`. At `connect c`, the
-- connection `c` is made and not yet looked at.
inductive Discover.Pc
  | check
  | dial (retryCnt : Nat)
  | connect (c : Conn)
  | done

structure Discover where
  nameSpace : String
  svrName   : String
  ip        : String
  port      : UInt32
  pc        : Discover.Pc

namespace Discover

def connID (d : Discover) : ConnId :=
  genConnIDByIPPort d.ip d.port

def remoteID (d : Discover) : RemoteId :=
  getRemoteID d.nameSpace d.svrName

end Discover

-- A call of `ChoiceRemote`.
structure RouteCall where
  remoteID  : RemoteId
  isOrdered : Bool
  clientID  : ConnId
  choice    : RemoteMgr.Choice

-- `disappears` are the goroutines of `OnRemoteDisappear` that wait for the lock, `loops` are the remotes
-- whose `HandleRead` runs, and `dialled` is the number of connections made so far.
structure Discovery where
  mgr        : RemoteMgr
  discovers  : List Discover
  disappears : List (RemoteId × ConnId)
  loops      : List Remote
  calls      : List RouteCall
  dialled    : Nat

namespace Discovery

def create : Discovery where
  mgr        := .createRemoteMgr
  discovers  := []
  disappears := []
  loops      := []
  calls      := []
  dialled    := 0

-- `put` is also what `ServiceDiscover` does for each key that it gets. `exit r` is the end of the read
-- loop of `r`, and `close` that of a client.
inductive Event
  | put (nameSpace svrName ip : String) (port : UInt32)
  | delete (nameSpace svrName ip : String) (port : UInt32)
  | check (i : Nat)
  | refused (i : Nat)
  | dialled (i : Nat)
  | connect (i : Nat)
  | disappear (remoteID : RemoteId) (connID : ConnId)
  | exit (r : Remote)
  | call (remoteID : RemoteId) (isOrdered : Bool) (clientID : ConnId)
  | choose (i : Nat)
  | close (clientID : ConnId)

def setPc (s : Discovery) (i : Nat) (d : Discover) (pc : Discover.Pc) : Discovery :=
  { s with discovers := s.discovers.set i { d with pc := pc } }

-- A failed attempt is repeated until none is left.
def retry (retryCnt : Nat) : Discover.Pc :=
  if retryCnt - 1 > 0 then .dial (retryCnt - 1) else .done

-- The read loops that `ConnectRemote` starts: that of a remote which it has put into `remotes`.
def started (m m' : RemoteMgr) (connID : ConnId) : List Remote :=
  match m.remotes connID with
  | none   => (m'.remotes connID).toList
  | some _ => []

def connectRemote (s : Discovery) (d : Discover) (c : Conn) : Discovery :=
  let mgr := s.mgr.connectRemote d.nameSpace d.svrName d.ip d.port c
  { s with mgr := mgr, loops := s.loops ++ started s.mgr mgr d.connID }

-- A step that is not possible is `none`, and so is one that ends the process.
def step (s : Discovery) : Event → Option Discovery
  | .put nameSpace svrName ip port =>
    some { s with discovers := s.discovers ++ [⟨nameSpace, svrName, ip, port, .check⟩] }
  | .delete nameSpace svrName ip port =>
    let disappear := (getRemoteID nameSpace svrName, genConnIDByIPPort ip port)
    some { s with disappears := s.disappears ++ [disappear] }
  | .check i =>
    match s.discovers[i]? with
    | some d@⟨_, _, _, _, .check⟩ =>
      some <| s.setPc i d (if (s.mgr.remotes d.connID).isSome then .done else .dial 5)
    | _ => none
  | .refused i =>
    match s.discovers[i]? with
    | some d@⟨_, _, _, _, .dial retryCnt⟩ => some <| s.setPc i d (retry retryCnt)
    | _                                   => none
  | .dialled i =>
    match s.discovers[i]? with
    | some d@⟨_, _, _, _, .dial _⟩ =>
      some { s.setPc i d (.connect ⟨s.dialled, d.connID⟩) with dialled := s.dialled + 1 }
    | _ => none
  | .connect i =>
    match s.discovers[i]? with
    | some d@⟨_, _, _, _, .connect c⟩ => some <| (s.setPc i d .done).connectRemote d c
    | _                               => none
  | .disappear remoteID connID =>
    if (remoteID, connID) ∈ s.disappears then
      (s.mgr.onRemoteDisappear remoteID connID).map fun mgr =>
        { s with mgr := mgr, disappears := s.disappears.erase (remoteID, connID) }
    else
      none
  | .exit r =>
    if r ∈ s.loops then
      (s.mgr.onRemoteDisappear r.id (getConnID r.conn)).map fun mgr =>
        { s with mgr := mgr, loops := s.loops.erase r }
    else
      none
  | .call remoteID isOrdered clientID =>
    some { s with calls := s.calls ++ [⟨remoteID, isOrdered, clientID, .start⟩] }
  | .choose i =>
    match s.calls[i]? with
    | some call =>
      let (mgr, choice) := s.mgr.choiceRemote call.remoteID call.isOrdered call.clientID call.choice
      some { s with mgr := mgr, calls := s.calls.set i { call with choice := choice } }
    | none => none
  | .close clientID => some { s with mgr := s.mgr.delRemoteOrderCache clientID }

-- The step relation.
def Step (s : Discovery) (e : Event) (s' : Discovery) : Prop :=
  s.step e = some s'

end Discovery
