import Microservice.Framework.LoadBalancer
import Microservice.Lib.Partial

-- `namespace:service`
abbrev RemoteId := String

-- `ip:port`
abbrev ConnId := String

-- A TCP connection. Two connections to one address differ in their handle.
structure Conn where
  handle     : Nat
  remoteAddr : ConnId
  deriving DecidableEq

def getConnID (c : Conn) : ConnId :=
  c.remoteAddr

def genConnIDByIPPort (ip : String) (port : UInt32) : ConnId :=
  ip ++ ":" ++ toString port.toNat

def getRemoteID (nameSpace svrName : String) : RemoteId :=
  nameSpace ++ ":" ++ svrName

structure Remote where
  id   : RemoteId
  conn : Conn
  deriving DecidableEq

-- The ordered cache of a client is a map that is shared by reference: a call that looked it up keeps
-- it while the client's entry is deleted and made anew. So the entries are references into `caches`.
structure RemoteMgr where
  remotes      : Partial ConnId Remote
  lbs          : Partial RemoteId LoadBalancer
  orderedCache : Partial ConnId Nat
  caches       : Nat → Partial RemoteId ConnId
  alloc        : Nat

namespace RemoteMgr

def createRemoteMgr : RemoteMgr where
  remotes      := fun _ => none
  lbs          := fun _ => none
  orderedCache := fun _ => none
  caches       := fun _ _ => none
  alloc        := 0

-- The load balancer of a remote id, made if there is none.
def lb (m : RemoteMgr) (remoteID : RemoteId) : LoadBalancer :=
  (m.lbs remoteID).getD .empty

-- What happens once `c` is connected. A connection that is not put into `remotes` has no read loop.
def connectRemote (m : RemoteMgr) (nameSpace svrName ip : String) (port : UInt32) (c : Conn) :
    RemoteMgr :=
  let connID := genConnIDByIPPort ip port
  if (m.remotes connID).isSome then
    m
  else
    let remoteID := getRemoteID nameSpace svrName
    match (m.lb remoteID).addElement connID with
    | (l, false) => { m with lbs := m.lbs.insert remoteID l }
    | (l, true)  =>
      { m with
        lbs     := m.lbs.insert remoteID l
        remotes := m.remotes.insert connID { id := remoteID, conn := c } }

-- `none` is the nil pointer dereference that ends the process.
def onRemoteDisappear (m : RemoteMgr) (remoteID : RemoteId) (connID : ConnId) : Option RemoteMgr :=
  if (m.remotes connID).isSome then
    match m.lbs remoteID with
    | none   => none
    | some l =>
      some { m with
        remotes := m.remotes.erase connID
        lbs     := m.lbs.insert remoteID (l.delElement connID).fst }
  else
    some m

-- The steps of the manager that change which remotes there are. Each of them runs under the
-- manager's lock from its first access to its last.
inductive Event
  | connectRemote (nameSpace svrName ip : String) (port : UInt32) (c : Conn)
  | onRemoteDisappear (remoteID : RemoteId) (connID : ConnId)

def step (m : RemoteMgr) : Event → Option RemoteMgr
  | .connectRemote nameSpace svrName ip port c => some (m.connectRemote nameSpace svrName ip port c)
  | .onRemoteDisappear remoteID connID         => m.onRemoteDisappear remoteID connID

def getRemote (m : RemoteMgr) (connID : ConnId) : Option Remote :=
  m.remotes connID

-- What the first critical section of `ChioceRemoteFromOrderCache` finds. With a cached address that
-- is no longer connected, the call goes on to delete it from the cache it found.
inductive OrderCache
  | miss
  | stale (cache : Nat)
  | hit (remote : Remote)

def chioceRemoteFromOrderCache (m : RemoteMgr) (remoteID : RemoteId) (clientID : ConnId) :
    OrderCache :=
  match m.orderedCache clientID with
  | none       => .miss
  | some cache =>
    match m.caches cache remoteID with
    | none        => .miss
    | some connID =>
      match m.remotes connID with
      | none        => .stale cache
      | some remote => .hit remote

def setCache (m : RemoteMgr) (cache : Nat) (entries : Partial RemoteId ConnId) : RemoteMgr :=
  { m with caches := Function.update m.caches cache entries }

def dropStale (m : RemoteMgr) (remoteID : RemoteId) (cache : Nat) : RemoteMgr :=
  m.setCache cache ((m.caches cache).erase remoteID)

def updateRemoteOrderCache (m : RemoteMgr) (remoteID : RemoteId) (clientID connID : ConnId) :
    RemoteMgr :=
  match m.orderedCache clientID with
  | some cache => m.setCache cache ((m.caches cache).insert remoteID connID)
  | none       =>
    { m with
      orderedCache := m.orderedCache.insert clientID m.alloc
      caches       := Function.update m.caches m.alloc (Partial.insert (fun _ => none) remoteID connID)
      alloc        := m.alloc + 1 }

def delRemoteOrderCache (m : RemoteMgr) (clientID : ConnId) : RemoteMgr :=
  { m with orderedCache := m.orderedCache.erase clientID }

-- The points between the critical sections of `ChoiceRemote`.
inductive Choice
  | start
  | stale (cache : Nat)
  | balance
  | snapshot
  | cursor (m : List String)
  | weight (ele : String)
  | lookup (connID : ConnId)
  | update (connID : ConnId) (remote : Remote)
  | returned (remote : Option Remote)
  | panicked

def Choice.Running : Choice → Prop
  | .returned _ | .panicked => False
  | _                       => True

def setLb (m : RemoteMgr) (remoteID : RemoteId) (l : LoadBalancer) : RemoteMgr :=
  { m with lbs := m.lbs.insert remoteID l }

-- One critical section of `ChoiceRemote(remoteID, isOrdered, clientID)`. The load balancer that
-- `balance` finds stays the one of `remoteID`: no entry of `lbs` is ever deleted or replaced.
def choiceRemote (m : RemoteMgr) (remoteID : RemoteId) (isOrdered : Bool) (clientID : ConnId) :
    Choice → RemoteMgr × Choice
  | .start =>
    if isOrdered then
      match m.chioceRemoteFromOrderCache remoteID clientID with
      | .hit remote  => (m, .returned (some remote))
      | .stale cache => (m, .stale cache)
      | .miss        => (m, .balance)
    else
      (m, .balance)
  | .stale cache => (m.dropStale remoteID cache, .balance)
  | .balance =>
    match m.lbs remoteID with
    | none   => (m, .returned none)
    | some _ => (m, .snapshot)
  | .snapshot =>
    match (m.lb remoteID).snapshot with
    | [] => (m, .weight "")
    | s  => (m, .cursor s)
  | .cursor s =>
    match (m.lb remoteID).moveCursor s with
    | (l, some ele) => (m.setLb remoteID l, .weight ele)
    | (l, none)     => (m.setLb remoteID l, .panicked)
  | .weight ele => (m.setLb remoteID ((m.lb remoteID).addWeight ele), .lookup ele)
  | .lookup connID =>
    match m.getRemote connID with
    | none        => (m, .returned none)
    | some remote => (m, if isOrdered then .update connID remote else .returned (some remote))
  | .update connID remote =>
    (m.updateRemoteOrderCache remoteID clientID connID, .returned (some remote))
  | .returned remote => (m, .returned remote)
  | .panicked        => (m, .panicked)

end RemoteMgr
