import Microservice.Framework.LoadBalancer
import Microservice.Lib.Exec
import Microservice.Lib.Partial

-- The accept loop of a `TcpServer` next to the read loops that it has started.
namespace AcceptLoop

-- `onTcpAcceptBusi` does nothing if it is not set. The one of the push service calls methods of the client.
structure Cfg where
  isService : Bool
  busiCalls : Bool

-- The lookups `s.clients[connID]` that follow the registration of a client: for `HandleRead`, for
-- `RpcPermissionReport` and for `onTcpAcceptBusi`.
inductive Lookup
  | handleRead
  | rpcPermissionReport
  | onTcpAcceptBusi
  deriving DecidableEq

-- What the loop does next: accept a connection, register the client of the connection `c`, add it to the
-- load balancer, or look it up. A call of a method of a nil client ends the process.
inductive Pc
  | accept
  | register (c : Nat)
  | addElement (c : Nat)
  | lookup (c : Nat) (l : Lookup)
  | ended
  | panicked

-- The read loop of a connection is not started yet, it runs, or it has run `onClientClose`.
inductive Phase
  | accepted
  | reading
  | closed
  deriving DecidableEq

structure Conn where
  connID : String
  phase  : Phase

end AcceptLoop

-- A connection, and its client, go by the position in `conns`.
structure AcceptLoop where
  clients : Partial String Nat
  lb      : LoadBalancer
  stop    : Bool
  conns   : List AcceptLoop.Conn
  pc      : AcceptLoop.Pc

namespace AcceptLoop

def start : AcceptLoop where
  clients _ := none
  lb        := .empty
  stop      := false
  conns     := []
  pc        := .accept

def setPhase (s : AcceptLoop) (c : Nat) (conn : Conn) (phase : Phase) : AcceptLoop :=
  { s with conns := s.conns.set c { conn with phase := phase } }

-- `onClientClose`. It removes whatever is registered under the address.
def onClientClose (s : AcceptLoop) (connID : String) : AcceptLoop :=
  { s with clients := s.clients.erase connID, lb := (s.lb.delElement connID).1 }

-- Where the loop goes on after a lookup.
def next (cfg : Cfg) (c : Nat) : Lookup → Pc
  | .handleRead          => .lookup c (if cfg.isService then .rpcPermissionReport else .onTcpAcceptBusi)
  | .rpcPermissionReport => .lookup c .onTcpAcceptBusi
  | .onTcpAcceptBusi     => .accept

-- Whether a lookup that yields nil makes the loop call a method of it. A nil client whose `HandleRead` is
-- started panics as well, in a goroutine of its own.
def calls (cfg : Cfg) : Lookup → Bool
  | .handleRead | .rpcPermissionReport => true
  | .onTcpAcceptBusi                   => cfg.busiCalls

inductive Event
  | accept (connID : String)
  | register (c : Nat)
  | refuse (c : Nat)
  | addElement (c : Nat)
  | lookup (c : Nat) (l : Lookup) (client : Option Nat)
  | onClientClose (c : Nat)
  | stop

-- The addresses of the connections are distinct. A read loop may end at any time after its start.
inductive Act (cfg : Cfg) (s : AcceptLoop) : Event → AcceptLoop → Prop
  | accept (connID : String) :
    s.pc = .accept → s.stop = false → (∀ conn ∈ s.conns, conn.connID ≠ connID) →
    Act cfg s (.accept connID)
      { s with conns := s.conns ++ [⟨connID, .accepted⟩], pc := .register s.conns.length }
  | register {c : Nat} {conn : Conn} :
    s.pc = .register c → s.conns[c]? = some conn → s.stop = false →
    Act cfg s (.register c) { s with clients := s.clients.insert conn.connID c, pc := .addElement c }
  | refuse {c : Nat} :
    s.pc = .register c → s.stop = true → Act cfg s (.refuse c) { s with pc := .ended }
  | addElement {c : Nat} {conn : Conn} :
    s.pc = .addElement c → s.conns[c]? = some conn →
    Act cfg s (.addElement c)
      { s with lb := (s.lb.addElement conn.connID).1, pc := .lookup c .handleRead }
  | handleRead {c client : Nat} {conn conn' : Conn} :
    s.pc = .lookup c .handleRead → s.conns[c]? = some conn → s.clients conn.connID = some client →
    s.conns[client]? = some conn' →
    Act cfg s (.lookup c .handleRead (some client))
      { s.setPhase client conn' .reading with pc := next cfg c .handleRead }
  | lookup {c client : Nat} {l : Lookup} {conn : Conn} :
    s.pc = .lookup c l → l ≠ .handleRead → s.conns[c]? = some conn →
    s.clients conn.connID = some client →
    Act cfg s (.lookup c l (some client)) { s with pc := next cfg c l }
  | lookupNil {c : Nat} {l : Lookup} {conn : Conn} :
    s.pc = .lookup c l → s.conns[c]? = some conn → s.clients conn.connID = none →
    Act cfg s (.lookup c l none) { s with pc := if calls cfg l then .panicked else next cfg c l }
  | onClientClose {c : Nat} {conn : Conn} :
    s.conns[c]? = some conn → conn.phase = .reading →
    Act cfg s (.onClientClose c) ((s.setPhase c conn .closed).onClientClose conn.connID)
  | stop : Act cfg s .stop { s with stop := true }

structure Step (cfg : Cfg) (s : AcceptLoop) (e : Event) (s' : AcceptLoop) : Prop where
  alive : s.pc ≠ .panicked
  act   : Act cfg s e s'

end AcceptLoop
