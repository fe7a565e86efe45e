import Mathlib.Data.List.Basic

-- The `EtcdDriver` of a service, which registers it. What etcd answers, and when, is left open: a request may
-- succeed or fail at any time. Times are in milliseconds.
namespace Registrar

abbrev LeaseID := Int

inductive Goroutine
  | main
  | watch
  deriving DecidableEq

-- Where a call of `ServiceRegist` is: before the answer to one of its requests, or at the receive from `ch`. Its
-- mutex is left out, since no two calls overlap.
inductive Regist
  | grant
  | put
  | keepAlive
  | receive
  deriving DecidableEq

-- The goroutine that calls `Start` and, in the end, `Stop`.
inductive Main
  | new
  | regist (pc : Regist)
  | leaseWatch
  | started
  | serving
  | revoke
  | close
  | exit
  | stopped
  deriving DecidableEq

-- The goroutine of `LeaseWatch`. `loop` is the condition of its loop.
inductive Watch
  | idle
  | loop
  | select
  | get
  | regist (pc : Regist)
  | ended
  deriving DecidableEq

-- The requests come with their answers, but for `Revoke`, whose answer does not matter. `Get` finds the key, or
-- does not, or fails.
inductive Event
  | tick (d : Nat)
  | new (ok : Bool)
  | grant (g : Goroutine) (lease : Option LeaseID)
  | put (g : Goroutine) (lease : LeaseID) (value : Nat) (ok : Bool)
  | keepAlive (g : Goroutine) (lease : LeaseID) (ok : Bool)
  | receive (g : Goroutine)
  | get (found : Option Bool)
  | revoke (lease : LeaseID)
  | leaseWatch
  | started
  | stop
  | close
  | exit
  | loop
  | select
  deriving DecidableEq

end Registrar

-- `cli` is whether there is a client of etcd. `timeCh` is when `timeCh` has a value, and the last two fields are
-- when the goroutines have come to where they are.
structure Registrar where
  now        : Nat
  cli        : Bool
  lease      : Option Registrar.LeaseID
  leaseDV    : Nat
  exit       : Bool
  main       : Registrar.Main
  watch      : Registrar.Watch
  timeCh     : Nat
  mainSince  : Nat
  watchSince : Nat

namespace Registrar

def start (now : Nat) : Registrar where
  now        := now
  cli        := false
  lease      := none
  leaseDV    := 0
  exit       := false
  main       := .new
  watch      := .idle
  timeCh     := now
  mainSince  := now
  watchSince := now

-- A step of `ServiceRegist`, with where it is then, or `none` if it has returned.
inductive Regist.Step (g : Goroutine) (s : Registrar) : Regist → Event → Option Regist → Registrar → Prop
  | granted {id : LeaseID} : Step g s .grant (.grant g (some id)) (some .put) { s with lease := some id }
  | grantFailed : Step g s .grant (.grant g none) none s
  -- The value is from `GenEtcdServiceValue`.
  | put {id : LeaseID} {ok : Bool} :
    s.lease = some id →
    Step g s .put (.put g id (s.leaseDV + 1) ok) (if ok then some .keepAlive else none)
      { s with leaseDV := s.leaseDV + 1 }
  | keepAlive {id : LeaseID} {ok : Bool} :
    s.lease = some id → Step g s .keepAlive (.keepAlive g id ok) (if ok then some .receive else none) s
  | receive : Step g s .receive (.receive g) none s

def setMain (s : Registrar) (main : Main) : Registrar :=
  { s with main := main, mainSince := s.now }

def setWatch (s : Registrar) (watch : Watch) : Registrar :=
  { s with watch := watch, watchSince := s.now }

-- The watch is back at its loop, with a new timer.
def rearm (s : Registrar) (d : Nat) : Registrar :=
  { s.setWatch .loop with timeCh := s.now + d }

-- The watch is in a call of `ServiceRegist`, or back from it.
def setRegist (s : Registrar) (pc : Option Regist) : Registrar :=
  pc.elim (s.rearm 1000) (s.setWatch <| .regist ·)

-- What `Stop` does after it has revoked the lease.
def closing (s : Registrar) : Main :=
  if s.cli then .close else .exit

def stopping (s : Registrar) : Main :=
  if s.lease.isSome then .revoke else s.closing

-- `Start` and `Stop`
inductive Main.Step (s : Registrar) : Event → Registrar → Prop
  | new {ok : Bool} :
    s.main = .new → Step s (.new ok) ({ s with cli := ok }.setMain (if ok then .regist .grant else .serving))
  | regist {pc : Regist} {pc' : Option Regist} {e : Event} {s' : Registrar} :
    s.main = .regist pc → Regist.Step .main s pc e pc' s' → Step s e (s'.setMain (pc'.elim .leaseWatch .regist))
  | leaseWatch : s.main = .leaseWatch → Step s .leaseWatch ((s.rearm 1000).setMain .started)
  | started : s.main = .started → Step s .started ({ s with exit := false }.setMain .serving)
  | stop : s.main = .serving → Step s .stop (s.setMain s.stopping)
  | revoke {id : LeaseID} : s.main = .revoke → s.lease = some id → Step s (.revoke id) (s.setMain s.closing)
  | close : s.main = .close → Step s .close (s.setMain .exit)
  | exit : s.main = .exit → Step s .exit ({ s with exit := true }.setMain .stopped)

-- `LeaseWatch`
inductive Watch.Step (s : Registrar) : Event → Registrar → Prop
  | loop : s.watch = .loop → Step s .loop (s.setWatch (if s.exit then .ended else .select))
  | select : s.watch = .select → s.timeCh ≤ s.now → Step s .select (s.setWatch .get)
  | found : s.watch = .get → Step s (.get (some true)) (s.rearm (5 * 1000))
  | missing : s.watch = .get → Step s (.get (some false)) (s.setWatch (.regist .grant))
  | failed : s.watch = .get → Step s (.get none) (s.rearm 1000)
  | regist {pc : Regist} {pc' : Option Regist} {e : Event} {s' : Registrar} :
    s.watch = .regist pc → Regist.Step .watch s pc e pc' s' → Step s e (s'.setRegist pc')

inductive Step (s : Registrar) : Event → Registrar → Prop
  | tick {d : Nat} : Step s (.tick d) { s with now := s.now + d }
  | main {e : Event} {s' : Registrar} : Main.Step s e s' → Step s e s'
  | watch {e : Event} {s' : Registrar} : Watch.Step s e s' → Step s e s'

end Registrar
