import Microservice.Framework.LoadBalancer
import Microservice.Lib.Exec

-- The points between the critical sections of `LoadBalance`. `m` is the sorted copy of the elements. A
-- call that finds no elements chooses the empty string.
inductive LoadBalancer.Call
  | snapshot
  | cursor (m : List String)
  | weight (ele : String)
  | returned (ele : String)
  | panicked

-- A load balancer and the calls of `LoadBalance` that goroutines make on it.
structure Balancing where
  lb    : LoadBalancer
  calls : List LoadBalancer.Call

namespace Balancing

def start (lb : LoadBalancer) : Balancing where
  lb    := lb
  calls := []

-- A critical section of a call has the number of the call, `cursor` also the element that it chooses.
inductive Event
  | addElement (ele : String)
  | delElement (ele : String)
  | loadBalance
  | snapshot (i : Nat)
  | cursor (i : Nat) (ele : String)
  | outOfRange (i : Nat)
  | weight (i : Nat)

def setCall (s : Balancing) (i : Nat) (lb : LoadBalancer) (call : LoadBalancer.Call) : Balancing where
  lb    := lb
  calls := s.calls.set i call

inductive Step (s : Balancing) : Event → Balancing → Prop
  | addElement (ele) : Step s (.addElement ele) { s with lb := (s.lb.addElement ele).fst }
  | delElement (ele) : Step s (.delElement ele) { s with lb := (s.lb.delElement ele).fst }
  | loadBalance : Step s .loadBalance { s with calls := s.calls ++ [.snapshot] }
  -- `LoadBalanceRoundRobin`
  | noElements {i} :
    s.calls[i]? = some .snapshot → s.lb.snapshot = [] →
    Step s (.snapshot i) (s.setCall i s.lb (.weight ""))
  | snapshot {i} :
    s.calls[i]? = some .snapshot → s.lb.snapshot ≠ [] →
    Step s (.snapshot i) (s.setCall i s.lb (.cursor s.lb.snapshot))
  | cursor {i m lb ele} :
    s.calls[i]? = some (.cursor m) → s.lb.moveCursor m = (lb, some ele) →
    Step s (.cursor i ele) (s.setCall i lb (.weight ele))
  | outOfRange {i m lb} :
    s.calls[i]? = some (.cursor m) → s.lb.moveCursor m = (lb, none) →
    Step s (.outOfRange i) (s.setCall i lb .panicked)
  -- the rest of `LoadBalance`
  | weight {i ele} :
    s.calls[i]? = some (.weight ele) →
    Step s (.weight i) (s.setCall i (s.lb.addWeight ele) (.returned ele))

end Balancing
