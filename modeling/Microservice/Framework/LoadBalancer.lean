import Mathlib.Data.List.AList
import Mathlib.Data.List.Sort
import Mathlib.Data.String.Basic

-- The elements with their weights. A nil map and an empty one behave alike: `AddElement` makes the
-- map before it writes to it.
structure LoadBalancer where
  elements : AList fun _ : String => UInt32
  rrbIdx   : UInt16

namespace LoadBalancer

def empty : LoadBalancer where
  elements := ∅
  rrbIdx   := 0

instance : Membership String LoadBalancer where
  mem l ele := ele ∈ l.elements

instance (ele : String) (l : LoadBalancer) : Decidable (ele ∈ l) :=
  inferInstanceAs (Decidable (ele ∈ l.elements))

def addElement (l : LoadBalancer) (ele : String) : LoadBalancer × Bool :=
  if ele ∈ l then (l, false) else ({ l with elements := l.elements.insert ele 0 }, true)

def delElement (l : LoadBalancer) (ele : String) : LoadBalancer × Bool :=
  if ele ∈ l then ({ l with elements := l.elements.erase ele }, true) else (l, false)

-- `LoadBalance` with the round robin strategy, the one `BALANCE_STRATEGY` is set to, takes the lock
-- three times: to copy the elements, to move the cursor over the copy, and to add to the weight of
-- the element it chose. Other calls can come between.
def snapshot (l : LoadBalancer) : List String :=
  l.elements.keys.insertionSort (· ≤ ·)

-- The length is compared after its conversion to 16 bits. An index out of range is a panic.
def moveCursor (l : LoadBalancer) (m : List String) : LoadBalancer × Option String :=
  let rrbIdx := if l.rrbIdx ≥ UInt16.ofNat m.length then 0 else l.rrbIdx
  ({ l with rrbIdx := rrbIdx + 1 }, m[rrbIdx.toNat]?)

def addWeight (l : LoadBalancer) (ele : String) : LoadBalancer :=
  match l.elements.lookup ele with
  | some weight => { l with elements := l.elements.replace ele (weight + 1) }
  | none        => l

end LoadBalancer
