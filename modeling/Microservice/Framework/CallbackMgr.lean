import Microservice.Lib.Exec
import Microservice.Lib.Partial

abbrev Ptr := Nat

-- A node of the queue. `timeOutCb` is the callback to run on expiry, if it is not nil.
structure Node (τ : Type*) where
  cbid      : UInt32
  endTime   : Int
  timeOutCb : Option τ
  prev      : Option Ptr
  next      : Option Ptr

-- `gPriorityQueue` together with the nodes on the heap, of which those below `alloc` are allocated.
structure PriorityQueue (τ : Type*) where
  heap      : Ptr → Node τ
  alloc     : Nat
  firstNode : Option Ptr
  lastNode  : Option Ptr
  size      : Int

namespace PriorityQueue

variable {β τ : Type*}

def empty : PriorityQueue τ where
  heap _    := { cbid := 0, endTime := 0, timeOutCb := none, prev := none, next := none }
  alloc     := 0
  firstNode := none
  lastNode  := none
  size      := 0

-- A new node on the heap, at the address `alloc`.
def new (q : PriorityQueue τ) (cbid : UInt32) (endTime : Int) (timeOutCb : Option τ) :
    PriorityQueue τ :=
  { q with
    heap  := Function.update q.heap q.alloc ⟨cbid, endTime, timeOutCb, none, none⟩
    alloc := q.alloc + 1 }

def setPrev (q : PriorityQueue τ) (node : Ptr) (prev : Option Ptr) : PriorityQueue τ :=
  { q with heap := Function.update q.heap node { q.heap node with prev := prev } }

def setNext (q : PriorityQueue τ) (node : Ptr) (next : Option Ptr) : PriorityQueue τ :=
  { q with heap := Function.update q.heap node { q.heap node with next := next } }

-- The loop of `queueAdd`. It looks for the place behind `cur` and never in front of it. The fuel
-- bounds the number of nodes it may visit, `none` means that it is used up.
def queueAdd.loop (node : Ptr) (q : PriorityQueue τ) : Nat → Ptr → Option (PriorityQueue τ)
  | 0, _ => none
  | fuel + 1, cur =>
    match (q.heap cur).next with
    | none =>
      some { (q.setNext cur node).setPrev node cur with lastNode := node }
    | some next =>
      if (q.heap node).endTime ≥ (q.heap next).endTime then
        some ((((q.setNext cur node).setPrev node cur).setNext node next).setPrev next node)
      else
        loop node q fuel next

def queueAdd (node : Ptr) (q : PriorityQueue τ) : Option (PriorityQueue τ) :=
  let q := { q with size := q.size + 1 }
  match q.firstNode with
  | none       => some { q with firstNode := node, lastNode := node }
  | some first => queueAdd.loop node q q.alloc first

def queueDel (node : Ptr) (q : PriorityQueue τ) : PriorityQueue τ :=
  let prev := (q.heap node).prev
  let next := (q.heap node).next
  let q := match prev with
    | none   => q
    | some p => q.setNext p next
  let q := match next with
    | none   => q
    | some n => q.setPrev n prev
  let q := (q.setPrev node none).setNext node none
  { q with
    firstNode := if q.firstNode = some node then next else q.firstNode
    lastNode  := if q.lastNode = some node then prev else q.lastNode
    size      := q.size - 1 }

-- What a tick works on: the queue, `gCbMap` and the timeout callbacks called so far.
structure Ticking (β τ : Type*) where
  queue  : PriorityQueue τ
  gCbMap : Partial UInt32 (β × Ptr)
  called : List τ

-- The critical section and the timeout callback for one overdue node.
def Ticking.expire (t : Ticking β τ) (cur : Ptr) : Ticking β τ :=
  let node := t.queue.heap cur
  { t with
    gCbMap := t.gCbMap.erase node.cbid
    called := if (t.gCbMap node.cbid).isSome then t.called ++ node.timeOutCb.toList else t.called }

-- The loop of `priorityQueueTick`, from the last node of the queue to the first.
def priorityQueueTick.loop (now : Int) : Nat → Option Ptr → Ticking β τ → Option (Ticking β τ)
  | _, none, t            => some t
  | 0, some _, _          => none
  | fuel + 1, some cur, t =>
    let prev := (t.queue.heap cur).prev
    if (t.queue.heap cur).endTime ≤ now then
      let t := t.expire cur
      loop now fuel prev { t with queue := t.queue.queueDel cur }
    else
      some t

def priorityQueueTick (now : Int) (t : Ticking β τ) : Option (Ticking β τ) :=
  priorityQueueTick.loop now t.queue.alloc t.queue.lastNode t

end PriorityQueue

-- Where the goroutine of `StartCallbackMgr` is: in its `select`, before a `queueAdd` or `queueDel` of
-- a node that was handed over, or inside of a tick. A tick stands before a node, before the call of
-- its timeout callback or before its removal from the queue. It has read the predecessor of the node
-- before.
inductive Mgr
  | select
  | add (node : Ptr)
  | del (node : Ptr)
  | walk (now : Int) (cur : Option Ptr)
  | call (now : Int) (cur : Ptr) (prev : Option Ptr)
  | unlink (now : Int) (cur : Ptr) (prev : Option Ptr)

-- The callback manager of a process. The channels are unbuffered: they hold the nodes that some
-- `AddCallBack` or `GetCallBack` is waiting to hand over.
structure CallbackMgr (β τ : Type*) where
  queue      : PriorityQueue τ
  gCbMap     : Partial UInt32 (β × Ptr)
  chQueueAdd : List Ptr
  chQueueDel : List Ptr
  mgr        : Mgr

namespace CallbackMgr

variable {β τ : Type*}

def init : CallbackMgr β τ where
  queue      := .empty
  gCbMap _   := none
  chQueueAdd := []
  chQueueDel := []
  mgr        := .select

-- `AddCallBack` up to the point where it waits to hand over its node.
def addCallBack (m : CallbackMgr β τ) (cbid : UInt32) (cbs : β) (waitTime : Int8) (now : Int)
    (timeOutCb : Option τ) : CallbackMgr β τ :=
  { m with
    queue      := m.queue.new cbid (waitTime.toInt + now) timeOutCb
    gCbMap     := m.gCbMap.insert cbid (cbs, m.queue.alloc)
    chQueueAdd := m.chQueueAdd ++ [m.queue.alloc] }

-- `GetCallBack` up to the point where it waits to hand over the node it found, or returns nil.
def getCallBack (m : CallbackMgr β τ) (cbid : UInt32) : CallbackMgr β τ :=
  match m.gCbMap cbid with
  | none           => m
  | some (_, node) =>
    { m with
      gCbMap     := m.gCbMap.erase cbid
      chQueueDel := m.chQueueDel ++ [node] }

inductive MgrEvent (τ : Type*)
  | recvAdd (node : Ptr)
  | recvDel (node : Ptr)
  | queueAdd (node : Ptr)
  | queueDel (node : Ptr)
  | tick (now : Int)
  | expire (cbid : UInt32) (now : Int)
  | stale (cbid : UInt32)
  | call (cbid : UInt32) (now : Int) (timeOutCb : τ)
  | unlink (node : Ptr)
  | done

-- The steps of the goroutine of `StartCallbackMgr`. Each critical section, each hand-over and each
-- call of a timeout callback is a step of its own.
inductive MgrStep : CallbackMgr β τ → MgrEvent τ → CallbackMgr β τ → Prop
  | recvAdd :
    m.mgr = .select → node ∈ m.chQueueAdd →
    MgrStep m (.recvAdd node) { m with chQueueAdd := m.chQueueAdd.erase node, mgr := .add node }
  | recvDel :
    m.mgr = .select → node ∈ m.chQueueDel →
    MgrStep m (.recvDel node) { m with chQueueDel := m.chQueueDel.erase node, mgr := .del node }
  | queueAdd :
    m.mgr = .add node → m.queue.queueAdd node = some q →
    MgrStep m (.queueAdd node) { m with queue := q, mgr := .select }
  | queueDel :
    m.mgr = .del node →
    MgrStep m (.queueDel node) { m with queue := m.queue.queueDel node, mgr := .select }
  | tick :
    m.mgr = .select → MgrStep m (.tick now) { m with mgr := .walk now m.queue.lastNode }
  | finish :
    m.mgr = .walk now none → MgrStep m .done { m with mgr := .select }
  | break :
    m.mgr = .walk now (some cur) → now < (m.queue.heap cur).endTime →
    MgrStep m .done { m with mgr := .select }
  | stale :
    m.mgr = .walk now (some cur) → (m.queue.heap cur).endTime ≤ now →
    m.gCbMap (m.queue.heap cur).cbid = none →
    MgrStep m (.stale (m.queue.heap cur).cbid)
      { m with mgr := .unlink now cur (m.queue.heap cur).prev }
  | expire :
    m.mgr = .walk now (some cur) → (m.queue.heap cur).endTime ≤ now →
    m.gCbMap (m.queue.heap cur).cbid = some e →
    MgrStep m (.expire (m.queue.heap cur).cbid now)
      { m with
        gCbMap := m.gCbMap.erase (m.queue.heap cur).cbid
        mgr    := match (m.queue.heap cur).timeOutCb with
          | none   => .unlink now cur (m.queue.heap cur).prev
          | some _ => .call now cur (m.queue.heap cur).prev }
  | call :
    m.mgr = .call now cur prev → (m.queue.heap cur).timeOutCb = some cb →
    MgrStep m (.call (m.queue.heap cur).cbid now cb) { m with mgr := .unlink now cur prev }
  | unlink :
    m.mgr = .unlink now cur prev →
    MgrStep m (.unlink cur) { m with queue := m.queue.queueDel cur, mgr := .walk now prev }

inductive Event (β τ : Type*)
  | add (cbid : UInt32) (cbs : β) (endTime : Int) (timeOutCb : Option τ)
  | get (cbid : UInt32) (cbs : Option β)
  | mgr (e : MgrEvent τ)

-- The callback manager under any use by the other goroutines of the process.
inductive Step : CallbackMgr β τ → Event β τ → CallbackMgr β τ → Prop
  | add (cbid : UInt32) (cbs : β) (waitTime : Int8) (now : Int) (timeOutCb : Option τ) :
    Step m (.add cbid cbs (waitTime.toInt + now) timeOutCb)
      (m.addCallBack cbid cbs waitTime now timeOutCb)
  | get (cbid : UInt32) :
    Step m (.get cbid ((m.gCbMap cbid).map Prod.fst)) (m.getCallBack cbid)
  | mgr :
    MgrStep m e m' → Step m (.mgr e) m'

end CallbackMgr
