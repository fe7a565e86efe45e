import Microservice.Framework.Session

namespace TaskPool

-- The two channels that tasks are sent on.
inductive Ch
  | taskCh
  | separateCh
  deriving DecidableEq

-- How far a task is. It is counted, and its producer waits to send it. It is in the buffer of `taskCh`. A
-- worker has received it and runs it. It has returned. The worker has counted it down.
inductive Stage
  | produced
  | queued
  | running
  | returned
  | finished
  deriving DecidableEq

structure Task (α : Type*) where
  func  : α
  ch    : Ch
  stage : Stage

def Task.unfinished (task : Task α) : Bool :=
  task.stage ≠ .finished

-- The task occupies one of the workers behind its channel.
def Task.busy (ch : Ch) (task : Task α) : Bool :=
  task.ch = ch ∧ (task.stage = .running ∨ task.stage = .returned)

end TaskPool

-- `tasks` are the tasks that were produced, in the order of their increments. A task goes by its position.
structure TaskPool (α : Type*) where
  size   : Int32
  taskCh : List Nat
  tasks  : List (TaskPool.Task α)

namespace TaskPool

open Session (taskChSize coroutinesSize)

def init : TaskPool α where
  size   := 0
  taskCh := []
  tasks  := []

def setStage (t : TaskPool α) (i : Nat) (task : Task α) (stage : Stage) : TaskPool α :=
  { t with tasks := t.tasks.set i { task with stage := stage } }

-- The number of tasks that are counted and not counted down.
def unfinished (t : TaskPool α) : Nat :=
  t.tasks.countP Task.unfinished

-- The number of busy workers behind a channel.
def busy (t : TaskPool α) (ch : Ch) : Nat :=
  t.tasks.countP (Task.busy ch)

inductive Event (α : Type*)
  | produce (func : α) (ch : Ch)
  | send (i : Nat)
  | start (i : Nat) (func : α) (ch : Ch)
  | return (i : Nat) (func : α) (ch : Ch)
  | finish (i : Nat)
  | stop

-- The pool under any use. Tasks may be produced at any time, by whatever goroutine.
inductive Step (t : TaskPool α) : Event α → TaskPool α → Prop
  -- `ProduceTask` and `ProduceTaskSeparate`, before they send the task.
  | produce (func : α) (ch : Ch) :
    Step t (.produce func ch)
      { t with size := t.size + 1, tasks := t.tasks ++ [⟨func, ch, .produced⟩] }
  | send {i : Nat} {task : Task α} :
    t.tasks[i]? = some task → task.ch = .taskCh → task.stage = .produced →
    t.taskCh.length < taskChSize →
    Step t (.send i) { t.setStage i task .queued with taskCh := t.taskCh ++ [i] }
  -- One of the workers behind `taskCh` receives the oldest task of the buffer.
  | start {i : Nat} {is : List Nat} {task : Task α} :
    t.taskCh = i :: is → t.tasks[i]? = some task → t.busy .taskCh < coroutinesSize →
    Step t (.start i task.func task.ch) { t.setStage i task .running with taskCh := is }
  -- `separateCh` has no buffer and one worker.
  | startSeparate {i : Nat} {task : Task α} :
    t.tasks[i]? = some task → task.ch = .separateCh → task.stage = .produced →
    t.busy .separateCh < 1 →
    Step t (.start i task.func task.ch) (t.setStage i task .running)
  | return {i : Nat} {task : Task α} :
    t.tasks[i]? = some task → task.stage = .running →
    Step t (.return i task.func task.ch) (t.setStage i task .returned)
  | finish {i : Nat} {task : Task α} :
    t.tasks[i]? = some task → task.stage = .returned →
    Step t (.finish i) { t.setStage i task .finished with size := t.size - 1 }
  -- `StopTaskPool` returns.
  | stop : t.size = 0 → Step t .stop t

end TaskPool
