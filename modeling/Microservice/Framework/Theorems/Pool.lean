import Microservice.Framework.Pool
import Microservice.Lib.Exec
import Microservice.Lib.Positions
import Mathlib.Data.List.Nodup

namespace TaskPool

open Session (taskChSize coroutinesSize)

variable {α : Type*} {t t' : TaskPool α} {e : Event α} {es : List (Event α)} {i j : Nat}
variable {task task' : Task α} {stage : Stage}

-- The stages that a task has still to go through.
def Stage.rank : Stage → Nat
  | .produced => 4
  | .queued   => 3
  | .running  => 2
  | .returned => 1
  | .finished => 0

-- The size is the number of unfinished tasks, and the buffer of `taskCh` has the tasks in it that are
-- queued.
structure Wf (t : TaskPool α) : Prop where
  size   : t.size = Int32.ofNat t.unfinished
  nodup  : t.taskCh.Nodup
  queued : ∀ i, i ∈ t.taskCh ↔ ∃ task, t.tasks[i]? = some task ∧ task.stage = .queued
  length : t.taskCh.length = t.tasks.countP (·.stage = .queued)
  ch     : ∀ (i : Nat) (task : Task α), t.tasks[i]? = some task → task.stage = .queued → task.ch = .taskCh

theorem init_wf : (init : TaskPool α).Wf where
  size   := rfl
  nodup  := List.nodup_nil
  queued := by simp [init]
  length := rfl
  ch     := by simp [init]

-- The task that a step brings further, and its new stage.
def Event.moved : Event α → Option (Nat × Stage)
  | .send i       => some (i, .queued)
  | .start i _ _  => some (i, .running)
  | .return i _ _ => some (i, .returned)
  | .finish i     => some (i, .finished)
  | _             => none

def Event.isProduce : Event α → Bool
  | .produce .. => true
  | _           => false

def Event.isFinish : Event α → Bool
  | .finish _ => true
  | _         => false

-- A step brings one task further, and counts it down at its end.
structure Moves (t : TaskPool α) (e : Event α) (t' : TaskPool α) (i : Nat) (task : Task α)
    (stage : Stage) : Prop where
  event  : e.moved = some (i, stage)
  lookup : t.tasks[i]? = some task
  rank   : stage.rank < task.stage.rank
  tasks  : t'.tasks = t.tasks.set i { task with stage := stage }
  size   : t'.size = if stage = .finished then t.size - 1 else t.size

-- What a step can do.
theorem Wf.effect (h : t.Wf) (hs : Step t e t') :
    (∃ func ch, e = .produce func ch ∧
      t' = { t with size := t.size + 1, tasks := t.tasks ++ [⟨func, ch, .produced⟩] }) ∨
    (∃ i task stage, Moves t e t' i task stage) ∨ (e = .stop ∧ t' = t ∧ t.size = 0) := by
  cases hs
  case produce func ch => exact .inl ⟨func, ch, rfl, rfl⟩
  case stop hz         => exact .inr <| .inr ⟨rfl, rfl, hz⟩
  case send i task hi _ hq _ =>
    exact .inr <| .inl ⟨i, task, .queued, rfl, hi, by simp [hq, Stage.rank], rfl, rfl⟩
  case start i is task hc hi _ =>
    -- The tasks in the buffer are queued.
    obtain ⟨task', hi', hq⟩ := (h.queued i).mp (by simp [hc])
    obtain rfl : task' = task := Option.some.inj (hi'.symm.trans hi)
    exact .inr <| .inl ⟨i, task', .running, rfl, hi, by simp [hq, Stage.rank], rfl, rfl⟩
  case startSeparate i task hi _ hq _ =>
    exact .inr <| .inl ⟨i, task, .running, rfl, hi, by simp [hq, Stage.rank], rfl, rfl⟩
  case «return» i task hi hq =>
    exact .inr <| .inl ⟨i, task, .returned, rfl, hi, by simp [hq, Stage.rank], rfl, rfl⟩
  case finish i task hi hq =>
    exact .inr <| .inl ⟨i, task, .finished, rfl, hi, by simp [hq, Stage.rank], rfl, rfl⟩

theorem Moves.finish (h : Moves t e t' i task stage) : e.isFinish ↔ stage = .finished := by
  have he := h.event
  cases e <;> cases he <;> simp [Event.isFinish]

-- A task is counted down once.
theorem Moves.unfinished (h : Moves t e t' i task stage) :
    t'.unfinished + e.isFinish.toNat = t.unfinished := by
  have hc := List.countP_set_of_eq_some (b := { task with stage := stage }) Task.unfinished h.lookup
  have hu : task.unfinished = true := by
    have hr : task.stage ≠ .finished := fun hf => by simpa [hf, Stage.rank] using h.rank
    simpa [Task.unfinished] using hr
  rw [← h.tasks, hu] at hc
  by_cases hf : stage = .finished
  case pos => simpa [TaskPool.unfinished, h.finish.mpr hf, hf, Task.unfinished] using hc
  case neg =>
    have he : e.isFinish = false := by simpa using mt h.finish.mp hf
    simpa [TaskPool.unfinished, he, hf, Task.unfinished] using hc

theorem Wf.size_step (h : t.Wf) (hs : Step t e t') : t'.size = Int32.ofNat t'.unfinished := by
  obtain ⟨func, ch, rfl, rfl⟩ | ⟨i, task, stage, hm⟩ | ⟨rfl, rfl, _⟩ := h.effect hs
  · simp only [unfinished, List.countP_append, List.countP_singleton, Task.unfinished, h.size]
    exact (Int32.ofNat_add _ 1).symm
  · rw [hm.size, h.size, ← hm.unfinished]
    by_cases hf : stage = .finished
    case pos =>
      rw [if_pos hf, hm.finish.mpr hf, Int32.ofNat_add]
      exact Int32.add_sub_cancel _ _
    case neg =>
      have he : e.isFinish = false := by simpa using mt hm.finish.mp hf
      rw [if_neg hf, he]
      rfl
  · exact h.size

-- The task that is brought further is the only one that can become queued, or be queued no more.
theorem queued_set_iff (hi : t.tasks[i]? = some task) :
    (∃ task', (t.tasks.set i { task with stage := stage })[j]? = some task' ∧ task'.stage = .queued) ↔
      if j = i then stage = .queued else ∃ task', t.tasks[j]? = some task' ∧ task'.stage = .queued := by
  by_cases hj : j = i
  case pos =>
    subst hj
    simp [List.getElem?_set_of_eq_some hi]
  case neg => simp [List.getElem?_set_ne (Ne.symm hj), hj]

theorem Wf.mem_taskCh_iff (h : t.Wf) (hi : t.tasks[i]? = some task) :
    i ∈ t.taskCh ↔ task.stage = .queued := by
  simp [h.queued, hi]

theorem Wf.nodup_step (h : t.Wf) (hs : Step t e t') : t'.taskCh.Nodup := by
  cases hs
  case send i task hi _ hp _ =>
    refine List.Nodup.append h.nodup (List.nodup_singleton i) ?_
    simp [h.mem_taskCh_iff hi, hp]
  case start hc _ _ => exact (List.nodup_cons.mp (hc ▸ h.nodup)).2
  all_goals exact h.nodup

theorem Wf.queued_step (h : t.Wf) (hs : Step t e t') :
    ∀ i, i ∈ t'.taskCh ↔ ∃ task, t'.tasks[i]? = some task ∧ task.stage = .queued := by
  intro j
  cases hs
  case produce func ch =>
    rw [h.queued]
    refine ⟨fun ⟨task, hj, hs⟩ => ⟨task, List.getElem?_append_of_eq_some hj, hs⟩, fun ⟨task, hj, hs⟩ => ?_⟩
    obtain hj | ⟨_, rfl⟩ := List.getElem?_concat_cases hj
    · exact ⟨task, hj, hs⟩
    · cases hs
  case stop => exact h.queued j
  case send i task hi _ hp _ =>
    rw [setStage, queued_set_iff hi, ← h.queued]
    by_cases hj : j = i <;> simp [hj]
  case start i is task hc hi _ =>
    have hn := List.nodup_cons.mp (hc ▸ h.nodup)
    rw [setStage, queued_set_iff hi, ← h.queued, hc]
    by_cases hj : j = i <;> simp [hj, hn.1]
  case startSeparate i task hi _ hp _ | «return» i task hi hp | finish i task hi hp =>
    rw [setStage, queued_set_iff hi, ← h.queued]
    by_cases hj : j = i <;> simp [hj, h.mem_taskCh_iff hi, hp]

theorem Wf.length_step (h : t.Wf) (hs : Step t e t') :
    t'.taskCh.length = t'.tasks.countP (·.stage = .queued) := by
  have hc {i : Nat} {task : Task α} (stage : Stage) (hi : t.tasks[i]? = some task) :=
    List.countP_set_of_eq_some (b := { task with stage := stage }) (·.stage = .queued) hi
  rw [← h.length] at hc
  cases hs
  case produce => simpa using h.length
  case stop    => exact h.length
  case send i task hi _ hp _ => simpa [setStage, hp] using (hc .queued hi).symm
  case start i is task hcons hi _ =>
    have hp := (h.mem_taskCh_iff hi).mp (by simp [hcons])
    simpa [setStage, hp, hcons] using (hc .running hi).symm
  case startSeparate hi _ hp _ => simpa [setStage, hp] using (hc .running hi).symm
  case «return» hi hp          => simpa [setStage, hp] using (hc .returned hi).symm
  case finish hi hp            => simpa [setStage, hp] using (hc .finished hi).symm

-- Only a task that is sent on `taskCh` becomes queued.
theorem Wf.ch_step (h : t.Wf) (hs : Step t e t') :
    ∀ (i : Nat) (task : Task α), t'.tasks[i]? = some task → task.stage = .queued → task.ch = .taskCh := by
  intro j task' hj hq
  cases hs
  case produce func ch =>
    obtain hj | ⟨_, rfl⟩ := List.getElem?_concat_cases hj
    · exact h.ch j task' hj hq
    · cases hq
  case stop => exact h.ch j task' hj hq
  case send hi hch _ _ =>
    obtain ⟨rfl, rfl⟩ | ⟨_, hj⟩ := List.getElem?_set_cases hj
    · exact hch
    · exact h.ch j task' hj hq
  all_goals
    obtain ⟨_, rfl⟩ | ⟨_, hj⟩ := List.getElem?_set_cases hj
    · cases hq
    · exact h.ch j task' hj hq

theorem Wf.step (h : t.Wf) (hs : Step t e t') : t'.Wf where
  size   := h.size_step hs
  nodup  := h.nodup_step hs
  queued := h.queued_step hs
  length := h.length_step hs
  ch     := h.ch_step hs

theorem wf_of_exec (h : Exec Step (init : TaskPool α) es t) : t.Wf :=
  h.preserves (I := Wf) init_wf fun _ _ _ hw hs => hw.step hs

-- The unfinished tasks are those that were counted by their producers, without those that were counted
-- down by the workers.
theorem Wf.counts (h : t.Wf) (hs : Step t e t') (hc : t.unfinished + es.countP Event.isFinish =
    es.countP Event.isProduce) :
    t'.unfinished + (es ++ [e]).countP Event.isFinish = (es ++ [e]).countP Event.isProduce := by
  simp only [List.countP_append, List.countP_singleton]
  obtain ⟨func, ch, rfl, rfl⟩ | ⟨i, task, stage, hm⟩ | ⟨rfl, rfl, _⟩ := h.effect hs
  · simp only [unfinished, Event.isProduce, Event.isFinish, List.countP_append, List.countP_singleton,
      Task.unfinished] at hc ⊢
    simp
    omega
  · have hu := hm.unfinished
    have hp : e.isProduce = false := by
      have he := hm.event
      cases e <;> cases he <;> rfl
    cases hf : e.isFinish <;> simp [hp, hf] at hu ⊢ <;> omega
  · simpa [Event.isProduce, Event.isFinish] using hc

theorem counts_of_exec (h : Exec Step (init : TaskPool α) es t) :
    t.unfinished + es.countP Event.isFinish = es.countP Event.isProduce := by
  induction h
  case refl         => rfl
  case snoc h hs hi => exact (wf_of_exec h).counts hs hi

-- A task is queued, or a worker is busy with it, only if it is unfinished.
theorem busy_le_unfinished :
    t.tasks.countP (·.stage = .queued) + t.busy .taskCh + t.busy .separateCh ≤ t.unfinished := by
  rw [busy, busy, unfinished]
  induction t.tasks
  case nil => simp
  case cons task tasks hi =>
    obtain ⟨func, ch, stage⟩ := task
    simp only [List.countP_cons]
    cases ch <;> cases stage <;> simp [Task.busy, Task.unfinished] at hi ⊢ <;> omega

-- What the size of the pool says about its tasks.
structure Sized (es : List (Event α)) (t : TaskPool α) : Prop where
  size   : t.size.toInt = t.unfinished
  counts : t.unfinished + es.countP Event.isFinish = es.countP Event.isProduce
  nonneg : 0 ≤ t.size.toInt
  busy   : (t.taskCh.length + t.busy .taskCh + t.busy .separateCh : Nat) ≤ t.size.toInt
  stop   : ∀ t', Step t .stop t' → ∀ task ∈ t.tasks, task.stage = .finished

-- As long as an `int32` can count the unfinished tasks.
theorem size_counts_unfinished (h : Exec Step (init : TaskPool α) es t) (hb : t.unfinished < 2 ^ 31) :
    Sized es t := by
  have hw := wf_of_exec h
  have hsize : t.size.toInt = t.unfinished := by rw [hw.size, Int32.toInt_ofNat_of_lt hb]
  constructor
  case size   => exact hsize
  case counts => exact counts_of_exec h
  case nonneg => omega
  case busy =>
    have := busy_le_unfinished (t := t)
    rw [hsize, hw.length]
    omega
  case stop =>
    intro t' hs task ht
    cases hs
    case stop hz =>
      rw [hz] at hsize
      have hu : t.unfinished = 0 := by
        have h0 : (0 : Int32).toInt = 0 := rfl
        omega
      simpa [Task.unfinished] using List.countP_eq_zero.mp hu task ht

-- One task is queued and another one runs. Both were produced by goroutines of their own.
theorem size_counts_two :
    ∃ es t, Exec Step (init : TaskPool Unit) es t ∧ t.unfinished = 2 ∧ Sized es t := by
  have h₁ := Exec.refl.snoc (Step.produce (t := (init : TaskPool Unit)) () .taskCh)
  have h₂ := h₁.snoc (.produce () .separateCh)
  have h₃ := h₂.snoc (.send (i := 0) rfl rfl rfl (by decide))
  have h₄ := h₃.snoc (.startSeparate (i := 1) rfl rfl rfl (by decide))
  exact ⟨_, _, h₄, rfl, size_counts_unfinished h₄ (by decide)⟩

-- Any number of producers, each of which waits to send its task.
theorem produce_many (n : Nat) :
    ∃ es t, Exec Step (init : TaskPool Unit) es t ∧ t.unfinished = n := by
  induction n
  case zero => exact ⟨[], init, .refl, rfl⟩
  case succ n hi =>
    obtain ⟨es, t, h, hn⟩ := hi
    refine ⟨_, _, h.snoc (.produce () .taskCh), ?_⟩
    simpa [unfinished, Task.unfinished] using hn

theorem size_overflow :
    ∃ es t, Exec Step (init : TaskPool Unit) es t ∧ t.unfinished = 2 ^ 31 ∧ t.size.toInt = -2147483648 := by
  obtain ⟨es, t, h, hn⟩ := produce_many (2 ^ 31)
  refine ⟨es, t, h, hn, ?_⟩
  rw [(wf_of_exec h).size, hn]
  rfl

def rank (t : TaskPool α) : Nat :=
  (t.tasks.map (·.stage.rank)).sum

theorem Moves.rank_lt (h : Moves t e t' i task stage) : t'.rank < t.rank := by
  have hs := List.sum_map_set (b := { task with stage := stage }) (·.stage.rank) h.lookup
  have hr := h.rank
  rw [TaskPool.rank, TaskPool.rank, h.tasks]
  dsimp only at hs
  omega

theorem Wf.moves (h : t.Wf) (hs : Step t e t') (hm : e.moved = some (i, stage)) :
    ∃ task, Moves t e t' i task stage := by
  obtain ⟨func, ch, rfl, rfl⟩ | ⟨j, task, stage', hmv⟩ | ⟨rfl, rfl, _⟩ := h.effect hs
  · cases hm
  · obtain ⟨rfl, rfl⟩ := Prod.mk.inj <| Option.some.inj <| hmv.event.symm.trans hm
    exact ⟨task, hmv⟩
  · cases hm

-- A task stays, and never goes back.
theorem Wf.forth (h : t.Wf) (hs : Step t e t') (hi : t.tasks[i]? = some task) :
    ∃ task', t'.tasks[i]? = some task' ∧ task'.stage.rank ≤ task.stage.rank := by
  obtain ⟨func, ch, rfl, rfl⟩ | ⟨j, task', stage, hm⟩ | ⟨rfl, rfl, _⟩ := h.effect hs
  · exact ⟨task, List.getElem?_append_of_eq_some hi, Nat.le_refl _⟩
  · rw [hm.tasks]
    by_cases hj : j = i
    case pos =>
      subst hj
      obtain rfl := Option.some.inj (hi.symm.trans hm.lookup)
      exact ⟨_, List.getElem?_set_of_eq_some hi, Nat.le_of_lt hm.rank⟩
    case neg => exact ⟨task, (List.getElem?_set_ne hj).trans hi, Nat.le_refl _⟩
  · exact ⟨task, hi, Nat.le_refl _⟩

theorem busy_eq_zero_iff {ch : Ch} :
    t.busy ch = 0 ↔ ∀ task ∈ t.tasks, task.ch = ch → task.stage ≠ .running ∧ task.stage ≠ .returned := by
  simp [busy, List.countP_eq_zero, Task.busy]

-- As long as a task is unfinished, the pool can go on. A task that no worker has received is then not
-- brought further than to its worker.
theorem Wf.enabled (h : t.Wf) (hi : t.tasks[i]? = some task) (hu : task.stage ≠ .finished) :
    ∃ e t' j stage, Step t e t' ∧ e.moved = some (j, stage) ∧
      (j = i → stage.rank < Stage.running.rank → task.stage.rank ≤ Stage.running.rank) := by
  by_cases hb : ∃ (j : Nat) (task' : Task α), t.tasks[j]? = some task' ∧
      (task'.stage = .running ∨ task'.stage = .returned)
  case pos =>
    obtain ⟨j, task', hj, hs | hs⟩ := hb
    · refine ⟨_, _, j, .returned, .return hj hs, rfl, ?_⟩
      rintro rfl _
      obtain rfl := Option.some.inj (hi.symm.trans hj)
      simp [hs]
    · refine ⟨_, _, j, .finished, .finish hj hs, rfl, ?_⟩
      rintro rfl _
      obtain rfl := Option.some.inj (hi.symm.trans hj)
      simp [hs, Stage.rank]
  case neg =>
    -- All workers are idle.
    have hz (ch : Ch) : t.busy ch = 0 := by
      refine busy_eq_zero_iff.mpr fun task' hm _ => ?_
      obtain ⟨j, hj⟩ := List.mem_iff_getElem?.mp hm
      exact ⟨fun hs => hb ⟨j, task', hj, .inl hs⟩, fun hs => hb ⟨j, task', hj, .inr hs⟩⟩
    cases hc : t.taskCh
    case cons j js =>
      obtain ⟨task', hj, _⟩ := (h.queued j).mp (by simp [hc])
      exact ⟨_, _, j, .running, .start hc hj (by simp [hz, coroutinesSize]), rfl, by simp⟩
    case nil =>
      have hp : task.stage = .produced := by
        have hq : task.stage ≠ .queued := fun hq => by simpa [hc] using (h.queued i).mpr ⟨task, hi, hq⟩
        have hb : task.stage ≠ .running ∧ task.stage ≠ .returned :=
          ⟨fun hs => hb ⟨i, task, hi, .inl hs⟩, fun hs => hb ⟨i, task, hi, .inr hs⟩⟩
        cases hs : task.stage <;> simp_all
      cases hch : task.ch
      case taskCh =>
        exact ⟨_, _, i, .queued, .send hi hch hp (by simp [hc, taskChSize]), rfl, by simp [Stage.rank]⟩
      case separateCh =>
        exact ⟨_, _, i, .running, .startSeparate hi hch hp (by simp [hz]), rfl, by simp⟩

-- The task `i` is `task`, at whatever stage, and waits for its worker or is run.
structure Waiting (i : Nat) (task : Task α) (n : Nat) (t : TaskPool α) : Prop where
  wf    : t.Wf
  rank  : t.rank = n
  stage : ∃ stage, t.tasks[i]? = some { task with stage := stage } ∧ Stage.running.rank ≤ stage.rank

-- The task is brought further, or another one is.
theorem Waiting.closer {n : Nat} (h : Waiting i task n t)
    (hn : t.tasks[i]? ≠ some { task with stage := .running }) :
    ∃ es t' n', Exec Step t es t' ∧ (∀ e ∈ es, e.moved.isSome) ∧ Waiting i task n' t' ∧ n' < n := by
  obtain ⟨stage, hi, hr⟩ := h.stage
  have hlt : Stage.running.rank < stage.rank := by
    refine Nat.lt_of_le_of_ne hr fun he => hn ?_
    obtain rfl : stage = .running := by cases stage <;> simp_all [Stage.rank]
    exact hi
  have hu : stage ≠ .finished := fun hf => by simp [hf, Stage.rank] at hlt
  obtain ⟨e, t', j, stage', hs, he, hj⟩ := h.wf.enabled hi hu
  obtain ⟨task', hm⟩ := h.wf.moves hs he
  have hi' : ∃ stage, t'.tasks[i]? = some { task with stage := stage } ∧
      Stage.running.rank ≤ stage.rank := by
    by_cases hji : j = i
    case pos =>
      subst hji
      obtain rfl := Option.some.inj (hi.symm.trans hm.lookup)
      have hj : stage'.rank < Stage.running.rank → stage.rank ≤ Stage.running.rank := hj rfl
      exact ⟨stage', hm.tasks ▸ List.getElem?_set_of_eq_some hi, by omega⟩
    case neg => exact ⟨stage, by rw [hm.tasks, List.getElem?_set_ne hji, hi], hr⟩
  exact ⟨[e], t', _, .single hs, by simp [he], ⟨h.wf.step hs, rfl, hi'⟩, h.rank ▸ hm.rank_lt⟩

-- Every task that no worker has received yet can still get to run, without any new task.
theorem Wf.reach_running (h : t.Wf) (hi : t.tasks[i]? = some task)
    (hr : Stage.running.rank ≤ task.stage.rank) :
    ∃ es t', Exec Step t es t' ∧ (∀ e ∈ es, e.moved.isSome) ∧
      t'.tasks[i]? = some { task with stage := .running } := by
  obtain ⟨es, t', hx, hes, _, hrun⟩ := Exec.reach (R := Waiting i task) (fun _ _ => Waiting.closer)
    ⟨h, rfl, task.stage, hi, hr⟩
  exact ⟨es, t', hx, hes, hrun⟩

end TaskPool
