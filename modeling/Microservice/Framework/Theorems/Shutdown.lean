import Microservice.Framework.Shutdown
import Microservice.Framework.Theorems.Pool

namespace Shutdown

open TaskPool (Stage)

variable {α : Type*} {dbCfg : List DbCfg} {s s' s₁ s₂ s₃ s₄ : Shutdown α} {e : Event α}
variable {es es₁ es₂ : List (Event α)}

-- The pool goes on, or stays as it is.
theorem Act.pool_step (hs : Act dbCfg s e s') :
    s'.pool = s.pool ∨ ∃ e, TaskPool.Step s.pool e s'.pool := by
  cases hs
  case produce hs | pool hs _ | taskPoolStopped hs => exact .inr ⟨_, hs⟩
  all_goals exact .inl rfl

theorem Step.wf (hs : Step dbCfg s e s') (h : s.pool.Wf) : s'.pool.Wf := by
  obtain hp | ⟨e, hp⟩ := hs.act.pool_step
  · exact hp ▸ h
  · exact h.step hp

theorem wf_of_exec (h : Exec (Step dbCfg) (start dbCfg) es s) : s.pool.Wf :=
  h.preserves (I := fun s => s.pool.Wf) TaskPool.init_wf fun _ _ _ hw hs => hs.wf hw

-- A task stays, and never goes back.
theorem Step.forth {i : Nat} {task : TaskPool.Task α} (hs : Step dbCfg s e s') (hw : s.pool.Wf)
    (hi : s.pool.tasks[i]? = some task) :
    ∃ task', s'.pool.tasks[i]? = some task' ∧ task'.stage.rank ≤ task.stage.rank := by
  obtain hp | ⟨e, hp⟩ := hs.act.pool_step
  · exact ⟨task, hp ▸ hi, Nat.le_refl _⟩
  · exact hw.forth hp hi

theorem forth_of_exec {i : Nat} (hw : s.pool.Wf) (h : Exec (Step dbCfg) s es s')
    (hi : i < s.pool.tasks.length) : s'.pool.Wf ∧ i < s'.pool.tasks.length := by
  induction h
  case refl => exact ⟨hw, hi⟩
  case snoc hs hind =>
    obtain ⟨hw, hi⟩ := hind
    obtain ⟨task, hi, _⟩ := hs.forth hw (List.getElem?_eq_getElem hi)
    exact ⟨hs.wf hw, (List.getElem?_eq_some_iff.mp hi).1⟩

-- The first `n` tasks have returned from their handlers.
def Returned (n : Nat) (s : Shutdown α) : Prop :=
  ∀ i < n, ∃ task, s.pool.tasks[i]? = some task ∧ task.stage.rank < Stage.running.rank

theorem Step.returned {n : Nat} (hs : Step dbCfg s e s') (hw : s.pool.Wf) (h : s.Returned n) :
    s'.Returned n := by
  intro i hn
  obtain ⟨task, hi, hr⟩ := h i hn
  obtain ⟨task', hi', hr'⟩ := hs.forth hw hi
  exact ⟨task', hi', Nat.lt_of_le_of_lt hr' hr⟩

theorem Act.get_running {i : Nat} {type : DbType} {name : String} {got : Option Got}
    (hs : Act dbCfg s (.get i type name got) s') :
    ∃ task, s.pool.tasks[i]? = some task ∧ task.stage = .running := by
  cases hs
  case get hr hi _ | getPanic hr hi _ => exact ⟨_, hi, hr⟩

-- A task that has returned calls nothing any more.
theorem Returned.get {n i : Nat} {type : DbType} {name : String} {got : Option Got}
    (h : s.Returned n) (hs : Act dbCfg s (.get i type name got) s') : n ≤ i := by
  by_contra hn
  obtain ⟨task, hi, hr⟩ := h i (Nat.lt_of_not_le hn)
  obtain ⟨task', hi', hs⟩ := hs.get_running
  obtain rfl := Option.some.inj (hi.symm.trans hi')
  simp [hs] at hr

theorem Returned.exec {n : Nat} (h : s.Returned n) (hw : s.pool.Wf) (hx : Exec (Step dbCfg) s es s') :
    ∀ i type name got, .get i type name got ∈ es → n ≤ i := by
  have hinv : s'.pool.Wf ∧ s'.Returned n ∧ ∀ i type name got, .get i type name got ∈ es → n ≤ i := by
    induction hx
    case refl => exact ⟨hw, h, by simp⟩
    case snoc hx hs hi =>
      obtain ⟨hw, h, hg⟩ := hi
      refine ⟨hs.wf hw, hs.returned hw h, fun i type name got hm => ?_⟩
      obtain hm | hm := List.mem_append.mp hm
      · exact hg i type name got hm
      · obtain rfl := List.mem_singleton.mp hm
        exact h.get hs.act
  exact hinv.2.2

-- A run of the pool is a run of the process.
theorem exec_pool {ts : List (TaskPool.Event α)} {t : TaskPool α} (hm : s.main ≠ .panicked)
    (h : Exec TaskPool.Step s.pool ts t) (ht : ∀ e ∈ ts, e.moved.isSome) :
    Exec (Step dbCfg) s (ts.map .pool) { s with pool := t } := by
  induction h
  case refl => exact .refl
  case snoc ts t t' e h hs hi =>
    rw [List.map_append]
    refine (hi fun e he => ht e (by simp [he])).snoc ⟨hm, .pool hs ?_⟩
    rintro rfl
    simpa [TaskPool.Event.moved] using ht .stop (by simp)

variable (dbCfg) in
-- A task that has not returned can still call for a database.
theorem can_get {i : Nat} {task : TaskPool.Task α} (hm : s.main ≠ .panicked) (hw : s.pool.Wf)
    (hi : s.pool.tasks[i]? = some task) (hr : Stage.running.rank ≤ task.stage.rank) (type : DbType)
    (name : String) : ∃ es s' got, Exec (Step dbCfg) s es s' ∧ .get i type name got ∈ es := by
  obtain ⟨ts, t, hx, hts, hi'⟩ := hw.reach_running hi hr
  have hx' : Exec (Step dbCfg) s _ _ := exec_pool hm hx hts
  cases hg : getDb s.gDBResource type name
  case none =>
    exact ⟨_, _, none, hx'.snoc ⟨hm, .getPanic type name hi' rfl hg⟩, by simp⟩
  case some got =>
    exact ⟨_, _, some got, hx'.snoc ⟨hm, .get type name hi' rfl hg⟩, by simp⟩

-- `Stop` has not got to `ReleaseDBResource` yet.
def Main.beforeRelease : Main → Bool
  | .serving | .stopTcpServer | .stopEtcdDriver => true
  | _                                           => false

theorem resources_of_exec (h : Exec (Step dbCfg) (start dbCfg) es s) (hm : s.main.beforeRelease) :
    s.gDBResource = createDBResource dbCfg := by
  induction h
  case refl => rfl
  case snoc hs hi =>
    obtain ⟨_, hs⟩ := hs
    cases hs
    case stopTcpServer h | tcpServerStopped h _ => exact hi (by simp [h, Main.beforeRelease])
    case getPanic | releaseDBResource | closeDb | closeDbPanic | cleared | taskPoolStopped =>
      simp [Main.beforeRelease] at hm
    all_goals exact hi hm

-- The moment at which `ReleaseDBResource` begins, in any run. Up to then the databases are all there.
-- Whatever comes next, the tasks that were produced before `StopTcpServer` has returned do not call for a
-- database any more, iff they have all returned. This holds for the calls for any one database.
theorem no_get_after_release_iff (h₁ : Exec (Step dbCfg) (start dbCfg) es₁ s₁)
    (ht : Step dbCfg s₁ .tcpServerStopped s₂) (h₂ : Exec (Step dbCfg) s₂ es₂ s₃)
    (hr : Step dbCfg s₃ .releaseDBResource s₄) :
    s₃.gDBResource = createDBResource dbCfg ∧ ∀ type name,
    ((∀ es s i got, Exec (Step dbCfg) s₄ es s → .get i type name got ∈ es → s₁.pool.tasks.length ≤ i) ↔
      ∀ i < s₁.pool.tasks.length, ∀ task, s₃.pool.tasks[i]? = some task →
        task.stage = .returned ∨ task.stage = .finished) := by
  have hw₁ := wf_of_exec h₁
  have hx₃ := (h₁.snoc ht).trans h₂
  have hw₃ := wf_of_exec hx₃
  obtain ⟨_, hr⟩ := hr
  cases hr
  case releaseDBResource hm =>
    refine ⟨resources_of_exec hx₃ (by simp [hm, Main.beforeRelease]), fun type name => ⟨?_, ?_⟩⟩
    · intro h i hi task hi₃
      by_contra hn
      have hr : Stage.running.rank ≤ task.stage.rank := by
        cases hs : task.stage <;> simp_all [Stage.rank]
      obtain ⟨es, s, got, hx, hg⟩ := can_get dbCfg
        (s := { s₃ with main := .releaseDBResource dbCfg }) (by simp) hw₃ hi₃ hr type name
      exact Nat.not_lt_of_le (h es s i got hx hg) hi
    · intro h
      have hret : Returned s₁.pool.tasks.length { s₃ with main := .releaseDBResource dbCfg } := by
        intro i hi
        have hi₂ : i < s₂.pool.tasks.length := (forth_of_exec hw₁ (.single ht) hi).2
        have hi₃ : i < s₃.pool.tasks.length := (forth_of_exec (ht.wf hw₁) h₂ hi₂).2
        refine ⟨_, List.getElem?_eq_getElem hi₃, ?_⟩
        obtain hs | hs := h i hi _ (List.getElem?_eq_getElem hi₃) <;> simp [hs, Stage.rank]
      exact fun es s i got hx hg => Returned.exec hret hw₃ hx i type name got hg

-- One redis cluster, as the gate has it.
def demoCfg : List DbCfg :=
  [⟨"myRedis2", "redisCluster"⟩]

-- The task of a client has finished when `Stop` is called.
theorem no_get_after_release_finished :
    ∃ es₁ es₂ s₁ s₂ s₃ s₄, Exec (Step demoCfg) (start demoCfg : Shutdown Unit) es₁ s₁ ∧
      Step demoCfg s₁ .tcpServerStopped s₂ ∧ Exec (Step demoCfg) s₂ es₂ s₃ ∧
      Step demoCfg s₃ .releaseDBResource s₄ ∧ s₁.pool.tasks.length = 1 ∧
      ∀ type name es s i got, Exec (Step demoCfg) s₄ es s → .get i type name got ∈ es → 1 ≤ i := by
  have h₁ : Exec (Step demoCfg) (start demoCfg : Shutdown Unit) _ _ := .single ⟨nofun, .accept rfl⟩
  have h₂ := h₁.snoc ⟨nofun, .produce (c := 0) rfl (.produce () .taskCh)⟩
  have h₃ := h₂.snoc ⟨nofun, .pool (.send (i := 0) rfl rfl rfl (by decide)) nofun⟩
  have h₄ := h₃.snoc ⟨nofun, .sent (c := 0) rfl rfl nofun⟩
  have h₅ := h₄.snoc ⟨nofun, .pool (.start rfl rfl (by decide)) nofun⟩
  have h₆ := h₅.snoc ⟨nofun, .get (i := 0) .redisCluster "myRedis2" rfl rfl rfl⟩
  have h₇ := h₆.snoc ⟨nofun, .pool (.return (i := 0) rfl rfl) nofun⟩
  have h₈ := h₇.snoc ⟨nofun, .pool (.finish (i := 0) rfl rfl) nofun⟩
  have h₉ := h₈.snoc ⟨nofun, .stopTcpServer rfl⟩
  have h := h₉.snoc ⟨nofun, .close (c := 0) rfl⟩
  refine ⟨_, _, _, _, _, _, h, ⟨nofun, .tcpServerStopped rfl rfl⟩, .refl,
    ⟨nofun, .releaseDBResource rfl⟩, rfl, ?_⟩
  intro type name
  refine ((no_get_after_release_iff h ⟨nofun, .tcpServerStopped rfl rfl⟩ .refl
    ⟨nofun, .releaseDBResource rfl⟩).2 type name).mpr ?_
  intro i hi task ht
  obtain rfl : i = 0 := Nat.lt_one_iff.mp hi
  cases ht
  exact .inr rfl

-- The task is still queued when `Stop` is called, and finds no database.
theorem get_after_release :
    ∃ s, Exec (Step demoCfg) (start demoCfg : Shutdown Unit)
      [.accept, .produce 0, .pool (.send 0), .sent 0, .stopTcpServer, .close 0, .tcpServerStopped,
        .releaseDBResource, .closeDb, .cleared, .pool (.start 0 () .taskCh),
        .get 0 .redisCluster "myRedis2" (some .nil)] s := by
  have h₁ : Exec (Step demoCfg) (start demoCfg : Shutdown Unit) _ _ := .single ⟨nofun, .accept rfl⟩
  have h₂ := h₁.snoc ⟨nofun, .produce (c := 0) rfl (.produce () .taskCh)⟩
  have h₃ := h₂.snoc ⟨nofun, .pool (.send (i := 0) rfl rfl rfl (by decide)) nofun⟩
  have h₄ := h₃.snoc ⟨nofun, .sent (c := 0) rfl rfl nofun⟩
  have h₅ := h₄.snoc ⟨nofun, .stopTcpServer rfl⟩
  have h₆ := h₅.snoc ⟨nofun, .close (c := 0) rfl⟩
  have h₇ := h₆.snoc ⟨nofun, .tcpServerStopped rfl rfl⟩
  have h₈ := h₇.snoc ⟨nofun, .releaseDBResource rfl⟩
  have h₉ := h₈.snoc ⟨nofun, .closeDb rfl rfl⟩
  have h₁₀ := h₉.snoc ⟨nofun, .cleared rfl⟩
  have h₁₁ := h₁₀.snoc ⟨nofun, .pool (.start rfl rfl (by decide)) nofun⟩
  exact ⟨_, h₁₁.snoc ⟨nofun, .get (i := 0) .redisCluster "myRedis2" rfl rfl rfl⟩⟩

end Shutdown
