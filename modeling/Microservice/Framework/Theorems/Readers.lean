import Microservice.Framework.Readers
import Microservice.Framework.Theorems.Pool

namespace Readers

open SimpleRpc (msgG2SRpcCallOrdered)
open TaskPool (Stage)

variable {s s' : Readers} {e : Event} {es : List Event} {c i : Nat} {conn : Conn}
variable {ran started : List Frame} {cur : Option (Nat × Frame)}

-- The ordered calls among the first `n` frames of a connection.
def Conn.ordered (conn : Conn) (c n : Nat) : List Frame :=
  ((List.range n).filter (conn.frames[·]? = some msgG2SRpcCallOrdered)).map (c, ·)

-- The ordered calls that have arrived on a connection.
def Conn.arrived (conn : Conn) (c : Nat) : List Frame :=
  conn.ordered c conn.frames.length

inductive Mark
  | start (f : Frame)
  | finish (f : Frame)

-- The starts and the ends of the handlers of ordered calls, which are those behind `separateCh`.
def Event.mark : Event → Option Mark
  | .pool (.start _ f .separateCh)  => some (.start f)
  | .pool (.return _ f .separateCh) => some (.finish f)
  | _                               => none

def marks (es : List Event) : List Mark :=
  es.filterMap Event.mark

theorem marks_snoc_of_none (h : e.mark = none) : marks (es ++ [e]) = marks es := by
  simp [marks, h]

theorem marks_snoc_of_some {m : Mark} (h : e.mark = some m) : marks (es ++ [e]) = marks es ++ [m] := by
  simp [marks, h]

-- One handler after the other, the last of which may still be running.
def alternating (ran : List Frame) (running : Option Frame) : List Mark :=
  ran.flatMap (fun f => [.start f, .finish f]) ++ running.toList.map .start

-- The ordered call that a reader is about to hand over.
def handing (s : Readers) (conn : Conn) : List Frame :=
  match conn.pc with
  | .send i =>
    (s.pool.tasks[i]?.filter fun task => task.ch = .separateCh ∧ task.stage = .produced).toList.map (·.func)
  | _ => []

-- Each task that is to be sent has a reader that waits for that.
structure Sending (s : Readers) : Prop where
  task : ∀ (i : Nat) (task : TaskPool.Task Frame), s.pool.tasks[i]? = some task →
    task.stage = .produced → ∃ conn, s.conns[task.func.1]? = some conn ∧ conn.pc = .send i
  conn : ∀ (c i : Nat) (conn : Conn), s.conns[c]? = some conn → conn.pc = .send i →
    ∃ task, s.pool.tasks[i]? = some task ∧ task.func.1 = c

-- The ordered call that is run, with the position of its task.
structure Running (s : Readers) (cur : Option (Nat × Frame)) : Prop where
  task : ∀ (i : Nat) (task : TaskPool.Task Frame), s.pool.tasks[i]? = some task →
    task.ch = .separateCh → (task.stage = .running ↔ cur = some (i, task.func))
  real : ∀ i f, cur = some (i, f) →
    ∃ task, s.pool.tasks[i]? = some task ∧ task.ch = .separateCh ∧ task.func = f

theorem Running.eq_none (h : s.Running cur)
    (hn : ∀ task ∈ s.pool.tasks, task.ch = .separateCh → task.stage ≠ .running) : cur = none := by
  refine Option.eq_none_iff_forall_not_mem.mpr fun ⟨i, f⟩ hcur => ?_
  obtain ⟨task, hi, hc, rfl⟩ := h.real i f hcur
  exact hn task (List.mem_of_getElem? hi) hc ((h.task i task hi hc).mpr hcur)

-- The ordered calls of the decoded frames are those that were run and the one that is to be handed over, in
-- the order in which they have arrived.
structure InOrder (s : Readers) (started : List Frame) : Prop where
  known   : ∀ f ∈ started, f.1 < s.conns.length
  decoded : ∀ (c : Nat) (conn : Conn), s.conns[c]? = some conn → conn.decoded ≤ conn.frames.length
  order   : ∀ (c : Nat) (conn : Conn), s.conns[c]? = some conn →
    conn.ordered c conn.decoded = started.filter (·.1 = c) ++ s.handing conn

-- What a run has made of the ordered calls. Those in `ran` have run.
structure Ordered (es : List Event) (s : Readers) (ran : List Frame) (cur : Option (Nat × Frame)) :
    Prop where
  marks   : marks es = alternating ran (cur.map Prod.snd)
  pool    : s.pool.Wf
  sending : s.Sending
  running : s.Running cur
  inOrder : s.InOrder (ran ++ (cur.map Prod.snd).toList)

theorem init_ordered : Ordered [] init [] none where
  marks   := rfl
  pool    := TaskPool.init_wf
  sending := ⟨by simp [init, TaskPool.init], by simp [init]⟩
  running := ⟨by simp [init, TaskPool.init], by simp⟩
  inOrder := ⟨by simp, by simp [init], by simp [init]⟩

section

-- A reader goes on, with another connection state.
variable {conn' : Conn}

theorem Sending.setConn (h : s.Sending) (hc : s.conns[c]? = some conn)
    (hp : ∀ i, conn.pc = .send i → conn'.pc = .send i ∨
      ∃ task, s.pool.tasks[i]? = some task ∧ task.stage ≠ .produced)
    (hp' : ∀ i, conn'.pc = .send i → conn.pc = .send i) : (s.setConn c conn').Sending := by
  constructor
  case task =>
    intro i task hi hs
    obtain ⟨conn₁, hc₁, hpc⟩ := h.task i task hi hs
    by_cases he : task.func.1 = c
    case pos =>
      rw [he, hc] at hc₁
      obtain rfl := Option.some.inj hc₁
      refine ⟨conn', by rw [he]; exact List.getElem?_set_of_eq_some hc, ?_⟩
      obtain hp | ⟨task', hi', hs'⟩ := hp i hpc
      · exact hp
      · obtain rfl := Option.some.inj (hi.symm.trans hi')
        exact absurd hs hs'
    case neg => exact ⟨conn₁, (List.getElem?_set_ne (Ne.symm he)).trans hc₁, hpc⟩
  case conn =>
    intro c₁ i conn₁ hc₁ hpc
    obtain ⟨rfl, rfl⟩ | ⟨_, hc₁⟩ := List.getElem?_set_cases hc₁
    · exact h.conn c₁ i conn hc (hp' i hpc)
    · exact h.conn c₁ i conn₁ hc₁ hpc

theorem InOrder.setConn (h : s.InOrder started) (hc : s.conns[c]? = some conn)
    (hd : conn'.decoded ≤ conn'.frames.length)
    (ho : conn'.ordered c conn'.decoded = conn.ordered c conn.decoded)
    (hh : s.handing conn' = s.handing conn) : (s.setConn c conn').InOrder started := by
  constructor
  case known => simpa [Readers.setConn] using h.known
  case decoded =>
    intro c₁ conn₁ hc₁
    obtain ⟨rfl, rfl⟩ | ⟨_, hc₁⟩ := List.getElem?_set_cases hc₁
    · exact hd
    · exact h.decoded c₁ conn₁ hc₁
  case order =>
    intro c₁ conn₁ hc₁
    change _ = _ ++ s.handing conn₁
    obtain ⟨rfl, rfl⟩ | ⟨_, hc₁⟩ := List.getElem?_set_cases hc₁
    · rw [ho, hh, h.order c₁ conn hc]
    · exact h.order c₁ conn₁ hc₁

theorem Ordered.setConn (h : Ordered es s ran cur) (hc : s.conns[c]? = some conn) (he : e.mark = none)
    (hp : ∀ i, conn.pc = .send i → conn'.pc = .send i ∨
      ∃ task, s.pool.tasks[i]? = some task ∧ task.stage ≠ .produced)
    (hp' : ∀ i, conn'.pc = .send i → conn.pc = .send i)
    (hd : conn'.decoded ≤ conn'.frames.length)
    (ho : conn'.ordered c conn'.decoded = conn.ordered c conn.decoded)
    (hh : s.handing conn' = s.handing conn) : Ordered (es ++ [e]) (s.setConn c conn') ran cur where
  marks   := (marks_snoc_of_none he).trans h.marks
  pool    := h.pool
  sending := h.sending.setConn hc hp hp'
  running := ⟨h.running.task, h.running.real⟩
  inOrder := h.inOrder.setConn hc hd ho hh

end

theorem Conn.ordered_succ (n : Nat) :
    conn.ordered c (n + 1) =
      conn.ordered c n ++ if conn.frames[n]? = some msgG2SRpcCallOrdered then [(c, n)] else [] := by
  rw [ordered, List.range_succ, List.filter_append, List.map_append]
  by_cases h : conn.frames[n]? = some msgG2SRpcCallOrdered <;> simp [ordered, h]

-- Frames that arrive later do not change the earlier ones.
theorem Conn.ordered_arrive {rpcName : String} {n : Nat} (hn : n ≤ conn.frames.length) :
    { conn with frames := conn.frames ++ [rpcName] }.ordered c n = conn.ordered c n := by
  refine congrArg (List.map _) <| List.filter_congr fun k hk => ?_
  rw [List.getElem?_append_left (Nat.lt_of_lt_of_le (List.mem_range.mp hk) hn)]

theorem ne_ordered_of_isSync {rpcName : String} (h : isSync rpcName) :
    some rpcName ≠ some msgG2SRpcCallOrdered := by
  rintro ⟨⟩
  revert h
  decide

theorem handing_congr (h : ∀ i, conn.pc = .send i → s'.pool.tasks[i]? = s.pool.tasks[i]?) :
    s'.handing conn = s.handing conn := by
  rw [handing, handing]
  split
  case h_1 i hp => rw [h i hp]
  case h_2      => rfl

theorem handing_of_sent (hp : conn.pc = .send i) {task : TaskPool.Task Frame}
    (hi : s.pool.tasks[i]? = some task) (hs : task.ch = .separateCh → task.stage ≠ .produced) :
    s.handing conn = [] := by
  rw [handing, hp]
  simpa [hi] using hs

theorem handing_of_produced (hp : conn.pc = .send i) {task : TaskPool.Task Frame}
    (hi : s.pool.tasks[i]? = some task) (hc : task.ch = .separateCh) (hs : task.stage = .produced) :
    s.handing conn = [task.func] := by
  rw [handing, hp]
  simp [hi, hc, hs]

-- A new connection has nothing that is to be sent.
theorem Sending.accept (h : s.Sending) : Sending { s with conns := s.conns ++ [⟨[], 0, .read⟩] } := by
  constructor
  case task =>
    intro i task hi hs
    obtain ⟨conn, hc, hp⟩ := h.task i task hi hs
    exact ⟨conn, List.getElem?_append_of_eq_some hc, hp⟩
  case conn =>
    intro c i conn hc hp
    obtain hc | ⟨_, rfl⟩ := List.getElem?_concat_cases hc
    · exact h.conn c i conn hc hp
    · cases hp

theorem InOrder.accept (h : s.InOrder started) :
    InOrder { s with conns := s.conns ++ [⟨[], 0, .read⟩] } started := by
  constructor
  case known =>
    intro f hf
    simpa using Nat.lt_succ_of_lt (h.known f hf)
  case decoded =>
    intro c conn hc
    obtain hc | ⟨_, rfl⟩ := List.getElem?_concat_cases hc
    · exact h.decoded c conn hc
    · exact Nat.le_refl 0
  case order =>
    intro c conn hc
    obtain hc | ⟨rfl, rfl⟩ := List.getElem?_concat_cases hc
    · exact h.order c conn hc
    · -- No call of the new connection has run.
      have hn : started.filter (·.1 = s.conns.length) = [] := by
        refine List.filter_eq_nil_iff.mpr fun f hf => ?_
        simpa using Nat.ne_of_lt (h.known f hf)
      rw [hn]
      rfl

theorem Ordered.accept (h : Ordered es s ran cur) :
    Ordered (es ++ [.accept]) { s with conns := s.conns ++ [⟨[], 0, .read⟩] } ran cur where
  marks   := (marks_snoc_of_none rfl).trans h.marks
  pool    := h.pool
  sending := h.sending.accept
  running := ⟨h.running.task, h.running.real⟩
  inOrder := h.inOrder.accept

section

-- The reader of a connection makes a task of its next frame.
variable {pool : TaskPool Frame} {func : Frame} {ch : TaskPool.Ch} {rpcName : String} {conn' : Conn}

theorem Sending.produce (h : s.Sending) (hc : s.conns[c]? = some conn) (hp : conn.pc = .read)
    (hp' : conn'.pc = .send s.pool.tasks.length) (hf : func.1 = c)
    (ht : pool.tasks = s.pool.tasks ++ [⟨func, ch, .produced⟩]) :
    { s.setConn c conn' with pool := pool }.Sending := by
  constructor
  case task =>
    intro i task hi hs
    rw [ht] at hi
    obtain hi | ⟨rfl, rfl⟩ := List.getElem?_concat_cases hi
    · obtain ⟨conn₁, hc₁, hp₁⟩ := h.task i task hi hs
      have hne : c ≠ task.func.1 := by
        rintro rfl
        obtain rfl := Option.some.inj (hc.symm.trans hc₁)
        cases hp.symm.trans hp₁
      exact ⟨conn₁, (List.getElem?_set_ne hne).trans hc₁, hp₁⟩
    · exact ⟨conn', by rw [hf]; exact List.getElem?_set_of_eq_some hc, hp'⟩
  case conn =>
    intro c₁ i conn₁ hc₁ hp₁
    change ∃ task, pool.tasks[i]? = some task ∧ _
    rw [ht]
    obtain ⟨rfl, rfl⟩ | ⟨_, hc₁⟩ := List.getElem?_set_cases hc₁
    · cases hp'.symm.trans hp₁
      exact ⟨_, List.getElem?_concat_length .., hf⟩
    · obtain ⟨task, hi, hf₁⟩ := h.conn c₁ i conn₁ hc₁ hp₁
      exact ⟨task, List.getElem?_append_of_eq_some hi, hf₁⟩

theorem Running.produce (h : s.Running cur)
    (ht : pool.tasks = s.pool.tasks ++ [⟨func, ch, .produced⟩]) :
    { s.setConn c conn' with pool := pool }.Running cur := by
  constructor
  case task =>
    intro i task hi hch
    rw [ht] at hi
    obtain hi | ⟨rfl, rfl⟩ := List.getElem?_concat_cases hi
    · exact h.task i task hi hch
    · refine ⟨nofun, fun hcur => ?_⟩
      obtain ⟨task', hi', _⟩ := h.real _ _ hcur
      exact absurd (List.getElem?_eq_some_iff.mp hi').1 (Nat.lt_irrefl _)
  case real =>
    intro i f hcur
    obtain ⟨task, hi, hf⟩ := h.real i f hcur
    exact ⟨task, ht ▸ List.getElem?_append_of_eq_some hi, hf⟩

theorem InOrder.produce (h : s.InOrder started) (hsend : s.Sending) (hc : s.conns[c]? = some conn)
    (hp : conn.pc = .read) (hf : conn.frames[conn.decoded]? = some rpcName)
    (ht : pool.tasks = s.pool.tasks ++ [⟨(c, conn.decoded), channel rpcName, .produced⟩]) :
    { s.setConn c { conn with decoded := conn.decoded + 1, pc := .send s.pool.tasks.length } with
      pool := pool }.InOrder started := by
  constructor
  case known => simpa [Readers.setConn] using h.known
  case decoded =>
    intro c₁ conn₁ hc₁
    obtain ⟨rfl, rfl⟩ | ⟨_, hc₁⟩ := List.getElem?_set_cases hc₁
    · exact (List.getElem?_eq_some_iff.mp hf).1
    · exact h.decoded c₁ conn₁ hc₁
  case order =>
    intro c₁ conn₁ hc₁
    obtain ⟨rfl, rfl⟩ | ⟨_, hc₁⟩ := List.getElem?_set_cases hc₁
    · -- The frame is the next one, and its reader has nothing else to hand over.
      have ho := h.order c₁ conn hc
      have hr : s.handing conn = [] := by rw [handing, hp]
      have hnew : pool.tasks[s.pool.tasks.length]? =
          some ⟨(c₁, conn.decoded), channel rpcName, .produced⟩ := ht ▸ List.getElem?_concat_length ..
      rw [hr, List.append_nil] at ho
      change conn.ordered c₁ (conn.decoded + 1) = _
      rw [Conn.ordered_succ, ho, hf]
      by_cases hn : rpcName = msgG2SRpcCallOrdered
      case pos =>
        rw [handing_of_produced rfl hnew (by simp [channel, hn]) rfl]
        simp [hn]
      case neg =>
        rw [handing_of_sent rfl hnew (by simp [channel, hn])]
        simp [hn]
    · rw [h.order c₁ conn₁ hc₁]
      refine congrArg _ (handing_congr fun i hp₁ => ?_).symm
      obtain ⟨task, hi, _⟩ := hsend.conn c₁ i conn₁ hc₁ hp₁
      exact ht ▸ List.getElem?_append_left (List.getElem?_eq_some_iff.mp hi).1

theorem Ordered.produce (h : Ordered es s ran cur) (hc : s.conns[c]? = some conn) (hp : conn.pc = .read)
    (hf : conn.frames[conn.decoded]? = some rpcName)
    (hs : TaskPool.Step s.pool (.produce (c, conn.decoded) (channel rpcName)) pool) :
    Ordered (es ++ [.produce c])
      { s.setConn c { conn with decoded := conn.decoded + 1, pc := .send s.pool.tasks.length } with
        pool := pool } ran cur where
  marks   := (marks_snoc_of_none rfl).trans h.marks
  pool    := h.pool.step hs
  sending := by cases hs; exact h.sending.produce hc hp rfl rfl rfl
  running := by cases hs; exact h.running.produce rfl
  inOrder := by cases hs; exact h.inOrder.produce h.sending hc hp hf rfl

end

section

-- The pool brings a task further.
variable {task : TaskPool.Task Frame} {stage : Stage} {t : TaskPool Frame}

-- The other tasks stay, and the task itself keeps all but its stage.
theorem lookup_moved {j : Nat} {task' : TaskPool.Task Frame} (hi : s.pool.tasks[i]? = some task)
    (ht : t.tasks = s.pool.tasks.set i { task with stage := stage })
    (hj : s.pool.tasks[j]? = some task') : ∃ stage', t.tasks[j]? = some { task' with stage := stage' } := by
  rw [ht]
  by_cases he : i = j
  case pos =>
    subst he
    obtain rfl := Option.some.inj (hi.symm.trans hj)
    exact ⟨stage, List.getElem?_set_of_eq_some hi⟩
  case neg => exact ⟨task'.stage, (List.getElem?_set_ne he).trans hj⟩

theorem Sending.moved (h : s.Sending) (hi : s.pool.tasks[i]? = some task) (hn : stage ≠ .produced)
    (ht : t.tasks = s.pool.tasks.set i { task with stage := stage }) :
    { s with pool := t }.Sending := by
  constructor
  case task =>
    intro j task' hj hs
    rw [ht] at hj
    obtain ⟨_, rfl⟩ | ⟨_, hj⟩ := List.getElem?_set_cases hj
    · exact absurd hs hn
    · exact h.task j task' hj hs
  case conn =>
    intro c j conn hc hp
    obtain ⟨task', hj, hf⟩ := h.conn c j conn hc hp
    obtain ⟨stage', hj'⟩ := lookup_moved hi ht hj
    exact ⟨_, hj', hf⟩

-- A task that is no ordered call, or that does not start or end.
theorem Running.moved (h : s.Running cur) (hi : s.pool.tasks[i]? = some task)
    (hr : task.ch = .separateCh → task.stage ≠ .running ∧ stage ≠ .running)
    (ht : t.tasks = s.pool.tasks.set i { task with stage := stage }) :
    { s with pool := t }.Running cur := by
  constructor
  case task =>
    intro j task' hj hc
    rw [ht] at hj
    obtain ⟨rfl, rfl⟩ | ⟨_, hj⟩ := List.getElem?_set_cases hj
    · obtain ⟨h₁, h₂⟩ := hr hc
      have ha := h.task j task hi hc
      exact ⟨fun hs => absurd hs h₂, fun hs => absurd (ha.mpr hs) h₁⟩
    · exact h.task j task' hj hc
  case real =>
    intro j f hcur
    obtain ⟨task', hj, hc, hf⟩ := h.real j f hcur
    obtain ⟨stage', hj'⟩ := lookup_moved hi ht hj
    exact ⟨_, hj', hc, hf⟩

theorem handing_moved (hi : s.pool.tasks[i]? = some task)
    (hp : conn.pc = .send i → task.ch = .separateCh → task.stage ≠ .produced) (hn : stage ≠ .produced)
    (ht : t.tasks = s.pool.tasks.set i { task with stage := stage }) :
    { s with pool := t }.handing conn = s.handing conn := by
  by_cases he : conn.pc = .send i
  case pos =>
    have hi' : t.tasks[i]? = some { task with stage := stage } :=
      ht ▸ List.getElem?_set_of_eq_some hi
    rw [handing_of_sent he hi (hp he), handing_of_sent (s := { s with pool := t }) he hi' fun _ => hn]
  case neg =>
    refine handing_congr fun j hj => ?_
    have hij : i ≠ j := fun h => he (h ▸ hj)
    change t.tasks[j]? = _
    rw [ht, List.getElem?_set_ne hij]

-- Nothing starts or ends.
theorem Ordered.quiet (h : Ordered es s ran cur) (he : e.mark = none) (hw : t.Wf)
    (hi : s.pool.tasks[i]? = some task) (hn : stage ≠ .produced)
    (hr : task.ch = .separateCh → task.stage ≠ .produced ∧ task.stage ≠ .running ∧ stage ≠ .running)
    (ht : t.tasks = s.pool.tasks.set i { task with stage := stage }) :
    Ordered (es ++ [e]) { s with pool := t } ran cur where
  marks   := (marks_snoc_of_none he).trans h.marks
  pool    := hw
  sending := h.sending.moved hi hn ht
  running := h.running.moved hi (fun hc => (hr hc).2) ht
  inOrder := by
    refine ⟨h.inOrder.known, h.inOrder.decoded, fun c conn hc => ?_⟩
    rw [handing_moved hi (fun _ hc => (hr hc).1) hn ht]
    exact h.inOrder.order c conn hc

-- The worker behind `separateCh` is free, and takes an ordered call from its reader.
theorem Ordered.start (h : Ordered es s ran cur) (he : e.mark = some (.start task.func)) (hw : t.Wf)
    (hi : s.pool.tasks[i]? = some task) (hch : task.ch = .separateCh) (hp : task.stage = .produced)
    (hb : s.pool.busy .separateCh = 0)
    (ht : t.tasks = s.pool.tasks.set i { task with stage := .running }) :
    Ordered (es ++ [e]) { s with pool := t } ran (some (i, task.func)) := by
  have hidle : ∀ task ∈ s.pool.tasks, task.ch = .separateCh → task.stage ≠ .running :=
    fun task hm hc => (TaskPool.busy_eq_zero_iff.mp hb task hm hc).1
  obtain rfl := h.running.eq_none hidle
  have hi' : t.tasks[i]? = some { task with stage := .running } :=
    ht ▸ List.getElem?_set_of_eq_some hi
  obtain ⟨conn₀, hc₀, hp₀⟩ := h.sending.task i task hi hp
  have ho := h.inOrder.order
  simp only [Option.map_none, Option.toList_none, List.append_nil] at ho
  refine ⟨?marks, hw, h.sending.moved hi (by simp) ht, ⟨?task, ?real⟩, ?known, h.inOrder.decoded, ?order⟩
  case marks =>
    rw [marks_snoc_of_some he, h.marks]
    simp [alternating]
  case task =>
    intro j task' hj hc
    rw [ht] at hj
    obtain ⟨rfl, rfl⟩ | ⟨hne, hj⟩ := List.getElem?_set_cases hj
    · simp
    · simp [hidle task' (List.mem_of_getElem? hj) hc, Ne.symm hne]
  case real =>
    rintro j f ⟨⟩
    exact ⟨_, hi', hch, rfl⟩
  case known =>
    intro f hf
    obtain hf | rfl := List.mem_append.mp hf |>.imp_right (by simpa using ·)
    · exact h.inOrder.known f (by simp [hf])
    · exact (List.getElem?_eq_some_iff.mp hc₀).1
  case order =>
    intro c conn hc
    rw [List.filter_append, ho c conn hc]
    by_cases hf : task.func.1 = c
    case pos =>
      subst hf
      obtain rfl := Option.some.inj (hc₀.symm.trans hc)
      rw [handing_of_produced hp₀ hi hch hp,
        handing_of_sent (s := { s with pool := t }) hp₀ hi' fun _ => by simp]
      simp
    case neg =>
      have hn : conn.pc ≠ .send i := by
        intro hp'
        obtain ⟨task', hi', hf'⟩ := h.sending.conn c i conn hc hp'
        obtain rfl := Option.some.inj (hi.symm.trans hi')
        exact hf hf'
      rw [handing_moved hi (fun hp' => absurd hp' hn) (by simp) ht]
      simp [hf]

theorem Ordered.return (h : Ordered es s ran cur) (he : e.mark = some (.finish task.func)) (hw : t.Wf)
    (hi : s.pool.tasks[i]? = some task) (hch : task.ch = .separateCh) (hp : task.stage = .running)
    (ht : t.tasks = s.pool.tasks.set i { task with stage := .returned }) :
    Ordered (es ++ [e]) { s with pool := t } (ran ++ [task.func]) none := by
  obtain rfl := (h.running.task i task hi hch).mp hp
  refine ⟨?marks, hw, h.sending.moved hi (by simp) ht, ⟨?task, nofun⟩, ?known, h.inOrder.decoded, ?order⟩
  case marks =>
    rw [marks_snoc_of_some he, h.marks]
    simp [alternating]
  case task =>
    intro j task' hj hc
    rw [ht] at hj
    obtain ⟨rfl, rfl⟩ | ⟨hne, hj⟩ := List.getElem?_set_cases hj
    · simp
    · simp [h.running.task j task' hj hc, Ne.symm hne]
  case known => simpa using h.inOrder.known
  case order =>
    intro c conn hc
    rw [handing_moved hi (fun _ _ => by simp [hp]) (by simp) ht, h.inOrder.order c conn hc]
    simp

end

theorem Step.ordered (hs : Step s e s') (h : Ordered es s ran cur) :
    ∃ ran' cur', Ordered (es ++ [e]) s' ran' cur' := by
  cases hs
  case accept => exact ⟨ran, cur, h.accept⟩
  case arrive c conn rpcName hc =>
    have hd := h.inOrder.decoded c conn hc
    refine ⟨ran, cur, h.setConn hc rfl (fun i hp => .inl hp) (fun i hp => hp) ?_ ?_ rfl⟩
    · simpa using Nat.le_succ_of_le hd
    · exact Conn.ordered_arrive hd
  case sync c conn rpcName hc hp hf hn =>
    refine ⟨ran, cur, h.setConn hc rfl (fun i hp' => ?_) nofun ?_ ?_ ?_⟩
    · cases hp.symm.trans hp'
    · exact (List.getElem?_eq_some_iff.mp hf).1
    · change conn.ordered c (conn.decoded + 1) = _
      rw [Conn.ordered_succ, hf, if_neg (ne_ordered_of_isSync hn), List.append_nil]
    · rw [handing, handing, hp]
  case synced c conn hc hp =>
    refine ⟨ran, cur, h.setConn hc rfl (fun i hp' => ?_) nofun (h.inOrder.decoded c conn hc) rfl ?_⟩
    · cases hp.symm.trans hp'
    · rw [handing, handing, hp]
  case produce c conn rpcName pool hc hp hf _ hs => exact ⟨ran, cur, h.produce hc hp hf hs⟩
  case sent c i conn task hc hp hi hn =>
    refine ⟨ran, cur, h.setConn hc rfl (fun j hp' => ?_) nofun (h.inOrder.decoded c conn hc) rfl ?_⟩
    · obtain rfl : i = j := by simpa [hp] using hp'
      exact .inr ⟨task, hi, hn⟩
    · exact (handing_of_sent hp hi fun _ => hn).symm
  case pool e t hs hn =>
    have hw := h.pool.step hs
    cases hs
    case produce func ch => exact absurd rfl (hn func ch)
    case send i task hi hch hp _ =>
      exact ⟨ran, cur, h.quiet rfl hw hi (by simp) (by simp [hch]) rfl⟩
    case start i is task hcons hi _ =>
      obtain ⟨task', hi', hq⟩ := (h.pool.queued i).mp (by simp [hcons])
      obtain rfl := Option.some.inj (hi.symm.trans hi')
      have hch := h.pool.ch i task hi hq
      exact ⟨ran, cur, h.quiet (by simp [Event.mark, hch]) hw hi (by simp) (by simp [hch]) rfl⟩
    case startSeparate i task hi hch hp hb =>
      exact ⟨ran, _, h.start (by simp [Event.mark, hch]) hw hi hch hp (by omega) rfl⟩
    case «return» i task hi hp =>
      cases hch : task.ch
      case taskCh => exact ⟨ran, cur, h.quiet rfl hw hi (by simp) (by simp [hch]) rfl⟩
      case separateCh => exact ⟨_, none, h.return rfl hw hi hch hp rfl⟩
    case finish i task hi hp => exact ⟨ran, cur, h.quiet rfl hw hi (by simp) (by simp [hp]) rfl⟩
    case stop =>
      exact ⟨ran, cur, (marks_snoc_of_none rfl).trans h.marks, hw, h.sending, h.running, h.inOrder⟩

theorem ordered_of_exec (h : Exec Step init es s) : ∃ ran cur, Ordered es s ran cur := by
  induction h
  case refl => exact ⟨[], none, init_ordered⟩
  case snoc hs hi =>
    obtain ⟨ran, cur, hi⟩ := hi
    exact hs.ordered hi

def Event.arrives : Event → Bool
  | .accept | .arrive .. => true
  | _                    => false

-- All frames are decoded and all tasks are finished.
structure Drained (s : Readers) : Prop where
  tasks : ∀ task ∈ s.pool.tasks, task.stage = .finished
  conns : ∀ conn ∈ s.conns, conn.decoded = conn.frames.length ∧ conn.pc = .read

-- A bound on the steps that are left until then, if no frame arrives.
def Conn.left (conn : Conn) : Nat :=
  6 * (conn.frames.length - conn.decoded) + match conn.pc with
    | .read => 0
    | _     => 1

def left (s : Readers) : Nat :=
  (s.conns.map Conn.left).sum + s.pool.rank

theorem setConn_left {conn' : Conn} {k : Nat} (hc : s.conns[c]? = some conn)
    (hl : conn'.left + k < conn.left) : (s.setConn c conn').left + k < s.left := by
  have hs := List.sum_map_set (b := conn') Conn.left hc
  simp only [left, setConn]
  omega

theorem Step.frames (hs : Step s e s') (he : ¬e.arrives) :
    s'.conns.map (·.frames) = s.conns.map (·.frames) := by
  have hset {c : Nat} {conn conn' : Conn} (hc : s.conns[c]? = some conn)
      (hf : conn'.frames = conn.frames) :
      (s.conns.set c conn').map (·.frames) = s.conns.map (·.frames) := by
    obtain ⟨l₁, l₂, hl, rfl⟩ := List.exists_of_getElem?_eq_some hc
    simp [hl, hf]
  cases hs
  case accept | arrive => simp [Event.arrives] at he
  case sync hc _ _ _ | synced hc _ | produce hc _ _ _ _ | sent hc _ _ _ => exact hset hc rfl
  case pool => rfl

-- As long as something is left to do, it can be done.
theorem Ordered.enabled (h : Ordered es s ran cur) (hd : ¬s.Drained) :
    ∃ e s', Step s e s' ∧ ¬e.arrives ∧ s'.left < s.left := by
  by_cases hu : ∃ task ∈ s.pool.tasks, task.stage ≠ .finished
  case pos =>
    obtain ⟨task, hm, hs⟩ := hu
    obtain ⟨i, hi⟩ := List.mem_iff_getElem?.mp hm
    obtain ⟨e, t, j, stage, ht, hmv, _⟩ := h.pool.enabled hi hs
    obtain ⟨_, hmoves⟩ := h.pool.moves ht hmv
    refine ⟨.pool e, _, .pool ht ?_, by simp [Event.arrives], ?_⟩
    · rintro func ch rfl
      cases hmv
    · exact Nat.add_lt_add_left hmoves.rank_lt _
  case neg =>
    push Not at hu
    have hc : ∃ conn ∈ s.conns, ¬(conn.decoded = conn.frames.length ∧ conn.pc = .read) := by
      by_contra hn
      refine hd ⟨hu, fun conn hm => ?_⟩
      by_contra hne
      exact hn ⟨conn, hm, hne⟩
    obtain ⟨conn, hm, hn⟩ := hc
    obtain ⟨c, hc⟩ := List.mem_iff_getElem?.mp hm
    cases hp : conn.pc
    case send i =>
      obtain ⟨task, hi, _⟩ := h.sending.conn c i conn hc hp
      have hf := hu task (List.mem_of_getElem? hi)
      refine ⟨_, _, .sent hc hp hi (by simp [hf]), by simp [Event.arrives], setConn_left (k := 0) hc ?_⟩
      simp [Conn.left, hp]
    case sync =>
      refine ⟨_, _, .synced hc hp, by simp [Event.arrives], setConn_left (k := 0) hc ?_⟩
      simp [Conn.left, hp]
    case read =>
      have hlt : conn.decoded < conn.frames.length := by
        have := h.inOrder.decoded c conn hc
        have : conn.decoded ≠ conn.frames.length := fun he => hn ⟨he, hp⟩
        omega
      obtain ⟨rpcName, hf⟩ : ∃ rpcName, conn.frames[conn.decoded]? = some rpcName :=
        ⟨_, List.getElem?_eq_getElem hlt⟩
      by_cases hsync : isSync rpcName
      case pos =>
        refine ⟨_, _, .sync hc hp hf hsync, by simp [Event.arrives], setConn_left (k := 0) hc ?_⟩
        simp only [Conn.left, hp]
        omega
      case neg =>
        refine ⟨_, _, .produce hc hp hf hsync (.produce ..), by simp [Event.arrives], ?_⟩
        -- The new task has four stages to go through.
        have hk : { conn with decoded := conn.decoded + 1, pc := .send s.pool.tasks.length }.left + 4 <
            conn.left := by
          simp only [Conn.left, hp]
          omega
        have hl := setConn_left hc hk
        simp [left, TaskPool.rank, Readers.setConn, Stage.rank] at hl ⊢
        omega

-- From every state all frames that have arrived can be handled.
theorem drain (h : Exec Step init es s) :
    ∃ es' s', Exec Step s es' s' ∧ (∀ e ∈ es', ¬e.arrives) ∧ s'.Drained := by
  have hcloser (n : Nat) (s : Readers) (h : s.left = n ∧ ∃ es, Exec Step init es s) (hd : ¬s.Drained) :
      ∃ es' s' n', Exec Step s es' s' ∧ (∀ e ∈ es', ¬e.arrives) ∧
        (s'.left = n' ∧ ∃ es, Exec Step init es s') ∧ n' < n := by
    obtain ⟨rfl, es, h⟩ := h
    obtain ⟨ran, cur, ho⟩ := ordered_of_exec h
    obtain ⟨e, s', hs, he, hl⟩ := ho.enabled hd
    exact ⟨[e], s', _, .single hs, by simpa using he, ⟨rfl, _, h.snoc hs⟩, hl⟩
  obtain ⟨es', s', hx, hes, _, hd⟩ := Exec.reach hcloser ⟨rfl, es, h⟩
  exact ⟨es', s', hx, hes, hd⟩

theorem frames_of_exec (h : Exec Step s es s') (he : ∀ e ∈ es, ¬e.arrives) :
    s'.conns.map (·.frames) = s.conns.map (·.frames) := by
  induction h
  case refl => rfl
  case snoc hs hi =>
    exact (hs.frames <| he _ (by simp)).trans <| hi fun e hm => he e (by simp [hm])

theorem Conn.ordered_prefix {n m : Nat} (h : n ≤ m) : conn.ordered c n <+: conn.ordered c m := by
  induction h
  case refl => exact List.prefix_refl _
  case step m _ hi =>
    rw [ordered_succ m]
    exact hi.trans (List.prefix_append _ _)

-- In a state in which nothing is left to do, all ordered calls that have arrived have run.
theorem Ordered.drained (h : Ordered es s ran cur) (hd : s.Drained) :
    cur = none ∧ ∀ (c : Nat) (conn : Conn), s.conns[c]? = some conn →
      conn.arrived c = ran.filter (·.1 = c) := by
  obtain rfl := h.running.eq_none fun task hm _ => by simp [hd.tasks task hm]
  refine ⟨rfl, fun c conn hc => ?_⟩
  obtain ⟨hl, hp⟩ := hd.conns conn (List.mem_of_getElem? hc)
  have ho := h.inOrder.order c conn hc
  rw [Conn.arrived, ← hl, ho, handing, hp]
  simp

-- What is asked of a run: the handlers of ordered calls run one after the other. Those of each connection
-- are started in the order in which the calls have arrived, none is left out and none is run twice. Those
-- that wait can all be run as well.
structure ArrivalOrder (es : List Event) (s : Readers) (ran : List Frame) (running : Option Frame)
    (waiting : Nat → List Frame) : Prop where
  marks   : marks es = alternating ran running
  known   : ∀ f ∈ ran ++ running.toList, f.1 < s.conns.length
  arrived : ∀ (c : Nat) (conn : Conn), s.conns[c]? = some conn →
    conn.arrived c = (ran ++ running.toList).filter (·.1 = c) ++ waiting c
  later   : ∃ es' s' ran', Exec Step s es' s' ∧ (∀ e ∈ es', ¬e.arrives) ∧
    Readers.marks (es ++ es') = alternating ran' none ∧
    ∀ (c : Nat) (conn : Conn), s.conns[c]? = some conn → conn.arrived c = ran'.filter (·.1 = c)

theorem ordered_calls_in_arrival_order (h : Exec Step init es s) :
    ∃ ran running waiting, ArrivalOrder es s ran running waiting := by
  obtain ⟨ran, cur, ho⟩ := ordered_of_exec h
  have hw (c : Nat) : ∃ waiting, ∀ conn, s.conns[c]? = some conn →
      conn.arrived c = (ran ++ (cur.map Prod.snd).toList).filter (·.1 = c) ++ waiting := by
    cases hc : s.conns[c]?
    case none => exact ⟨[], nofun⟩
    case some conn =>
      obtain ⟨rest, hrest⟩ := conn.ordered_prefix (c := c) (ho.inOrder.decoded c conn hc)
      refine ⟨s.handing conn ++ rest, ?_⟩
      rintro _ ⟨⟩
      rw [Conn.arrived, ← hrest, ho.inOrder.order c conn hc, List.append_assoc]
  choose waiting hw using hw
  refine ⟨ran, cur.map Prod.snd, waiting, ho.marks, ho.inOrder.known, hw, ?_⟩
  obtain ⟨es', s', hx, hes, hd⟩ := drain h
  obtain ⟨ran', cur', ho'⟩ := ordered_of_exec (h.trans hx)
  obtain ⟨rfl, hran⟩ := ho'.drained hd
  refine ⟨es', s', ran', hx, hes, ho'.marks, fun c conn hc => ?_⟩
  -- The connection has the same frames then.
  have hf : (s'.conns.map (·.frames))[c]? = some conn.frames := by
    rw [frames_of_exec hx hes, List.getElem?_map, hc]
    rfl
  obtain ⟨conn', hc', he⟩ := List.getElem?_map .. ▸ hf |> Option.map_eq_some_iff.mp
  rw [← hran c conn' hc', Conn.arrived, Conn.arrived, Conn.ordered, Conn.ordered, he]

-- The ordered call of the second connection is counted first, but waits until the one of the first
-- connection has run.
theorem ordered_calls_two_conns :
    ∃ es s, Exec Step init es s ∧
      marks es = [.start (0, 0), .finish (0, 0), .start (1, 0)] ∧
      ∃ ran running waiting, ArrivalOrder es s ran running waiting := by
  have h₁ := Exec.refl.snoc (Step.accept (s := init))
  have h₂ := h₁.snoc .accept
  have h₃ := h₂.snoc (.arrive (c := 0) msgG2SRpcCallOrdered rfl)
  have h₄ := h₃.snoc (.arrive (c := 1) msgG2SRpcCallOrdered rfl)
  have h₅ := h₄.snoc (.produce (c := 1) rfl rfl rfl (by decide) (.produce ..))
  have h₆ := h₅.snoc (.produce (c := 0) rfl rfl rfl (by decide) (.produce ..))
  have h₇ := h₆.snoc (.pool (.startSeparate (i := 1) rfl rfl rfl (by decide)) nofun)
  have h₈ := h₇.snoc (.pool (.return (i := 1) rfl rfl) nofun)
  have h₉ := h₈.snoc (.pool (.finish (i := 1) rfl rfl) nofun)
  have h := h₉.snoc (.pool (.startSeparate (i := 0) rfl rfl rfl (by decide)) nofun)
  exact ⟨_, _, h, rfl, ordered_calls_in_arrival_order h⟩

end Readers
