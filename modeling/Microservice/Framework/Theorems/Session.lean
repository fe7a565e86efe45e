import Microservice.Framework.Session
import Microservice.Framework.Theorems.HandleRead
import Microservice.Lib.Positions

namespace Session

variable {call : Nat → Bytes → Option Call} {s s' : Conn} {e : Event} {es : List Event} {w : Worker}
  {task : Task} {sessions sessions' : List String} {chunk : Bytes} {chunks : List Bytes} {i r : Nat}

def Event.input : Event → Option Bytes
  | .read chunk => some chunk
  | _           => none

-- The reads of a connection.
def reads (es : List Event) : List Bytes :=
  es.filterMap Event.input

theorem reads_snoc : reads (es ++ [e]) = reads es ++ e.input.toList := by
  cases h : e.input <;> simp [reads, h]

-- The frames that a sequence of reads completes, each with the number of the read that completes it. Before
-- the first read, `tail` has been received and not been decoded.
def deliveries (tail : Bytes) (r : Nat) : List Bytes → List (Nat × Bytes)
  | []              => []
  | chunk :: chunks =>
    (Packet.parse (tail ++ chunk)).1.map (r, ·) ++
      deliveries (Packet.parse (tail ++ chunk)).2 (r + 1) chunks

theorem parse_tail_append (tail chunk : Bytes) (rest : Bytes) :
    (Packet.parse ((Packet.parse (tail ++ chunk)).2 ++ rest)).2 =
      (Packet.parse (tail ++ (chunk ++ rest))).2 := by
  rw [←List.append_assoc, Packet.parse_append (tail ++ chunk)]

theorem deliveries_snoc (tail : Bytes) (r : Nat) (chunks : List Bytes) (chunk : Bytes)
    (ht : Packet.split tail = none) :
    deliveries tail r (chunks ++ [chunk]) = deliveries tail r chunks ++
      (Packet.parse ((Packet.parse (tail ++ chunks.flatten)).2 ++ chunk)).1.map (r + chunks.length, ·) := by
  induction chunks generalizing tail r
  case nil => simp [deliveries, Packet.parse_of_none ht]
  case cons c cs hi =>
    have hi := hi (Packet.parse (tail ++ c)).2 (r + 1) (Packet.split_parse_tail _)
    simp only [List.cons_append, deliveries, hi, List.flatten_cons, parse_tail_append, List.append_assoc]
    simp [Nat.add_comm, Nat.add_left_comm]

theorem deliveries_append (tail : Bytes) (r : Nat) (chunks chunks' : List Bytes) :
    deliveries tail r chunks <+: deliveries tail r (chunks ++ chunks') := by
  induction chunks generalizing tail r
  case nil          => exact List.nil_prefix
  case cons c cs hi => exact (List.prefix_append_right_inj _).mpr (hi ..)

-- The frame with the number `idx` and its session, over all reads from the first one.
def frame (chunks : List Bytes) (idx : Nat) : Option (Nat × Bytes) :=
  (deliveries [] 0 chunks)[idx]?

theorem frame_mono {chunks' : List Bytes} {idx : Nat} {x : Nat × Bytes} (hp : chunks <+: chunks')
    (h : frame chunks idx = some x) : frame chunks' idx = some x := by
  obtain ⟨rest, rfl⟩ := hp
  obtain ⟨_, hr⟩ := deliveries_append [] 0 chunks rest
  rw [frame, ←hr]
  exact List.getElem?_append_of_eq_some h

-- The tasks that workers have taken, oldest first, and those that wait for one.
def Conn.tasks (s : Conn) : List Task :=
  s.workers.map Worker.task ++ s.taskCh

theorem WorkerStep.length_eq {w' : Option Worker} (h : WorkerStep call sessions w e sessions' w') :
    sessions'.length = sessions.length := by
  cases h
  case setResponseErr => exact List.length_set
  all_goals rfl

theorem WorkerStep.input_eq {w' : Option Worker} (h : WorkerStep call sessions w e sessions' w') :
    e.input = none := by
  cases h
  case refuse         => rw [reply]; split <;> rfl
  case needResponse   => rw [reply]; split <;> rfl
  case getResponseErr => rw [reply]; split <;> rfl
  all_goals rfl

theorem WorkerStep.task_eq {w' : Worker} (h : WorkerStep call sessions w e sessions' (some w')) :
    w'.task = w.task := by
  cases h <;> rfl

theorem map_task_set {ws : List Worker} {w' : Worker} (hi : ws[i]? = some w) (ht : w'.task = w.task) :
    (ws.set i w').map Worker.task = ws.map Worker.task := by
  have ⟨hl, hw⟩ := List.getElem?_eq_some_iff.mp hi
  rw [List.map_set, ht, ←hw, ←List.getElem_map Worker.task (h := by simpa using hl), List.set_getElem_self]

-- The frames of the reads are handed over in order, each with the session of the read that completes it.
structure Streamed (es : List Event) (s : Conn) : Prop where
  received : s.tcp.received = some (Packet.parse (reads es).flatten).2
  sessions : s.sessions.length = (reads es).length
  bodies   : (deliveries [] 0 (reads es)).drop s.count = s.bodies.map (s.sessions.length - 1, ·)
  count    : s.count ≤ (deliveries [] 0 (reads es)).length
  tasks    : ∀ task ∈ s.tasks,
    frame (reads es) task.idx = some (task.session, task.body) ∧ task.idx < s.count
  nodup    : (s.tasks.map Task.idx).Nodup

namespace Streamed

theorem accepted (now : Int) : Streamed [] (accepted now) where
  received := by simp [Session.accepted, reads, Packet.parse_nil, RecvBuf.make_received]
  sessions := rfl
  bodies   := rfl
  count    := Nat.zero_le _
  tasks    := nofun
  nodup    := .nil

theorem read {o : Observed} {tcp : TcpClient} {bodies : List Bytes} (h : Streamed es s)
    (hn : s.bodies = []) (ho : o.state = .ok) (hr : ReadLoop.Readable s.tcp.toRecvBuf o)
    (hb : o.result.bytes ≠ [])
    (ht : TcpClient.turn ReadLoop.collect o s.tcp [] = .next (tcp, bodies)) :
    Streamed (es ++ [.read o.result.bytes])
      { s with tcp := tcp, bodies := bodies, sessions := s.sessions ++ [""] } := by
  have ⟨tcp', hn', hr'⟩ := ReadLoop.turn_collect (by simp [ho]) hr h.received
    (Packet.split_parse_tail _) hb
  cases ht.symm.trans hn'
  have hd := deliveries_snoc [] 0 (reads es) o.result.bytes rfl
  have hcount : (deliveries [] 0 (reads es)).length = s.count := by
    have hb := h.bodies
    rw [hn, List.map_nil, List.drop_eq_nil_iff] at hb
    exact Nat.le_antisymm hb h.count
  have hreads : reads (es ++ [.read o.result.bytes]) = reads es ++ [o.result.bytes] := reads_snoc
  constructor
  case received => simpa [hreads, Packet.parse_append (reads es).flatten] using hr'
  case sessions => simp [hreads, h.sessions]
  case bodies =>
    rw [hreads, hd, List.drop_left' hcount]
    simp [h.sessions]
  case count =>
    rw [hreads, hd, List.length_append, hcount]
    exact Nat.le_add_right ..
  case tasks =>
    intro task hm
    have ⟨hf, hl⟩ := h.tasks task hm
    exact ⟨frame_mono (hreads ▸ List.prefix_append ..) hf, hl⟩
  case nodup => exact h.nodup

theorem produce {body : Bytes} {bodies : List Bytes} (h : Streamed es s) (hb : s.bodies = body :: bodies) :
    Streamed (es ++ [.internal])
      { s with
        bodies := bodies
        count  := s.count + 1
        taskCh := s.taskCh ++ [⟨s.count, s.sessions.length - 1, body⟩] } := by
  have hreads : reads (es ++ [.internal]) = reads es := reads_snoc.trans (List.append_nil _)
  have hdrop := h.bodies
  rw [hb, List.map_cons] at hdrop
  have hframe : frame (reads es) s.count = some (s.sessions.length - 1, body) := by
    rw [frame, ←Nat.add_zero s.count, ←List.getElem?_drop, hdrop, List.getElem?_cons_zero]
  constructor
  case received => exact hreads ▸ h.received
  case sessions => exact hreads ▸ h.sessions
  case bodies =>
    rw [hreads, ←List.drop_drop, hdrop]
    rfl
  case count =>
    rw [hreads]
    exact (List.getElem?_eq_some_iff.mp hframe).1
  case tasks =>
    intro task hm
    rw [hreads]
    simp only [Conn.tasks, ←List.append_assoc] at hm
    obtain hm | hm := List.mem_append.mp hm
    · have ⟨hf, hl⟩ := h.tasks task hm
      exact ⟨hf, Nat.lt_succ_of_lt hl⟩
    · cases List.mem_singleton.mp hm
      exact ⟨hframe, Nat.lt_succ_self _⟩
  case nodup =>
    simp only [Conn.tasks, ←List.append_assoc, List.map_append, List.map_cons, List.map_nil]
    refine List.nodup_append.mpr ⟨by simpa [Conn.tasks] using h.nodup, by simp, ?_⟩
    intro idx hm idx' hm'
    cases List.mem_singleton.mp hm'
    simp only [←List.map_append] at hm
    obtain ⟨task, ht, rfl⟩ := List.mem_map.mp hm
    exact Nat.ne_of_lt (h.tasks task ht).2

-- A step that leaves the reads alone, and the tasks as they are or some of them out.
theorem idle (h : Streamed es s) (he : e.input = none) (hr : s'.tcp.received = s.tcp.received)
    (hs : s'.sessions.length = s.sessions.length) (hb : s'.bodies = s.bodies) (hc : s'.count = s.count)
    (ht : s'.tasks.Sublist s.tasks) : Streamed (es ++ [e]) s' := by
  have hreads : reads (es ++ [e]) = reads es := by simp [reads_snoc, he]
  exact {
    received := by rw [hreads, hr, h.received]
    sessions := by rw [hreads, hs, h.sessions]
    bodies   := by rw [hreads, hc, hb, hs, h.bodies]
    count    := by rw [hreads, hc]; exact h.count
    tasks    := fun task hm => hreads ▸ hc ▸ h.tasks task (ht.subset hm)
    nodup    := h.nodup.sublist (ht.map _) }

theorem step (h : Streamed es s) (hs : Step call s e s') : Streamed (es ++ [e]) s' := by
  cases hs
  case read hn ho hr hb ht => exact h.read hn ho hr hb ht
  case timeout hb ht =>
    have ⟨hbuf, _⟩ := (ReadLoop.tcpClient_lawful ReadLoop.collect).silent ht hb
    exact h.idle rfl (congrArg RecvBuf.received hbuf) rfl rfl rfl (List.Sublist.refl _)
  case produce hb _ => exact h.produce hb
  case take task tasks ht _ =>
    exact h.idle rfl rfl rfl rfl rfl (by simp [Conn.tasks, ht])
  case work hi hs =>
    exact h.idle hs.input_eq rfl hs.length_eq rfl rfl
      (by simp [Conn.tasks, map_task_set hi hs.task_eq])
  case done hi hs =>
    refine h.idle hs.input_eq rfl hs.length_eq rfl rfl ?_
    exact ((List.eraseIdx_sublist _ _).map _).append (List.Sublist.refl _)

end Streamed

theorem streamed_of_exec {now : Int} (h : Exec (Step call) (accepted now) es s) : Streamed es s :=
  h.invariant (I := Streamed) (.accepted now) fun _ _ _ _ _ hi hs => hi.step hs

theorem lt_of_mem_deliveries {tail body : Bytes} {r₀ : Nat} (h : (r, body) ∈ deliveries tail r₀ chunks) :
    r < r₀ + chunks.length := by
  induction chunks generalizing tail r₀
  case nil => cases h
  case cons c cs hi =>
    obtain h | h := List.mem_append.mp h
    · obtain ⟨_, _, h⟩ := List.mem_map.mp h
      cases h
      simp
    · have := hi h
      simp only [List.length_cons]
      omega

theorem lt_of_frame {idx : Nat} {body : Bytes} (h : frame chunks idx = some (r, body)) :
    r < chunks.length := by
  have := lt_of_mem_deliveries (List.mem_of_getElem? h)
  omega

-- The string that a step leaves in the session `r`, and the call it is from.
def Event.errOf (r : Nat) : Event → Option (Nat × String)
  | .setResponseErr idx session err => if session = r then some (idx, err) else none
  | _                               => none

def errsOf (r : Nat) (es : List Event) : List (Nat × String) :=
  es.filterMap (Event.errOf r)

-- The strings that one call has passed to `SetResponseErr` so far.
def ownErrs (task : Task) (es : List Event) : List String :=
  ((errsOf task.session es).filter (·.1 = task.idx)).map Prod.snd

def lastErr (errs : List String) : String :=
  errs.getLastD ""

theorem errsOf_snoc_of_none (h : e.errOf r = none) : errsOf r (es ++ [e]) = errsOf r es := by
  simp [errsOf, h]

theorem Event.errOf_of_ne {idx session : Nat} {err : String} (h : session ≠ r) :
    Event.errOf r (.setResponseErr idx session err) = none :=
  if_neg h

theorem errsOf_snoc {idx : Nat} {err : String} :
    errsOf r (es ++ [.setResponseErr idx r err]) = errsOf r es ++ [(idx, err)] := by
  simp [errsOf, Event.errOf]

theorem ownErrs_snoc_self {err : String} :
    ownErrs task (es ++ [.setResponseErr task.idx task.session err]) = ownErrs task es ++ [err] := by
  simp [ownErrs, errsOf_snoc]

theorem ownErrs_snoc_of_ne {idx : Nat} {err : String} (h : idx ≠ task.idx) :
    ownErrs task (es ++ [.setResponseErr idx r err]) = ownErrs task es := by
  by_cases hr : r = task.session
  · subst hr
    simp [ownErrs, errsOf_snoc, h]
  · rw [ownErrs, errsOf_snoc_of_none (Event.errOf_of_ne hr), ownErrs]

theorem lastErr_concat (errs : List String) (err : String) : lastErr (errs ++ [err]) = err := by
  simp [lastErr]

-- How far a worker is: the strings it has passed and those it has not yet passed are those of its handler.
def Worker.Recorded (call : Nat → Bytes → Option Call) (es : List Event) (w : Worker) : Prop :=
  match w.pc with
  | .start                => ownErrs w.task es = []
  | .handling grid h errs =>
    call w.task.idx w.task.body = some ⟨grid, .handler h⟩ ∧ ownErrs w.task es ++ errs = h.errs

-- A session holds the last string that any of its calls has passed.
structure Recorded (call : Nat → Bytes → Option Call) (es : List Event) (s : Conn) : Prop where
  sessions : ∀ r err, s.sessions[r]? = some err → err = lastErr ((errsOf r es).map Prod.snd)
  known    : ∀ r idx err, (idx, err) ∈ errsOf r es → idx < s.count ∧ ∃ body grid h,
    frame (reads es) idx = some (r, body) ∧ call idx body = some ⟨grid, .handler h⟩ ∧ err ∈ h.errs
  waiting  : ∀ task ∈ s.taskCh, ownErrs task es = []
  workers  : ∀ w ∈ s.workers, w.Recorded call es

namespace Streamed

theorem idx_inj {w' : Worker} {j : Nat} (h : Streamed es s) (hi : s.workers[i]? = some w)
    (hj : s.workers[j]? = some w') (he : w.task.idx = w'.task.idx) : i = j := by
  have hl := (List.getElem?_eq_some_iff.mp hi).1
  have hget {k : Nat} {v : Worker} (hk : s.workers[k]? = some v) :
      (s.tasks.map Task.idx)[k]? = some v.task.idx := by
    simp only [Conn.tasks, List.map_append]
    exact List.getElem?_append_of_eq_some (by simp [hk])
  refine (List.getElem?_inj ?_ h.nodup).mp ((hget hi).trans (he ▸ (hget hj).symm))
  simp only [Conn.tasks, List.length_map, List.length_append]
  omega

theorem idx_ne (h : Streamed es s) (hw : w ∈ s.workers) (ht : task ∈ s.taskCh) :
    w.task.idx ≠ task.idx := by
  have hn := h.nodup
  simp only [Conn.tasks, List.map_append] at hn
  exact (List.nodup_append.mp hn).2.2 _ (by simpa using ⟨w, hw, rfl⟩) _ (List.mem_map_of_mem ht)

end Streamed

theorem reads_mono (es : List Event) (e : Event) : reads es <+: reads (es ++ [e]) :=
  reads_snoc ▸ List.prefix_append ..

theorem Worker.Recorded.mono (h : w.Recorded call es) (he : ∀ r, e.errOf r = none) :
    w.Recorded call (es ++ [e]) := by
  have ho : ownErrs w.task (es ++ [e]) = ownErrs w.task es := by
    rw [ownErrs, errsOf_snoc_of_none (he _), ownErrs]
  simpa only [Worker.Recorded, ho] using h

-- The strings of other calls do not count as own ones.
theorem Worker.Recorded.other {idx : Nat} {err : String} (h : w.Recorded call es)
    (hn : idx ≠ w.task.idx) : w.Recorded call (es ++ [.setResponseErr idx r err]) := by
  simpa only [Worker.Recorded, ownErrs_snoc_of_ne hn] using h

namespace Recorded

theorem ownErrs_of_le (h : Recorded call es s) (hl : s.count ≤ task.idx) : ownErrs task es = [] := by
  simp only [ownErrs, List.map_eq_nil_iff, List.filter_eq_nil_iff, decide_eq_true_eq]
  rintro ⟨idx, err⟩ hm rfl
  have := (h.known _ _ _ hm).1
  omega

-- A step in which no handler passes a string.
theorem idle (h : Recorded call es s) (he : ∀ r, e.errOf r = none)
    (hs : ∀ r err, s'.sessions[r]? = some err →
      s.sessions[r]? = some err ∨ (err = "" ∧ (reads es).length ≤ r))
    (hc : s.count ≤ s'.count) (ht : ∀ task ∈ s'.taskCh, task ∈ s.taskCh ∨ s.count ≤ task.idx)
    (hw : ∀ w ∈ s'.workers, w.Recorded call es) : Recorded call (es ++ [e]) s' where
  sessions := by
    intro r err hr
    rw [errsOf_snoc_of_none (he r)]
    obtain hr | ⟨rfl, hl⟩ := hs r err hr
    · exact h.sessions r err hr
    · have hnil : errsOf r es = [] := by
        refine List.eq_nil_iff_forall_not_mem.mpr fun x hx => ?_
        have ⟨_, _, _, _, hf, _⟩ := h.known r x.1 x.2 hx
        have := lt_of_frame hf
        omega
      rw [hnil]
      rfl
  known := by
    intro r idx err hm
    rw [errsOf_snoc_of_none (he r)] at hm
    have ⟨hl, body, grid, hd, hf, hk⟩ := h.known r idx err hm
    exact ⟨Nat.lt_of_lt_of_le hl hc, body, grid, hd, frame_mono (reads_mono es e) hf, hk⟩
  waiting := by
    intro task hm
    rw [ownErrs, errsOf_snoc_of_none (he _), ←ownErrs]
    obtain hm | hl := ht task hm
    · exact h.waiting task hm
    · exact h.ownErrs_of_le hl
  workers := fun w hm => (hw w hm).mono he

theorem setResponseErr {grid : UInt32} {hd : Handler} {err : String} {errs : List String}
    (h : Recorded call es s) (hst : Streamed es s) (hi : s.workers[i]? = some w)
    (hp : w.pc = .handling grid hd (err :: errs)) :
    Recorded call (es ++ [.setResponseErr w.task.idx w.task.session err])
      { s with
        sessions := s.sessions.set w.task.session err
        workers  := s.workers.set i { w with pc := .handling grid hd errs } } := by
  have hw := List.mem_of_getElem? hi
  have hrec := h.workers w hw
  simp only [Worker.Recorded, hp] at hrec
  have ⟨hf, hl⟩ := hst.tasks w.task (List.mem_append_left _ (List.mem_map_of_mem hw))
  have hreads : reads (es ++ [.setResponseErr w.task.idx w.task.session err]) = reads es :=
    reads_snoc.trans (List.append_nil _)
  constructor
  case sessions =>
    intro r err' hr
    obtain ⟨rfl, rfl⟩ | ⟨hn, hr⟩ := List.getElem?_set_cases hr
    · rw [errsOf_snoc, List.map_append]
      exact (lastErr_concat ..).symm
    · rw [errsOf_snoc_of_none (Event.errOf_of_ne (Ne.symm hn))]
      exact h.sessions r err' hr
  case known =>
    intro r idx err' hm
    rw [hreads]
    by_cases hr : w.task.session = r
    case pos =>
      subst hr
      rw [errsOf_snoc] at hm
      obtain hm | hm := List.mem_append.mp hm
      · exact h.known _ _ _ hm
      · cases List.mem_singleton.mp hm
        exact ⟨hl, w.task.body, grid, hd, hf, hrec.1, hrec.2 ▸ by simp⟩
    case neg =>
      rw [errsOf_snoc_of_none (Event.errOf_of_ne hr)] at hm
      exact h.known _ _ _ hm
  case waiting =>
    intro task hm
    rw [ownErrs_snoc_of_ne (hst.idx_ne hw hm)]
    exact h.waiting task hm
  case workers =>
    intro w' hm
    obtain ⟨j, hj⟩ := List.mem_iff_getElem?.mp hm
    obtain ⟨rfl, rfl⟩ | ⟨hn, hj⟩ := List.getElem?_set_cases hj
    · simp only [Worker.Recorded, ownErrs_snoc_self]
      exact ⟨hrec.1, by rw [List.append_assoc]; exact hrec.2⟩
    · exact (h.workers w' (List.mem_of_getElem? hj)).other
        fun he => hn (hst.idx_inj hj hi he.symm)

theorem step (h : Recorded call es s) (hst : Streamed es s) (hs : Step call s e s') :
    Recorded call (es ++ [e]) s' := by
  cases hs
  case read =>
    refine h.idle (fun _ => rfl) ?_ (Nat.le_refl _) (fun _ hm => .inl hm) h.workers
    intro r err hr
    obtain hr | ⟨hr, he⟩ := List.getElem?_concat_cases hr
    · exact .inl hr
    · exact .inr ⟨he, Nat.le_of_eq (hr.trans hst.sessions).symm⟩
  case timeout =>
    exact h.idle (fun _ => rfl) (fun _ _ hr => .inl hr) (Nat.le_refl _) (fun _ hm => .inl hm) h.workers
  case produce =>
    refine h.idle (fun _ => rfl) (fun _ _ hr => .inl hr) (Nat.le_succ _) ?_ h.workers
    intro task hm
    obtain hm | hm := List.mem_append.mp hm
    · exact .inl hm
    · cases List.mem_singleton.mp hm
      exact .inr (Nat.le_refl _)
  case take task tasks ht _ =>
    refine h.idle (fun _ => rfl) (fun _ _ hr => .inl hr) (Nat.le_refl _) ?_ ?_
    · exact fun task' hm => .inl (ht ▸ List.mem_cons_of_mem _ hm)
    · intro w hm
      obtain hm | hm := List.mem_append.mp hm
      · exact h.workers w hm
      · cases List.mem_singleton.mp hm
        exact h.waiting task (ht ▸ List.mem_cons_self)
  case work hi hs =>
    cases hs
    case setResponseErr hp => exact h.setResponseErr hst hi hp
    case process grid hd hp hc =>
      refine h.idle (fun _ => rfl) (fun _ _ hr => .inl hr) (Nat.le_refl _) (fun _ hm => .inl hm) ?_
      intro w' hm
      obtain hm | rfl := List.mem_or_eq_of_mem_set hm
      · exact h.workers w' hm
      · have hrec := h.workers _ (List.mem_of_getElem? hi)
        simp only [Worker.Recorded, hp] at hrec
        exact ⟨hc, by simp [hrec]⟩
  case done i _ _ hi hs =>
    have hw : ∀ w ∈ s.workers.eraseIdx i, w.Recorded call es :=
      fun w hm => h.workers w (List.mem_of_mem_eraseIdx hm)
    cases hs
    case undecoded =>
      exact h.idle (fun _ => rfl) (fun _ _ hr => .inl hr) (Nat.le_refl _) (fun _ hm => .inl hm) hw
    all_goals
      refine h.idle (fun _ => ?_) (fun _ _ hr => .inl hr) (Nat.le_refl _) (fun _ hm => .inl hm) hw
      rw [reply]
      split <;> rfl

end Recorded

theorem recorded_of_exec {now : Int} (h : Exec (Step call) (accepted now) es s) : Recorded call es s := by
  refine h.invariant (I := Recorded call) ?_ ?_
  · constructor <;> simp [accepted, errsOf]
  · intro es s e s' h hi hs
    exact hi.step (streamed_of_exec h) hs

-- The error that a call is to be answered with, as far as it is up to the call alone.
def Call.error (c : Call) : String :=
  match c.dispatch with
  | .refused r => r.text
  | .handler h => if h.rsp then lastErr h.errs else (Refusal.needResponse h.rpcName).text

-- Every response carries the id and the error of its call.
def Isolated (call : Nat → Bytes → Option Call) (es : List Event) : Prop :=
  ∀ idx grid error, .rsp idx grid error ∈ es → ∃ session body c,
    frame (reads es) idx = some (session, body) ∧ call idx body = some c ∧
    c.grid = grid ∧ error = c.error

-- No handler passes a string to `SetResponseErr` that another call of the same read, which is answered with
-- what its session holds, is not to be answered with.
def Quiet (call : Nat → Bytes → Option Call) (chunks : List Bytes) : Prop :=
  ∀ idx idx' session body body' grid grid' h h',
    frame chunks idx = some (session, body) → frame chunks idx' = some (session, body') → idx ≠ idx' →
    call idx body = some ⟨grid, .handler h⟩ → grid ≠ 0 → h.rsp = true →
    call idx' body' = some ⟨grid', .handler h'⟩ → ∀ err ∈ h'.errs, err = lastErr h.errs

theorem Quiet.mono {chunks' : List Bytes} (h : Quiet call chunks') (hp : chunks <+: chunks') :
    Quiet call chunks :=
  fun idx idx' session body body' grid grid' hd hd' hf hf' =>
    h idx idx' session body body' grid grid' hd hd' (frame_mono hp hf) (frame_mono hp hf')

-- The last string in a session is from the call itself, or from another one that has passed the same.
theorem Recorded.lastErr_eq {grid : UInt32} {hd : Handler} {err : String} (h : Recorded call es s)
    (hst : Streamed es s) (hq : Quiet call (reads es)) (hw : w ∈ s.workers)
    (hp : w.pc = .handling grid hd []) (hg : grid ≠ 0) (hr : hd.rsp = true)
    (he : s.sessions[w.task.session]? = some err) : err = lastErr hd.errs := by
  have hrec := h.workers w hw
  simp only [Worker.Recorded, hp, List.append_nil] at hrec
  have ⟨hc, hown⟩ := hrec
  have ⟨hf, _⟩ := hst.tasks w.task (List.mem_append_left _ (List.mem_map_of_mem hw))
  have hlast := h.sessions _ _ he
  obtain hnil | ⟨errs, ⟨idx', err'⟩, hcons⟩ := (errsOf w.task.session es).eq_nil_or_concat
  · rw [hnil] at hlast
    rw [hlast, ←hown, ownErrs, hnil]
    rfl
  · rw [hcons, List.concat_eq_append, List.map_append] at hlast
    have hlast : err = err' := hlast.trans (lastErr_concat ..)
    by_cases hi : idx' = w.task.idx
    · rw [hlast, ←hown, ownErrs, hcons, List.concat_eq_append, List.filter_append, List.map_append]
      simp [hi, lastErr]
    · have hm : (idx', err') ∈ errsOf w.task.session es := by simp [hcons]
      have ⟨_, body', grid', hd', hf', hc', he'⟩ := h.known _ _ _ hm
      exact hlast ▸ hq _ _ _ _ _ _ _ _ _ hf hf' (Ne.symm hi) hc hg hr hc' err' he'

theorem rsp_of_reply {idx idx' : Nat} {grid grid' : UInt32} {error error' : String}
    (h : reply idx grid error = .rsp idx' grid' error') :
    grid ≠ 0 ∧ idx = idx' ∧ grid = grid' ∧ error = error' := by
  rw [reply] at h
  split at h
  case isTrue      => cases h
  case isFalse hg  => cases h; exact ⟨hg, rfl, rfl, rfl⟩

theorem WorkerStep.rsp_cases {w' : Option Worker} {idx : Nat} {grid : UInt32} {error : String}
    (h : WorkerStep call sessions w e sessions' w') (he : e = .rsp idx grid error) :
    idx = w.task.idx ∧ grid ≠ 0 ∧
    ((∃ r, call w.task.idx w.task.body = some ⟨grid, .refused r⟩ ∧ error = r.text) ∨
    ∃ hd, w.pc = .handling grid hd [] ∧
      ((hd.rsp = false ∧ error = (Refusal.needResponse hd.rpcName).text) ∨
        (hd.rsp = true ∧ sessions[w.task.session]? = some error))) := by
  cases h
  case refuse grid r _ hc =>
    obtain ⟨hg, rfl, rfl, rfl⟩ := rsp_of_reply he
    exact ⟨rfl, hg, .inl ⟨r, hc, rfl⟩⟩
  case needResponse grid hd hp hr =>
    obtain ⟨hg, rfl, rfl, rfl⟩ := rsp_of_reply he
    exact ⟨rfl, hg, .inr ⟨hd, hp, .inl ⟨hr, rfl⟩⟩⟩
  case getResponseErr grid hd _ hp hr hget =>
    obtain ⟨hg, rfl, rfl, rfl⟩ := rsp_of_reply he
    exact ⟨rfl, hg, .inr ⟨hd, hp, .inr ⟨hr, hget⟩⟩⟩
  all_goals cases he

theorem Step.worker_of_rsp {idx : Nat} {grid : UInt32} {error : String} (h : Step call s e s')
    (he : e = .rsp idx grid error) :
    ∃ w ∈ s.workers, ∃ sessions w', WorkerStep call s.sessions w e sessions w' := by
  cases h
  case work hi hs => exact ⟨_, List.mem_of_getElem? hi, _, _, hs⟩
  case done hi hs => exact ⟨_, List.mem_of_getElem? hi, _, _, hs⟩
  all_goals cases he

theorem Isolated.step (h : Isolated call es) (hrec : Recorded call es s) (hst : Streamed es s)
    (hq : Quiet call (reads es)) (hs : Step call s e s') : Isolated call (es ++ [e]) := by
  intro idx grid error hm
  obtain hm | hm := List.mem_append.mp hm
  · have ⟨session, body, c, hf, hc⟩ := h idx grid error hm
    exact ⟨session, body, c, frame_mono (reads_mono es e) hf, hc⟩
  · have he := (List.mem_singleton.mp hm).symm
    have ⟨w, hw, _, _, hws⟩ := hs.worker_of_rsp he
    have ⟨hf, _⟩ := hst.tasks w.task (List.mem_append_left _ (List.mem_map_of_mem hw))
    have hf := frame_mono (reads_mono es e) hf
    obtain ⟨rfl, hg, ⟨r, hc, rfl⟩ | ⟨hd, hp, hrsp⟩⟩ := hws.rsp_cases he
    · exact ⟨_, _, _, hf, hc, rfl, rfl⟩
    · have hwrec := hrec.workers w hw
      simp only [Worker.Recorded, hp] at hwrec
      refine ⟨_, _, _, hf, hwrec.1, rfl, ?_⟩
      obtain ⟨hr, rfl⟩ | ⟨hr, hget⟩ := hrsp
      · simp [Call.error, hr]
      · simp [Call.error, hr, hrec.lastErr_eq hst hq hw hp hg hr hget]

theorem isolated_of_quiet {now : Int} (hq : Quiet call chunks)
    (h : Exec (Step call) (accepted now) es s) (hp : reads es <+: chunks) : Isolated call es := by
  induction h
  case refl => nofun
  case snoc h hs hi =>
    have hp' := (reads_mono _ _).trans hp
    exact (hi hp').step (recorded_of_exec h) (streamed_of_exec h) (hq.mono hp') hs

-- The runs that show what happens otherwise. They read and hand over the frames one by one.
section Runs

variable {grid : UInt32} {hd : Handler} {errs rest : List String} {body : Bytes} {bodies bodies' : List Bytes}
  {tcp : TcpClient} {count : Nat} {workers : List Worker}

-- What a handler leaves of the sessions.
def overwrite (session : Nat) (sessions : List String) (errs : List String) : List String :=
  errs.foldl (·.set session ·) sessions

theorem length_overwrite (session : Nat) (sessions errs : List String) :
    (overwrite session sessions errs).length = sessions.length := by
  induction errs generalizing sessions
  case nil          => rfl
  case cons err _ hi => exact (hi _).trans List.length_set

theorem overwrite_concat {session : Nat} {err : String} (hl : session < sessions.length) :
    (overwrite session sessions (errs ++ [err]))[session]? = some err := by
  have hl : session < (overwrite session sessions errs).length := by rwa [length_overwrite]
  rw [overwrite, List.foldl_append]
  exact List.getElem?_set_self hl

theorem exec_errs (errs : List String) (hi : s.workers[i]? = some ⟨task, .handling grid hd (errs ++ rest)⟩) :
    Exec (Step call) s (errs.map (.setResponseErr task.idx task.session))
      { s with
        sessions := overwrite task.session s.sessions errs
        workers  := s.workers.set i ⟨task, .handling grid hd rest⟩ } := by
  have ⟨hlen, hw⟩ := List.getElem?_eq_some_iff.mp hi
  induction errs generalizing s
  case nil =>
    rw [List.nil_append] at hw
    rw [←hw, List.set_getElem_self]
    exact .refl
  case cons err errs ih =>
    let s' : Conn := { s with
      sessions := s.sessions.set task.session err
      workers  := s.workers.set i ⟨task, .handling grid hd (errs ++ rest)⟩ }
    have hstep : Step call s (.setResponseErr task.idx task.session err) s' :=
      .work hi (.setResponseErr rfl)
    have hlen' : i < s'.workers.length := by simpa [s'] using hlen
    have hexec := ih (s := s') (List.getElem?_set_self hlen) hlen' (List.getElem_set_self ..)
    simp only [s', List.set_set] at hexec
    exact .cons hstep hexec

-- There is a run without reads.
def Reaches (call : Nat → Bytes → Option Call) (s s' : Conn) : Prop :=
  ∃ es, reads es = [] ∧ Exec (Step call) s es s'

theorem reads_append {es' : List Event} : reads (es ++ es') = reads es ++ reads es' :=
  List.filterMap_append

namespace Reaches

theorem refl : Reaches call s s :=
  ⟨[], rfl, .refl⟩

theorem single (h : Step call s e s') (he : e.input = none) : Reaches call s s' :=
  ⟨[e], by simp [reads, he], .single h⟩

theorem trans {s'' : Conn} (h : Reaches call s s') (h' : Reaches call s' s'') : Reaches call s s'' := by
  have ⟨es, hr, he⟩ := h
  have ⟨es', hr', he'⟩ := h'
  exact ⟨es ++ es', by rw [reads_append, hr, hr', List.append_nil], he.trans he'⟩

-- A handler gets to the point where it has passed `errs` and not yet `rest`.
theorem handle (s : Conn) (hi : s.workers[i]? = some ⟨task, .start⟩)
    (hc : call task.idx task.body = some ⟨grid, .handler hd⟩) (he : hd.errs = errs ++ rest) :
    Reaches call s
      { s with
        sessions := overwrite task.session s.sessions errs
        workers  := s.workers.set i ⟨task, .handling grid hd rest⟩ } := by
  have hlen := (List.getElem?_eq_some_iff.mp hi).1
  have h₁ : Step call s .internal
      { s with workers := s.workers.set i ⟨task, .handling grid hd (errs ++ rest)⟩ } :=
    .work hi (he ▸ .process rfl hc)
  have h₂ : Exec (Step call)
      { s with workers := s.workers.set i ⟨task, .handling grid hd (errs ++ rest)⟩ } _ _ :=
    exec_errs errs (List.getElem?_set_self hlen)
  simp only [List.set_set] at h₂
  exact (single h₁ rfl).trans ⟨_, by simp [reads, Event.input], h₂⟩

-- A worker can always run its task to the end.
theorem finish (call : Nat → Bytes → Option Call) (s : Conn) (hi : s.workers[i]? = some ⟨task, .start⟩)
    (hl : task.session < s.sessions.length) :
    ∃ sessions, sessions.length = s.sessions.length ∧
      Reaches call s { s with sessions := sessions, workers := s.workers.eraseIdx i } := by
  have hlen := (List.getElem?_eq_some_iff.mp hi).1
  cases hc : call task.idx task.body
  case none => exact ⟨s.sessions, rfl, .single (.done hi (.undecoded rfl hc)) rfl⟩
  case some c =>
    obtain ⟨grid, r | hd⟩ := c
    case refused =>
      have hs : WorkerStep call s.sessions ⟨task, .start⟩ (reply task.idx grid r.text) s.sessions none :=
        .refuse rfl hc
      exact ⟨s.sessions, rfl, .single (.done hi hs) hs.input_eq⟩
    case handler =>
      let sessions := overwrite task.session s.sessions hd.errs
      have hlength : sessions.length = s.sessions.length := length_overwrite ..
      have ⟨e, hs⟩ : ∃ e, WorkerStep call sessions ⟨task, .handling grid hd []⟩ e sessions none := by
        cases hr : hd.rsp
        case false => exact ⟨_, .needResponse rfl hr⟩
        case true  => exact ⟨_, .getResponseErr rfl hr (List.getElem?_eq_getElem (hlength ▸ hl))⟩
      have h₁ : Reaches call s _ := handle s hi hc (List.append_nil _).symm
      have h₂ := h₁.trans <| .single (.done (List.getElem?_set_self hlen) hs) hs.input_eq
      simp only [List.eraseIdx_set_eq] at h₂
      exact ⟨sessions, hlength, h₂⟩

-- The next frame is handed over and taken by a worker.
theorem take (hw : workers.length < coroutinesSize) :
    Reaches call ⟨tcp, body :: bodies, sessions, count, [], workers⟩
      ⟨tcp, bodies, sessions, count + 1, [],
        workers ++ [⟨⟨count, sessions.length - 1, body⟩, .start⟩]⟩ := by
  have h₁ : Reaches call ⟨tcp, body :: bodies, sessions, count, [], workers⟩ _ :=
    .single (.produce rfl (Nat.succ_pos _)) rfl
  exact h₁.trans <| .single (.take rfl hw) rfl

theorem feed (bodies : List Bytes) (sessions : List String) (count : Nat)
    (hw : workers.length < coroutinesSize) (hs : 0 < sessions.length) :
    ∃ sessions', sessions'.length = sessions.length ∧
      Reaches call ⟨tcp, bodies ++ bodies', sessions, count, [], workers⟩
        ⟨tcp, bodies', sessions', count + bodies.length, [], workers⟩ := by
  induction bodies generalizing sessions count
  case nil => exact ⟨sessions, rfl, .refl⟩
  case cons body bodies hi =>
    have h₁ : Reaches call ⟨tcp, body :: (bodies ++ bodies'), sessions, count, [], workers⟩ _ := .take hw
    have ⟨sessions₁, hl₁, h₂⟩ := finish call ⟨tcp, bodies ++ bodies', sessions, count + 1, [],
        workers ++ [⟨⟨count, sessions.length - 1, body⟩, .start⟩]⟩
      List.getElem?_concat_length (Nat.sub_lt hs Nat.one_pos)
    rw [List.eraseIdx_append_of_length_le (Nat.le_refl _), Nat.sub_self] at h₂
    simp only [List.eraseIdx_cons_zero, List.append_nil] at h₂
    have ⟨sessions₂, hl₂, h₃⟩ := hi sessions₁ (count + 1) (hl₁ ▸ hs)
    refine ⟨sessions₂, hl₂.trans hl₁, (h₁.trans h₂).trans ?_⟩
    rwa [List.length_cons, Nat.add_comm bodies.length, ←Nat.add_assoc]

-- Two frames of one read are handed over and taken, the others are done with.
theorem take_two (call : Nat → Bytes → Option Call) (tcp : TcpClient) (count : Nat) (x y : Bytes)
    (l₁ l₂ l₃ : List Bytes) (hs : 0 < sessions.length) :
    ∃ sessions', sessions'.length = sessions.length ∧
      Reaches call ⟨tcp, l₁ ++ x :: (l₂ ++ y :: l₃), sessions, count, [], []⟩
        ⟨tcp, l₃, sessions', count + l₁.length + 1 + l₂.length + 1, [],
          [⟨⟨count + l₁.length, sessions.length - 1, x⟩, .start⟩,
            ⟨⟨count + l₁.length + 1 + l₂.length, sessions.length - 1, y⟩, .start⟩]⟩ := by
  have ⟨sessions₁, hl₁, h₁⟩ : ∃ sessions₁, sessions₁.length = sessions.length ∧
      Reaches call ⟨tcp, l₁ ++ x :: (l₂ ++ y :: l₃), sessions, count, [], []⟩
        ⟨tcp, x :: (l₂ ++ y :: l₃), sessions₁, count + l₁.length, [], []⟩ :=
    feed l₁ sessions count (by decide) hs
  have h₂ := h₁.trans <| take (by decide)
  rw [hl₁, List.nil_append] at h₂
  have ⟨sessions₂, hl₂, h₃⟩ : ∃ sessions₂, sessions₂.length = sessions₁.length ∧ Reaches call _
      ⟨tcp, y :: l₃, sessions₂, count + l₁.length + 1 + l₂.length, [],
        [⟨⟨count + l₁.length, sessions.length - 1, x⟩, .start⟩]⟩ :=
    feed l₂ sessions₁ (count + l₁.length + 1) (by simp [coroutinesSize]) (hl₁ ▸ hs)
  have h₄ := (h₂.trans h₃).trans <| take (by simp [coroutinesSize])
  rw [hl₂, hl₁] at h₄
  exact ⟨sessions₂, hl₂.trans hl₁, h₄⟩

-- The worker of one call gets to its end, up to the error, and the worker of another one to some string.
theorem interfere {j : Nat} {task' : Task} {grid' : UInt32} {hd' : Handler} {err : String} (hij : i ≠ j)
    (hi : s.workers[i]? = some ⟨task, .start⟩) (hj : s.workers[j]? = some ⟨task', .start⟩)
    (hs : task'.session = task.session) (hl : task.session < s.sessions.length)
    (hc : call task.idx task.body = some ⟨grid, .handler hd⟩) (hg : grid ≠ 0) (hr : hd.rsp = true)
    (hc' : call task'.idx task'.body = some ⟨grid', .handler hd'⟩) (he : err ∈ hd'.errs) :
    ∃ es s', reads es = [] ∧ .rsp task.idx grid err ∈ es ∧ Exec (Step call) s es s' := by
  have hli := (List.getElem?_eq_some_iff.mp hi).1
  have hlj := (List.getElem?_eq_some_iff.mp hj).1
  obtain ⟨errs, rest, he⟩ := List.append_of_mem he
  have he : hd'.errs = (errs ++ [err]) ++ rest := by simpa using he
  have ⟨es₁, hr₁, h₁⟩ : Reaches call s _ := handle s hi hc (List.append_nil _).symm
  have ⟨es₂, hr₂, h₂⟩ : Reaches call _ _ := handle { s with
      sessions := overwrite task.session s.sessions hd.errs
      workers  := s.workers.set i ⟨task, .handling grid hd []⟩ }
    ((List.getElem?_set_ne hij).trans hj) hc' he
  have hget : (overwrite task'.session (overwrite task.session s.sessions hd.errs)
      (errs ++ [err]))[task.session]? = some err := by
    rw [hs]
    exact overwrite_concat (by rwa [length_overwrite])
  have hi' : ((s.workers.set i ⟨task, .handling grid hd []⟩).set j ⟨task', .handling grid' hd' rest⟩)[i]? =
      some ⟨task, .handling grid hd []⟩ :=
    (List.getElem?_set_ne hij.symm).trans (List.getElem?_set_self hli)
  have h₃ := (h₁.trans h₂).snoc <| .done hi' (.getResponseErr rfl hr hget)
  refine ⟨_, _, ?_, ?_, h₃⟩
  · rw [reads_snoc, reads_append, hr₁, hr₂]
    simp [reply, hg, Event.input]
  · simp [reply, hg]

end Reaches

-- The reads that a connection can make of a stream: none of them is empty, and none is longer than what is
-- free in the buffer behind the tail that is left from before.
def Cut (tail : Bytes) : List Bytes → Prop
  | []              => True
  | chunk :: chunks =>
    chunk ≠ [] ∧ tail.length + chunk.length ≤ recvBufMaxLen.toNat ∧
      Cut (Packet.parse (tail ++ chunk)).2 chunks

theorem exec_read (call : Nat → Bytes → Option Call) (sessions : List String) (count : Nat)
    (workers : List Worker) {tail : Bytes} (hr : tcp.received = some tail) (ht : Packet.split tail = none)
    (hc : chunk ≠ []) (hl : tail.length + chunk.length ≤ recvBufMaxLen.toNat) :
    ∃ tcp', tcp'.received = some (Packet.parse (tail ++ chunk)).2 ∧
      Step call ⟨tcp, [], sessions, count, [], workers⟩ (.read chunk)
        ⟨tcp', (Packet.parse (tail ++ chunk)).1, sessions ++ [""], count, [], workers⟩ := by
  let o : Observed := ⟨.data chunk, 0, true, .ok⟩
  have ho : o.state ≠ .exit := by simp [o]
  have hread : ReadLoop.Readable tcp.toRecvBuf o := by
    intro chunk' h
    obtain h | h := h <;> cases h
    have hlen := RecvBuf.received_length hr
    have hsize := tcp.size_eq
    refine ⟨List.length_pos_iff.mpr hc, ?_⟩
    rw [RecvBuf.free]
    omega
  obtain ⟨tcp', hn, hr'⟩ := ReadLoop.turn_collect ho hread hr ht hc
  exact ⟨tcp', hr', Step.read (o := o) rfl rfl hread hc hn⟩

-- All frames of some reads are handed over and done with.
theorem exec_reads (call : Nat → Bytes → Option Call) (sessions : List String) (count : Nat)
    {tail : Bytes} (r : Nat) (hcut : Cut tail chunks) (hr : tcp.received = some tail)
    (ht : Packet.split tail = none) :
    ∃ es tcp' sessions', reads es = chunks ∧ sessions'.length = sessions.length + chunks.length ∧
      tcp'.received = some (Packet.parse (tail ++ chunks.flatten)).2 ∧
      Exec (Step call) ⟨tcp, [], sessions, count, [], []⟩ es
        ⟨tcp', [], sessions', count + (deliveries tail r chunks).length, [], []⟩ := by
  induction chunks generalizing tail tcp sessions count r
  case nil =>
    exact ⟨[], tcp, sessions, rfl, rfl, by simpa [Packet.parse_of_none ht] using hr, .refl⟩
  case cons chunk chunks hi =>
    have ⟨hc, hl, hcut⟩ := hcut
    have ⟨tcp₁, hr₁, h₁⟩ := exec_read call sessions count [] hr ht hc hl
    have ⟨sessions₂, hl₂, es₂, he₂, h₂⟩ : ∃ sessions₂, sessions₂.length = (sessions ++ [""]).length ∧
        Reaches call ⟨tcp₁, (Packet.parse (tail ++ chunk)).1 ++ [], sessions ++ [""], count, [], []⟩
          ⟨tcp₁, [], sessions₂, count + (Packet.parse (tail ++ chunk)).1.length, [], []⟩ :=
      Reaches.feed (Packet.parse (tail ++ chunk)).1 (sessions ++ [""]) count (by decide) (by simp)
    rw [List.append_nil] at h₂
    have ⟨es₃, tcp₃, sessions₃, he₃, hl₃, hr₃, h₃⟩ := hi sessions₂
      (count + (Packet.parse (tail ++ chunk)).1.length) (r + 1) hcut hr₁
      (Packet.split_parse_tail _)
    have hlen : (deliveries tail r (chunk :: chunks)).length = (Packet.parse (tail ++ chunk)).1.length +
        (deliveries (Packet.parse (tail ++ chunk)).2 (r + 1) chunks).length := by
      simp [deliveries]
    refine ⟨.read chunk :: (es₂ ++ es₃), tcp₃, sessions₃, ?_, ?_, ?_, ?_⟩
    · rw [←List.singleton_append, reads_append, reads_append, he₂, he₃]
      rfl
    · rw [hl₃, hl₂]
      simp
      omega
    · rw [hr₃, parse_tail_append]
      rfl
    · rw [hlen, ←Nat.add_assoc]
      exact .cons h₁ (h₂.trans h₃)

theorem Cut.of_append {tail : Bytes} {chunks₁ chunks₂ : List Bytes} (ht : Packet.split tail = none)
    (h : Cut tail (chunks₁ ++ chunk :: chunks₂)) :
    Cut tail chunks₁ ∧ chunk ≠ [] ∧
    (Packet.parse (tail ++ chunks₁.flatten)).2.length + chunk.length ≤ recvBufMaxLen.toNat := by
  induction chunks₁ generalizing tail
  case nil => exact ⟨trivial, h.1, by simpa [Packet.parse_of_none ht] using h.2.1⟩
  case cons c cs hi =>
    have ⟨hcut, hc, hl⟩ := hi (Packet.split_parse_tail _) h.2.2
    rw [parse_tail_append] at hl
    exact ⟨⟨h.1, h.2.1, hcut⟩, hc, hl⟩

-- The read that completes a frame, and where the frame stands among those of the read.
theorem read_of_delivery {tail : Bytes} {r₀ idx : Nat} (ht : Packet.split tail = none)
    (h : (deliveries tail r₀ chunks)[idx]? = some (r, body)) :
    ∃ chunks₁ chunk chunks₂ k, chunks = chunks₁ ++ chunk :: chunks₂ ∧ r = r₀ + chunks₁.length ∧
      idx = (deliveries tail r₀ chunks₁).length + k ∧
      (Packet.parse ((Packet.parse (tail ++ chunks₁.flatten)).2 ++ chunk)).1[k]? = some body := by
  induction chunks generalizing tail r₀ idx
  case nil => cases h
  case cons c cs hi =>
    rw [deliveries] at h
    by_cases hl : idx < (Packet.parse (tail ++ c)).1.length
    case pos =>
      rw [List.getElem?_append_left (by simpa using hl), List.getElem?_map] at h
      obtain ⟨_, hb, h⟩ := Option.map_eq_some_iff.mp h
      cases h
      exact ⟨[], c, cs, idx, rfl, rfl, by simp [deliveries], by simpa [Packet.parse_of_none ht] using hb⟩
    case neg =>
      rw [List.getElem?_append_right (by simpa using hl), List.length_map] at h
      obtain ⟨cs₁, c', cs₂, k, rfl, rfl, hk, hb⟩ := hi (Packet.split_parse_tail _) h
      refine ⟨c :: cs₁, c', cs₂, k, rfl, ?_, ?_, ?_⟩
      · simp only [List.length_cons]
        omega
      · simp only [deliveries, List.length_append, List.length_map]
        omega
      · rwa [parse_tail_append] at hb

-- Two frames of a read, in either order, are in the hands of two workers.
theorem exec_two {l : List Bytes} {k k' : Nat} {x y : Bytes} (call : Nat → Bytes → Option Call)
    (tcp : TcpClient) (sessions : List String) (count : Nat) (hs : 0 < sessions.length) (hk : l[k]? = some x)
    (hk' : l[k']? = some y) (hn : k ≠ k') :
    ∃ (s : Conn) (i j : Nat), Reaches call ⟨tcp, l, sessions, count, [], []⟩ s ∧ i ≠ j ∧
      s.sessions.length = sessions.length ∧
      s.workers[i]? = some ⟨⟨count + k, sessions.length - 1, x⟩, .start⟩ ∧
      s.workers[j]? = some ⟨⟨count + k', sessions.length - 1, y⟩, .start⟩ := by
  have two {k k' : Nat} {x y : Bytes} (hk : l[k]? = some x) (hk' : l[k']? = some y) (hl : k < k') :
      ∃ s : Conn, Reaches call ⟨tcp, l, sessions, count, [], []⟩ s ∧
        s.sessions.length = sessions.length ∧
        s.workers = [⟨⟨count + k, sessions.length - 1, x⟩, .start⟩,
          ⟨⟨count + k', sessions.length - 1, y⟩, .start⟩] := by
    obtain ⟨l₁, l', rfl, rfl⟩ := List.exists_of_getElem?_eq_some hk
    obtain ⟨n, rfl⟩ := Nat.exists_eq_add_of_lt hl
    rw [List.getElem?_append_right (by omega), Nat.add_assoc, Nat.add_sub_cancel_left,
      List.getElem?_cons_succ] at hk'
    obtain ⟨l₂, l₃, rfl, rfl⟩ := List.exists_of_getElem?_eq_some hk'
    have ⟨sessions', hl', h⟩ := Reaches.take_two call tcp count x y l₁ l₂ l₃ hs
    exact ⟨_, h, hl', by simp [Nat.add_assoc, Nat.add_comm, Nat.add_left_comm]⟩
  obtain hl | hl := Nat.lt_or_gt_of_ne hn
  · have ⟨s, h, hlen, hw⟩ := two hk hk' hl
    exact ⟨s, 0, 1, h, by decide, hlen, by simp [hw], by simp [hw]⟩
  · have ⟨s, h, hlen, hw⟩ := two hk' hk hl
    exact ⟨s, 1, 0, h, by decide, hlen, by simp [hw], by simp [hw]⟩

theorem quiet_of_isolated {now : Int} (hcut : Cut [] chunks)
    (h : ∀ es s, Exec (Step call) (accepted now) es s → reads es <+: chunks → Isolated call es) :
    Quiet call chunks := by
  intro idx idx' session body body' grid grid' hd hd' hf hf' hn hc hg hr hc' err he
  by_contra hne
  -- The two frames stand at the positions `k` and `k'` of one read.
  obtain ⟨chunks₁, chunk, chunks₂, k, rfl, hsession, rfl, hk⟩ := read_of_delivery rfl hf
  obtain ⟨chunks₁', chunk', chunks₂', k', heq, hsession', rfl, hk'⟩ := read_of_delivery rfl hf'
  obtain ⟨rfl, heq'⟩ := List.append_inj heq (by omega)
  obtain ⟨rfl, rfl⟩ := List.cons_eq_cons.mp heq'
  have ⟨hcut, hchunk, hl⟩ := hcut.of_append rfl
  have ⟨es₁, tcp₁, sessions₁, hr₁, hl₁, ht₁, h₁⟩ : ∃ es tcp sessions, _ ∧ _ ∧ _ ∧
      Exec (Step call) (accepted now) es ⟨tcp, [], sessions, _, [], []⟩ :=
    exec_reads call [] 0 0 hcut RecvBuf.make_received rfl
  rw [Nat.zero_add] at h₁
  have ⟨tcp₂, _, h₂⟩ := exec_read call sessions₁ (deliveries [] 0 chunks₁).length [] ht₁
    (Packet.split_parse_tail _) hchunk hl
  have ⟨s₃, i, j, ⟨es₃, hr₃, h₃⟩, hij, hl₃, hi, hj⟩ := exec_two call tcp₂ (sessions₁ ++ [""])
    (deliveries [] 0 chunks₁).length (by simp) hk hk' (by omega)
  have ⟨es₄, s₄, hr₄, hm, h₄⟩ := Reaches.interfere hij hi hj rfl (by simp [hl₃]) hc hg hr hc' he
  have hreads : reads (es₁ ++ [.read chunk] ++ es₃ ++ es₄) = chunks₁ ++ [chunk] := by
    rw [reads_append, reads_append, reads_snoc, hr₁, hr₃, hr₄]
    simp [Event.input]
  have hp : reads (es₁ ++ [.read chunk] ++ es₃ ++ es₄) <+: chunks₁ ++ chunk :: chunks₂ := by
    rw [hreads]
    exact ⟨chunks₂, by simp⟩
  have ⟨_, _, c, hf'', hc'', _, herr⟩ := h _ _ (((h₁.snoc h₂).trans h₃).trans h₄) hp _ _ _
    (List.mem_append_right _ hm)
  cases (frame_mono hp hf'').symm.trans hf
  cases hc''.symm.trans hc
  exact hne (herr.trans (if_pos hr))

end Runs

-- The error of every response is up to its own call, in every run that reads the stream in these pieces, if
-- and only if the calls of a read do not disagree.
theorem errors_isolated_iff (call : Nat → Bytes → Option Call) (now : Int) (chunks : List Bytes)
    (hcut : Cut [] chunks) :
    (∀ es s, Exec (Step call) (accepted now) es s → reads es <+: chunks → Isolated call es) ↔
      Quiet call chunks :=
  ⟨quiet_of_isolated hcut, fun hq _ _ h hp => isolated_of_quiet hq h hp⟩

-- Two calls. The handler of the first one reports an error, that of the second one none.
def demoCall (_ : Nat) (body : Bytes) : Option Call :=
  if body = [1] then some ⟨6, .handler ⟨"f", ["e"], true⟩⟩ else some ⟨7, .handler ⟨"f", [], true⟩⟩

-- Each of the calls is read alone.
theorem errors_isolated_of_two_reads :
    Cut [] [[0, 1, 1], [0, 1, 2]] ∧ ∀ es s, Exec (Step demoCall) (accepted 0) es s →
      reads es <+: [[0, 1, 1], [0, 1, 2]] → Isolated demoCall es := by
  have hcut : Cut [] [[0, 1, 1], [0, 1, 2]] := by
    simp [Cut, Packet.parse_byte, Packet.parse_nil, recvBufMaxLen]
  refine ⟨hcut, (errors_isolated_iff demoCall 0 _ hcut).mpr ?_⟩
  have hdel : deliveries [] 0 [[0, 1, 1], [0, 1, 2]] = [(0, [1]), (1, [2])] := by
    simp [deliveries, Packet.parse_byte, Packet.parse_nil]
  intro idx idx' session body body' grid grid' h h' hf hf' hn
  rw [frame, hdel] at hf hf'
  -- The two frames have different sessions.
  match idx, idx' with
  | 0, 0 | 1, 1      => exact absurd rfl hn
  | 0, 1             => cases hf; cases hf'
  | 1, 0             => cases hf; cases hf'
  | _ + 2, _         => cases hf
  | _, _ + 2         => cases hf'

-- They are read together, and the second one is answered with the error of the first one.
theorem error_of_other_call :
    ∃ es s, Exec (Step demoCall) (accepted 0) es s ∧ reads es = [[0, 1, 1, 0, 1, 2]] ∧
      .rsp 1 7 "e" ∈ es ∧ ¬Isolated demoCall es := by
  have hparse : Packet.parse [0, 1, 1, 0, 1, 2] = ([[1], [2]], []) := by
    rw [Packet.parse_byte, Packet.parse_byte, Packet.parse_nil]
  have hne : ([0, 1, 1, 0, 1, 2] : Bytes) ≠ [] := nofun
  have ⟨tcp, _, h₁⟩ : ∃ tcp, _ ∧ Step demoCall (accepted 0) _ _ :=
    exec_read demoCall [] 0 [] RecvBuf.make_received rfl hne (by simp [recvBufMaxLen])
  rw [List.nil_append, hparse] at h₁
  have hk : ([[1], [2]] : List Bytes)[1]? = some [2] := rfl
  have hk' : ([[1], [2]] : List Bytes)[0]? = some [1] := rfl
  have ⟨s, i, j, ⟨es₂, hr₂, h₂⟩, hij, hl, hi, hj⟩ := exec_two demoCall tcp [""] 0 (by simp) hk hk' (by decide)
  have hc : demoCall (0 + 1) [2] = some ⟨7, .handler ⟨"f", [], true⟩⟩ := rfl
  have hc' : demoCall (0 + 0) [1] = some ⟨6, .handler ⟨"f", ["e"], true⟩⟩ := rfl
  have ⟨es₃, s₃, hr₃, hm, h₃⟩ := Reaches.interfere hij hi hj rfl (by simp [hl]) hc (by decide) rfl hc'
    (List.mem_singleton_self "e")
  have h := (Exec.cons h₁ h₂).trans h₃
  have hrsp : .rsp 1 7 "e" ∈ .read [0, 1, 1, 0, 1, 2] :: es₂ ++ es₃ := List.mem_append_right _ hm
  have hreads : reads (.read [0, 1, 1, 0, 1, 2] :: es₂ ++ es₃) = [[0, 1, 1, 0, 1, 2]] := by
    rw [List.cons_append, ←List.singleton_append, reads_append, reads_append, hr₂, hr₃]
    rfl
  refine ⟨_, _, h, hreads, hrsp, fun hiso => ?_⟩
  have ⟨session, body, c, hf, hc, _, herr⟩ := hiso _ _ _ hrsp
  rw [hreads, frame, deliveries, List.nil_append, hparse] at hf
  cases hf
  cases hc
  exact absurd herr (by decide)

end Session
