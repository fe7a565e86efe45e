import Microservice.Gate.RpcHandler
import Microservice.Framework.Theorems.CallbackMgr
import Microservice.Lib.Positions

namespace Gate

section

variable {ρ : Type*}

abbrev At (g : Gate ρ) (i : Nat) (t : Task ρ) : Prop :=
  g.tasks[i]? = some t

-- The task whose handler takes a step.
def Event.actor : Event ρ → Option Nat
  | .take i | .check i | .reject i _ | .choose i | .noReply i | .genGid i _ | .register i .. | .added i _
  | .get i .. | .deleted i _ | .lookup i | .report i .. | .send i .. | .done i | .panic i => some i
  | .accept _ | .close _ | .rmgr _ | .frame .. | .mgr _ => none

-- What a step of its handler leaves of a task. The id is set by the one step that draws it.
structure Moves (e : Event ρ) (i : Nat) (t t' : Task ρ) : Prop where
  actor : e.actor = some i
  src   : t'.src = t.src
  rpc   : t'.rpc = t.rpc
  taken : t'.taken = true
  ended : t.pc.Ended → t'.pc = t.pc
  grid  : t'.grid = t.grid ∨ e = .genGid i t'.grid

-- What any step does to the tasks.
inductive TaskStep (e : Event ρ) (ts : List (Task ρ)) : List (Task ρ) → Prop
  | idle : e.actor = none → (∀ src rpc, e ≠ .frame src rpc) → TaskStep e ts ts
  | frame : e = .frame src rpc → TaskStep e ts (ts ++ [.new src rpc])
  | move : ts[i]? = some t → Moves e i t t' → TaskStep e ts (ts.set i t')

end

variable {ρ : Type*} {cfg : Config ρ} {g g' : Gate ρ} {e : Event ρ} {es : List (Event ρ)}
variable {i j : Nat} {t t' s : Task ρ}

theorem At.unique (h : g.At i t) (h' : g.At i s) : t = s :=
  Option.some.inj (h.symm.trans h')

-- The task that took a step, after the step.
theorem At.moved (hj : g'.At i s) (hi : g.At i t) (hg : g'.tasks = g.tasks.set i t') : s = t' := by
  rw [At, hg, List.getElem?_set_of_eq_some hi] at hj
  exact (Option.some.inj hj).symm

theorem at_set (hi : g.At i t) (hg : g'.tasks = g.tasks.set i t') :
    g'.At j s ↔ (j = i ∧ s = t') ∨ (j ≠ i ∧ g.At j s) := by
  rw [At, hg]
  constructor
  case mp => exact List.getElem?_set_cases
  case mpr =>
    rintro (⟨rfl, rfl⟩ | ⟨hne, hj⟩)
    · exact List.getElem?_set_of_eq_some hi
    · exact (List.getElem?_set_ne hne.symm).trans hj

-- Where a task comes from that is there after a step.
theorem TaskStep.back {ts ts' : List (Task ρ)} (h : TaskStep e ts ts') (hj : ts'[j]? = some s) :
    (ts[j]? = some s ∧ e.actor ≠ some j) ∨
    (∃ src rpc, e = .frame src rpc ∧ j = ts.length ∧ s = .new src rpc) ∨
    ∃ t, ts[j]? = some t ∧ Moves e j t s := by
  cases h
  case idle ha _ => exact .inl ⟨hj, by simp [ha]⟩
  case frame src rpc he =>
    cases List.getElem?_concat_cases hj
    case inl hj => exact .inl ⟨hj, by simp [he, Event.actor]⟩
    case inr hj => exact .inr <| .inl ⟨src, rpc, he, hj⟩
  case move i t t' hi hm =>
    obtain ⟨rfl, rfl⟩ | ⟨hne, hj⟩ := List.getElem?_set_cases hj
    · exact .inr <| .inr ⟨t, hi, hm⟩
    · exact .inl ⟨hj, by simpa [hm.actor] using hne.symm⟩

-- What becomes of a task in a step.
theorem TaskStep.forth {ts ts' : List (Task ρ)} (h : TaskStep e ts ts') (hi : ts[i]? = some t) :
    ∃ t', ts'[i]? = some t' ∧ (t' = t ∨ Moves e i t t') := by
  cases h
  case idle  => exact ⟨t, hi, .inl rfl⟩
  case frame => exact ⟨t, List.getElem?_append_of_eq_some hi, .inl rfl⟩
  case move k s s' hk hm =>
    by_cases hki : k = i
    case pos =>
      subst hki
      cases hk.symm.trans hi
      exact ⟨s', List.getElem?_set_of_eq_some hi, .inr hm⟩
    case neg => exact ⟨t, (List.getElem?_set_ne hki).trans hi, .inl rfl⟩

theorem rejected_cases (req : RouteReq) (err : String) :
    (rejected req err = .finished ∧ req.rid = 0) ∨ (rejected req err = .refused err ∧ req.rid ≠ 0) := by
  by_cases hr : req.rid = 0 <;> simp [rejected, hr]

theorem Task.outgoing_cases {conn : Conn} {msg : Msg ρ} (h : t.outgoing = some (conn, msg)) :
    (∃ req err, t.rpc = .route req ∧ t.pc = .refused err ∧ conn = t.src.conn ∧
      msg = .g2cRpcRsp req.rid err none) ∨
    (∃ req remote, t.rpc = .route req ∧ t.pc = .sending remote ∧ conn = remote.conn ∧
      msg = .g2sRpcCall req.isOrdered t.grid req.innerRpc) ∨
    (∃ grid error reply rid, t.rpc = .rsp grid error reply ∧ t.pc = .responding rid conn ∧
      msg = .g2cRpcRsp rid error reply) ∨
    ∃ connID pid nameSpace innerRpc, t.rpc = .push connID pid nameSpace innerRpc ∧
      t.pc = .pushing conn ∧ msg = .g2cPush pid nameSpace innerRpc := by
  cases hr : t.rpc <;> cases hp : t.pc <;> simp_all [Task.outgoing]

theorem Task.running_of_outgoing {conn : Conn} {msg : Msg ρ} (h : t.outgoing = some (conn, msg)) :
    ¬t.pc.Ended := by
  obtain ⟨_, _, _, hp, _⟩ | ⟨_, _, _, hp, _⟩ | ⟨_, _, _, _, _, hp, _⟩ | ⟨_, _, _, _, _, hp, _⟩ :=
    Task.outgoing_cases h <;> simp [hp, Pc.Ended]

theorem Act.taskStep (h : Act cfg g e g') : TaskStep e g.tasks g'.tasks := by
  cases h
  case accept | close | rmgr | mgr => exact .idle rfl (by simp)
  case frame => exact .frame rfl
  case take _ hi _ => exact .move hi ⟨rfl, rfl, rfl, rfl, fun _ => rfl, .inl rfl⟩
  case genGid _ hp _ hi => exact .move hi.1 ⟨rfl, rfl, rfl, hi.2, by simp [hp, Pc.Ended], .inr rfl⟩
  case send ho _ hi | tooLong ho _ hi =>
    exact .move hi.1
      ⟨rfl, rfl, rfl, hi.2, fun he => absurd he (Task.running_of_outgoing ho), .inl rfl⟩
  all_goals
    rename g.Runs _ _ => hi
    rename Task.pc _ = _ => hp
    exact .move hi.1 ⟨rfl, rfl, rfl, hi.2, by simp [hp, Pc.Ended], .inl rfl⟩

theorem Act.of_send (ha : Act cfg g e g') (he : e = .send i conn msg) :
    ∃ t, g.Runs i t ∧ t.outgoing = some (conn, msg) ∧ cfg.size msg ≤ maxSize ∧
      g'.At i { t with pc := .finished } := by
  cases ha <;> cases he
  case send hi hs ho => exact ⟨_, hi, ho, hs, (at_set hi.1 rfl).mpr (.inl ⟨rfl, rfl⟩)⟩

theorem Act.pc_of_genGid (ha : Act cfg g e g') (he : e = .genGid i grid) :
    ∃ t remote, g.At i t ∧ t.pc = .choosing (.returned (some remote)) := by
  cases ha <;> cases he
  case genGid hp _ hi => exact ⟨_, _, hi.1, hp⟩

-- A handler that has ended does nothing anymore.
theorem Act.ended (ha : Act cfg g e g') (hi : g.At i t) (he : t.pc.Ended) :
    ∃ t', g'.At i t' ∧ t'.pc = t.pc ∧ t'.rpc = t.rpc ∧ t'.src = t.src ∧ t'.grid = t.grid := by
  have ⟨t', hi', hm⟩ := ha.taskStep.forth hi
  obtain rfl | hm := hm
  · exact ⟨t', hi', rfl, rfl, rfl, rfl⟩
  · refine ⟨t', hi', hm.ended he, hm.rpc, hm.src, hm.grid.resolve_right fun hd => ?_⟩
    have ⟨s, _, hs, hp⟩ := ha.pc_of_genGid hd
    obtain rfl := hs.unique hi
    simp [hp, Pc.Ended] at he

-- What the steps of the gate are for its callback manager.
def cbEvent : Event ρ → Option (CallbackMgr.Event RouteCbInfo Empty)
  | .register _ grid info endTime => some (.add grid info endTime none)
  | .added _ node                 => some (.mgr (.recvAdd node))
  | .get _ cbid info              => some (.get cbid info)
  | .deleted _ node               => some (.mgr (.recvDel node))
  | .mgr e                        => some (.mgr e)
  | _                             => none

theorem Act.cb_idle (h : Act cfg g e g') (he : cbEvent e = none) : g'.cb = g.cb := by
  cases h <;> first | rfl | simp [cbEvent] at he

theorem Act.cb_active (h : Act cfg g e g') (he : cbEvent e = some e') :
    CallbackMgr.Step g.cb e' g'.cb := by
  cases h <;> simp only [cbEvent, Option.some.injEq, reduceCtorEq] at he <;> subst he
  case register  => exact .add ..
  case getNil hg => exact .get_none hg
  case get hg    => exact .get_some hg
  all_goals exact .mgr ‹_›

theorem Act.cb_step (h : Act cfg g e g') :
    g'.cb = g.cb ∨ ∃ ev, cbEvent e = some ev ∧ CallbackMgr.Step g.cb ev g'.cb := by
  cases he : cbEvent e
  case none    => exact .inl (h.cb_idle he)
  case some ev => exact .inr ⟨ev, rfl, h.cb_active he⟩

theorem cb_exec (h : Exec (Step cfg) init es g) :
    Exec CallbackMgr.Step .init (es.filterMap cbEvent) g.cb :=
  h.project Gate.cb cbEvent (fun _ _ _ h => h.act.cb_idle) (fun _ _ _ _ h => h.act.cb_active)

end Gate
