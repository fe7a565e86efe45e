import Microservice.ClientSdk.Theorems.Calls
import Microservice.Gate.Theorems.Basic

namespace Gate

variable {ρ : Type*} {cfg : Config ρ} {g g' : Gate ρ} {e : Event ρ} {id : UInt32} {i : Nat} {s : Task ρ}
  {ev : CallbackMgr.Event RouteCbInfo Empty} {r : Remote}

def Event.drawnGid : Event ρ → Option UInt32
  | .genGid _ grid => some grid
  | _              => none

-- A route handler is about to register the id.
def Holds (g : Gate ρ) (id : UInt32) : Prop :=
  ∃ i t r, g.At i t ∧ t.pc = .drawn r ∧ t.grid = id

-- A handler comes to this point by `GenGid` only.
theorem Act.pc_drawn (ha : Act cfg g e g') (hi : g'.At i s) (hp : s.pc = .drawn r) :
    (∃ t, g.At i t ∧ t.pc = .drawn r ∧ t.grid = s.grid) ∨ e = .genGid i s.grid := by
  obtain ⟨hi', _⟩ | ⟨_, _, _, _, rfl⟩ | ⟨t, ht, hm⟩ := ha.taskStep.back hi
  · exact .inl ⟨s, hi', hp, rfl⟩
  · cases hp
  have hact := hm.actor
  cases ha <;> simp only [Event.actor, Option.some.injEq, reduceCtorEq] at hact <;> subst hact
  case take ht' _ =>
    obtain rfl := hi.moved ht' rfl
    exact .inl ⟨_, ht', hp, rfl⟩
  all_goals
    rename g.Runs _ _ => hrun
    obtain rfl := hi.moved hrun.1 rfl
  case genGid => exact .inr rfl
  case refuse | notExist =>
    unfold rejected at hp
    split at hp <;> cases hp
  all_goals cases hp

theorem Act.holds_cases (ha : Act cfg g e g') (hx : g'.Holds id) :
    g.Holds id ∨ e.drawnGid = some id := by
  obtain ⟨i, s, r, hi, hp, rfl⟩ := hx
  obtain ⟨t, ht, hp, hg⟩ | rfl := ha.pc_drawn hi hp
  · exact .inl ⟨i, t, r, ht, hp, hg⟩
  · exact .inr rfl

-- What is registered is an id that a route handler holds.
theorem Act.holds_of_adds (ha : Act cfg g e g') (he : cbEvent e = some ev) (hadd : ev.adds = some id) :
    g.Holds id := by
  cases ha <;> simp only [cbEvent, Option.some.injEq, reduceCtorEq] at he <;> subst he <;>
    simp only [CallbackMgr.Event.adds, Option.some.injEq, reduceCtorEq] at hadd
  case register hp _ hrun => exact ⟨_, _, _, hrun.1, hp, hadd⟩

theorem Act.draws (ha : Act cfg g e g') :
    (e.drawnGid = none ∧ g'.globalGID = g.globalGID) ∨
    (e.drawnGid = some (g.globalGID + 1) ∧ g'.globalGID = g.globalGID + 1) := by
  cases ha
  case genGid => exact .inr ⟨rfl, rfl⟩
  all_goals exact .inl ⟨rfl, rfl⟩

-- A gate, as a process that draws ids.
def gidProcess {ρ : Type} (cfg : Config ρ) : GidProcess where
  State        := Gate ρ
  Label        := Event ρ
  Cb           := RouteCbInfo
  TimeOutCb    := Empty
  init         := init
  Step         := Step cfg
  globalGID    := globalGID
  cb           := cb
  drawnGid _ e := e.drawnGid
  cbEvent      := cbEvent
  Holds        := Holds
  zero         := rfl
  empty        := by simp [Holds, init, CallbackMgr.init]
  draws        := fun _ _ _ h => h.act.draws
  holds        := fun _ _ _ _ h => h.act.holds_cases
  idle         := fun _ _ _ h => h.act.cb_idle
  active       := fun _ _ _ _ h => h.act.cb_active
  adds         := fun _ _ _ _ _ h => h.act.holds_of_adds

end Gate

-- The processes that draw ids from `GenGid`.
inductive GidUser (ρ : Type)
  | gate (cfg : Gate.Config ρ)
  | client
  | service

def GidUser.idProcess {ρ : Type} : GidUser ρ → IdProcess
  | .gate cfg => (Gate.gidProcess cfg).idProcess
  | .client   => SdkCalls.gidProcess.idProcess
  | .service  => RpcCalls.gidProcess.idProcess

namespace GidUser

open IdProcess

variable {ρ : Type}

-- Fewer than 2^32 - 1 ids are drawn, counting the next one, from the draw of the id of any callback that is
-- registered. Then the next id is a good one, unless the number of its draw is a multiple of 2^32.
theorem gid_fresh_iff (p : GidUser ρ) {os : List (Option UInt32)} {s s' : p.idProcess.State} {gid : UInt32}
    (h : Exec p.idProcess.Step p.idProcess.init os s) (hs : p.idProcess.Step s (some gid) s')
    (hlife : ∀ cbid, p.idProcess.Live s cbid → since cbid (drawn os) + 1 < 2 ^ 32 - 1) :
    (gid ≠ 0 ∧ ∀ cbid, p.idProcess.Live s cbid → cbid ≠ gid) ↔
      ((drawn os).length + 1) % 2 ^ 32 ≠ 0 :=
  fresh_iff h hs fun cbid hl => by have := hlife cbid hl; omega

-- A client makes a call while it waits for the response to another one.
theorem gid_fresh_second_call :
    ∃ (os : List (Option UInt32)) (s s' : SdkCalls),
      Exec (client : GidUser Unit).idProcess.Step SdkCalls.init os s ∧
      (client : GidUser Unit).idProcess.Step s (some 2) s' ∧ s.cb.gCbMap 1 ≠ none ∧
      ∀ cbid, s.cb.gCbMap cbid ≠ none → cbid ≠ 2 := by
  let N := (client : GidUser Unit).idProcess
  let s : SdkCalls :=
    { SdkCalls.init with
      cb        := CallbackMgr.init.addCallBack 1 0 100 0 (some 0)
      globalGID := 1
      calls     := [.adding 1 0, .started true] }
  have hcall {s : SdkCalls} : N.Step s none _ := ⟨.rpcCall true, .rpcCall, rfl⟩
  have h₁ : Exec N.Step SdkCalls.init [none] _ := .single hcall
  have h₂ := h₁.snoc (e := some 1) ⟨.genGid 0 1, .genGid rfl, rfl⟩
  have h₃ := h₂.snoc (e := none) ⟨.register 0 1 100, .register 0 rfl, rfl⟩
  have h₄ : Exec N.Step SdkCalls.init [none, some 1, none, none] s := h₃.snoc hcall
  have hs : N.Step s (some 2) _ := ⟨.genGid 1 2, .genGid rfl, rfl⟩
  have hlive : ∀ cbid, s.cb.gCbMap cbid ≠ none → cbid = 1 := by
    intro cbid hl
    by_contra hne
    exact hl (Partial.insert_of_ne hne)
  have hlife : ∀ cbid, N.Live s cbid → since cbid (drawn [none, some 1, none, none]) + 1 < 2 ^ 32 - 1 := by
    intro cbid hl
    rw [hlive cbid hl]
    decide
  have ⟨_, hfresh⟩ := (gid_fresh_iff client h₄ hs hlife).mpr (by decide)
  exact ⟨_, s, _, h₄, hs, by simp [s, CallbackMgr.addCallBack], hfresh⟩

end GidUser

namespace RpcCalls

-- Calls that fail at once, since no gate is connected, draw ids as well.
theorem exec_noClient (n : Nat) :
    ∃ es s, Exec ProcessStep init es s ∧ s.globalGID = UInt32.ofNat n ∧ s.cb = .init := by
  induction n
  case zero => exact ⟨[], init, .refl, rfl, rfl⟩
  case succ n hi =>
    obtain ⟨es, s, h, hg, hc⟩ := hi
    have h₁ := h.snoc .rpcCallSync
    have h₂ := h₁.snoc (.step (.noClient (i := s.calls.length) List.getElem?_concat_length) nofun nofun)
    refine ⟨_, _, h₂, ?_, hc⟩
    rw [UInt32.ofNat_add, ← hg]
    rfl

-- After 2^32 - 1 calls `RpcCallSync` draws the id 0, for a call that waits for a reply.
theorem gid_zero_after_wrap :
    ∃ es s, Exec ProcessStep init es s ∧ (∀ cbid, s.cb.gCbMap cbid = none) ∧
      s.drawnGid .rpcCallSync = some 0 ∧ ProcessStep s .rpcCallSync s.rpcCallSync ∧
      s.rpcCallSync.calls = s.calls ++ [.started 0 3] := by
  obtain ⟨es, s, h, hg, hc⟩ := exec_noClient (2 ^ 32 - 1)
  have hzero : s.globalGID + 1 = 0 := by
    rw [hg]
    decide
  refine ⟨es, s, h, fun cbid => by rw [hc]; rfl, congrArg some hzero, .rpcCallSync, ?_⟩
  rw [rpcCallSync, hzero]

end RpcCalls
