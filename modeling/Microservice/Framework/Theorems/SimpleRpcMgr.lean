import Microservice.Framework.SimpleRpcMgr

-- Clients may call what the generator makes.
def RpcHanderGenerator.accessible {ρ : Type} (gen : RpcHanderGenerator ρ) : Bool :=
  gen.clientAccess = some true

theorem RpcHanderGenerator.eq_user_of_accessible {ρ : Type} {gen : RpcHanderGenerator ρ}
    (h : gen.accessible = true) : ∃ h, gen = .user h (some true) := by
  cases gen
  case g2sRpcCall => cases h
  case user       => exact ⟨_, congrArg _ (of_decide_eq_true h)⟩

namespace SimpleRpcMgr

open SimpleRpc

variable {ρ : Type} {rmgr : SimpleRpcMgr ρ} {d : Defaults ρ} {op : Op ρ} {ops pre post : List (Op ρ)}
variable {es : List (Bytes × RpcHanderGenerator ρ)} {name : Bytes} {gen : RpcHanderGenerator ρ} {p : Panic}

-- What is registered by an operation that is carried out.
def Op.entry : Op ρ → Option (Bytes × RpcHanderGenerator ρ)
  | .registRpcHandler name gen | .registRpcHandlerForce name gen => some (name, gen)
  | .stopRcpHandlerRegist                                        => none

def registrations (ops : List (Op ρ)) : List (Bytes × RpcHanderGenerator ρ) :=
  ops.filterMap Op.entry

def Op.stops : Op ρ → Bool
  | .stopRcpHandlerRegist => true
  | _                     => false

def stopped (ops : List (Op ρ)) : Bool :=
  ops.any Op.stops

-- The panic of an operation, by what was done before.
def Op.refusal (before : List (Op ρ)) : Op ρ → Option Panic
  | .stopRcpHandlerRegist         => none
  | .registRpcHandlerForce _ _    => if stopped before then some .stopped else none
  | .registRpcHandler name _      =>
    if stopped before then
      some .stopped
    else if name ∈ (registrations before).map Prod.fst then
      some (.repeated name)
    else
      none

def Legal (ops : List (Op ρ)) : Prop :=
  ∀ pre op post, ops = pre ++ op :: post → op.refusal pre = none

-- A manager with just these registrations, of which the last one for a name counts.
def holding (es : List (Bytes × RpcHanderGenerator ρ)) (stopRegist : Bool) : SimpleRpcMgr ρ where
  rpcs              := .ofEntries es
  clientAccess name := (Partial.ofEntries es name).map RpcHanderGenerator.accessible
  stopRegist        := stopRegist

theorem genClientAccess_eq : genClientAccess rmgr name gen =
    { rmgr with clientAccess := rmgr.clientAccess.insert name gen.accessible } := by
  unfold genClientAccess RpcHanderGenerator.accessible
  split
  case h_1 h => rw [h]; rfl
  case h_2 h => rw [decide_eq_false h]

theorem holding_concat (b : Bool) :
    genClientAccess { holding es b with rpcs := (holding es b).rpcs.insert name gen } name gen =
      holding (es ++ [(name, gen)]) b := by
  rw [genClientAccess_eq]
  simp only [holding, Partial.ofEntries_concat, SimpleRpcMgr.mk.injEq, true_and, and_true]
  funext name'
  by_cases h : name' = name <;> simp [Partial.insert_apply, h]

theorem stopped_concat : stopped (ops ++ [op]) = (stopped ops || op.stops) := by
  simp [stopped]

theorem registrations_concat : registrations (ops ++ [op]) = registrations ops ++ op.entry.toList := by
  cases h : op.entry <;> simp [registrations, h]

-- The manager after some operations.
def after (ops : List (Op ρ)) : SimpleRpcMgr ρ :=
  holding (registrations ops) (stopped ops)

theorem after_nil : after [] = (empty : SimpleRpcMgr ρ) :=
  rfl

-- What a registration leaves that is not refused.
theorem after_regist (op : Op ρ) (he : op.entry = some (name, gen)) (hs : op.stops = false) :
    genClientAccess { after ops with rpcs := (after ops).rpcs.insert name gen } name gen = after (ops ++ [op]) := by
  rw [after, holding_concat, after, registrations_concat, stopped_concat, he, hs, Bool.or_false]
  rfl

theorem apply_after : (after ops).apply op =
    match op.refusal ops with
    | none   => .ok (after (ops ++ [op]))
    | some p => .error p := by
  have hs : (after ops).stopRegist = stopped ops := rfl
  cases op
  case stopRcpHandlerRegist =>
    simp only [Op.refusal, after, stopped_concat, registrations_concat, Op.entry, Op.stops, Option.toList,
      List.append_nil, Bool.or_true]
    rfl
  case registRpcHandlerForce name gen =>
    rw [apply, registRpcHandlerForce, after_regist (.registRpcHandlerForce name gen) rfl rfl, Op.refusal, hs]
    split <;> rfl
  case registRpcHandler name gen =>
    have hn : ((after ops).rpcs name).isSome = true ↔ name ∈ (registrations ops).map Prod.fst :=
      Partial.ofEntries_isSome_iff
    rw [apply, registRpcHandler, after_regist (.registRpcHandler name gen) rfl rfl, Op.refusal, hs]
    simp only [hn]
    split <;> [rfl; split <;> rfl]

theorem legal_concat : Legal (ops ++ [op]) ↔ Legal ops ∧ op.refusal ops = none := by
  constructor
  case mp =>
    intro h
    exact ⟨fun pre op' post he => h pre op' (post ++ [op]) (by simp [he]), h ops op [] rfl⟩
  case mpr =>
    rintro ⟨h, hop⟩ pre op' post he
    obtain rfl | ⟨post, op'', rfl⟩ := post.eq_nil_or_concat
    · obtain ⟨rfl, hop'⟩ := List.append_inj' he rfl
      cases List.singleton_inj.mp hop'
      exact hop
    · obtain ⟨rfl, _⟩ := List.append_inj' (he.trans (by simp : _ = (pre ++ op' :: post) ++ [op''])) rfl
      exact h pre op' post rfl

-- A sequence of operations is carried out to its end, or to the first one that panics.
theorem foldlM_apply : ops.foldlM apply empty = .ok rmgr ↔ Legal ops ∧ rmgr = after ops := by
  induction ops using List.reverseRecOn generalizing rmgr
  case nil =>
    refine ⟨fun h => ?_, fun h => h.2 ▸ rfl⟩
    cases h
    exact ⟨by simp [Legal], after_nil.symm⟩
  case append_singleton ops op hi =>
    rw [List.foldlM_append, legal_concat]
    cases h : ops.foldlM apply empty
    case error p =>
      have hno : ¬Legal ops := fun hl => nomatch h.symm.trans (hi.mpr ⟨hl, rfl⟩)
      exact iff_of_false nofun fun hl => hno hl.1.1
    case ok m =>
      obtain ⟨hl, rfl⟩ := hi.mp h
      change ([op].foldlM apply (after ops) = .ok rmgr) ↔ _
      rw [List.foldlM_cons, apply_after]
      cases op.refusal ops
      case none   => exact ⟨fun h => by cases h; exact ⟨⟨hl, rfl⟩, rfl⟩, fun h => h.2 ▸ rfl⟩
      case some p => exact iff_of_false nofun fun h => nomatch h.1.2

theorem foldlM_apply_concat (hl : Legal ops) : (ops ++ op :: post).foldlM apply empty =
    match op.refusal ops with
    | none   => post.foldlM apply (after (ops ++ [op]))
    | some p => .error p := by
  rw [List.foldlM_append, foldlM_apply.mpr ⟨hl, rfl⟩]
  change (op :: post).foldlM apply (after ops) = _
  rw [List.foldlM_cons, apply_after]
  cases op.refusal ops <;> rfl

theorem foldlM_apply_error : ops.foldlM apply empty = .error p ↔
    ∃ pre op post, ops = pre ++ op :: post ∧ Legal pre ∧ op.refusal pre = some p := by
  constructor
  case mpr =>
    rintro ⟨pre, op, post, rfl, hl, hr⟩
    rw [foldlM_apply_concat hl, hr]
  case mp =>
    intro h
    induction ops using List.reverseRecOn
    case nil => cases h
    case append_singleton ops op hi =>
      cases h' : ops.foldlM apply empty
      case error p' =>
        rw [List.foldlM_append, h'] at h
        cases h
        obtain ⟨pre, op', post, rfl, hl, hr⟩ := hi h'
        exact ⟨pre, op', post ++ [op], by simp, hl, hr⟩
      case ok rmgr =>
        obtain ⟨hl, _⟩ := foldlM_apply.mp h'
        rw [foldlM_apply_concat hl] at h
        cases hr : op.refusal ops <;> rw [hr] at h <;> cases h
        exact ⟨ops, op, [], rfl, hl, hr⟩

-- The operations of `CreateSimpleRpcMgr`.
def Defaults.registered (d : Defaults ρ) : List (Op ρ) :=
  d.generators.map fun e => .registRpcHandler e.1 e.2

theorem setUp_eq : setUp d ops = (d.registered ++ ops).foldlM apply empty := by
  rw [List.foldlM_append]
  rfl

theorem registrations_defaults : registrations (d.registered ++ ops) = d.generators ++ registrations ops := by
  simp [registrations, Defaults.registered, List.filterMap_map, Function.comp_def, Op.entry]

theorem stopped_defaults : stopped (d.registered ++ ops) = stopped ops := by
  simp [stopped, Defaults.registered, List.any_map, Function.comp_def, Op.stops]

theorem nodup_generators (d : Defaults ρ) : (d.generators.map Prod.fst).Nodup := by
  show ([.ascii msgG2SRpcCall, .ascii msgG2SRpcCallOrdered, .ascii msgG2CRpcRsp, .ascii msgHeartBeatReq,
    .ascii msgHeartBeatRsp] : List Bytes).Nodup
  decide

-- The framework itself registers no name twice.
theorem legal_defaults (d : Defaults ρ) : Legal d.registered :=
  (foldlM_apply.mp (show d.registered.foldlM apply empty = .ok _ from rfl)).1

-- What is refused is none of the operations of the framework.
theorem split_of_refusal (he : d.registered ++ ops = pre ++ op :: post) (hr : op.refusal pre = some p) :
    ∃ pre', pre = d.registered ++ pre' ∧ ops = pre' ++ op :: post := by
  obtain ⟨pre', hpre, hops⟩ | ⟨c, hd, hops⟩ := List.append_eq_append_iff.mp he
  · exact ⟨pre', hpre, hops⟩
  · cases c
    case nil => exact ⟨[], by simpa using hd.symm, hops.symm⟩
    case cons op' c =>
      cases hops
      exact nomatch hr.symm.trans (legal_defaults d pre op c hd)

-- The handlers are set up, each name standing for what was registered last for it, unless something is
-- registered after the stop or without force under a name that is taken. The first such registration panics.
theorem setUp_spec (d : Defaults ρ) (ops : List (Op ρ)) :
    (∀ rmgr, setUp d ops = .ok rmgr ↔ Legal (d.registered ++ ops) ∧
      rmgr.rpcs = .ofEntries (d.generators ++ registrations ops) ∧
      (∀ name, rmgr.clientAccess name = (rmgr.rpcs name).map RpcHanderGenerator.accessible) ∧
      rmgr.stopRegist = stopped ops) ∧
    ∀ p, setUp d ops = .error p ↔ ∃ pre op post, ops = pre ++ op :: post ∧
      Legal (d.registered ++ pre) ∧ op.refusal (d.registered ++ pre) = some p := by
  refine ⟨fun rmgr => ?_, fun p => ?_⟩
  · rw [setUp_eq, foldlM_apply, after, registrations_defaults, stopped_defaults]
    refine and_congr_right fun _ => ⟨fun h => h ▸ ⟨rfl, fun _ => rfl, rfl⟩, ?_⟩
    rintro ⟨hr, ha, hs⟩
    obtain ⟨rpcs, clientAccess, stopRegist⟩ := rmgr
    cases hr
    cases hs
    exact congrArg (SimpleRpcMgr.mk _ · _) (funext ha)
  · rw [setUp_eq, foldlM_apply_error]
    constructor
    case mp =>
      rintro ⟨pre, op, post, he, hl, hr⟩
      obtain ⟨pre', rfl, rfl⟩ := split_of_refusal he hr
      exact ⟨pre', op, post, rfl, hl, hr⟩
    case mpr =>
      rintro ⟨pre, op, post, rfl, hl, hr⟩
      exact ⟨d.registered ++ pre, op, post, by simp, hl, hr⟩

theorem rpcs_of_setUp (hs : setUp d ops = .ok rmgr) :
    rmgr.rpcs = .ofEntries (d.generators ++ registrations ops) := by
  obtain ⟨_, rfl⟩ := foldlM_apply.mp (setUp_eq.symm.trans hs)
  rw [after, registrations_defaults]
  rfl

-- Clients may call a name if what was registered last for it says so.
theorem clientAccess_eq_true_iff (hs : setUp d ops = .ok rmgr) :
    rmgr.clientAccess name = some true ↔ ∃ h, rmgr.rpcs name = some (.user h (some true)) := by
  obtain ⟨_, rfl⟩ := foldlM_apply.mp (setUp_eq.symm.trans hs)
  simp only [after, holding, Option.map_eq_some_iff]
  constructor
  case mp =>
    rintro ⟨gen, hg, ha⟩
    obtain ⟨h, rfl⟩ := RpcHanderGenerator.eq_user_of_accessible ha
    exact ⟨h, hg⟩
  case mpr =>
    rintro ⟨h, hg⟩
    exact ⟨_, hg, rfl⟩

-- A registration without force of a name of the framework would have panicked.
theorem name_fresh (hl : Legal (d.registered ++ ops)) (hm : .registRpcHandler name gen ∈ ops) :
    name ∉ d.generators.map Prod.fst := by
  intro hname
  obtain ⟨pre, post, rfl⟩ := List.append_of_mem hm
  have hr := hl (d.registered ++ pre) (.registRpcHandler name gen) post (by simp)
  rw [Op.refusal, registrations_defaults, List.map_append, if_pos (List.mem_append_left _ hname)] at hr
  split at hr <;> cases hr

-- Without force, the names of the framework stand for what the framework has registered.
theorem rpcs_default (hs : setUp d ops = .ok rmgr) (hf : ∀ name gen, .registRpcHandlerForce name gen ∉ ops)
    (hm : (name, gen) ∈ d.generators) : rmgr.rpcs name = some gen := by
  have hl := (foldlM_apply.mp (setUp_eq.symm.trans hs)).1
  have hnot : name ∉ (registrations ops).map Prod.fst := by
    intro hin
    obtain ⟨e, hentry, rfl⟩ := List.mem_map.mp hin
    obtain ⟨op, hop, he⟩ := List.mem_filterMap.mp hentry
    cases op <;> cases he
    case registRpcHandler      => exact name_fresh hl hop (List.mem_map.mpr ⟨_, hm, rfl⟩)
    case registRpcHandlerForce => exact hf _ _ hop
  rw [rpcs_of_setUp hs, Partial.ofEntries, List.foldl_append, Partial.foldl_insert_of_notMem hnot]
  exact Partial.foldl_insert_of_mem (nodup_generators d) hm

end SimpleRpcMgr
