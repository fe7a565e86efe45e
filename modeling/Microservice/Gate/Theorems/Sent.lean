import Microservice.Gate.Theorems.Basic

namespace Gate

variable {ρ : Type*} {cfg : Config ρ} {g g' : Gate ρ} {e : Event ρ} {es : List (Event ρ)}
variable {i : Nat} {t t' : Task ρ} {req : RouteReq} {conn : Conn} {msg : Msg ρ} {err : String} {pc : Pc}

-- The errors by which the route handler refuses a request.
inductive Refusal (cfg : Config ρ) (req : RouteReq) : String → Prop
  | notExist : Refusal cfg req ("service " ++ req.nameSpace ++ ":" ++ req.service ++ " not exist")
  | notAllow :
    Refusal cfg req
      ("rpc " ++ req.nameSpace ++ ":" ++ req.service ++ ":" ++ cfg.rpcName req.innerRpc ++ " not allow")

theorem refusal_of_permission (h : g.permission cfg src req = some err) : Refusal cfg req err := by
  unfold permission at h
  split at h
  case isFalse => cases h
  case isTrue =>
    split at h
    case h_1 => cases h; exact .notExist
    case h_2 =>
      split at h
      case h_1 => cases h
      case h_2 => cases h; exact .notAllow

theorem err_of_rejected (h : rejected req err' = .refused err) : err' = err := by
  obtain ⟨hr, _⟩ | ⟨hr, _⟩ := rejected_cases req err' <;> cases hr.symm.trans h
  rfl

-- A handler that refuses a request has found one of these errors.
theorem Act.refused_cases (ha : Act cfg g e g') (hi : g'.At i t) (hp : t.pc = .refused err) :
    (∃ s, g.At i s ∧ s.pc = .refused err ∧ s.rpc = t.rpc) ∨
    ∃ req, t.rpc = .route req ∧ Refusal cfg req err := by
  obtain ⟨hi', _⟩ | ⟨_, _, _, _, rfl⟩ | ⟨s, hs, hm⟩ := ha.taskStep.back hi
  · exact .inl ⟨t, hi', hp, rfl⟩
  · cases hp
  have hact := hm.actor
  cases ha <;> simp only [Event.actor, Option.some.injEq, reduceCtorEq] at hact <;> subst hact
  case take hi' _ =>
    obtain rfl := hi.moved hi' rfl
    exact .inl ⟨_, hi', hp, rfl⟩
  all_goals
    rename g.Runs _ _ => hrun
    obtain rfl := hi.moved hrun.1 rfl
  case refuse hr _ hperm =>
    cases err_of_rejected hp
    exact .inr ⟨_, hr, refusal_of_permission hperm⟩
  case notExist hr _ herr =>
    cases err_of_rejected hp
    exact .inr ⟨_, hr, herr ▸ .notExist⟩
  all_goals cases hp

-- What is sent depends on what a task keeps when it has ended.
theorem Task.outgoing_congr (hsrc : t'.src = t.src) (hrpc : t'.rpc = t.rpc) (hgrid : t'.grid = t.grid) :
    ({ t' with pc := pc } : Task ρ).outgoing = ({ t with pc := pc } : Task ρ).outgoing := by
  simp only [Task.outgoing, hsrc, hrpc, hgrid]

-- Every message was the outgoing one of a handler, which has ended with it.
structure Outgoing (cfg : Config ρ) (es : List (Event ρ)) (g : Gate ρ) : Prop where
  refused : ∀ i t err, g.At i t → t.pc = .refused err → ∃ req, t.rpc = .route req ∧ Refusal cfg req err
  sent    : ∀ i conn msg, .send i conn msg ∈ es → ∃ t pc, g.At i t ∧ t.pc = .finished ∧
    ({ t with pc := pc } : Task ρ).outgoing = some (conn, msg) ∧
    ∀ err, pc = .refused err → ∃ req, t.rpc = .route req ∧ Refusal cfg req err

theorem init_outgoing : Outgoing cfg [] (init : Gate ρ) := by
  constructor <;> simp [init]

theorem Act.outgoing (ha : Act cfg g e g') (h : Outgoing cfg es g) : Outgoing cfg (es ++ [e]) g' where
  refused i t err hi hp := by
    obtain ⟨s, hs, hp, hr⟩ | hr := ha.refused_cases hi hp
    · exact hr ▸ h.refused i s err hs hp
    · exact hr
  sent i conn msg hm := by
    obtain hm | hm := List.mem_append.mp hm
    · obtain ⟨t, pc, hi, hp, ho, hr⟩ := h.sent i conn msg hm
      obtain ⟨t', hi', hp', hrpc, hsrc, hgrid⟩ := ha.ended hi (hp ▸ trivial)
      exact ⟨t', pc, hi', hp'.trans hp, (Task.outgoing_congr hsrc hrpc hgrid).trans ho, hrpc ▸ hr⟩
    · obtain ⟨t, hi, ho, _, hi'⟩ := ha.of_send (List.mem_singleton.mp hm).symm
      exact ⟨_, t.pc, hi', rfl, ho, fun err => h.refused i t err hi.1⟩

theorem outgoing_of_exec (h : Exec (Step cfg) init es g) : Outgoing cfg es g :=
  h.invariant init_outgoing fun _ _ _ _ _ hi hs => hs.act.outgoing hi

-- The calls are those of the requests.
theorem Outgoing.call (h : Outgoing cfg es g) (hm : .send i conn (.g2sRpcCall ordered grid innerRpc) ∈ es) :
    ∃ t req, g.At i t ∧ t.pc = .finished ∧ t.rpc = .route req ∧ t.grid = grid ∧ req.innerRpc = innerRpc := by
  obtain ⟨t, pc, hi, hp, ho, _⟩ := h.sent i conn _ hm
  obtain ⟨_, _, _, _, _, hm⟩ | ⟨req, _, hr, _, _, hm⟩ | ⟨_, _, _, _, _, _, hm⟩ | ⟨_, _, _, _, _, _, hm⟩ :=
    Task.outgoing_cases ho <;> cases hm
  exact ⟨t, req, hi, hp, hr, rfl, rfl⟩

-- A response to a request is a refusal by its own handler, or what a service has responded.
theorem Outgoing.rsp (h : Outgoing cfg es g) (hm : .send i conn (.g2cRpcRsp rid err reply) ∈ es) :
    ∃ t, g.At i t ∧ t.pc = .finished ∧
      ((∃ req, t.rpc = .route req ∧ req.rid = rid ∧ t.src.conn = conn ∧ reply = none ∧ Refusal cfg req err) ∨
        ∃ grid, t.rpc = .rsp grid err reply) := by
  obtain ⟨t, pc, hi, hp, ho, href⟩ := h.sent i conn _ hm
  refine ⟨t, hi, hp, ?_⟩
  obtain ⟨req, _, hr, hpc, hc, hm⟩ | ⟨_, _, _, _, _, hm⟩ | ⟨grid, _, _, _, hr, _, hm⟩ | ⟨_, _, _, _, _, _, hm⟩ :=
    Task.outgoing_cases ho <;> cases hm
  · obtain ⟨req', hr', hrefusal⟩ := href _ hpc
    cases hr.symm.trans hr'
    exact .inl ⟨req, hr, rfl, hc.symm, rfl, hrefusal⟩
  · exact .inr ⟨grid, hr⟩

end Gate
