import Microservice.Gate.Replay
import Microservice.Network.Calls

namespace Gate

-- What a frame does is known.
theorem event_of_turn_frame {ρ : Type*} {cfg : Config ρ} {g g' : Gate ρ} {e : Event ρ} {rpc : Rpc ρ}
    (h : g.turn cfg now (.frame src rpc) = some (e, g')) : e = .frame src rpc := by
  simp only [turn] at h
  split at h <;> cases h
  rfl

end Gate

namespace Network

variable {ρ : Type} {cfg : Config ρ} {s s' : Network ρ} {e : Event ρ} {es : List (Event ρ)} {now : Int}

instance : DecidablePred (Responded : Gate.Event ρ → Prop)
  | .frame (.remote _) rpc =>
    match h : rpc.body with
    | .rsp .. => .isTrue (by simp [Responded, h])
    | .route _ | .push .. | .accessReport .. | .clientRsp _ | .call .. | .other =>
      .isFalse (by simp [Responded, h])
  | .frame (.tcpClient _) _ | .accept _ | .close _ | .rmgr _ | .take _ | .check _ | .reject .. | .choose _
  | .noReply _ | .genGid .. | .register .. | .added .. | .get .. | .deleted .. | .lookup _ | .report .. | .send ..
  | .done _ | .panic _ | .mgr _ => .isFalse id

-- Whose turn it is. The gate goes on, or the first of the calls is handled, or the gate reads the first of the
-- responses.
inductive Turn (ρ : Type)
  | gate (x : Gate.Turn ρ)
  | handle (own : Bytes → Option (RpcHandle.UserHandler ρ)) (err : Bytes)
  | respond (r : Remote)

def gateTurn (cfg : Config ρ) (s : Network ρ) (now : Int) (x : Gate.Turn ρ) : Option (Event ρ × Network ρ) :=
  match s.gate.turn cfg.gate now x with
  | none        => none
  | some (e, g) =>
    if Responded e then
      none
    else
      some (.gate e, { s with gate := g, calls := s.calls ++ (forwarded e).toList })

def handleTurn (cfg : Config ρ) (s : Network ρ) (own : Bytes → Option (RpcHandle.UserHandler ρ)) (err : Bytes) :
    Option (Event ρ × Network ρ) :=
  match s.calls with
  | []         => none
  | call :: cs =>
    (RpcHandle.process cfg.wire (RpcHandle.registered own) 1 call.grid call.innerRpc err).map fun eff =>
      (.handle ⟨call, own, err⟩,
        { s with
          calls := cs
          runs  := s.runs ++ [⟨call, own, err⟩]
          rsps  := s.rsps ++ eff.sent.map (call.conn, ·) })

def respondTurn (cfg : Config ρ) (s : Network ρ) (now : Int) (r : Remote) : Option (Event ρ × Network ρ) :=
  match s.rsps with
  | []               => none
  | (conn, rsp) :: rs =>
    if conn = r.conn then
      let rpc := .rsp rsp.grid (cfg.text rsp.error) rsp.reply
      (s.gate.turn cfg.gate now (.frame (.remote r) rpc)).map fun (_, g) =>
        (.gate (.frame (.remote r) rpc), { s with gate := g, rsps := rs })
    else
      none

def turn (cfg : Config ρ) (s : Network ρ) (now : Int) : Turn ρ → Option (Event ρ × Network ρ)
  | .gate x         => if s.gate.alive = true then s.gateTurn cfg now x else none
  | .handle own err => s.handleTurn cfg own err
  | .respond r      => if s.gate.alive = true then s.respondTurn cfg now r else none

theorem Step.of_gateTurn (ha : s.gate.alive = true) (h : s.gateTurn cfg now x = some (e, s')) :
    Step cfg s e s' := by
  unfold gateTurn at h
  split at h
  case h_1 => cases h
  case h_2 ge g ht =>
    split at h <;> cases h
    case isFalse hr =>
      cases hf : forwarded ge
      case none      => simpa using Step.gate ⟨ha, .of_turn ht⟩ hf hr
      case some call => exact .forward ⟨ha, .of_turn ht⟩ hf

theorem Step.of_handleTurn (h : s.handleTurn cfg own err = some (e, s')) : Step cfg s e s' := by
  unfold handleTurn at h
  split at h
  case h_1 => cases h
  case h_2 call cs hc =>
    obtain ⟨eff, hp, he⟩ := Option.map_eq_some_iff.mp h
    cases he
    exact .handle 1 (show s.calls = [] ++ _ from hc) hp

theorem Step.of_respondTurn (ha : s.gate.alive = true) (h : s.respondTurn cfg now r = some (e, s')) :
    Step cfg s e s' := by
  unfold respondTurn at h
  split at h
  case h_1 => cases h
  case h_2 conn rsp rs hr =>
    split at h
    case isFalse => cases h
    case isTrue hc =>
      subst hc
      obtain ⟨⟨ge, g⟩, ht, he⟩ := Option.map_eq_some_iff.mp h
      cases he
      exact .respond (show s.rsps = [] ++ _ from hr) ⟨ha, Gate.event_of_turn_frame ht ▸ .of_turn ht⟩

theorem Step.of_turn (h : s.turn cfg now x = some (e, s')) : Step cfg s e s' := by
  cases x
  case handle => exact .of_handleTurn h
  case gate   =>
    simp only [turn] at h
    split at h
    case isTrue ha  => exact .of_gateTurn ha h
    case isFalse    => cases h
  case respond =>
    simp only [turn] at h
    split at h
    case isTrue ha  => exact .of_respondTurn ha h
    case isFalse    => cases h

theorem event_of_turn_frame {rpc : Gate.Rpc ρ} (h : s.turn cfg now (.gate (.frame src rpc)) = some (e, s')) :
    e = .gate (.frame src rpc) := by
  simp only [turn, gateTurn] at h
  split at h
  case isFalse => cases h
  case isTrue =>
    split at h
    case h_1 => cases h
    case h_2 ht =>
      split at h <;> cases h
      exact congrArg _ (Gate.event_of_turn_frame ht)

-- A run in which the turns are taken in a given order, at one time. Each step must meet a condition.
def replay (cfg : Config ρ) (ok : Network ρ → Event ρ → Bool) (now : Int) :
    List (Turn ρ) → Network ρ → Option (List (Event ρ) × Network ρ)
  | [], s      => some ([], s)
  | x :: xs, s =>
    match s.turn cfg now x with
    | none         => none
    | some (e, s') =>
      if ok s e = true then
        (replay cfg ok now xs s').map fun (es, s') => (e :: es, s')
      else
        none

theorem exec_of_replay (xs : List (Turn ρ)) (h : replay cfg ok now xs s = some (es, s')) :
    Exec (fun s e s' => Step cfg s e s' ∧ ok s e = true) s es s' := by
  induction xs generalizing s es
  case nil => cases h; exact .refl
  case cons x xs hi =>
    unfold replay at h
    split at h
    case h_1 => cases h
    case h_2 e s₁ ht =>
      split at h
      case isFalse => cases h
      case isTrue hok =>
        obtain ⟨⟨es', s''⟩, hr, hs⟩ := Option.map_eq_some_iff.mp h
        cases hs
        exact (hi hr).cons ⟨.of_turn ht, hok⟩

end Network
