import Microservice.Gate.Theorems.Login
import Microservice.PushService.Cluster

theorem ObjectID.ext_bytes {id id' : ObjectID} (h : id.bytes = id'.bytes) : id = id' := by
  cases id
  cases id'
  cases h
  rfl

theorem ObjectID.ofPid_bytes (id : ObjectID) : ofPid id.bytes = id := by
  cases id
  case mk bytes length => simp [ofPid, Bytes.copy, length, List.take_of_length_le]

namespace Mongo

variable {mongo : Mongo} {r : Record} {id : ObjectID} {clientID : String}

theorem mem_find : r ∈ mongo.find clientID ↔ r ∈ mongo ∧ r.clientID = clientID ∧ r.state = .unarrive := by
  simp [find]

-- An update marks the record of its id, if there is one.
theorem mem_updateOne (h : r ∈ mongo.updateOne id) :
    ∃ r' ∈ mongo, r'.push = r.push ∧ r'.id = r.id ∧ (r = r' ∨ r.id = id) := by
  have ⟨r', hr', he⟩ := List.mem_map.mp h
  refine ⟨r', hr', ?_⟩
  split at he <;> subst he
  case isTrue hid => exact ⟨rfl, rfl, .inr hid⟩
  case isFalse    => exact ⟨rfl, rfl, .inl rfl⟩

theorem exists_mem_updateOne (id : ObjectID) (h : r ∈ mongo) :
    ∃ r' ∈ mongo.updateOne id, r'.push = r.push ∧ (r' = r ∨ r.id = id) := by
  refine ⟨_, List.mem_map_of_mem h, ?_⟩
  split
  case isTrue hid => exact ⟨rfl, .inr hid⟩
  case isFalse    => exact ⟨rfl, .inl rfl⟩

end Mongo

-- The pushes that a handler has.
def Handler.pushes : Handler → List Push
  | .pushing p _         => [p]
  | .restoring _ p ps _  => p :: ps
  | _                    => []

namespace Handler

variable {h : Handler} {p : Push} {ps : List Push} {pc pc' : ToGate} {origin : Origin}

theorem goto_pushes : (h.goto pc).pushes = h.pushes := by
  cases h <;> rfl

theorem each_pushes : (each origin ps).pushes = ps := by
  cases ps <;> rfl

theorem mem_pushes_of_toGate (hp : h.toGate = some (p, pc)) : p ∈ h.pushes := by
  cases h <;> cases hp <;> simp [pushes]

end Handler

namespace Cluster

variable {k : ClientSdk.Codec} {s s' : Cluster} {e : Event} {es : List Event} {i : Nat} {h h' : Handler}
variable {p : Push}

-- What a step does to a handler.
inductive Move (s : Cluster) (i : Nat) : Event → Handler → Handler → Prop
  | insert (req : PushReq) (id : ObjectID) :
    Move s i (.insert i id) (.push req) (.pushing (req.push id.bytes) (.start (req.push id.bytes)))
  | unsafePush (req : PushReq) :
    Move s i (.unsafePush i) (.push req) (.pushing (req.push []) (.start (req.push [])))
  | insertFailed (req : PushReq) : Move s i (.insertFailed i) (.push req) .failed
  | get {h : Handler} {p : Push} {key : String} :
    h.toGate = some (p, .get key) → Move s i (.get i) h (h.goto (.got (s.redis key)))
  | lookup {h : Handler} {p : Push} {target : String} {pc : ToGate} :
    h.toGate = some (p, .lookup target) → ToGate.find s.gGateAddrMap target = some pc →
    Move s i (.lookup i) h (h.goto pc)
  | send {h : Handler} {p : Push} {clientConnID : String} {connID : ConnId} :
    h.toGate = some (p, .send clientConnID connID) → Move s i (.send i) h (h.goto .done)
  | toGateFailed (e : Event) {h : Handler} :
    e = .getFailed i ∨ e = .sendFailed i → Move s i e h (h.goto .done)
  | find (origin : Origin) :
    Move s i (.find i) (.find origin) (.each origin ((s.mongo.find origin.clientID).map Record.push))
  | findFailed (origin : Origin) : Move s i (.findFailed i) (.find origin) .failed
  | next (origin : Origin) (p : Push) (ps : List Push) :
    Move s i (.next i) (.restoring origin p ps .done) (.each origin ps)

-- The handlers that come in.
inductive Arrival : Event → Handler → Prop
  | push (req : PushReq) : Arrival (.s2pPush req) (.push req)
  | find (j n : Nat) (clientID : String) :
    Arrival (.gate j (.forward n clientID)) (.find ⟨j, n, clientID⟩)

theorem Step.handlers_cases (hs : Step k s e s') :
    s'.handlers = s.handlers ∨ (∃ h, Arrival e h ∧ s'.handlers = s.handlers ++ [h]) ∨
    ∃ i h h', s.handlers[i]? = some h ∧ Move s i e h h' ∧ s'.handlers = s.handlers.set i h' := by
  cases hs
  case s2pPush req => exact .inr <| .inl ⟨_, .push req, rfl⟩
  case gate j c e redis c' hj hc =>
    cases e
    case forward n X => exact .inr <| .inl ⟨_, .find j n X, rfl⟩
    all_goals exact .inl rfl
  case insert hi _ _     => exact .inr <| .inr ⟨_, _, _, hi, .insert .., rfl⟩
  case insertFailed hi _ => exact .inr <| .inr ⟨_, _, _, hi, .insertFailed .., rfl⟩
  case unsafePush hi _   => exact .inr <| .inr ⟨_, _, _, hi, .unsafePush .., rfl⟩
  case get hi ht         => exact .inr <| .inr ⟨_, _, _, hi, .get ht, rfl⟩
  case getFailed hi _    => exact .inr <| .inr ⟨_, _, _, hi, .toGateFailed _ (.inl rfl), rfl⟩
  case lookup hi ht hf   => exact .inr <| .inr ⟨_, _, _, hi, .lookup ht hf, rfl⟩
  case send hi ht _      => exact .inr <| .inr ⟨_, _, _, hi, .send ht, rfl⟩
  case sendFailed hi _   => exact .inr <| .inr ⟨_, _, _, hi, .toGateFailed _ (.inr rfl), rfl⟩
  case find hi           => exact .inr <| .inr ⟨_, _, _, hi, .find .., rfl⟩
  case findFailed hi     => exact .inr <| .inr ⟨_, _, _, hi, .findFailed .., rfl⟩
  case next hi           => exact .inr <| .inr ⟨_, _, _, hi, .next .., rfl⟩
  all_goals exact .inl rfl

-- The records only grow, and only a reply changes the state of one.
theorem Step.mongo_cases (hs : Step k s e s') :
    s'.mongo = s.mongo ∨
    (∃ i req id, e = .insert i id ∧ s.handlers[i]? = some (.push req) ∧ (∀ r ∈ s.mongo, r.id ≠ id) ∧
      s'.mongo = s.mongo ++ [⟨id, req.clientID, req.typ, req.pushMsg, .unarrive⟩]) ∨
    ∃ pid ∈ s.replies, e = .reply pid ∧ s'.mongo = s.mongo.updateOne (.ofPid pid) := by
  cases hs
  case insert hi _ hn => exact .inr <| .inl ⟨_, _, _, rfl, hi, hn, rfl⟩
  case reply hp       => exact .inr <| .inr ⟨_, hp, rfl, rfl⟩
  all_goals exact .inl rfl

-- The push of a record.
def Stored (s : Cluster) (p : Push) : Prop :=
  ∃ r ∈ s.mongo, r.push = p

theorem Stored.step (hp : s.Stored p) (hs : Step k s e s') : s'.Stored p := by
  have ⟨r, hr, he⟩ := hp
  obtain hm | ⟨_, _, _, _, _, _, hm⟩ | ⟨pid, _, _, hm⟩ := hs.mongo_cases <;> unfold Stored <;> rw [hm]
  · exact hp
  · exact ⟨r, List.mem_append_left _ hr, he⟩
  · have ⟨r', hr', he', _⟩ := Mongo.exists_mem_updateOne (.ofPid pid) hr
    exact ⟨r', hr', he'.trans he⟩

theorem Step.stored {req : PushReq} {id : ObjectID} (hs : Step k s (.insert i id) s')
    (hi : s.handlers[i]? = some (.push req)) : s'.Stored (req.push id.bytes) := by
  cases hs
  case insert req' _ hi' _ =>
    cases hi.symm.trans hi'
    exact ⟨_, List.mem_append_right _ (List.mem_singleton_self _), rfl⟩

-- A push that a handler has is unsafe, or there is its record.
def AllStored (s : Cluster) : Prop :=
  ∀ h ∈ s.handlers, ∀ p ∈ h.pushes, p.pid = [] ∨ s.Stored p

theorem AllStored.step (ha : s.AllStored) (hs : Step k s e s') : s'.AllStored := by
  have keep {h p} (hh : h ∈ s.handlers) (hp : p ∈ Handler.pushes h) : p.pid = [] ∨ s'.Stored p :=
    (ha h hh p hp).imp_right (·.step hs)
  intro h hh p hp
  obtain he | ⟨h', harr, he⟩ | ⟨i, h₁, h₂, hi, hmove, he⟩ := hs.handlers_cases <;> rw [he] at hh
  · exact keep hh hp
  · obtain hh | hh := List.mem_append.mp hh
    · exact keep hh hp
    · cases List.mem_singleton.mp hh
      cases harr <;> cases hp
  · obtain hh | rfl := List.mem_or_eq_of_mem_set hh
    · exact keep hh hp
    · have hmem := List.mem_of_getElem? hi
      cases hmove
      case insert req id =>
        cases List.mem_singleton.mp hp
        exact .inr (hs.stored hi)
      case unsafePush req => exact .inl (by cases List.mem_singleton.mp hp; rfl)
      case insertFailed | findFailed => cases hp
      case get | lookup | send | toGateFailed => exact keep hmem (Handler.goto_pushes ▸ hp)
      case find origin =>
        rw [Handler.each_pushes] at hp
        have ⟨r, hr, hrp⟩ := List.mem_map.mp hp
        exact .inr <| Stored.step ⟨r, (Mongo.mem_find.mp hr).1, hrp⟩ hs
      case next origin q ps =>
        rw [Handler.each_pushes] at hp
        exact keep hmem (List.mem_cons_of_mem _ hp)

end Cluster
