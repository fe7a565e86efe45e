import Microservice.Framework.Theorems.RpcEncode
import Microservice.Gate.Route
import Microservice.PushService.PushToGate
import Microservice.PushService.Theorems.Route

namespace PushToGate

open SimpleRpc

variable {ρ : Type} {w : Wire ρ} {ns clientID : String} {found : Nat → Found} {f : Found} {p : Push}
  {d : Doc} {ds docs : List Doc} {n : Nat}

-- The redis key for a push, if its typ is known.
def redisKey (typ clientID : String) : Option String :=
  if typ = "server" then
    some ("s_" ++ clientID)
  else if typ = "client" then
    some ("c_" ++ clientID)
  else
    none

-- The length of the `MSG_P2G_PUSH` for a push: the name in two bytes, two strings and two byte slices.
def sizeToGate (clientConnID nameSpace : String) (p : Push) : Nat :=
  2 + Msgpack.strSize (Bytes.utf8 clientConnID).length + Msgpack.binSize p.pid.length +
    Msgpack.strSize (Bytes.utf8 nameSpace).length + Msgpack.binSize p.pushMsg.length

-- Redis has a location for the push, which has no slash in it, or the gate of the location is connected and the
-- message for it is too long.
def Blocks (ns : String) (f : Found) (p : Push) : Prop :=
  ∃ key target, redisKey p.typ p.clientID = some key ∧ f.redis key = some target ∧
    ('/' ∉ target.toList ∨
      ∃ gateAddr clientConnID rest connID, Strings.split target '/' = gateAddr :: clientConnID :: rest ∧
        f.gGateAddrMap gateAddr = some connID ∧ connID ∈ f.clients ∧
        maxSize < sizeToGate clientConnID ns p % 2 ^ 32)

theorem start_eq_get_iff {key : String} : ToGate.start p = .get key ↔ redisKey p.typ p.clientID = some key := by
  unfold ToGate.start redisKey GateService.key
  split
  case isTrue  => simp
  case isFalse => split <;> simp

theorem find_eq_none_iff {m : Partial String ConnId} {target : String} :
    ToGate.find m target = none ↔ '/' ∉ target.toList := by
  constructor
  case mp =>
    intro h hs
    obtain ⟨gateAddr, clientConnID, rest, hsplit⟩ := Strings.exists_split_of_mem hs
    cases hm : m gateAddr <;> simp [ToGate.find, hsplit, hm] at h
  case mpr =>
    intro h
    simp [ToGate.find, Strings.split_of_not_mem h]

theorem find_eq_send_iff {m : Partial String ConnId} {target clientConnID : String} {connID : ConnId} :
    ToGate.find m target = some (.send clientConnID connID) ↔
      ∃ gateAddr rest, Strings.split target '/' = gateAddr :: clientConnID :: rest ∧
        m gateAddr = some connID := by
  unfold ToGate.find
  split
  case h_1 gateAddr clientConnID' rest hsplit =>
    cases hm : m gateAddr
    case none =>
      simp only [hsplit, List.cons.injEq, Option.some.injEq, reduceCtorEq, false_iff]
      rintro ⟨_, _, ⟨rfl, _⟩, hc⟩
      cases hm.symm.trans hc
    case some connID' =>
      simp only [hsplit, List.cons.injEq, Option.some.injEq, ToGate.send.injEq]
      constructor
      case mp =>
        rintro ⟨rfl, rfl⟩
        exact ⟨gateAddr, rest, ⟨rfl, rfl, rfl⟩, hm⟩
      case mpr =>
        rintro ⟨_, _, ⟨rfl, rfl, _⟩, hc⟩
        exact ⟨rfl, Option.some.inj (hm.symm.trans hc)⟩
  case h_2 hn =>
    simp only [reduceCtorEq, false_iff]
    rintro ⟨gateAddr, rest, hsplit, _⟩
    exact hn _ _ _ hsplit

theorem length_p2gPush (hw : w.Standard) (clientConnID : String) :
    (p2gPush w ⟨clientConnID, p.pid, ns, p.pushMsg⟩).length = sizeToGate clientConnID ns p := by
  rw [p2gPush, hw.length_rpcEncode rfl]
  simp only [List.length_append, hw.str, hw.bin, sizeToGate, Msgpack.strSize, Msgpack.binSize]
  omega

theorem messageEncode_p2gPush_eq_none_iff (hw : w.Standard) {clientConnID : String} :
    messageEncode (p2gPush w ⟨clientConnID, p.pid, ns, p.pushMsg⟩) = none ↔
      maxSize < sizeToGate clientConnID ns p % 2 ^ 32 := by
  rw [messageEncode_eq_none_iff, length_p2gPush hw]

theorem send_eq_panicked_iff {pc : ToGate} : send w ns f p pc = .panicked ↔
    ∃ clientConnID connID, pc = .send clientConnID connID ∧ connID ∈ f.clients ∧
      messageEncode (p2gPush w ⟨clientConnID, p.pid, ns, p.pushMsg⟩) = none := by
  cases pc
  case send clientConnID connID =>
    by_cases hc : connID ∈ f.clients
    case pos =>
      cases hm : messageEncode (p2gPush w ⟨clientConnID, p.pid, ns, p.pushMsg⟩) <;> simp [send, hc, hm]
    case neg => simp [send, hc]
  all_goals simp [send]

theorem send_of_fits {clientConnID : String} {connID : ConnId} {msg : Bytes} (hc : connID ∈ f.clients)
    (hm : messageEncode (p2gPush w ⟨clientConnID, p.pid, ns, p.pushMsg⟩) = some msg) :
    send w ns f p (.send clientConnID connID) = .sent connID msg := by
  simp [send, hc, hm]

theorem lookup_eq_panicked_iff (hw : w.Standard) {target : String} :
    lookup w ns f p (.lookup target) = .panicked ↔ '/' ∉ target.toList ∨
      ∃ gateAddr clientConnID rest connID, Strings.split target '/' = gateAddr :: clientConnID :: rest ∧
        f.gGateAddrMap gateAddr = some connID ∧ connID ∈ f.clients ∧
        maxSize < sizeToGate clientConnID ns p % 2 ^ 32 := by
  rw [← find_eq_none_iff (m := f.gGateAddrMap)]
  have hsend : ∀ pc, ToGate.find f.gGateAddrMap target = some pc → (send w ns f p pc = .panicked ↔
      ∃ gateAddr clientConnID rest connID, Strings.split target '/' = gateAddr :: clientConnID :: rest ∧
        f.gGateAddrMap gateAddr = some connID ∧ connID ∈ f.clients ∧
        maxSize < sizeToGate clientConnID ns p % 2 ^ 32) := by
    intro pc hf
    simp only [send_eq_panicked_iff, messageEncode_p2gPush_eq_none_iff hw]
    constructor
    case mp =>
      rintro ⟨clientConnID, connID, rfl, hc, hlt⟩
      obtain ⟨gateAddr, rest, hsplit, hm⟩ := find_eq_send_iff.mp hf
      exact ⟨gateAddr, clientConnID, rest, connID, hsplit, hm, hc, hlt⟩
    case mpr =>
      rintro ⟨gateAddr, clientConnID, rest, connID, hsplit, hm, hc, hlt⟩
      have hf' := find_eq_send_iff.mpr ⟨gateAddr, rest, hsplit, hm⟩
      exact ⟨clientConnID, connID, Option.some.inj (hf.symm.trans hf'), hc, hlt⟩
  cases hf : ToGate.find f.gGateAddrMap target
  case none    => simp [lookup, hf]
  case some pc => simp [lookup, hf, hsend pc hf]

theorem pushToGate_eq_panicked_iff (hw : w.Standard) : pushToGate w ns f p = .panicked ↔ Blocks ns f p := by
  cases hs : ToGate.start p
  case get key =>
    have hkey := start_eq_get_iff.mp hs
    cases hr : f.redis key
    case none => simp [pushToGate, Blocks, hs, hkey, hr, ToGate.got, lookup]
    case some => simp [pushToGate, Blocks, hs, hkey, hr, ToGate.got, lookup_eq_panicked_iff hw]
  all_goals
    have hkey : redisKey p.typ p.clientID = none := by
      by_contra hn
      obtain ⟨key, hkey⟩ := Option.ne_none_iff_exists'.mp hn
      cases hs.symm.trans (start_eq_get_iff.mpr hkey)
    simp [pushToGate, Blocks, hs, hkey]

-- `PushToGate` returns, panics, or finds the way to the gate and sends what fits.
theorem pushToGate_cases (w : Wire ρ) (ns : String) (f : Found) (p : Push) :
    pushToGate w ns f p = .returned ∨ pushToGate w ns f p = .panicked ∨
    ∃ key target clientConnID connID msg, ToGate.start p = .get key ∧ f.redis key = some target ∧
      ToGate.find f.gGateAddrMap target = some (.send clientConnID connID) ∧ connID ∈ f.clients ∧
      messageEncode (p2gPush w ⟨clientConnID, p.pid, ns, p.pushMsg⟩) = some msg ∧
      pushToGate w ns f p = .sent connID msg := by
  cases hs : ToGate.start p
  case get key =>
    cases hr : f.redis key
    case none => exact .inl (by simp [pushToGate, hs, hr, ToGate.got, lookup])
    case some target =>
      have hpush : pushToGate w ns f p = lookup w ns f p (.lookup target) := by
        simp [pushToGate, hs, hr, ToGate.got]
      cases hf : ToGate.find f.gGateAddrMap target
      case none => exact .inr (.inl (by simp [hpush, lookup, hf]))
      case some pc =>
        replace hpush : pushToGate w ns f p = send w ns f p pc := by simp [hpush, lookup, hf]
        cases pc
        case send clientConnID connID =>
          by_cases hc : connID ∈ f.clients
          case neg => exact .inl (by simp [hpush, send, hc])
          case pos =>
            cases hm : messageEncode (p2gPush w ⟨clientConnID, p.pid, ns, p.pushMsg⟩)
            case none     => exact .inr (.inl (by simp [hpush, send, hc, hm]))
            case some msg =>
              exact .inr (.inr ⟨key, target, clientConnID, connID, msg, rfl, hr, hf, hc, hm,
                hpush.trans (send_of_fits hc hm)⟩)
        all_goals exact .inl (by simp [hpush, send])
  all_goals exact .inl (by simp [pushToGate, hs])

theorem pushToGate_eq_sent {connID : ConnId} {msg : Bytes} (h : pushToGate w ns f p = .sent connID msg) :
    ∃ key target clientConnID, ToGate.start p = .get key ∧ f.redis key = some target ∧
      ToGate.find f.gGateAddrMap target = some (.send clientConnID connID) ∧ connID ∈ f.clients ∧
      messageEncode (p2gPush w ⟨clientConnID, p.pid, ns, p.pushMsg⟩) = some msg := by
  obtain hp | hp | ⟨key, target, clientConnID, connID', msg', hs, hr, hf, hc, hm, hp⟩ := pushToGate_cases w ns f p
  · cases hp.symm.trans h
  · cases hp.symm.trans h
  · cases hp.symm.trans h
    exact ⟨key, target, clientConnID, hs, hr, hf, hc, hm⟩

theorem pushToGate_ne_notBinary : pushToGate w ns f p ≠ .notBinary := by
  intro h
  obtain hp | hp | ⟨_, _, _, _, _, _, _, _, _, _, hp⟩ := pushToGate_cases w ns f p <;> cases hp.symm.trans h

-- The push of a document ends the loop.
def Attempt.Ends : Attempt → Prop
  | .notBinary | .panicked => True
  | _                      => False

theorem restore_cons_of_ends (h : (each w ns (found 0) d).Ends) :
    restore w ns found (d :: ds) = [each w ns (found 0) d] := by
  cases he : each w ns (found 0) d <;> simp [he, Attempt.Ends] at h <;> simp [restore, he]

theorem restore_cons (h : ¬(each w ns (found 0) d).Ends) : restore w ns found (d :: ds) =
    each w ns (found 0) d :: restore w ns (fun n => found (n + 1)) ds := by
  cases he : each w ns (found 0) d <;> simp [he, Attempt.Ends] at h <;> simp [restore, he]

theorem restore_singleton : restore w ns found [d] = [each w ns (found 0) d] := by
  by_cases h : (each w ns (found 0) d).Ends
  case pos => exact restore_cons_of_ends h
  case neg => rw [restore_cons h]; rfl

-- A document whose push ends the loop is the last one.
theorem length_restore_le (hn : ds[n]? = some d) (h : (each w ns (found n) d).Ends) :
    (restore w ns found ds).length ≤ n + 1 := by
  induction ds generalizing n found
  case nil => cases hn
  case cons d' ds ih =>
    by_cases hd : (each w ns (found 0) d').Ends
    case pos => simp [restore_cons_of_ends hd]
    case neg =>
      rw [restore_cons hd, List.length_cons]
      cases n
      case zero   => cases hn; exact absurd h hd
      case succ n => exact Nat.succ_le_succ (ih hn h)

-- As far as the loop gets, each document has what is found for it.
theorem getElem?_restore {a : Attempt} (h : (restore w ns found ds)[n]? = some a) :
    ∃ d, ds[n]? = some d ∧ a = each w ns (found n) d := by
  induction ds generalizing n found
  case nil => cases h
  case cons d ds ih =>
    by_cases hd : (each w ns (found 0) d).Ends
    case pos =>
      rw [restore_cons_of_ends hd] at h
      cases n
      case zero   => exact ⟨d, rfl, (Option.some.inj h).symm⟩
      case succ n => cases h
    case neg =>
      rw [restore_cons hd] at h
      cases n
      case zero   => exact ⟨d, rfl, (Option.some.inj h).symm⟩
      case succ n => exact ih h

-- As long as no push ends the loop, it gets to all documents.
theorem restore_eq (h : ∀ n d, ds[n]? = some d → n + 1 < ds.length → ¬(each w ns (found n) d).Ends) :
    restore w ns found ds = ds.mapIdx fun n => each w ns (found n) := by
  induction ds generalizing found
  case nil => rfl
  case cons d ds ih =>
    cases ds
    case nil => rw [restore_singleton]; rfl
    case cons d' ds =>
      have hrest : restore w ns (fun n => found (n + 1)) (d' :: ds) = _ :=
        ih fun n r hr hn => h (n + 1) r hr (Nat.succ_lt_succ hn)
      rw [restore_cons (h 0 d rfl (by simp)), hrest]
      simp only [List.mapIdx_cons]

theorem each_ends_iff (hw : w.Standard) : (each w ns f d).Ends ↔
    ∀ pushMsg, d.pushMsg = some pushMsg → Blocks ns f ⟨d.clientID, d.typ, pushMsg, d.id.bytes⟩ := by
  cases hd : d.pushMsg
  case none => simp [each, hd, Attempt.Ends]
  case some pushMsg =>
    have hends : ∀ a : Attempt, a ≠ .notBinary → (a.Ends ↔ a = .panicked) := by
      intro a ha
      cases a <;> simp_all [Attempt.Ends]
    simp only [each, hd, hends _ pushToGate_ne_notBinary, pushToGate_eq_panicked_iff hw, Option.some.injEq,
      forall_eq']

theorem each_eq_notBinary_iff : each w ns f d = .notBinary ↔ d.pushMsg = none := by
  cases hd : d.pushMsg <;> simp [each, hd, pushToGate_ne_notBinary]

-- A client behind a gate, and a push service that knows the gate by its connection.
def conn : GateConn where
  service    := .clientGate
  listerAddr := ⟨"10.0.0.1:6666", by decide⟩
  connID     := ⟨"192.168.100.100:50000", by decide⟩

def located : Found where
  redis        := Partial.insert (fun _ => none) "c_x" conn.location
  gGateAddrMap := Partial.insert (fun _ => none) "10.0.0.1:6666" "10.0.0.1:40000"
  clients      := ["10.0.0.1:40000"]

def doc (b : UInt8) (pushMsg : Bytes) : Doc :=
  ⟨⟨List.replicate 12 b, by simp⟩, "x", "client", some pushMsg, .unarrive⟩

theorem mem_clients : "10.0.0.1:40000" ∈ located.clients :=
  List.mem_singleton.mpr rfl

theorem each_located (b : UInt8) (pushMsg : Bytes) :
    each w ns located (doc b pushMsg) = send w ns located ⟨"x", "client", pushMsg, (doc b pushMsg).id.bytes⟩
      (.send "192.168.100.100:50000" "10.0.0.1:40000") := by
  have hgate : located.gGateAddrMap conn.listerAddr.str = some "10.0.0.1:40000" := by simp [located, conn]
  have hredis : located.redis "c_x" = some conn.location := by simp [located]
  have hstart : ToGate.start ⟨"x", "client", pushMsg, (doc b pushMsg).id.bytes⟩ = .get "c_x" := rfl
  have heach : each w ns located (doc b pushMsg) =
    pushToGate w ns located ⟨"x", "client", pushMsg, (doc b pushMsg).id.bytes⟩ := rfl
  simp only [heach, pushToGate, hstart, hredis, ToGate.got, lookup, GateConn.find_location hgate]
  rfl

theorem sizeToGate_doc (b : UInt8) (pushMsg : Bytes) :
    sizeToGate "192.168.100.100:50000" "ns" ⟨"x", "client", pushMsg, (doc b pushMsg).id.bytes⟩ =
      41 + Msgpack.binSize pushMsg.length := by
  have hpid : (doc b pushMsg).id.bytes.length = 12 := List.length_replicate
  have hconn : Msgpack.strSize (Bytes.utf8 "192.168.100.100:50000").length = 22 := by decide
  have hns : Msgpack.strSize (Bytes.utf8 "ns").length = 3 := by decide
  have hbin : Msgpack.binSize 12 = 14 := by decide
  simp only [sizeToGate, hpid, hconn, hns, hbin]

-- The push is sent if it leaves room for the location.
theorem each_short (hw : w.Standard) {b : UInt8} {pushMsg : Bytes}
    (h : 41 + Msgpack.binSize pushMsg.length ≤ maxSize) :
    ∃ msg, each w "ns" located (doc b pushMsg) = .sent "10.0.0.1:40000" msg := by
  have hlen := (length_p2gPush hw _).trans (sizeToGate_doc b pushMsg)
  exact ⟨_, (each_located b pushMsg).trans (send_of_fits mem_clients (messageEncode_eq_some (hlen.trans_le h)))⟩

theorem each_long (hw : w.Standard) {b : UInt8} {pushMsg : Bytes}
    (h : maxSize < 41 + Msgpack.binSize pushMsg.length) (hlt : 41 + Msgpack.binSize pushMsg.length < 2 ^ 32) :
    each w "ns" located (doc b pushMsg) = .panicked := by
  have hlen := (length_p2gPush hw _).trans (sizeToGate_doc b pushMsg)
  rw [each_located, send_eq_panicked_iff]
  exact ⟨_, _, rfl, mem_clients, messageEncode_eq_none (hlen ▸ h) (hlen ▸ hlt)⟩

-- The message by which a service hands the push to its gate.
theorem length_route (hw : w.Standard) (isSafe : Bool) (pushMsg : Bytes) (hp : pushMsg.length < 2 ^ 14) :
    (Route.Req.encode w ⟨.utf8 "ns", .utf8 "PushService", 0, false,
      s2pPush w ⟨"x", "client", isSafe, pushMsg⟩⟩).length ≤ 38 + (w.bin.encode pushMsg).length := by
  have hns : (w.str.encode (.utf8 "ns")).length = 3 := by rw [hw.str]; decide
  have hservice : (w.str.encode (.utf8 "PushService")).length = 12 := by rw [hw.str]; decide
  have hid : (w.str.encode (.utf8 "x")).length = 2 := by rw [hw.str]; decide
  have htyp : (w.str.encode (.utf8 "client")).length = 7 := by rw [hw.str]; decide
  have hs2p : (s2pPush w ⟨"x", "client", isSafe, pushMsg⟩).length = 12 + (w.bin.encode pushMsg).length := by
    rw [s2pPush, hw.length_rpcEncode rfl]
    simp only [List.length_append, hid, htyp, hw.bool]
    omega
  have hbin : (w.bin.encode pushMsg).length ≤ 3 + pushMsg.length := by
    rw [hw.bin, Msgpack.length_binHeader]
    split <;> [skip; split] <;> omega
  rw [Route.Req.encode, hw.length_rpcEncode rfl]
  simp only [List.length_append, hns, hservice, hw.uint32, hw.bool, hw.bin (s2pPush w _), hs2p,
    Msgpack.length_binHeader]
  split <;> [skip; split] <;> omega

-- `PushToGate` is called for each of the documents, and one that would be sent by itself is sent.
structure Independent (w : Wire ρ) (ns : String) (found : Nat → Found) (docs : List Doc) (clientID : String) :
    Prop where
  attempted : ∀ (n : Nat) d, (Doc.find docs clientID)[n]? = some d →
    ∃ a, (process w ns found docs clientID)[n]? = some a ∧ a ≠ .notBinary
  sent      : ∀ n d connID msg, (Doc.find docs clientID)[n]? = some d →
    restore w ns (fun _ => found n) [d] = [.sent connID msg] →
    (process w ns found docs clientID)[n]? = some (.sent connID msg)

-- The documents are independent of each other, if and only if all push messages are binary and no document but
-- the last one blocks.
theorem process_independent_iff (hw : w.Standard) : Independent w ns found docs clientID ↔
    ∀ n d, (Doc.find docs clientID)[n]? = some d → ∃ pushMsg, d.pushMsg = some pushMsg ∧
      (n + 1 < (Doc.find docs clientID).length →
        ¬Blocks ns (found n) ⟨d.clientID, d.typ, pushMsg, d.id.bytes⟩) := by
  constructor
  case mp =>
    intro h n d hd
    obtain ⟨a, ha, hne⟩ := h.attempted n d hd
    obtain ⟨d', hd', rfl⟩ := getElem?_restore ha
    cases hd.symm.trans hd'
    obtain ⟨pushMsg, hp⟩ := Option.ne_none_iff_exists'.mp (mt each_eq_notBinary_iff.mpr hne)
    refine ⟨pushMsg, hp, fun hn hb => ?_⟩
    -- A document that blocks ends the loop, so that there is none after it.
    have hends : (each w ns (found n) d).Ends := (each_ends_iff hw).mpr fun _ he => by
      cases hp.symm.trans he
      exact hb
    have hle := length_restore_le hd hends
    obtain ⟨b, hb, _⟩ := h.attempted (n + 1) _ (List.getElem?_eq_getElem hn)
    have hlt := (List.getElem?_eq_some_iff.mp hb).1
    exact absurd hle (Nat.not_le.mpr hlt)
  case mpr =>
    intro h
    have hall : process w ns found docs clientID = _ := restore_eq fun n d hd hn hends => by
      obtain ⟨pushMsg, hp, hb⟩ := h n d hd
      exact hb hn ((each_ends_iff hw).mp hends pushMsg hp)
    constructor
    case attempted =>
      intro n d hd
      obtain ⟨pushMsg, hp, _⟩ := h n d hd
      refine ⟨each w ns (found n) d, by simp [hall, hd], fun he => ?_⟩
      cases hp.symm.trans (each_eq_notBinary_iff.mp he)
    case sent =>
      intro n d connID msg hd hs
      rw [restore_singleton] at hs
      simp [hall, hd, (List.cons.inj hs).1]

-- Two pushes that both fit.
theorem process_independent_short :
    Wire.msgpack.Standard ∧
    Independent Wire.msgpack "ns" (fun _ => located) [doc 0 [], doc 1 [192]] "x" := by
  refine ⟨Wire.msgpack_standard, (process_independent_iff Wire.msgpack_standard).mpr fun n d hd => ?_⟩
  have hmem : d ∈ [doc 0 [], doc 1 [192]] := List.mem_of_getElem? hd
  have hfits : ∀ b pushMsg, 41 + Msgpack.binSize (List.length pushMsg) ≤ maxSize →
      ∃ p, (doc b pushMsg).pushMsg = some p ∧ (n + 1 < 2 →
        ¬Blocks "ns" located ⟨"x", "client", p, (doc b pushMsg).id.bytes⟩) := by
    intro b pushMsg hle
    obtain ⟨msg, hs⟩ := each_short Wire.msgpack_standard (b := b) hle
    refine ⟨pushMsg, rfl, fun _ hb => ?_⟩
    cases ((pushToGate_eq_panicked_iff Wire.msgpack_standard).mpr hb).symm.trans hs
  obtain rfl | hmem := List.mem_cons.mp hmem
  · exact hfits 0 [] (by decide)
  · cases List.mem_singleton.mp hmem
    exact hfits 1 [192] (by decide)

-- A push just fits into the message from the service that it came in, but not into the one for the gate. The
-- push after it, which would fit, stays in the push service.
theorem long_record_blocks :
    ∃ found docs p₁ p₂ d₁ d₂ connID msg, Doc.find docs "x" = [d₁, d₂] ∧
      d₁.pushMsg = some p₁ ∧ d₂.pushMsg = some p₂ ∧
      (∀ p ∈ [p₁, p₂], (Route.Req.encode Wire.msgpack ⟨.utf8 "ns", .utf8 "PushService", 0, false,
        s2pPush Wire.msgpack ⟨"x", "client", true, p⟩⟩).length ≤ maxSize) ∧
      restore Wire.msgpack "ns" (fun _ => found 1) [d₂] = [.sent connID msg] ∧
      process Wire.msgpack "ns" found docs "x" = [.panicked] := by
  have hw := Wire.msgpack_standard
  have hmax : maxSize = 16384 := rfl
  have hlen : (List.replicate 16343 (0 : UInt8)).length = 16343 := List.length_replicate
  have hlong : Msgpack.binSize (List.replicate 16343 (0 : UInt8)).length = 16346 := by
    rw [hlen]
    rfl
  have hshort : Msgpack.binSize (List.length ([] : Bytes)) = 2 := rfl
  have hpanics : each Wire.msgpack "ns" located (doc 0 (List.replicate 16343 0)) = .panicked :=
    each_long hw (by omega) (by omega)
  obtain ⟨msg, hsent⟩ : ∃ msg, each Wire.msgpack "ns" located (doc 1 []) = .sent _ msg :=
    each_short hw (by omega)
  refine ⟨fun _ => located, [doc 0 (List.replicate 16343 0), doc 1 []], _, _, _, _, "10.0.0.1:40000", msg, rfl,
    rfl, rfl, fun p hp => ?_, ?_, ?_⟩
  · obtain rfl | hp := List.mem_cons.mp hp
    · have hle := length_route hw true (List.replicate 16343 0) (by rw [hlen]; decide)
      rw [hw.bin] at hle
      exact Nat.le_trans hle (by simp only [Msgpack.binSize] at hlong; omega)
    · cases List.mem_singleton.mp hp
      exact Nat.le_trans (length_route hw true [] (by decide)) (by decide)
  · rw [restore_singleton, hsent]
  · refine (restore_cons_of_ends ?_).trans (congrArg ([·]) hpanics)
    rw [hpanics]
    trivial

end PushToGate

namespace Cluster

open PushToGate

variable {ρ : Type} {w : Wire ρ} {k : ClientSdk.Codec} {s : Cluster} {i : Nat} {h : Handler} {p : Push}

def found (s : Cluster) : Found :=
  ⟨s.redis, s.gGateAddrMap, s.clients⟩

-- What is sent to a gate in a run of the handler is what it has on the wire.
theorem exec_pushToGate {connID : ConnId} {msg : Bytes} (hi : s.handlers[i]? = some h)
    (hp : h.toGate = some (p, .start p)) (hs : pushToGate w s.nameSpace s.found p = .sent connID msg) :
    ∃ s' m, Exec (Step k) s (toGateEvents i) s' ∧ s'.p2g = s.p2g ++ [(connID, m)] ∧
      SimpleRpc.messageEncode (PushToGate.p2gPush w m) = some msg := by
  obtain ⟨key, target, clientConnID, hstart, hredis, hfind, hmem, hmsg⟩ := pushToGate_eq_sent hs
  rw [hstart] at hp
  have hget : Step k s (.get i) (s.setHandler i (h.goto (.lookup target))) := by
    have hs := Step.get (k := k) hi hp
    rwa [show s.redis key = some target from hredis] at hs
  have hi₁ := handlers_setHandler hi (h.goto (.lookup target))
  have hp₁ : (h.goto (.lookup target)).toGate = some (p, .lookup target) := Handler.toGate_goto hp
  have hlookup := Step.lookup (k := k) hi₁ hp₁ hfind
  have hi₂ := handlers_setHandler hi₁ ((h.goto (.lookup target)).goto (.send clientConnID connID))
  have hsend := Step.send (k := k) hi₂ (Handler.toGate_goto hp₁) hmem
  exact ⟨_, _, .cons hget <| .cons hlookup <| .single hsend, rfl, hmsg⟩

end Cluster
