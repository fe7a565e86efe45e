import Microservice.ClientSdk.Theorems.Results
import Microservice.ClientSdk.Theorems.Sent
import Microservice.Network.Client
import Microservice.Network.Theorems.Calls

namespace Gate

variable {ρ : Type*} {e : Event ρ} {ts ts' : List (Task ρ)} {α : Type*} {R : Task ρ → α → Prop} {xs : List α}

-- What is said about the tasks, and is about their requests and where they come from, stays true.
theorem TaskStep.forall₂ (h : TaskStep e ts ts') (hR : ∀ t t' x, t'.rpc = t.rpc → t'.src = t.src → R t x → R t' x)
    (hx : List.Forall₂ R ts xs) (he : ∀ src rpc, e ≠ .frame src rpc) : List.Forall₂ R ts' xs := by
  cases h
  case idle       => exact hx
  case frame he'  => exact absurd he' (he _ _)
  case move hi hm =>
    obtain ⟨x, hx', hr⟩ := hx.exists_getElem? hi
    exact hx.set_left hx' (hR _ _ x hm.rpc hm.src hr)

theorem TaskStep.forall₂_frame (h : TaskStep (.frame src rpc) ts ts') (hx : List.Forall₂ R ts xs)
    (hr : R (.new src rpc) x) : List.Forall₂ R ts' (xs ++ [x]) := by
  cases h
  case idle _ he  => exact absurd rfl (he _ _)
  case frame he   => cases he; exact hx.concat hr
  case move hm    => exact nomatch hm.actor

end Gate

namespace Network

variable {ρ : Type} {cfg : Config ρ} {s s' : Network ρ} {ge : Gate.Event ρ}

theorem Step.gate_step (hs : Step cfg s (.gate ge) s') : Gate.Step cfg.gate s.gate ge s'.gate := by
  cases hs <;> assumption

theorem Step.gate_handle (hs : Step cfg s (.handle run) s') : s'.gate = s.gate := by
  cases hs
  rfl

end Network

namespace ClientNetwork

open SdkResults (calls)

variable {ρ : Type} {cfg : Network.Config ρ} {conn : Conn} {s s' : ClientNetwork ρ} {e : Event ρ}
variable {es : List (Event ρ)} {ne : Network.Event ρ} {ce : SdkResults.Event ρ} {i : Nat}
variable {nes : List (Network.Event ρ)} {ces : List (SdkResults.Event ρ)} {c c' : SdkResults ρ}
variable {req : Gate.RouteReq} {rsp : RpcG2CRpcRspReq ρ} {net' : Network ρ}

def Event.netEvent : Event ρ → Option (Network.Event ρ)
  | .net e    => some e
  | .client _ => none

def Event.clientEvent : Event ρ → Option (SdkResults.Event ρ)
  | .net _    => none
  | .client e => some e

def netEvents (es : List (Event ρ)) : List (Network.Event ρ) :=
  es.filterMap Event.netEvent

def clientEvents (es : List (Event ρ)) : List (SdkResults.Event ρ) :=
  es.filterMap Event.clientEvent

-- A step under the assumptions on the network.
structure Assumed (cfg : Network.Config ρ) (conn : Conn) (s : ClientNetwork ρ) (e : Event ρ)
    (s' : ClientNetwork ρ) : Prop where
  step    : Step cfg conn s e s'
  noReuse : s.net.gate.NoReuse
  plain   : ∀ ge call, e = .net (.gate ge) → Network.forwarded ge = some call → Network.Plain cfg call.innerRpc

-- The client has sent the request for a call.
def Asked (ces : List (SdkResults.Event ρ)) (c : SdkResults ρ) (i : Nat) (req : Gate.RouteReq) : Prop :=
  ∃ q rid, c.reqs[i]? = some q ∧ req = q.route rid ∧ .step (.sent i rid) ∈ ces

theorem Asked.snoc (h : Asked ces c i req) (hs : SdkResults.Step c ce c') : Asked (ces ++ [ce]) c' i req := by
  obtain ⟨q, rid, hq, hr, hm⟩ := h
  exact ⟨q, rid, hs.reqs hq, hr, List.mem_append_left _ hm⟩

-- What a task of the gate has to do with the client. Over its connection, there is what is for a call and what
-- the client sends by itself.
def Fits (conn : Conn) (ces : List (SdkResults.Event ρ)) (c : SdkResults ρ) (t : Gate.Task ρ) : Option Nat → Prop
  | some i => ∃ req, t.rpc = .route req ∧ Asked ces c i req
  | none   => t.src.conn = conn → Own t.rpc

theorem Fits.congr {t t' : Gate.Task ρ} {o : Option Nat} (hrpc : t'.rpc = t.rpc) (hsrc : t'.src = t.src)
    (h : Fits conn ces c t o) : Fits conn ces c t' o := by
  cases o <;> simpa only [Fits, hrpc, hsrc] using h

theorem Fits.snoc {t : Gate.Task ρ} {o : Option Nat} (hs : SdkResults.Step c ce c') (h : Fits conn ces c t o) :
    Fits conn (ces ++ [ce]) c' t o := by
  cases o
  case none   => exact h
  case some i =>
    obtain ⟨req, hr, ha⟩ := h
    exact ⟨req, hr, ha.snoc hs⟩

-- The gate has sent the response to the client.
def Responded (conn : Conn) (nes : List (Network.Event ρ)) (rsp : RpcG2CRpcRspReq ρ) : Prop :=
  ∃ j, .gate (.send j conn (.g2cRpcRsp rsp.rid rsp.error rsp.reply)) ∈ nes

theorem Responded.snoc (h : Responded conn nes rsp) : Responded conn (nes ++ [ne]) rsp := by
  obtain ⟨j, hm⟩ := h
  exact ⟨j, List.mem_append_left _ hm⟩

def sends (i : Nat) : SdkResults.Event ρ → Bool :=
  fun ce => SdkCalls.Event.sends i ce.sdk

-- What is between the client and the gate comes from where it should.
structure Inv (conn : Conn) (nes : List (Network.Event ρ)) (ces : List (SdkResults.Event ρ))
    (s : ClientNetwork ρ) : Prop where
  up    : ∀ i req, (i, req) ∈ s.up → Asked ces s.client i req
  tasks : List.Forall₂ (Fits conn ces s.client) s.net.gate.tasks s.origins
  count : ∀ i, s.up.countP (·.1 = i) + s.origins.count (some i) = ces.countP (sends i)
  down  : ∀ rsp ∈ s.down, Responded conn nes rsp
  got   : ∀ h rsp call, .get h rsp call ∈ ces → Responded conn nes rsp

theorem init_inv : Inv conn [] [] (init : ClientNetwork ρ) where
  up    := by simp [init]
  tasks := .nil
  count := by simp [init]
  down  := by simp [init]
  got   := by simp

-- A step of the network in which the gate reads nothing.
theorem Inv.net_tasks (h : Inv conn nes ces s) (hs : Network.Step cfg s.net ne net') (hf : frameSrc ne = none) :
    List.Forall₂ (Fits conn ces s.client) net'.gate.tasks s.origins := by
  cases ne
  case handle  => exact hs.gate_handle ▸ h.tasks
  case gate ge =>
    refine hs.gate_step.act.taskStep.forall₂ (fun _ _ _ => Fits.congr) h.tasks ?_
    rintro src rpc rfl
    cases hf

theorem Inv.net (h : Inv conn nes ces s) (hs : Network.Step cfg s.net ne net') (hf : frameSrc ne = none) :
    Inv conn (nes ++ [ne]) ces { s with net := net' } where
  up              := h.up
  tasks           := h.net_tasks hs hf
  count           := h.count
  down rsp hm     := (h.down rsp hm).snoc
  got k rsp cb hm := (h.got k rsp cb hm).snoc

-- The gate reads something that is for a call of the client or not.
theorem Inv.frame (h : Inv conn nes ces s) (hs : Network.Step cfg s.net (.gate (.frame src rpc)) net')
    (hf : Fits conn ces s.client (.new src rpc) o) (hu : us ⊆ s.up)
    (hc : ∀ i, us.countP (·.1 = i) + [o].count (some i) = s.up.countP (·.1 = i)) :
    Inv conn (nes ++ [.gate (.frame src rpc)]) ces
      { s with net := net', up := us, origins := s.origins ++ [o] } where
  up i req hm     := h.up i req (hu hm)
  tasks           := hs.gate_step.act.taskStep.forall₂_frame h.tasks hf
  count i         := by
    show us.countP (·.1 = i) + (s.origins ++ [o]).count (some i) = _
    rw [List.count_append, ← h.count i, ← hc i]
    omega
  down rsp hm     := (h.down rsp hm).snoc
  got k rsp cb hm := (h.got k rsp cb hm).snoc

theorem eq_frame_of_frameSrc (h : frameSrc ne = some src) : ∃ rpc, ne = .gate (.frame src rpc) := by
  unfold frameSrc at h
  split at h <;> cases h
  exact ⟨_, rfl⟩

theorem frameSrc_of_rspTo (h : Network.rspTo conn ne = some x) : frameSrc ne = none := by
  obtain ⟨rid, err, reply⟩ := x
  obtain ⟨j, rfl⟩ := Network.eq_of_rspTo h
  rfl

theorem Inv.response (h : Inv conn nes ces s) (hs : Network.Step cfg s.net ne net')
    (hr : Network.rspTo conn ne = some (rsp.rid, rsp.error, rsp.reply)) :
    Inv conn (nes ++ [ne]) ces { s with net := net', down := s.down ++ [rsp] } := by
  obtain ⟨hup, htasks, hcount, hdown, hgot⟩ := h.net hs (frameSrc_of_rspTo hr)
  refine ⟨hup, htasks, hcount, fun rsp' hm => ?_, hgot⟩
  obtain hm | hm := List.mem_append.mp hm
  · exact hdown rsp' hm
  · cases List.mem_singleton.mp hm
    obtain ⟨j, rfl⟩ := Network.eq_of_rspTo hr
    exact ⟨j, List.mem_append_right _ (List.mem_singleton.mpr rfl)⟩

-- A step of the client that sends nothing. It may have got one of the responses.
theorem Inv.client (h : Inv conn nes ces s) (hs : SdkResults.Step s.client ce c') (he : ∀ i, sends i ce = false)
    (hd : ds ⊆ s.down) (hg : ∀ k rsp cb, ce = .get k rsp cb → rsp ∈ s.down) :
    Inv conn nes (ces ++ [ce]) { s with client := c', down := ds } where
  up i req hm     := (h.up i req hm).snoc hs
  tasks           := h.tasks.imp fun _ _ => Fits.snoc hs
  count i         := by
    rw [List.countP_append, List.countP_singleton, he i]
    exact h.count i
  down rsp hm     := h.down rsp (hd hm)
  got k rsp cb hm := by
    obtain hm | hm := List.mem_append.mp hm
    · exact h.got k rsp cb hm
    · exact h.down rsp (hg k rsp cb (List.mem_singleton.mp hm).symm)

theorem Inv.send (h : Inv conn nes ces s) (hs : SdkResults.Step s.client (.step (.sent i rid)) c')
    (hq : s.client.reqs[i]? = some q) :
    Inv conn nes (ces ++ [.step (.sent i rid)]) { s with client := c', up := s.up ++ [(i, q.route rid)] } where
  up j req hm     := by
    obtain hm | hm := List.mem_append.mp hm
    · exact (h.up j req hm).snoc hs
    · cases List.mem_singleton.mp hm
      exact ⟨q, rid, hs.reqs hq, rfl, List.mem_append_right _ (List.mem_singleton.mpr rfl)⟩
  tasks           := h.tasks.imp fun _ _ => Fits.snoc hs
  count j         := by
    have hsend : sends j (.step (.sent i rid) : SdkResults.Event ρ) = decide (i = j) := rfl
    show (s.up ++ [(i, q.route rid)]).countP (·.1 = j) + s.origins.count (some j) = _
    rw [List.countP_append, List.countP_append, List.countP_singleton, List.countP_singleton, hsend, ← h.count j]
    exact Nat.add_right_comm ..
  down            := h.down
  got k rsp cb hm := by
    obtain hm | hm := List.mem_append.mp hm
    · exact h.got k rsp cb hm
    · cases List.mem_singleton.mp hm

theorem fits_own {rpc : Gate.Rpc ρ} (h : Own rpc) : Fits conn ces c (.new src rpc) none := by
  intro _
  cases rpc <;> first | exact h | exact h.elim

theorem not_sends (h : ¬Linked ce) : sends i ce = false := by
  cases ce <;> try rfl
  case step ev => cases ev <;> first | rfl | exact (h trivial).elim

theorem Step.inv (hs : Step cfg conn s e s') (h : Inv conn (netEvents es) (clientEvents es) s) :
    Inv conn (netEvents (es ++ [e])) (clientEvents (es ++ [e])) s' := by
  simp only [netEvents, clientEvents, List.filterMap_append] at h ⊢
  cases hs <;> simp only [Event.netEvent, Event.clientEvent, List.filterMap_cons, List.filterMap_nil,
    List.append_nil]
  case net hs hf _ => exact h.net hs hf
  case other hs hf hc =>
    obtain ⟨rpc, rfl⟩ := eq_frame_of_frameSrc hf
    exact h.frame hs (fun hc' => absurd hc' hc) (List.Subset.refl _) (by simp)
  case own hs ho => exact h.frame hs (fits_own ho) (List.Subset.refl _) (by simp)
  case request hu hs =>
    refine h.frame hs ⟨_, rfl, h.up _ _ (by simp [hu])⟩ (by simp [hu]) fun i => ?_
    simp only [hu, List.countP_append, List.countP_cons, List.count_singleton, beq_iff_eq, Option.some.injEq,
      decide_eq_true_eq]
    omega
  case response hs hr => exact h.response hs hr
  case client hs hl =>
    refine h.client hs (fun _ => not_sends hl) (List.Subset.refl _) ?_
    rintro k rsp cb rfl
    exact (hl trivial).elim
  case send hs hq => exact h.send hs hq
  case get hd hs =>
    refine h.client hs (fun _ => rfl) (by simp [hd]) ?_
    rintro _ _ _ ⟨⟩
    simp [hd]

theorem inv_of_exec (h : Exec (Assumed cfg conn) init es s) : Inv conn (netEvents es) (clientEvents es) s :=
  h.invariant (I := fun es s => Inv conn (netEvents es) (clientEvents es) s) init_inv
    fun _ _ _ _ _ hi ha => ha.step.inv hi

-- A request with an id is for the call whose callback was registered under it.
theorem Inv.origin {k : Nat} {t : Gate.Task ρ} (h : Inv conn nes ces s) (hx : Exec SdkResults.Step .init ces s.client)
    (hd : SdkCalls.Drawn (calls ces) s.client.sdk) (hk : s.net.gate.At k t) (hr : t.rpc = .route req)
    (hc : t.src.conn = conn) (hreg : .step (.register i req.rid endTime) ∈ ces) :
    s.origins[k]? = some (some i) ∧ ∃ q rid, s.client.reqs[i]? = some q ∧ req = q.route rid := by
  have hreg := SdkResults.mem_calls hreg
  have hne : req.rid ≠ 0 := (hd.bound _ (SdkCalls.mem_registered hreg)).1
  obtain ⟨o, ho, hf⟩ := h.tasks.exists_getElem? hk
  cases o
  case none    =>
    have ho := hf hc
    rw [hr] at ho
    exact absurd ho hne
  case some i' =>
    obtain ⟨req', hr', q, rid, hq, rfl, hm⟩ := hf
    cases hr.symm.trans hr'
    obtain ⟨endTime', hreg'⟩ :=
      (SdkCalls.sending_of_exec (SdkResults.sdk_exec hx)).sent i' rid (SdkResults.mem_calls hm) hne
    obtain rfl : i = i' := hd.register_unique hreg hreg'
    exact ⟨ho, q, rid, hq, rfl⟩

-- The client sends no response by itself.
theorem Inv.other {k : Nat} {t : Gate.Task ρ} (h : Inv conn nes ces s) (hk : s.net.gate.At k t)
    (hr : t.rpc = .rsp grid err reply) : t.src.conn ≠ conn := by
  intro hc
  obtain ⟨o, _, hf⟩ := h.tasks.exists_getElem? hk
  cases o
  case none   =>
    have ho := hf hc
    rw [hr] at ho
    exact ho
  case some i =>
    obtain ⟨req, hr', _⟩ := hf
    cases hr.symm.trans hr'

-- A step of the network that the client has no part in, and that meets the conditions of `Assumed`.
def quiet (cfg : Network.Config ρ) (conn : Conn) (n : Network ρ) (ne : Network.Event ρ) : Bool :=
  Network.assumedFor cfg conn n ne && (frameSrc ne).isNone && (Network.rspTo conn ne).isNone

theorem Assumed.of_assumedFor (hs : Step cfg conn s (.net ne) s')
    (h : Network.Step cfg s.net ne s'.net ∧ Network.assumedFor cfg conn s.net ne = true) :
    Assumed cfg conn s (.net ne) s' := by
  have ha := Network.Assumed.of_assumedFor h
  exact ⟨hs, ha.noReuse, fun ge call he => ha.plain ge call (by cases he; rfl)⟩

theorem exec_of_replay {n n' : Network ρ} (xs : List (Network.Turn ρ))
    (h : Network.replay cfg (quiet cfg conn) now xs n = some (nes, n')) :
    Exec (Assumed cfg conn) ⟨n, c, us, ds, os⟩ (nes.map .net) ⟨n', c, us, ds, os⟩ := by
  refine (Network.exec_of_replay xs h).map (ClientNetwork.mk · c us ds os) Event.net fun n ne n' hq => ?_
  obtain ⟨hs, hq⟩ := hq
  simp only [quiet, Bool.and_eq_true, Option.isNone_iff_eq_none] at hq
  exact .of_assumedFor (.net hs hq.1.2 hq.2) ⟨hs, hq.1.1⟩

def demoReq : SdkReq :=
  ⟨"n", "s", false, "x", RpcHandle.demoRpc⟩

end ClientNetwork
