import Microservice.Framework.Theorems.RpcResults

namespace RpcCall.Invocation.Grows

variable {ρ : Type} {a b c : Invocation ρ}

theorem trans (h : a.Grows b) (h' : b.Grows c) : a.Grows c where
  serviceName := h'.serviceName.trans h.serviceName
  rpcName     := h'.rpcName.trans h.rpcName
  rid         := h'.rid.trans h.rid
  reSendCnt   := h'.reSendCnt.trans h.reSendCnt
  drawn       := h'.drawn.trans h.drawn
  outcome o   := h'.outcome o ∘ h.outcome o
  result r    := h'.result r ∘ h.result r

end RpcCall.Invocation.Grows

namespace RpcResults

open RpcCall

variable {ρ : Type} {ns serviceName rpcName : String} {s s' s₁ : RpcResults ρ} {e : Event ρ}
  {es es₁ es₂ : List (Event ρ)} {a a' b : Invocation ρ} {i j k : Nat} {is : List Nat} {d d' : Nat}

def rid (s : RpcResults ρ) (i : Nat) : Option UInt32 :=
  s.invocations[i]?.map Invocation.rid

theorem rid_eq (hi : s.invocations[i]? = some a) : s.rid i = some a.rid := by
  simp [rid, hi]

theorem exec_grows (h : Exec (Step ns) s es s') (hf : s.Fitting) (hi : s.invocations[i]? = some a) :
    ∃ a', s'.invocations[i]? = some a' ∧ a.Grows a' := by
  refine (h.preserves (I := fun s => s.Fitting ∧ ∃ a', s.invocations[i]? = some a' ∧ a.Grows a')
    ⟨hf, a, hi, .refl⟩ ?_).2
  rintro s e s' ⟨hf, a', hi', hg⟩ hs
  obtain ⟨a'', hi'', hg'⟩ := hs.grows hf hi'
  exact ⟨hs.fitting hf, a'', hi'', hg.trans hg'⟩

theorem Step.draws (hs : Step ns s e s') :
    (s'.draws = s.draws ∧ s'.rpc.globalGID = s.rpc.globalGID) ∨
    (s'.draws = s.draws + 1 ∧ s'.rpc.globalGID = s.rpc.globalGID + 1) := by
  cases hs
  case rpcCall                         => exact .inl ⟨rfl, rfl⟩
  case rpcCallSync | genGid            => exact .inr ⟨rfl, rfl⟩
  case get hr                          => cases hr <;> exact .inl ⟨rfl, rfl⟩
  case resend hr _                     => cases hr; exact .inr ⟨rfl, rfl⟩
  case innerReturned hr _ _ _          => cases hr; exact .inl ⟨rfl, rfl⟩
  case ended hr he _                   =>
    refine .inl ⟨rfl, ?_⟩
    cases hr <;> first | rfl | cases he
  case step hr hc _ hrec               =>
    refine .inl ⟨rfl, ?_⟩
    cases hr <;> first | rfl | exact hc.elim | exact absurd trivial hrec

-- The ids that were drawn for invocations, by the numbers of the draws.
structure Counted (s : RpcResults ρ) : Prop where
  globalGID : s.rpc.globalGID = .ofNat s.draws
  drawn     : ∀ (i : Nat) (a : Invocation ρ) d, s.invocations[i]? = some a → a.drawn = some d →
    d < s.draws ∧ a.rid = .ofNat (d + 1)
  order     : ∀ (i j : Nat) (a b : Invocation ρ) d d', s.invocations[i]? = some a →
    s.invocations[j]? = some b → a.drawn = some d → b.drawn = some d' → i < j → d < d'

-- An invocation after a step is one from before, or the one that the step has started.
theorem Step.origin (hs : Step ns s e s') (hf : s.Fitting) (hi : s'.invocations[i]? = some a') :
    (∃ a, s.invocations[i]? = some a ∧ a'.rid = a.rid ∧ a'.drawn = a.drawn) ∨
    (i = s.invocations.length ∧ ∀ d, a'.drawn = some d → d = s.draws ∧ a'.rid = s.rpc.globalGID + 1 ∧
      s'.draws = s.draws + 1) := by
  cases hs.change hf hi
  case same hi                              => exact .inl ⟨a', hi, rfl, rfl⟩
  case started he _ hd                      => exact .inr ⟨he, hd⟩
  case ended a _ hi _ he _                  => exact .inl ⟨a, hi, by rw [he]; rfl, by rw [he]; rfl⟩
  case resent a _ _ hi _ he _ _ _ _         => exact .inl ⟨a, hi, by rw [he]; rfl, by rw [he]; rfl⟩
  case returned a _ _ hi _ _ _ he           => exact .inl ⟨a, hi, by rw [he], by rw [he]⟩

theorem Step.counted (hs : Step ns s e s') (hf : s.Fitting) (h : s.Counted) : s'.Counted := by
  have hle : s.draws ≤ s'.draws := by obtain ⟨hd, _⟩ | ⟨hd, _⟩ := hs.draws <;> omega
  constructor
  case globalGID =>
    obtain ⟨hd, hg⟩ | ⟨hd, hg⟩ := hs.draws
    · rw [hd, hg, h.globalGID]
    · rw [hd, hg, h.globalGID, UInt32.ofNat_add]
      rfl
  case drawn =>
    intro i a' d hi hd
    obtain ⟨a, ha, hr, hd'⟩ | ⟨_, hnew⟩ := hs.origin hf hi
    · obtain ⟨hlt, hrid⟩ := h.drawn i a d ha (hd' ▸ hd)
      exact ⟨Nat.lt_of_lt_of_le hlt hle, hr.trans hrid⟩
    · obtain ⟨rfl, hr, hdraws⟩ := hnew d hd
      rw [hr, h.globalGID, UInt32.ofNat_add]
      exact ⟨by omega, rfl⟩
  case order =>
    intro i j a' b' d d' hi hj hd hd' hij
    obtain ⟨a, ha, _, hda⟩ | ⟨rfl, _⟩ := hs.origin hf hi <;>
      obtain ⟨b, hb, _, hdb⟩ | ⟨rfl, hnew⟩ := hs.origin hf hj
    · exact h.order i j a b d d' ha hb (hda ▸ hd) (hdb ▸ hd') hij
    · obtain ⟨rfl, _⟩ := hnew d' hd'
      exact (h.drawn i a d ha (hda ▸ hd)).1
    · have hl := (List.getElem?_eq_some_iff.mp hb).1
      omega
    · omega

theorem init_counted : (init : RpcResults ρ).Counted :=
  ⟨rfl, by simp [init], by simp [init]⟩

theorem counted_of_exec (h : Exec (Step ns) init es s) : s.Counted := by
  refine (h.preserves (I := fun s => s.Fitting ∧ s.Counted) ⟨.nil, init_counted⟩ ?_).2
  rintro s e s' ⟨hf, hc⟩ hs
  exact ⟨hs.fitting hf, hs.counted hf hc⟩

-- The id of the invocation was drawn, and `GenGid` has not wrapped since.
def Current (s : RpcResults ρ) (i : Nat) : Prop :=
  ∃ a d, s.invocations[i]? = some a ∧ a.drawn = some d ∧ d / 2 ^ 32 = s.draws / 2 ^ 32

theorem ofNat_ne_ofNat {n m N : Nat} (hn : n < N) (hm : m < N) (hnN : n / 2 ^ 32 = N / 2 ^ 32)
    (hmN : m / 2 ^ 32 = N / 2 ^ 32) (h : n ≠ m) : UInt32.ofNat (n + 1) ≠ UInt32.ofNat (m + 1) := by
  intro he
  have he := congrArg UInt32.toNat he
  simp only [UInt32.toNat_ofNat'] at he
  omega

theorem Counted.rid_ne (h : s.Counted) (hi : s.Current i) (hj : s.Current j) (hij : i ≠ j) :
    s.rid i ≠ s.rid j := by
  obtain ⟨a, d, ha, hd, hw⟩ := hi
  obtain ⟨b, d', hb, hd', hw'⟩ := hj
  have ⟨hlt, hr⟩ := h.drawn i a d ha hd
  have ⟨hlt', hr'⟩ := h.drawn j b d' hb hd'
  have hne : d ≠ d' := by
    obtain hlt | hlt := Nat.lt_or_gt_of_ne hij
    · exact Nat.ne_of_lt (h.order i j a b d d' ha hb hd hd' hlt)
    · exact Nat.ne_of_gt (h.order j i b a d' d hb ha hd' hd hlt)
  rw [rid_eq ha, rid_eq hb, hr, hr']
  exact fun he => ofNat_ne_ofNat hlt hlt' hw hw' hne (Option.some.inj he)

theorem Counted.rid_ne_zero (h : s.Counted) (hi : s.Current i) (ha : s.invocations[i]? = some a) :
    a.rid ≠ 0 := by
  obtain ⟨a', d, ha', hd, hw⟩ := hi
  cases ha.symm.trans ha'
  have ⟨hlt, hr⟩ := h.drawn i a d ha hd
  rw [hr]
  intro he
  have he := congrArg UInt32.toNat he
  simp only [UInt32.toNat_ofNat', UInt32.toNat_zero] at he
  omega

-- The attempts have increasing numbers, and the ids of all but the first were drawn.
theorem Inv.attempts_order (h : Inv ns es s) (hat : s.Attempts i is) :
    is.Pairwise (· < ·) ∧ ∀ k ∈ is, k = i ∨ i < k ∧ ∃ b d, s.invocations[k]? = some b ∧ b.drawn = some d := by
  induction hat
  case last i a hi ho => simp
  case resent i a j is hi ho hat ih =>
    obtain ⟨hij, _, _, b, hj, _, hd, _⟩ := (h.sound i a hi).resent j ho
    obtain ⟨d, hd⟩ := Option.ne_none_iff_exists'.mp hd
    have hlt k (hk : k ∈ is) : i < k ∧ ∃ b d, s.invocations[k]? = some b ∧ b.drawn = some d := by
      obtain rfl | ⟨hjk, hb⟩ := ih.2 k hk
      · exact ⟨hij, b, d, hj, hd⟩
      · exact ⟨Nat.lt_trans hij hjk, hb⟩
    refine ⟨List.pairwise_cons.mpr ⟨fun k hk => (hlt k hk).1, ih.1⟩, fun k hk => ?_⟩
    obtain rfl | hk := List.mem_cons.mp hk
    · exact .inl rfl
    · exact .inr (hlt k hk)

theorem toInt_sub_one {n : Int8} (h : 0 < n) : (n - 1).toInt = n.toInt - 1 := by
  have hlt := Int8.toInt_lt n
  have hpos : 0 < n.toInt := Int8.lt_iff_toInt_lt.mp h
  rw [Int8.toInt_sub, Int8.toInt_one, Int.bmod_eq_of_le (by omega) (by omega)]

-- There is one attempt more than resends at most.
theorem Inv.attempts_length (h : Inv ns es s) (hat : s.Attempts i is) (hi : s.invocations[i]? = some a) :
    (is.length : Int) ≤ max a.reSendCnt.toInt 0 + 1 := by
  induction hat generalizing a
  case last =>
    rw [List.length_singleton]
    omega
  case resent i c j is hi' ho hat ih =>
    cases hi.symm.trans hi'
    obtain ⟨_, _, hn, b, hj, hcnt, _⟩ := (h.sound i c hi).resent j ho
    have hb := ih hj
    have hpos : 0 < c.reSendCnt.toInt := Int8.lt_iff_toInt_lt.mp hn
    rw [hcnt, toInt_sub_one hn] at hb
    rw [List.length_cons]
    omega

-- All attempts are for the same rpc.
theorem Inv.attempts_names (h : Inv ns es s) (hat : s.Attempts i is) (hi : s.invocations[i]? = some a)
    (hk : k ∈ is) (hb : s.invocations[k]? = some b) :
    b.serviceName = a.serviceName ∧ b.rpcName = a.rpcName := by
  induction hat generalizing a
  case last =>
    cases List.mem_singleton.mp hk
    cases hi.symm.trans hb
    exact ⟨rfl, rfl⟩
  case resent i c j is hi' ho hat ih =>
    cases hi.symm.trans hi'
    obtain rfl | hk := List.mem_cons.mp hk
    · cases hi.symm.trans hb
      exact ⟨rfl, rfl⟩
    · obtain ⟨_, _, _, c', hj, _, _, hsn, hrn, _⟩ := (h.sound i c hi).resent j ho
      have ⟨h₁, h₂⟩ := ih hj hk
      exact ⟨h₁.trans hsn, h₂.trans hrn⟩

-- An invocation of `RpcCallSync` later in the run.
theorem exists_rpcCallSync (h₁ : Exec (Step ns) init es₁ s₁)
    (h₂ : Exec (Step ns) (s₁.rpcCallSync serviceName rpcName) es₂ s) :
    ∃ a, s.invocations[s₁.invocations.length]? = some a ∧ a.serviceName = serviceName ∧
      a.rpcName = rpcName ∧ a.reSendCnt = 3 ∧ a.drawn = some s₁.draws := by
  have hs : Step ns s₁ (.rpcCallSync serviceName rpcName) (s₁.rpcCallSync serviceName rpcName) := .rpcCallSync
  have hf := hs.fitting (inv_of_exec h₁).fitting
  obtain ⟨a, hi, hg⟩ := exec_grows h₂ hf List.getElem?_concat_length
  exact ⟨a, hi, hg.serviceName, hg.rpcName, hg.reSendCnt, hg.drawn⟩

-- While `GenGid` does not wrap, the ids of all attempts are current ones.
theorem Inv.attempts_current (h : Inv ns es s) (hc : s.Counted) (hat : s.Attempts i is)
    (hi : s.invocations[i]? = some a) (hd : a.drawn = some d) (hw : s.draws / 2 ^ 32 = d / 2 ^ 32)
    (hk : k ∈ is) : s.Current k := by
  obtain rfl | ⟨hik, b, d', hb, hd'⟩ := (h.attempts_order hat).2 k hk
  · exact ⟨a, d, hi, hd, hw.symm⟩
  · have hlt := hc.order i k a b d d' hi hb hd hd' hik
    have hlt' := (hc.drawn k b d' hb hd').1
    exact ⟨b, d', hb, hd', by omega⟩

-- The replies to the attempts of a call are kept apart.
structure Apart (ns serviceName rpcName : String) (es : List (Event ρ)) (s : RpcResults ρ) (i : Nat)
    (is : List Nat) : Prop where
  length    : is.length ≤ 4
  rids      : (is.map s.rid).Nodup
  -- An attempt is made when the callback of the one before has timed out, and not earlier.
  timedOut  : ∀ k ∈ is, ∀ j, s.outcome k = some (.resent j) → ∃ rid, s.rid k = some rid ∧ Resent ns es k rid j
  -- If every send succeeds, the call returns a response for the last attempt, or the timeout of it.
  returned  : (∀ k ∈ is, s.outcome k ≠ some .noClient ∧ s.outcome k ≠ some .sendFailed) →
    ∀ a err reply, s.invocations[i]? = some a → a.result = some (err, reply) →
    ∃ l b, is.getLast? = some l ∧ s.invocations[l]? = some b ∧
      ((∃ h rsp, .get h rsp (some l) ∈ es ∧ rsp.rid = b.rid ∧ err = rsp.error ∧ reply = rsp.reply) ∨
        (b.outcome = some .timedOut ∧ b.serviceName = serviceName ∧ b.rpcName = rpcName ∧
          err = b.timeout ns ∧ reply = none))
  -- A response for an attempt that was resent finds no callback.
  dropped   : ∀ k ∈ is, ∀ j, s.outcome k = some (.resent j) → ∀ h rsp ch s', Step ns s (.get h rsp ch) s' →
    s.rid k = some rsp.rid → ∀ m, ch = some m → ¬s.Current m
  -- No other invocation gets a response for an attempt.
  delivered : ∀ k ∈ is, ∀ m rsp, m ≠ k → s.Current m → s.outcome m = some (.answered rsp) →
    s.rid k ≠ some rsp.rid

-- What `GetCallBack` finds is the callback of an invocation with the id of the response that was not resent.
theorem Inv.get (h : Inv ns es s) (hs : Step ns s (.get k rsp (some j)) s') :
    s.rid j = some rsp.rid ∧ ∀ m, s.outcome j ≠ some (.resent m) := by
  cases hs
  case get hr =>
    cases hr
    case get node _ hg =>
      obtain ⟨a, ha, hrid, ho⟩ := h.wired.entry _ _ _ hg
      exact ⟨by rw [rid_eq ha, hrid], fun m => outcome_eq ha ▸ ho m⟩

-- What the last attempt was answered, or its timeout, is what the call returns.
theorem Inv.returned (h : Inv ns es s) (hat : s.Attempts i is)
    (hsent : ∀ k ∈ is, s.outcome k ≠ some .noClient ∧ s.outcome k ≠ some .sendFailed)
    (hzero : ∀ k ∈ is, ∀ b, s.invocations[k]? = some b → b.rid ≠ 0)
    (hi : s.invocations[i]? = some a) (hr : a.result = some (err, reply)) :
    ∃ l b, is.getLast? = some l ∧ s.invocations[l]? = some b ∧
      ((∃ h rsp, .get h rsp (some l) ∈ es ∧ rsp.rid = b.rid ∧ err = rsp.error ∧ reply = rsp.reply) ∨
        (b.outcome = some .timedOut ∧ err = b.timeout ns ∧ reply = none)) := by
  obtain ⟨l, b, o, hl, hb, ho, hne, herr, _⟩ := h.last_outcome hat hi hr
  have hmem : l ∈ is := List.mem_of_getLast? hl
  have hlo := (outcome_eq hb).trans ho
  have hsound := h.sound l b hb
  refine ⟨l, b, hl, hb, ?_⟩
  cases o
  case noClient   => exact absurd hlo (hsent l hmem).1
  case sendFailed => exact absurd hlo (hsent l hmem).2
  case async      => exact absurd (hsound.async ho) (hzero l hmem b hb)
  case resent j   => exact absurd rfl (hne j)
  case timedOut   =>
    have he := Prod.mk.inj (Option.some.inj herr)
    exact .inr ⟨ho, he.1.symm, he.2.symm⟩
  case answered rsp =>
    have he := Prod.mk.inj (Option.some.inj herr)
    obtain ⟨hrid, k, hk⟩ := hsound.answered rsp ho
    exact .inl ⟨k, rsp, hk, hrid, he.1.symm, he.2.symm⟩

-- From the start of the call on, as long as `GenGid` does not wrap.
theorem rpcCallSync_apart (h₁ : Exec (Step ns) init es₁ s₁)
    (h₂ : Exec (Step ns) (s₁.rpcCallSync serviceName rpcName) es₂ s)
    (hw : s.draws / 2 ^ 32 = s₁.draws / 2 ^ 32) :
    ∃ is, s.Attempts s₁.invocations.length is ∧
      Apart ns serviceName rpcName (es₁ ++ .rpcCallSync serviceName rpcName :: es₂) s
        s₁.invocations.length is := by
  have h : Exec (Step ns) init (es₁ ++ .rpcCallSync serviceName rpcName :: es₂) s :=
    h₁.trans (h₂.cons .rpcCallSync)
  have hinv := inv_of_exec h
  have hc := counted_of_exec h
  obtain ⟨a, hi, hsn, hrn, hcnt, hd⟩ := exists_rpcCallSync h₁ h₂
  obtain ⟨is, hat⟩ := hinv.attempts hi
  have hcur k (hk : k ∈ is) : s.Current k := hinv.attempts_current hc hat hi hd hw hk
  refine ⟨is, hat, ?_⟩
  constructor
  case length =>
    have hlen := hinv.attempts_length hat hi
    have h3 : Int8.toInt 3 = 3 := by decide
    rw [hcnt, h3] at hlen
    omega
  case rids =>
    refine List.Nodup.map_on (fun k hk m hm he => ?_) ((hinv.attempts_order hat).1.imp Nat.ne_of_lt)
    by_contra hne
    exact hc.rid_ne (hcur k hk) (hcur m hm) hne he
  case timedOut =>
    intro k hk j ho
    obtain ⟨b, _, hb, _⟩ := hcur k hk
    exact ⟨b.rid, rid_eq hb, ((hinv.sound k b hb).resent j (outcome_eq hb ▸ ho)).2.1⟩
  case returned =>
    intro hsent a' err reply hi' hr
    obtain ⟨l, b, hl, hb, hcases⟩ := hinv.returned hat hsent
      (fun k hk b hb => hc.rid_ne_zero (hcur k hk) hb) hi' hr
    obtain ⟨hbs, hbn⟩ := hinv.attempts_names hat hi (List.mem_of_getLast? hl) hb
    refine ⟨l, b, hl, hb, hcases.imp_right fun ⟨ho, he, hrep⟩ => ?_⟩
    exact ⟨ho, hbs.trans hsn, hbn.trans hrn, he, hrep⟩
  case dropped =>
    intro k hk j ho h rsp ch s' hs hrid m hm hcm
    subst hm
    have ⟨hrm, hom⟩ := hinv.get hs
    have hne : k ≠ m := by
      rintro rfl
      exact hom j ho
    exact hc.rid_ne (hcur k hk) hcm hne (hrid.trans hrm.symm)
  case delivered =>
    intro k hk m rsp hne hcm ho hrid
    obtain ⟨b, _, hb, _⟩ := hcm
    obtain ⟨hr, _⟩ := (hinv.sound m b hb).answered rsp (outcome_eq hb ▸ ho)
    refine hc.rid_ne (hcur k hk) ⟨b, _, hb, ‹_›⟩ hne.symm ?_
    rw [hrid, rid_eq hb, hr]

-- A call that has made its second attempt.
theorem rpcCallSync_apart_second :
    ∃ es s is, Exec (Step "ns") ((init : RpcResults Unit).rpcCallSync "service" "rpc") es s ∧
      s.draws / 2 ^ 32 = (init : RpcResults Unit).draws / 2 ^ 32 ∧ s.outcome 0 = some (.resent 1) ∧
      s.Attempts 0 is ∧ Apart "ns" "service" "rpc" (.rpcCallSync "service" "rpc" :: es) s 0 is := by
  obtain ⟨es, s, h, hd, ho⟩ : ∃ es s,
      Exec (Step "ns") ((init : RpcResults Unit).rpcCallSync "service" "rpc") es s ∧
      s.draws = 2 ∧ s.outcome 0 = some (.resent 1) := by
    have h₁ := Exec.refl.snoc (show Step "ns" ((init : RpcResults Unit).rpcCallSync "service" "rpc") _ _
      from .step (.register (i := 0) 0 rfl (by decide)) trivial rfl id)
    have h₂ := h₁.snoc (.step (.added (i := 0) rfl (.recvAdd rfl (List.mem_singleton.mpr rfl)))
      trivial rfl id)
    have h₃ := h₂.snoc (.step (.mgr (.queueAdd rfl rfl) trivial) trivial rfl id)
    have h₄ := h₃.snoc (.step (.sent (i := 0) rfl) trivial rfl id)
    have h₅ := h₄.snoc (.step (.mgr (show CallbackMgr.MgrStep _ (.tick 100) _ from .tick rfl) trivial)
      trivial rfl id)
    have h₆ := h₅.snoc (.step (.mgr (.expire rfl (by decide) rfl) trivial) trivial rfl id)
    exact ⟨_, _, h₆.snoc (.resend (.resend (i := 0) (.call rfl rfl) rfl (by decide)) rfl), rfl, rfl⟩
  have hw : s.draws / 2 ^ 32 = (init : RpcResults Unit).draws / 2 ^ 32 := by
    rw [hd]
    decide
  obtain ⟨is, hat, hap⟩ := rpcCallSync_apart .refl h hw
  exact ⟨es, s, is, h, hw, ho, hat, hap⟩

end RpcResults
