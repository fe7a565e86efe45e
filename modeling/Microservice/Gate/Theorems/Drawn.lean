import Microservice.Gate.Theorems.Basic

namespace Gate

section

variable {ρ : Type*}

def Event.draws : Event ρ → Bool
  | .genGid .. => true
  | _          => false

-- How many ids were drawn.
def drawn (es : List (Event ρ)) : Nat :=
  es.countP Event.draws

def Event.registers : Event ρ → Option UInt32
  | .register _ grid .. => some grid
  | _                   => none

-- The ids that were registered.
def registered (es : List (Event ρ)) : List UInt32 :=
  es.filterMap Event.registers

-- How far a task has come with its id, if it has one.
def Phase (ids : List UInt32) (t : Task ρ) : Prop :=
  match t.pc with
  | .drawn _                          => t.grid ≠ 0 ∧ t.grid ∉ ids
  | .adding ..                        => t.grid ≠ 0 ∧ t.grid ∈ ids
  | .sending _ | .finished | .panicked => t.grid ≠ 0 → t.grid ∈ ids
  | .refused _                        => t.grid = 0 ∧ ∀ req, t.rpc = .route req → req.rid ≠ 0
  | _                                 => t.grid = 0

-- The ids of the tasks are distinct, and each of them is registered once.
structure Drawn (es : List (Event ρ)) (g : Gate ρ) : Prop where
  count : g.globalGID.toNat = drawn es
  bound : ∀ i t, g.At i t → t.grid.toNat ≤ drawn es
  inj   : ∀ i j t s, g.At i t → g.At j s → t.grid = s.grid → t.grid ≠ 0 → i = j
  route : ∀ i t, g.At i t → t.grid ≠ 0 → ∃ req, t.rpc = .route req ∧ req.rid ≠ 0
  phase : ∀ i t, g.At i t → Phase (registered es) t
  owner : ∀ grid ∈ registered es, grid ≠ 0 ∧ ∃ i t, g.At i t ∧ t.grid = grid
  nodup : (registered es).Nodup

end

variable {ρ : Type*} {cfg : Config ρ} {g g' : Gate ρ} {e : Event ρ} {es : List (Event ρ)}
variable {i j : Nat} {t t' s : Task ρ}

theorem drawn_snoc : drawn (es ++ [e]) = drawn es + if e.draws then 1 else 0 := by
  simp [drawn, List.countP_append, List.countP_singleton]

theorem registered_snoc : registered (es ++ [e]) = registered es ++ e.registers.toList := by
  cases h : e.registers <;> simp [registered, List.filterMap_append, h]

theorem init_drawn : Drawn [] (init : Gate ρ) where
  count := rfl
  bound := by simp [init]
  inj   := by simp [init]
  route := by simp [init]
  phase := by simp [init]
  owner := by simp [registered]
  nodup := List.nodup_nil

-- A step that neither draws nor registers an id.
theorem Drawn.quiet (h : Drawn es g) (hs : TaskStep e g.tasks g'.tasks)
    (hg : g'.globalGID = g.globalGID) (hd : e.draws = false) (hr : e.registers = none)
    (hp : ∀ i t t', g.At i t → g'.At i t' → Moves e i t t' →
      Phase (registered es) t → Phase (registered es) t') : Drawn (es ++ [e]) g' := by
  have hdr : drawn (es ++ [e]) = drawn es := by simp [drawn_snoc, hd]
  have hre : registered (es ++ [e]) = registered es := by simp [registered_snoc, hr]
  -- A task has its id from before.
  have hold : ∀ i t', g'.At i t' → t'.grid ≠ 0 →
      ∃ t, g.At i t ∧ t.grid = t'.grid ∧ t.rpc = t'.rpc := by
    intro i t' hi hne
    obtain ⟨hi, _⟩ | ⟨_, _, _, _, rfl⟩ | ⟨t, ht, hm⟩ := hs.back hi
    · exact ⟨t', hi, rfl, rfl⟩
    · exact absurd rfl hne
    · refine ⟨t, ht, (hm.grid.resolve_right ?_).symm, hm.rpc.symm⟩
      rintro rfl
      simp [Event.draws] at hd
  constructor
  case count => rw [hdr, hg, h.count]
  case bound =>
    intro i t' hi
    by_cases hne : t'.grid = 0
    case pos => simp [hne]
    case neg =>
      have ⟨t, ht, hgr, _⟩ := hold i t' hi hne
      exact hdr ▸ hgr ▸ h.bound i t ht
  case inj =>
    intro i j t' s' hi hj he hne
    have ⟨t, ht, hgt, _⟩ := hold i t' hi hne
    have ⟨s, hs, hgs, _⟩ := hold j s' hj (he ▸ hne)
    exact h.inj i j t s ht hs (hgt.trans (he.trans hgs.symm)) (hgt ▸ hne)
  case route =>
    intro i t' hi hne
    have ⟨t, ht, hgt, hrpc⟩ := hold i t' hi hne
    exact hrpc ▸ h.route i t ht (hgt ▸ hne)
  case phase =>
    intro i t' hi
    rw [hre]
    obtain ⟨hi, _⟩ | ⟨_, _, _, _, rfl⟩ | ⟨t, ht, hm⟩ := hs.back hi
    · exact h.phase i t' hi
    · exact rfl
    · exact hp i t t' ht hi hm (h.phase i t ht)
  case owner =>
    intro grid hm
    have ⟨hne, i, t, hi, ht⟩ := h.owner grid (hre ▸ hm)
    have ⟨t', hi', hm⟩ := hs.forth hi
    refine ⟨hne, i, t', hi', ?_⟩
    obtain rfl | hm := hm
    · exact ht
    · refine (hm.grid.resolve_right ?_).trans ht
      rintro rfl
      simp [Event.draws] at hd
  case nodup => exact hre ▸ h.nodup

theorem Drawn.idle (h : Drawn es g) (hs : TaskStep e g.tasks g'.tasks) (ha : e.actor = none)
    (hg : g'.globalGID = g.globalGID) : Drawn (es ++ [e]) g' := by
  refine h.quiet hs hg ?_ ?_ fun i t t' _ _ hm => ?_
  · cases e <;> simp_all [Event.actor, Event.draws]
  · cases e <;> simp_all [Event.actor, Event.registers]
  · simp [hm.actor] at ha

theorem Drawn.move (h : Drawn es g) (hs : TaskStep e g.tasks g'.tasks) (ha : e.actor = some i)
    (hi : g.At i t) (ht : g'.tasks = g.tasks.set i t') (hg : g'.globalGID = g.globalGID)
    (hd : e.draws = false) (hr : e.registers = none)
    (hp : Phase (registered es) t → Phase (registered es) t') : Drawn (es ++ [e]) g' := by
  refine h.quiet hs hg hd hr fun j s s' hj hj' hm hph => ?_
  obtain rfl : i = j := by simpa [ha] using hm.actor
  obtain rfl := hi.unique hj
  obtain ⟨_, rfl⟩ | ⟨hn, _⟩ := (at_set hi ht).mp hj'
  · exact hp hph
  · exact absurd rfl hn

theorem Drawn.genGid (h : Drawn es g) (hn : drawn es + 1 < 2 ^ 32) (hi : g.At i t)
    (hrpc : t.rpc = .route req) (hp : t.pc = .choosing c) (hr : req.rid ≠ 0)
    (hts : g'.tasks = g.tasks.set i { t with grid := g.globalGID + 1, pc := .drawn remote })
    (hg : g'.globalGID = g.globalGID + 1) : Drawn (es ++ [.genGid i (g.globalGID + 1)]) g' := by
  have hdr : drawn (es ++ [.genGid i (g.globalGID + 1)]) = drawn es + 1 := by
    simp [drawn_snoc, Event.draws]
  have hre : registered (es ++ [.genGid i (g.globalGID + 1)]) = registered es := by
    simp [registered_snoc, Event.registers]
  have hgid : (g.globalGID + 1).toNat = drawn es + 1 := by
    rw [UInt32.toNat_add, h.count]
    exact Nat.mod_eq_of_lt hn
  have hne : g.globalGID + 1 ≠ 0 := by
    intro h0
    rw [h0] at hgid
    simp at hgid
  have hfresh : ∀ j s, g.At j s → s.grid ≠ g.globalGID + 1 := by
    intro j s hj he
    have hb := h.bound j s hj
    rw [he, hgid] at hb
    omega
  have h0 : t.grid = 0 := by simpa [Phase, hp] using h.phase i t hi
  have hold := fun j s => at_set (j := j) (s := s) hi hts
  constructor
  case count => rw [hdr, hg, hgid]
  case bound =>
    intro j s hj
    rw [hdr]
    obtain ⟨rfl, rfl⟩ | ⟨_, hj⟩ := (hold j s).mp hj
    · exact hgid.le
    · exact Nat.le_succ_of_le (h.bound j s hj)
  case inj =>
    intro j k s u hj hk he hn
    obtain ⟨rfl, rfl⟩ | ⟨_, hj⟩ := (hold j s).mp hj <;> obtain ⟨rfl, rfl⟩ | ⟨_, hk⟩ := (hold k u).mp hk
    · rfl
    · exact absurd he.symm (hfresh k u ‹_›)
    · exact absurd he (hfresh j s ‹_›)
    · exact h.inj j k s u hj hk he hn
  case route =>
    intro j s hj hn
    obtain ⟨rfl, rfl⟩ | ⟨_, hj⟩ := (hold j s).mp hj
    · exact ⟨req, hrpc, hr⟩
    · exact h.route j s hj hn
  case phase =>
    intro j s hj
    rw [hre]
    obtain ⟨rfl, rfl⟩ | ⟨_, hj⟩ := (hold j s).mp hj
    · refine ⟨hne, fun hm => ?_⟩
      have ⟨_, k, u, hk, hu⟩ := h.owner _ hm
      exact hfresh k u hk hu
    · exact h.phase j s hj
  case owner =>
    intro grid hm
    have ⟨hn, j, s, hj, hs⟩ := h.owner grid (hre ▸ hm)
    have hij : i ≠ j := by
      rintro rfl
      obtain rfl := hi.unique hj
      exact hn (hs ▸ h0)
    exact ⟨hn, j, s, (hold j s).mpr (.inr ⟨Ne.symm hij, hj⟩), hs⟩
  case nodup => exact hre ▸ h.nodup

theorem Drawn.register (h : Drawn es g) (hi : g.At i t) (hp : t.pc = .drawn remote)
    (hts : g'.tasks = g.tasks.set i { t with pc := .adding remote node })
    (hg : g'.globalGID = g.globalGID) : Drawn (es ++ [.register i t.grid info endTime]) g' := by
  have hdr : drawn (es ++ [.register i t.grid info endTime]) = drawn es := by
    simp [drawn_snoc, Event.draws]
  have hre : registered (es ++ [.register i t.grid info endTime]) = registered es ++ [t.grid] := by
    simp [registered_snoc, Event.registers]
  obtain ⟨hne, hnm⟩ : t.grid ≠ 0 ∧ t.grid ∉ registered es := by
    simpa [Phase, hp] using h.phase i t hi
  have hold := fun j s => at_set (j := j) (s := s) hi hts
  constructor
  case count => rw [hdr, hg, h.count]
  case bound =>
    intro j s hj
    obtain ⟨rfl, rfl⟩ | ⟨_, hj⟩ := (hold j s).mp hj
    · exact hdr ▸ h.bound j t hi
    · exact hdr ▸ h.bound j s hj
  case inj =>
    intro j k s u hj hk he hn
    obtain ⟨rfl, rfl⟩ | ⟨_, hj⟩ := (hold j s).mp hj <;>
      obtain ⟨rfl, rfl⟩ | ⟨_, hk⟩ := (hold k u).mp hk
    · rfl
    · exact h.inj j k t u hi ‹_› he hn
    · exact h.inj j k s t ‹_› hi he hn
    · exact h.inj j k s u hj hk he hn
  case route =>
    intro j s hj hn
    obtain ⟨rfl, rfl⟩ | ⟨_, hj⟩ := (hold j s).mp hj
    · exact h.route j t hi hn
    · exact h.route j s hj hn
  case phase =>
    intro j s hj
    rw [hre]
    obtain ⟨rfl, rfl⟩ | ⟨hji, hj⟩ := (hold j s).mp hj
    · exact ⟨hne, by simp⟩
    · have hph := h.phase j s hj
      -- The id of another task is another one.
      have hgs : s.grid ≠ t.grid := fun he => hji (h.inj j i s t hj hi he (he ▸ hne))
      cases hsp : s.pc <;> simp_all [Phase]
  case owner =>
    intro grid hm
    obtain hm | rfl := by simpa [hre] using hm
    · have ⟨hn, j, s, hj, hs⟩ := h.owner grid hm
      by_cases hji : j = i
      case pos =>
        subst hji
        obtain rfl := hi.unique hj
        exact ⟨hn, j, _, (hold j _).mpr (.inl ⟨rfl, rfl⟩), hs⟩
      case neg => exact ⟨hn, j, s, (hold j s).mpr (.inr ⟨hji, hj⟩), hs⟩
    · exact ⟨hne, i, _, (hold i _).mpr (.inl ⟨rfl, rfl⟩), rfl⟩
  case nodup =>
    rw [hre]
    exact h.nodup.append (by simp) (by simpa using hnm)

theorem phase_rejected (hr : t.rpc = .route req) (h0 : t.grid = 0) :
    Phase ids { t with pc := rejected req err } := by
  obtain ⟨hp, _⟩ | ⟨hp, hrid⟩ := rejected_cases req err <;> simp_all [Phase]

theorem Act.drawn (ha : Act cfg g e g') (hn : drawn (es ++ [e]) < 2 ^ 32) (h : Drawn es g) :
    Drawn (es ++ [e]) g' := by
  have hts := ha.taskStep
  cases ha
  case accept | close | rmgr | mgr | frame => exact h.idle hts rfl rfl
  case genGid hrpc hp hr hi =>
    exact h.genGid (by simpa [drawn_snoc, Event.draws] using hn) hi.1 hrpc hp hr rfl rfl
  case register _ hp _ hi => exact h.register hi.1 hp rfl rfl
  case take hi _ => exact h.move hts rfl hi rfl rfl rfl rfl id
  case send ho _ hi | tooLong ho _ hi =>
    refine h.move hts rfl hi.1 rfl rfl rfl rfl fun hph => ?_
    obtain ⟨_, _, _, hp, _⟩ | ⟨_, _, _, hp, _⟩ | ⟨_, _, _, _, _, hp, _⟩ | ⟨_, _, _, _, _, hp, _⟩ :=
      Task.outgoing_cases ho <;> simp_all [Phase]
  case refuse hrpc hp hi _ | notExist hrpc hp _ hi =>
    refine h.move hts rfl hi.1 rfl rfl rfl rfl fun hph => phase_rejected hrpc ?_
    simpa [Phase, hp] using hph
  all_goals
    rename g.Runs _ _ => hi
    rename Task.pc _ = _ => hp
    exact h.move hts rfl hi.1 rfl rfl rfl rfl (by simp +contextual [Phase, hp])

end Gate
