import Microservice.Framework.AcceptLoop
import Microservice.Lib.Positions

namespace AcceptLoop

variable {cfg : Cfg} {s s' : AcceptLoop} {e : Event} {es : List Event} {c : Nat}

-- The connection whose client is registered and which the loop is not done with.
def Pc.current : Pc → Option Nat
  | .addElement c | .lookup c _ => some c
  | _                           => none

-- After a lookup the loop is at the same connection, or done with it.
theorem next_current (l : Lookup) : (next cfg c l).current = none ∨ (next cfg c l).current = some c := by
  cases l <;> simp [next, Pc.current]

theorem next_ne_register (l : Lookup) (c' : Nat) : next cfg c l ≠ .register c' := by
  cases l <;> simp [next]

theorem next_ne_panicked (l : Lookup) : next cfg c l ≠ .panicked := by
  cases l <;> simp [next]

-- The client of the current connection is registered until its read loop has closed it.
structure Registered (es : List Event) (s : AcceptLoop) : Prop where
  distinct : ∀ (c c' : Nat) (conn conn' : Conn), s.conns[c]? = some conn → s.conns[c']? = some conn' →
    conn.connID = conn'.connID → c = c'
  fresh    : ∀ (c : Nat) (conn : Conn), s.pc = .register c → s.conns[c]? = some conn →
    conn.phase = .accepted
  current  : ∀ (c : Nat) (conn : Conn), s.pc.current = some c → s.conns[c]? = some conn →
    s.clients conn.connID = if conn.phase = .closed then none else some c
  closed   : ∀ (c : Nat) (conn : Conn), s.conns[c]? = some conn →
    (conn.phase = .closed ↔ .onClientClose c ∈ es)
  known    : ∀ c, .onClientClose c ∈ es → c < s.conns.length

theorem start_registered : Registered [] start where
  distinct := by simp [start]
  fresh    := by simp [start]
  current  := by simp [start]
  closed   := by simp [start]
  known    := by simp

-- A step of the loop that leaves the connections and the clients as they are.
theorem Registered.goto (h : Registered es s) (hp : s'.pc.current = none ∨ s'.pc.current = s.pc.current)
    (hf : ∀ c, s'.pc = .register c → s.pc = .register c) (hn : s'.conns = s.conns)
    (hc : s'.clients = s.clients) (he : ∀ c, e ≠ .onClientClose c) : Registered (es ++ [e]) s' := by
  have hm (c : Nat) : .onClientClose c ∈ es ++ [e] ↔ .onClientClose c ∈ es := by
    simp [(he c).symm]
  constructor
  case distinct => exact hn ▸ h.distinct
  case fresh    => exact fun c conn hp => hn ▸ h.fresh c conn (hf c hp)
  case current =>
    intro c conn hcur hi
    obtain hp | hp := hp
    · cases hp.symm.trans hcur
    · exact hc ▸ h.current c conn (hp ▸ hcur) (hn ▸ hi)
  case closed => simpa only [hm, hn] using h.closed
  case known  => simpa only [hm, hn] using h.known

theorem Registered.accept {connID : String} (h : Registered es s)
    (hd : ∀ conn ∈ s.conns, conn.connID ≠ connID) :
    Registered (es ++ [.accept connID])
      { s with conns := s.conns ++ [⟨connID, .accepted⟩], pc := .register s.conns.length } := by
  have hk (c : Nat) (hc : .onClientClose c ∈ es ++ [.accept connID]) : c < s.conns.length :=
    h.known c (by simpa using hc)
  constructor
  case distinct =>
    intro c c' conn conn' hc hc' he
    obtain hc | ⟨rfl, rfl⟩ := List.getElem?_concat_cases hc <;>
      obtain hc' | ⟨rfl, rfl⟩ := List.getElem?_concat_cases hc'
    · exact h.distinct c c' conn conn' hc hc' he
    · exact absurd he (hd conn (List.mem_of_getElem? hc))
    · exact absurd he.symm (hd conn' (List.mem_of_getElem? hc'))
    · rfl
  case fresh =>
    rintro _ conn ⟨⟩ hc
    rw [List.getElem?_concat_length] at hc
    cases hc
    rfl
  case current => nofun
  case closed =>
    intro c conn hc
    obtain hc | ⟨rfl, rfl⟩ := List.getElem?_concat_cases hc
    · simpa using h.closed c conn hc
    · exact ⟨nofun, fun hm => absurd (hk _ hm) (Nat.lt_irrefl _)⟩
  case known => exact fun c hc => by simpa using Nat.lt_succ_of_lt (hk c hc)

theorem Registered.register {conn : Conn} (h : Registered es s) (hp : s.pc = .register c)
    (hc : s.conns[c]? = some conn) :
    Registered (es ++ [.register c])
      { s with clients := s.clients.insert conn.connID c, pc := .addElement c } where
  distinct := h.distinct
  fresh    := nofun
  current  := by
    rintro _ conn' ⟨⟩ hc'
    obtain rfl := Option.some.inj (hc.symm.trans hc')
    simp [h.fresh c conn hp hc]
  closed   := by simpa using h.closed
  known    := by simpa using h.known

section

variable {conn conn₁ : Conn} {phase : Phase}

-- The addresses stay.
theorem setPhase_cases (hc : s.conns[c]? = some conn) (h : (s.setPhase c conn phase).conns[i]? = some conn₁) :
    ∃ conn₂, s.conns[i]? = some conn₂ ∧ conn₂.connID = conn₁.connID ∧
      ((i = c ∧ conn₁.phase = phase) ∨ (i ≠ c ∧ conn₁ = conn₂)) := by
  obtain ⟨rfl, rfl⟩ | ⟨hne, hi⟩ := List.getElem?_set_cases h
  · exact ⟨conn, hc, rfl, .inl ⟨rfl, rfl⟩⟩
  · exact ⟨conn₁, hi, rfl, .inr ⟨hne, rfl⟩⟩

theorem Registered.setPhase_distinct (h : Registered es s) (hc : s.conns[c]? = some conn) (i j : Nat)
    (conn₁ conn₂ : Conn) (hi : (s.setPhase c conn phase).conns[i]? = some conn₁)
    (hj : (s.setPhase c conn phase).conns[j]? = some conn₂) (he : conn₁.connID = conn₂.connID) : i = j := by
  obtain ⟨conn₁', hi, he₁, _⟩ := setPhase_cases hc hi
  obtain ⟨conn₂', hj, he₂, _⟩ := setPhase_cases hc hj
  exact h.distinct i j conn₁' conn₂' hi hj (he₁.trans <| he.trans he₂.symm)

-- The loop has found the client of the current connection and starts its read loop.
theorem Registered.handleRead (h : Registered es s) (hp : s.pc = .lookup c .handleRead)
    (hc : s.conns[c]? = some conn) (hg : s.clients conn.connID = some c) :
    Registered (es ++ [.lookup c .handleRead (some c)])
      { s.setPhase c conn .reading with pc := next cfg c .handleRead } := by
  have hn : conn.phase ≠ .closed := by
    intro hn
    have := h.current c conn (by simp [hp, Pc.current]) hc
    simp [hn, hg] at this
  constructor
  case distinct => exact h.setPhase_distinct hc
  case fresh    => nofun
  case current =>
    rintro _ conn₁ ⟨⟩ hc₁
    obtain ⟨conn₂, hc₂, he, ⟨_, hr⟩ | ⟨hne, _⟩⟩ := setPhase_cases hc hc₁
    · obtain rfl := Option.some.inj (hc.symm.trans hc₂)
      simpa [hr, ← he] using (show (s.setPhase c conn .reading).clients conn.connID = some c from hg)
    · exact absurd rfl hne
  case closed =>
    intro i conn₁ hi
    obtain ⟨conn₂, hi₂, _, ⟨rfl, hr⟩ | ⟨_, rfl⟩⟩ := setPhase_cases hc hi
    · simpa [hr, hn] using h.closed i conn hc
    · simpa using h.closed i conn₁ hi₂
  case known => simpa [setPhase] using h.known

theorem Registered.onClientClose (h : Registered es s) (hc : s.conns[c]? = some conn)
    (hr : conn.phase = .reading) :
    Registered (es ++ [.onClientClose c]) ((s.setPhase c conn .closed).onClientClose conn.connID) := by
  constructor
  case distinct => exact h.setPhase_distinct hc
  case fresh =>
    intro i conn₁ hp hi
    obtain ⟨conn₂, hi₂, _, ⟨rfl, _⟩ | ⟨_, rfl⟩⟩ := setPhase_cases hc hi
    · cases hr.symm.trans (h.fresh i conn hp hc)
    · exact h.fresh i conn₁ hp hi₂
  case current =>
    intro i conn₁ hp hi
    obtain ⟨conn₂, hi₂, he, ⟨rfl, hr⟩ | ⟨hne, rfl⟩⟩ := setPhase_cases hc hi
    · obtain rfl := Option.some.inj (hc.symm.trans hi₂)
      simp [AcceptLoop.onClientClose, hr, he]
    · have hid : conn₁.connID ≠ conn.connID := fun he => hne (h.distinct i c conn₁ conn hi₂ hc he)
      exact (Partial.erase_of_ne hid).trans (h.current i conn₁ hp hi₂)
  case closed =>
    intro i conn₁ hi
    obtain ⟨conn₂, hi₂, _, ⟨rfl, hr⟩ | ⟨hne, rfl⟩⟩ := setPhase_cases hc hi
    · simp [hr]
    · simpa [hne] using h.closed i conn₁ hi₂
  case known =>
    intro i hi
    obtain hi | rfl : .onClientClose i ∈ es ∨ i = c := by simpa using hi
    · simpa [AcceptLoop.onClientClose, setPhase] using h.known i hi
    · simpa [AcceptLoop.onClientClose, setPhase] using (List.getElem?_eq_some_iff.mp hc).1

end

theorem Act.lookup_eq {l : Lookup} {client : Option Nat} (hs : Act cfg s (.lookup c l client) s') :
    s.pc = .lookup c l ∧ ∃ conn, s.conns[c]? = some conn ∧ s.clients conn.connID = client := by
  cases hs <;> exact ⟨by assumption, _, by assumption, by assumption⟩

-- What a lookup yields.
theorem Registered.lookup {l : Lookup} {client : Option Nat} (h : Registered es s)
    (hs : Act cfg s (.lookup c l client) s') : client = some c ↔ .onClientClose c ∉ es := by
  obtain ⟨hp, conn, hc, hg⟩ := hs.lookup_eq
  rw [← h.closed c conn hc, ← hg, h.current c conn (by simp [hp, Pc.current]) hc]
  by_cases hn : conn.phase = .closed <;> simp [hn]

theorem Act.registered (hs : Act cfg s e s') (h : Registered es s) : Registered (es ++ [e]) s' := by
  cases hs
  case accept hp hd => exact h.accept hd
  case register hp hc _ => exact h.register hp hc
  case refuse => exact h.goto (.inl rfl) nofun rfl rfl nofun
  case addElement hp _ => exact h.goto (.inr (by simp [hp, Pc.current])) nofun rfl rfl nofun
  case handleRead c client conn conn' hp hc hg hc' =>
    have hcur := h.current c conn (by simp [hp, Pc.current]) hc
    obtain rfl : client = c := by
      rw [hg] at hcur
      split at hcur
      · cases hcur
      · exact Option.some.inj hcur
    obtain rfl := Option.some.inj (hc.symm.trans hc')
    exact h.handleRead hp hc hg
  case lookup c client l conn hp _ _ _ =>
    refine h.goto ?_ (fun c' hr => absurd hr (next_ne_register l c')) rfl rfl nofun
    simpa [hp, Pc.current] using next_current l
  case lookupNil c l conn hp _ _ =>
    split
    · exact h.goto (.inl rfl) nofun rfl rfl nofun
    · refine h.goto ?_ (fun c' hr => absurd hr (next_ne_register l c')) rfl rfl nofun
      simpa [hp, Pc.current] using next_current l
  case onClientClose hc hr => exact h.onClientClose hc hr
  case stop => exact h.goto (.inr rfl) (fun _ hp => hp) rfl rfl nofun

theorem registered_of_exec (h : Exec (Step cfg) start es s) : Registered es s :=
  h.invariant (I := Registered) start_registered fun _ _ _ _ _ hr hs => hs.act.registered hr

-- The process is ended only by a lookup that yields nil.
theorem Act.panicked (hs : Act cfg s e s') (hp : s'.pc = .panicked) :
    s.pc = .panicked ∨ ∃ c l, e = .lookup c l none := by
  cases hs
  case handleRead c _ _ _ _ _ _ _ => exact absurd (show next cfg c .handleRead = _ from hp) (next_ne_panicked _)
  case lookup                     => exact absurd hp (next_ne_panicked _)
  case lookupNil                  => exact .inr ⟨_, _, rfl⟩
  case onClientClose | stop => exact .inl hp
  all_goals cases hp

theorem panicked_of_exec (h : Exec (Step cfg) start es s) (hp : s.pc = .panicked) :
    ∃ c l, .lookup c l none ∈ es := by
  cases h
  case refl => cases hp
  case snoc hs =>
    obtain hp | ⟨c, l, rfl⟩ := hs.act.panicked hp
    · exact absurd hp hs.alive
    · exact ⟨c, l, by simp⟩

-- The lookups of a run yield the clients that were registered, and so no method of nil is called, iff no
-- read loop has run `onClientClose` before a lookup of its client.
theorem lookups_yield_client_iff (h : Exec (Step cfg) start es s) :
    ((∀ c l client, .lookup c l client ∈ es → client = some c) ↔
      ∀ c l client, ¬[.onClientClose c, .lookup c l client].Sublist es) ∧
    ((∀ c l client, .lookup c l client ∈ es → client = some c) → s.pc ≠ .panicked) := by
  constructor
  case left =>
    induction h
    case refl => simp
    case snoc es s s' e h hs hi =>
      have hr := registered_of_exec h
      constructor
      case mp =>
        intro hl c l client hsub
        have hl' := hi.mp fun c l client hm => hl c l client (by simp [hm])
        obtain hsub | ⟨rfl, hm⟩ := List.pair_sublist_concat hsub
        · exact hl' c l client hsub
        · exact (hr.lookup hs.act).mp (hl c l client (by simp)) hm
      case mpr =>
        intro hn c l client hm
        obtain hm | hm := List.mem_append.mp hm
        · refine hi.mpr (fun c l client hsub => hn c l client ?_) c l client hm
          exact hsub.trans (List.sublist_append_left ..)
        · obtain rfl := List.mem_singleton.mp hm
          refine (hr.lookup hs.act).mpr fun hc => hn c l client ?_
          exact (List.singleton_sublist.mpr hc).append (List.Sublist.refl _)
  case right =>
    intro hl hp
    obtain ⟨c, l, hm⟩ := panicked_of_exec h hp
    cases hl c l none hm

-- The peer of a service hangs up only after the service has reported to it.
theorem lookups_yield_client_late_close :
    ∃ es s, Exec (Step ⟨true, true⟩) start es s ∧ .onClientClose 0 ∈ es ∧
      (∀ c l client, .lookup c l client ∈ es → client = some c) ∧ s.pc ≠ .panicked := by
  have h₁ : Exec (Step ⟨true, true⟩) start _ _ := .single ⟨nofun, .accept "10.0.0.7:40000" rfl rfl nofun⟩
  have h₂ := h₁.snoc ⟨nofun, .register rfl rfl rfl⟩
  have h₃ := h₂.snoc ⟨nofun, .addElement rfl rfl⟩
  have h₄ := h₃.snoc ⟨nofun, .handleRead (c := 0) rfl rfl rfl rfl⟩
  have h₅ := h₄.snoc ⟨nofun, .lookup (c := 0) rfl nofun rfl rfl⟩
  have h₆ := h₅.snoc ⟨nofun, .lookup (c := 0) rfl nofun rfl rfl⟩
  have h₇ := h₆.snoc ⟨nofun, .onClientClose (c := 0) rfl rfl⟩
  obtain ⟨hiff, halive⟩ := lookups_yield_client_iff h₇
  have hl := hiff.mpr fun c l client hsub => by
    obtain hsub | ⟨he, _⟩ := List.pair_sublist_concat hsub
    · simpa using hsub.subset List.mem_cons_self
    · cases he
  exact ⟨_, _, h₇, by simp, hl, halive hl⟩

-- The peer hangs up at once, and the report of the service is a call of a method of nil.
theorem lookup_nil_after_hangup :
    ∃ s, Exec (Step ⟨true, true⟩) start
      [.accept "10.0.0.7:40000", .register 0, .addElement 0, .lookup 0 .handleRead (some 0),
        .onClientClose 0, .lookup 0 .rpcPermissionReport none] s ∧ s.pc = .panicked := by
  have h₁ : Exec (Step ⟨true, true⟩) start _ _ := .single ⟨nofun, .accept "10.0.0.7:40000" rfl rfl nofun⟩
  have h₂ := h₁.snoc ⟨nofun, .register rfl rfl rfl⟩
  have h₃ := h₂.snoc ⟨nofun, .addElement rfl rfl⟩
  have h₄ := h₃.snoc ⟨nofun, .handleRead (c := 0) rfl rfl rfl rfl⟩
  have h₅ := h₄.snoc ⟨nofun, .onClientClose (c := 0) rfl rfl⟩
  exact ⟨_, h₅.snoc ⟨nofun, .lookupNil (c := 0) rfl rfl rfl⟩, rfl⟩

end AcceptLoop
