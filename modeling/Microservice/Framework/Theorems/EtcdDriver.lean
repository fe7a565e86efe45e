import Microservice.Framework.EtcdDriver

namespace EtcdDriver

-- What a process registers with.
structure Registration where
  cfg          : GlobalConfig
  ip           : String
  no_slash_ns  : '/' ∉ cfg.nameSpace.toList
  no_slash_svc : '/' ∉ cfg.service.toList

namespace Registration

def key (r : Registration) : String :=
  genEtcdServiceKey r.cfg r.ip

-- The part of the key that is behind the common start of all keys.
def path (r : Registration) : String :=
  r.cfg.nameSpace ++ "/" ++ r.cfg.service ++ "/" ++ r.ip ++ ":" ++ toString r.cfg.port

theorem key_eq (r : Registration) : r.key = "/ms/" ++ r.path := by
  simp only [key, genEtcdServiceKey, path, String.append_assoc]

theorem nameSpace_prefix_path (r : Registration) : r.cfg.nameSpace.toList <+: r.path.toList := by
  simp [path, List.append_assoc]

-- The keys of the services in a namespace start with its watch key.
theorem watchKey_prefix_iff {N : String} {r : Registration} :
    (genEtcdWatchKey N).toList <+: r.key.toList ↔ N.toList <+: r.path.toList := by
  rw [r.key_eq, genEtcdWatchKey, String.toList_append, String.toList_append]
  exact List.prefix_append_right_inj _

end Registration

-- A service that a gate can connect to. Its ip is what `GetLocalIP` finds.
structure Service where
  nameSpace    : String
  service      : String
  ip           : String
  port         : UInt16
  no_slash_ns  : '/' ∉ nameSpace.toList
  no_slash_svc : '/' ∉ service.toList
  no_slash_ip  : '/' ∉ ip.toList
  no_colon_ip  : ':' ∉ ip.toList

namespace Service

def registration (s : Service) : Registration where
  cfg          := ⟨s.nameSpace, s.service, s.port.toNat⟩
  ip           := s.ip
  no_slash_ns  := s.no_slash_ns
  no_slash_svc := s.no_slash_svc

def key (s : Service) : String :=
  s.registration.key

def info (s : Service) : RemoteInfo :=
  ⟨s.nameSpace, s.service, s.ip, s.port.toUInt32⟩

end Service

-- The last part of the key.
def Service.addr (s : Service) : String :=
  s.ip ++ String.singleton ':' ++ toString s.port.toNat

-- What a gate is to make of an event of etcd about a service.
def Service.change (s : Service) : EventType → Option Discovery.Event
  | .put     => some (.put s.nameSpace s.service s.ip s.port.toUInt32)
  | .delete  => some (.delete s.nameSpace s.service s.ip s.port.toUInt32)
  | .unknown => none

-- What a gate with the namespace `N` discovers is what has registered with it.
def Scoped (N : String) (rs : List Registration) : Prop :=
  ∀ r ∈ rs, r.key ∈ withPrefix (genEtcdWatchKey N) (rs.map Registration.key) ↔ r.cfg.nameSpace = N

theorem mem_withPrefix_iff {p key : String} {keys : List String} :
    key ∈ withPrefix p keys ↔ key ∈ keys ∧ p.toList <+: key.toList := by
  simp [withPrefix]

namespace Registration

variable {N : String} {r : Registration} {rs : List Registration}

theorem key_mem_withPrefix_iff (hr : r ∈ rs) :
    r.key ∈ withPrefix (genEtcdWatchKey N) (rs.map key) ↔ N.toList <+: r.path.toList := by
  rw [mem_withPrefix_iff, watchKey_prefix_iff, and_iff_right (List.mem_map_of_mem hr)]

-- A name without a slash does not get beyond the namespace.
theorem prefix_path_iff (hN : '/' ∉ N.toList) :
    N.toList <+: r.path.toList ↔ N.toList <+: r.cfg.nameSpace.toList := by
  refine ⟨fun h => ?_, fun h => h.trans r.nameSpace_prefix_path⟩
  have hpath : ∃ rest, r.path.toList = r.cfg.nameSpace.toList ++ '/' :: rest :=
    ⟨(r.cfg.service ++ "/" ++ r.ip ++ ":" ++ toString r.cfg.port).toList, by simp [path, List.append_assoc]⟩
  obtain ⟨rest, hpath⟩ := hpath
  obtain hp | ⟨k, hk⟩ := List.prefix_or_prefix_of_prefix h r.nameSpace_prefix_path
  · exact hp
  · rw [←hk, hpath, List.prefix_append_right_inj] at h
    cases k
    case nil      => exact ⟨[], by simp [←hk]⟩
    case cons c k =>
      obtain rfl : c = '/' := (List.cons_prefix_cons.mp h).1
      exact absurd (hk ▸ List.mem_append_right _ List.mem_cons_self) hN

end Registration

theorem scoped_iff (N : String) (rs : List Registration) :
    (Scoped N rs ↔ ∀ r ∈ rs, N.toList <+: r.path.toList → r.cfg.nameSpace = N) ∧
    ('/' ∉ N.toList →
      (Scoped N rs ↔ ∀ r ∈ rs, N.toList <+: r.cfg.nameSpace.toList → r.cfg.nameSpace = N)) := by
  have hpath : Scoped N rs ↔ ∀ r ∈ rs, N.toList <+: r.path.toList → r.cfg.nameSpace = N := by
    refine forall₂_congr fun r hr => ?_
    rw [Registration.key_mem_withPrefix_iff hr]
    exact ⟨Iff.mp, fun h => ⟨h, (· ▸ r.nameSpace_prefix_path)⟩⟩
  refine ⟨hpath, fun hN => hpath.trans ?_⟩
  exact forall₂_congr fun r _ => by rw [Registration.prefix_path_iff hN]

theorem no_slash_pushService : '/' ∉ "PushService".toList := by
  decide

-- The push service of a namespace.
def pushService (nameSpace : String) (h : '/' ∉ nameSpace.toList) : Registration where
  cfg          := ⟨nameSpace, "PushService", 8101⟩
  ip           := "10.0.0.1"
  no_slash_ns  := h
  no_slash_svc := no_slash_pushService

theorem scoped_dev_prod :
    Scoped "dev" [pushService "dev" (by decide), pushService "prod" (by decide)] :=
  ((scoped_iff "dev" _).2 (by decide)).mpr (by decide)

-- The gates of `dev` also discover what has registered with `dev2`.
theorem dev_discovers_dev2 :
    (pushService "dev2" (by decide)).key ∈
      withPrefix (genEtcdWatchKey "dev") [(pushService "dev2" (by decide)).key] ∧
    ¬Scoped "dev" [pushService "dev2" (by decide)] := by
  have hdev : "dev".toList <+: "dev2".toList := ⟨['2'], by decide⟩
  have hmem := (Registration.key_mem_withPrefix_iff (List.mem_singleton_self _)).mpr
    (hdev.trans (pushService "dev2" (by decide)).nameSpace_prefix_path)
  refine ⟨hmem, fun hs => ?_⟩
  have hne : "dev2" ≠ "dev" := by decide
  exact hne ((hs _ List.mem_cons_self).mp hmem)

end EtcdDriver
