import Cyrenus.Xdp.Maps
import Mathlib.Data.Int.Notation
import Mathlib.Tactic.SplitIfs

/-!
# Loading the kernel program

`load_bpf_program` with what libbpf and the kernel answer to each of its calls as a parameter. When
it succeeds, the maps are as the kernel created them, except for the host address it stores.
-/

namespace Cyrenus

/-- What the calls of `load_bpf_program` return. -/
structure LoaderAnswers where
  open_failed : Bool
  load_failed : Bool
  progFd : ℤ
  ifindex : ℕ
  attach : ℤ
  mapFd : String → ℤ
  updateHostIp : ℤ

/-- What `load_bpf_program` leaves behind: the message it printed if it returned -1, whether the
program is attached to the interface, and the user maps. -/
structure LoadOutcome where
  result : Except String Unit
  attached : Bool
  user : UserMaps

/-- The maps whose descriptors are looked up, in this order, each with the name that the message
gives it. -/
def loadedMaps : List (String × String) :=
  [("rules", "rules"), ("active_traffic", "active_traffic"), ("host_ip", "host_ip"),
    ("udp_flood_map", "udp_flood"), ("dns_track_map", "dns_track_map"),
    ("attack_info_array", "attack_info_array"), ("attack_count", "attack_count"),
    ("syn_flood_map", "syn_flood_map"), ("geoip_map", "geoip_map"),
    ("blocked_countries", "blocked_countries"), ("global_stats", "global_stats"),
    ("config_map", "config_map")]

/-- `load_bpf_program`. -/
def loadBpfProgram (ans : LoaderAnswers) (filename interface : String) (hostIp : U32) :
    LoadOutcome :=
  let fail (attached : Bool) (message : String) : LoadOutcome :=
    ⟨.error message, attached, UserMaps.initial⟩
  if ans.open_failed then
    fail false ("ERROR: opening BPF object file '" ++ filename ++ "' failed")
  else if ans.load_failed then
    fail false ("ERROR: loading BPF object file '" ++ filename ++ "' failed")
  else if ans.progFd < 0 then
    fail false ("ERROR: finding XDP program in object file '" ++ filename ++ "' failed")
  else if ans.ifindex = 0 then
    fail false ("ERROR: failed to get interface index for '" ++ interface ++ "'")
  else if ans.attach < 0 then
    fail false ("ERROR: attaching XDP program to interface '" ++ interface ++ "' failed")
  else
    match loadedMaps.find? fun m => ans.mapFd m.1 < 0 with
    | some m =>
      fail true ("ERROR: finding '" ++ m.2 ++ "' map in object file '" ++ filename ++ "' failed")
    | none =>
      if ans.updateHostIp ≠ 0 then fail true "Error updating host_ip map"
      else ⟨.ok (), true, { UserMaps.initial with hostIp := fun _ => hostIp }⟩

/-- What a load that succeeds leaves behind. -/
theorem loadBpfProgram_of_ok {ans : LoaderAnswers} {filename interface : String} {hostIp : U32}
    (h : (loadBpfProgram ans filename interface hostIp).result = .ok ()) :
    loadBpfProgram ans filename interface hostIp =
      ⟨.ok (), true, { UserMaps.initial with hostIp := fun _ => hostIp }⟩ := by
  unfold loadBpfProgram at h ⊢
  cases hmap : loadedMaps.find? fun m => ans.mapFd m.1 < 0 with
  | some m =>
    simp only [hmap] at h
    split_ifs at h
  | none =>
    simp only [hmap] at h ⊢
    split_ifs at h ⊢
    rfl

/-- The steps up to the attachment succeed. -/
structure LoaderAnswers.Attaches (ans : LoaderAnswers) : Prop where
  opened : ans.open_failed = false
  loaded : ans.load_failed = false
  found : 0 ≤ ans.progFd
  interface : ans.ifindex ≠ 0
  attached : 0 ≤ ans.attach

/-- The steps after the attachment succeed. -/
structure LoaderAnswers.MapsReady (ans : LoaderAnswers) : Prop where
  found : ∀ m ∈ loadedMaps, 0 ≤ ans.mapFd m.1
  hostIp : ans.updateHostIp = 0

/-- A load that fails before the attachment leaves the program detached. -/
theorem loadBpfProgram_of_not_attaches {ans : LoaderAnswers} (h : ¬ ans.Attaches)
    (filename interface : String) (hostIp : U32) :
    ∃ message, loadBpfProgram ans filename interface hostIp =
      ⟨.error message, false, UserMaps.initial⟩ := by
  unfold loadBpfProgram
  dsimp only
  by_cases hattaches : ans.open_failed = false ∧ ans.load_failed = false ∧ ¬ ans.progFd < 0 ∧
      ans.ifindex ≠ 0 ∧ ¬ ans.attach < 0
  · obtain ⟨hopen, hload, hfound, hinterface, hattach⟩ := hattaches
    exact absurd ⟨hopen, hload, Int.not_lt.1 hfound, hinterface, Int.not_lt.1 hattach⟩ h
  · split_ifs with hopen hload hfound hinterface hattach
    iterate 5 exact ⟨_, rfl⟩
    all_goals exact absurd ⟨Bool.eq_false_iff.2 hopen, Bool.eq_false_iff.2 hload, hfound,
      hinterface, hattach⟩ hattaches

/-- A load that gets past the attachment leaves the program attached, and succeeds if the steps
after it do. -/
theorem loadBpfProgram_of_attaches {ans : LoaderAnswers} (h : ans.Attaches)
    (filename interface : String) (hostIp : U32) :
    (loadBpfProgram ans filename interface hostIp).attached = true ∧
      ((loadBpfProgram ans filename interface hostIp).result = .ok () ↔ ans.MapsReady) := by
  unfold loadBpfProgram
  simp only [h.opened, h.loaded, if_neg (Int.not_lt.2 h.found), if_neg h.interface,
    if_neg (Int.not_lt.2 h.attached), Bool.false_eq_true, if_false]
  cases hmap : loadedMaps.find? fun m => ans.mapFd m.1 < 0 with
  | some m =>
    refine ⟨rfl, nofun, fun hready => ?_⟩
    have hlt : decide (ans.mapFd m.1 < 0) = true :=
      List.find?_some (p := fun m : String × String => decide (ans.mapFd m.1 < 0)) hmap
    exact absurd (hready.found m (List.mem_of_find?_eq_some hmap))
      (Int.not_le.2 (of_decide_eq_true hlt))
  | none =>
    have hmaps : ∀ m ∈ loadedMaps, 0 ≤ ans.mapFd m.1 := fun m hm =>
      Int.not_lt.1 fun hlt => List.find?_eq_none.1 hmap m hm (decide_eq_true hlt)
    by_cases hhost : ans.updateHostIp = 0
    · simp only [hhost, ne_eq, not_true_eq_false, if_false, true_and, true_iff]
      exact ⟨hmaps, hhost⟩
    · simp only [ne_eq, hhost, not_false_eq_true, if_true, true_and]
      exact ⟨nofun, fun hready => absurd hready.hostIp hhost⟩

end Cyrenus
