import Cyrenus.Loader

/-!
# What a failed start leaves on the interface

`load_bpf_program` attaches the program in the middle of its steps, and each later step can fail.
`main` detaches it when the HTTP server does not start, but not when the loading fails:
`failsClean_iff` says in which cases a failed loading leaves nothing of its own attached.
-/

namespace Cyrenus

/-- What is attached to the interface: nothing, a program of someone else, or the one that this
process attached. -/
inductive XdpLink where
  | free
  | earlier
  | cyrenus
  deriving DecidableEq, Repr

/-- `EXIT_FAILURE`. -/
def EXIT_FAILURE : ℤ := 1

/-- What the calls of `load_bpf_program` and of the steps of `main` after it return. -/
structure StartupAnswers extends LoaderAnswers where
  detach : ℤ
  httpServer_started : Bool
  unloadIfindex : ℕ
  unloadDetach : ℤ

/-- `bpf_set_link_xdp_fd`: the interface gets the program asked for, unless the call fails. -/
def bpfSetLinkXdpFd (answer : ℤ) (prog link : XdpLink) : XdpLink :=
  if answer < 0 then link else prog

/-- What `load_bpf_program` leaves on the interface. A failed detachment is only reported. -/
def linkAfterLoad (ans : StartupAnswers) (link : XdpLink) : XdpLink :=
  if ans.open_failed ∨ ans.load_failed ∨ ans.progFd < 0 ∨ ans.ifindex = 0 then link
  else bpfSetLinkXdpFd ans.attach .cyrenus (bpfSetLinkXdpFd ans.detach .free link)

/-- `unload_bpf_program`. -/
def unloadBpfProgram (ans : StartupAnswers) (link : XdpLink) : XdpLink :=
  if ans.unloadIfindex = 0 then link else bpfSetLinkXdpFd ans.unloadDetach .free link

/-- `main` from the loading of the program to the start of the HTTP server, when it is not a dry
run: the status it exits with, if it does, and what is attached then. -/
def startUp (ans : StartupAnswers) (interface : String) (hostIp : U32) (link : XdpLink) :
    Option ℤ × XdpLink :=
  let link := linkAfterLoad ans link
  match (loadBpfProgram ans.toLoaderAnswers "/usr/local/lib/cyrenus_xdp_prog.o" interface
    hostIp).result with
  | .error _ => (some EXIT_FAILURE, link)
  | .ok () =>
    if ans.httpServer_started then (none, link)
    else (some EXIT_FAILURE, unloadBpfProgram ans link)

/-! ## The link -/

@[simp] theorem bpfSetLinkXdpFd_of_lt {answer : ℤ} (h : answer < 0) (prog link : XdpLink) :
    bpfSetLinkXdpFd answer prog link = link := if_pos h

@[simp] theorem bpfSetLinkXdpFd_of_le {answer : ℤ} (h : 0 ≤ answer) (prog link : XdpLink) :
    bpfSetLinkXdpFd answer prog link = prog := if_neg (Int.not_lt.2 h)

/-- After the steps up to the attachment the program is on the interface. -/
theorem linkAfterLoad_of_attaches {ans : StartupAnswers} (h : ans.Attaches) (link : XdpLink) :
    linkAfterLoad ans link = .cyrenus := by
  rw [linkAfterLoad, if_neg, bpfSetLinkXdpFd_of_le h.attached]
  rintro (hopen | hload | hfound | hinterface)
  · exact absurd h.opened (by simp [hopen])
  · exact absurd h.loaded (by simp [hload])
  · exact absurd h.found (Int.not_le.2 hfound)
  · exact h.interface hinterface

/-- If one of them fails, the call puts nothing of its own there. -/
theorem linkAfterLoad_of_not_attaches {ans : StartupAnswers} (h : ¬ ans.Attaches) {link : XdpLink}
    (hlink : link ≠ .cyrenus) : linkAfterLoad ans link ≠ .cyrenus := by
  rw [linkAfterLoad]
  split_ifs with hsteps
  · exact hlink
  · simp only [not_or, Bool.not_eq_true, Int.not_lt] at hsteps
    obtain ⟨hopen, hload, hfound, hinterface⟩ := hsteps
    have hattach : ans.attach < 0 := by
      by_contra hattach
      exact h ⟨hopen, hload, hfound, hinterface, Int.not_lt.1 hattach⟩
    rw [bpfSetLinkXdpFd_of_lt hattach, bpfSetLinkXdpFd]
    split_ifs
    · exact hlink
    · exact XdpLink.noConfusion

/-- When the HTTP server does not start, `main` detaches the program again. -/
theorem startUp_of_no_httpServer {ans : StartupAnswers} (hattaches : ans.Attaches)
    (hready : ans.MapsReady) (hserver : ans.httpServer_started = false)
    (hindex : ans.unloadIfindex ≠ 0) (hdetach : 0 ≤ ans.unloadDetach) (interface : String)
    (hostIp : U32) (link : XdpLink) :
    startUp ans interface hostIp link = (some EXIT_FAILURE, .free) := by
  rw [startUp, (loadBpfProgram_of_attaches hattaches _ _ _).2.2 hready]
  simp only [hserver, unloadBpfProgram, if_neg hindex, bpfSetLinkXdpFd_of_le hdetach,
    Bool.false_eq_true, if_false]

/-! ## A failed loading -/

/-- If the loading fails, the process exits with failure and leaves nothing attached that it
attached itself. `occupied` says whether there was another program. -/
def FailsClean (ans : StartupAnswers) (interface : String) (hostIp : U32) (occupied : Bool) :
    Prop :=
  (loadBpfProgram ans.toLoaderAnswers "/usr/local/lib/cyrenus_xdp_prog.o" interface
      hostIp).result ≠ .ok () →
    (startUp ans interface hostIp (if occupied then .earlier else .free)).1 = some EXIT_FAILURE ∧
      (startUp ans interface hostIp (if occupied then .earlier else .free)).2 ≠ .cyrenus

/-- **A failed loading is clean exactly** when it fails before the attachment or not at all. -/
theorem failsClean_iff (ans : StartupAnswers) (interface : String) (hostIp : U32)
    (occupied : Bool) :
    FailsClean ans interface hostIp occupied ↔ ¬ ans.Attaches ∨ ans.MapsReady := by
  have hexit : ∀ link message, (loadBpfProgram ans.toLoaderAnswers
      "/usr/local/lib/cyrenus_xdp_prog.o" interface hostIp).result = .error message →
      startUp ans interface hostIp link = (some EXIT_FAILURE, linkAfterLoad ans link) :=
    fun link message herr => by rw [startUp, herr]
  by_cases hattaches : ans.Attaches
  · rw [or_iff_right (not_not_intro hattaches)]
    have hok := (loadBpfProgram_of_attaches hattaches "/usr/local/lib/cyrenus_xdp_prog.o"
      interface hostIp).2
    refine ⟨fun hclean => ?_, fun hready hfails => absurd (hok.2 hready) hfails⟩
    by_contra hmaps
    have hfails := mt hok.1 hmaps
    cases hresult : (loadBpfProgram ans.toLoaderAnswers "/usr/local/lib/cyrenus_xdp_prog.o"
        interface hostIp).result with
    | ok => exact hfails hresult
    | error message =>
      have hlink := (hclean hfails).2
      rw [hexit _ message hresult] at hlink
      exact hlink (linkAfterLoad_of_attaches hattaches _)
  · refine iff_of_true (fun hfails => ?_) (.inl hattaches)
    obtain ⟨message, hload⟩ := loadBpfProgram_of_not_attaches hattaches
      "/usr/local/lib/cyrenus_xdp_prog.o" interface hostIp
    rw [hexit _ message (by rw [hload])]
    refine ⟨rfl, linkAfterLoad_of_not_attaches hattaches ?_⟩
    split_ifs <;> exact XdpLink.noConfusion

/-- An object file without the configuration map: every other step succeeds. -/
def noConfigMap : StartupAnswers where
  open_failed := false
  load_failed := false
  progFd := 5
  ifindex := 2
  attach := 0
  mapFd name := if name = "config_map" then -1 else 6
  updateHostIp := 0
  detach := 0
  httpServer_started := true
  unloadIfindex := 2
  unloadDetach := 0

/-- The call returns -1 with the program attached, and the process exits without detaching it. -/
theorem failsClean_fails :
    startUp noConfigMap "eth0" 0x0100000a .free = (some EXIT_FAILURE, .cyrenus) ∧
      ¬ FailsClean noConfigMap "eth0" 0x0100000a false := by
  have hstart : startUp noConfigMap "eth0" 0x0100000a .free = (some EXIT_FAILURE, .cyrenus) := by
    rfl
  have hload : (loadBpfProgram noConfigMap.toLoaderAnswers "/usr/local/lib/cyrenus_xdp_prog.o"
      "eth0" 0x0100000a).result = .error ("ERROR: finding '" ++ "config_map" ++
        "' map in object file '" ++ "/usr/local/lib/cyrenus_xdp_prog.o" ++ "' failed") := by
    rfl
  refine ⟨hstart, fun hclean => (hclean ?_).2 (congrArg Prod.snd hstart)⟩
  rw [hload]
  nofun

end Cyrenus
