import Cyrenus.Api.SecurityReads
import Cyrenus.Http.DeployRoute

/-!
# The files of the policies

The handlers that read, save and delete a policy make a path of the rest of the URL, which they put
between a directory and ".yaml" in a buffer of 512 bytes. `staysInPolicies_iff` says which requests
touch one file of the directory only: the name must not lead out of it, and it must be so short that
nothing of it is cut off.
-/

namespace Cyrenus

open CStr (strncpy)

/-! ## What the handlers touch -/

/-- A call that opens or removes a file. -/
inductive FileAccess where
  | fopen (path : CStr)
  | unlink (path : CStr)
  deriving DecidableEq, Repr

/-- The path of such a call. -/
def FileAccess.path : FileAccess → CStr
  | fopen path | unlink path => path

/-- The calls of the handlers of policies, in the order in which they make them. -/
def Handler.accesses (libs : Libs) (a : Answers) (data : Option CStr) : Handler → List FileAccess
  | .policyGet name => [.fopen (policyPath policyDir name)]
  | .policySave name =>
    match savedContent libs data with
    | .inl _ => []
    | .inr _ => [.fopen (policyPath policyDir name)]
  | .policyDelete name =>
    if a.unlinkOk (policyPath policyDir name) then
      [.unlink (policyPath policyDir name), .unlink (policyPath deployedDir name)]
    else [.unlink (policyPath policyDir name)]
  | _ => []

variable {libs : Libs} {a : Answers} {data : Option CStr} {name path : CStr}

/-- Reading a policy looks at no other file. -/
theorem apiSecurityPolicyGet_other {r r' : SecurityReads}
    (hpath : ∀ x ∈ (Handler.policyGet name).accesses libs a data,
      r.fopen x.path = r'.fopen x.path) :
    apiSecurityPolicyGet libs r name = apiSecurityPolicyGet libs r' name := by
  have hopen : r.fopen (policyPath policyDir name) = r'.fopen (policyPath policyDir name) :=
    hpath _ (List.mem_singleton.2 rfl)
  rw [apiSecurityPolicyGet, apiSecurityPolicyGet, hopen]

/-- Saving a policy changes no other file. -/
theorem apiSecurityPolicySave_other {files : Files}
    (hpath : ∀ x ∈ (Handler.policySave name).accesses libs a data, x.path ≠ path) :
    (apiSecurityPolicySave libs a name data files).2 path = files path := by
  rw [apiSecurityPolicySave]
  rw [Handler.accesses] at hpath
  cases hcontent : savedContent libs data with
  | inl err => rfl
  | inr content =>
    rw [hcontent] at hpath
    have hne := hpath _ (List.mem_singleton.2 rfl)
    cases a.fopenOk with
    | false => rfl
    | true => exact Table.set_other fun heq => hne heq.symm

/-- Deleting a policy changes no other file, before Tetragon is restarted. -/
theorem apiSecurityPolicyDelete_other {files : Files}
    (hpath : ∀ x ∈ (Handler.policyDelete name).accesses libs a data, x.path ≠ path) :
    ∃ files' : Files, files' path = files path ∧
      ((apiSecurityPolicyDelete a name files).2 = files' ∨
        (apiSecurityPolicyDelete a name files).2 =
          (a.system "sudo systemctl restart tetragon".toList files').2) := by
  have hunlink : ∀ {p : CStr} {fs : Files}, p ≠ path → unlink a p fs path = fs path := by
    intro p fs hp
    rw [unlink]
    split
    · exact Table.erase_other (Ne.symm hp)
    · rfl
  rw [Handler.accesses] at hpath
  rw [apiSecurityPolicyDelete]
  split
  · rename_i hok
    rw [if_pos hok] at hpath
    have hsrc := hpath _ (List.mem_cons_self ..)
    have hdst := hpath _ (List.mem_cons_of_mem _ (List.mem_singleton.2 rfl))
    exact ⟨_, (hunlink hdst).trans (hunlink hsrc), .inr rfl⟩
  · exact ⟨files, rfl, .inl rfl⟩

/-! ## One file -/

/-- One file of the directory: a name without a directory that ends in ".yaml". -/
structure IsPolicyFile (file : CStr) : Prop where
  noSlash : '/' ∉ file
  yaml : ".yaml".toList <:+ file

/-- A call is for a file of the directory, or for its deployed copy. -/
def FileAccess.IsFor (file : CStr) (x : FileAccess) : Prop :=
  x = .fopen (policyDir ++ file) ∨ x = .unlink (policyDir ++ file) ∨
    x = .unlink (deployedDir ++ file)

/-- All calls are for one file of a policy. -/
def StaysInPolicies (accesses : List FileAccess) : Prop :=
  ∃ file, IsPolicyFile file ∧ ∀ x ∈ accesses, x.IsFor file

theorem staysInPolicies_nil : StaysInPolicies [] :=
  ⟨".yaml".toList, ⟨by decide, List.suffix_refl _⟩, nofun⟩

/-- No file is both in the directory and in that of the deployed policies. -/
theorem policyDir_append_ne (file file' : CStr) : policyDir ++ file ≠ deployedDir ++ file' := by
  intro h
  have hsecond := congrArg (·[1]?) h
  rw [List.getElem?_append_left (by decide), List.getElem?_append_left (by decide)] at hsecond
  exact absurd hsecond (by decide)

/-- What a buffer of 512 bytes holds of the path of a policy. -/
theorem policyPath_policyDir (name : CStr) :
    policyPath policyDir name = policyDir ++ (name ++ ".yaml".toList).take 458 := by
  rw [policyPath, strncpy, List.append_assoc, List.take_append]
  rfl

theorem policyPath_deployedDir (name : CStr) :
    policyPath deployedDir name = deployedDir ++ (name ++ ".yaml".toList).take 488 := by
  rw [policyPath, strncpy, List.append_assoc, List.take_append]
  rfl

variable {file file' : CStr}

theorem FileAccess.isFor_fopen :
    (FileAccess.fopen (policyDir ++ file')).IsFor file ↔ file' = file := by
  refine ⟨?_, fun h => .inl (by rw [h])⟩
  rintro (h | h | h)
  · exact List.append_cancel_left (FileAccess.fopen.inj h)
  · cases h
  · cases h

theorem FileAccess.isFor_unlink :
    (FileAccess.unlink (policyDir ++ file')).IsFor file ↔ file' = file := by
  refine ⟨?_, fun h => .inr (.inl (by rw [h]))⟩
  rintro (h | h | h)
  · cases h
  · exact List.append_cancel_left (FileAccess.unlink.inj h)
  · exact absurd (FileAccess.unlink.inj h) (policyDir_append_ne _ _)

theorem FileAccess.isFor_deployed :
    (FileAccess.unlink (deployedDir ++ file')).IsFor file ↔ file' = file := by
  refine ⟨?_, fun h => .inr (.inr (by rw [h]))⟩
  rintro (h | h | h)
  · cases h
  · exact absurd (FileAccess.unlink.inj h).symm (policyDir_append_ne _ _)
  · exact List.append_cancel_left (FileAccess.unlink.inj h)

/-- The file that a name stands for, as much of it as the buffer holds. -/
def policyFile (name : CStr) : CStr := (name ++ ".yaml".toList).take 458

/-- Opening the file of a name. -/
theorem staysInPolicies_fopen :
    StaysInPolicies [.fopen (policyPath policyDir name)] ↔ IsPolicyFile (policyFile name) := by
  simp only [StaysInPolicies, List.forall_mem_singleton, policyPath_policyDir,
    FileAccess.isFor_fopen, exists_eq_right', policyFile]

/-- Removing the file of a name. -/
theorem staysInPolicies_unlink :
    StaysInPolicies [.unlink (policyPath policyDir name)] ↔ IsPolicyFile (policyFile name) := by
  simp only [StaysInPolicies, List.forall_mem_singleton, policyPath_policyDir,
    FileAccess.isFor_unlink, exists_eq_right', policyFile]

/-- The buffer holds as much of the name of the deployed copy when nothing is cut off. -/
theorem take_eq_policyFile :
    (name ++ ".yaml".toList).take 488 = policyFile name ↔ name.length ≤ 453 := by
  have hlen : (name ++ ".yaml".toList).length = name.length + 5 := List.length_append
  constructor
  · intro h
    have heq := congrArg List.length h
    rw [policyFile, List.length_take, List.length_take, hlen] at heq
    omega
  · intro hle
    rw [policyFile, List.take_of_length_le (by omega), List.take_of_length_le (by omega)]

/-- Removing it with its deployed copy. -/
theorem staysInPolicies_unlink_both :
    StaysInPolicies [.unlink (policyPath policyDir name), .unlink (policyPath deployedDir name)] ↔
      IsPolicyFile (policyFile name) ∧ name.length ≤ 453 := by
  rw [← take_eq_policyFile]
  simp only [StaysInPolicies, List.forall_mem_cons, policyPath_policyDir, policyPath_deployedDir,
    FileAccess.isFor_unlink, FileAccess.isFor_deployed, policyFile, List.not_mem_nil,
    false_implies, implies_true, and_true]
  constructor
  · rintro ⟨file, hfile, rfl, heq⟩
    exact ⟨hfile, heq⟩
  · rintro ⟨hfile, heq⟩
    exact ⟨_, hfile, rfl, heq⟩

/-! ## Requests -/

/-- The calls that a route leads to. -/
def Route.accesses (libs : Libs) (a : Answers) (data : Option CStr) : Route → List FileAccess
  | .handler h => h.accesses libs a data
  | .notFound | .overrun => []

/-- A request makes a handler open or remove the file of a policy: it reads or deletes one, or it
saves one with a body that has a text for it. -/
def OpensPolicy (libs : Libs) (method name : CStr) (data : Option CStr) : Prop :=
  ¬ "/deploy".toList <:+: name ∧ (method = "GET".toList ∨ method = "DELETE".toList ∨
    method = "POST".toList ∧ ∃ content, savedContent libs data = .inr content)

/-- The name stands for one file, and for the same one among the deployed policies when both are
removed. -/
def NamesOneFile (a : Answers) (method name : CStr) : Prop :=
  IsPolicyFile (policyFile name) ∧ (method = "DELETE".toList →
    a.unlinkOk (policyPath policyDir name) = true → name.length ≤ 453)

/-- A name of at most 453 characters stands for one file when it has no directory in it. -/
theorem namesOneFile_iff (method : CStr) (hle : name.length ≤ 453) :
    NamesOneFile a method name ↔ '/' ∉ name := by
  have hfile : policyFile name = name ++ ".yaml".toList :=
    List.take_of_length_le (by rw [List.length_append]; exact Nat.add_le_add_right hle 5)
  rw [NamesOneFile, hfile]
  constructor
  · rintro ⟨⟨hslash, -⟩, -⟩ hmem
    exact hslash (List.mem_append_left _ hmem)
  · intro hslash
    refine ⟨⟨fun hmem => ?_, List.suffix_append ..⟩, fun _ _ => hle⟩
    rcases List.mem_append.1 hmem with hmem | hmem
    · exact hslash hmem
    · exact absurd hmem (by decide)

/-- Nothing is opened or removed on the deploy route. -/
theorem policyRoute_accesses_of_deploy (hin : "/deploy".toList <:+: name) (method : CStr) :
    (policyRoute name method).accesses libs a data = [] := by
  obtain ⟨t, ht⟩ := Option.isSome_iff_exists.1 ((beforeDeploy_isSome name).2 hin)
  rw [policyRoute, ht]
  cases beforeDeploy (name.take 255) with
  | none => rfl
  | some t =>
    dsimp only
    split <;> rfl

/-- Saving a policy opens its file when the body has a text for it. -/
theorem staysInPolicies_save :
    StaysInPolicies ((Handler.policySave name).accesses libs a data) ↔
      ∀ content, savedContent libs data = .inr content → IsPolicyFile (policyFile name) := by
  rw [Handler.accesses]
  cases savedContent libs data with
  | inl err => exact iff_of_true staysInPolicies_nil nofun
  | inr content => exact staysInPolicies_fopen.trans ⟨fun h _ _ => h, fun h => h content rfl⟩

/-- Deleting a policy removes its deployed copy when its file could be removed. -/
theorem staysInPolicies_delete :
    StaysInPolicies ((Handler.policyDelete name).accesses libs a data) ↔
      IsPolicyFile (policyFile name) ∧
        (a.unlinkOk (policyPath policyDir name) = true → name.length ≤ 453) := by
  rw [Handler.accesses]
  split
  · rename_i hok
    rw [staysInPolicies_unlink_both]
    exact ⟨fun h => ⟨h.1, fun _ => h.2⟩, fun h => ⟨h.1, h.2 hok⟩⟩
  · rename_i hok
    rw [staysInPolicies_unlink]
    exact ⟨fun h => ⟨h, fun hok' => absurd hok' hok⟩, And.left⟩

/-- **When a request touches one file of the directory only**: when it touches none, or the name
stands for one. -/
theorem staysInPolicies_iff {url : CStr} (method : CStr)
    (hurl : startsWith url "/api/v1/security/policy/" = true) :
    StaysInPolicies ((protectedRoute url method).accesses libs a data) ↔
      (OpensPolicy libs method (url.drop 24) data → NamesOneFile a method (url.drop 24)) := by
  obtain ⟨name, rfl⟩ := eq_append_of_startsWith hurl
  have hdrop : ("/api/v1/security/policy/".toList ++ name).drop 24 = name := rfl
  rw [protectedRoute_policy, hdrop]
  rcases Classical.em ("/deploy".toList <:+: name) with hin | hin
  · rw [policyRoute_accesses_of_deploy hin]
    exact iff_of_true staysInPolicies_nil fun hopens => absurd hin hopens.1
  · have hdeploy : beforeDeploy name = none :=
      Option.not_isSome_iff_eq_none.1 fun hsome => hin ((beforeDeploy_isSome name).1 hsome)
    rw [policyRoute, hdeploy]
    dsimp only
    split
    · rename_i hget
      subst hget
      rw [Route.accesses, Handler.accesses, staysInPolicies_fopen]
      exact ⟨fun hfile _ => ⟨hfile, fun h => absurd h (by decide)⟩, fun h => (h ⟨hin, .inl rfl⟩).1⟩
    · rename_i hget
      split
      · rename_i hpost
        subst hpost
        rw [Route.accesses, staysInPolicies_save]
        constructor
        · rintro h ⟨-, hmethod | hmethod | ⟨-, content, hcontent⟩⟩
          · exact absurd hmethod (by decide)
          · exact absurd hmethod (by decide)
          · exact ⟨h content hcontent, fun hmethod => absurd hmethod (by decide)⟩
        · intro h content hcontent
          exact (h ⟨hin, .inr (.inr ⟨rfl, content, hcontent⟩)⟩).1
      · rename_i hpost
        split
        · rename_i hdelete
          subst hdelete
          rw [Route.accesses, staysInPolicies_delete]
          constructor
          · intro h _
            exact ⟨h.1, fun _ => h.2⟩
          · intro h
            obtain ⟨hfile, hlen⟩ := h ⟨hin, .inr (.inl rfl)⟩
            exact ⟨hfile, hlen rfl⟩
        · rename_i hdelete
          refine iff_of_true staysInPolicies_nil ?_
          rintro ⟨-, hmethod | hmethod | ⟨hmethod, -⟩⟩
          · exact absurd hmethod hget
          · exact absurd hmethod hdelete
          · exact absurd hmethod hpost

/-- The policy "ssh" is removed with its deployed copy. -/
theorem staysInPolicies_ssh : StaysInPolicies
    ((protectedRoute "/api/v1/security/policy/ssh".toList "DELETE".toList).accesses
      ⟨fun _ => none, fun _ => [], fun _ => []⟩ (.still 1700000000) none) :=
  (staysInPolicies_iff _ rfl).2 fun _ =>
    ⟨⟨by decide, ⟨"ssh".toList, rfl⟩⟩, fun _ _ => by decide⟩

/-- A name with a directory in it opens a file elsewhere. -/
theorem not_staysInPolicies_parent : ¬ ∀ (libs : Libs) (a : Answers) (data : Option CStr)
    (url method : CStr), startsWith url "/api/v1/security/policy/" = true →
      StaysInPolicies ((protectedRoute url method).accesses libs a data) := by
  intro h
  have hstays : StaysInPolicies [.fopen (policyPath policyDir "../x".toList)] :=
    h ⟨fun _ => none, fun _ => [], fun _ => []⟩ (.still 1700000000) none
      "/api/v1/security/policy/../x".toList "GET".toList rfl
  exact absurd (staysInPolicies_fopen.1 hstays).noSlash (by decide)

end Cyrenus
