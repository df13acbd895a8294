import Cyrenus.Http.KeyAccess
import Cyrenus.Http.Operations
import Cyrenus.Http.PolicyFiles
import Cyrenus.Http.SecurityStatus
import Cyrenus.Lib.TableHistory

/-!
# The policies as a store

The requests that save, delete, read and list policies work on files, whose paths are made of the
names in a buffer. For names that stand for one file (`PolicyName`) they are a store of texts under
names: after any run of requests it holds what the last saves have put there (`policies_final`), a
request to read a policy gets that, and the list has the names that are held (`policyStore`).
-/

namespace Cyrenus

open Trace (final trace)
open Table (Change LastSet)
open CStr (ofBytes)

/-! ## Names -/

/-- A name that stands for a file of its own. -/
structure PolicyName where
  text : CStr
  noSlash : '/' ∉ text
  noNul : '\x00' ∉ text
  short : text.length ≤ 453
  deriving DecidableEq

/-- The name of the file. -/
def PolicyName.file (n : PolicyName) : CStr := n.text ++ ".yaml".toList

/-- Its path, as the handlers make it. -/
def PolicyName.path (n : PolicyName) : CStr := policyPath policyDir n.text

theorem PolicyName.path_eq (n : PolicyName) : n.path = policyDir ++ n.file := by
  rw [path, policyPath_policyDir, file, List.take_of_length_le]
  rw [List.length_append]
  exact Nat.add_le_add_right n.short 5

theorem PolicyName.path_injective : Function.Injective PolicyName.path := by
  intro n m h
  rw [path_eq, path_eq] at h
  have htext : n.text = m.text := List.append_cancel_right (List.append_cancel_left h)
  obtain ⟨text, _, _, _⟩ := n
  obtain rfl : text = m.text := htext
  rfl

/-- The name that a text is, if it is one. -/
def policyName? (text : CStr) : Option PolicyName :=
  if h : '/' ∉ text ∧ '\x00' ∉ text ∧ text.length ≤ 453 then some ⟨text, h.1, h.2.1, h.2.2⟩
  else none

theorem policyName?_eq_some {text : CStr} {n : PolicyName} (h : policyName? text = some n) :
    n.text = text := by
  rw [policyName?] at h
  split at h
  · cases h
    rfl
  · cases h

/-- The policies among the files. -/
def Files.policies (files : Files) : Table PolicyName CStr := fun n => files n.path

theorem Files.policies_set (files : Files) (n : PolicyName) (content : CStr) :
    Files.policies (files.set n.path content) = (Files.policies files).set n content := by
  funext m
  rcases eq_or_ne m n with rfl | hne
  · rw [Table.set_same, policies, Table.set_same]
  · rw [Table.set_other hne, policies, Table.set_other (PolicyName.path_injective.ne hne)]
    rfl

theorem Files.policies_erase (files : Files) (n : PolicyName) :
    Files.policies (files.erase n.path) = (Files.policies files).erase n := by
  funext m
  rcases eq_or_ne m n with rfl | hne
  · rw [Table.erase_same, policies, Table.erase_same]
  · rw [Table.erase_other hne, policies, Table.erase_other (PolicyName.path_injective.ne hne)]
    rfl

/-- A file elsewhere is no policy. -/
theorem Files.policies_set_other {files : Files} {path : CStr}
    (h : ∀ n : PolicyName, n.path ≠ path) (content : CStr) :
    Files.policies (files.set path content) = Files.policies files :=
  funext fun n => Table.set_other (h n)

theorem Files.policies_erase_other {files : Files} {path : CStr}
    (h : ∀ n : PolicyName, n.path ≠ path) :
    Files.policies (files.erase path) = Files.policies files :=
  funext fun n => Table.erase_other (h n)

theorem PolicyName.path_ne_deployed (n : PolicyName) (name : CStr) :
    n.path ≠ policyPath deployedDir name := by
  rw [path_eq, policyPath_deployedDir]
  exact policyDir_append_ne _ _

/-! ## One request -/

/-- The change of the policies that a handler makes. A save that crashes leaves the file empty. -/
def Handler.policyChange (libs : Libs) (a : Answers) (data : Option CStr) :
    Handler → Option (Change PolicyName CStr)
  | .policySave name =>
    match savedContent libs data with
    | .inl _ => none
    | .inr content => if a.fopenOk then (policyName? name).map (.set · (content.getD [])) else none
  | .policyDelete name =>
    if a.unlinkOk (policyPath policyDir name) then (policyName? name).map .erase else none
  | _ => none

/-- The commands that a handler may run. -/
def Handler.commands : Handler → List CStr
  | .policyDeploy name => [deployCommand name]
  | .policyDelete _ => ["sudo systemctl restart tetragon".toList]
  | .configSave => [saveConfigCommand]
  | _ => []

/-- The name that a handler changes the policy of. -/
def Handler.changedName? : Handler → Option CStr
  | .policySave name | .policyDelete name => some name
  | _ => none

/-- A handler keeps to the policies: it changes one under a name that stands for a file of its own,
and its commands change none. -/
structure Handler.Tidy (a : Answers) (h : Handler) : Prop where
  named : ∀ name ∈ h.changedName?, (policyName? name).isSome
  commands : ∀ cmd ∈ h.commands, ∀ files,
    Files.policies (a.system cmd files).2 = Files.policies files

section

variable {libs : Libs} {a : Answers} {report : Handler → Option Response} {req : HttpRequest}
  {data : Option CStr} {srv : Server}

theorem apiSecurityPolicySave_policies {name : CStr} {files : Files}
    (h : (policyName? name).isSome) :
    Files.policies (apiSecurityPolicySave libs a name data files).2 =
      ((Handler.policySave name).policyChange libs a data).elim (Files.policies files)
        (Change.apply (Files.policies files)) := by
  obtain ⟨n, hn⟩ := Option.isSome_iff_exists.1 h
  have hname := policyName?_eq_some hn
  rw [apiSecurityPolicySave, Handler.policyChange]
  cases savedContent libs data with
  | inl err => rfl
  | inr content =>
    cases a.fopenOk with
    | false => rfl
    | true =>
      rw [hn, ← hname]
      exact Files.policies_set files n _

theorem apiSecurityPolicyDelete_policies {name : CStr} {files : Files}
    (h : (Handler.policyDelete name).Tidy a) :
    Files.policies (apiSecurityPolicyDelete a name files).2 =
      ((Handler.policyDelete name).policyChange libs a data).elim (Files.policies files)
        (Change.apply (Files.policies files)) := by
  obtain ⟨n, hn⟩ := Option.isSome_iff_exists.1 (h.named name rfl)
  have hname := policyName?_eq_some hn
  rw [apiSecurityPolicyDelete, Handler.policyChange]
  cases hok : a.unlinkOk (policyPath policyDir name) with
  | false => rfl
  | true =>
    have hdeployed : ∀ files, Files.policies (unlink a (policyPath deployedDir name) files) =
        Files.policies files := by
      intro files
      rw [unlink]
      split
      · exact Files.policies_erase_other fun n => n.path_ne_deployed name
      · rfl
    rw [if_pos rfl, if_pos rfl, hn, h.commands _ (List.mem_singleton.2 rfl), hdeployed, unlink,
      if_pos hok, ← hname]
    exact Files.policies_erase files n

theorem apiSecurityConfigSave_policies {files : Files} (h : Handler.configSave.Tidy a) :
    Files.policies (apiSecurityConfigSave libs a data files).2 = Files.policies files := by
  have hother : ∀ n : PolicyName, n.path ≠ tmpConfig := by
    intro n heq
    have hsecond := congrArg (·[1]?) heq
    rw [PolicyName.path_eq, List.getElem?_append_left (by decide)] at hsecond
    exact absurd hsecond (by decide)
  rw [apiSecurityConfigSave]
  cases savedContent libs data with
  | inl err => rfl
  | inr content =>
    cases a.fopenOk with
    | false => rfl
    | true =>
      cases content with
      | none => exact Files.policies_set_other hother _
      | some text =>
        exact (h.commands _ (List.mem_singleton.2 rfl) _).trans (Files.policies_set_other hother _)

/-- **What a handler does to the policies.** -/
theorem runHandler_policies {h : Handler} (ht : h.Tidy a) :
    Files.policies (runHandler libs a report req data srv h).2.files =
      (h.policyChange libs a data).elim (Files.policies srv.files)
        (Change.apply (Files.policies srv.files)) := by
  cases h with
  | policySave name => exact apiSecurityPolicySave_policies (ht.named name rfl)
  | policyDelete name => exact apiSecurityPolicyDelete_policies ht
  | policyDeploy name => exact ht.commands _ (List.mem_singleton.2 rfl) _
  | configSave => exact apiSecurityConfigSave_policies ht
  | updateSettings | rulesCreate => cases data <;> rfl
  | _ => rfl

end

/-- The change of the policies that a request has made. -/
def policyChange (libs : Libs) (eo : Exchange × Outcome) : Option (Change PolicyName CStr) :=
  eo.2.handler.bind (Handler.policyChange libs eo.1.answers eo.1.request.body)

/-- The request keeps to the policies. -/
def TidyExchange (eo : Exchange × Outcome) : Prop :=
  ∀ h ∈ eo.2.handler, h.Tidy eo.1.answers

/-- **One request** changes the policies as its handler does, if one is run. -/
theorem httpStep_policies {libs : Libs} {e : Exchange} {srv : Server}
    (ht : TidyExchange (e, (httpStep libs e srv).1)) :
    Files.policies (httpStep libs e srv).2.files =
      (policyChange libs (e, (httpStep libs e srv).1)).elim (Files.policies srv.files)
        (Change.apply (Files.policies srv.files)) := by
  have hcase := handleRequest_handled libs e.answers e.report e.request srv
  rw [httpStep] at ht ⊢
  rw [policyChange]
  generalize handleRequest libs e.answers e.report e.request srv = r at hcase ht
  cases hcase with
  | tooLarge | unauthorized => rfl
  | anyone hctx =>
    rw [HttpRequest.body, hctx]
    exact runHandler_policies (ht _ rfl)
  | authenticated hctx =>
    rw [HttpRequest.body, hctx]
    cases hroute : protectedRoute e.request.url e.request.method with
    | handler h =>
      rw [hroute] at ht
      exact runHandler_policies (ht h rfl)
    | notFound | overrun => rfl

/-! ## Runs -/

/-- The changes of the policies that the requests of a run have made. -/
def policyChanges (libs : Libs) (srv : Server) (es : List Exchange) :
    List (Change PolicyName CStr) :=
  (trace (httpStep libs) srv es).filterMap (policyChange libs)

/-- **The policies after a run.** -/
theorem policies_final {libs : Libs} {srv : Server} {es : List Exchange}
    (htidy : ∀ eo ∈ trace (httpStep libs) srv es, TidyExchange eo) :
    Files.policies (final (httpStep libs) srv es).files =
      (policyChanges libs srv es).foldl Change.apply (Files.policies srv.files) := by
  induction es generalizing srv with
  | nil => rfl
  | cons e es ih =>
    obtain ⟨he, hes⟩ := List.forall_mem_cons.1 htidy
    rw [Trace.final_cons, ih hes, httpStep_policies he, policyChanges, policyChanges,
      Trace.trace_cons, List.filterMap_cons]
    cases policyChange libs (e, (httpStep libs e srv).1) <;> rfl

/-- The run has put a text under a name: the last request that has changed it has saved that, or
none has and it was there before. -/
def HoldsPolicy (libs : Libs) (srv : Server) (es : List Exchange) (n : PolicyName)
    (content : CStr) : Prop :=
  LastSet (policyChanges libs srv es) n content ∨
    (∀ change ∈ policyChanges libs srv es, change.key ≠ n) ∧ srv.files n.path = some content

/-! ## Reading -/

/-- The surroundings read from the files: each can be opened and is read whole, and the directory
has the names of its files. -/
structure SecurityReads.Reads (r : SecurityReads) (files : Files) : Prop where
  fopen : ∀ path, r.fopen path = (files path).map FileRead.whole
  policies : ∀ n : PolicyName, n.file ∈ r.policies.getD [] ↔ files n.path ≠ none

/-- What stands before the last dot of the name of a file is the name of the policy. -/
theorem beforeLastDot_file (n : PolicyName) : beforeLastDot n.file = n.text := by
  have hdot : '.' ∈ n.file := List.mem_append_right _ (by decide)
  have hreverse : n.file.reverse = "lmay".toList ++ '.' :: n.text.reverse := by
    rw [PolicyName.file, List.reverse_append]
    rfl
  rw [beforeLastDot, if_pos hdot, hreverse]
  exact List.reverse_reverse n.text

/-- A policy of the list is shown under its name, as long as that fits the variable. -/
theorem policyJson_file (r : SecurityReads) {n : PolicyName} (hfits : n.text.length < 250) :
    (policyJson r n.file).get? "name" = some (.string n.text) := by
  have hlength : n.file.length < 255 := by
    rw [PolicyName.file, List.length_append]
    exact Nat.add_lt_add_right hfits 5
  have hnul : '\x00' ∉ n.file := by
    rw [PolicyName.file, List.mem_append]
    exact not_or.2 ⟨n.noNul, by decide⟩
  rw [policyJson, Buffer.ofBytes_strncpy (by decide) hlength hnul, beforeLastDot_file]
  rfl

/-- The file of an entry of the list. -/
theorem policyJson_filename (r : SecurityReads) (filename : CStr) :
    (policyJson r filename).get? "filename" = some (.string filename) := rfl

/-- The entries of the list. -/
def policyEntries (r : SecurityReads) : List Json :=
  ((r.policies.getD []).filter fun name => strstr name ".yaml").map (policyJson r)

/-- **The list** has an entry for each policy that is held. -/
theorem mem_policyEntries_iff {r : SecurityReads} {files : Files} (hreads : r.Reads files)
    (n : PolicyName) (hfits : n.text.length < 250) :
    (∃ entry ∈ policyEntries r, entry.get? "filename" = some (.string n.file) ∧
      entry.get? "name" = some (.string n.text)) ↔ files n.path ≠ none := by
  rw [← hreads.policies]
  constructor
  · rintro ⟨entry, hentry, hfile, -⟩
    obtain ⟨filename, hmem, rfl⟩ := List.mem_map.1 hentry
    rw [policyJson_filename] at hfile
    obtain rfl : filename = n.file := by
      cases hfile
      rfl
    exact List.mem_of_mem_filter hmem
  · intro hmem
    refine ⟨policyJson r n.file, List.mem_map_of_mem (List.mem_filter.2 ⟨hmem, ?_⟩),
      policyJson_filename r _, policyJson_file r hfits⟩
    exact decide_eq_true (List.suffix_append ..).isInfix

/-- The answer of a request to read a policy, with the text that is held. -/
def policyAnswer (libs : Libs) (n : PolicyName) (content : CStr) : Reply :=
  .text 200 (jsonResponse libs [("name".toList, .string n.text),
    ("content".toList, .string (ofBytes content))]).content

/-- A request to read a policy is answered with what the handler makes of it. -/
theorem reply_of_policyGet {libs : Libs} {e : Exchange} {srv : Server} {name : CStr}
    (h : (httpStep libs e srv).1.handler = some (.policyGet name)) :
    (httpStep libs e srv).1.reply =
      .made ((e.report (.policyGet name)).map fun resp => ⟨200, resp.content⟩) := by
  have hcase := handleRequest_handled libs e.answers e.report e.request srv
  rw [httpStep] at h ⊢
  generalize handleRequest libs e.answers e.report e.request srv = r at hcase h
  cases hcase with
  | tooLarge | unauthorized => cases h
  | anyone =>
    rw [runRoute, Option.some.injEq] at h
    subst h
    rfl
  | authenticated =>
    generalize protectedRoute e.request.url e.request.method = route at h
    cases route with
    | handler g =>
      rw [runRoute, Option.some.injEq] at h
      subst h
      rfl
    | notFound | overrun => cases h

/-- **The policies are a store.** Let the requests of a run keep to the policies, and let the files
be read whole. Then a request to read a policy is answered with the text that the run has put under
its name, or with an error if it has put none there; and the list that is made at the end has an
entry for a name exactly if a text is held under it, as long as the name fits the variable that it
is copied to. -/
theorem policyStore (libs : Libs) (srv : Server) (es : List Exchange)
    (htidy : ∀ eo ∈ trace (httpStep libs) srv es, TidyExchange eo) (r : SecurityReads)
    (hreads : r.Reads (final (httpStep libs) srv es).files) (n : PolicyName) :
    (∀ e other, e.report = r.report libs other →
      (httpStep libs e (final (httpStep libs) srv es)).1.handler = some (.policyGet n.text) →
        let reply := (httpStep libs e (final (httpStep libs) srv es)).1.reply
        (∀ content, HoldsPolicy libs srv es n content → reply = policyAnswer libs n content) ∧
          ((∀ content, ¬ HoldsPolicy libs srv es n content) →
            reply = .text 200 "\x7b\"error\":\"Policy not found\"\x7d")) ∧
      apiSecurityPoliciesList libs r =
        jsonResponse libs [("policies".toList, .array (policyEntries r))] ∧
      (n.text.length < 250 →
        ((∃ entry ∈ policyEntries r, entry.get? "filename" = some (.string n.file) ∧
            entry.get? "name" = some (.string n.text)) ↔
          ∃ content, HoldsPolicy libs srv es n content)) := by
  have hholds (content : CStr) : (final (httpStep libs) srv es).files n.path = some content ↔
      HoldsPolicy libs srv es n content := by
    have hrun := congrFun (policies_final htidy) n
    rw [Files.policies] at hrun
    rw [hrun, Table.foldl_apply_eq_some_iff]
    rfl
  refine ⟨fun e other hreport hhandler => ?_, rfl, fun hfits => ?_⟩
  · have hresponse : e.report (.policyGet n.text) = apiSecurityPolicyGet libs r n.text := by
      rw [hreport]
      rfl
    have hopen : r.fopen (policyPath policyDir n.text) =
        ((final (httpStep libs) srv es).files n.path).map FileRead.whole := hreads.fopen _
    intro reply
    have hreply : reply =
        .made ((apiSecurityPolicyGet libs r n.text).map fun resp => ⟨200, resp.content⟩) :=
      (reply_of_policyGet hhandler).trans (by rw [hresponse])
    rw [apiSecurityPolicyGet, hopen] at hreply
    constructor
    · intro content hcontent
      rw [(hholds content).2 hcontent, Option.map_some, answerFile, FileRead.text_whole] at hreply
      exact hreply
    · intro hnone
      have habsent : (final (httpStep libs) srv es).files n.path = none :=
        Option.eq_none_iff_forall_ne_some.2 fun content hsome => hnone content
          ((hholds content).1 hsome)
      rw [habsent] at hreply
      exact hreply
  · rw [mem_policyEntries_iff hreads n hfits, Option.ne_none_iff_exists']
    simp only [hholds]

/-- A request with the token "t" for the policy "ssh". -/
def sshRequest (method : CStr) (chunks : List (List Char)) (hne : ∀ chunk ∈ chunks, chunk ≠ []) :
    HttpRequest where
  url := "/api/v1/security/policy/ssh".toList
  method := method
  authorization := some "t".toList
  apiKey := none
  chunks := chunks
  chunks_ne := hne

/-- It saves the text "x". -/
def savesSsh : Exchange where
  request := sshRequest "POST".toList ["x".toList] (by decide)
  answers := .still 1700000000
  report := fun _ => some ⟨200, ""⟩

/-- Libraries that read any body so. -/
def sshLibs : Libs :=
  ⟨fun _ => some (.object [("content".toList, .string "x".toList)]), fun _ => [], fun _ => []⟩

/-- The name "ssh". -/
def sshName : PolicyName := ⟨"ssh".toList, by decide, by decide, by decide⟩

/-- The files after that. -/
theorem files_savesSsh : (final (httpStep sshLibs) sessionServer [savesSsh]).files =
    Table.set Table.empty sshName.path "x".toList := rfl

/-- What is read then. -/
def sshReads : SecurityReads :=
  { SecurityReads.nothing with
    fopen := fun path =>
      ((final (httpStep sshLibs) sessionServer [savesSsh]).files path).map FileRead.whole
    policies := some [sshName.file] }

/-- A request that reads the policy. -/
def readsSsh : Exchange where
  request := sshRequest "GET".toList [] nofun
  answers := .still 1700000000
  report := sshReads.report sshLibs fun _ => some ⟨200, ""⟩

theorem policyStore_ssh :
    (httpStep sshLibs readsSsh (final (httpStep sshLibs) sessionServer [savesSsh])).1.reply =
      policyAnswer sshLibs sshName "x".toList := by
  have htidy : ∀ eo ∈ trace (httpStep sshLibs) sessionServer [savesSsh], TidyExchange eo := by
    intro eo hmem
    obtain rfl : eo = (savesSsh, ⟨some (.policySave "ssh".toList), _⟩) := List.mem_singleton.1 hmem
    rintro _ ⟨⟩
    refine ⟨fun name hname => ?_, nofun⟩
    obtain rfl : "ssh".toList = name := Option.some.inj hname
    decide
  have hreads : sshReads.Reads (final (httpStep sshLibs) sessionServer [savesSsh]).files := by
    refine ⟨fun _ => rfl, fun n => ?_⟩
    rw [files_savesSsh]
    have hmem : n.file ∈ sshReads.policies.getD [] ↔ n = sshName := by
      refine List.mem_singleton.trans ⟨fun h => PolicyName.path_injective ?_, fun h => by rw [h]⟩
      rw [PolicyName.path_eq, PolicyName.path_eq, h]
    rw [hmem]
    rcases eq_or_ne n sshName with rfl | hne
    · simp
    · rw [Table.set_other (PolicyName.path_injective.ne hne)]
      exact iff_of_false hne (not_not_intro rfl)
  have hstore := policyStore sshLibs sessionServer [savesSsh] htidy sshReads hreads sshName
  exact (hstore.1 readsSsh _ rfl rfl).1 _ (.inl ⟨[], [], rfl, nofun⟩)

end Cyrenus
