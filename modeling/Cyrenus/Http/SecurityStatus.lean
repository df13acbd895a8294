import Cyrenus.Api.SecurityReads
import Cyrenus.Http.NullPointers
import Cyrenus.Http.Permissions

/-!
# The status of the security routes

The handlers of the security routes choose a status for each way in which they may end, but the
response they make does not carry it, and `handle_request` queues each of them with the status 200.
`securityStatus_iff` says when that is the status the handler chose: when everything it asked for
succeeded. A handler that crashes chooses no status, and none is queued.
-/

namespace Cyrenus

/-! ## Responses -/

/-- What the handlers that only read answer with, those of the other routes given. -/
def SecurityReads.report (libs : Libs) (r : SecurityReads) (other : Handler → Option Response) :
    Handler → Option Response
  | .eventsList => some (apiSecurityEventsList libs r.list r.now r.params)
  | .securityStats =>
    some (apiSecurityStats libs r.count r.stats r.running r.now r.params)
  | .policiesList => some (apiSecurityPoliciesList libs r)
  | .policyGet name => apiSecurityPolicyGet libs r name
  | .securityLogs => some (apiSecurityLogs libs r)
  | .configGet => apiSecurityConfigGet libs r
  | h => other h

/-- The response that a handler of the security routes makes, with the status it chooses, unless it
crashes. -/
def securityResponse (libs : Libs) (a : Answers) (r : SecurityReads) (data : Option CStr)
    (files : Files) : Handler → Option Response
  | .policyDeploy name => some (apiSecurityPolicyDeploy a name files).1
  | .policySave name => (apiSecurityPolicySave libs a name data files).1
  | .policyDelete name => some (apiSecurityPolicyDelete a name files).1
  | .configSave => (apiSecurityConfigSave libs a data files).1
  | h => r.report libs (fun _ => none) h

/-- The status of a reply. -/
def Reply.status : Reply → Option ℕ
  | .queued r => some r.status
  | .refused | .nullRead | .overrun | .crashed => none

/-- What a handler of the security routes asks for succeeds: the query of the database, the file
that it opens and reads or removes, the body that it parses, the command that it runs. -/
def SecuritySucceeds (libs : Libs) (a : Answers) (r : SecurityReads) (data : Option CStr)
    (files : Files) : Handler → Prop
  | .eventsList => (r.list (r.params.query r.now)).isSome
  | .securityStats => (r.count (r.params.range r.now)).isSome
  | .policyGet name => ∃ file, r.fopen (policyPath policyDir name) = some file ∧ file.text.isSome
  | .policySave _ => ∃ content, savedContent libs data = .inr (some content) ∧ a.fopenOk
  | .policyDeploy name => (a.system (deployCommand name) files).1 = 0
  | .policyDelete name => a.unlinkOk (policyPath policyDir name)
  | .securityLogs => (r.popen (logsCommand r.lines)).isSome
  | .configGet => ∃ file, r.fopen tetragonConfig = some file ∧ file.text.isSome
  | .configSave => ∃ content, savedContent libs data = .inr (some content) ∧ a.fopenOk ∧
      (a.system saveConfigCommand (files.set tmpConfig content)).1 = 0
  | _ => True

/-- A handler of the security routes crashes: the file that it reads has no size or finds no memory,
or the text to be saved is `null` and the file for it is open. -/
def SecurityCrashes (libs : Libs) (a : Answers) (r : SecurityReads) (data : Option CStr) :
    Handler → Prop
  | .policyGet name => ∃ file, r.fopen (policyPath policyDir name) = some file ∧ file.text = none
  | .configGet => ∃ file, r.fopen tetragonConfig = some file ∧ file.text = none
  | .policySave _ | .configSave => savedContent libs data = .inr none ∧ a.fopenOk
  | _ => False

variable {libs : Libs} {a : Answers} {r : SecurityReads} {data : Option CStr} {files : Files}

/-- A body without a text for the file is the fault of the client. -/
theorem savedContent_inl {err : Response} (h : savedContent libs data = .inl err) :
    err.status = 400 := by
  unfold savedContent at h
  repeat' split at h
  all_goals cases h <;> rfl

/-- The status of what a handler makes of a file: an error when it cannot be opened, else 200 unless
the handler crashes. -/
theorem answerFile_status {file : Option FileRead} {err : Response} {ok : CStr → Response}
    (herr : err.status ≠ 200) (hok : ∀ text, (ok text).status = 200) :
    (∀ resp ∈ answerFile file err ok, resp.status = 200) ↔
      (∃ f, file = some f ∧ f.text.isSome) ∨ ∃ f, file = some f ∧ f.text = none := by
  cases file with
  | none => simp [answerFile, herr]
  | some f => cases htext : f.text <;> simp [answerFile, htext, hok]

/-- **The status that a handler chooses**, if it does not crash before that, is 200 when what it asks
for succeeds, and only then. -/
theorem securityResponse_status (libs : Libs) (a : Answers) (r : SecurityReads) (data : Option CStr)
    (files : Files) (h : Handler) :
    (∀ resp ∈ securityResponse libs a r data files h, resp.status = 200) ↔
      SecuritySucceeds libs a r data files h ∨ SecurityCrashes libs a r data h := by
  cases h with
  | eventsList =>
    simp only [securityResponse, SecurityReads.report, apiSecurityEventsList, SecuritySucceeds,
      SecurityCrashes, or_false]
    cases r.list (r.params.query r.now) <;> simp [jsonResponse]
  | securityStats =>
    simp only [securityResponse, SecurityReads.report, apiSecurityStats, SecuritySucceeds,
      SecurityCrashes, or_false]
    cases r.count (r.params.range r.now) <;> simp [jsonResponse]
  | policyGet name =>
    simp only [securityResponse, SecurityReads.report, apiSecurityPolicyGet]
    exact answerFile_status (by decide) fun _ => rfl
  | configGet =>
    simp only [securityResponse, SecurityReads.report, apiSecurityConfigGet]
    exact answerFile_status (by decide) fun _ => rfl
  | securityLogs =>
    simp only [securityResponse, SecurityReads.report, apiSecurityLogs, SecuritySucceeds,
      SecurityCrashes, or_false]
    cases r.popen (logsCommand r.lines) <;> simp [jsonResponse]
  | policyDeploy name =>
    simp only [securityResponse, apiSecurityPolicyDeploy, SecuritySucceeds, SecurityCrashes,
      or_false]
    split <;> simp [*]
  | policyDelete name =>
    simp only [securityResponse, apiSecurityPolicyDelete, SecuritySucceeds, SecurityCrashes,
      or_false]
    split <;> simp [*]
  | policySave name =>
    simp only [securityResponse, apiSecurityPolicySave, SecuritySucceeds, SecurityCrashes]
    cases hcontent : savedContent libs data with
    | inl err => simp [savedContent_inl hcontent]
    | inr content => cases content <;> cases a.fopenOk <;> simp
  | configSave =>
    simp only [securityResponse, apiSecurityConfigSave, SecuritySucceeds, SecurityCrashes]
    cases hcontent : savedContent libs data with
    | inl err => simp [savedContent_inl hcontent]
    | inr content =>
      cases a.fopenOk with
      | false => simp
      | true =>
        cases content with
        | none => simp
        | some text =>
          simp only [if_true, Sum.inr.injEq, Option.some.injEq, exists_eq_left', true_and]
          split <;> simp [*]
  | policiesList => exact iff_of_true (fun _ h => by cases h; rfl) (.inl trivial)
  | _ => exact iff_of_true (fun _ h => by cases h) (.inl trivial)

/-- The handlers of the security routes. -/
def Handler.isSecurity : Handler → Bool
  | .eventsList | .securityStats | .policiesList | .policyGet _ | .securityLogs | .configGet
  | .policyDeploy _ | .policyDelete _ | .policySave _ | .configSave => true
  | _ => false

/-- **The status that is queued** is 200, whatever the handler chose. -/
theorem runHandler_status {other : Handler → Option Response} {req : HttpRequest} {srv : Server}
    {h : Handler} (hsec : h.isSecurity = true) :
    (runHandler libs a (r.report libs other) req data srv h).1.status =
      (securityResponse libs a r data srv.files h).map fun _ => 200 := by
  have hmade : ∀ resp : Option Response,
      (Reply.made (resp.map fun resp => ⟨200, resp.content⟩)).status = resp.map fun _ => 200 := by
    rintro (_ | resp) <;> rfl
  have hstatus := hmade (securityResponse libs a r data srv.files h)
  cases h with
  | eventsList | securityStats | policiesList | policyGet | securityLogs | configGet
  | policyDeploy | policyDelete | policySave | configSave => exact hstatus
  | _ => cases hsec

/-- The routes under `/api/v1/security` lead to these handlers. -/
theorem securityRoute_isSecurity (url method : CStr) :
    (securityRoute url method).All fun h => h.isSecurity = true := by
  unfold securityRoute
  refine .ite rfl (.ite rfl (.ite rfl ?_))
  split
  · exact policyRoute_all (fun _ => rfl) (fun _ => rfl) (fun _ => rfl) (fun _ => rfl) _ _
  · exact .ite rfl (.ite rfl (.ite rfl nofun))

/-! ## Requests -/

/-- **When the client sees the status that the handler chose**, on a route of
`/api/v1/security`: when what the handler asked for succeeded, or it crashed and chose none. -/
theorem securityStatus_iff (libs : Libs) (a : Answers) (r : SecurityReads)
    (other : Handler → Option Response) (req : HttpRequest) (srv : Server) {h : Handler}
    (hroute : securityRoute req.url req.method = .handler h)
    (hrun : (handleRequest libs a (r.report libs other) req srv).1.handler = some h) :
    (handleRequest libs a (r.report libs other) req srv).1.reply.status =
        (securityResponse libs a r req.text srv.files h).map Response.status ↔
      SecuritySucceeds libs a r req.text srv.files h ∨ SecurityCrashes libs a r req.text h := by
  have hsec := securityRoute_isSecurity req.url req.method h hroute
  have hqueued : (handleRequest libs a (r.report libs other) req srv).1.reply.status =
      (securityResponse libs a r req.text srv.files h).map fun _ => 200 := by
    have hcase := handleRequest_handled libs a (r.report libs other) req srv
    generalize handleRequest libs a (r.report libs other) req srv = out at hcase hrun
    cases hcase with
    | tooLarge _ => cases hrun
    | anyone hctx _ =>
      cases hrun
      rw [(HttpRequest.receive_eq_some hctx).2]
      exact runHandler_status hsec
    | unauthorized _ _ _ => cases hrun
    | authenticated hctx _ _ =>
      rw [runRoute_handler.1 hrun, (HttpRequest.receive_eq_some hctx).2]
      exact runHandler_status hsec
  rw [hqueued, ← securityResponse_status]
  cases securityResponse libs a r req.text srv.files h with
  | none => simp
  | some resp => simp [eq_comm]

/-- Surroundings in which nothing can be read. -/
def SecurityReads.nothing : SecurityReads where
  list := fun _ => none
  count := fun _ => none
  stats := ⟨0, 0, 0, 0⟩
  running := false
  now := 1700000000
  params := ⟨none, none, none, none, none, none⟩
  lines := none
  policies := none
  access := fun _ => false
  stat := fun _ => none
  name := fun _ => .filled 256 '\x00'
  beyond := fun _ => []
  fopen := fun _ => none
  popen := fun _ => none

/-- Surroundings in which every command fails. -/
def Answers.failing : Answers :=
  { Answers.still 1700000000 with system := fun _ files => (256, files) }

/-- The list of the policies is answered as its handler wants it. -/
theorem securityStatus_policies :
    (handleRequest readKeyLibs (.still 1700000000)
        (SecurityReads.nothing.report readKeyLibs fun _ => some ⟨200, ""⟩)
        (readKeyRequest "GET" "/api/v1/security/policies") readKeyServer).1.reply.status =
      (securityResponse readKeyLibs (.still 1700000000) .nothing none Table.empty
        .policiesList).map Response.status :=
  (securityStatus_iff readKeyLibs (.still 1700000000) .nothing (fun _ => some ⟨200, ""⟩)
    (readKeyRequest "GET" "/api/v1/security/policies") readKeyServer rfl rfl).2 (.inl trivial)

/-- A deployment that failed is answered as one that succeeded. -/
theorem securityStatus_deploy :
    (handleRequest readKeyLibs .failing
        (SecurityReads.nothing.report readKeyLibs fun _ => some ⟨200, ""⟩)
        (readKeyRequest "POST" "/api/v1/security/policy/ssh/deploy") readKeyServer).1 =
      ⟨some (.policyDeploy "ssh".toList),
        .text 200 "\x7b\"error\":\"Failed to deploy policy\"\x7d"⟩ ∧
      (securityResponse readKeyLibs .failing .nothing none readKeyServer.files
        (.policyDeploy "ssh".toList)).map Response.status = some 500 :=
  ⟨rfl, rfl⟩

end Cyrenus
