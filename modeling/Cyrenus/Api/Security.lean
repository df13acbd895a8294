import Cyrenus.Api.Context

/-!
# The policy and configuration requests of Tetragon

The handlers that write, deploy and remove the policies of Tetragon, and the one that writes its
configuration. Each of them works on files and runs the shell, whose effect on the files is one of
the answers. They make responses with a status, which the server does not queue them with. A text
that is saved is taken to be written whole.
-/

namespace Cyrenus

open CStr (strncpy)

/-- Where the policies are kept. -/
def policyDir : CStr := "/home/moh/Documents/cyrenus/config/tetragon/policies/".toList

/-- Where the deployed policies are kept. -/
def deployedDir : CStr := "/etc/tetragon/policies/".toList

/-- The path of a policy in a directory, as a buffer of 512 bytes holds it. -/
def policyPath (dir policyName : CStr) : CStr := strncpy 511 (dir ++ policyName ++ ".yaml".toList)

/-- What a handler that saves a text reads from its body: the text, which is a null pointer when the
member is `null`, or the error it answers with. -/
def savedContent (libs : Libs) (data : Option CStr) : Response ⊕ Option CStr :=
  match data with
  | none => .inl ⟨400, "\x7b\"error\":\"No content provided\"\x7d"⟩
  | some text =>
    match libs.parse text with
    | none => .inl ⟨400, "\x7b\"error\":\"Invalid JSON\"\x7d"⟩
    | some json =>
      match json.get? "content" with
      | none => .inl ⟨400, "\x7b\"error\":\"Missing content field\"\x7d"⟩
      | some content => .inr (content.getString libs.toText)

/-- `api_security_policy_save`. The file is emptied when it is opened, and `fprintf` of a null
pointer with the format `%s`, for which the compiler calls `fputs`, then crashes. -/
def apiSecurityPolicySave (libs : Libs) (a : Answers) (policyName : CStr) (data : Option CStr)
    (files : Files) : Option Response × Files :=
  match savedContent libs data with
  | .inl err => (some err, files)
  | .inr content =>
    if a.fopenOk then
      (content.map fun _ => ⟨200, "\x7b\"success\":true,\"message\":\"Policy saved\"\x7d"⟩,
        files.set (policyPath policyDir policyName) (content.getD []))
    else (some ⟨500, "\x7b\"error\":\"Failed to write policy file\"\x7d"⟩, files)

/-- The command that `api_security_policy_deploy` runs. -/
def deployCommand (policyName : CStr) : CStr :=
  strncpy 2047 ("sudo cp '".toList ++ policyPath policyDir policyName ++ "' '".toList ++
    policyPath deployedDir policyName ++ "' && sudo systemctl restart tetragon".toList)

/-- `api_security_policy_deploy`. -/
def apiSecurityPolicyDeploy (a : Answers) (policyName : CStr) (files : Files) :
    Response × Files :=
  let r := a.system (deployCommand policyName) files
  (if r.1 = 0 then
    ⟨200, "\x7b\"success\":true,\"message\":\"Policy deployed and Tetragon restarted\"\x7d"⟩
  else ⟨500, "\x7b\"error\":\"Failed to deploy policy\"\x7d"⟩, r.2)

/-- `unlink`. -/
def unlink (a : Answers) (path : CStr) (files : Files) : Files :=
  if a.unlinkOk path then files.erase path else files

/-- `api_security_policy_delete`. -/
def apiSecurityPolicyDelete (a : Answers) (policyName : CStr) (files : Files) :
    Response × Files :=
  let filePath := policyPath policyDir policyName
  if a.unlinkOk filePath then
    let files := unlink a (policyPath deployedDir policyName) (unlink a filePath files)
    (⟨200, "\x7b\"success\":true,\"message\":\"Policy deleted\"\x7d"⟩,
      (a.system "sudo systemctl restart tetragon".toList files).2)
  else (⟨500, "\x7b\"error\":\"Failed to delete policy\"\x7d"⟩, files)

/-- The file that `api_security_config_save` writes first. -/
def tmpConfig : CStr := "/tmp/tetragon_config_tmp.yaml".toList

/-- The command that `api_security_config_save` runs. -/
def saveConfigCommand : CStr :=
  "sudo cp /tmp/tetragon_config_tmp.yaml /etc/tetragon/tetragon.yaml".toList ++
    " && sudo systemctl restart tetragon".toList

/-- `api_security_config_save`. -/
def apiSecurityConfigSave (libs : Libs) (a : Answers) (data : Option CStr) (files : Files) :
    Option Response × Files :=
  match savedContent libs data with
  | .inl err => (some err, files)
  | .inr content =>
    if a.fopenOk then
      match content with
      | none => (none, files.set tmpConfig [])
      | some text =>
        let r := a.system saveConfigCommand (files.set tmpConfig text)
        (some (if r.1 = 0 then
          ⟨200, "\x7b\"success\":true,\"message\":\"Configuration saved and Tetragon restarted\"\x7d"⟩
        else ⟨500, "\x7b\"error\":\"Failed to save configuration\"\x7d"⟩), r.2)
    else (some ⟨500, "\x7b\"error\":\"Failed to write config\"\x7d"⟩, files)

end Cyrenus
