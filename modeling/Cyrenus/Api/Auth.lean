import Cyrenus.Api.Context
import Cyrenus.Config.Runtime
import Cyrenus.Database

/-!
# Logging in and out

`api_auth_login` checks the credentials of a body against the configuration and stores a session
with a new token; `api_auth_verify` says whether a header carries a good token; `api_auth_logout`
says that the session is over.
-/

namespace Cyrenus

open CStr (strncpy)

/-- The token in an `Authorization` header: what follows the prefix "Bearer ", if it is there. -/
def bearerToken (header : CStr) : CStr :=
  if "Bearer ".toList.isPrefixOf header then header.drop 7 else header

/-- The session that `create_session` makes for a user. -/
def newSession (libs : Libs) (a : Answers) (username : CStr) : SessionRecord where
  userId := a.userId
  sessionId := a.sessionId
  token := strncpy 64
    (libs.sha256 (strncpy 255 (username ++ a.sessionId ++ CStr.ofInt a.times.login)))
  expiresAt := a.times.login + 3600

/-- `create_session`: the token, if the session could be stored. -/
def createSession (libs : Libs) (a : Answers) (username : CStr) (db : Database) :
    Option CStr × Database :=
  match databaseInsertSession a.dbOk (newSession libs a username) db with
  | (true, db) => (some (newSession libs a username).token, db)
  | (false, db) => (none, db)

/-- The response that returns a token. -/
def loginResponse (token : CStr) : Response :=
  ⟨200, "\x7b \"token\": \"" ++ String.ofList token ++ "\", \"expires_in\": 3600 \x7d"⟩

/-- `api_auth_login`, on the value that the body was parsed to. -/
def authLogin (libs : Libs) (a : Answers) (config : RuntimeConfig) (db : Database) :
    Body → Reply × Database
  | none => (.text 400 "\x7b\"error\":\"Invalid JSON\"\x7d", db)
  | some root =>
    match root.get? "username", root.get? "password" with
    | some jUsername, some jPassword =>
      match jUsername.getString libs.toText with
      | none => (.nullRead, db)
      | some username =>
        if username = config.username then
          match jPassword.getString libs.toText with
          | none => (.nullRead, db)
          | some password =>
            if password = config.password then
              match createSession libs a username db with
              | (some token, db) => (.queued (loginResponse token), db)
              | (none, db) => (.text 500 "\x7b\"error\":\"Session creation failed\"\x7d", db)
            else (.text 401 "\x7b\"error\":\"Invalid credentials\"\x7d", db)
        else (.text 401 "\x7b\"error\":\"Invalid credentials\"\x7d", db)
    | _, _ => (.text 400 "\x7b\"error\":\"Missing credentials\"\x7d", db)

/-- `api_auth_login`. -/
def apiAuthLogin (libs : Libs) (a : Answers) (config : RuntimeConfig) (data : Option CStr)
    (db : Database) : Reply × Database :=
  withParsed libs data db (authLogin libs a config db)

/-- `api_auth_verify`. -/
def apiAuthVerify (t : Times) (token : Option CStr) (db : Database) : Response :=
  match token with
  | none => ⟨401, "\x7b\"valid\":false\x7d"⟩
  | some token =>
    match databaseGetSession t.session (bearerToken token) db with
    | some session =>
      if t.check < session.expiresAt then ⟨200, "\x7b\"valid\":true\x7d"⟩
      else ⟨401, "\x7b\"valid\":false\x7d"⟩
    | none => ⟨401, "\x7b\"valid\":false\x7d"⟩

/-- `api_auth_logout`. The session stays in the database. -/
def apiAuthLogout : Response := ⟨200, "\x7b\"status\":\"logged out\"\x7d"⟩

/-! ## What a login does -/

/-- The response tells the token. -/
theorem loginResponse_injective : Function.Injective loginResponse := by
  intro s t h
  have htext := congrArg (fun r => r.content.toList) h
  simp only [loginResponse, String.toList_append, String.toList_ofList] at htext
  exact List.append_cancel_left (List.append_cancel_right htext)

/-- A body holds the credentials of a configuration. -/
def HasCredentials (libs : Libs) (config : RuntimeConfig) (data : Option CStr) : Prop :=
  ∃ text root jUsername jPassword, data = some text ∧ libs.parse text = some root ∧
    root.get? "username" = some jUsername ∧ root.get? "password" = some jPassword ∧
    jUsername.getString libs.toText = some config.username ∧
    jPassword.getString libs.toText = some config.password

/-- A response with another status returns no token. -/
theorem text_ne_loginResponse {status : ℕ} (h : status ≠ 200) (content : String) (token : CStr) :
    Reply.text status content ≠ .queued (loginResponse token) := by
  intro heq
  rw [Reply.text, Reply.queued.injEq, loginResponse, Response.mk.injEq] at heq
  exact h heq.1

/-- A session is stored, and its token returned, or the database stays as it is. -/
theorem createSession_cases (libs : Libs) (a : Answers) (username : CStr) (db : Database) :
    createSession libs a username db = (some (newSession libs a username).token,
      { db with sessions := db.sessions ++ [newSession libs a username] }) ∨
    createSession libs a username db = (none, db) := by
  simp only [createSession, databaseInsertSession]
  split
  · rename_i h
    split at h <;> cases h
    exact .inl rfl
  · rename_i h
    split at h <;> cases h
    exact .inr rfl

/-- **What a login does to the database**: it stores one session, which expires in an hour, and
returns its token to a body with the credentials; or it stores none and returns no token. -/
theorem apiAuthLogin_cases (libs : Libs) (a : Answers) (config : RuntimeConfig)
    (data : Option CStr) (db : Database) :
    (∃ row : SessionRecord, row.expiresAt = a.times.login + 3600 ∧ HasCredentials libs config data ∧
      apiAuthLogin libs a config data db =
        (.queued (loginResponse row.token), { db with sessions := db.sessions ++ [row] })) ∨
    (apiAuthLogin libs a config data db).2 = db ∧
      ∀ token, (apiAuthLogin libs a config data db).1 ≠ .queued (loginResponse token) := by
  cases data with
  | none => exact .inr ⟨rfl, fun _ => Reply.nullRead_ne_queued _⟩
  | some text =>
    rw [apiAuthLogin, withParsed]
    cases hroot : libs.parse text with
    | none => exact .inr ⟨rfl, text_ne_loginResponse (by decide) _⟩
    | some root =>
      simp only [authLogin]
      split
      · rename_i jUsername jPassword hju hjp
        split
        · exact .inr ⟨rfl, fun _ => Reply.nullRead_ne_queued _⟩
        · rename_i username hu
          split
          · rename_i hname
            split
            · exact .inr ⟨rfl, fun _ => Reply.nullRead_ne_queued _⟩
            · rename_i password hp
              split
              · rename_i hpass
                obtain he | he := createSession_cases libs a username db
                · rw [he]
                  exact .inl ⟨newSession libs a username, rfl, ⟨text, root, jUsername, jPassword,
                    rfl, hroot, hju, hjp, hname ▸ hu, hpass ▸ hp⟩, rfl⟩
                · rw [he]
                  exact .inr ⟨rfl, text_ne_loginResponse (by decide) _⟩
              · exact .inr ⟨rfl, text_ne_loginResponse (by decide) _⟩
          · exact .inr ⟨rfl, text_ne_loginResponse (by decide) _⟩
      · exact .inr ⟨rfl, text_ne_loginResponse (by decide) _⟩

/-- A body makes a login read a null pointer: it has both members, and `null` for the user name, or
for the password beside the right user name. -/
def LoginReadsNull (libs : Libs) (config : RuntimeConfig) (root : Json) : Prop :=
  ∃ jUsername jPassword, root.get? "username" = some jUsername ∧
    root.get? "password" = some jPassword ∧
    (jUsername = .null ∨
      jUsername.getString libs.toText = some config.username ∧ jPassword = .null)

theorem authLogin_nullRead_iff {libs : Libs} {a : Answers} {config : RuntimeConfig}
    {db : Database} {body : Body} :
    (authLogin libs a config db body).1 = .nullRead ↔
      ∃ root, body = some root ∧ LoginReadsNull libs config root := by
  cases body with
  | none => simp [authLogin, Reply.text]
  | some root =>
    simp only [Option.some.injEq, exists_eq_left', LoginReadsNull]
    cases hju : root.get? "username" with
    | none => simp [authLogin, hju, Reply.text]
    | some jUsername =>
      cases hjp : root.get? "password" with
      | none => simp [authLogin, hju, hjp, Reply.text]
      | some jPassword =>
        simp only [authLogin, hju, hjp, Option.some.injEq, ↓existsAndEq, true_and]
        split
        · rename_i hu
          simp [Json.getString_eq_none.1 hu]
        · rename_i username hu
          have hnull : jUsername ≠ .null := fun h => by simp [h, Json.getString] at hu
          simp only [hnull, false_or, hu, Option.some.injEq]
          split
          · rename_i hname
            split
            · rename_i hp
              simp [hname, Json.getString_eq_none.1 hp]
            · rename_i password hp
              have hnull : jPassword ≠ .null := fun h => by simp [h, Json.getString] at hp
              simp only [hnull, and_false, iff_false]
              split
              · obtain he | he := createSession_cases libs a username db
                · rw [he]
                  exact Reply.queued_ne_nullRead _
                · rw [he]
                  exact Reply.queued_ne_nullRead _
              · exact Reply.queued_ne_nullRead _
          · rename_i hname
            simp [hname, Reply.text]

end Cyrenus
