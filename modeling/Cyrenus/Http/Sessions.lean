import Cyrenus.Http.Server
import Cyrenus.Lib.Trace
import Mathlib.Data.List.Induction

/-!
# The life of a session

A session begins with a login, which returns its token, and ends an hour later or with a logout. The
token is checked in two places, `api_auth_verify` and `handle_request`. `sessions_run` shows that
after any run the sessions stored are those of the logins, so both places accept a token for the
whole hour (`sessionAuthenticated_iff`): a logout ends nothing. `sessionLifeCycle_iff` says for
which tokens that makes no difference.
-/

namespace Cyrenus

open Trace (final trace final_induct final_concat trace_concat exists_last)

/-! ## One request -/

/-- A login with the credentials of a configuration has returned a token. -/
structure LoggedIn (libs : Libs) (config : RuntimeConfig) (eo : Exchange × Outcome)
    (token : CStr) : Prop where
  handler : eo.2.handler = some .login
  credentials : ∃ ctx, eo.1.request.receive = some ctx ∧ HasCredentials libs config ctx.body
  reply : eo.2.reply = .queued (loginResponse token)

/-- A logout that carries a token has succeeded. -/
structure LoggedOut (eo : Exchange × Outcome) (token : CStr) : Prop where
  handler : eo.2.handler = some .logout
  header : ∃ header, eo.1.request.authorization = some header ∧ bearerToken header = token
  reply : ∃ r, eo.2.reply = .queued r ∧ r.status = 200

/-- The check of the credentials leaves the sessions alone. -/
theorem authenticate_sessions (libs : Libs) (a : Answers) (req : HttpRequest) (db : Database) :
    (authenticate libs a req db).2.sessions = db.sessions := by
  obtain he | ⟨_, _, he⟩ := authenticate_cases libs a req db <;> rw [he]

/-- Only a login stores a session. -/
theorem runHandler_sessions {libs : Libs} {a : Answers} {report : Handler → Option Response}
    {req : HttpRequest} {data : Option CStr} {srv : Server} {h : Handler} (hlogin : h ≠ .login) :
    (runHandler libs a report req data srv h).2.db.sessions = srv.db.sessions := by
  by_cases hcreate : h = .keysCreate
  · subst hcreate
    obtain ⟨_, _, _, _, -, -, -, he⟩ | he := apiKeysCreate_cases libs a data srv.db
    · rw [runHandler, he]
    · rw [runHandler, he]
  by_cases hdelete : h = .keysDelete
  · subst hdelete
    exact apiKeysDelete_sessions libs a data srv.db
  rw [runHandler_db hlogin hcreate hdelete]

/-- No handler changes the credentials. -/
theorem runHandler_credentials (libs : Libs) (a : Answers) (report : Handler → Option Response)
    (req : HttpRequest) (data : Option CStr) (srv : Server) (h : Handler) :
    (runHandler libs a report req data srv h).2.daemon.config.username =
        srv.daemon.config.username ∧
      (runHandler libs a report req data srv h).2.daemon.config.password =
        srv.daemon.config.password := by
  cases h with
  | updateSettings =>
    cases data with
    | none => exact ⟨rfl, rfl⟩
    | some text =>
      rw [runHandler, withParsed]
      cases libs.parse text with
      | none => exact ⟨rfl, rfl⟩
      | some root =>
        simp only [apiSystemUpdateSettings]
        split <;> exact ⟨rfl, rfl⟩
  | rulesCreate => cases data <;> exact ⟨rfl, rfl⟩
  | _ => exact ⟨rfl, rfl⟩

/-- No request changes the credentials. -/
theorem httpStep_credentials (libs : Libs) (e : Exchange) (srv : Server) :
    (httpStep libs e srv).2.daemon.config.username = srv.daemon.config.username ∧
      (httpStep libs e srv).2.daemon.config.password = srv.daemon.config.password := by
  have hcase := handleRequest_handled libs e.answers e.report e.request srv
  rw [httpStep]
  generalize handleRequest libs e.answers e.report e.request srv = r at hcase
  cases hcase with
  | tooLarge | unauthorized => exact ⟨rfl, rfl⟩
  | anyone => exact runHandler_credentials ..
  | authenticated =>
    cases protectedRoute e.request.url e.request.method with
    | handler h => exact runHandler_credentials ..
    | notFound | overrun => exact ⟨rfl, rfl⟩

/-- **What a request does to the sessions**: a login may store one, which expires in an hour, and
then returns its token; otherwise they stay as they are, and no token is returned. -/
theorem httpStep_sessions (libs : Libs) (e : Exchange) (srv : Server) :
    (∃ row : SessionRecord, row.expiresAt = e.answers.times.login + 3600 ∧
      (httpStep libs e srv).2.db.sessions = srv.db.sessions ++ [row] ∧
      ∀ token, LoggedIn libs srv.daemon.config (e, (httpStep libs e srv).1) token ↔
        token = row.token) ∨
    (httpStep libs e srv).2.db.sessions = srv.db.sessions ∧
      ∀ token, ¬ LoggedIn libs srv.daemon.config (e, (httpStep libs e srv).1) token := by
  have hcase := handleRequest_handled libs e.answers e.report e.request srv
  rw [httpStep]
  generalize handleRequest libs e.answers e.report e.request srv = r at hcase
  cases hcase with
  | tooLarge | unauthorized => exact .inr ⟨rfl, fun _ h => nomatch h.handler⟩
  | @anyone ctx h hctx hpub =>
    by_cases hlogin : h = .login
    · subst hlogin
      obtain ⟨row, hexp, hcred, he⟩ | ⟨hsame, hnone⟩ :=
        apiAuthLogin_cases libs e.answers srv.daemon.config ctx.body srv.db
      · refine .inl ⟨row, hexp, by rw [runRoute, runHandler, he], fun token => ⟨fun h => ?_, ?_⟩⟩
        · have hreply := h.reply
          rw [runRoute, runHandler, he] at hreply
          exact (loginResponse_injective (Reply.queued.inj hreply)).symm
        · rintro rfl
          exact ⟨rfl, ⟨ctx, hctx, hcred⟩, by rw [runRoute, runHandler, he]⟩
      · refine .inr ⟨by rw [runRoute, runHandler, hsame], fun token h => hnone token ?_⟩
        exact h.reply
    · refine .inr ⟨runHandler_sessions hlogin, fun token h => hlogin ?_⟩
      exact Option.some.inj h.handler
  | @authenticated ctx =>
    have hsessions := authenticate_sessions libs e.answers e.request srv.db
    have hprivate := protectedRoute_all e.request.url e.request.method
    generalize protectedRoute e.request.url e.request.method = route at hprivate
    cases route with
    | handler h =>
      have hlogin : h ≠ .login := by
        rintro rfl
        exact nomatch hprivate _ rfl
      exact .inr ⟨(runHandler_sessions hlogin).trans hsessions,
        fun token h => hlogin (Option.some.inj h.handler)⟩
    | notFound | overrun => exact .inr ⟨hsessions, fun _ h => nomatch h.handler⟩

/-! ## A run -/

/-- Only the credentials of a configuration matter to its logins. -/
theorem LoggedIn.congr {libs : Libs} {config config' : RuntimeConfig} {eo : Exchange × Outcome}
    {token : CStr} (hu : config.username = config'.username)
    (hp : config.password = config'.password) :
    LoggedIn libs config eo token ↔ LoggedIn libs config' eo token := by
  have hcred : ∀ data, HasCredentials libs config data ↔ HasCredentials libs config' data := by
    intro data
    rw [HasCredentials, HasCredentials, hu, hp]
  constructor
  · rintro ⟨hh, ⟨ctx, hctx, hc⟩, hr⟩
    exact ⟨hh, ⟨ctx, hctx, (hcred _).1 hc⟩, hr⟩
  · rintro ⟨hh, ⟨ctx, hctx, hc⟩, hr⟩
    exact ⟨hh, ⟨ctx, hctx, (hcred _).2 hc⟩, hr⟩

/-- No run changes the credentials. -/
theorem credentials_run (libs : Libs) (srv : Server) (es : List Exchange) :
    (final (httpStep libs) srv es).daemon.config.username = srv.daemon.config.username ∧
      (final (httpStep libs) srv es).daemon.config.password = srv.daemon.config.password := by
  refine @final_induct _ _ _ (httpStep libs) (fun s : Server =>
    s.daemon.config.username = srv.daemon.config.username ∧
      s.daemon.config.password = srv.daemon.config.password) srv es ⟨rfl, rfl⟩ ?_
  intro e _ s hs
  obtain ⟨hu, hp⟩ := httpStep_credentials libs e s
  exact ⟨hu.trans hs.1, hp.trans hs.2⟩

/-- A login has returned a token less than an hour before a time. -/
structure Issued (libs : Libs) (config : RuntimeConfig) (token : CStr) (t : ℤ)
    (eo : Exchange × Outcome) : Prop where
  login : LoggedIn libs config eo token
  fresh : t < eo.1.answers.times.login + 3600

/-- **The sessions after a run**: a token is stored in a row that has not expired if and only if a
login of the run returned it less than an hour before. -/
theorem sessions_run (libs : Libs) (srv : Server) (hnew : srv.db.sessions = [])
    (es : List Exchange) (token : CStr) (t : ℤ) :
    (∃ row ∈ (final (httpStep libs) srv es).db.sessions, row.token = token ∧ t < row.expiresAt) ↔
      ∃ eo ∈ trace (httpStep libs) srv es, Issued libs srv.daemon.config token t eo := by
  induction es using List.reverseRecOn with
  | nil => simp [hnew]
  | append_singleton es e ih =>
    have hcred := credentials_run libs srv es
    rw [final_concat, trace_concat]
    generalize final (httpStep libs) srv es = s at ih hcred
    simp only [List.mem_append, or_and_right, exists_or, ← ih, List.mem_singleton, exists_eq_left]
    obtain ⟨row, hexp, hrows, hlogin⟩ | ⟨hrows, hlogin⟩ := httpStep_sessions libs e s
    · have hissued : Issued libs srv.daemon.config token t (e, (httpStep libs e s).1) ↔
          row.token = token ∧ t < row.expiresAt := by
        rw [hexp, ← eq_comm (a := token), ← hlogin token, LoggedIn.congr hcred.1 hcred.2]
        exact ⟨fun h => ⟨h.login, h.fresh⟩, fun h => ⟨h.1, h.2⟩⟩
      rw [hrows, hissued]
      simp only [List.mem_append, or_and_right, exists_or, List.mem_singleton, exists_eq_left]
    · have hissued : ¬ Issued libs srv.daemon.config token t (e, (httpStep libs e s).1) :=
        fun h => hlogin token ((LoggedIn.congr hcred.1 hcred.2).2 h.login)
      rw [hrows]
      exact (or_iff_left hissued).symm

/-! ## The life of a token -/

/-- A token has been returned by a login less than an hour before, and since then no logout has
carried it. -/
def Justified (libs : Libs) (config : RuntimeConfig) (tr : List (Exchange × Outcome))
    (token : CStr) (t : ℤ) : Prop :=
  ∃ pre eo post, tr = pre ++ eo :: post ∧ Issued libs config token t eo ∧
    ∀ eo' ∈ post, ¬ LoggedOut eo' token

/-- A logout has carried a token that a login had returned less than an hour before, and no such
login has returned it again. -/
def Revoked (libs : Libs) (config : RuntimeConfig) (tr : List (Exchange × Outcome))
    (token : CStr) (t : ℤ) : Prop :=
  ∃ pre eo post, tr = pre ++ eo :: post ∧ LoggedOut eo token ∧
    (∃ eo' ∈ pre, Issued libs config token t eo') ∧
    ∀ eo' ∈ post, ¬ Issued libs config token t eo'

/-- A token that was returned is no longer justified exactly when it was revoked. -/
theorem revoked_iff {libs : Libs} {config : RuntimeConfig} {tr : List (Exchange × Outcome)}
    {token : CStr} {t : ℤ} :
    Revoked libs config tr token t ↔
      (∃ eo ∈ tr, Issued libs config token t eo) ∧ ¬ Justified libs config tr token t := by
  constructor
  · rintro ⟨pre, out, post, rfl, hout, ⟨eo, hmem, heo⟩, hpost⟩
    refine ⟨⟨eo, List.mem_append_left _ hmem, heo⟩, ?_⟩
    rintro ⟨pre', eo', post', heq, heo', hpost'⟩
    have hne : out ≠ eo' := by
      rintro rfl
      exact nomatch hout.handler.symm.trans heo'.login.handler
    -- the login is among the entries before the logout, so the logout comes after it
    obtain ⟨mid, rfl, hsplit⟩ | ⟨mid, rfl, hsplit⟩ := List.append_eq_append_iff.1 heq
    · cases mid with
      | nil => exact hne (List.cons.inj hsplit).1
      | cons _ mid =>
        obtain ⟨-, rfl⟩ := List.cons.inj hsplit
        exact hpost eo' (by simp) heo'
    · cases mid with
      | nil => exact hne (List.cons.inj hsplit).1.symm
      | cons _ mid =>
        obtain ⟨-, rfl⟩ := List.cons.inj hsplit
        exact hpost' out (by simp) hout
  · rintro ⟨hissued, hnot⟩
    obtain ⟨pre, eo, post, rfl, heo, hpost⟩ := exists_last hissued
    have hout : ∃ eo' ∈ post, LoggedOut eo' token := by
      by_contra hnone
      exact hnot ⟨pre, eo, post, rfl, heo, fun eo' hmem h => hnone ⟨eo', hmem, h⟩⟩
    obtain ⟨mid, out, rest, rfl, hout, -⟩ := exists_last hout
    refine ⟨pre ++ eo :: mid, out, rest, by simp, hout, ⟨eo, by simp, heo⟩, ?_⟩
    exact fun eo' hmem => hpost eo' (by simp [hmem])

/-- The two places check the same. -/
theorem apiAuthVerify_iff_sessionAuthenticated {t : Times} {header : Option CStr} {db : Database} :
    (apiAuthVerify t header db).status = 200 ↔ sessionAuthenticated t header db = true := by
  cases header with
  | none => simp [apiAuthVerify, sessionAuthenticated]
  | some header =>
    rw [apiAuthVerify, sessionAuthenticated]
    cases databaseGetSession t.session (bearerToken header) db with
    | none => simp
    | some session =>
      by_cases hfresh : t.check < session.expiresAt
      · simp [hfresh]
      · simp [hfresh]

/-- A header is accepted at a time when its token is stored and has not expired by then. -/
theorem sessionAuthenticated_iff {t : ℤ} {header : CStr} {db : Database} :
    sessionAuthenticated (.still t) (some header) db = true ↔
      ∃ row ∈ db.sessions, row.token = bearerToken header ∧ t < row.expiresAt := by
  rw [← databaseGetSession_isSome, sessionAuthenticated]
  split
  · rename_i session hs
    have hfresh := (databaseGetSession_some hs).2.2
    simp only [Times.still] at hs hfresh ⊢
    simp [hs, hfresh]
  · rename_i hs
    simp only [Times.still] at hs
    simp [hs]

/-- **When a session lives as it should.** In the state after any run from an empty table of
sessions, both places accept a header at a time if and only if its token is justified, exactly when
the token has not been revoked: the table forgets no logout but notes none. -/
theorem sessionLifeCycle_iff (libs : Libs) (srv : Server) (hnew : srv.db.sessions = [])
    (es : List Exchange) (header : CStr) (t : ℤ) :
    ((apiAuthVerify (.still t) (some header) (final (httpStep libs) srv es).db).status = 200 ↔
          Justified libs srv.daemon.config (trace (httpStep libs) srv es) (bearerToken header) t) ∧
        (sessionAuthenticated (.still t) (some header) (final (httpStep libs) srv es).db = true ↔
          Justified libs srv.daemon.config (trace (httpStep libs) srv es) (bearerToken header) t) ↔
      ¬ Revoked libs srv.daemon.config (trace (httpStep libs) srv es) (bearerToken header) t := by
  rw [apiAuthVerify_iff_sessionAuthenticated, sessionAuthenticated_iff,
    sessions_run libs srv hnew, revoked_iff, and_self, not_and, not_not]
  have hissued : Justified libs srv.daemon.config (trace (httpStep libs) srv es)
      (bearerToken header) t → ∃ eo ∈ trace (httpStep libs) srv es,
        Issued libs srv.daemon.config (bearerToken header) t eo := by
    rintro ⟨pre, eo, post, heq, heo, -⟩
    exact ⟨eo, by simp [heq], heo⟩
  exact ⟨fun h => h.1, fun h => ⟨h, hissued⟩⟩

/-- The body of a login. -/
def loginBody : CStr := "\x7b\"username\":\"admin\",\"password\":\"admin\"\x7d".toList

/-- The token that a login at 1700000000 returns. -/
def adminToken : CStr := "0dc06b032355268eb8d12b6d0e64208be1d7310400f61149afb6acc6fb880dc1".toList

/-- The libraries, where they are asked for that body and that token. -/
def adminLibs : Libs where
  parse := fun text =>
    if text = loginBody then
      some (.object [("username".toList, .string "admin".toList),
        ("password".toList, .string "admin".toList)])
    else none
  toText := fun _ => []
  sha256 := fun s =>
    if s = "admin1b4e28ba-2fa1-41d2-883f-0016d3cca4271700000000".toList then adminToken else []

/-- A login. -/
def adminLogin : Exchange where
  request :=
    { url := "/api/v1/auth/login".toList, method := "POST".toList, authorization := none,
      apiKey := none, chunks := [loginBody],
      chunks_ne := fun _ h => List.mem_singleton.1 h ▸ by decide }
  answers := .still 1700000000
  report := fun _ => some ⟨200, ""⟩

/-- A logout with the token that it returned, one second later. -/
def adminLogout : Exchange where
  request :=
    { url := "/api/v1/auth/logout".toList, method := "POST".toList,
      authorization := some ("Bearer ".toList ++ adminToken), apiKey := none, chunks := [],
      chunks_ne := noChunks_ne }
  answers := .still 1700000001
  report := fun _ => some ⟨200, ""⟩

/-- The run of the two. -/
theorem trace_adminLogout :
    trace (httpStep adminLibs) .initial [adminLogin, adminLogout] =
      [(adminLogin, ⟨some .login, .queued (loginResponse adminToken)⟩),
        (adminLogout, ⟨some .logout, .queued apiAuthLogout⟩)] := by
  rfl

/-- After a logout the token is still accepted. -/
theorem sessionLifeCycle_fails :
    ¬ ∀ (libs : Libs) (srv : Server), srv.db.sessions = [] →
      ∀ (es : List Exchange) (header : CStr) (t : ℤ),
        ((apiAuthVerify (.still t) (some header) (final (httpStep libs) srv es).db).status = 200 ↔
          Justified libs srv.daemon.config (trace (httpStep libs) srv es)
            (bearerToken header) t) ∧
        (sessionAuthenticated (.still t) (some header) (final (httpStep libs) srv es).db = true ↔
          Justified libs srv.daemon.config (trace (httpStep libs) srv es)
            (bearerToken header) t) := by
  intro h
  obtain ⟨pre, eo, post, heq, hissued, hpost⟩ := (h adminLibs .initial rfl
    [adminLogin, adminLogout] ("Bearer ".toList ++ adminToken) 1700000002).1.1 rfl
  rw [trace_adminLogout] at heq
  cases pre with
  | nil =>
    obtain ⟨-, rfl⟩ := List.cons.inj heq
    exact hpost _ (List.mem_singleton.2 rfl) ⟨rfl, ⟨_, rfl, rfl⟩, _, rfl, rfl⟩
  | cons _ pre =>
    cases pre with
    | nil =>
      obtain ⟨rfl, -⟩ := List.cons.inj (List.cons.inj heq).2
      exact nomatch hissued.login.handler
    | cons _ pre => simp at heq

/-- Before a logout the token is accepted for an hour. -/
theorem sessionLifeCycle_iff_login :
    ((apiAuthVerify (.still 1700003599) (some adminToken)
              (final (httpStep adminLibs) .initial [adminLogin]).db).status = 200 ↔
          Justified adminLibs Server.initial.daemon.config
            (trace (httpStep adminLibs) .initial [adminLogin]) (bearerToken adminToken)
            1700003599) ∧
        (sessionAuthenticated (.still 1700003599) (some adminToken)
              (final (httpStep adminLibs) .initial [adminLogin]).db = true ↔
          Justified adminLibs Server.initial.daemon.config
            (trace (httpStep adminLibs) .initial [adminLogin]) (bearerToken adminToken)
            1700003599) ↔
      ¬ Revoked adminLibs Server.initial.daemon.config
        (trace (httpStep adminLibs) .initial [adminLogin]) (bearerToken adminToken) 1700003599 :=
  sessionLifeCycle_iff adminLibs .initial rfl [adminLogin] adminToken 1700003599

end Cyrenus
