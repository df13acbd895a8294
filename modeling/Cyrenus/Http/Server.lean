import Cyrenus.Api.Auth
import Cyrenus.Api.Keys
import Cyrenus.Api.Lists
import Cyrenus.Api.Security
import Cyrenus.Api.Settings
import Mathlib.Algebra.GroupWithZero.Nat

/-!
# The HTTP server

`handle_request` is called until the body of a request has arrived and then once more. That last
call finds the handler: among the public routes, then, for a request with a good session or key,
among the protected ones. Routes are tested in the order of the source, so a route with a prefix
shadows those after it. What the handlers that only read answer with is given.
-/

namespace Cyrenus

/-! ## Requests and the state they work on -/

/-- A request: the chunks of its body are those that the library delivers, none of them empty. -/
structure HttpRequest where
  url : CStr
  method : CStr
  authorization : Option CStr
  apiKey : Option CStr
  chunks : List (List Char)
  chunks_ne : ∀ chunk ∈ chunks, chunk ≠ []

theorem noChunks_ne : ∀ chunk ∈ ([] : List (List Char)), chunk ≠ [] := nofun

/-- What the server works on. -/
structure Server where
  daemon : Daemon
  db : Database
  files : Files

/-- `struct connection_context`: the bytes of the body so far. -/
structure ConnectionContext where
  data : Option (List Char)
  size : ℕ
  deriving DecidableEq, Repr

def MAX_PAYLOAD_SIZE : ℕ := 1024 * 1024

/-- `handle_request` on one chunk of the body; none when it would make the body too large. -/
def ConnectionContext.receive (ctx : ConnectionContext) (chunk : List Char) :
    Option ConnectionContext :=
  if ctx.size + chunk.length > MAX_PAYLOAD_SIZE then none
  else some ⟨some (ctx.data.getD [] ++ chunk), ctx.size + chunk.length⟩

/-- The context when all chunks have arrived. -/
def HttpRequest.receive (req : HttpRequest) : Option ConnectionContext :=
  req.chunks.foldlM ConnectionContext.receive ⟨none, 0⟩

/-- The body as the handlers see it. -/
def ConnectionContext.body (ctx : ConnectionContext) : Option CStr := ctx.data.map CStr.ofBytes

/-- The number of bytes in the body. -/
def HttpRequest.bodySize (req : HttpRequest) : ℕ := (req.chunks.map List.length).sum

/-- What some more chunks do to a context. -/
theorem foldlM_receive (chunks : List (List Char)) (ctx : ConnectionContext)
    (hctx : ctx.size ≤ MAX_PAYLOAD_SIZE) :
    chunks.foldlM ConnectionContext.receive ctx =
      if ctx.size + (chunks.map List.length).sum ≤ MAX_PAYLOAD_SIZE then
        some ⟨if chunks = [] then ctx.data else some (ctx.data.getD [] ++ chunks.flatten),
          ctx.size + (chunks.map List.length).sum⟩
      else none := by
  induction chunks generalizing ctx with
  | nil => simp [hctx]
  | cons chunk chunks ih =>
    rw [List.foldlM_cons, ConnectionContext.receive, List.map_cons, List.sum_cons,
      ← Nat.add_assoc]
    by_cases hbig : ctx.size + chunk.length > MAX_PAYLOAD_SIZE
    · rw [if_pos hbig, if_neg (by omega)]
      rfl
    · rw [if_neg hbig, Option.bind_eq_bind, Option.bind_some, ih _ (Nat.not_lt.1 hbig)]
      cases chunks <;> simp

/-- **The body of a request** is the bytes of its chunks, if they are not too many; without a chunk
there is none. -/
theorem HttpRequest.receive_eq (req : HttpRequest) :
    req.receive = if req.bodySize ≤ MAX_PAYLOAD_SIZE then
        some ⟨if req.chunks = [] then none else some req.chunks.flatten, req.bodySize⟩
      else none := by
  rw [receive, foldlM_receive _ _ (Nat.zero_le _), Nat.zero_add, Option.getD_none, List.nil_append]
  rfl

/-! ## Routes -/

/-- The handlers, with what the route takes from the path. -/
inductive Handler where
  | options
  | health
  | login
  | asset (path : CStr)
  | verify
  | logout
  | getSettings
  | updateSettings
  | attacksList
  | attacksGet (id : U32)
  | trafficStats
  | rulesList
  | rulesCreate
  | rulesDelete (id : CStr)
  | iplistsGet (listType : CStr)
  | iplistsDelete (id : U32)
  | iplistsAdd
  | geoipListRules
  | geoipAddRule
  | geoipDeleteRule (id : CStr)
  | geoipLookup (ip : CStr)
  | keysList
  | keysCreate
  | keysDelete
  | eventsList
  | securityStats
  | policiesList
  | policyDeploy (name : CStr)
  | policyGet (name : CStr)
  | policySave (name : CStr)
  | policyDelete (name : CStr)
  | securityLogs
  | configGet
  | configSave
  deriving DecidableEq, Repr

/-- What a route leads to: a handler, none, or a search beyond the end of a buffer. -/
inductive Route where
  | handler (h : Handler)
  | notFound
  | overrun
  deriving DecidableEq, Repr

/-- `strncmp` with a prefix finds no difference. -/
abbrev startsWith (url : CStr) (s : String) : Bool := s.toList.isPrefixOf url

/-- The handler of a public route. -/
def publicRoute (url method : CStr) : Option Handler :=
  if method = "OPTIONS".toList then some .options
  else if url = "/api/v1/system/health".toList then some .health
  else if url = "/api/v1/auth/login".toList ∧ method = "POST".toList then some .login
  else if method = "GET".toList ∧ (url = "/".toList ∨ url = "/index.html".toList) then
    some (.asset "index.html".toList)
  else if method = "GET".toList ∧ url = "/login.html".toList then some (.asset "login.html".toList)
  else if method = "GET".toList ∧ url = "/app.js".toList then some (.asset "app.js".toList)
  else if method = "GET".toList ∧ url = "/styles.css".toList then some (.asset "styles.css".toList)
  else if url = "/api/v1/auth/verify".toList ∧ method = "GET".toList then some .verify
  else none

/-- The text before the first "/deploy" in a string; none when there is no such part. -/
def beforeDeploy : CStr → Option CStr
  | [] => none
  | c :: s =>
    if "/deploy".toList.isPrefixOf (c :: s) then some [] else (beforeDeploy s).map (c :: ·)

/-- The routes below `/api/v1/security/policy/`. The name before "/deploy" is looked for once more
in a copy of 255 bytes without an end. -/
def policyRoute (policyName method : CStr) : Route :=
  match beforeDeploy policyName with
  | some _ =>
    match beforeDeploy (policyName.take 255) with
    | some name => if method = "POST".toList then .handler (.policyDeploy name) else .notFound
    | none => .overrun
  | none =>
    if method = "GET".toList then .handler (.policyGet policyName)
    else if method = "POST".toList then .handler (.policySave policyName)
    else if method = "DELETE".toList then .handler (.policyDelete policyName)
    else .notFound

/-- The last of the protected routes, those of Tetragon. -/
def securityRoute (url method : CStr) : Route :=
  if url = "/api/v1/security/events".toList ∧ method = "GET".toList then .handler .eventsList
  else if url = "/api/v1/security/stats".toList ∧ method = "GET".toList then .handler .securityStats
  else if url = "/api/v1/security/policies".toList ∧ method = "GET".toList then
    .handler .policiesList
  else if startsWith url "/api/v1/security/policy/" then policyRoute (url.drop 24) method
  else if url = "/api/v1/security/logs".toList ∧ method = "GET".toList then .handler .securityLogs
  else if url = "/api/v1/security/config".toList ∧ method = "GET".toList then .handler .configGet
  else if url = "/api/v1/security/config".toList ∧ method = "POST".toList then .handler .configSave
  else .notFound

/-- The handler of a protected route. -/
def protectedRoute (url method : CStr) : Route :=
  if url = "/api/v1/auth/logout".toList ∧ method = "POST".toList then .handler .logout
  else if url = "/api/v1/system/settings".toList ∧ method = "GET".toList then .handler .getSettings
  else if url = "/api/v1/system/settings".toList ∧ method = "POST".toList then
    .handler .updateSettings
  else if url = "/api/v1/attacks".toList ∧ method = "GET".toList then .handler .attacksList
  else if startsWith url "/api/v1/attacks/" ∧ method = "GET".toList then
    .handler (.attacksGet (CStr.atoi (url.drop 16)))
  else if url = "/api/v1/traffic/stats".toList ∧ method = "GET".toList then .handler .trafficStats
  else if url = "/api/v1/rules".toList ∧ method = "GET".toList then .handler .rulesList
  else if url = "/api/v1/rules".toList ∧ method = "POST".toList then .handler .rulesCreate
  else if startsWith url "/api/v1/rules/" ∧ method = "DELETE".toList then
    .handler (.rulesDelete (url.drop 14))
  else if startsWith url "/api/v1/iplists/" ∧ method = "GET".toList then
    .handler (.iplistsGet (url.drop 16))
  else if startsWith url "/api/v1/iplists/" ∧ method = "DELETE".toList then
    .handler (.iplistsDelete (CStr.atoi (url.drop 16)))
  else if url = "/api/v1/iplists".toList ∧ method = "POST".toList then .handler .iplistsAdd
  else if startsWith url "/api/v1/geoip/rules" ∧ method = "GET".toList then
    .handler .geoipListRules
  else if startsWith url "/api/v1/geoip/rules" ∧ method = "POST".toList then .handler .geoipAddRule
  else if startsWith url "/api/v1/geoip/rules/" ∧ method = "DELETE".toList then
    .handler (.geoipDeleteRule (url.drop 20))
  else if startsWith url "/api/v1/geoip/lookup/" ∧ method = "GET".toList then
    .handler (.geoipLookup (url.drop 21))
  else if url = "/api/v1/keys".toList ∧ method = "GET".toList then .handler .keysList
  else if url = "/api/v1/keys".toList ∧ method = "POST".toList then .handler .keysCreate
  else if url = "/api/v1/keys".toList ∧ method = "DELETE".toList then .handler .keysDelete
  else securityRoute url method

/-- The handlers that anyone reaches. -/
def Handler.isPublic : Handler → Bool
  | .options | .health | .login | .asset _ | .verify => true
  | _ => false

/-- A public route leads to one of them. -/
theorem publicRoute_isPublic {url method : CStr} {h : Handler}
    (hr : publicRoute url method = some h) : h.isPublic = true := by
  unfold publicRoute at hr
  repeat' split at hr
  all_goals cases hr <;> rfl

/-- If a route leads to a handler, then to one with a property. -/
def Route.All (P : Handler → Prop) (r : Route) : Prop := ∀ h, r = .handler h → P h

theorem Route.All.ite {P : Handler → Prop} {c : Prop} [Decidable c] {g : Handler} {r : Route}
    (hg : P g) (hr : r.All P) : (if c then .handler g else r : Route).All P := by
  split
  · rintro _ ⟨⟩
    exact hg
  · exact hr

/-- There is text before "/deploy" when there is such a part. -/
theorem beforeDeploy_isSome (s : CStr) :
    (beforeDeploy s).isSome = true ↔ "/deploy".toList <:+: s := by
  induction s with
  | nil => simp [beforeDeploy]
  | cons c s ih =>
    rw [beforeDeploy, List.infix_cons_iff, ← ih, ← List.isPrefixOf_iff_prefix]
    split
    · exact ⟨fun _ => .inl ‹_›, fun _ => rfl⟩
    · rw [Option.isSome_map, or_iff_right ‹_›]

/-- A route that has a prefix has a rest. -/
theorem eq_append_of_startsWith {url : CStr} {s : String} (h : startsWith url s = true) :
    ∃ rest, url = s.toList ++ rest := by
  obtain ⟨rest, hrest⟩ := List.isPrefixOf_iff_prefix.1 h
  exact ⟨rest, hrest.symm⟩

/-- The routes of the policies lead to handlers of policies. -/
theorem policyRoute_all {P : Handler → Prop} (hdeploy : ∀ name, P (.policyDeploy name))
    (hget : ∀ name, P (.policyGet name)) (hsave : ∀ name, P (.policySave name))
    (hdelete : ∀ name, P (.policyDelete name)) (name method : CStr) :
    (policyRoute name method).All P := by
  rw [policyRoute]
  split
  · split
    · exact .ite (hdeploy _) nofun
    · nofun
  · exact .ite (hget name) (.ite (hsave name) (.ite (hdelete name) nofun))

/-- No protected route leads to a public handler. -/
theorem protectedRoute_all (url method : CStr) :
    (protectedRoute url method).All fun h => h.isPublic = false := by
  have hsecurity : (securityRoute url method).All fun h => h.isPublic = false := by
    unfold securityRoute
    refine .ite rfl (.ite rfl (.ite rfl ?_))
    split
    · exact policyRoute_all (fun _ => rfl) (fun _ => rfl) (fun _ => rfl) (fun _ => rfl) _ _
    · exact .ite rfl (.ite rfl (.ite rfl nofun))
  unfold protectedRoute
  iterate 19 refine .ite rfl ?_
  exact hsecurity

/-! ## The credentials of a request -/

/-- The check of the session in `handle_request`. -/
def sessionAuthenticated (t : Times) (authHeader : Option CStr) (db : Database) : Bool :=
  match authHeader with
  | none => false
  | some authHeader =>
    match databaseGetSession t.session (bearerToken authHeader) db with
    | some session => t.check < session.expiresAt
    | none => false

/-- The key that the request carries, if it is a good one. -/
def requestKey (libs : Libs) (t : Times) (apiKey : Option CStr) (db : Database) :
    Option ApiKeyRow :=
  apiKey.bind fun key => databaseValidateApiKey t.apiKey (hashApiKey libs key) db

/-- The check of `handle_request`: whether the request is let through, and the database after the
use of a key has been noted. -/
def authenticate (libs : Libs) (a : Answers) (req : HttpRequest) (db : Database) :
    Bool × Database :=
  if sessionAuthenticated a.times req.authorization db then (true, db)
  else
    match requestKey libs a.times req.apiKey db with
    | some keyRec =>
      (true, databaseUpdateApiKeyLastUsed a.touchOk a.times.lastUsed (columnInt keyRec.id) db)
    | none => (false, db)

/-- **What the check changes**: at most the last use of a key. -/
theorem authenticate_cases (libs : Libs) (a : Answers) (req : HttpRequest) (db : Database) :
    (authenticate libs a req db).2 = db ∨
      ∃ now id, (authenticate libs a req db).2 =
        { db with apiKeys := db.apiKeys.touch now id } := by
  rw [authenticate]
  split
  · exact .inl rfl
  · split
    · rw [databaseUpdateApiKeyLastUsed]
      split
      · exact .inr ⟨_, _, rfl⟩
      · exact .inl rfl
    · exact .inl rfl

/-! ## Handlers -/

/-- A handler of the security routes: its response, if it makes one, is queued with the status
200. -/
def queueSecurity (srv : Server) (r : Option Response × Files) : Reply × Server :=
  (.made (r.1.map fun resp => ⟨200, resp.content⟩), { srv with files := r.2 })

/-- `api_system_health`. -/
def apiSystemHealth : Response := ⟨200, "\x7b\"status\":\"healthy\",\"version\":\"2.0.0\"\x7d"⟩

/-- Run a handler. What those that only read answer with is `report`, which is nothing when they
crash. -/
def runHandler (libs : Libs) (a : Answers) (report : Handler → Option Response) (req : HttpRequest)
    (data : Option CStr) (srv : Server) (h : Handler) : Reply × Server :=
  match h with
  | .options => (.text 200 "", srv)
  | .health => (.queued apiSystemHealth, srv)
  | .login =>
    let r := apiAuthLogin libs a srv.daemon.config data srv.db
    (r.1, { srv with db := r.2 })
  | .verify => (.queued (apiAuthVerify a.times req.authorization srv.db), srv)
  | .logout => (.queued apiAuthLogout, srv)
  | .updateSettings =>
    withParsed libs data srv fun body =>
      let r := apiSystemUpdateSettings body a.mapUpdateOk srv.daemon
      (.queued r.1, { srv with daemon := r.2 })
  | .rulesCreate =>
    withParsed libs data srv fun body =>
      let r := apiRulesCreate libs.toText body a.mapUpdateOk srv.daemon.user.rules
      (.ofOption r.1,
        { srv with daemon := { srv.daemon with user := { srv.daemon.user with rules := r.2 } } })
  | .rulesDelete id =>
    let r := apiRulesDelete id a.stack a.mapDeleteOk srv.daemon.user.rules
    (.queued r.1,
      { srv with daemon := { srv.daemon with user := { srv.daemon.user with rules := r.2 } } })
  | .iplistsAdd => (apiIplistsAdd libs data, srv)
  | .iplistsDelete _ => (apiIplistsDelete, srv)
  | .geoipAddRule =>
    let r := apiGeoipAddRule libs a data srv.daemon.user.blockedCountries
    (r.1, { srv with daemon := { srv.daemon with
      user := { srv.daemon.user with blockedCountries := r.2 } } })
  | .geoipDeleteRule id =>
    let r := apiGeoipDeleteRule a id srv.daemon.user.blockedCountries
    (r.1, { srv with daemon := { srv.daemon with
      user := { srv.daemon.user with blockedCountries := r.2 } } })
  | .keysCreate =>
    let r := apiKeysCreate libs a data srv.db
    (r.1, { srv with db := r.2 })
  | .keysDelete =>
    let r := apiKeysDelete libs a data srv.db
    (r.1, { srv with db := r.2 })
  | .policyDeploy name =>
    let r := apiSecurityPolicyDeploy a name srv.files
    queueSecurity srv (some r.1, r.2)
  | .policySave name => queueSecurity srv (apiSecurityPolicySave libs a name data srv.files)
  | .policyDelete name =>
    let r := apiSecurityPolicyDelete a name srv.files
    queueSecurity srv (some r.1, r.2)
  | .configSave => queueSecurity srv (apiSecurityConfigSave libs a data srv.files)
  | .eventsList | .securityStats | .policiesList | .policyGet _ | .securityLogs | .configGet =>
    queueSecurity srv (report h, srv.files)
  | .asset _ | .getSettings | .attacksList | .attacksGet _ | .trafficStats | .rulesList
  | .iplistsGet _ | .geoipListRules | .geoipLookup _ | .keysList => (.made (report h), srv)

/-- Three handlers write to the database. -/
theorem runHandler_db {libs : Libs} {a : Answers} {report : Handler → Option Response}
    {req : HttpRequest} {data : Option CStr} {srv : Server} {h : Handler} (hlogin : h ≠ .login)
    (hcreate : h ≠ .keysCreate) (hdelete : h ≠ .keysDelete) :
    (runHandler libs a report req data srv h).2.db = srv.db := by
  cases h with
  | login => exact absurd rfl hlogin
  | keysCreate => exact absurd rfl hcreate
  | keysDelete => exact absurd rfl hdelete
  | updateSettings | rulesCreate => cases data <;> rfl
  | _ => rfl

/-! ## The dispatcher -/

/-- What came of a request: the handler that was run, if there was one, and the reply. -/
structure Outcome where
  handler : Option Handler
  reply : Reply
  deriving DecidableEq, Repr

/-- `send_response_error` for a request without good credentials. -/
def unauthorized : Outcome := ⟨none, .text 401 "\x7b\"error\":\"Unauthorized\"\x7d"⟩

/-- Run the handler that a route leads to. -/
def runRoute (libs : Libs) (a : Answers) (report : Handler → Option Response) (req : HttpRequest)
    (data : Option CStr) (srv : Server) : Route → Outcome × Server
  | .handler h =>
    let r := runHandler libs a report req data srv h
    (⟨some h, r.1⟩, r.2)
  | .notFound => (⟨none, .text 404 "\x7b\"error\":\"Not Found\"\x7d"⟩, srv)
  | .overrun => (⟨none, .overrun⟩, srv)

/-- `handle_request`, from the first call for a request to the last. -/
def handleRequest (libs : Libs) (a : Answers)
    (report : Handler → Option Response) (req : HttpRequest) (srv : Server) :
    Outcome × Server :=
  match req.receive with
  | none => (⟨none, .refused⟩, srv)
  | some ctx =>
    match publicRoute req.url req.method with
    | some h => runRoute libs a report req ctx.body srv (.handler h)
    | none =>
      match authenticate libs a req srv.db with
      | (false, _) => (unauthorized, srv)
      | (true, db) =>
        runRoute libs a report req ctx.body { srv with db := db }
          (protectedRoute req.url req.method)

/-- What comes of a request, in four cases: its body is too large, a public route leads to a
handler, its credentials are not good, or a protected route decides. -/
inductive Handled (libs : Libs) (a : Answers)
    (report : Handler → Option Response) (req : HttpRequest) (srv : Server) :
    Outcome × Server → Prop where
  | tooLarge (hsize : MAX_PAYLOAD_SIZE < req.bodySize) :
    Handled libs a report req srv (⟨none, .refused⟩, srv)
  | anyone {ctx : ConnectionContext} {h : Handler} (hctx : req.receive = some ctx)
    (hpub : publicRoute req.url req.method = some h) :
    Handled libs a report req srv (runRoute libs a report req ctx.body srv (.handler h))
  | unauthorized (hsize : req.bodySize ≤ MAX_PAYLOAD_SIZE)
    (hpub : publicRoute req.url req.method = none)
    (hauth : (authenticate libs a req srv.db).1 = false) :
    Handled libs a report req srv (Cyrenus.unauthorized, srv)
  | authenticated {ctx : ConnectionContext} (hctx : req.receive = some ctx)
    (hpub : publicRoute req.url req.method = none)
    (hauth : (authenticate libs a req srv.db).1 = true) :
    Handled libs a report req srv (runRoute libs a report req ctx.body
      { srv with db := (authenticate libs a req srv.db).2 } (protectedRoute req.url req.method))

/-- **Every request is handled in one of these ways.** -/
theorem handleRequest_handled (libs : Libs) (a : Answers) (report : Handler → Option Response)
    (req : HttpRequest) (srv : Server) :
    Handled libs a report req srv (handleRequest libs a report req srv) := by
  have hreceive := req.receive_eq
  unfold handleRequest
  split
  · rename_i hctx
    rw [hctx] at hreceive
    split at hreceive
    · cases hreceive
    · exact .tooLarge (Nat.lt_of_not_le ‹_›)
  · rename_i ctx hctx
    rw [hctx] at hreceive
    split at hreceive
    · split
      · exact .anyone hctx ‹_›
      · split
        · rename_i hauth
          exact .unauthorized ‹_› ‹_› (by rw [hauth])
        · rename_i hauth
          have hcase : Handled libs a report req srv _ :=
            .authenticated hctx ‹_› (congrArg Prod.fst hauth)
          rwa [hauth] at hcase
    · cases hreceive

/-! ## Runs -/

/-- A request of a run, with the answers of its surroundings. -/
structure Exchange where
  request : HttpRequest
  answers : Answers
  report : Handler → Option Response

/-- The server on one request of a run. -/
def httpStep (libs : Libs) (e : Exchange) (srv : Server) : Outcome × Server :=
  handleRequest libs e.answers e.report e.request srv

/-! ## A server that has just started -/

/-- The state after start-up, with the defaults and an empty database. -/
def Server.initial : Server := ⟨⟨runtimeConfigInit, UserMaps.initial, 3⟩, .empty, Table.empty⟩

/-- Surroundings in which everything succeeds at a time, and `rand` draws zeros. -/
def Answers.still (t : ℤ) : Answers where
  times := .still t
  userId := "6ba7b810-9dad-11d1-80b4-00c04fd430c8".toList
  sessionId := "1b4e28ba-2fa1-41d2-883f-0016d3cca427".toList
  rand := fun _ => 0
  touchOk := true
  dbOk := true
  mapUpdateOk := true
  mapDeleteOk := true
  stack := ⟨[], 0, 0⟩
  fopenOk := true
  unlinkOk := fun _ => true
  system := fun _ files => (0, files)

end Cyrenus
