import Cyrenus.Http.AuthGate
import Cyrenus.Http.KeyExpiry
import Cyrenus.Lib.Numbered
import Cyrenus.Lib.Trace

/-!
# Which keys open the gate

The requests create keys and delete them by their number, and every use of one is noted in its row.
Apart from these notes the table of the keys is one of numbered rows (`keepsKeys_run`). So a request
without a session gets past the gate exactly with a key that some request has created, that none has
deleted since, and that has not expired (`keyAccess_iff`): nothing but its number takes a key away,
and no later key gets the number of one that is gone.
-/

namespace Cyrenus

open Trace (final trace)
open Numbered (Rows Present)

/-! ## What the requests do to the keys -/

/-- The record of the key that a body asks for; none when a null pointer is read. -/
def createdKey (libs : Libs) (a : Answers) (root : Json) : Option ApiKeyRecord := do
  let name ← keyText libs root "name" "API Key".toList
  let perms ← keyText libs root "permissions" "read,write".toList
  return newKey libs a root name perms

/-- What a handler does to the keys. -/
def handlerKeyOp (libs : Libs) (a : Answers) (data : Option CStr) :
    Handler → Option (Numbered.Op ApiKeyRecord)
  | .keysCreate =>
    if a.dbOk then ((data.bind libs.parse).bind (createdKey libs a)).map .insert else none
  | .keysDelete => if a.dbOk then ((data.bind libs.parse).bind deletedKeyId).map .delete else none
  | _ => none

/-- What a request has done to the keys, but for noting their use. -/
def keyOp (libs : Libs) (eo : Exchange × Outcome) : Option (Numbered.Op ApiKeyRecord) :=
  eo.2.handler.bind (handlerKeyOp libs eo.1.answers (eo.1.request.receive.bind (·.body)))

/-- What the requests of a run have done to the keys, in their order. -/
def keyOps (libs : Libs) (srv : Server) (es : List Exchange) :
    List (Numbered.Op ApiKeyRecord) := (trace (httpStep libs) srv es).filterMap (keyOp libs)

/-! ## The table of the keys -/

/-- A row without the note of its last use. -/
def ApiKeyRow.unused (row : ApiKeyRow) : ApiKeyRow := { row with lastUsedAt := none }

/-- The table holds these numbered records. -/
structure KeepsKeys (t : ApiKeyTable) (n : Rows ApiKeyRecord) : Prop where
  rows : t.rows.map ApiKeyRow.unused = n.rows.map fun r => r.2.row r.1
  last : t.lastId = n.last

namespace KeepsKeys

variable {t : ApiKeyTable} {n : Rows ApiKeyRecord}

theorem touch (h : KeepsKeys t n) (now id : ℤ) : KeepsKeys (t.touch now id) n where
  rows := by
    rw [← h.rows, ApiKeyTable.touch, List.map_map]
    refine List.map_congr_left fun row _ => ?_
    simp only [Function.comp_apply, ApiKeyRow.unused]
    split <;> rfl
  last := h.last

theorem insert (h : KeepsKeys t n) (key : ApiKeyRecord) :
    KeepsKeys (t.insert key) (n.apply (.insert key)) where
  rows := by
    rw [ApiKeyTable.insert, Rows.apply, List.map_append, List.map_append, h.rows, h.last]
    rfl
  last := congrArg (· + 1) h.last

theorem delete (h : KeepsKeys t n) (id : ℤ) : KeepsKeys (t.delete id) (n.apply (.delete id)) where
  rows := by
    have hrows := congrArg (List.filter fun row => decide (row.id ≠ id)) h.rows
    rw [List.filter_map, List.filter_map] at hrows
    exact hrows
  last := h.last

/-- The check of a request keeps the records. -/
theorem authenticated {libs : Libs} {db : Database} (h : KeepsKeys db.apiKeys n) (a : Answers)
    (req : HttpRequest) : KeepsKeys (authenticate libs a req db).2.apiKeys n := by
  obtain he | ⟨now, id, he⟩ := authenticate_cases libs a req db
  · rw [he]
    exact h
  · rw [he]
    exact h.touch now id

/-- A record is kept under a number if the table has its row. -/
theorem exists_row_iff (h : KeepsKeys t n) {P : ApiKeyRow → Prop} :
    (∃ row ∈ t.rows, P row.unused) ↔ ∃ r ∈ n.rows, P (r.2.row r.1) := by
  have hmap : (∃ row ∈ t.rows, P row.unused) ↔ ∃ row ∈ t.rows.map ApiKeyRow.unused, P row := by
    simp
  rw [hmap, h.rows]
  simp

/-- A handler keeps the records as it says. -/
theorem runHandler {libs : Libs} {a : Answers} {report : Handler → Option Response}
    {req : HttpRequest} {data : Option CStr} {srv : Server} (h : KeepsKeys srv.db.apiKeys n)
    (hd : Handler) :
    KeepsKeys (runHandler libs a report req data srv hd).2.db.apiKeys
      ((handlerKeyOp libs a data hd).elim n n.apply) := by
  rcases eq_or_ne hd .keysCreate with rfl | hcreate
  · simp only [handlerKeyOp, Cyrenus.runHandler, apiKeysCreate, withParsed]
    cases data with
    | none => cases a.dbOk <;> exact h
    | some text =>
      cases hroot : libs.parse text with
      | none => cases a.dbOk <;> simpa [keysCreate, hroot] using h
      | some root =>
        simp only [keysCreate, createdKey, databaseCreateApiKey, Option.bind_some, hroot]
        cases keyText libs root "name" "API Key".toList with
        | none => cases a.dbOk <;> exact h
        | some name =>
          cases keyText libs root "permissions" "read,write".toList with
          | none => cases a.dbOk <;> exact h
          | some perms =>
            cases a.dbOk with
            | false => exact h
            | true => exact h.insert _
  rcases eq_or_ne hd .keysDelete with rfl | hdelete
  · simp only [handlerKeyOp, Cyrenus.runHandler, apiKeysDelete, withParsed]
    cases data with
    | none => cases a.dbOk <;> exact h
    | some text =>
      cases hroot : libs.parse text with
      | none => cases a.dbOk <;> simpa [keysDelete, hroot] using h
      | some root =>
        simp only [keysDelete, databaseDeleteApiKey, Option.bind_some, hroot]
        cases deletedKeyId root with
        | none => cases a.dbOk <;> exact h
        | some id =>
          cases a.dbOk with
          | false => exact h
          | true => exact h.delete id
  have hnone : handlerKeyOp libs a data hd = none := by
    cases hd <;> first | rfl | contradiction
  rw [hnone, Option.elim_none]
  rcases eq_or_ne hd .login with rfl | hlogin
  · rw [Cyrenus.runHandler]
    obtain ⟨row, -, -, he⟩ | ⟨he, -⟩ := apiAuthLogin_cases libs a srv.daemon.config data srv.db
    · rw [he]
      exact h
    · rw [he]
      exact h
  · rwa [runHandler_db hlogin hcreate hdelete]

/-- **One request.** -/
theorem httpStep {libs : Libs} {e : Exchange} {srv : Server} (h : KeepsKeys srv.db.apiKeys n) :
    KeepsKeys (httpStep libs e srv).2.db.apiKeys
      ((keyOp libs (e, (httpStep libs e srv).1)).elim n n.apply) := by
  have hcase := handleRequest_handled libs e.answers e.report e.request srv
  rw [Cyrenus.httpStep, keyOp]
  generalize handleRequest libs e.answers e.report e.request srv = r at hcase
  cases hcase with
  | tooLarge | unauthorized => exact h
  | @anyone ctx hd hctx hpub =>
    rw [hctx]
    exact h.runHandler hd
  | @authenticated ctx hctx =>
    have htouched : KeepsKeys (authenticate libs e.answers e.request srv.db).2.apiKeys n :=
      h.authenticated e.answers e.request
    rw [hctx]
    cases protectedRoute e.request.url e.request.method with
    | handler hd => exact htouched.runHandler hd
    | notFound | overrun => exact htouched

end KeepsKeys

/-- **The keys after a run** are those of its operations. -/
theorem keepsKeys_run (libs : Libs) {srv : Server} (hnew : srv.db.apiKeys = .empty)
    (es : List Exchange) :
    KeepsKeys (final (httpStep libs) srv es).db.apiKeys (Numbered.after (keyOps libs srv es)) := by
  induction es using List.reverseRecOn with
  | nil =>
    rw [Trace.final_nil, hnew]
    exact ⟨rfl, rfl⟩
  | append_singleton es e ih =>
    have hstep := @KeepsKeys.httpStep _ libs e _ ih
    rw [Trace.final_concat, keyOps, Trace.trace_concat, List.filterMap_append, ← keyOps]
    cases hop : keyOp libs (e, (httpStep libs e (final (httpStep libs) srv es)).1) with
    | none =>
      rw [hop] at hstep
      simpa [hop] using hstep
    | some op =>
      rw [hop] at hstep
      simpa [hop, Numbered.after_concat] using hstep

/-! ## The gate -/

/-- A record lets a request through at a time: it has the digest of its key, and no expiry that has
passed. -/
def ApiKeyRecord.Opens (libs : Libs) (t : ℤ) (key : CStr) (r : ApiKeyRecord) : Prop :=
  r.keyHash = libs.sha256 key ∧ (0 < r.expiresAt → t < r.expiresAt)

/-- The row of a record is valid when the record lets the request through. -/
theorem ApiKeyRecord.isValid_row {libs : Libs} {t : ℤ} {key : CStr} {r : ApiKeyRecord} {id : ℤ} :
    (r.row id).isValid t (libs.sha256 key) = true ↔ r.Opens libs t key := by
  rw [ApiKeyRow.isValid_iff, ApiKeyRecord.Opens]
  refine and_congr_right fun _ => ?_
  simp only [ApiKeyRecord.row]
  split
  · rename_i hpos
    simp [hpos]
  · rename_i hpos
    refine iff_of_true (fun at' hat => ?_) fun h => absurd h hpos
    cases hat

/-- A key is found if one of the numbered records lets the request through. -/
theorem KeepsKeys.requestKey_isSome {libs : Libs} {t : Times} {key : CStr} {db : Database}
    {n : Rows ApiKeyRecord} (h : KeepsKeys db.apiKeys n) :
    (requestKey libs t (some key) db).isSome = true ↔
      ∃ r ∈ n.rows, r.2.Opens libs t.apiKey key := by
  have hrows : (∃ row ∈ db.apiKeys.rows, row.isValid t.apiKey (libs.sha256 key) = true) ↔
      ∃ r ∈ n.rows, (r.2.row r.1).isValid t.apiKey (libs.sha256 key) = true :=
    @exists_row_iff _ _ h fun row => row.isValid t.apiKey (libs.sha256 key) = true
  simp only [requestKey, Option.bind_some, databaseValidateApiKey, List.find?_isSome, hashApiKey]
  rw [hrows]
  simp only [ApiKeyRecord.isValid_row]

/-- The check lets a request without a session through if it finds its key. -/
theorem authenticate_fst {libs : Libs} {a : Answers} {req : HttpRequest} {db : Database}
    (h : sessionAuthenticated a.times req.authorization db = false) :
    (authenticate libs a req db).1 = (requestKey libs a.times req.apiKey db).isSome := by
  rw [authenticate, if_neg (by rw [h]; decide)]
  cases requestKey libs a.times req.apiKey db <;> rfl

/-- A route is not answered as the gate answers. -/
theorem runRoute_ne_unauthorized (libs : Libs) (a : Answers) (report : Handler → Option Response)
    (req : HttpRequest) (data : Option CStr) (srv : Server) (route : Route) :
    (runRoute libs a report req data srv route).1 ≠ unauthorized := by
  cases route with
  | handler h =>
    intro heq
    have hhandler := congrArg Outcome.handler heq
    cases hhandler
  | notFound =>
    intro heq
    have hreply := congrArg Outcome.reply heq
    simp [runRoute, unauthorized, Reply.text] at hreply
  | overrun =>
    intro heq
    have hreply := congrArg Outcome.reply heq
    cases hreply

/-- **Which keys open the gate.** After any run from a server without keys, a request that has no
session, but a key, and asks for a route that is not public gets past the gate exactly if some
request of the run has created that key, none has deleted its number since, and it has not expired.
A key counts as created if its digest is that of a created one. -/
theorem keyAccess_iff (libs : Libs) (srv : Server) (hnew : srv.db.apiKeys = .empty)
    (es : List Exchange) (e : Exchange) (key : CStr) (hkey : e.request.apiKey = some key)
    (hsession : sessionAuthenticated e.answers.times e.request.authorization
      (final (httpStep libs) srv es).db = false)
    (hpriv : publicRoute e.request.url e.request.method = none)
    (hsize : e.request.bodySize ≤ MAX_PAYLOAD_SIZE) :
    (httpStep libs e (final (httpStep libs) srv es)).1 ≠ unauthorized ↔
      ∃ n r, Present (keyOps libs srv es) n r ∧ r.Opens libs e.answers.times.apiKey key := by
  have hkeeps := keepsKeys_run libs hnew es
  generalize final (httpStep libs) srv es = s at hsession hkeeps
  have hfound : (authenticate libs e.answers e.request s.db).1 = true ↔
      ∃ n r, Present (keyOps libs srv es) n r ∧ r.Opens libs e.answers.times.apiKey key := by
    rw [authenticate_fst hsession, hkey, hkeeps.requestKey_isSome]
    simp only [Prod.exists, Numbered.mem_after_iff]
  rw [← hfound]
  have hcase := handleRequest_handled libs e.answers e.report e.request s
  rw [httpStep]
  generalize handleRequest libs e.answers e.report e.request s = r at hcase
  cases hcase with
  | tooLarge hlarge => exact absurd hsize (Nat.not_le.2 hlarge)
  | anyone _ hpub =>
    rw [hpriv] at hpub
    cases hpub
  | unauthorized _ _ hauth => simp [hauth]
  | authenticated _ _ hauth =>
    exact iff_of_true (runRoute_ne_unauthorized _ _ _ _ _ _ _) hauth

/-- A request with the token "t" for a key that lasts a year. -/
def createsYearKey : Exchange where
  request :=
    { url := "/api/v1/keys".toList, method := "POST".toList, authorization := some "t".toList
      apiKey := none, chunks := [keyRequestText 365]
      chunks_ne := by
        intro chunk hchunk
        rw [List.mem_singleton.1 hchunk]
        exact List.cons_ne_nil _ _ }
  answers := .still 1700000000
  report := fun _ => some ⟨200, ""⟩

/-- A request with this key. -/
def presentsKey : Exchange where
  request :=
    { url := "/api/v1/rules".toList, method := "GET".toList, authorization := none
      apiKey := some ("cyr_k_".toList ++ List.replicate 57 'a'), chunks := []
      chunks_ne := noChunks_ne }
  answers := .still 1700000000
  report := fun _ => some ⟨200, ""⟩

/-- A server with a session for the token "t". -/
def sessionServer : Server :=
  { Server.initial with db := { Database.empty with sessions := [⟨[], [], "t".toList, 1700003600⟩] } }

theorem keyAccess_iff_created :
    (httpStep (keyLibs 365) presentsKey
      (final (httpStep (keyLibs 365)) sessionServer [createsYearKey])).1 ≠ unauthorized := by
  refine (keyAccess_iff (keyLibs 365) sessionServer rfl [createsYearKey] presentsKey _ rfl rfl
    (by decide +kernel) (by decide)).2 ⟨1, newKey (keyLibs 365) (.still 1700000000) (keyRequest 365)
      "API Key".toList "read,write".toList, ⟨[], [], ?_, rfl, List.not_mem_nil⟩, ?_⟩
  · rfl
  · exact ⟨by decide +kernel, fun _ => by decide +kernel⟩

end Cyrenus
