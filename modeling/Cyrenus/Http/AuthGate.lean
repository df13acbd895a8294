import Cyrenus.Http.Server

/-!
# What is behind the gate

Every handler but a few is reached only by a request with good credentials: a token of a session
that has not expired, or a key that is stored and has not expired. `authGate` says so, and that a
request without them is answered 401 and changes nothing.
-/

namespace Cyrenus

/-! ## Credentials -/

/-- A token is stored in the row of a session that has not expired. -/
def SessionGood (t : Times) (token : CStr) (db : Database) : Prop :=
  ∃ row ∈ db.sessions, row.token = token ∧ t.session < row.expiresAt ∧ t.check < row.expiresAt

/-- The digest of a key is stored in a row that has not expired. -/
def KeyGood (libs : Libs) (t : Times) (key : CStr) (db : Database) : Prop :=
  ∃ row ∈ db.apiKeys.rows, row.keyHash = libs.sha256 key ∧
    ∀ e, row.expiresAt = some e → t.apiKey < e

/-- The request carries a good token or a good key. -/
def Credentialed (libs : Libs) (t : Times) (req : HttpRequest) (db : Database) : Prop :=
  (∃ header, req.authorization = some header ∧ SessionGood t (bearerToken header) db) ∨
    ∃ key, req.apiKey = some key ∧ KeyGood libs t key db

/-- The check of the session lets good tokens through only. -/
theorem sessionGood_of_authenticated {t : Times} {authHeader : Option CStr} {db : Database}
    (h : sessionAuthenticated t authHeader db = true) :
    ∃ header, authHeader = some header ∧ SessionGood t (bearerToken header) db := by
  cases authHeader with
  | none => cases h
  | some header =>
    simp only [sessionAuthenticated] at h
    split at h
    · rename_i session hs
      obtain ⟨hmem, htoken, hnow⟩ := databaseGetSession_some hs
      exact ⟨header, rfl, session, hmem, htoken, hnow, of_decide_eq_true h⟩
    · cases h

/-- The check lets through only requests with good credentials. -/
theorem credentialed_of_authenticate {libs : Libs} {a : Answers} {req : HttpRequest}
    {db : Database} (h : (authenticate libs a req db).1 = true) :
    Credentialed libs a.times req db := by
  rw [authenticate] at h
  split at h
  · rename_i hs
    exact .inl (sessionGood_of_authenticated hs)
  · split at h
    · rename_i keyRec hkey
      obtain ⟨key, hreq, hvalid⟩ := Option.bind_eq_some_iff.1 hkey
      exact .inr ⟨key, hreq, keyRec, databaseValidateApiKey_some hvalid⟩
    · cases h

/-! ## Routes -/

/-- The routes that anyone may use. -/
inductive PublicRequest (url method : CStr) : Prop where
  | options (hm : method = "OPTIONS".toList)
  | health (hu : url = "/api/v1/system/health".toList)
  | login (hu : url = "/api/v1/auth/login".toList) (hm : method = "POST".toList)
  | asset (hu : url ∈ ["/", "/index.html", "/login.html", "/app.js", "/styles.css"].map
      String.toList) (hm : method = "GET".toList)
  | verify (hu : url = "/api/v1/auth/verify".toList) (hm : method = "GET".toList)

/-- Only those have a public route. -/
theorem publicRoute_eq_none {url method : CStr} (h : ¬ PublicRequest url method) :
    publicRoute url method = none := by
  unfold publicRoute
  rw [if_neg fun hm => h (.options hm), if_neg fun hu => h (.health hu),
    if_neg fun hx => h (.login hx.1 hx.2), if_neg fun hx => h (.asset ?_ hx.1),
    if_neg fun hx => h (.asset (by simp [hx.2]) hx.1),
    if_neg fun hx => h (.asset (by simp [hx.2]) hx.1),
    if_neg fun hx => h (.asset (by simp [hx.2]) hx.1), if_neg fun hx => h (.verify hx.1 hx.2)]
  obtain hu | hu := hx.2 <;> simp [hu]

/-! ## The gate -/

/-- **What a public handler changes**: nothing, but that a login stores a session. -/
theorem runHandler_of_isPublic {libs : Libs} {a : Answers} {report : Handler → Option Response}
    {req : HttpRequest} {data : Option CStr} {srv : Server} {h : Handler}
    (hpub : h.isPublic = true) :
    (runHandler libs a report req data srv h).2 = srv ∨
      h = .login ∧ ∃ row, (runHandler libs a report req data srv h).2 =
        { srv with db := { srv.db with sessions := srv.db.sessions ++ [row] } } := by
  cases h with
  | login =>
    obtain ⟨row, -, -, he⟩ | ⟨he, -⟩ := apiAuthLogin_cases libs a srv.daemon.config data srv.db
    · exact .inr ⟨rfl, row, by rw [runHandler, he]⟩
    · exact .inl (by rw [runHandler, he])
  | options | health | asset | verify => exact .inl rfl
  | _ => cases hpub

/-- What is asked of the gate, for one request. -/
structure AuthGate (libs : Libs) (a : Answers)
    (report : Handler → Option Response) (req : HttpRequest) (srv : Server) :
    Prop where
  invoked : ∀ h, (handleRequest libs a report req srv).1.handler = some h → h.isPublic = false →
    Credentialed libs a.times req srv.db
  changed : (handleRequest libs a report req srv).2 ≠ srv →
    Credentialed libs a.times req srv.db ∨
      (handleRequest libs a report req srv).1.handler = some .login ∧
        ∃ row, (handleRequest libs a report req srv).2 =
          { srv with db := { srv.db with sessions := srv.db.sessions ++ [row] } }
  refused : ¬ PublicRequest req.url req.method → ¬ Credentialed libs a.times req srv.db →
    req.bodySize ≤ 1024 * 1024 → handleRequest libs a report req srv = (unauthorized, srv)

/-- **The gate.** A handler that is not public is reached, and anything but a new session is
changed, only by a request with good credentials; a request without them to a route that is not
public is answered 401 and changes nothing, unless its body is too large to be answered. -/
theorem authGate (libs : Libs) (a : Answers)
    (report : Handler → Option Response) (req : HttpRequest) (srv : Server) :
    AuthGate libs a report req srv := by
  have hcase := handleRequest_handled libs a report req srv
  constructor
  · intro h hh hpriv
    generalize handleRequest libs a report req srv = r at hcase hh
    cases hcase with
    | tooLarge => cases hh
    | anyone _ hpub =>
      cases hh
      rw [publicRoute_isPublic hpub] at hpriv
      cases hpriv
    | unauthorized => cases hh
    | authenticated _ _ hauth => exact credentialed_of_authenticate hauth
  · intro hchanged
    generalize handleRequest libs a report req srv = r at hcase hchanged
    cases hcase with
    | tooLarge => exact absurd rfl hchanged
    | anyone _ hpub =>
      obtain hsame | ⟨rfl, hrow⟩ := runHandler_of_isPublic (publicRoute_isPublic hpub)
      · exact absurd hsame hchanged
      · exact .inr ⟨rfl, hrow⟩
    | unauthorized => exact absurd rfl hchanged
    | authenticated _ _ hauth => exact .inl (credentialed_of_authenticate hauth)
  · intro hpriv hcred hsize
    generalize handleRequest libs a report req srv = r at hcase
    cases hcase with
    | tooLarge hlarge => exact absurd hsize (Nat.not_le.2 hlarge)
    | anyone _ hpub =>
      rw [publicRoute_eq_none hpriv] at hpub
      cases hpub
    | unauthorized => rfl
    | authenticated _ _ hauth => exact absurd (credentialed_of_authenticate hauth) hcred

/-- A request without credentials whose body has `n + 1` bytes. -/
def bodyRequest (n : ℕ) : HttpRequest where
  url := "/api/v1/rules".toList
  method := "POST".toList
  authorization := none
  apiKey := none
  chunks := [List.replicate (n + 1) ' ']
  chunks_ne := by
    intro chunk hchunk
    rw [List.mem_singleton.1 hchunk, List.replicate_succ]
    exact List.cons_ne_nil _ _

theorem bodySize_bodyRequest (n : ℕ) : (bodyRequest n).bodySize = n + 1 :=
  calc (bodyRequest n).bodySize = ([List.replicate (n + 1) ' '].map List.length).sum := rfl
    _ = n + 1 := by rw [List.map_singleton, List.length_replicate, List.sum_singleton]

/-- Not every request without good credentials is answered 401: one with a large body is refused
before it is looked at. -/
theorem authGate_fails :
    ¬ ∀ (libs : Libs) (a : Answers) (report : Handler → Option Response) (req : HttpRequest)
      (srv : Server), ¬ PublicRequest req.url req.method →
      ¬ Credentialed libs a.times req srv.db →
      (handleRequest libs a report req srv).1.reply =
        .text 401 "\x7b\"error\":\"Unauthorized\"\x7d" := by
  intro h
  have hreply := h ⟨fun _ => none, fun _ => [], fun _ => []⟩ (.still 0) (fun _ => some ⟨200, ""⟩)
    (bodyRequest (1024 * 1024)) .initial ?_ ?_
  · have hsize : ¬ (bodyRequest (1024 * 1024)).bodySize ≤ MAX_PAYLOAD_SIZE := by
      rw [bodySize_bodyRequest]
      exact Nat.not_succ_le_self _
    rw [handleRequest, HttpRequest.receive_eq, if_neg hsize] at hreply
    cases hreply
  · intro hpub
    cases hpub with
    | options hm => exact absurd hm (by decide +kernel)
    | health hu => exact absurd hu (by decide +kernel)
    | login hu => exact absurd hu (by decide +kernel)
    | asset _ hm => exact absurd hm (by decide +kernel)
    | verify hu => exact absurd hu (by decide +kernel)
  · rintro (⟨header, hheader, -⟩ | ⟨key, hkey, -⟩)
    · cases hheader
    · cases hkey

end Cyrenus
