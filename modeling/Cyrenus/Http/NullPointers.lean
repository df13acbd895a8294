import Cyrenus.Http.Server

/-!
# Null pointers in the handlers

A body of which no byte has arrived is a null pointer, and so is the text of a member that is
`null`. `readsNoNull_iff` says which requests make a handler hand such a pointer to a function that
reads it.
-/

namespace Cyrenus

/-! ## The handlers -/

/-- A member of a body is `null`. -/
def HasNull (libs : Libs) (data : Option CStr) (names : List String) : Prop :=
  ∃ text root, data = some text ∧ libs.parse text = some root ∧
    ∃ name ∈ names, root.get? name = some .null

/-- The bodies on which a handler reads a null pointer: none where one is parsed, and those that
have `null` for a member whose text is read. -/
def Handler.ReadsNull (libs : Libs) (config : RuntimeConfig) (data : Option CStr) : Handler → Prop
  | .login => data = none ∨
    ∃ text root, data = some text ∧ libs.parse text = some root ∧ LoginReadsNull libs config root
  | .updateSettings | .iplistsAdd | .keysDelete => data = none
  | .rulesCreate => data = none ∨ HasNull libs data ["ip", "proto", "action"]
  | .geoipAddRule => data = none ∨ HasNull libs data ["country_code"]
  | .keysCreate => data = none ∨ HasNull libs data ["name", "permissions"]
  | _ => False

/-- Storing a rule reads a null pointer when none can be read from the body. -/
theorem apiRulesCreate_nullRead_iff {toText : Json → CStr} {body : Body} {updateOk : Bool}
    {rules : Table RuleKey Rule} :
    Reply.ofOption (apiRulesCreate toText body updateOk rules).1 = .nullRead ↔
      ∃ root, body = some root ∧ parseRule toText root = none := by
  cases body with
  | none => simp [apiRulesCreate, Reply.ofOption]
  | some root =>
    simp only [Option.some.injEq, exists_eq_left', apiRulesCreate]
    cases parseRule toText root with
    | none => simp [Reply.ofOption]
    | some r => cases updateOk <;> simp [Reply.ofOption]

/-- **When a handler reads a null pointer.** -/
theorem runHandler_nullRead_iff {libs : Libs} {a : Answers} {report : Handler → Option Response}
    {req : HttpRequest} {data : Option CStr} {srv : Server} {h : Handler} :
    (runHandler libs a report req data srv h).1 = .nullRead ↔
      h.ReadsNull libs srv.daemon.config data := by
  cases h with
  | login =>
    simp only [runHandler, apiAuthLogin, withParsed_nullRead_iff, authLogin_nullRead_iff,
      Handler.ReadsNull, exists_and_left]
  | updateSettings =>
    simp only [runHandler, withParsed_nullRead_iff, Handler.ReadsNull]
    simp
  | rulesCreate =>
    simp only [runHandler, withParsed_nullRead_iff, apiRulesCreate_nullRead_iff,
      parseRule_eq_none, Handler.ReadsNull, HasNull, exists_and_left]
  | geoipAddRule =>
    simp only [runHandler, apiGeoipAddRule, withParsed_nullRead_iff, geoipAddRule_nullRead_iff,
      Handler.ReadsNull, HasNull, exists_and_left, List.mem_singleton, exists_eq_left]
  | keysCreate =>
    simp only [runHandler, apiKeysCreate, withParsed_nullRead_iff, keysCreate_nullRead_iff,
      Handler.ReadsNull, HasNull, exists_and_left, List.mem_cons, List.not_mem_nil, or_false,
      exists_eq_or_imp, exists_eq_left]
  | keysDelete =>
    have hparsed : ∀ body, (keysDelete a srv.db body).1 ≠ .nullRead := by
      rintro (_ | _) <;> exact Reply.queued_ne_nullRead _
    simp only [runHandler, apiKeysDelete, withParsed_nullRead_iff, Handler.ReadsNull, hparsed,
      and_false, exists_const, or_false]
  | iplistsAdd =>
    simp only [runHandler, apiIplistsAdd, withParsed_nullRead_iff, Handler.ReadsNull]
    refine or_iff_left ?_
    rintro ⟨text, -, hnull⟩
    cases hparse : libs.parse text <;> rw [hparse] at hnull <;> cases hnull
  | geoipDeleteRule id =>
    refine ⟨fun hnull => ?_, False.elim⟩
    simp only [runHandler, apiGeoipDeleteRule] at hnull
    split at hnull
    · split at hnull <;> cases hnull
    · cases hnull
  | options | health | verify | logout | rulesDelete | iplistsDelete | policyDeploy
  | policyDelete =>
    exact iff_of_false (Reply.queued_ne_nullRead _) id
  | _ => exact iff_of_false (Reply.made_ne_nullRead _) id

/-! ## The requests -/

/-- The body of a request as its handler sees it. -/
def HttpRequest.text (req : HttpRequest) : Option CStr :=
  if req.chunks = [] then none else some (CStr.ofBytes req.chunks.flatten)

/-- The routes and the credentials of a request lead to a handler. -/
inductive Reaches (libs : Libs) (a : Answers) (req : HttpRequest) (db : Database) : Handler → Prop
    where
  | anyone {h : Handler} (hsize : req.bodySize ≤ 1024 * 1024)
    (hpub : publicRoute req.url req.method = some h) : Reaches libs a req db h
  | authenticated {h : Handler} (hsize : req.bodySize ≤ 1024 * 1024)
    (hpub : publicRoute req.url req.method = none) (hauth : (authenticate libs a req db).1 = true)
    (hroute : protectedRoute req.url req.method = .handler h) : Reaches libs a req db h

/-- The body of a request that is not too large. -/
theorem HttpRequest.receive_eq_some {req : HttpRequest} {ctx : ConnectionContext}
    (hctx : req.receive = some ctx) : req.bodySize ≤ 1024 * 1024 ∧ ctx.body = req.text := by
  rw [req.receive_eq] at hctx
  split at hctx
  · rename_i hsize
    cases hctx
    refine ⟨hsize, ?_⟩
    rw [HttpRequest.text, ConnectionContext.body]
    split <;> rfl
  · cases hctx

/-- **When a request makes no handler read a null pointer**: when it does not reach one that reads
it in the body. -/
theorem readsNoNull_iff (libs : Libs) (a : Answers) (report : Handler → Option Response)
    (req : HttpRequest) (srv : Server) :
    (handleRequest libs a report req srv).1.reply ≠ .nullRead ↔
      ∀ h, Reaches libs a req srv.db h → ¬ h.ReadsNull libs srv.daemon.config req.text := by
  have hcase := handleRequest_handled libs a report req srv
  generalize handleRequest libs a report req srv = r at hcase
  cases hcase with
  | tooLarge hsize =>
    refine ⟨fun _ h hreach => ?_, fun _ => nofun⟩
    cases hreach with
    | anyone hle | authenticated hle => exact absurd hle (Nat.not_le.2 hsize)
  | @anyone ctx h hctx hpub =>
    obtain ⟨hsize, hbody⟩ := HttpRequest.receive_eq_some hctx
    rw [← hbody]
    refine ⟨fun hnot h' hreach => ?_, fun hall hnull => ?_⟩
    · cases hreach with
      | anyone _ hpub' =>
        cases hpub.symm.trans hpub'
        exact fun hreads => hnot (runHandler_nullRead_iff.2 hreads)
      | authenticated _ hpub' => cases hpub.symm.trans hpub'
    · exact hall h (.anyone hsize hpub) (runHandler_nullRead_iff.1 hnull)
  | unauthorized _ hpub hauth =>
    refine ⟨fun _ h hreach => ?_, fun _ => nofun⟩
    cases hreach with
    | anyone _ hpub' => cases hpub.symm.trans hpub'
    | authenticated _ _ hauth' => cases hauth.symm.trans hauth'
  | @authenticated ctx hctx hpub hauth =>
    obtain ⟨hsize, hbody⟩ := HttpRequest.receive_eq_some hctx
    rw [← hbody]
    refine ⟨fun hnot h hreach => ?_, fun hall hnull => ?_⟩
    · cases hreach with
      | anyone _ hpub' => cases hpub.symm.trans hpub'
      | authenticated _ _ _ hroute =>
        rw [hroute] at hnot
        exact fun hreads => hnot (runHandler_nullRead_iff.2 hreads)
    · cases hroute : protectedRoute req.url req.method with
      | handler h =>
        simp only [hroute, runRoute] at hnull
        have hreads := runHandler_nullRead_iff.1 hnull
        exact hall h (.authenticated hsize hpub hauth hroute) hreads
      | notFound | overrun =>
        rw [hroute] at hnull
        cases hnull

/-- A login without a body. -/
def emptyLogin : HttpRequest where
  url := "/api/v1/auth/login".toList
  method := "POST".toList
  authorization := none
  apiKey := none
  chunks := []
  chunks_ne := noChunks_ne

/-- A login without a body makes `json_tokener_parse` read a null pointer. -/
theorem readsNoNull_fails :
    ¬ ∀ (libs : Libs) (a : Answers) (report : Handler → Option Response) (req : HttpRequest)
      (srv : Server), (handleRequest libs a report req srv).1.reply ≠ .nullRead := by
  intro h
  exact h ⟨fun _ => none, fun _ => [], fun _ => []⟩ (.still 1700000000) (fun _ => some ⟨200, ""⟩)
    emptyLogin .initial rfl

end Cyrenus
