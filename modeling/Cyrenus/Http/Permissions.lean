import Cyrenus.Http.AuthGate
import Mathlib.Tactic.ByContra

/-!
# What a key may do

A key is created with permissions, which are stored with it and read back when it is used.
`handle_request` does not look at them, so a key that was not given the permission to write may do
what any other may: `neverMutates_iff` says which requests reach a handler that changes something.
-/

namespace Cyrenus

/-! ## Routes to handlers that change something -/

/-- The handlers that change rules, blocked countries, settings, keys, policies or the configuration
of Tetragon. -/
def Handler.mutates : Handler → Bool
  | .updateSettings | .rulesCreate | .rulesDelete _ | .geoipAddRule | .geoipDeleteRule _
  | .keysCreate | .keysDelete | .policySave _ | .policyDeploy _ | .policyDelete _
  | .configSave => true
  | _ => false

/-- No public handler is among them. -/
theorem Handler.mutates_of_isPublic {h : Handler} (hpub : h.isPublic = true) :
    h.mutates = false := by
  cases h <;> first | rfl | cases hpub

/-- Every other handler but a login leaves the server as it is. -/
theorem runHandler_of_not_mutates {libs : Libs} {a : Answers} {report : Handler → Option Response}
    {req : HttpRequest} {data : Option CStr} {srv : Server} {h : Handler}
    (hmut : h.mutates = false) (hlogin : h ≠ .login) :
    (runHandler libs a report req data srv h).2 = srv := by
  cases h with
  | login => exact absurd rfl hlogin
  | updateSettings | rulesCreate | rulesDelete | geoipAddRule | geoipDeleteRule | keysCreate
  | keysDelete | policySave | policyDeploy | policyDelete | configSave => cases hmut
  | _ => rfl

/-- The requests whose route leads to a handler that changes something. -/
inductive MutatingRequest (url method : CStr) : Prop where
  | updateSettings (hu : url = "/api/v1/system/settings".toList) (hm : method = "POST".toList)
  | createRule (hu : url = "/api/v1/rules".toList) (hm : method = "POST".toList)
  | deleteRule (id : CStr) (hu : url = "/api/v1/rules/".toList ++ id)
    (hm : method = "DELETE".toList)
  | addCountry (rest : CStr) (hu : url = "/api/v1/geoip/rules".toList ++ rest)
    (hm : method = "POST".toList)
  | deleteCountry (id : CStr) (hu : url = "/api/v1/geoip/rules/".toList ++ id)
    (hm : method = "DELETE".toList)
  | createKey (hu : url = "/api/v1/keys".toList) (hm : method = "POST".toList)
  | deleteKey (hu : url = "/api/v1/keys".toList) (hm : method = "DELETE".toList)
  | deployPolicy (name : CStr) (hu : url = "/api/v1/security/policy/".toList ++ name)
    (hm : method = "POST".toList) (hd : "/deploy".toList <:+: name.take 255)
  | savePolicy (name : CStr) (hu : url = "/api/v1/security/policy/".toList ++ name)
    (hm : method = "POST".toList) (hd : ¬ "/deploy".toList <:+: name)
  | deletePolicy (name : CStr) (hu : url = "/api/v1/security/policy/".toList ++ name)
    (hm : method = "DELETE".toList) (hd : ¬ "/deploy".toList <:+: name)
  | saveConfig (hu : url = "/api/v1/security/config".toList) (hm : method = "POST".toList)

/-- The routes of the policies that change something. -/
theorem policyRoute_mutates {name method : CStr} {h : Handler}
    (hr : policyRoute name method = .handler h) (hmut : h.mutates = true) :
    (method = "POST".toList ∧ "/deploy".toList <:+: name.take 255) ∨
      ((method = "POST".toList ∨ method = "DELETE".toList) ∧ ¬ "/deploy".toList <:+: name) := by
  rw [policyRoute] at hr
  split at hr
  · split at hr
    · rename_i hd
      split at hr
      · exact .inl ⟨‹_›, (beforeDeploy_isSome _).1 (by rw [hd]; rfl)⟩
      · cases hr
    · cases hr
  · rename_i hd
    have hnot : ¬ "/deploy".toList <:+: name := by
      rw [← beforeDeploy_isSome, hd]
      exact Bool.false_ne_true
    split at hr
    · cases hr
      cases hmut
    · split at hr
      · exact .inr ⟨.inl ‹_›, hnot⟩
      · split at hr
        · exact .inr ⟨.inr ‹_›, hnot⟩
        · cases hr

/-- A route to a handler that changes nothing is passed over. -/
theorem route_of_pass {c : Prop} [Decidable c] {g h : Handler} {r : Route}
    (hr : (if c then .handler g else r) = Route.handler h) (hg : g.mutates = false)
    (hmut : h.mutates = true) : r = .handler h := by
  rcases ite_eq_iff.1 hr with ⟨-, he⟩ | ⟨-, he⟩
  · cases he
    rw [hg] at hmut
    cases hmut
  · exact he

/-- Among the routes of Tetragon only those of the policies and of the configuration change
something. -/
theorem mutatingRequest_of_securityRoute {url method : CStr} {h : Handler}
    (hr : securityRoute url method = .handler h) (hmut : h.mutates = true) :
    MutatingRequest url method := by
  unfold securityRoute at hr
  replace hr := route_of_pass hr rfl hmut
  replace hr := route_of_pass hr rfl hmut
  replace hr := route_of_pass hr rfl hmut
  rcases ite_eq_iff.1 hr with ⟨hx, hr⟩ | ⟨-, hr⟩
  · obtain ⟨name, rfl⟩ := eq_append_of_startsWith hx
    obtain ⟨rfl, hd⟩ | ⟨rfl | rfl, hd⟩ := policyRoute_mutates hr hmut
    · exact .deployPolicy name rfl rfl hd
    · exact .savePolicy name rfl rfl hd
    · exact .deletePolicy name rfl rfl hd
  replace hr := route_of_pass hr rfl hmut
  replace hr := route_of_pass hr rfl hmut
  rcases ite_eq_iff.1 hr with ⟨hx, -⟩ | ⟨-, hr⟩
  · exact .saveConfig hx.1 hx.2
  · cases hr

/-- A route that leads to a handler that changes something is one of those. -/
theorem mutatingRequest_of_route {url method : CStr} {h : Handler}
    (hr : protectedRoute url method = .handler h) (hmut : h.mutates = true) :
    MutatingRequest url method := by
  unfold protectedRoute at hr
  replace hr := route_of_pass hr rfl hmut
  replace hr := route_of_pass hr rfl hmut
  rcases ite_eq_iff.1 hr with ⟨hx, -⟩ | ⟨-, hr⟩
  · exact .updateSettings hx.1 hx.2
  replace hr := route_of_pass hr rfl hmut
  replace hr := route_of_pass hr rfl hmut
  replace hr := route_of_pass hr rfl hmut
  replace hr := route_of_pass hr rfl hmut
  rcases ite_eq_iff.1 hr with ⟨hx, -⟩ | ⟨-, hr⟩
  · exact .createRule hx.1 hx.2
  rcases ite_eq_iff.1 hr with ⟨hx, -⟩ | ⟨-, hr⟩
  · obtain ⟨id, hu⟩ := eq_append_of_startsWith hx.1
    exact .deleteRule id hu hx.2
  replace hr := route_of_pass hr rfl hmut
  replace hr := route_of_pass hr rfl hmut
  replace hr := route_of_pass hr rfl hmut
  replace hr := route_of_pass hr rfl hmut
  rcases ite_eq_iff.1 hr with ⟨hx, -⟩ | ⟨-, hr⟩
  · obtain ⟨rest, hu⟩ := eq_append_of_startsWith hx.1
    exact .addCountry rest hu hx.2
  rcases ite_eq_iff.1 hr with ⟨hx, -⟩ | ⟨-, hr⟩
  · obtain ⟨id, hu⟩ := eq_append_of_startsWith hx.1
    exact .deleteCountry id hu hx.2
  replace hr := route_of_pass hr rfl hmut
  replace hr := route_of_pass hr rfl hmut
  rcases ite_eq_iff.1 hr with ⟨hx, -⟩ | ⟨-, hr⟩
  · exact .createKey hx.1 hx.2
  rcases ite_eq_iff.1 hr with ⟨hx, -⟩ | ⟨-, hr⟩
  · exact .deleteKey hx.1 hx.2
  · exact mutatingRequest_of_securityRoute hr hmut

/-- Every one of those leads to a handler that changes something. -/
theorem MutatingRequest.route {url method : CStr} (h : MutatingRequest url method) :
    ∃ hd, protectedRoute url method = .handler hd ∧ hd.mutates = true := by
  cases h with
  | updateSettings hu hm => exact ⟨.updateSettings, by rw [hu, hm]; rfl, rfl⟩
  | createRule hu hm => exact ⟨.rulesCreate, by rw [hu, hm]; rfl, rfl⟩
  | deleteRule id hu hm => exact ⟨.rulesDelete id, by rw [hu, hm]; rfl, rfl⟩
  | addCountry rest hu hm => exact ⟨.geoipAddRule, by rw [hu, hm]; rfl, rfl⟩
  | deleteCountry id hu hm => exact ⟨.geoipDeleteRule id, by rw [hu, hm]; rfl, rfl⟩
  | createKey hu hm => exact ⟨.keysCreate, by rw [hu, hm]; rfl, rfl⟩
  | deleteKey hu hm => exact ⟨.keysDelete, by rw [hu, hm]; rfl, rfl⟩
  | deployPolicy name hu hm hd =>
    have hroute : protectedRoute url method = policyRoute name "POST".toList := by rw [hu, hm]; rfl
    obtain ⟨all, hall⟩ := Option.isSome_iff_exists.1 ((beforeDeploy_isSome name).2
      (hd.trans (List.take_prefix ..).isInfix))
    obtain ⟨part, hpart⟩ := Option.isSome_iff_exists.1 ((beforeDeploy_isSome _).2 hd)
    exact ⟨.policyDeploy part, by rw [hroute, policyRoute, hall, hpart]; rfl, rfl⟩
  | savePolicy name hu hm hd =>
    have hroute : protectedRoute url method = policyRoute name "POST".toList := by rw [hu, hm]; rfl
    have hnone := Option.not_isSome_iff_eq_none.1 (mt (beforeDeploy_isSome name).1 hd)
    exact ⟨.policySave name, by rw [hroute, policyRoute, hnone]; rfl, rfl⟩
  | deletePolicy name hu hm hd =>
    have hroute : protectedRoute url method = policyRoute name "DELETE".toList := by
      rw [hu, hm]; rfl
    have hnone := Option.not_isSome_iff_eq_none.1 (mt (beforeDeploy_isSome name).1 hd)
    exact ⟨.policyDelete name, by rw [hroute, policyRoute, hnone]; rfl, rfl⟩
  | saveConfig hu hm => exact ⟨.configSave, by rw [hu, hm]; rfl, rfl⟩

/-- None of them has a public route. -/
theorem MutatingRequest.publicRoute {url method : CStr} (h : MutatingRequest url method) :
    publicRoute url method = none := by
  cases h <;> subst_vars <;> rfl

/-! ## Permissions -/

/-- The handler that was run is the one the route leads to. -/
theorem runRoute_handler {libs : Libs} {a : Answers} {report : Handler → Option Response}
    {req : HttpRequest} {data : Option CStr} {srv : Server} {r : Route} {h : Handler} :
    (runRoute libs a report req data srv r).1.handler = some h ↔ r = .handler h := by
  cases r <;> simp [runRoute]

/-- The row belongs to a key that was created with permissions without "write", and it alone lets
the request through. -/
structure ReadOnlyKey (libs : Libs) (t : Times) (req : HttpRequest) (db : Database)
    (row : ApiKeyRow) : Prop where
  permissions : ∃ perms, row.permissions = CStr.strncpy 63 perms ∧ ¬ "write".toList <:+: perms
  session : sessionAuthenticated t req.authorization db = false
  key : requestKey libs t req.apiKey db = some row

/-- A request with a good key is let through. -/
theorem ReadOnlyKey.authenticate {libs : Libs} {a : Answers} {req : HttpRequest} {db : Database}
    {row : ApiKeyRow} (h : ReadOnlyKey libs a.times req db row) :
    (authenticate libs a req db).1 = true := by
  simp only [Cyrenus.authenticate, h.session, h.key, Bool.false_eq_true, if_false]

/-- No handler that changes something is run. -/
def NeverMutates (libs : Libs) (a : Answers)
    (report : Handler → Option Response) (req : HttpRequest) (srv : Server) : Prop :=
  ∀ h, (handleRequest libs a report req srv).1.handler = some h → h.mutates = false

/-- **When a key without "write" changes nothing**: when the request is none of those that change
something, or its body is too large. -/
theorem neverMutates_iff (libs : Libs) (a : Answers) (report : Handler → Option Response)
    (req : HttpRequest) (srv : Server) (row : ApiKeyRow)
    (hkey : ReadOnlyKey libs a.times req srv.db row) :
    NeverMutates libs a report req srv ↔
      ¬ (MutatingRequest req.url req.method ∧ req.bodySize ≤ 1024 * 1024) := by
  have hcase := handleRequest_handled libs a report req srv
  rw [NeverMutates]
  generalize handleRequest libs a report req srv = r at hcase
  cases hcase with
  | tooLarge hsize => exact ⟨fun _ hx => absurd hx.2 (Nat.not_le.2 hsize), fun _ => nofun⟩
  | anyone _ hpub =>
    refine ⟨fun _ hx => ?_, fun _ h hh => ?_⟩
    · rw [hx.1.publicRoute] at hpub
      cases hpub
    · cases hh
      exact Handler.mutates_of_isPublic (publicRoute_isPublic hpub)
  | unauthorized _ _ hauth =>
    rw [hkey.authenticate] at hauth
    cases hauth
  | authenticated hctx _ _ =>
    refine ⟨fun hnever hx => ?_, fun hnot h hh => ?_⟩
    · obtain ⟨h, hroute, hmut⟩ := hx.1.route
      rw [hnever h (runRoute_handler.2 hroute)] at hmut
      cases hmut
    · by_contra hmut
      refine hnot ⟨mutatingRequest_of_route (runRoute_handler.1 hh) (by simpa using hmut), ?_⟩
      rw [req.receive_eq] at hctx
      split at hctx
      · assumption
      · cases hctx

/-- A key that was created to read, and the digest of its text. -/
def readKey : CStr := "cyr_k_".toList ++ List.replicate 57 'a'

/-- The row of that key. -/
def readKeyRow : ApiKeyRow where
  id := 1
  name := "monitoring".toList
  keyHash := "338d9d95557e05c8bbdf224dbe1e2e0b3dac72ace822c56a91ea1aad39a31ae3".toList
  keyPrefix := "cyr_k_aaread".toList
  permissions := "read".toList
  lastUsedAt := none
  expiresAt := none

/-- A server on which that key is stored. -/
def readKeyServer : Server :=
  { Server.initial with
    db := { Database.empty with apiKeys := ⟨[readKeyRow], 1, by simp [readKeyRow], by simp⟩ } }

/-- The digest function, where it is asked for that key. -/
def readKeyLibs : Libs where
  parse := fun _ => none
  toText := fun _ => []
  sha256 := fun s => if s = readKey then readKeyRow.keyHash else []

/-- A request with that key. -/
def readKeyRequest (method url : String) : HttpRequest where
  url := url.toList
  method := method.toList
  authorization := none
  apiKey := some readKey
  chunks := []
  chunks_ne := noChunks_ne

theorem readKeyRequest_readOnlyKey (method url : String) :
    ReadOnlyKey readKeyLibs (.still 1700000000) (readKeyRequest method url) readKeyServer.db
      readKeyRow where
  permissions := ⟨"read".toList, rfl, by decide⟩
  session := rfl
  key := rfl

/-- A key without "write" deletes a rule. -/
theorem neverMutates_fails :
    ¬ ∀ (libs : Libs) (a : Answers) (report : Handler → Option Response) (req : HttpRequest)
      (srv : Server) (row : ApiKeyRow), ReadOnlyKey libs a.times req srv.db row →
      NeverMutates libs a report req srv := by
  intro h
  have hnever := h readKeyLibs (.still 1700000000) (fun _ => some ⟨200, ""⟩)
    (readKeyRequest "DELETE" "/api/v1/rules/10.0.0.1_80_6") readKeyServer readKeyRow
    (readKeyRequest_readOnlyKey ..) (.rulesDelete "10.0.0.1_80_6".toList) rfl
  cases hnever

theorem neverMutates_iff_list :
    NeverMutates readKeyLibs (.still 1700000000) (fun _ => some ⟨200, ""⟩)
        (readKeyRequest "GET" "/api/v1/rules") readKeyServer ↔
      ¬ (MutatingRequest "/api/v1/rules".toList "GET".toList ∧
        (readKeyRequest "GET" "/api/v1/rules").bodySize ≤ 1024 * 1024) :=
  neverMutates_iff readKeyLibs (.still 1700000000) (fun _ => some ⟨200, ""⟩)
    (readKeyRequest "GET" "/api/v1/rules") readKeyServer readKeyRow (readKeyRequest_readOnlyKey ..)

end Cyrenus
