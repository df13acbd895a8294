import Cyrenus.CountryBlocks
import Cyrenus.Http.AuthGate

/-!
# What the requests do to the daemon

Five handlers change the daemon: one stores thresholds, two change the rules and two the list of
blocked countries. A request that reaches one of them carries out an operation (`DaemonOp`), and all
others leave the daemon alone; so in a run of requests the daemon is a part of its own, which goes
through the operations of the requests that were let through (`httpStep_daemon`). All of these carry
good credentials (`credentialed_of_daemonOp`).
-/

namespace Cyrenus

/-! ## Operations -/

/-- What a request asks the daemon to do, once it has been let through. -/
inductive DaemonOp where
  | settings (r : SettingsRequest)
  | createRule (body : Body) (updateOk : Bool)
  | deleteRule (idStr : CStr) (stack : RuleId) (deleteOk : Bool)
  | country (r : CountryRequest)

/-- Change the rules. -/
def Daemon.withRules (d : Daemon) (rules : Table RuleKey Rule) : Daemon :=
  { d with user := { d.user with rules := rules } }

/-- Change the blocked countries. -/
def Daemon.withBlocked (d : Daemon) (blocked : Table U16 U8) : Daemon :=
  { d with user := { d.user with blockedCountries := blocked } }

/-- Carry out an operation. -/
def DaemonOp.run (libs : Libs) (d : Daemon) : DaemonOp → Daemon
  | .settings r => (settingsStep r d).2
  | .createRule body updateOk =>
    d.withRules (apiRulesCreate libs.toText body updateOk d.user.rules).2
  | .deleteRule idStr stack deleteOk =>
    d.withRules (apiRulesDelete idStr stack deleteOk d.user.rules).2
  | .country r => d.withBlocked (countryStep libs r d.user.blockedCountries).2

/-- The body of a request as the handlers see it. -/
def HttpRequest.body (req : HttpRequest) : Option CStr := req.receive.bind ConnectionContext.body

/-- The operation that a handler carries out on a body. -/
def handlerOp (libs : Libs) (a : Answers) (data : Option CStr) : Handler → Option DaemonOp
  | .updateSettings => data.map fun text => .settings ⟨libs.parse text, a.mapUpdateOk⟩
  | .rulesCreate => data.map fun text => .createRule (libs.parse text) a.mapUpdateOk
  | .rulesDelete id => some (.deleteRule id a.stack a.mapDeleteOk)
  | .geoipAddRule => some (.country (.post a data))
  | .geoipDeleteRule id => some (.country (.delete a id))
  | _ => none

/-- The operation that a request has carried out. -/
def daemonOp (libs : Libs) (eo : Exchange × Outcome) : Option DaemonOp :=
  eo.2.handler.bind (handlerOp libs eo.1.answers eo.1.request.body)

/-- **What a handler does to the daemon.** -/
theorem runHandler_daemon (libs : Libs) (a : Answers) (report : Handler → Option Response)
    (req : HttpRequest) (data : Option CStr) (srv : Server) (h : Handler) :
    (runHandler libs a report req data srv h).2.daemon =
      (handlerOp libs a data h).elim srv.daemon fun op => op.run libs srv.daemon := by
  cases h with
  | updateSettings | rulesCreate => cases data <;> rfl
  | _ => rfl

/-- A public handler carries out no operation. -/
theorem handlerOp_of_isPublic {libs : Libs} {a : Answers} {data : Option CStr} {h : Handler}
    (hpub : h.isPublic = true) : handlerOp libs a data h = none := by
  cases h <;> first | rfl | cases hpub

/-- **One request**: it carries out its operation, if it has one, and leaves the daemon alone
otherwise. -/
theorem httpStep_daemon (libs : Libs) (e : Exchange) (srv : Server) :
    (httpStep libs e srv).2.daemon =
      (daemonOp libs (e, (httpStep libs e srv).1)).elim srv.daemon
        fun op => op.run libs srv.daemon := by
  have hcase := handleRequest_handled libs e.answers e.report e.request srv
  rw [httpStep, daemonOp]
  generalize handleRequest libs e.answers e.report e.request srv = r at hcase
  cases hcase with
  | tooLarge | unauthorized => rfl
  | @anyone ctx h hctx hpub =>
    rw [HttpRequest.body, hctx]
    exact runHandler_daemon ..
  | @authenticated ctx hctx =>
    rw [HttpRequest.body, hctx]
    cases protectedRoute e.request.url e.request.method with
    | handler h => exact runHandler_daemon ..
    | notFound | overrun => rfl

/-- **The gate.** A request that carries out an operation has good credentials. -/
theorem credentialed_of_daemonOp {libs : Libs} {e : Exchange} {srv : Server} {op : DaemonOp}
    (h : daemonOp libs (e, (httpStep libs e srv).1) = some op) :
    Credentialed libs e.answers.times e.request srv.db := by
  have hcase := handleRequest_handled libs e.answers e.report e.request srv
  rw [httpStep, daemonOp] at h
  generalize handleRequest libs e.answers e.report e.request srv = r at hcase h
  cases hcase with
  | tooLarge | unauthorized => cases h
  | anyone _ hpub =>
    have hnone := @handlerOp_of_isPublic libs e.answers e.request.body _
      (publicRoute_isPublic hpub)
    rw [runRoute, Option.bind_some, hnone] at h
    cases h
  | authenticated _ _ hauth => exact credentialed_of_authenticate hauth

end Cyrenus
