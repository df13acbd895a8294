import Cyrenus.Enforcement
import Cyrenus.Http.Operations
import Cyrenus.Lib.Part
import Cyrenus.Xdp.Isolation

/-!
# The daemon and the kernel program together

Requests and frames arrive in any order. The program reads the maps that the requests write, and the
requests read nothing that the program writes when they decide what to do (`systemStep`). So for the
frames the system is a firewall that operations reconfigure (`firewallStep`), and of the requests
only those count that were let through to carry out an operation (`system_firewall`). As long as
nobody logs in with the credentials of the configuration, that is none of them: the frames get the
verdicts they would get without any requests (`verdicts_without_login`).
-/

namespace Cyrenus

open Trace (final trace selected IsPart)

/-! ## The system -/

/-- The daemon's server, and the maps that the program writes. -/
structure System where
  server : Server
  maps : Maps

/-- A request is handled, or a frame arrives. -/
inductive SystemEvent where
  | request (e : Exchange)
  | frame (f : TimedFrame)

/-- What comes of it. -/
inductive SystemOutput where
  | outcome (o : Outcome)
  | verdict (v : XdpAction)

/-- One event. The program processes a frame under the user maps of the daemon. -/
def systemStep (libs : Libs) : SystemEvent → System → SystemOutput × System
  | .request e, sys =>
    let r := httpStep libs e sys.server
    (.outcome r.1, { sys with server := r.2 })
  | .frame f, sys =>
    let r := xdpStep sys.server.daemon.user f sys.maps
    (.verdict r.1, { sys with maps := r.2 })

/-! ## The firewall -/

/-- The part of the system that decides on frames. -/
structure Firewall where
  daemon : Daemon
  maps : Maps

/-- The firewall of a system. -/
def System.firewall (sys : System) : Firewall := ⟨sys.server.daemon, sys.maps⟩

/-- An operation is carried out, or a frame arrives. -/
inductive FirewallEvent where
  | op (op : DaemonOp)
  | frame (f : TimedFrame)

/-- One event: the verdict, if it is a frame. -/
def firewallStep (libs : Libs) : FirewallEvent → Firewall → Option XdpAction × Firewall
  | .op op, fw => (none, { fw with daemon := op.run libs fw.daemon })
  | .frame f, fw =>
    let r := xdpStep fw.daemon.user f fw.maps
    (some r.1, { fw with maps := r.2 })

/-- What an event and what came of it are for the firewall, with its answer. -/
def firewallView (libs : Libs) : SystemEvent × SystemOutput →
    Option (FirewallEvent × Option XdpAction)
  | (.request e, .outcome o) => (daemonOp libs (e, o)).map fun op => (.op op, none)
  | (.frame f, .verdict v) => some (.frame f, some v)
  | _ => none

/-- What an event is for the firewall. -/
def firewallSel (libs : Libs) (event : SystemEvent) (sys : System) : Option FirewallEvent :=
  (firewallView libs (event, (systemStep libs event sys).1)).map Prod.fst

/-- The events of a run as the firewall sees them. -/
def firewallEvents (libs : Libs) (sys : System) (events : List SystemEvent) : List FirewallEvent :=
  selected (systemStep libs) (firewallSel libs) sys events

/-- The firewall is a part of the system. -/
theorem firewall_isPart (libs : Libs) :
    IsPart (systemStep libs) System.firewall (firewallSel libs)
      fun event fw => (firewallStep libs event fw).2 := by
  intro event sys
  cases event with
  | request e =>
    simp only [firewallSel, systemStep, firewallView, System.firewall, httpStep_daemon]
    cases daemonOp libs (e, (httpStep libs e sys.server).1) <;> rfl
  | frame f => rfl

/-- **What counts of the requests.** In every run of requests and frames the frames get the verdicts
that the firewall gives them, reconfigured by the operations of the requests that were let through
and by nothing else; and every such request has good credentials when it is handled. -/
theorem system_firewall (libs : Libs) (sys : System) (events : List SystemEvent) :
    (trace (systemStep libs) sys events).filterMap (firewallView libs) =
        trace (firewallStep libs) sys.firewall (firewallEvents libs sys events) ∧
      (final (systemStep libs) sys events).firewall =
        final (firewallStep libs) sys.firewall (firewallEvents libs sys events) ∧
      ∀ op, .op op ∈ firewallEvents libs sys events → ∃ pre e, pre ++ [.request e] <+: events ∧
        let srv := (final (systemStep libs) sys pre).server
        daemonOp libs (e, (httpStep libs e srv).1) = some op ∧
          Credentialed libs e.answers.times e.request srv.db := by
  have hpart := firewall_isPart libs
  refine ⟨hpart.filterMap_trace (fun event s => ?_) sys events, hpart.view_final_eq sys events, ?_⟩
  · cases event with
    | request e =>
      simp only [firewallSel, systemStep, firewallView]
      cases daemonOp libs (e, (httpStep libs e s.server).1) <;> rfl
    | frame f => rfl
  · intro op hop
    obtain ⟨pre, event, hpre, hsel⟩ := Trace.mem_selected_iff.1 hop
    obtain ⟨seen, hseen, hfst⟩ := Option.map_eq_some_iff.1 hsel
    cases event with
    | request e =>
      simp only [systemStep, firewallView] at hseen
      obtain ⟨op', hop', rfl⟩ := Option.map_eq_some_iff.1 hseen
      cases hfst
      exact ⟨pre, e, hpre, hop', credentialed_of_daemonOp hop'⟩
    | frame f =>
      cases hseen
      cases hfst

/-! ## A system that nobody has logged in to -/

/-- The frame of an event. -/
def SystemEvent.frame? : SystemEvent → Option TimedFrame
  | .request _ => none
  | .frame f => some f

/-- The frame that was processed, with its verdict. -/
def frameVerdict : SystemEvent × SystemOutput → Option (TimedFrame × XdpAction)
  | (.frame f, .verdict v) => some (f, v)
  | _ => none

/-- Nothing is stored that a request could present. -/
theorem not_credentialed_empty {libs : Libs} {t : Times} {req : HttpRequest} :
    ¬ Credentialed libs t req Database.empty := by
  rintro (⟨header, -, row, hrow, -⟩ | ⟨key, -, row, hrow, -⟩)
  · cases hrow
  · cases hrow

/-- **One request.** To a server without sessions and keys, a request without the credentials of the
configuration changes nothing and reaches no handler but the public ones. -/
theorem httpStep_of_empty {libs : Libs} {e : Exchange} {srv : Server}
    (hempty : srv.db = Database.empty)
    (hlogin : ¬ HasCredentials libs srv.daemon.config e.request.body) :
    (httpStep libs e srv).2 = srv ∧
      ∀ h, (httpStep libs e srv).1.handler = some h → h.isPublic = true := by
  have hcase := handleRequest_handled libs e.answers e.report e.request srv
  rw [httpStep]
  generalize handleRequest libs e.answers e.report e.request srv = r at hcase
  cases hcase with
  | tooLarge | unauthorized =>
    refine ⟨rfl, fun h hh => ?_⟩
    cases hh
  | @anyone ctx h hctx hpub =>
    refine ⟨?_, fun h' hh => ?_⟩
    · rcases eq_or_ne h .login with rfl | hne
      · rw [HttpRequest.body, hctx, Option.bind_some] at hlogin
        obtain ⟨_, -, hcred, -⟩ | ⟨hsame, -⟩ :=
          apiAuthLogin_cases libs e.answers srv.daemon.config ctx.body srv.db
        · exact absurd hcred hlogin
        · rw [runRoute, runHandler, hsame]
      · rcases @runHandler_of_isPublic libs e.answers e.report e.request ctx.body srv h
          (publicRoute_isPublic hpub) with hsame | ⟨hlog, -⟩
        · exact hsame
        · exact absurd hlog hne
    · cases hh
      exact publicRoute_isPublic hpub
  | authenticated _ _ hauth =>
    have hcred := credentialed_of_authenticate hauth
    rw [hempty] at hcred
    exact absurd hcred not_credentialed_empty

/-- **Without a login** the requests change nothing. If no request of a run carries the credentials
of the configuration, then after any run from a server without sessions and keys the server is as it
was, every request has reached a public handler at most, and the frames have got the verdicts that
the program gives them when no request is made. -/
theorem verdicts_without_login (libs : Libs) (srv : Server) (maps : Maps)
    (hempty : srv.db = Database.empty) (events : List SystemEvent)
    (hlogin : ∀ e, .request e ∈ events →
      ¬ HasCredentials libs srv.daemon.config e.request.body) :
    (final (systemStep libs) ⟨srv, maps⟩ events).server = srv ∧
      (∀ e o, (.request e, .outcome o) ∈ trace (systemStep libs) ⟨srv, maps⟩ events →
        ∀ h, o.handler = some h → h.isPublic = true) ∧
      (trace (systemStep libs) ⟨srv, maps⟩ events).filterMap frameVerdict =
        trace (xdpStep srv.daemon.user) maps (events.filterMap SystemEvent.frame?) := by
  induction events generalizing maps with
  | nil => exact ⟨rfl, fun _ _ hmem => absurd hmem List.not_mem_nil, rfl⟩
  | cons event events ih =>
    have ih := fun maps => ih maps fun e he => hlogin e (List.mem_cons_of_mem _ he)
    cases event with
    | request e =>
      obtain ⟨hsame, hpublic⟩ := httpStep_of_empty hempty (hlogin e List.mem_cons_self)
      simp only [Trace.final_cons, Trace.trace_cons, systemStep, hsame]
      obtain ⟨hsrv, hhandlers, hverdicts⟩ := ih maps
      refine ⟨hsrv, fun e' o hmem => ?_, hverdicts⟩
      rcases List.mem_cons.1 hmem with heq | hmem
      · cases heq
        exact hpublic
      · exact hhandlers e' o hmem
    | frame f =>
      simp only [Trace.final_cons, Trace.trace_cons, systemStep]
      obtain ⟨hsrv, hhandlers, hverdicts⟩ := ih (xdpStep srv.daemon.user f maps).2
      refine ⟨hsrv, fun e o hmem => ?_, ?_⟩
      · rcases List.mem_cons.1 hmem with heq | hmem
        · cases heq
        · exact hhandlers e o hmem
      · exact congrArg ((f, (xdpStep srv.daemon.user f maps).1) :: ·) hverdicts

/-- A request to create a rule that carries no credentials, and a frame. -/
def strangerEvents : List SystemEvent :=
  [.request ⟨bodyRequest 0, .still 0, fun _ => some ⟨200, ""⟩⟩, .frame ⟨.still 0, blockedPacket⟩]

theorem verdicts_without_login_stranger :
    (final (systemStep ⟨fun _ => none, fun _ => [], fun _ => []⟩) ⟨.initial, .initial⟩
        strangerEvents).server = .initial ∧
      (trace (systemStep ⟨fun _ => none, fun _ => [], fun _ => []⟩) ⟨.initial, .initial⟩
        strangerEvents).filterMap frameVerdict =
          trace (xdpStep .initial) .initial [⟨.still 0, blockedPacket⟩] := by
  have hrun := verdicts_without_login ⟨fun _ => none, fun _ => [], fun _ => []⟩ .initial .initial
    rfl strangerEvents fun e _ hcred => by
      obtain ⟨text, root, -, -, -, hroot, -⟩ := hcred
      cases hroot
  exact ⟨hrun.1, hrun.2.2⟩

end Cyrenus
