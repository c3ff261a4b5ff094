import FocusGuard.Lib.JsonRoundTrip
import FocusGuard.Service.IpcServer

/-!
# Replies that can be read back

What the server answers by itself has no float and no key twice, so that a client reads from the
bytes what the server wrote. What its collaborators report may have floats.

## Main results

* `handleRequest_plain`: the replies to all actions that report nothing of the host.
-/

namespace Exec

variable {ε σ τ α β : Type}

namespace Ensures

variable {P : α → Prop} {Q : β → Prop} {m : Exec ε σ α} {f : α → Exec ε σ β}

/-- What the first part ensures is known to the second one. -/
theorem bind (hm : Ensures P m) (hf : ∀ a, P a → Ensures Q (f a)) : Ensures Q (m >>= f) := by
  intro s b hb
  rw [bind_apply] at hb
  rcases hms : m s with ⟨e | a, t⟩
  · rw [hms] at hb
    cases hb
  · rw [hms] at hb
    exact hf a (hm s a (by rw [hms])) t b hb

theorem throw (e : ε) : Ensures P (Exec.throw e : Exec ε σ α) := nofun

theorem ofExcept {r : Except ε α} (h : ∀ a, r = .ok a → P a) :
    Ensures P (Exec.ofExcept r : Exec ε σ α) := fun _ => h

theorem focus {view : σ → τ} {put : τ → σ → σ} {m : Exec ε τ α} (h : Ensures P m) :
    Ensures P (Exec.focus view put m) := fun s => h (view s)

end Ensures

end Exec

namespace FocusGuard

open IPCServer

variable {rt : Runtime} {env : RequestEnv}

/-! ## What replies consist of -/

theorem plain_okReply {v : Json} (h : v.Plain) : (okReply v).Plain :=
  ⟨(by decide : (["ok", "result"] : List Text).Nodup), trivial, h, trivial⟩

theorem plain_errorText (t : Text) : (Json.obj [("ok", .bool false), ("error", .str t)]).Plain :=
  ⟨(by decide : (["ok", "error"] : List Text).Nodup), trivial, trivial, trivial⟩

theorem plain_errorReply (rt : Runtime) (e : PyError) : (errorReply rt e).Plain := by
  cases e with
  | lockedSession =>
    exact ⟨(by decide : (["ok", "error", "is_locked"] : List Text).Nodup), trivial, trivial,
      trivial, trivial⟩
  | _ => exact plain_errorText _

theorem plain_gatewayReply (r : Bool × Text) : (gatewayReply r).Plain := by
  refine ⟨(by decide : (["ok", "result", "error"] : List Text).Nodup), trivial, trivial, ?_,
    trivial⟩
  split
  · trivial
  · trivial

theorem plain_toDict (svc : ServiceDefinition) : (Json.obj svc.toDict).Plain :=
  ⟨(by decide : (["id", "name", "category", "description", "primary_domains", "domain_count"] :
      List Text).Nodup),
    trivial, trivial, trivial, trivial, Json.plain_ofTexts _, trivial, trivial⟩

theorem plain_getServicesStatus (e : PolicyEngine) : e.getServicesStatus.Plain := by
  unfold PolicyEngine.getServicesStatus
  show Json.PlainItems _
  generalize serviceRegistry = registry
  induction registry with
  | nil => trivial
  | cons svc registry ih =>
    refine ⟨⟨(by decide : (["id", "name", "category", "description", "primary_domains",
      "domain_count", "is_blocked", "is_session_scoped"] : List Text).Nodup), trivial, trivial,
      trivial, trivial, Json.plain_ofTexts _, trivial, trivial, trivial, trivial⟩, ih⟩

theorem plain_getSummary {s : SessionState} {now : Calendar.Instant} {m : List (Text × Json)}
    (h : getSummary rt s now = .ok m) : (Json.obj m).Plain := by
  unfold getSummary at h
  split at h
  · cases h
  · obtain rfl := Except.ok.inj h
    refine ⟨(by decide : (["status", "session_id", "created_at", "expires_at", "duration_seconds",
      "remaining_seconds", "remaining_formatted", "domains", "domain_count", "services",
      "service_count"] : List Text).Nodup), ?_⟩
    exact ⟨trivial, Json.plain_ofOptText _, Json.plain_ofOptText _, Json.plain_ofOptText _, trivial,
      trivial, trivial, Json.plain_ofTexts _, trivial, Json.plain_ofTexts _, trivial, trivial⟩

theorem plain_listMembers {e : PolicyEngine} {m : List (Text × Json)}
    (h : listMembers rt env e = .ok m) : (Json.obj m).Plain := by
  unfold listMembers at h
  split at h
  · cases h
  · obtain rfl := Except.ok.inj h
    exact ⟨(by decide : (["permanent_domains", "session_domains", "is_locked"] : List Text).Nodup),
      Json.plain_ofTexts _, Json.plain_ofTexts _, trivial, trivial⟩

/-! ## Replies -/

namespace PolicyEngine

theorem startFocusSession_plain (env : CallEnv) (durationStr untilStr domainsArg servicesArg : Json)
    (companions : Bool) : Exec.Ensures (fun m => (Json.obj m).Plain)
      (startFocusSession rt env durationStr untilStr domainsArg servicesArg companions) := by
  refine .seq fun _ => .seq fun _ => .seq fun _ => .ite (.throw _) ?_
  exact .seq fun _ => .seq fun _ => .seq fun _ => .seq fun _ =>
    .ofExcept fun m hm => plain_getSummary hm

theorem blockPermanentService_plain (env : CallEnv) (serviceId : Json) :
    Exec.Ensures (fun m => (Json.obj m).Plain) (blockPermanentService rt env serviceId) := by
  refine .seq fun _ => .seq fun found => ?_
  cases found with
  | none => exact .throw _
  | some svc =>
    have hsvc := plain_toDict svc
    exact .seq fun _ => .ite (.seq fun _ => .seq fun _ => .seq fun _ => .pure hsvc) (.pure hsvc)

end PolicyEngine

/-- The answer comes from the host or from a collaborator. -/
def Action.Reports : Action → Prop
  | .status | .devicesList | .bypassStatus | .logs | .stats | .doctor | .gatewayStatus
  | .packetStatus | .packetStats | .packetInspect => True
  | _ => False

theorem dispatch_plain (rt : Runtime) (env : RequestEnv) (params : Json) {a : Action}
    (ha : ¬ a.Reports) : Exec.Ensures Json.Plain (dispatch rt env params a) := by
  cases a with
  | ping => exact .pure (plain_okReply trivial)
  | add =>
    refine .seq fun _ => .seq fun _ => .seq fun added => .pure (plain_okReply ?_)
    exact ⟨List.nodup_singleton _, Json.plain_ofTexts added, trivial⟩
  | remove =>
    refine .seq fun _ => .seq fun removed => .pure (plain_okReply ?_)
    exact ⟨List.nodup_singleton _, trivial, trivial⟩
  | list =>
    refine .seq fun _ => .bind (.ofExcept fun m hm => ?_) fun m hm => .pure (plain_okReply hm)
    exact plain_listMembers hm
  | start =>
    refine .seq fun _ => .seq fun _ => .seq fun _ => .seq fun _ => .seq fun _ => ?_
    exact .bind (.focus (PolicyEngine.startFocusSession_plain _ _ _ _ _ _)) fun m hm =>
      .pure (plain_okReply hm)
  | stop => exact .seq fun _ => .pure (plain_okReply trivial)
  | session =>
    refine .seq fun _ => .bind (.ofExcept fun m hm => ?_) fun m hm => .pure (plain_okReply hm)
    exact plain_getSummary hm
  | servicesList => exact .seq fun d => .pure (plain_okReply (plain_getServicesStatus d.engine))
  | serviceBlock =>
    refine .seq fun _ => .bind (.focus (PolicyEngine.blockPermanentService_plain _ _)) ?_
    exact fun m hm => .pure (plain_okReply hm)
  | serviceUnblock => exact .seq fun _ => .seq fun _ => .pure (plain_okReply trivial)
  | gatewayEnable =>
    exact .ite (.seq fun _ => .pure (plain_gatewayReply _)) (.pure (plain_errorText _))
  | gatewayDisable =>
    exact .seq fun _ => .ite (.seq fun _ => .pure (plain_gatewayReply _))
      (.pure (plain_errorText _))
  | _ => exact absurd trivial ha

/-- The action that a request names, if it names one. -/
def requestedAction (request : List (Text × Json)) : Option Action :=
  ((Json.lookup request "action").getD (.str [])).text?.bind Action.ofText

/-- A request for anything but a report is answered with what can be read back. -/
theorem handleRequest_plain (rt : Runtime) (env : RequestEnv) {request : List (Text × Json)}
    (hreports : ∀ a, requestedAction request = some a → ¬ a.Reports) :
    Exec.Ensures Json.Plain (handleRequest rt env (.obj request)) := by
  intro d reply hreply
  unfold requestedAction at hreports
  simp only [handleRequest] at hreply
  split at hreply
  · obtain rfl := Except.ok.inj hreply
    exact plain_errorText _
  · next a ha =>
    have hplain := dispatch_plain rt env ((Json.lookup request "params").getD (.obj []))
      (hreports a ha) d
    generalize dispatch rt env ((Json.lookup request "params").getD (.obj [])) a d = r
      at hplain hreply
    obtain ⟨e | v, d'⟩ := r
    · obtain rfl := Except.ok.inj hreply
      exact plain_errorReply rt e
    · obtain rfl := Except.ok.inj hreply
      exact hplain v rfl

end FocusGuard
