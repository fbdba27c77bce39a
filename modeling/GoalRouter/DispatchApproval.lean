import GoalRouter.DomainCodec
import GoalRouter.Host

namespace GoalRouter
open Library
set_option autoImplicit true

def approvalRequired (message : Text) : PyError := ⟨.approvalRequiredError, message⟩

def requireItemAndRoute (s : RunState) (workItemId : Text) :
    Except PyError (WorkItem × RouteDecision) :=
  match s.workItems.get? workItemId, s.routes.get? workItemId with
  | some item, some route => .ok (item, route)
  | _, _ => .error (approvalRequired (text "Unknown routed work item " ++ workItemId))

/-- What an approval is bound to. -/
def fingerprintPayload (digest : Text) (item : WorkItem) (route : RouteDecision) : Json :=
  .obj [
    (text "configuration_digest", .str digest),
    (text "route", route.toDict),
    (text "work_item", item.toDict)]

def fingerprint (host : Host) (s : RunState) (workItemId : Text) : Except PyError Text := do
  let (item, route) ← requireItemAndRoute s workItemId
  return host.sha256 (host.canonicalDumps (fingerprintPayload s.configurationDigest item route))

/-- Record approval for the exact current item, route and configuration. -/
def approve (host : Host) (s : RunState) (workItemId approvedBy : Text) (approvedAt : DateTime) :
    Except PyError RunState := do
  if approvedAt.offset = none then
    .error (approvalRequired (text "Approval time must be timezone-aware"))
  if approvedBy.all isSpace then
    .error (approvalRequired (text "Approval identity must not be empty"))
  let _ ← requireItemAndRoute s workItemId
  let print ← fingerprint host s workItemId
  let record : ApprovalRecord :=
    { runId := s.runId, workItemId, approvedBy, approvedAt,
      configurationDigest := s.configurationDigest, fingerprint := print }
  return { s with approvals := s.approvals.set workItemId record }

/-- Reject approval-required work unless its current fingerprint is approved. -/
def requireDispatchable (host : Host) (s : RunState) (workItemId : Text) : Except PyError Unit := do
  let (_, route) ← requireItemAndRoute s workItemId
  if route.approval = .automatic then return
  match s.approvals.get? workItemId with
  | none => .error (approvalRequired
      (text "Work item " ++ workItemId ++ text " requires explicit approval"))
  | some record =>
    if record.runId ≠ s.runId then
      .error (approvalRequired
        (text "Approval for work item " ++ workItemId ++ text " belongs to another run"))
    else if record.configurationDigest ≠ s.configurationDigest then
      .error (approvalRequired (text "Approval for work item " ++ workItemId ++
        text " has a stale configuration digest"))
    else if .ok record.fingerprint ≠ fingerprint host s workItemId then
      .error (approvalRequired (text "Approval fingerprint for work item " ++ workItemId ++
        text " no longer matches"))
    else return

theorem requireItemAndRoute_ok {s : RunState} {id : Text} {item : WorkItem} {route : RouteDecision}
    (h : requireItemAndRoute s id = .ok (item, route)) :
    s.workItems.get? id = some item ∧ s.routes.get? id = some route := by
  rw [requireItemAndRoute] at h
  split at h
  · rename_i hi hr
    cases h
    exact ⟨hi, hr⟩
  · cases h

theorem requireItemAndRoute_of {s : RunState} {id : Text} {item : WorkItem} {route : RouteDecision}
    (hi : s.workItems.get? id = some item) (hr : s.routes.get? id = some route) :
    requireItemAndRoute s id = .ok (item, route) := by
  rw [requireItemAndRoute, hi, hr]

theorem requireDispatchable_ok {host : Host} {s : RunState} {id : Text}
    (h : requireDispatchable host s id = .ok ()) :
    ∃ item route, s.workItems.get? id = some item ∧ s.routes.get? id = some route ∧
      (route.approval = .automatic ∨
        ∃ record, s.approvals.get? id = some record ∧ record.runId = s.runId ∧
          record.configurationDigest = s.configurationDigest ∧
          fingerprint host s id = .ok record.fingerprint) := by
  rw [requireDispatchable] at h
  cases hr : requireItemAndRoute s id with
  | error e =>
    rw [hr] at h
    cases h
  | ok p =>
    obtain ⟨item, route⟩ := p
    obtain ⟨hi, ho⟩ := requireItemAndRoute_ok hr
    refine ⟨item, route, hi, ho, ?_⟩
    by_cases ha : route.approval = .automatic
    · exact .inl ha
    · simp only [hr, ok_bind, if_neg ha] at h
      split at h
      · cases h
      · rename_i record hrec
        split at h
        · cases h
        · rename_i h1
          split at h
          · cases h
          · rename_i h2
            split at h
            · cases h
            · rename_i h3
              exact .inr ⟨record, hrec, not_not.1 h1, not_not.1 h2, (not_not.1 h3).symm⟩

theorem requireDispatchable_automatic {host : Host} {s : RunState} {id : Text} {item : WorkItem}
    {route : RouteDecision} (hi : s.workItems.get? id = some item)
    (hr : s.routes.get? id = some route) (ha : route.approval = .automatic) :
    requireDispatchable host s id = .ok () := by
  rw [requireDispatchable, requireItemAndRoute_of hi hr, ok_bind]
  simp only [ha, ↓reduceIte]
  rfl

theorem approve_ok {host : Host} {s s' : RunState} {id by' : Text} {at' : DateTime}
    (h : approve host s id by' at' = .ok s') :
    ∃ item route record, s.workItems.get? id = some item ∧ s.routes.get? id = some route ∧
      record.configurationDigest = s.configurationDigest ∧ record.runId = s.runId ∧
      record.workItemId = id ∧ at'.offset ≠ none ∧ record.approvedAt = at' ∧
      s' = { s with approvals := s.approvals.set id record } := by
  rw [approve] at h
  by_cases ho : at'.offset = none
  · simp only [ho, ↓reduceIte, error_bind, reduceCtorEq] at h
  · simp only [ho, ↓reduceIte] at h
    by_cases hb : by'.all isSpace = true
    · simp only [hb, ↓reduceIte] at h
      cases h
    · cases hr : requireItemAndRoute s id with
      | error e =>
        simp only [hb, hr] at h
        cases h
      | ok p =>
        obtain ⟨hi, hro⟩ := requireItemAndRoute_ok hr
        simp only [hb, hr, fingerprint, ok_bind] at h
        cases h
        exact ⟨p.1, p.2, _, hi, hro, rfl, rfl, rfl, ho, rfl, rfl⟩

end GoalRouter
