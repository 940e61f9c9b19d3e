import WatchTrace.Model.Reliability

/-!
# Incidents

`internal/incident/service.go` with the statements of
`db/queries/incidents.sql` and the one of `db/queries/notifications.sql` that
enqueues a delivery. An accepted result applies the ordered state inside its
own transaction; a person acknowledges or resolves in a transaction apart.
-/

namespace WatchTrace.Model

open Tx

/-! ## Statements -/

/-- PostgreSQL's `btrim(text)`, which removes spaces only. -/
def btrim (s : String) : String :=
  String.ofList ((s.toList.dropWhile (· = ' ')).reverse.dropWhile (· = ' ')).reverse

/-- `NULLIF(btrim(text), '')`. -/
def nullIfBlank (s : String) : Option String :=
  if btrim s = "" then none else some (btrim s)

/-- `CHECK (reason IS NULL OR octet_length(reason) <= 500)`. -/
def reasonAdmissible (reason : Option String) : Bool :=
  match reason with
  | none => true
  | some text => decide (text.utf8ByteSize ≤ 500)

def ensureDefaultAlertRule (monitorId : Uuid) : Stmt Unit :=
  onCore fun _ env _ c =>
    match c.monitors.find monitorId, c.rules.find monitorId with
    | some monitor, none =>
      if c.rules.rows.any fun e => e.2.id == env.uuid then none
      else some
        { value := ()
          write := fun c => { c with
            rules := c.rules.put monitorId
              { id := env.uuid, organizationId := monitor.organizationId
                environmentId := monitor.environmentId } }
          locks := [.rule monitorId] }
    | _, _ => some { value := () }

structure EnabledAlertRule where
  ruleId : Uuid
  organizationId : Uuid
  environmentId : Uuid
  failureThreshold : Threshold
  observedState : ObservedState

def enabledAlertRule (c : Core) (monitorId : Uuid) : Option EnabledAlertRule :=
  match c.rules.find monitorId, c.states.find monitorId with
  | some rule, some state =>
    if rule.enabled then some
      { ruleId := rule.id, organizationId := rule.organizationId
        environmentId := rule.environmentId
        failureThreshold := rule.failureThreshold
        observedState := state.observedState }
    else none
  | _, _ => none

def getEnabledMonitorAlertRule (monitorId : Uuid) : Stmt (Option EnabledAlertRule) :=
  onCore (.read fun c => enabledAlertRule c monitorId)

/-- The open incident of a monitor under a rule. -/
def openIncidentOf (c : Core) (monitorId ruleId : Uuid) : Option Uuid :=
  (c.incidents.rows.find? fun e => e.2.monitorId == monitorId &&
    e.2.alertRuleId == ruleId && e.2.status == .isOpen).map Prod.fst

def lockOpenIncident (monitorId ruleId : Uuid) : Stmt (Option Uuid) :=
  onCore fun _ _ _ c =>
    match openIncidentOf c monitorId ruleId with
    | none => some { value := none }
    | some id => some { value := some id, locks := [.incident id] }

def listRecentIncidentEvaluationTimes (monitorId : Uuid) (limit : Nat) : Stmt (List Time) :=
  onCore (.read fun c => ((orderedEvaluations c monitorId).reverse.take
    limit).map fun e => e.row.scheduledAt)

def createOpenIncident (organizationId environmentId monitorId ruleId : Uuid)
    (startedAt openedAt : Time) : Stmt (Option Uuid) :=
  onCore fun begun env _ c =>
    match openIncidentOf c monitorId ruleId with
    | some _ => some { value := none }
    | none =>
      match c.incidents.find env.uuid with
      | some _ => none
      | none => some
          { value := some env.uuid
            write := fun c => { c with
              incidents := c.incidents.put env.uuid
                { organizationId := organizationId
                  environmentId := environmentId, monitorId := monitorId
                  alertRuleId := ruleId, startedAt := startedAt
                  openedAt := openedAt, updatedAt := begun.now } }
            locks := [.openIncident monitorId ruleId, .incident env.uuid] }

/-- Rows affected, one or none. -/
def resolveOpenIncident (incidentId : Uuid) (resolvedAt : Time)
    (actorUserId : Option Uuid) (kind : ResolutionKind) (reason : String) :
    Stmt Nat :=
  onCore fun _ _ _ c =>
    match c.incidents.find incidentId with
    | none => some { value := 0 }
    | some incident =>
      if incident.status ≠ .isOpen then some { value := 0 }
      else if !reasonAdmissible (nullIfBlank reason) then none
      else some
        { value := 1
          write := fun c => { c with
            incidents := c.incidents.put incidentId { incident with
              status := .resolved, resolvedAt := some resolvedAt
              resolvedByUserId := actorUserId, resolutionKind := some kind
              resolutionReason := nullIfBlank reason
              updatedAt := resolvedAt } }
          locks := [.incident incidentId] }

def getIncidentTenant (incidentId : Uuid) : Stmt (Option (Uuid × Uuid)) :=
  onCore (.read fun c => (c.incidents.find incidentId).map fun i =>
    (i.organizationId, i.environmentId))

/-- The event of an incident under a key. -/
def incidentEventOf (c : Core) (incidentId : Uuid) (key : EventKey) : Option Uuid :=
  (c.incidentEvents.rows.find? fun e =>
    e.2.incidentId == incidentId && e.2.eventKey == key).map Prod.fst

def upsertIncidentEvent (event : IncidentEvent) : Stmt Uuid :=
  onCore fun _ env _ c =>
    let key := Key.incidentEvent event.incidentId event.eventKey
    if !reasonAdmissible event.safeReason then none
    else
      match incidentEventOf c event.incidentId event.eventKey with
      | some id => some { value := id, locks := [key] }
      | none =>
        match c.incidentEvents.find env.uuid with
        | some _ => none
        | none => some
            { value := env.uuid
              write := fun c => { c with
                incidentEvents := c.incidentEvents.put env.uuid event }
              locks := [key] }

/-- The identity is drawn from the sequence when the row is inserted; it is not
given back when the transaction fails. -/
def insertRefreshEvent (event : RefreshEvent) : Stmt Unit :=
  onJournal fun begun env _ _ => some
    { value := ()
      write := fun j => { j with
        refresh := j.refresh ++
          [{ event with id := env.sequence, occurredAt := begun.now }] } }

def insertIncidentRefreshEvent (organizationId environmentId incidentId : Uuid) : Stmt Unit :=
  insertRefreshEvent
    { organizationId := organizationId, environmentId := environmentId
      eventType := "incident.changed", resourceType := "incident"
      resourceId := incidentId }

/-- `lower(btrim(email))`. -/
def normalizedEmail (email : String) : String :=
  String.ofList ((btrim email).toList.map Char.toLower)

/-- The `CHECK` on `recipient_email`. -/
def emailAdmissible (email : String) : Bool :=
  btrim email != "" && decide (email.utf8ByteSize ≤ 254) &&
    email.toList.all fun c => c != '\r' && c != '\n'

/-- The members an event is mailed to, with their addresses. -/
def incidentRecipients (c : Core) (event : IncidentEvent) : List (Uuid × String) :=
  c.members.rows.filterMap fun e =>
    if e.1.1 = event.organizationId ∧ e.2.incidentNotificationsEnabled then
      match c.users.find e.1.2 with
      | none => none
      | some user =>
        if user.emailVerifiedAt.isSome then
          some (e.1.2, normalizedEmail user.email)
        else none
    else none

def enqueueIncidentNotifications (eventId : Uuid) (transition : Transition) : Stmt Nat :=
  onCore fun _ _ _ c =>
    match c.incidentEvents.find eventId with
    | none => some { value := 0 }
    | some event =>
      let recipients := (incidentRecipients c event).filter fun r =>
        (c.notifications.find (eventId, r.1)).isNone
      if recipients.any fun r => !emailAdmissible r.2 then none
      else some
        { value := recipients.length
          write := fun c => { c with
            notifications := recipients.foldl (fun t r =>
              t.put (eventId, r.1)
                { organizationId := event.organizationId
                  incidentId := event.incidentId, recipientEmail := r.2
                  transition := transition }) c.notifications }
          locks := recipients.map fun r => .notification eventId r.1 }

def acknowledgeOpenIncident (incidentId userId : Uuid) (acknowledgedAt : Time) : Stmt Unit :=
  onCore fun _ _ _ c =>
    match c.incidents.find incidentId with
    | none => some { value := () }
    | some incident =>
      if incident.status = .isOpen ∧ incident.acknowledgedAt = none then some
        { value := ()
          write := fun c => { c with
            incidents := c.incidents.put incidentId { incident with
              acknowledgedAt := some acknowledgedAt
              acknowledgedByUserId := some userId
              updatedAt := acknowledgedAt } }
          locks := [.incident incidentId] }
      else some { value := () }

def loadAuthorizedIncidentRow (userId environmentId incidentId : Uuid) :
    Stmt (Option (Incident × Role)) :=
  onCore fun _ _ _ c =>
    match c.incidents.find incidentId with
    | none => some { value := none }
    | some incident =>
      match c.members.find (incident.organizationId, userId) with
      | none => some { value := none }
      | some member =>
        if incident.environmentId = environmentId then some
          { value := some (incident, member.role)
            locks := [.incident incidentId] }
        else some { value := none }

/-! ## The policy -/

inductive Permission
  | membersRead
  | membersInvite
  | membersManage
  | monitorsRead
  | monitorsManage
  | incidentsRead
  | incidentsManage
  | tenantRead
  | tenantManage
  deriving DecidableEq

/-- `authorization.Allows`. -/
def allows (role : Role) (permission : Permission) : Bool :=
  match role with
  | .owner => true
  | .admin => true
  | .member => match permission with
      | .membersInvite | .membersManage | .tenantManage => false
      | _ => true
  | .viewer => match permission with
      | .membersRead | .monitorsRead | .incidentsRead | .tenantRead => true
      | _ => false

/-! ## The service -/

def errIncidentNotFound : Failure := .message "incident not found"

def errForbidden : Failure := .message "incident permission denied"

def errAlreadyResolved : Failure := .message "incident already resolved"

def errInvalidInput : Failure := .message "invalid incident input"

def enqueueIncidentEventTx (eventId : Uuid) (transition : Transition) : Prog (Except Fault Nat) :=
  query (enqueueIncidentNotifications eventId transition)

def insertEvent (event : IncidentEvent) : Prog (Except Failure Uuid) := do
  let .ok eventId ← query (upsertIncidentEvent event) | return .error .database
  let .ok () ← query (insertIncidentRefreshEvent event.organizationId
    event.environmentId event.incidentId) | return .error .database
  return .ok eventId

def openIncident (organizationId environmentId monitorId ruleId : Uuid)
    (sourceJobId : Uuid) (startedAt now : Time) : Prog (Except Failure Unit) := do
  let .ok created ← query (createOpenIncident organizationId environmentId
    monitorId ruleId startedAt now) | return .error .database
  match created with
  | none =>
    let .ok _ ← query (lockOpenIncident monitorId ruleId)
      | return .error .database
    return .ok ()
  | some incidentId =>
    let .ok eventId ← insertEvent
      { organizationId := organizationId, environmentId := environmentId
        incidentId := incidentId, eventKey := .opened, eventType := .opened
        actorUserId := none, sourceJobId := some sourceJobId
        safeReason := nullIfBlank "failure threshold reached"
        occurredAt := now } | return .error .database
    let .ok _ ← enqueueIncidentEventTx eventId .opened
      | return .error .database
    return .ok ()

def resolveIncident (incidentId : Uuid) (sourceJobId : Option Uuid)
    (kind : ResolutionKind) (actorUserId : Option Uuid) (reason : String)
    (now : Time) : Prog (Except Failure Unit) := do
  let .ok rowsAffected ← query (resolveOpenIncident incidentId now actorUserId
    kind reason) | return .error .database
  if rowsAffected = 0 then return .ok ()
  let .ok (some (organizationId, environmentId)) ←
    query (getIncidentTenant incidentId) | return .error .database
  let .ok eventId ← insertEvent
    { organizationId := organizationId, environmentId := environmentId
      incidentId := incidentId, eventKey := .resolved
      eventType := .resolved kind, actorUserId := actorUserId
      sourceJobId := sourceJobId, safeReason := nullIfBlank reason
      occurredAt := now } | return .error .database
  let .ok _ ← enqueueIncidentEventTx eventId .resolved
    | return .error .database
  return .ok ()

def applyEvaluationTx (monitorId sourceJobId : Uuid) (corrected : Bool)
    (now : Time) : Prog (Except Failure Unit) := do
  let .ok () ← query (ensureDefaultAlertRule monitorId)
    | return .error .database
  let .ok found ← query (getEnabledMonitorAlertRule monitorId)
    | return .error .database
  match found with
  | none => return .ok ()
  | some rule =>
    let .ok openId ← query (lockOpenIncident monitorId rule.ruleId)
      | return .error .database
    if rule.observedState = .down then
      if openId.isSome then return .ok ()
      let .ok evaluationTimes ← query (listRecentIncidentEvaluationTimes
        monitorId rule.failureThreshold.val) | return .error .database
      let startedAt := evaluationTimes.getLast?.getD now
      openIncident rule.organizationId rule.environmentId monitorId
        rule.ruleId sourceJobId startedAt now
    else
      match openId with
      | none => return .ok ()
      | some incidentId =>
        if corrected then
          resolveIncident incidentId (some sourceJobId) .lateResultCorrection none
            "late result correction invalidated the open threshold" now
        else if rule.observedState = .healthy then
          resolveIncident incidentId (some sourceJobId) .automaticRecovery
            none "recovery threshold reached" now
        else return .ok ()

/-- `loadAuthorizedIncident` and the permission check that follows it. -/
def loadPermitted (userId environmentId incidentId : Uuid)
    (permission : Permission) : Prog (Except Failure Incident) := do
  let .ok found ← query (loadAuthorizedIncidentRow userId environmentId
    incidentId) | return .error .database
  match found with
  | none => return .error errIncidentNotFound
  | some (incident, role) =>
    if allows role permission then return .ok incident
    else return .error errForbidden

def getIncident (userId environmentId incidentId : Uuid) :
    Prog (Except Failure Incident) := do
  let .ok () ← start | return .error .database
  loadPermitted userId environmentId incidentId .incidentsRead

def acknowledge (userId environmentId incidentId : Uuid) (reason : String) :
    Prog (Except Failure Incident) := do
  if 500 < reason.utf8ByteSize then return .error errInvalidInput
  let .ok () ← start | return .error .database
  match ← loadPermitted userId environmentId incidentId .incidentsManage with
  | .error failure => return .error failure
  | .ok incident =>
    if incident.status ≠ .isOpen then return .error errAlreadyResolved
    let now ← clock
    if incident.acknowledgedAt.isNone then
      let .ok () ← query (acknowledgeOpenIncident incidentId userId now)
        | return .error .database
      let .ok _ ← insertEvent
        { organizationId := incident.organizationId
          environmentId := incident.environmentId, incidentId := incidentId
          eventKey := .acknowledged, eventType := .acknowledged
          actorUserId := some userId, sourceJobId := none
          safeReason := nullIfBlank reason, occurredAt := now }
        | return .error .database
      let .ok () ← commit | return .error .database
      getIncident userId environmentId incidentId
    else
      let .ok () ← commit | return .error .database
      getIncident userId environmentId incidentId

/-- `Service.Resolve`. -/
def resolve (userId environmentId incidentId : Uuid) (reason : String) :
    Prog (Except Failure Incident) := do
  if 500 < reason.utf8ByteSize then return .error errInvalidInput
  let .ok () ← start | return .error .database
  match ← loadPermitted userId environmentId incidentId .incidentsManage with
  | .error failure => return .error failure
  | .ok incident =>
    if incident.status ≠ .isOpen then return .error errAlreadyResolved
    let now ← clock
    let .ok () ← resolveIncident incidentId none .manualResolution
      (some userId) reason now | return .error .database
    let .ok () ← commit | return .error .database
    getIncident userId environmentId incidentId

end WatchTrace.Model
