import WatchTrace.Model.Destination
import WatchTrace.Model.Scheduler

/-!
# Monitor configuration

`Create` of `internal/monitor/service.go` and `Update`, `Pause`, `Resume` and
`Delete` of `internal/monitor/lifecycle.go`, with the statements of
`db/queries/monitors.sql` they issue.

Every change of a monitor ends the period its slots were counted from and, if
the monitor is then to be checked, opens another that begins with the
transaction. `CURRENT_TIMESTAMP` is the time the transaction began, which may
be long before it came to own the monitor's row.
-/

namespace WatchTrace.Model

open Tx

/-! ## Statements -/

/-- `… FOR UPDATE OF organizations`. -/
def lockEnvironmentForMonitorCreation (userId environmentId : Uuid) : Stmt (Option (Uuid × Role)) :=
  onCore fun _ _ _ c =>
    match c.environments.find environmentId with
    | none => some { value := none }
    | some environment =>
      match c.organizations.find environment.organizationId,
          c.members.find (environment.organizationId, userId) with
      | some organization, some member =>
        if organization.deletedAt = none then some
          { value := some (environment.organizationId, member.role)
            locks := [.organization environment.organizationId] }
        else some { value := none }
      | _, _ => some { value := none }

/-- The monitors of an organization that are not deleted. -/
def Core.countMonitors (c : Core) (organizationId : Uuid) : Nat :=
  c.monitors.rows.countP fun e => e.2.organizationId == organizationId && e.2.deletedAt.isNone

def countOrganizationMonitors (organizationId : Uuid) : Stmt Nat :=
  onCore (.read fun c => c.countMonitors organizationId)

/-- `CHECK (interval_seconds IN (60, 120, 300, 600, 1800))`. -/
def allowedIntervals : List Int := [60, 120, 300, 600, 1800]

/-- The `CHECK` constraints of `monitors`, and `worker_pool_id`'s reference. -/
def Monitor.admissible (m : Monitor) (c : Core) : Bool :=
  btrim m.targetUrl != "" && decide (m.targetUrl.utf8ByteSize ≤ 2048) &&
    (m.method == "GET" || m.method == "HEAD") &&
    allowedIntervals.contains m.intervalSeconds &&
    decide (1 ≤ m.timeoutSeconds ∧ m.timeoutSeconds ≤ 10) &&
    decide (100 ≤ m.expectedStatusMin ∧ m.expectedStatusMin ≤ 599) &&
    decide (100 ≤ m.expectedStatusMax ∧ m.expectedStatusMax ≤ 599) &&
    decide (m.expectedStatusMin ≤ m.expectedStatusMax) &&
    (match m.headersCiphertext, m.headerKeyVersion with
      | none, none => true
      | some ciphertext, some version => decide (ciphertext.length ≤ 16384) && decide (0 < version)
      | _, _ => false) &&
    (c.pools.find m.workerPoolId).isSome

/-- What a monitor can be told to do: the normalized `CreateInput` with its
headers encrypted. -/
structure Configuration where
  targetUrl : String
  method : String
  intervalSeconds : Int
  timeoutSeconds : Int
  expectedStatusMin : Int
  expectedStatusMax : Int
  headersCiphertext : Option Bytes
  headerKeyVersion : Option Int
  workerPoolId : String

/-- The write of one monitor row, if its constraints allow it. -/
def putMonitor {α : Type} (c : Core) (id : Uuid) (monitor : Monitor) (value : α) :
    Option (Effect Core Key α) :=
  if monitor.admissible c then some
    { value := value
      write := fun c => { c with monitors := c.monitors.put id monitor }
      locks := [.monitor id] }
  else none

/-- `INSERT … RETURNING`, with the defaults of the columns it leaves out. -/
def createMonitor (organizationId environmentId : Uuid) (config : Configuration) : Stmt Uuid :=
  onCore fun begun env _ c =>
    if (c.monitors.find env.uuid).isSome then none
    else putMonitor c env.uuid
      { organizationId := organizationId, environmentId := environmentId
        version := 1, targetUrl := config.targetUrl, method := "GET"
        intervalSeconds := config.intervalSeconds
        timeoutSeconds := config.timeoutSeconds
        expectedStatusMin := config.expectedStatusMin
        expectedStatusMax := config.expectedStatusMax
        nextCheckAt := begun.now, pausedAt := none, deletedAt := none
        headersCiphertext := none, headerKeyVersion := none
        workerPoolId := "hosted" } env.uuid

section

variable (hash : Uuid → Nat)

/-- `mod(hashtextextended(id::text, 0) & 2147483647, interval_seconds) *
INTERVAL '1 second'`. -/
def slotOffset (id : Uuid) (intervalSeconds : Int) : Time :=
  ((hash id % 2147483648 : Nat) : Int) % intervalSeconds * second

def storeSecureMonitorConfiguration (id : Uuid) (config : Configuration) : Stmt Unit :=
  onCore fun begun _ _ c =>
    match c.monitors.find id with
    | none => some { value := () }
    | some monitor => putMonitor c id
        { monitor with
          method := config.method, headersCiphertext := config.headersCiphertext
          headerKeyVersion := config.headerKeyVersion
          workerPoolId := config.workerPoolId
          nextCheckAt := begun.now + slotOffset hash id monitor.intervalSeconds } ()

/-- The row stays where it is if the monitor is paused. -/
def updateManagedMonitor (organizationId environmentId id : Uuid)
    (config : Configuration) : Stmt (Option Monitor) :=
  onCore fun begun _ _ c =>
    match c.monitors.find id with
    | none => some { value := none }
    | some monitor =>
      if monitor.organizationId = organizationId ∧
          monitor.environmentId = environmentId ∧ monitor.deletedAt = none then
        let updated := { monitor with
          targetUrl := config.targetUrl, method := config.method
          intervalSeconds := config.intervalSeconds
          timeoutSeconds := config.timeoutSeconds
          expectedStatusMin := config.expectedStatusMin
          expectedStatusMax := config.expectedStatusMax
          headersCiphertext := config.headersCiphertext
          headerKeyVersion := config.headerKeyVersion
          workerPoolId := config.workerPoolId, version := monitor.version + 1
          nextCheckAt :=
            if monitor.pausedAt = none then
              begun.now + slotOffset hash id config.intervalSeconds
            else monitor.nextCheckAt }
        putMonitor c id updated (some updated)
      else some { value := none }

def setManagedMonitorPaused (paused : Bool) (organizationId environmentId id : Uuid) :
    Stmt (Option Monitor) :=
  onCore fun begun _ _ c =>
    match c.monitors.find id with
    | none => some { value := none }
    | some monitor =>
      if monitor.organizationId = organizationId ∧
          monitor.environmentId = environmentId ∧ monitor.deletedAt = none then
        let updated := { monitor with
          pausedAt := if paused then some begun.now else none
          nextCheckAt :=
            if paused then monitor.nextCheckAt
            else begun.now + slotOffset hash id monitor.intervalSeconds
          version := monitor.version + 1 }
        putMonitor c id updated (some updated)
      else some { value := none }

end

/-- Rows affected, one or none. -/
def softDeleteMonitor (organizationId environmentId id : Uuid) : Stmt Nat :=
  onCore fun begun _ _ c =>
    match c.monitors.find id with
    | none => some { value := 0 }
    | some monitor =>
      if monitor.organizationId = organizationId ∧
          monitor.environmentId = environmentId ∧ monitor.deletedAt = none then
        putMonitor c id { monitor with
          deletedAt := some begun.now, version := monitor.version + 1 } 1
      else some { value := 0 }

/-- The row counts as open in `monitor_schedule_periods_one_open_idx`. -/
def SchedulePeriod.isOpen (p : SchedulePeriod) (monitorId : Uuid) : Bool :=
  p.monitorId == monitorId && p.endsAt.isNone

/-- The `CHECK` constraints of `monitor_schedule_periods`. -/
def SchedulePeriod.admissible (p : SchedulePeriod) : Bool :=
  allowedIntervals.contains p.intervalSeconds && decide (p.startsAt ≤ p.firstSlotAt) &&
    (match p.endsAt with
      | none => true
      | some endsAt => decide (p.startsAt ≤ endsAt))

/-- A period that ends now, if it has not ended before. -/
def SchedulePeriod.closed (monitorId : Uuid) (now : Time) (p : SchedulePeriod) :
    SchedulePeriod :=
  if p.isOpen monitorId then { p with endsAt := some now } else p

def closeMonitorSchedulePeriod (monitorId : Uuid) : Stmt Unit :=
  onCore fun begun _ _ c =>
    let found := c.periods.filter fun p => p.isOpen monitorId
    if found.all fun p => (p.closed monitorId begun.now).admissible then some
      { value := ()
        write := fun c => { c with
          periods := c.periods.map (SchedulePeriod.closed monitorId begun.now) }
        locks := if found.isEmpty then [] else [.openPeriod monitorId] }
    else none

/-- `INSERT … SELECT … FROM monitors WHERE id = …`. -/
def openMonitorSchedulePeriod (monitorId : Uuid) : Stmt Unit :=
  onCore fun begun _ _ c =>
    match c.monitors.find monitorId with
    | none => some { value := () }
    | some monitor =>
      let opened : SchedulePeriod :=
        { organizationId := monitor.organizationId
          environmentId := monitor.environmentId, monitorId := monitorId
          intervalSeconds := monitor.intervalSeconds, startsAt := begun.now
          firstSlotAt := monitor.nextCheckAt, endsAt := none }
      if opened.admissible && !c.periods.any fun p => p.isOpen monitorId then some
        { value := ()
          write := fun c => { c with periods := c.periods ++ [opened] }
          locks := [.openPeriod monitorId] }
      else none

/-! ## Input -/

namespace MonitorService

def defaultIntervalSeconds : Int := 300

def defaultTimeoutSeconds : Int := 5

def defaultExpectedStatusMin : Int := 200

def defaultExpectedStatusMax : Int := 299

def maximumMonitorNameBytes : Nat := 120

def maximumTargetURLBytes : Nat := 2048

def maximumMonitorsPerOrg : Nat := 100

def errInvalidInput : Failure := .message "invalid monitor input"

def errEnvironmentNotFound : Failure := .message "environment not found"

def errMonitorLimitReached : Failure :=
  .message "organization monitor limit reached"

/-- `CreateInput`. A zero stands for a field that was not given. -/
structure CreateInput where
  name : String
  targetUrl : String
  intervalSeconds : Int
  timeoutSeconds : Int
  expectedStatusMin : Int
  expectedStatusMax : Int
  method : String
  headers : List (String × String)
  workerPoolId : String

/-- `unicode.IsSpace`. -/
def isSpace (c : Char) : Bool :=
  [0x09, 0x0a, 0x0b, 0x0c, 0x0d, 0x20, 0x85, 0xa0, 0x1680, 0x2028, 0x2029, 0x202f,
    0x205f, 0x3000].contains c.toNat ||
    (decide (0x2000 ≤ c.toNat) && decide (c.toNat ≤ 0x200a))

/-- `strings.TrimSpace`. -/
def trimSpace (s : String) : String :=
  String.ofList ((s.toList.dropWhile isSpace).reverse.dropWhile isSpace).reverse

/-- `^[a-z0-9][a-z0-9_-]{0,62}$`. -/
def poolIdPattern (s : String) : Bool :=
  let letter := fun c : Char => (decide ('a' ≤ c) && decide (c ≤ 'z')) || c.isDigit
  match s.toList with
  | [] => false
  | c :: cs => letter c && decide (cs.length ≤ 62) &&
      cs.all fun c => letter c || c == '_' || c == '-'

def orDefault (value default : Int) : Int := if value = 0 then default else value

def orDefaultText (value default : String) : String :=
  if value = "" then default else value

variable (L : Destination.Library)

def normalizeCreateInput (input : CreateInput) : Option CreateInput :=
  let normalized := { input with
    name := trimSpace input.name
    targetUrl := trimSpace input.targetUrl
    method := orDefaultText (trimSpace input.method).toUpper "GET"
    workerPoolId := orDefaultText (trimSpace input.workerPoolId) "hosted"
    intervalSeconds := orDefault input.intervalSeconds defaultIntervalSeconds
    timeoutSeconds := orDefault input.timeoutSeconds defaultTimeoutSeconds
    expectedStatusMin := orDefault input.expectedStatusMin defaultExpectedStatusMin
    expectedStatusMax := orDefault input.expectedStatusMax defaultExpectedStatusMax }
  if normalized.name = "" ∨ maximumMonitorNameBytes < normalized.name.utf8ByteSize ∨
      maximumTargetURLBytes < normalized.targetUrl.utf8ByteSize ∨
      (Destination.validateURL L normalized.targetUrl).isSome ∨
      (normalized.method ≠ "GET" ∧ normalized.method ≠ "HEAD") ∨
      poolIdPattern normalized.workerPoolId = false then none
  else if allowedIntervals.contains normalized.intervalSeconds = false then none
  else if normalized.timeoutSeconds < 1 ∨ 10 < normalized.timeoutSeconds ∨
      normalized.expectedStatusMin < 100 ∨ 599 < normalized.expectedStatusMin ∨
      normalized.expectedStatusMax < 100 ∨ 599 < normalized.expectedStatusMax ∨
      normalized.expectedStatusMax < normalized.expectedStatusMin then none
  else some normalized

/-- `Keyring.Encrypt`: a ciphertext with the version of its key, or an error.
Headers that normalize to nothing have no ciphertext. -/
abbrev Encrypt := List (String × String) → Option (Option Bytes × Int)

/-- `encryptHeaders`, whose key version 0 is stored as a missing one. -/
def encryptHeaders (encrypt : Encrypt) (headers : List (String × String)) :
    Option (Option Bytes × Option Int) :=
  if headers.isEmpty then some (none, none)
  else (encrypt headers).map fun sealed => (sealed.1, if sealed.2 = 0 then none else some sealed.2)

def configuration (input : CreateInput) (sealed : Option Bytes × Option Int) :
    Configuration :=
  { targetUrl := input.targetUrl, method := input.method
    intervalSeconds := input.intervalSeconds
    timeoutSeconds := input.timeoutSeconds
    expectedStatusMin := input.expectedStatusMin
    expectedStatusMax := input.expectedStatusMax
    headersCiphertext := sealed.1, headerKeyVersion := sealed.2
    workerPoolId := input.workerPoolId }

/-! ## The service -/

variable (encrypt : Encrypt) (hash : Uuid → Nat)

/-- The statements of `Create` after the limit was checked. -/
def insertMonitor (organizationId environmentId : Uuid) (config : Configuration) :
    Prog (Except Failure Uuid) := do
  let .ok id ← query (createMonitor organizationId environmentId config)
    | return .error .database
  let .ok () ← query (storeSecureMonitorConfiguration hash id config)
    | return .error .database
  let .ok () ← query (openMonitorSchedulePeriod id) | return .error .database
  let .ok () ← query (ensureMonitorReliabilityState id) | return .error .database
  let .ok () ← query (insertMonitorRefreshEvent organizationId environmentId
    "monitor.changed" "monitor" id) | return .error .database
  let .ok () ← commit | return .error .database
  return .ok id

def create (userId environmentId : Uuid) (input : CreateInput) :
    Prog (Except Failure Uuid) := do
  let some normalized := normalizeCreateInput L input | return .error errInvalidInput
  let .ok () ← start | return .error .database
  let .ok authorized ← query (lockEnvironmentForMonitorCreation userId environmentId)
    | return .error .database
  match authorized with
  | none => return .error errEnvironmentNotFound
  | some (organizationId, role) =>
    if !allows role .monitorsManage then return .error errMonitorForbidden
    let some sealed := encryptHeaders encrypt normalized.headers
      | return .error errInvalidInput
    let .ok count ← query (countOrganizationMonitors organizationId)
      | return .error .database
    if maximumMonitorsPerOrg ≤ count then return .error errMonitorLimitReached
    insertMonitor hash organizationId environmentId (configuration normalized sealed)

/-- The end of every change: the old period is closed, a new one opened if the
monitor is to be checked, the refresh event, the commit. -/
def reschedule (monitor : Monitor) (id : Uuid) (reopen : Bool) :
    Prog (Except Failure Unit) := do
  let .ok () ← query (closeMonitorSchedulePeriod id) | return .error .database
  let .ok () ← (if reopen then query (openMonitorSchedulePeriod id)
    else return .ok ()) | return .error .database
  let .ok () ← query (insertMonitorRefreshEvent monitor.organizationId
    monitor.environmentId "monitor.changed" "monitor" id) | return .error .database
  let .ok () ← commit | return .error .database
  return .ok ()

def update (userId environmentId monitorId : Uuid) (input : CreateInput) :
    Prog (Except Failure Monitor) := do
  let some normalized := normalizeCreateInput L input | return .error errInvalidInput
  let .ok () ← start | return .error .database
  match ← lockManaged userId environmentId monitorId with
  | .error failure => return .error failure
  | .ok row =>
    let some sealed := encryptHeaders encrypt normalized.headers
      | return .error errInvalidInput
    let .ok (some updated) ← query (updateManagedMonitor hash row.organizationId
      row.environmentId monitorId (configuration normalized sealed))
      | return .error .database
    let .ok () ← reschedule updated monitorId updated.pausedAt.isNone
      | return .error .database
    return .ok updated

def setPaused (userId environmentId monitorId : Uuid) (paused : Bool) :
    Prog (Except Failure Monitor) := do
  let .ok () ← start | return .error .database
  match ← lockManaged userId environmentId monitorId with
  | .error failure => return .error failure
  | .ok row =>
    let .ok (some updated) ← query (setManagedMonitorPaused hash paused
      row.organizationId row.environmentId monitorId) | return .error .database
    let .ok () ← reschedule updated monitorId !paused | return .error .database
    return .ok updated

def pause (userId environmentId monitorId : Uuid) : Prog (Except Failure Monitor) :=
  setPaused hash userId environmentId monitorId true

def resume (userId environmentId monitorId : Uuid) : Prog (Except Failure Monitor) :=
  setPaused hash userId environmentId monitorId false

def delete (userId environmentId monitorId : Uuid) : Prog (Except Failure Unit) := do
  let .ok () ← start | return .error .database
  match ← lockManaged userId environmentId monitorId with
  | .error failure => return .error failure
  | .ok row =>
    let .ok rowsAffected ← query (softDeleteMonitor row.organizationId
      row.environmentId monitorId) | return .error .database
    if rowsAffected ≠ 1 then return .error errMonitorNotFound
    reschedule row monitorId false

end MonitorService

end WatchTrace.Model
