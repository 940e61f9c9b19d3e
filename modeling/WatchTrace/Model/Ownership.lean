import WatchTrace.Tx.Rows
import WatchTrace.Model.Auth
import WatchTrace.Model.Incident

/-!
# Organizations and their members

`Invite`, `AcceptInvitation`, `UpdateMember`, `RemoveMember` and
`DeleteOrganization` of `internal/ownership`, with the statements of
`db/queries/ownership.sql` and `db/queries/ownership_management.sql`.

An organization has members with roles. Others are invited by mail: the mail holds
a token, the table its digest, and whoever has that address and presents the token
becomes a member with the role of the invitation. A new invitation of an address
takes the place of the one that is still open; the old row is marked as accepted,
which no token of it survives.

An organization is deleted by giving it a time of deletion. Its rows stay.
-/

namespace WatchTrace.Model.Ownership

open Tx

/-- Besides what accounts need: how Go compares addresses, and the pattern of an
identifier in a request. -/
structure Library extends Auth.Library where
  /-- `strings.EqualFold`, of both addresses without the space around them -/
  sameAddress : String → String → Bool
  uuidPattern : IdText → Bool

/-- A role in a request. -/
inductive RoleText
  | blank
  | known (role : Role)
  | unknown (text : String)
  deriving DecidableEq

/-- `authorization.ValidAssignableRole`, and the role it is. -/
def RoleText.assignable? : RoleText → Option AssignableRole
  | .known .admin => some ⟨.admin, by decide⟩
  | .known .member => some ⟨.member, by decide⟩
  | .known .viewer => some ⟨.viewer, by decide⟩
  | _ => none

/-! ## Statements -/

/-- The role of a user in an organization that is not deleted. -/
def membershipRole (c : Core) (organizationId userId : Uuid) : Option Role := do
  let member ← c.members.find (organizationId, userId)
  let organization ← c.organizations.find organizationId
  if organization.deletedAt = none then some member.role else none

def getOrganizationMembershipRole (organizationId userId : Uuid) : Stmt (Option Role) :=
  onCore (.read fun c => membershipRole c organizationId userId)

section Invitations

variable (L : Library)

def existingOrganizationMemberByEmail (organizationId : Uuid) (email : String) : Stmt Bool :=
  onCore (.read fun c => c.members.rows.any fun e => e.1.1 == organizationId &&
    (match c.users.find e.1.2 with
      | none => false
      | some user => L.foldColumn user.email == email))

/-- `accepted_at IS NULL`, of an organization and a normalized address. -/
def openFor (organizationId : Uuid) (email : String) (invitation : OrgInvitation) : Bool :=
  invitation.organizationId == organizationId && L.foldColumn invitation.email == email &&
    invitation.acceptedAt.isNone

def pendingInvitations (organizationId : Uuid) (email : String) : Stmt (List Uuid) :=
  onCore (.read fun c =>
    (c.invitations.rows.filter fun e => openFor L organizationId email e.2).map Prod.fst)

/-- One row of the update; `accepted_at >= created_at`. -/
def closeInvitation (organizationId : Uuid) (email : String) (id : Uuid) : Stmt Nat :=
  onCore fun begun _ _ c =>
    match c.invitations.find id with
    | none => some { value := 0 }
    | some invitation =>
      if openFor L organizationId email invitation then
        if begun.now < invitation.createdAt then none
        else some
          { value := 1
            write := fun c => { c with
              invitations := c.invitations.put id { invitation with
                acceptedAt := some begun.now } }
            locks := [.invitation id] }
      else some { value := 0 }

def invalidatePendingInvitation (organizationId : Uuid) (email : String) :
    Prog (Except Fault Nat) :=
  forRows (pendingInvitations L organizationId email) (closeInvitation L organizationId email)

/-- The constraints of a new row but for the unique ones. -/
def admissibleInvitation (c : Core) (invitation : OrgInvitation) : Bool :=
  (c.organizations.find invitation.organizationId).isSome &&
    (c.users.find invitation.invitedByUserId).isSome &&
    btrim invitation.email != "" && decide (invitation.email.utf8ByteSize ≤ 254) &&
    invitation.tokenDigest.length == 32 && decide (invitation.createdAt < invitation.expiresAt)

/-- `org_invitations_active_email_idx` holds one open row for an organization and
an address. If that row is being changed by another transaction, an insert waits
for the outcome. -/
def awaitActiveInvitation (organizationId : Uuid) (address : String) : Stmt Unit :=
  onCore fun _ _ busy c => some
    { value := ()
      locks := (c.invitations.rows.filter fun e =>
        openFor L organizationId address e.2 && busy (.invitation e.1)).map fun e =>
          .invitation e.1 }

/-- It is an error if the row is open then; and so is a digest that is there. -/
def insertOrganizationInvitation (organizationId invitedByUserId : Uuid) (email : String)
    (role : AssignableRole) (tokenDigest : Bytes) (expiresAt : Time) : Stmt Unit :=
  onCore fun begun env _ c =>
    let invitation : OrgInvitation :=
      { organizationId := organizationId, invitedByUserId := invitedByUserId, email := email
        role := role, tokenDigest := tokenDigest, expiresAt := expiresAt
        createdAt := begun.now }
    if !admissibleInvitation c invitation || (c.invitations.find env.uuid).isSome ||
        (c.invitations.rows.any fun e => e.2.tokenDigest == tokenDigest) ||
        (c.invitations.rows.any fun e =>
          openFor L organizationId (L.foldColumn email) e.2) then none
    else some
      { value := ()
        write := fun c => { c with
          invitations := c.invitations.put env.uuid invitation }
        locks := [.invitation env.uuid, .invitationDigest tokenDigest,
          .activeInvitation organizationId (L.foldColumn email)] }

def createOrganizationInvitation (organizationId invitedByUserId : Uuid) (email : String)
    (role : AssignableRole) (tokenDigest : Bytes) (expiresAt : Time) :
    Prog (Except Fault Unit) := do
  let .ok () ← query (awaitActiveInvitation L organizationId (L.foldColumn email))
    | return .error .failed
  query (insertOrganizationInvitation L organizationId invitedByUserId email role tokenDigest
    expiresAt)

/-- `… FOR UPDATE`. -/
def lockOrganizationInvitation (tokenDigest : Bytes) : Stmt (Option (Uuid × OrgInvitation)) :=
  onCore fun _ _ _ c =>
    match c.invitations.rows.find? fun e => e.2.tokenDigest == tokenDigest with
    | none => some { value := none }
    | some e => some { value := some e, locks := [.invitation e.1] }

/-- The update consumes the invitation, and its row is inserted as a membership
unless there is one. The answer is the number of memberships. -/
def acceptOrganizationInvitation (invitationId userId : Uuid) : Stmt Nat :=
  onCore fun begun _ busy c =>
    match c.invitations.find invitationId with
    | none => some { value := 0 }
    | some invitation =>
      if invitation.acceptedAt.isSome then some { value := 0 }
      else if begun.now < invitation.createdAt then none
      else
        let consumed := { invitation with acceptedAt := some begun.now }
        let key := (invitation.organizationId, userId)
        let row := Key.member invitation.organizationId userId
        match c.members.find key with
        | some _ => some
            { value := 0
              write := fun c => { c with
                invitations := c.invitations.put invitationId consumed }
              locks := .invitation invitationId :: if busy row then [row] else [] }
        | none =>
          if (c.users.find userId).isNone then none
          else some
            { value := 1
              write := fun c => { c with
                invitations := c.invitations.put invitationId consumed
                members := c.members.put key
                  { role := invitation.role, incidentNotificationsEnabled := true } }
              locks := [.invitation invitationId, row] }

end Invitations

section Members

def insertTenantRefreshEvent (organizationId : Uuid) (environmentId : Option Uuid)
    (eventType resourceType : String) (resourceId : Uuid) : Stmt Unit :=
  insertRefreshEvent
    { organizationId := organizationId, environmentId := environmentId
      eventType := eventType, resourceType := resourceType, resourceId := resourceId }

def insertAuditLog (log : AuditLog) : Stmt Unit :=
  onJournal fun _ _ _ _ => some
    { value := (), write := fun j => { j with auditLogs := j.auditLogs ++ [log] } }

/-- A statement whose argument is cast to `uuid` first. -/
def casting {α : Type} (id : IdText) (q : Uuid → Stmt α) : Stmt α :=
  match id.toUuid? with
  | none => fun _ _ _ _ => none
  | some uuid => q uuid

def lockOrganizationMemberRole (organizationId userId : Uuid) : Stmt (Option Role) :=
  onCore fun _ _ _ c =>
    match c.members.find (organizationId, userId) with
    | none => some { value := none }
    | some member => some { value := some member.role, locks := [.member organizationId userId] }

def getOrganizationMemberNotificationPreference (organizationId userId : Uuid) :
    Stmt (Option Bool) :=
  onCore (.read fun c => (c.members.find (organizationId, userId)).map
    OrgMember.incidentNotificationsEnabled)

/-- `ownership.Member`. -/
structure Member where
  userId : Uuid
  email : String
  role : Role
  incidentNotificationsEnabled : Bool

/-- `org_members_one_owner_per_organization_idx`, for a row that is to have the
role. -/
def secondOwner (c : Core) (organizationId userId : Uuid) (role : Role) : Bool :=
  role == .owner && c.members.rows.any fun e =>
    e.1.1 == organizationId && e.1.2 != userId && e.2.role == .owner

def updateOrganizationMember (organizationId userId : Uuid) (role : Role)
    (notifications : Bool) : Stmt (Option Member) :=
  onCore fun _ _ _ c =>
    match c.members.find (organizationId, userId), c.users.find userId with
    | some _, some user =>
      if secondOwner c organizationId userId role then none
      else some
        { value := some
            { userId := userId, email := user.email, role := role
              incidentNotificationsEnabled := notifications }
          write := fun c => { c with
            members := c.members.put (organizationId, userId)
              { role := role, incidentNotificationsEnabled := notifications } }
          locks := .member organizationId userId ::
            if role = .owner then [.ownership organizationId] else [] }
    | _, _ => some { value := none }

def getOrganizationMemberRole (organizationId userId : Uuid) : Stmt (Option Role) :=
  onCore (.read fun c => (c.members.find (organizationId, userId)).map OrgMember.role)

def deleteOrganizationMember (organizationId userId : Uuid) : Stmt Unit :=
  onCore fun _ _ _ c =>
    match c.members.find (organizationId, userId) with
    | none => some { value := () }
    | some _ => some
        { value := ()
          write := fun c => { c with members := c.members.drop (organizationId, userId) }
          locks := [.member organizationId userId] }

def softDeleteOrganization (organizationId : Uuid) : Stmt Unit :=
  onCore fun begun _ _ c =>
    match c.organizations.find organizationId with
    | none => some { value := () }
    | some organization =>
      if organization.deletedAt = none then some
        { value := ()
          write := fun c => { c with
            organizations := c.organizations.put organizationId { organization with
              deletedAt := some begun.now } }
          locks := [.organization organizationId] }
      else some { value := () }

end Members

/-! ## The service -/

def invitationLifetime : Time := 7 * 24 * hour

def invitationTokenPrefix : String := "wt_invite_"

def errInvalidInput : Failure := .message "invalid ownership input"

def errOrganizationNotFound : Failure := .message "organization not found"

def errForbidden : Failure := .message "permission denied"

def errAlreadyMember : Failure := .message "organization member already exists"

def errInvalidInvitation : Failure := .message "invalid organization invitation"

def errEmailNotVerified : Failure := .message "verified email required"

def errMemberNotFound : Failure := .message "member not found"

/-- A statement that only looks may answer no row. -/
def roleTx (userId organizationId : Uuid) : Prog (Except Failure Role) := do
  let .ok found ← query (getOrganizationMembershipRole organizationId userId)
    | return .error .database
  match found with
  | none => return .error errOrganizationNotFound
  | some role => return .ok role

def recordAudit (organizationId actor : Uuid) (action resource : String) (id : Uuid) :
    Prog (Except Fault Unit) :=
  query (insertAuditLog
    { organizationId := organizationId, actorUserId := actor, action := action
      resourceType := resource, resourceId := id })

def eventType (action : String) : String :=
  if "project.".toList.isPrefixOf action.toList then "project.changed"
  else if "environment.".toList.isPrefixOf action.toList then "environment.changed"
  else if "membership.".toList.isPrefixOf action.toList then "membership.changed"
  else "organization.changed"

def recordTenantChange (organizationId : Uuid) (environmentId : Option Uuid) (actor : Uuid)
    (action resource : String) (id : Uuid) : Prog (Except Fault Unit) := do
  let .ok () ← query (insertTenantRefreshEvent organizationId environmentId
    (eventType action) resource id) | return .error .failed
  recordAudit organizationId actor action resource id

/-- `ownership.Invitation`. -/
structure Invitation where
  organizationId : Uuid
  email : String
  role : Role
  expiresAt : Time

section Service

variable (L : Library)

def normalizeEmail (email : String) : Option String :=
  let normalized := L.fold email
  if L.parseAddress normalized = some normalized ∧ normalized.utf8ByteSize ≤ 254 then
    some normalized
  else none

/-- `auth.NewInvitationToken`. -/
def newInvitationToken : Prog (Option (String × Bytes)) := do
  let raw ← call (.random Auth.sessionTokenBytes)
  match raw with
  | none => return none
  | some raw =>
    let token := invitationTokenPrefix ++ L.encode raw
    return some (token, L.digest token)

def validInvitationToken (token : String) : Bool :=
  Auth.validOpaqueToken L.toLibrary token invitationTokenPrefix

/-- The statements of `Invite` after its checks. -/
def issueInvitation (userId organizationId : Uuid) (email : String) (role : AssignableRole) :
    Prog (Except Failure Invitation) := do
  let .ok _ ← invalidatePendingInvitation L organizationId email | return .error .database
  let some (token, digest) ← newInvitationToken L | return .error .service
  let wall ← clock
  let expiresAt := wall - wall % microsecond + invitationLifetime
  let .ok () ← createOrganizationInvitation L organizationId userId email role digest
    expiresAt | return .error .database
  let sent ← call (.sendInvitation email token)
  if !sent then return .error .service
  let .ok () ← commit | return .error .database
  return .ok
    { organizationId := organizationId, email := email, role := role, expiresAt := expiresAt }

def invite (userId organizationId : Uuid) (email : String) (role : RoleText) :
    Prog (Except Failure Invitation) := do
  match normalizeEmail L email, role.assignable? with
  | some email, some role =>
    let .ok () ← start | return .error .database
    match ← roleTx userId organizationId with
    | .error failure => return .error failure
    | .ok current =>
      if !allows current .membersInvite then return .error errForbidden
      let .ok exists_ ← query (existingOrganizationMemberByEmail L organizationId email)
        | return .error .database
      if exists_ then return .error errAlreadyMember
      issueInvitation L userId organizationId email role
  | _, _ => return .error errInvalidInput

/-- What is asked of the invitation a token stands for. -/
def acceptable (user : AuthUser) (now : Time) (invitation : OrgInvitation) : Bool :=
  invitation.acceptedAt.isNone && decide (now < invitation.expiresAt) &&
    L.sameAddress invitation.email user.email

/-- The end of `AcceptInvitation`: also an invitation that created nothing is
consumed. -/
def commitAcceptance (user : AuthUser) (invitation : OrgInvitation) (created : Nat) :
    Prog (Except Failure Membership) := do
  let .ok () ← commit | return .error .database
  if created ≠ 1 then return .error errAlreadyMember
  return .ok
    { organizationId := invitation.organizationId, userId := user.id, role := invitation.role }

/-- The statements of `AcceptInvitation` after its checks. -/
def consumeInvitation (user : AuthUser) (id : Uuid) (invitation : OrgInvitation) :
    Prog (Except Failure Membership) := do
  let .ok created ← query (acceptOrganizationInvitation id user.id)
    | return .error .database
  let .ok () ← (if created = 1 then recordTenantChange invitation.organizationId none user.id
      "membership.created" "membership" user.id
    else return .ok ()) | return .error .database
  commitAcceptance user invitation created

def acceptInvitation (user : AuthUser) (token : String) : Prog (Except Failure Membership) := do
  if !user.emailVerified then return .error errEmailNotVerified
  if !validInvitationToken L token then return .error errInvalidInvitation
  let .ok () ← start | return .error .database
  let .ok stored ← query (lockOrganizationInvitation (L.digest token))
    | return .error .database
  match stored with
  | none => return .error errInvalidInvitation
  | some (id, invitation) =>
    let now ← clock
    if !acceptable L user now invitation then return .error errInvalidInvitation
    consumeInvitation user id invitation

/-- What the handler of a request does with the answer. -/
def respond (user : AuthUser) (token : String) : Except Failure Membership → Prog Unit
  | .ok membership => call (.respondMembership user token membership)
  | .error _ => return ()

def acceptInvitationHandler (user : AuthUser) (token : String) : Prog Unit :=
  acceptInvitation L user token >>= respond user token

/-- The statements of `UpdateMember` after its checks. -/
def storeMember (actorId organizationId : Uuid) (memberId : IdText) (role : Role)
    (notifications : Option Bool) : Prog (Except Failure Member) := do
  let .ok (some notifications) ← (match notifications with
      | some n => return .ok (some n)
      | none => query (casting memberId
          (getOrganizationMemberNotificationPreference organizationId)))
    | return .error .database
  let .ok (some row) ← query (casting memberId fun id =>
    updateOrganizationMember organizationId id role notifications) | return .error .database
  let .ok () ← recordTenantChange organizationId none actorId "membership.updated"
    "membership" row.userId | return .error .database
  let .ok () ← commit | return .error .database
  return .ok row

/-- Identifiers are compared as texts. -/
def updateMember (actorId organizationId : Uuid) (memberId : IdText) (role : RoleText)
    (notifications : Option Bool) : Prog (Except Failure Member) := do
  if !L.uuidPattern memberId || (role != .blank && role.assignable?.isNone) then
    return .error errInvalidInput
  let .ok () ← start | return .error .database
  match ← roleTx actorId organizationId with
  | .error failure => return .error failure
  | .ok actorRole =>
    if decide (.canonical actorId ≠ memberId) && !allows actorRole .membersManage then
      return .error errForbidden
    if role != .blank && decide (.canonical actorId = memberId) then
      return .error errForbidden
    if role != .blank && actorRole != .owner && role == .known .admin then
      return .error errForbidden
    let .ok existing ← query (casting memberId (lockOrganizationMemberRole organizationId))
      | return .error .database
    match existing with
    | none => return .error errMemberNotFound
    | some existingRole =>
      if existingRole = .owner then return .error errForbidden
      storeMember actorId organizationId memberId
        (match role with
          | .known r => r
          | _ => existingRole) notifications

def removeMember (actorId organizationId : Uuid) (memberId : IdText) :
    Prog (Except Failure Unit) := do
  if .canonical actorId = memberId then return .error errForbidden
  let .ok () ← start | return .error .database
  match ← roleTx actorId organizationId with
  | .error failure => return .error failure
  | .ok role =>
    if !allows role .membersManage then return .error errForbidden
    let .ok target ← query (casting memberId (getOrganizationMemberRole organizationId))
      | return .error .database
    match memberId.toUuid?, target with
    | some userId, some target =>
      if target = .owner ∨ (role ≠ .owner ∧ target = .admin) then
        return .error errForbidden
      let .ok () ← query (deleteOrganizationMember organizationId userId)
        | return .error .database
      let .ok () ← recordTenantChange organizationId none actorId "membership.removed"
        "membership" userId | return .error .database
      let .ok () ← commit | return .error .database
      return .ok ()
    | _, _ => return .error errMemberNotFound

def deleteOrganization (userId organizationId : Uuid) : Prog (Except Failure Unit) := do
  let .ok () ← start | return .error .database
  match ← roleTx userId organizationId with
  | .error failure => return .error failure
  | .ok role =>
    if role ≠ .owner then return .error errForbidden
    let .ok () ← query (softDeleteOrganization organizationId) | return .error .database
    let .ok () ← recordAudit organizationId userId "organization.deleted" "organization"
      organizationId | return .error .database
    let .ok () ← commit | return .error .database
    return .ok ()

end Service

end WatchTrace.Model.Ownership
