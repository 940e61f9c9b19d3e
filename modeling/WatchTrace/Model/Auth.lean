import Mathlib.Data.List.Dedup
import Mathlib.Data.List.Sort
import WatchTrace.Tx.History
import WatchTrace.Tx.Rows
import WatchTrace.Model.Outside

/-!
# Accounts and sessions

`Login`, `Refresh`, `Logout`, `ResetPassword`, `Authenticate` and
`CleanupSessions` of `internal/auth` with the statements of
`db/queries/auth.sql`.

A login opens a family: a refresh token, and an access token for the time being.
Presenting the refresh token rotates it, which issues another pair in the same
family; presenting a token that has been rotated before is taken for theft, and
the family is revoked. A logout revokes a family, or all of a user's, and so
does a password reset.

A revocation is an `UPDATE` of the rows its snapshot shows. Rows that another
transaction has locked are waited for and then tested again; rows that another
transaction has inserted and not yet committed are not there at all. A `DELETE`
works in the same way.

Digests, the key derivation, the encoding of tokens and the grammar of
addresses come from libraries; they are parameters.
-/

namespace WatchTrace.Model.Auth

open Tx

/-- What `crypto/sha256`, `argon2`, `encoding/base64` and `net/mail` compute,
and how PostgreSQL and Go fold an address. -/
structure Library where
  digest : String → Bytes
  idKey : String → Bytes → Bytes
  encode : Bytes → String
  /-- strict, of what follows the prefix -/
  decode : List Char → Option Bytes
  /-- `strings.ToLower(strings.TrimSpace(…))` -/
  fold : String → String
  parseAddress : String → Option String
  /-- `lower(btrim(…))` -/
  foldColumn : String → String

/-! ## Rows -/

/-- `$argon2id$v=…$m=…,t=…,p=…$salt$key`, without the parameters, which are
constants of the code. -/
structure PasswordHash where
  salt : Bytes
  key : Bytes
  deriving DecidableEq

structure UserRow where
  email : String
  passwordHash : PasswordHash
  emailVerified : Bool

structure RefreshToken where
  userId : Uuid
  familyId : Uuid
  tokenDigest : Bytes
  expiresAt : Time
  createdAt : Time
  rotatedAt : Option Time := none
  revokedAt : Option Time := none
  replacedById : Option Uuid := none

structure AuthSession where
  userId : Uuid
  familyId : Uuid
  tokenDigest : Bytes
  expiresAt : Time
  createdAt : Time
  revokedAt : Option Time := none

inductive Purpose
  | emailVerification
  | passwordReset
  deriving DecidableEq

structure UserActionToken where
  userId : Uuid
  purpose : Purpose
  tokenDigest : Bytes
  expiresAt : Time
  createdAt : Time
  usedAt : Option Time := none

structure Tables where
  users : Table Uuid UserRow
  refreshTokens : Table Uuid RefreshToken
  authSessions : Table Uuid AuthSession
  userActionTokens : Table Uuid UserActionToken

/-- What a revocation is about. -/
inductive Scope
  | family (id : Uuid)
  | user (id : Uuid)
  deriving DecidableEq

def Scope.covers : Scope → (userId familyId : Uuid) → Bool
  | .family id, _, familyId => familyId == id
  | .user id, userId, _ => userId == id

/-- What is remembered of the committed transactions: that tokens were revoked,
and that a login which had verified a hash opened a family. -/
inductive Note
  | revoked (scope : Scope)
  | opened (familyId userId : Uuid) (verified : PasswordHash)
  deriving DecidableEq

abbrev Database := Noted Tables Note

/-- Rows, and entries of unique indexes. -/
inductive RowKey
  | user (id : Uuid)
  | refreshToken (id : Uuid)
  | refreshDigest (digest : Bytes)
  | authSession (id : Uuid)
  | sessionDigest (digest : Bytes)
  | actionToken (id : Uuid)
  deriving DecidableEq

/-- A row of a user is locked under two keys. The second names its owner, who
never changes, so it is free whenever the first one is. -/
inductive Key
  | row (r : RowKey)
  | owned (userId : Uuid) (r : RowKey)
  deriving DecidableEq

def locksOf (userId : Uuid) (r : RowKey) : List Key := [.row r, .owned userId r]

/-! ## The outside -/

structure Env where
  /-- the server's clock; a transaction keeps the one it began with -/
  now : Time
  /-- the clock of the calling process -/
  wall : Time
  /-- what `gen_random_uuid()` would return for a primary key -/
  uuid : Uuid
  /-- and for a family -/
  family : Uuid
  /-- what the random generator would return, unless it fails -/
  random : Option Bytes

inductive Call : Type → Type
  | now : Call Time
  | random (length : Nat) : Call (Option Bytes)

def answer (env : Env) : {β : Type} → Call β → β
  | _, .now => env.wall
  | _, .random length => env.random.filter fun raw => raw.length == length

/-- Nothing is remembered of the outside. -/
def remote : Remote Env Unit Call :=
  { answer := fun env c => answer env c, observe := fun _ _ _ w => w }

abbrev Stmt (α : Type) := Tx.Stmt Tables Key Env α

abbrev Prog (α : Type) := Tx.Prog Database Key Env Call α

/-- A statement of a program. -/
def exec {α : Type} (q : Stmt α) : Prog (Except Fault α) := query q.plain

/-! ## Refresh tokens -/

/-- A row of `LockRefreshTokenForRotation`. -/
structure StoredRefreshToken where
  id : Uuid
  userId : Uuid
  familyId : Uuid
  expiresAt : Time
  rotatedAt : Option Time
  revokedAt : Option Time
  email : String
  emailVerified : Bool

/-- `… JOIN users … FOR UPDATE OF refresh_tokens`. -/
def lockRefreshTokenForRotation (tokenDigest : Bytes) : Stmt (Option StoredRefreshToken) :=
  fun _ _ _ t =>
    match t.refreshTokens.rows.find? fun r => r.2.tokenDigest == tokenDigest with
    | none => some { value := none }
    | some (id, token) =>
      match t.users.find token.userId with
      | none => some { value := none }
      | some user => some
          { value := some
              { id := id, userId := token.userId, familyId := token.familyId
                expiresAt := token.expiresAt, rotatedAt := token.rotatedAt
                revokedAt := token.revokedAt, email := user.email
                emailVerified := user.emailVerified }
            locks := locksOf token.userId (.refreshToken id) }

/-- An insert: the identifier and the digest are unique, the user exists, and
`expires_at > created_at`. -/
def insertRefreshToken (userId familyId : Uuid) (tokenDigest : Bytes)
    (expiresAt : Time) : Stmt Uuid :=
  fun begun env _ t =>
    if (t.refreshTokens.find env.uuid).isSome ||
        (t.refreshTokens.rows.any fun r => r.2.tokenDigest == tokenDigest) ||
        (t.users.find userId).isNone || decide (expiresAt ≤ begun.now) then none
    else some
      { value := env.uuid
        write := fun t => { t with
          refreshTokens := t.refreshTokens.put env.uuid
            { userId := userId, familyId := familyId, tokenDigest := tokenDigest
              expiresAt := expiresAt, createdAt := begun.now } }
        locks := .row (.refreshDigest tokenDigest) ::
          locksOf userId (.refreshToken env.uuid) }

def createRotatedRefreshToken (userId familyId : Uuid) (tokenDigest : Bytes)
    (expiresAt : Time) : Stmt Uuid :=
  insertRefreshToken userId familyId tokenDigest expiresAt

/-- The family is a generated one as well; it is answered with the identifier. -/
def createRefreshTokenFamily (userId : Uuid) (tokenDigest : Bytes)
    (expiresAt : Time) : Stmt (Uuid × Uuid) :=
  fun begun env busy t =>
    (insertRefreshToken userId env.family tokenDigest expiresAt begun env busy t).map
      fun e => { value := (e.value, env.family), write := e.write, locks := e.locks }

/-- Rows affected, one or none. `replaced_by_id` refers to a row, and
`rotated_at >= created_at`. -/
def markRefreshTokenRotated (replacedById id : Uuid) : Stmt Nat :=
  fun begun _ _ t =>
    match t.refreshTokens.find id with
    | none => some { value := 0 }
    | some token =>
      if token.rotatedAt.isNone && token.revokedAt.isNone then
        if (t.refreshTokens.find replacedById).isNone ||
            decide (begun.now < token.createdAt) then none
        else some
          { value := 1
            write := fun t => { t with
              refreshTokens := t.refreshTokens.put id { token with
                rotatedAt := some begun.now, replacedById := some replacedById } }
            locks := locksOf token.userId (.refreshToken id) }
      else some { value := 0 }

/-- Not revoked, and covered by the scope. -/
def RefreshToken.affected (token : RefreshToken) (scope : Scope) : Bool :=
  scope.covers token.userId token.familyId && token.revokedAt.isNone

def affectedRefreshTokens (scope : Scope) : Stmt (List Uuid) :=
  .read fun t => (t.refreshTokens.rows.filter fun r => r.2.affected scope).map Prod.fst

/-- One row of the update; `revoked_at >= created_at`. -/
def revokeRefreshToken (scope : Scope) (id : Uuid) : Stmt Nat :=
  fun begun _ _ t =>
    match t.refreshTokens.find id with
    | none => some { value := 0 }
    | some token =>
      if token.affected scope then
        if begun.now < token.createdAt then none
        else some
          { value := 1
            write := fun t => { t with
              refreshTokens := t.refreshTokens.put id { token with
                revokedAt := some begun.now } }
            locks := locksOf token.userId (.refreshToken id) }
      else some { value := 0 }

/-- The `UPDATE` of `refresh_tokens` is the first one of a revocation, and the one
that notes it. -/
def revokeRefreshTokens (scope : Scope) : Prog (Except Fault Nat) :=
  forRows ((affectedRefreshTokens scope).noting fun _ => [.revoked scope])
    fun id => (revokeRefreshToken scope id).plain

def revokeRefreshTokenFamily (familyId : Uuid) : Prog (Except Fault Nat) :=
  revokeRefreshTokens (.family familyId)

def revokeRefreshTokensForUser (userId : Uuid) : Prog (Except Fault Nat) :=
  revokeRefreshTokens (.user userId)

/-! ## Access tokens -/

def createAuthSession (userId familyId : Uuid) (tokenDigest : Bytes)
    (expiresAt : Time) : Stmt Unit :=
  fun begun env _ t =>
    if (t.authSessions.find env.uuid).isSome ||
        (t.authSessions.rows.any fun r => r.2.tokenDigest == tokenDigest) ||
        (t.users.find userId).isNone || decide (expiresAt ≤ begun.now) then none
    else some
      { value := ()
        write := fun t => { t with
          authSessions := t.authSessions.put env.uuid
            { userId := userId, familyId := familyId, tokenDigest := tokenDigest
              expiresAt := expiresAt, createdAt := begun.now } }
        locks := .row (.sessionDigest tokenDigest) ::
          locksOf userId (.authSession env.uuid) }

def AuthSession.affected (session : AuthSession) (scope : Scope) : Bool :=
  scope.covers session.userId session.familyId && session.revokedAt.isNone

def affectedAccessTokens (scope : Scope) : Stmt (List Uuid) :=
  .read fun t => (t.authSessions.rows.filter fun r => r.2.affected scope).map Prod.fst

def revokeAccessToken (scope : Scope) (id : Uuid) : Stmt Nat :=
  fun begun _ _ t =>
    match t.authSessions.find id with
    | none => some { value := 0 }
    | some session =>
      if session.affected scope then
        if begun.now < session.createdAt then none
        else some
          { value := 1
            write := fun t => { t with
              authSessions := t.authSessions.put id { session with
                revokedAt := some begun.now } }
            locks := locksOf session.userId (.authSession id) }
      else some { value := 0 }

def revokeAccessTokens (scope : Scope) : Prog (Except Fault Nat) :=
  forRows (affectedAccessTokens scope).plain fun id => (revokeAccessToken scope id).plain

def revokeAccessTokenFamily (familyId : Uuid) : Prog (Except Fault Nat) :=
  revokeAccessTokens (.family familyId)

def revokeAccessTokensForUser (userId : Uuid) : Prog (Except Fault Nat) :=
  revokeAccessTokens (.user userId)

/-- The condition of `GetUserByAuthSession`. -/
def AuthSession.usable (session : AuthSession) (now : Time) : Bool :=
  decide (now < session.expiresAt) && session.revokedAt.isNone

/-- `auth.User`. -/
structure User where
  id : Uuid
  email : String
  emailVerified : Bool
  deriving DecidableEq

def getUserByAuthSession (tokenDigest : Bytes) : Stmt (Option User) :=
  fun begun _ _ t => some
    { value := (t.authSessions.rows.find? fun r =>
        r.2.tokenDigest == tokenDigest && r.2.usable begun.now).bind fun r =>
          (t.users.find r.2.userId).map fun user =>
            { id := r.2.userId, email := user.email
              emailVerified := user.emailVerified } }

/-! ## Cleaning up -/

/-- `expires_at <= CURRENT_TIMESTAMP OR revoked_at IS NOT NULL`. -/
def AuthSession.spent (session : AuthSession) (now : Time) : Bool :=
  decide (session.expiresAt ≤ now) || session.revokedAt.isSome

/-- `ORDER BY COALESCE(revoked_at, expires_at), id LIMIT …`. -/
def expiredOrRevokedAccessTokens (batchSize : Nat) : Stmt (List Uuid) :=
  fun begun _ _ t => some
    { value := (((t.authSessions.rows.filter fun r => r.2.spent begun.now).insertionSort
        fun a b => orderKey (a.2.revokedAt.getD a.2.expiresAt) a.1 ≤
          orderKey (b.2.revokedAt.getD b.2.expiresAt) b.1).take batchSize).map Prod.fst }

def deleteAccessToken (id : Uuid) : Stmt Nat :=
  fun _ _ _ t =>
    match t.authSessions.find id with
    | none => some { value := 0 }
    | some session => some
        { value := 1
          write := fun t => { t with authSessions := t.authSessions.drop id }
          locks := locksOf session.userId (.authSession id) }

def deleteExpiredOrRevokedAccessTokens (batchSize : Nat) : Prog (Except Fault Nat) :=
  forRows (expiredOrRevokedAccessTokens batchSize).plain fun id => (deleteAccessToken id).plain

/-- `max(expires_at)` of a family. -/
def familyExpiresAt (t : Tables) (familyId : Uuid) : Option Time :=
  ((t.refreshTokens.rows.filter fun r => r.2.familyId == familyId).map fun r => r.2.expiresAt).max?

/-- `GROUP BY family_id HAVING max(expires_at) <= … ORDER BY max(expires_at),
family_id LIMIT …`. -/
def expiredFamilies (t : Tables) (now : Time) (batchSize : Nat) : List Uuid :=
  ((((t.refreshTokens.rows.map fun r => r.2.familyId).dedup).filter fun f =>
      (familyExpiresAt t f).any fun latest => decide (latest ≤ now)).insertionSort
    fun a b => orderKey ((familyExpiresAt t a).getD 0) a ≤
      orderKey ((familyExpiresAt t b).getD 0) b).take batchSize

def expiredFamilyTokens (batchSize : Nat) : Stmt (List Uuid) :=
  fun begun _ _ t => some
    { value := (t.refreshTokens.rows.filter fun r =>
        (expiredFamilies t begun.now batchSize).contains r.2.familyId).map Prod.fst }

def deleteRefreshToken (id : Uuid) : Stmt Nat :=
  fun _ _ _ t =>
    match t.refreshTokens.find id with
    | none => some { value := 0 }
    | some token => some
        { value := 1
          write := fun t => { t with refreshTokens := t.refreshTokens.drop id }
          locks := locksOf token.userId (.refreshToken id) }

/-- `replaced_by_id` refers to rows, which is tested when the `DELETE` is done. -/
def replacementsPresent (deleted : List Uuid) : Stmt Unit :=
  fun _ _ _ t =>
    if t.refreshTokens.rows.any fun r => r.2.replacedById.any fun id =>
        deleted.contains id && (t.refreshTokens.find id).isNone then none
    else some { value := () }

def deleteExpiredRefreshTokenFamilies (batchSize : Nat) : Prog (Except Fault Nat) := do
  let .ok ids ← exec (expiredFamilyTokens batchSize) | return .error .failed
  let .ok count ← forEach (fun id => (deleteRefreshToken id).plain) ids 0
    | return .error .failed
  let .ok () ← exec (replacementsPresent ids) | return .error .failed
  return .ok count

/-! ## Users and their reset tokens -/

def getUserForLogin (L : Library) (email : String) : Stmt (Option (Uuid × UserRow)) :=
  .read fun t => t.users.rows.find? fun r => L.foldColumn r.2.email == email

structure StoredResetToken where
  id : Uuid
  userId : Uuid
  expiresAt : Time
  usedAt : Option Time

/-- `… FOR UPDATE`. -/
def lockPasswordResetToken (tokenDigest : Bytes) : Stmt (Option StoredResetToken) :=
  fun _ _ _ t =>
    match t.userActionTokens.rows.find? fun r =>
        r.2.purpose == .passwordReset && r.2.tokenDigest == tokenDigest with
    | none => some { value := none }
    | some (id, token) => some
        { value := some
            { id := id, userId := token.userId, expiresAt := token.expiresAt
              usedAt := token.usedAt }
          locks := locksOf token.userId (.actionToken id) }

/-- Both updates of the statement: the token is consumed, and the password of
its user replaced. The answer is the number of users. -/
def completePasswordReset (tokenId : Uuid) (passwordHash : PasswordHash) : Stmt Nat :=
  fun begun _ _ t =>
    match t.userActionTokens.find tokenId with
    | none => some { value := 0 }
    | some token =>
      if token.purpose == .passwordReset && token.usedAt.isNone then
        if begun.now < token.createdAt then none
        else
          match t.users.find token.userId with
          | none => some { value := 0 }
          | some user => some
              { value := 1
                write := fun t => { t with
                  users := t.users.put token.userId { user with
                    passwordHash := passwordHash }
                  userActionTokens := t.userActionTokens.put tokenId { token with
                    usedAt := some begun.now } }
                locks := .row (.user token.userId) ::
                  locksOf token.userId (.actionToken tokenId) }
      else some { value := 0 }

def UserActionToken.active (token : UserActionToken) (userId : Uuid) : Bool :=
  token.userId == userId && token.purpose == .passwordReset && token.usedAt.isNone

def activePasswordResetTokens (userId : Uuid) : Stmt (List Uuid) :=
  .read fun t => (t.userActionTokens.rows.filter fun r => r.2.active userId).map Prod.fst

def invalidatePasswordResetToken (userId id : Uuid) : Stmt Nat :=
  fun begun _ _ t =>
    match t.userActionTokens.find id with
    | none => some { value := 0 }
    | some token =>
      if token.active userId then
        if begun.now < token.createdAt then none
        else some
          { value := 1
            write := fun t => { t with
              userActionTokens := t.userActionTokens.put id { token with
                usedAt := some begun.now } }
            locks := locksOf token.userId (.actionToken id) }
      else some { value := 0 }

def invalidateActivePasswordResetTokens (userId : Uuid) : Prog (Except Fault Nat) :=
  forRows (activePasswordResetTokens userId).plain
    fun id => (invalidatePasswordResetToken userId id).plain

/-! ## Tokens and passwords -/

def minimumPasswordBytes : Nat := 12

def maximumPasswordBytes : Nat := 1024

def accessTokenLifetime : Time := 15 * minute

def refreshTokenLifetime : Time := 30 * 24 * hour

def sessionTokenBytes : Nat := 32

def cleanupAccessBatch : Nat := 500

def cleanupFamilyBatch : Nat := 100

def argonSaltLength : Nat := 16

def accessTokenPrefix : String := "wt_access_"

def refreshTokenPrefix : String := "wt_refresh_"

def passwordResetTokenPrefix : String := "wt_reset_"

def errInvalidInput : Failure := .message "invalid account input"

def errInvalidCredentials : Failure := .message "invalid credentials"

def errInvalidSession : Failure := .message "invalid session"

def errInvalidRefreshToken : Failure := .message "invalid refresh token"

def errInvalidPasswordResetToken : Failure := .message "invalid password reset token"

/-- `time.Now`. -/
def clock : Prog Time := call .now

section Service

variable (L : Library)

def validOpaqueToken (token leader : String) : Bool :=
  leader.toList.isPrefixOf token.toList &&
    (match L.decode (token.toList.drop leader.toList.length) with
      | none => false
      | some raw => raw.length == sessionTokenBytes)

def validAccessToken (token : String) : Bool := validOpaqueToken L token accessTokenPrefix

def validRefreshToken (token : String) : Bool :=
  validOpaqueToken L token refreshTokenPrefix

def validPasswordResetToken (token : String) : Bool :=
  validOpaqueToken L token passwordResetTokenPrefix

/-- The token, and the digest of it. -/
def newOpaqueToken (leader : String) : Prog (Option (String × Bytes)) := do
  let raw ← call (.random sessionTokenBytes)
  match raw with
  | none => return none
  | some raw => return some (leader ++ L.encode raw, L.digest (leader ++ L.encode raw))

/-- `tokenPair`. -/
structure TokenPair where
  accessToken : String
  accessDigest : Bytes
  accessExpiresAt : Time
  refreshToken : String
  refreshDigest : Bytes
  refreshExpiresAt : Time

def issueTokenPair : Prog (Option TokenPair) := do
  let some (accessToken, accessDigest) ← newOpaqueToken L accessTokenPrefix | return none
  let some (refreshToken, refreshDigest) ← newOpaqueToken L refreshTokenPrefix
    | return none
  let wall ← clock
  let now := wall - wall % microsecond
  return some
    { accessToken := accessToken, accessDigest := accessDigest
      accessExpiresAt := now + accessTokenLifetime, refreshToken := refreshToken
      refreshDigest := refreshDigest, refreshExpiresAt := now + refreshTokenLifetime }

/-- `auth.Session`. -/
structure IssuedSession where
  token : String
  expiresAt : Time
  refreshToken : String
  refreshTokenExpiresAt : Time

def sessionFromTokenPair (tokens : TokenPair) : IssuedSession :=
  { token := tokens.accessToken, expiresAt := tokens.accessExpiresAt
    refreshToken := tokens.refreshToken
    refreshTokenExpiresAt := tokens.refreshExpiresAt }

/-- `auth.Result`. -/
structure Outcome where
  user : User
  session : IssuedSession

def verifyPassword (password : String) (encoded : PasswordHash) : Bool :=
  L.idKey password encoded.salt == encoded.key

def hashPassword (password : String) : Prog (Option PasswordHash) := do
  let salt ← call (.random argonSaltLength)
  match salt with
  | none => return none
  | some salt => return some { salt := salt, key := L.idKey password salt }

def validatePassword (password : String) : Bool :=
  decide (minimumPasswordBytes ≤ password.utf8ByteSize ∧
    password.utf8ByteSize ≤ maximumPasswordBytes)

/-- The folded address, if it is one. -/
def validateEmail (email : String) : Option String :=
  let folded := L.fold email
  if folded == "" || decide (254 < folded.utf8ByteSize) then none
  else if L.parseAddress folded == some folded then some folded
  else none

def validateCredentials (email password : String) : Option String :=
  (validateEmail L email).filter fun _ => validatePassword password

/-! ## The service -/

def createAccessToken (userId familyId : Uuid) (tokens : TokenPair) :
    Prog (Except Failure Unit) := do
  let .ok () ← exec (createAuthSession userId familyId tokens.accessDigest
    tokens.accessExpiresAt) | return .error .database
  return .ok ()

/-- `verified` is noted, and is not looked at otherwise. -/
def persistNewTokenFamily (verified : PasswordHash) (userId : Uuid)
    (tokens : TokenPair) : Prog (Except Failure Unit) := do
  let .ok (_, familyId) ← query ((createRefreshTokenFamily userId tokens.refreshDigest
    tokens.refreshExpiresAt).noting fun env => [.opened env.family userId verified])
    | return .error .database
  createAccessToken userId familyId tokens

def createTokenFamily (verified : PasswordHash) (userId : Uuid) :
    Prog (Except Failure IssuedSession) := do
  let some tokens ← issueTokenPair L | return .error .service
  let .ok () ← start | return .error .database
  let .ok () ← persistNewTokenFamily verified userId tokens | return .error .database
  let .ok () ← commit | return .error .database
  return .ok (sessionFromTokenPair tokens)

/-- An unknown address costs a verification too, of which nothing is seen. -/
def login (email password : String) : Prog (Except Failure Outcome) := do
  let some normalizedEmail := validateCredentials L email password
    | return .error errInvalidInput
  let .ok () ← start | return .error .database
  let found ← exec (getUserForLogin L normalizedEmail)
  rollback
  match found with
  | .error _ => return .error .database
  | .ok none => return .error errInvalidCredentials
  | .ok (some (id, stored)) =>
    if !verifyPassword L password stored.passwordHash then
      return .error errInvalidCredentials
    match ← createTokenFamily L stored.passwordHash id with
    | .error failure => return .error failure
    | .ok session =>
      let user := { id := id, email := stored.email, emailVerified := stored.emailVerified }
      return .ok { user := user, session := session }

def revokeTokenFamily (familyId : Uuid) : Prog (Except Failure Unit) := do
  let .ok _ ← revokeRefreshTokenFamily familyId | return .error .database
  let .ok _ ← revokeAccessTokenFamily familyId | return .error .database
  return .ok ()

def revokeUserSessions (userId : Uuid) : Prog (Except Failure Unit) := do
  let .ok _ ← revokeRefreshTokensForUser userId | return .error .database
  let .ok _ ← revokeAccessTokensForUser userId | return .error .database
  return .ok ()

/-- Not rotated, not revoked, not expired. -/
def StoredRefreshToken.active (stored : StoredRefreshToken) (now : Time) : Bool :=
  stored.rotatedAt.isNone && stored.revokedAt.isNone && decide (now < stored.expiresAt)

/-- What `Refresh` does with a token that is in order. -/
def rotate (stored : StoredRefreshToken) : Prog (Except Failure Outcome) := do
  let some tokens ← issueTokenPair L | return .error .service
  let .ok replacementId ← exec (createRotatedRefreshToken stored.userId stored.familyId
    tokens.refreshDigest tokens.refreshExpiresAt) | return .error .database
  let .ok rotated ← exec (markRefreshTokenRotated replacementId stored.id)
    | return .error .database
  if rotated ≠ 1 then
    return .error (.message "mark refresh token rotated affected an unexpected number of rows")
  let .ok () ← createAccessToken stored.userId stored.familyId tokens
    | return .error .database
  let .ok () ← commit | return .error .database
  return .ok
    { user :=
        { id := stored.userId, email := stored.email
          emailVerified := stored.emailVerified }
      session := sessionFromTokenPair tokens }

def refresh (refreshToken : String) : Prog (Except Failure Outcome) := do
  if !validRefreshToken L refreshToken then return .error errInvalidRefreshToken
  let .ok () ← start | return .error .database
  let .ok found ← exec (lockRefreshTokenForRotation (L.digest refreshToken))
    | return .error .database
  let some stored := found | return .error errInvalidRefreshToken
  if stored.rotatedAt.isSome then
    let .ok () ← revokeTokenFamily stored.familyId | return .error .database
    let .ok () ← commit | return .error .database
    return .error errInvalidRefreshToken
  let now ← clock
  if stored.revokedAt.isSome || decide (stored.expiresAt ≤ now) then
    return .error errInvalidRefreshToken
  rotate L stored

def logout (refreshToken : String) (allSessions : Bool) : Prog (Except Failure Unit) := do
  if !validRefreshToken L refreshToken then return .ok ()
  let .ok () ← start | return .error .database
  let .ok found ← exec (lockRefreshTokenForRotation (L.digest refreshToken))
    | return .error .database
  let some stored := found | return .ok ()
  let now ← clock
  let .ok () ← (if allSessions && stored.active now then revokeUserSessions stored.userId
    else revokeTokenFamily stored.familyId) | return .error .database
  let .ok () ← commit | return .error .database
  return .ok ()

def resetPassword (token newPassword : String) : Prog (Except Failure Unit) := do
  if !validPasswordResetToken L token then return .error errInvalidPasswordResetToken
  if !validatePassword newPassword then return .error errInvalidInput
  let some passwordHash ← hashPassword L newPassword | return .error .service
  let .ok () ← start | return .error .database
  let .ok found ← exec (lockPasswordResetToken (L.digest token))
    | return .error .database
  let some stored := found | return .error errInvalidPasswordResetToken
  let now ← clock
  if stored.usedAt.isSome || decide (stored.expiresAt ≤ now) then
    return .error errInvalidPasswordResetToken
  let .ok updated ← exec (completePasswordReset stored.id passwordHash)
    | return .error .database
  if updated ≠ 1 then return .error errInvalidPasswordResetToken
  let .ok _ ← invalidateActivePasswordResetTokens stored.userId
    | return .error .database
  let .ok () ← revokeUserSessions stored.userId | return .error .database
  let .ok () ← commit | return .error .database
  return .ok ()

def authenticate (token : String) : Prog (Except Failure User) := do
  if !validAccessToken L token then return .error errInvalidSession
  let .ok () ← start | return .error .database
  let found ← exec (getUserByAuthSession (L.digest token))
  rollback
  match found with
  | .error _ => return .error .database
  | .ok none => return .error errInvalidSession
  | .ok (some user) => return .ok user

end Service

/-- The number of tokens that are gone. -/
def cleanupSessions : Prog (Except Failure Nat) := do
  let .ok () ← start | return .error .database
  let .ok accessCount ← deleteExpiredOrRevokedAccessTokens cleanupAccessBatch
    | return .error .database
  let .ok refreshCount ← deleteExpiredRefreshTokenFamilies cleanupFamilyBatch
    | return .error .database
  let .ok () ← commit | return .error .database
  return .ok (accessCount + refreshCount)

end WatchTrace.Model.Auth
