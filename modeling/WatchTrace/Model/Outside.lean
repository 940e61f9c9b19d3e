import WatchTrace.Tx.Program
import WatchTrace.Model.Envelope

/-!
# What the engine talks to

A step of a call happens in an environment: the clocks, the identifier a
generator would hand out, and what the queues would answer at that moment.
Nothing is assumed about it. The outside remembers only what the guarantees
speak of: which messages were sent, which delivery a call pulled, and which
deliveries were acknowledged.
-/

namespace WatchTrace.Model

open Tx

/-- `fifo.SendInput`. -/
structure SendInput where
  queueUrl : String
  body : Bytes
  deduplicationId : Uuid
  groupId : Uuid
  attributes : Attributes

/-- `fifo.ResultDelivery`. -/
structure ResultDelivery where
  body : Bytes
  attributes : Attributes
  receipt : String
  receiveCount : Nat

/-- `fifo.DLQDelivery`. -/
structure DLQDelivery where
  kind : QueueKind
  body : Bytes
  attributes : Attributes
  receipt : String

/-- The answer of a pull: a message, `workqueue.ErrNoMessage`, or a failure. -/
inductive Pull (α : Type)
  | message (delivery : α)
  | noMessage
  | failed

/-- `auth.User`, whom a session stands for. -/
structure AuthUser where
  id : Uuid
  email : String
  emailVerified : Bool

/-- `ownership.Membership`. -/
structure Membership where
  organizationId : Uuid
  userId : Uuid
  role : Role

structure Env where
  /-- the server's clock; a transaction keeps the one it began with -/
  now : Time
  /-- the clock of the calling process -/
  wall : Time
  /-- what `gen_random_uuid()` would return -/
  uuid : Uuid
  /-- which of several rows an unordered choice would take -/
  pick : Nat
  /-- a message id, or an error after which the message may still be there -/
  sent : Except Unit String
  result : Pull ResultDelivery
  dlq : Pull DLQDelivery
  acknowledged : Bool
  /-- a sealed job with its snapshot hash -/
  sealed : Option (Bytes × String)
  nonce : Option Nat
  /-- what the sequence of `api_refresh_events` would hand out -/
  sequence : Int := 0
  /-- what the random generator would return, unless it fails -/
  random : Option Bytes := none
  /-- whether an invitation can be mailed -/
  mailed : Bool := true

inductive Call : Type → Type
  | now : Call Time
  | send (input : SendInput) : Call (Except Unit String)
  | pullResult : Call (Pull ResultDelivery)
  | acknowledgeResult (d : ResultDelivery) : Call Bool
  | pullDLQ (kind : QueueKind) : Call (Pull DLQDelivery)
  | acknowledgeDLQ (d : DLQDelivery) : Call Bool
  | sealJob (job : Job) : Call (Option (Bytes × String))
  | nonce : Call (Option Nat)
  | random (length : Nat) : Call (Option Bytes)
  | sendInvitation (email token : String) : Call Bool
  /-- what a handler answers when an invitation has been accepted -/
  | respondMembership (user : AuthUser) (token : String) (membership : Membership) : Call Unit

structure World where
  sends : List SendInput
  pulled : Nat → Option ResultDelivery
  acknowledged : List ResultDelivery

def World.empty : World :=
  { sends := [], pulled := fun _ => none, acknowledged := [] }

def answer (env : Env) : {β : Type} → Call β → β
  | _, .now => env.wall
  | _, .send _ => env.sent
  | _, .pullResult => env.result
  | _, .acknowledgeResult _ => env.acknowledged
  | _, .pullDLQ _ => env.dlq
  | _, .acknowledgeDLQ _ => env.acknowledged
  | _, .sealJob _ => env.sealed
  | _, .nonce => env.nonce
  | _, .random length => env.random.filter fun raw => raw.length == length
  | _, .sendInvitation _ _ => env.mailed
  | _, .respondMembership _ _ _ => ()

/-- A send and an acknowledgement count when they are attempted, whatever the
queue answers. -/
def observe (i : Nat) : {β : Type} → Call β → β → World → World
  | _, .send input, _, w => { w with sends := w.sends ++ [input] }
  | _, .pullResult, .message d, w =>
    { w with pulled := fun j => if j = i then some d else w.pulled j }
  | _, .acknowledgeResult d, _, w => { w with acknowledged := w.acknowledged ++ [d] }
  | _, _, _, w => w

def remote : Remote Env World Call :=
  { answer := fun env c => answer env c, observe := fun i c r => observe i c r }

abbrev Stmt (α : Type) := Tx.Stmt Database Key Env α

abbrev Prog (α : Type) := Tx.Prog Database Key Env Call α

def ledgerEffect {α : Type} (e : Effect Ledger Key α) : Effect Database Key α :=
  e.zoom Database.ledger fun l db => { db with ledger := l }

def coreEffect {α : Type} (e : Effect Core Key α) : Effect Database Key α :=
  e.zoom Database.core fun c db => { db with core := c }

def journalEffect {α : Type} (e : Effect Journal Key α) : Effect Database Key α :=
  e.zoom Database.journal fun j db => { db with journal := j }

def onLedger {α : Type} (q : Tx.Stmt Ledger Key Env α) : Stmt α :=
  Tx.Stmt.zoom Database.ledger (fun l db => { db with ledger := l }) q

def onCore {α : Type} (q : Tx.Stmt Core Key Env α) : Stmt α :=
  Tx.Stmt.zoom Database.core (fun c db => { db with core := c }) q

def onJournal {α : Type} (q : Tx.Stmt Journal Key Env α) : Stmt α :=
  Tx.Stmt.zoom Database.journal (fun j db => { db with journal := j }) q

section

variable {α : Type} {begun env : Env} {busy : Key → Bool} {db : Database}

theorem onLedger_of {q : Tx.Stmt Ledger Key Env α} {e : Effect Ledger Key α}
    (h : q begun env busy db.ledger = some e) :
    onLedger q begun env busy db = some (ledgerEffect e) :=
  congrArg (Option.map _) h

theorem onCore_of {q : Tx.Stmt Core Key Env α} {e : Effect Core Key α}
    (h : q begun env busy db.core = some e) :
    onCore q begun env busy db = some (coreEffect e) :=
  congrArg (Option.map _) h

end

variable {α : Type} {e : Effect Database Key α} {begun env : Env} {busy : Key → Bool}
variable {db : Database}

/-- What a statement about the ledger did. -/
theorem onLedger_some {q : Tx.Stmt Ledger Key Env α} (h : onLedger q begun env busy db = some e) :
    ∃ e', q begun env busy db.ledger = some e' ∧ e = ledgerEffect e' := by
  obtain ⟨e', he', rfl⟩ := Option.map_eq_some_iff.mp h
  exact ⟨e', he', rfl⟩

/-- What a statement about the core did. -/
theorem onCore_some {q : Tx.Stmt Core Key Env α} (h : onCore q begun env busy db = some e) :
    ∃ e', q begun env busy db.core = some e' ∧ e.value = e'.value ∧ e.locks = e'.locks ∧
      ∀ db', e.write db' = { db' with core := e'.write db'.core } := by
  obtain ⟨e', he', rfl⟩ := Option.map_eq_some_iff.mp h
  exact ⟨e', he', rfl, rfl, fun _ => rfl⟩

/-- A statement about the core leaves the ledger alone. -/
theorem onCore_ledger {q : Tx.Stmt Core Key Env α} (h : onCore q begun env busy db = some e)
    (db' : Database) :
    (e.write db').ledger = db'.ledger := by
  obtain ⟨e', he', rfl⟩ := Option.map_eq_some_iff.mp h
  rfl

/-- A statement about the journal leaves the ledger alone. -/
theorem onJournal_ledger {q : Tx.Stmt Journal Key Env α}
    (h : onJournal q begun env busy db = some e) (db' : Database) :
    (e.write db').ledger = db'.ledger := by
  obtain ⟨e', he', rfl⟩ := Option.map_eq_some_iff.mp h
  rfl

/-- What a statement about the journal did. -/
theorem onJournal_some {q : Tx.Stmt Journal Key Env α}
    (h : onJournal q begun env busy db = some e) :
    ∃ e', q begun env busy db.journal = some e' ∧ e.value = e'.value ∧ e.locks = e'.locks ∧
      ∀ db', e.write db' = { db' with journal := e'.write db'.journal } := by
  obtain ⟨e', he', rfl⟩ := Option.map_eq_some_iff.mp h
  exact ⟨e', he', rfl, rfl, fun _ => rfl⟩

/-- Why a call returned an error: the database, a queue or another service, or
the code itself with a message of its own. -/
inductive Failure
  | database
  | service
  | message (text : String)
  deriving DecidableEq

/-- `envelope.ErrInvalid`. -/
def errInvalid : Failure := .message "invalid worker envelope"

/-- `time.Now`. -/
def clock : Prog Time := call .now

/-- `envelope.SealJob`: the sealed message and its snapshot hash. -/
def sealJob (job : Job) : Prog (Option (Bytes × String)) := do
  let now ← clock
  if !validateJob job now true then return none
  let sealed ← call (.sealJob job)
  match sealed with
  | none => return none
  | some (body, hash) =>
    if body.length == 0 || decide (maxMessageBytes < body.length) then
      return none
    return some (body, hash)

def errQuarantinePayload : Failure := .message "invalid quarantine payload"

/-- `quarantine.Sealer.Seal`. -/
def sealPayload (plain : Bytes) (associated : String × Option IdText) :
    Prog (Except Failure SealedPayload) := do
  let octets := associated.1.utf8ByteSize +
    (match associated.2 with
      | none => 0
      | some id => id.octets)
  if plain.length == 0 || decide (64 * 1024 < plain.length) ||
      decide (1024 < octets) then
    return .error errQuarantinePayload
  let drawn ← call .nonce
  match drawn with
  | none => return .error .service
  | some nonce => return .ok { nonce := nonce, plain := plain, associated := associated }

end WatchTrace.Model
