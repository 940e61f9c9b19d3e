import Mathlib.Data.List.Sort
import WatchTrace.Model.Incident

/-!
# The event stream

`internal/realtime/service.go` and `streamEvents` of `internal/httpapi/events.go`.
A stream asks once in a second for the events of an environment that come after
the last one it has written, at most a hundred, and writes them in the order of
their identifiers.

`Poll` is a program like the others, on the tables. What a stream can miss has to
do with two moments in the life of a row, though: the identity column hands out
the identifier when the row is inserted, and others see the row when the
transaction commits. `Feed` is the table with exactly that: the rows that are
committed, the rows of transactions in progress, and the sequence, next to one
stream.
-/

namespace WatchTrace.Model.Realtime

open Tx

/-- `realtime.Event`. -/
structure Event where
  id : Int
  type : String
  resourceType : String
  resourceId : Uuid
  occurredAt : Time
  deriving DecidableEq

def eventOf (row : RefreshEvent) : Event :=
  { id := row.id, type := row.eventType, resourceType := row.resourceType
    resourceId := row.resourceId, occurredAt := row.occurredAt }

def errNotFound : Failure := .message "event stream not found"

/-- The organization of the environment with the role of the user in it, unless
it has been deleted. -/
def environmentAccess (c : Core) (userId environmentId : Uuid) : Option (Uuid × Role) := do
  let environment ← c.environments.find environmentId
  let organization ← c.organizations.find environment.organizationId
  let member ← c.members.find (environment.organizationId, userId)
  if organization.deletedAt = none then some (environment.organizationId, member.role)
  else none

def getAccessibleEnvironmentOrganization (userId environmentId : Uuid) :
    Stmt (Option (Uuid × Role)) :=
  onCore (.read fun c => environmentAccess c userId environmentId)

/-- `environment_id = … AND id > … ORDER BY id LIMIT …`. -/
def refreshEventsAfter (rows : List RefreshEvent) (environmentId : Uuid) (after : Int)
    (limit : Nat) : List RefreshEvent :=
  ((rows.filter fun r => r.environmentId == some environmentId &&
    decide (after < r.id)).insertionSort fun r r' => r.id ≤ r'.id).take limit

def listEnvironmentRefreshEvents (environmentId : Uuid) (after : Int) (limit : Nat) :
    Stmt (List RefreshEvent) :=
  onJournal (.read fun j => refreshEventsAfter j.refresh environmentId after limit)

/-- What `Poll` asks of its arguments. -/
def pollable (after limit : Int) : Bool :=
  !(decide (after < 0) || decide (limit < 1) || decide (100 < limit))

/-- And of the row that authorizes it. -/
def mayPoll : Option (Uuid × Role) → Bool
  | none => false
  | some (_, role) => allows role .tenantRead

/-- A first query that fails leaves an empty row, whose role is allowed nothing. -/
def poll (userId environmentId : Uuid) (after limit : Int) :
    Prog (Except Failure (List Event)) := do
  if !pollable after limit then return .error errNotFound
  let .ok () ← start | return .error .database
  let .ok authorized ← query (getAccessibleEnvironmentOrganization userId environmentId)
    | return .error errNotFound
  if !mayPoll authorized then return .error errNotFound
  let .ok rows ← query (listEnvironmentRefreshEvents environmentId after limit.toNat)
    | return .error .database
  rollback
  return .ok (rows.map eventOf)

/-! ## One stream -/

structure Stream where
  last : Int
  /-- what has been written, oldest first -/
  delivered : List Event := []
  ended : Bool := false

/-- `write`: the connection takes so many events, and fails then if there are
more. -/
def Stream.write (s : Stream) : List Event → Nat → Stream
  | [], _ => s
  | _ :: _, 0 => { s with ended := true }
  | event :: rest, taken + 1 =>
    Stream.write { s with last := event.id, delivered := s.delivered ++ [event] } rest taken

/-- One tick of the stream with the answer of `Poll`; a poll that fails ends it. -/
def Stream.tick (s : Stream) (answer : Except Failure (List Event)) (taken : Nat) : Stream :=
  if s.ended then s
  else match answer with
    | .error _ => { s with ended := true }
    | .ok events => s.write events taken

/-- The answer of `Poll`, when the rows are those the second query sees, and
the first one has answered `authorized`. -/
def polled (authorized : Option (Uuid × Role)) (rows : List RefreshEvent)
    (environmentId : Uuid) (after limit : Int) : Except Failure (List Event) :=
  if !pollable after limit then .error errNotFound
  else if !mayPoll authorized then .error errNotFound
  else .ok ((refreshEventsAfter rows environmentId after limit.toNat).map eventOf)

/-! ## The table, its sequence and its writers -/

structure Feed where
  /-- the identifier handed out last -/
  sequence : Int
  rows : List RefreshEvent
  /-- rows inserted by transactions in progress -/
  pending : List (Nat × RefreshEvent) := []
  stream : Stream

/-- What can happen next. A transaction is named by a number; what it inserts is
given without identifier, which comes from the sequence, where others (and
transactions that failed) may have left a gap. -/
inductive Move
  | insert (transaction : Nat) (event : RefreshEvent) (gap : Nat)
  | commit (transaction : Nat)
  | rollback (transaction : Nat)
  | poll (authorized : Option (Uuid × Role)) (taken : Nat)

def Feed.step (environmentId : Uuid) (f : Feed) : Move → Feed
  | .insert transaction event gap =>
    let id := f.sequence + 1 + gap
    { f with
      sequence := id
      pending := f.pending ++ [(transaction, { event with id := id })] }
  | .commit transaction =>
    { f with
      rows := f.rows ++ (f.pending.filter fun p => p.1 == transaction).map Prod.snd
      pending := f.pending.filter fun p => p.1 != transaction }
  | .rollback transaction => { f with pending := f.pending.filter fun p => p.1 != transaction }
  | .poll authorized taken =>
    { f with
      stream := f.stream.tick
        (polled authorized f.rows environmentId f.stream.last 100) taken }

def Feed.run (environmentId : Uuid) (f : Feed) (moves : List Move) : Feed :=
  moves.foldl (Feed.step environmentId) f

end WatchTrace.Model.Realtime
