import WatchTrace.Tx.Inside
import WatchTrace.Spec.Accept

/-!
# The FIFO path as a protocol

What the calls of the FIFO path do, one transaction or one remote call at a
time. A call begins idle. A publisher that has committed a claim has yet to
send exactly one message; a consumer that has pulled a delivery stays with it
to the end. Everything else happens while idle.

The rules a call can count on are those of the ledger: others keep it well
formed, and they keep to `Keeps` for the keys the call owns.
-/

namespace WatchTrace.Spec

open Tx Model

abbrev State := Database × World

/-- What a call is in the middle of. -/
inductive Local
  | idle
  | claimed (jobId : Uuid) (payload : DispatchPayload)
  | consuming (d : ResultDelivery)

/-- The row is what became of this result. -/
def Carries (h : HealthCheck) (result : Result) : Prop :=
  result.resultId.toUuid? = some h.resultId ∧ result.attemptId.toUuid? = some h.executionAttemptId ∧
    result.snapshotHash = h.snapshotHash

/-- The conflict on record is this delivery. -/
def Records (c : ResultConflict) (j : Uuid) (d : ResultDelivery) (result : Result) : Prop :=
  c.jobId = j ∧ result.resultId.toUuid? = some c.resultId ∧ c.encryptedPayload.plain = d.body

/-- The delivery holds a result for the job. -/
def Delivers (P : Primitives) (d : ResultDelivery) (result : Result) (j : Uuid) :
    Prop :=
  peekDelivery P d = some result ∧ result.jobId.toUuid? = some j

/-- What has to be on record before a delivery may be acknowledged. -/
def Evidence (P : Primitives) (d : ResultDelivery) (l : Ledger) : Prop :=
  ∃ result j, Delivers P d result j ∧ ((∃ h, l.checks.find j = some h ∧ Carries h result) ∨
      ∃ c ∈ l.conflicts.rows, Records c j d result)

/-- What a second result for a job leaves as it is. -/
structure Untouched (x y : Database) : Prop where
  checks : y.ledger.checks = x.ledger.checks
  gaps : y.ledger.gaps = x.ledger.gaps
  core : y.core = x.core
  invalidations : y.journal.invalidations = x.journal.invalidations

/-- The moves of call `i`. -/
inductive Move (P : Primitives) (i : Nat) : Local → State → Local → State → Prop
  | stay (a : Local) (x : State) : Move P i a x a x
  | commit {L : List Key} {x y : Database} {w : World}
      (h : Commit L x.ledger y.ledger) : Move P i .idle (x, w) .idle (y, w)
  | claim {L : List Key} {x y : Database} {w : World} {j : Uuid}
      {d d' : Dispatch} (h : Commit L x.ledger y.ledger)
      (hd : x.ledger.outbox.find j = some d)
      (hd' : y.ledger.outbox.find j = some d')
      (ha : d'.publishAttempts = d.publishAttempts + 1) :
      Move P i .idle (x, w) (.claimed j d.payload) (y, w)
  | send {db : Database} {w : World} {j : Uuid} {payload : DispatchPayload} :
      Move P i (.claimed j payload) (db, w) .idle
        (db, { w with sends := w.sends ++ [sendInput j payload] })
  | pull {db : Database} {w : World} {d : ResultDelivery} : Move P i .idle (db, w) (.consuming d)
        (db, { w with pulled := fun k => if k = i then some d else w.pulled k })
  | consume {L : List Key} {x y : Database} {w : World} {d : ResultDelivery}
      (h : Commit L x.ledger y.ledger)
      (hsame : ∀ result j, Delivers P d result j → x.ledger.checks.find j ≠ none → Untouched x y) :
      Move P i (.consuming d) (x, w) (.consuming d) (y, w)
  | acknowledge {db : Database} {w : World} {d : ResultDelivery} (h : Evidence P d db.ledger) :
      Move P i (.consuming d) (db, w) (.consuming d)
        (db, { w with acknowledged := w.acknowledged ++ [d] })

/-- What the owner of `L` can count on. -/
def Relies (L : Key → Prop) (x y : State) : Prop :=
  WellFormed x.1.ledger → WellFormed y.1.ledger ∧ Keeps L x.1.ledger y.1.ledger

def fifo (P : Primitives) : Protocol Database Key World Local where
  init := .idle
  move := Move P
  rely := Relies
  good := fun x => WellFormed x.1.ledger
  rely_refl := fun L x hx => ⟨hx, Keeps.refl L x.1.ledger⟩
  rely_trans := fun hxy hyz hx => ⟨(hyz (hxy hx).1).1, (hxy hx).2.trans (hyz (hxy hx).1).2⟩
  rely_anti := fun hL h hx => ⟨(h hx).1, (h hx).2.anti hL⟩
  good_rely := fun h hx => (h hx).1

variable {P : Primitives}

variable {i : Nat} {x y : State}

theorem Move.world_or_commit {a a' : Local} (h : Move P i a x a' y) :
    y.1 = x.1 ∨ ∃ L, Commit L x.1.ledger y.1.ledger := by
  cases h with
  | stay => exact .inl rfl
  | commit h | claim h => exact .inr ⟨_, h⟩
  | send | pull => exact .inl rfl
  | consume h => exact .inr ⟨_, h⟩
  | acknowledge => exact .inl rfl

/-- What is on record stays on record. -/
theorem Evidence.keep {d : ResultDelivery} {L : Key → Prop} {x y : Ledger}
    (h : Evidence P d x) (hxy : Keeps L x y) : Evidence P d y := by
  obtain ⟨result, j, hd, hrec⟩ := h
  refine ⟨result, j, hd, ?_⟩
  rcases hrec with ⟨row, hrow, hc⟩ | ⟨c, hc, hr⟩
  · exact .inl ⟨row, hxy.checks hrow, hc⟩
  · exact .inr ⟨c, hxy.conflicts hc, hr⟩

/-! ## Moving -/

variable {L : List Key}

theorem relies_of_commit (h : WellFormed x.1.ledger → Commit L x.1.ledger y.1.ledger)
    {L' : Key → Prop} (hfree : ∀ κ, L' κ → κ ∉ L) : Relies L' x y :=
  fun hx => ⟨(h hx).wellFormed, (h hx).keeps hx hfree⟩

variable {w : World}

/-- A change of the outside only. -/
theorem relies_world {L : Key → Prop} {db : Database} {w' : World} :
    Relies L (db, w) (db, w') := fun hx => ⟨hx, Keeps.refl _ _⟩

theorem moves_commit {x y : Database} (h : Commit L x.ledger y.ledger) :
    (fifo P).Moves i L .idle (x, w) .idle (y, w) :=
  ⟨.commit h, fun _ hfree => relies_of_commit (fun _ => h) hfree⟩

end WatchTrace.Spec
