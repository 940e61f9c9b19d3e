import WatchTrace.Model.Worker

/-!
# The worker's journal

A worker that has stored a result never checks again for it: it would find the
result in its journal and publish that. The journal survives what the worker's
memory does not, so this holds across restarts at any point, and a redelivery of
the job, however often it comes, leads to the same bytes.

Three facts carry it along every run. What is noted as stored is what the journal
answers for that job and snapshot; a publication that is owed is the one the
journal has; and between the moment a round finds nothing in the journal and the
moment it stores its own result, the journal still has nothing, because nobody else
writes to it.
-/

namespace WatchTrace.Proofs.Worker

open Tx
open Model (Time Bytes IdText Attributes Job Result Failure Pull)
open Model.Worker
open Proc (Script Move)
open Proc.Script (safe_perform safe_bind)

/-! ## The journal's rows -/

section Rows

variable {j j' : Journal} {jobId jobId' : IdText} {hash hash' : String} {body : Bytes} {u : Int}

theorem result_eq_some_iff {b : Bytes} :
    j.result jobId hash = some b ↔ ∃ row, j.find jobId = some row ∧ row.snapshotHash = hash ∧
      row.state = .completed ∧ row.result.getD [] = b := by
  unfold Journal.result
  cases j.find jobId with
  | none => simp
  | some row =>
  by_cases hrow : row.snapshotHash = hash ∧ row.state = .completed
  · simp [hrow]
  simp only [if_neg hrow]
  constructor
  · intro h
    cases h
  · rintro ⟨_, h, h1, h2, -⟩
    cases h
    exact absurd ⟨h1, h2⟩ hrow

theorem result_put_ne {row : JournalRow} (h : jobId' ≠ jobId) :
    Journal.result (j.put jobId row) jobId' hash = j.result jobId' hash := by
  unfold Journal.result
  rw [Table.find_put_ne j row h]

theorem find_put_self (row : JournalRow) : (j.put jobId row).find jobId = some row := by
  rw [Table.find_put_eq, if_pos rfl]

/-- An acceptance leaves every result as it is, and a row of its own hash. -/
theorem accept_some (h : j.accept jobId hash u = some j') : (∀ i s, j'.result i s = j.result i s) ∧
      ∃ row, j'.find jobId = some row ∧ row.snapshotHash = hash := by
  unfold Journal.accept at h
  cases hfind : j.find jobId with
  | none =>
    rw [hfind] at h
    cases h
    refine ⟨fun i s => ?_, _, find_put_self _, rfl⟩
    by_cases hi : i = jobId
    · subst hi
      unfold Journal.result
      rw [find_put_self, hfind]
      simp
    · exact result_put_ne hi
  | some row =>
    rw [hfind] at h
    by_cases hrow : row.snapshotHash = hash
    · simp only [if_pos hrow] at h
      cases h
      refine ⟨fun i s => ?_, _, find_put_self _, hrow⟩
      by_cases hi : i = jobId
      · subst hi
        unfold Journal.result
        rw [find_put_self, hfind]
      · exact result_put_ne hi
    · simp only [if_neg hrow] at h
      cases h

/-- A stored result is answered from then on. Where there was none before, no other
answer changes. -/
theorem storeResult_some (h : j.storeResult jobId hash body u = some j') :
    j'.result jobId hash = some body ∧
      (j.result jobId hash = none → ∀ i s b, j.result i s = some b → j'.result i s = some b) := by
  unfold Journal.storeResult at h
  cases hfind : j.find jobId with
  | none =>
    rw [hfind] at h
    cases h
  | some row =>
  rw [hfind] at h
  by_cases hrow : row.snapshotHash = hash
  · simp only [if_pos hrow] at h
    cases h
    refine ⟨result_eq_some_iff.mpr ⟨_, find_put_self _, hrow, rfl, rfl⟩,
      fun hnone i s b hsome => ?_⟩
    by_cases hi : i = jobId
    · -- a result under this id would be one of this hash
      subst hi
      obtain ⟨row', hfind', -, hstate, -⟩ := result_eq_some_iff.mp hsome
      rw [hfind] at hfind'
      cases hfind'
      have hthere : j.result i hash = some (row.result.getD []) :=
        result_eq_some_iff.mpr ⟨row, hfind, hrow, hstate, rfl⟩
      rw [hnone] at hthere
      cases hthere
    · rw [result_put_ne hi]
      exact hsome
  · simp only [if_neg hrow] at h
    cases h

end Rows

/-! ## The story of a run -/

/-- What an event has to do with those before it. -/
def Fits : Event → List Event → Prop
  | .pulled pending, _ => pending = none
  | .executed jobId hash journaled, earlier =>
    (∀ body, .stored jobId hash body ∉ earlier) ∧ ∀ row ∈ journaled, row.snapshotHash = hash
  | .published jobId hash body, earlier =>
    ∀ stored, .stored jobId hash stored ∈ earlier → body = stored
  | .signed _, _ => True
  | .stored _ _ _, _ => True

def Told : List Event → Prop
  | [] => True
  | e :: earlier => Fits e earlier ∧ Told earlier

variable {e : Event}

theorem Told.fits {later earlier : List Event} (h : Told (later ++ e :: earlier)) :
    Fits e earlier := by
  induction later with
  | nil => exact h.1
  | cons _ later ih => exact ih h.2

structure Kept (s : State) : Prop where
  told : Told s.log
  durable : ∀ jobId hash body, .stored jobId hash body ∈ s.log →
    s.journal.result jobId hash = some body
  owed : ∀ p ∈ s.pending, p.expired = false →
    s.journal.result p.delivery.attributes.jobId p.delivery.attributes.snapshotHash = some p.body

variable {s : State}

/-- An event that is not about storing. -/
theorem Kept.note (h : Kept s) (hfits : Fits e s.log)
    (hstored : ∀ jobId hash body, e ≠ .stored jobId hash body) : Kept (s.note e) where
  told := ⟨hfits, h.told⟩
  durable := fun jobId hash body hmem => by
    rcases List.mem_cons.mp hmem with heq | hmem
    · exact absurd heq.symm (hstored jobId hash body)
    · exact h.durable jobId hash body hmem
  owed := h.owed

theorem Kept.setPending (h : Kept s) {pending : Option PendingPublication}
    (howed : ∀ p ∈ pending, p.expired = false →
      s.journal.result p.delivery.attributes.jobId p.delivery.attributes.snapshotHash =
        some p.body) : Kept { s with pending := pending } :=
  { told := h.told, durable := h.durable, owed := howed }

/-- Rows may change as long as no result does. -/
theorem Kept.journal (h : Kept s) {j : Journal}
    (hsame : ∀ jobId hash body, s.journal.result jobId hash = some body →
      j.result jobId hash = some body) : Kept { s with journal := j } :=
  { told := h.told
    durable := fun jobId hash body hmem => hsame _ _ _ (h.durable jobId hash body hmem)
    owed := fun p hp hresult => hsame _ _ _ (h.owed p hp hresult) }

variable {body : Bytes}

variable {jobId : IdText}

/-- What the journal has may be handed to the transport. -/
theorem Kept.published (h : Kept s) {hash : String}
    (hresult : s.journal.result jobId hash = some body) :
    Kept (s.note (.published jobId hash body)) := by
  refine h.note (fun stored hmem => ?_) (fun _ _ _ => by simp)
  have hstored := h.durable jobId hash stored hmem
  rw [hresult] at hstored
  exact Option.some.inj hstored

theorem Kept.stored (h : Kept s) {hash : String}
    (hresult : s.journal.result jobId hash = some body) :
    Kept (s.note (.stored jobId hash body)) where
  told := ⟨trivial, h.told⟩
  durable := fun jobId' hash' body' hmem => by
    rcases List.mem_cons.mp hmem with heq | hmem
    · cases heq
      exact hresult
    · exact h.durable jobId' hash' body' hmem
  owed := h.owed

/-! ## One round -/

variable {L : Library} {c : Config} {s : State}

variable {d : Delivery}

theorem publish_safe (h : Kept s)
    (hresult : s.journal.result d.attributes.jobId d.attributes.snapshotHash = some body) :
    (publish d body).Safe handler (fun _ => True) Kept (fun _ _ => True) s := by
  unfold publish
  refine safe_perform fun env _ => ⟨h.published hresult, ?_⟩
  split
  · trivial
  · refine safe_perform fun env' _ => ⟨(h.published hresult).setPending fun p hp _ => ?_, trivial⟩
    cases hp
    exact hresult

theorem reportExpired_safe {job : Job} (h : Kept s) :
    (reportExpired L c d job).Safe handler (fun _ => True) Kept (fun _ _ => True) s := by
  unfold reportExpired
  refine safe_perform fun env _ => ⟨h, ?_⟩
  split
  · refine safe_perform fun env' _ => ⟨h, ?_⟩
    split
    · trivial
    · refine safe_perform fun env'' _ => ⟨h.setPending fun p hp hresult => ?_, trivial⟩
      cases hp
      cases hresult
  · trivial

/-- A write to the journal: it is not done, it is done and the round goes on, or it is
done and the round does not know. -/
theorem safe_write {α : Type} {Q : α → State → Prop} {o : Op (Except Failure Unit)}
    {f : Except Failure Unit → Script Op α} {changed : Env → Option Journal}
    {event : Option Event} (h : Kept s)
    (hact : ∀ env, handler.act env o s = write env.disk s (changed env) event)
    (herror : ∀ failure s', (f (.error failure)).Safe handler (fun _ => True) Kept Q s')
    (hlost : ∀ env j, changed env = some j → Kept { s with journal := j })
    (hdone : ∀ env j, changed env = some j →
      Kept { s with journal := j, log := event.toList ++ s.log } ∧
        (f (.ok ())).Safe handler (fun _ => True) Kept Q { s with journal := j, log := event.toList ++ s.log }) :
    (Proc.perform o >>= f).Safe handler (fun _ => True) Kept Q s := by
  refine safe_perform fun env _ => ?_
  rw [hact]
  cases hchanged : changed env with
  | none => cases env.disk <;> exact ⟨h, herror _ _⟩
  | some j =>
  cases env.disk with
  | ok => exact hdone env j hchanged
  | failed => exact ⟨h, herror _ _⟩
  | unreported => exact ⟨hlost env j hchanged, herror _ _⟩

/-- A round that has found no result stores its own. -/
theorem complete_safe {job : Job} {result : Result} (h : Kept s)
    (hid : d.attributes.jobId = .canonical job.jobId)
    (hnone : s.journal.result (.canonical job.jobId) d.attributes.snapshotHash = none) :
    (complete L c d job result).Safe handler (fun _ => True) Kept (fun _ _ => True) s := by
  unfold complete
  split
  · trivial
  have hsigned : Kept (s.note (.signed result)) := h.note trivial fun _ _ _ => by simp
  refine safe_perform fun env _ => ⟨hsigned, ?_⟩
  refine safe_write hsigned (fun env => rfl) (fun _ _ => trivial) (fun env j hj => ?_)
    (fun env j hj => ?_)
  · exact hsigned.journal ((storeResult_some hj).2 hnone)
  · obtain ⟨hstored, hothers⟩ := storeResult_some hj
    have hkept := (hsigned.journal (hothers hnone)).stored hstored
    refine ⟨hkept, publish_safe hkept ?_⟩
    rw [hid]
    exact hstored

/-- The engine is called for a job that the journal has under this hash, if at all, and
has no result for. It does not touch the journal. -/
theorem execute_safe {hash : String} {request : CheckRequest} (h : Kept s)
    (hnone : s.journal.result request.jobId hash = none)
    (hrow : ∀ row ∈ s.journal.find request.jobId, row.snapshotHash = hash) :
    (execute hash request).Safe handler (fun _ => True) Kept
      (fun _ s' => Kept s' ∧ s'.journal = s.journal) s := by
  have hexecuted : Kept (s.note (.executed request.jobId hash (s.journal.find request.jobId))) := by
    refine h.note ⟨fun body hmem => ?_, hrow⟩ fun _ _ _ => by simp
    have hstored := h.durable _ _ _ hmem
    rw [hnone] at hstored
    cases hstored
  unfold execute
  refine safe_perform fun env _ => ⟨hexecuted, ?_⟩
  split
  · exact ⟨hexecuted, rfl⟩
  refine safe_perform fun _ _ => ⟨hexecuted, safe_perform fun _ _ => ⟨hexecuted, ?_⟩⟩
  split
  · exact ⟨hexecuted, rfl⟩
  · exact safe_perform fun _ _ => ⟨hexecuted, hexecuted, rfl⟩

theorem check_safe {job : Job} (h : Kept s) (hid : d.attributes.jobId = .canonical job.jobId)
    (hnone : s.journal.result (.canonical job.jobId) d.attributes.snapshotHash = none) :
    (check L c d job).Safe handler (fun _ => True) Kept (fun _ _ => True) s := by
  unfold check
  refine safe_write h (fun env => rfl) (fun _ _ => trivial) (fun env j hj => ?_)
    (fun env j hj => ?_)
  · obtain ⟨hsame, -⟩ := accept_some hj
    exact h.journal fun i hash body hresult => by rw [hsame]; exact hresult
  · obtain ⟨hsame, row, hfind, hhash⟩ := accept_some hj
    have hkept : Kept { s with journal := j } :=
      h.journal fun i hash body hresult => by rw [hsame]; exact hresult
    have hnone' : j.result (.canonical job.jobId) d.attributes.snapshotHash = none := by
      rw [hsame]
      exact hnone
    refine ⟨hkept, safe_perform fun _ _ => ⟨hkept, safe_perform fun _ _ => ⟨hkept, ?_⟩⟩⟩
    refine safe_bind (execute_safe hkept hnone' fun row' hrow' => ?_) fun r s' hs' => ?_
    rotate_left
    · obtain ⟨hkept', hjournal⟩ := hs'
      cases r with
      | error failure => trivial
      | ok r =>
      refine complete_safe hkept' hid ?_
      rw [hjournal]
      exact hnone'
    · cases hfind.symm.trans hrow'
      exact hhash

theorem act_journalResult (env : Env) (jobId : IdText) (hash : String) (s : State) :
    handler.act env (.journalResult jobId hash) s = (.error .service, s) ∨
      handler.act env (.journalResult jobId hash) s = (.ok (s.journal.result jobId hash), s) := by
  show act env (.journalResult jobId hash) s = _ ∨ act env (.journalResult jobId hash) s = _
  unfold act
  cases env.disk with
  | ok => exact .inr rfl
  | failed | unreported => exact .inl rfl

theorem handle_safe {job : Job} (h : Kept s) (hid : d.attributes.jobId = .canonical job.jobId) :
    (handle L c d job).Safe handler (fun _ => True) Kept (fun _ _ => True) s := by
  unfold handle
  refine safe_perform fun env _ => ?_
  rcases act_journalResult env (.canonical job.jobId) d.attributes.snapshotHash s with hact | hact
  · rw [hact]
    exact ⟨h, trivial⟩
  · rw [hact]
    refine ⟨h, ?_⟩
    cases hresult : s.journal.result (.canonical job.jobId) d.attributes.snapshotHash with
    | some stored =>
      refine publish_safe h ?_
      rw [hid]
      exact hresult
    | none =>
    refine safe_perform fun env' _ => ⟨h, ?_⟩
    split
    · exact reportExpired_safe h
    · exact check_safe h hid hresult

/-- A job that opens has the id its delivery says. -/
theorem jobId_of_openJob {data : Bytes} {attrs : Attributes} {workerPrivate platformPublic : Bytes}
    {now tolerance : Time} {job : Job}
    (h : openJob L data attrs workerPrivate platformPublic now tolerance = some job) :
    attrs.jobId = .canonical job.jobId ∧ attrs.expiresAt = job.expiresAt := by
  unfold openJob at h
  split at h
  · cases h
  split at h
  · cases h
  split at h
  · cases h
  split at h
  · cases h
  split at h
  · next hauthentic =>
    cases h
    unfold authentic at hauthentic
    simp only [Bool.and_eq_true, beq_iff_eq] at hauthentic
    exact ⟨hauthentic.1.1.1.1.1.2.symm, hauthentic.1.2.symm⟩
  · cases h

theorem receive_safe (h : Kept s) :
    (receive L c d).Safe handler (fun _ => True) Kept (fun _ _ => True) s := by
  unfold receive
  split
  · trivial
  refine safe_perform fun env _ => ⟨h, ?_⟩
  split
  · trivial
  next job hopen =>
  split
  · trivial
  · exact handle_safe h (jobId_of_openJob hopen).1

theorem retry_safe {p : PendingPublication} (h : Kept s)
    (howed : p.expired = false → s.journal.result p.delivery.attributes.jobId
      p.delivery.attributes.snapshotHash = some p.body) :
    (retry p).Safe handler (fun _ => True) Kept (fun _ _ => True) s := by
  have hrest : ∀ (accepted : Bool) (s' : State), Kept s' →
      Script.Safe handler (fun _ => True) Kept (fun _ _ => True)
        (if !accepted then (pure (true, some .service) : Script Op (Bool × Option Failure))
          else do
            Proc.perform (.setPending none)
            pure (true, none)) s' := by
    intro accepted s' h'
    split
    · trivial
    · exact safe_perform fun _ _ => ⟨h'.setPending (fun p hp => nomatch hp), trivial⟩
  unfold retry
  cases hexpired : p.expired with
  | true => exact safe_perform fun env _ => ⟨h, hrest _ _ h⟩
  | false =>
    have hpublished := h.published (howed hexpired)
    exact safe_perform fun env _ => ⟨hpublished, hrest _ _ hpublished⟩

theorem runOne_safe (h : Kept s) :
    (runOne L c).Safe handler (fun _ => True) Kept (fun _ _ => True) s := by
  unfold runOne
  refine safe_perform fun env _ => ⟨h, ?_⟩
  dsimp only [handler, act]
  cases hpending : s.pending with
  | some p => exact retry_safe h (h.owed p hpending)
  | none =>
  have hpulled : Kept (s.note (.pulled s.pending)) := h.note hpending fun _ _ _ => by simp
  refine safe_perform fun env' _ => ⟨hpulled, ?_⟩
  dsimp only [act]
  cases env'.pulled with
  | noMessage | failed => trivial
  | message d => exact receive_safe hpulled

namespace Sample

def hash : String := "5f3a5f3a5f3a5f3a5f3a5f3a5f3a5f3a5f3a5f3a5f3a5f3a5f3a5f3a5f3a5f3a"

def job : Job :=
  { schemaVersion := 2, jobId := 1, jobType := .scheduled, workerPoolId := "hosted"
    networkPolicyVersion := 1, scheduledAt := 1000 * Model.second
    expiresAt := 1060 * Model.second, targetUrl := "https://example.com", method := "GET"
    timeoutSeconds := 1, expectedStatusMin := 200, expectedStatusMax := 299, headers := []
    limits := { maxResponseBytes := 64, maxHeaderBytes := 1024, maxRedirects := 3 }
    platformKeyId := "p", workerEncryptionKeyId := "w" }

/-- Every message holds that job. -/
def library : Library :=
  { unmarshalSealed := fun _ => some
      { schemaVersion := 2, ephemeralPublicKey := List.replicate 32 0
        nonce := List.replicate 12 0, ciphertext := [] }
    decrypt := fun _ _ _ => some { job, signature := List.replicate 64 0 }
    verifyJob := fun _ _ _ _ => true
    snapshotHash := fun _ => hash
    marshalResult := fun _ _ => some [1]
    marshalExpired := fun _ _ => some [2] }

def config : Config :=
  { workerId := "worker", workerPoolId := "hosted", platformKeyId := "p"
    workerEncryptionKeyId := "w", resultKeyId := "r", clockTolerance := 5 * Model.second
    workerPrivate := none, platformPublic := [], resultPrivate := List.replicate 64 0
    workerPrivateKeys := Table.empty.put "w" []
    platformPublicKeys := Table.empty.put "p" (List.replicate 32 0), revokedKeyIds := [] }

def delivery : Delivery :=
  { body := [0], leaseToken := "lease", receiveCount := 1
    attributes :=
      { schemaVersion := 2, jobId := .canonical 1, workerPoolId := "hosted", snapshotHash := hash
        expiresAt := 1060 * Model.second, resultId := .foreign "", resultKeyId := ""
        platformKeyId := "p", workerEncryptionKeyId := "w" } }

/-- The job is delivered at any time, and no result gets through. -/
def env : Env :=
  { wall := 1000 * Model.second, id := .canonical 7, pulled := .message delivery
    publishes := fun _ _ => false, acknowledges := fun _ _ => false, disk := .ok
    fetched := .response 204 0 false }

/-- A round up to a publication that fails, a restart, and the job once more. -/
def story : List Event :=
  ((worker library config).moves ⟨none, { pending := none, journal := .empty, log := [] }⟩
    (List.replicate 16 (.next env) ++ .stop :: List.replicate 6 (.next env))).state.log

end Sample

open Sample

end WatchTrace.Proofs.Worker
