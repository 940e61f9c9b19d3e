import WatchTrace.Tx.Serial
import WatchTrace.Spec.Observation

/-!
# An evaluation brings a monitor up to date

The three ways through `evaluateLocked` (append, correct from a slot, start
over) are one argument. Each of them cuts the results in two, takes the state
after the first part from the rows, and replays the second part; so whatever
the cut, the rows end up as the history of all results.

Everything here happens while the state row of the monitor is locked, so the
rows are the transaction's own business.
-/

namespace WatchTrace.Proofs

open Tx Tx.Prog Model Spec

variable {m : Uuid} {lim : Limits}

/-! ## Reading -/

section Reading

variable {α β ε : Type} {begun : Env} {v : Database} {Post : α → Database → Prop}

theorem returns_read {f : Database → β} {k : Except Fault β → Prog (Except ε α)}
    (hok : Returns remote begun Post (k (.ok (f v))) v) (herr : GivesUp k) :
    Returns remote begun Post (Tx.query (.read f) >>= k) v := by
  refine returns_query (fun env busy e he => ?_) herr
  cases he
  exact hok

theorem returns_readCore {f : Core → β} {k : Except Fault β → Prog (Except ε α)}
    (hok : Returns remote begun Post (k (.ok (f v.core))) v) (herr : GivesUp k) :
    Returns remote begun Post (Tx.query (onCore (.read f)) >>= k) v := by
  refine returns_query (fun env busy e he => ?_) herr
  cases he
  exact hok

end Reading

/-! ## What the statements do to the rows -/

variable {c : Core} {r : ObservedResult}

variable {t : Counters}

/-- A new row behind all others. -/
theorem recorded_put {row : Evaluation} (hm : row.monitorId = m)
    (hrow : EvaluatedResult.entry ⟨r.jobId, row⟩ = (r, t))
    (hfree : c.evaluations.find r.jobId = none) (hafter : ∀ p ∈ recorded c m, p.1.key < r.key) :
    recorded { c with evaluations := c.evaluations.put r.jobId row } m =
      recorded c m ++ [(r, t)] := by
  refine (ascending_recorded _ _).ext ((ascending_recorded c m).append_singleton hafter) fun p => ?_
  rw [List.mem_append, List.mem_singleton, mem_recorded, mem_recorded]
  constructor
  · rintro ⟨row', hfind, hm', hp⟩
    rcases Table.find_put_some.mp hfind with ⟨hj, rfl⟩ | ⟨-, hfind⟩
    · right
      rw [← hp, hj, hrow]
    · exact .inl ⟨row', hfind, hm', hp⟩
  · rintro (⟨row', hfind, hm', hp⟩ | rfl)
    · have hne : p.1.jobId ≠ r.jobId := by
        intro heq
        rw [heq, hfree] at hfind
        cases hfind
      exact ⟨row', (Table.find_put_ne _ _ hne).trans hfind, hm', hp⟩
    · exact ⟨row, Table.find_put _ _ _, hm, hrow⟩

/-- The ids a deletion from a slot on removes. -/
def doomed (c : Core) (m : Uuid) (k : OrderKey) : List Uuid :=
  ((orderedEvaluations c m).filter fun e => k ≤ e.key).map EvaluatedResult.jobId

theorem mem_doomed {k : OrderKey} {p : ObservedResult × Counters} (hp : p ∈ recorded c m) :
    p.1.jobId ∈ doomed c m k ↔ k ≤ p.1.key := by
  obtain ⟨row, hfind, hm, heq⟩ := mem_recorded.mp hp
  have hkey : ∀ e ∈ orderedEvaluations c m, e.jobId = p.1.jobId →
      e.key = p.1.key := by
    intro e he hj
    have hrow := (mem_orderedEvaluations.mp he).1
    rw [hj, hfind] at hrow
    rw [← heq, EvaluatedResult.key, ← Option.some.inj hrow, hj]
    rfl
  unfold doomed
  rw [List.mem_map]
  constructor
  · rintro ⟨e, he, hj⟩
    obtain ⟨hmem, hk⟩ := List.mem_filter.mp he
    rw [← hkey e hmem hj]
    simpa using hk
  · intro hk
    have hmem : (⟨p.1.jobId, row⟩ : EvaluatedResult) ∈ orderedEvaluations c m :=
      mem_orderedEvaluations.mpr ⟨hfind, hm⟩
    refine ⟨_, List.mem_filter.mpr ⟨hmem, ?_⟩, rfl⟩
    rw [hkey _ hmem rfl]
    simpa using hk

/-- A deletion from a slot on. -/
theorem recorded_keep (c : Core) (k : OrderKey) :
    recorded { c with evaluations := c.evaluations.keep fun id _ =>
      !(doomed c m k).contains id } m =
      (recorded c m).filter fun p => p.1.key < k := by
  refine (ascending_recorded _ _).ext ((ascending_recorded c m).filter _) fun p => ?_
  rw [List.mem_filter]
  constructor
  · intro hp
    obtain ⟨row, hfind, hm, heq⟩ := mem_recorded.mp hp
    rw [Table.find_keep, Option.filter_eq_some_iff] at hfind
    have hmem : p ∈ recorded c m := mem_recorded.mpr ⟨row, hfind.1, hm, heq⟩
    refine ⟨hmem, ?_⟩
    have hnot : ¬ k ≤ p.1.key := by
      rw [← mem_doomed hmem]
      simpa using hfind.2
    simpa using hnot
  · rintro ⟨hmem, hk⟩
    obtain ⟨row, hfind, hm, heq⟩ := mem_recorded.mp hmem
    refine mem_recorded.mpr ⟨row, ?_, hm, heq⟩
    rw [Table.find_keep, Option.filter_eq_some_iff]
    refine ⟨hfind, ?_⟩
    have hnot : p.1.jobId ∉ doomed c m k := by
      rw [mem_doomed hmem]
      simpa using hk
    simpa using hnot

/-! ## Replaying results -/

/-- Nothing but evaluations was written. -/
structure Filed (v v' : Database) : Prop where
  ledger : v'.ledger = v.ledger
  core : v'.core = { v.core with evaluations := v'.core.evaluations }

theorem Filed.refl (v : Database) : Filed v v := ⟨rfl, rfl⟩

variable {v : Database}

variable {u w : Database}

theorem Filed.trans (huv : Filed u v) (hvw : Filed v w) :
    Filed u w := by
  refine ⟨hvw.ledger.trans huv.ledger, ?_⟩
  rw [hvw.core, huv.core]

/-- A row is written. -/
def file (v : Database) (j : Uuid) (row : Evaluation) : Database :=
  { v with core := { v.core with evaluations := v.core.evaluations.put j row } }

theorem filed_file (v : Database) (j : Uuid) (row : Evaluation) :
    Filed v (file v j row) := ⟨rfl, rfl⟩

variable {pre : List ObservedResult}

variable {rest : List ObservedResult}

/-- A result that was not evaluated has no row yet. -/
theorem evaluation_free (hall : scheduledChecks v.ledger m = pre ++ rest)
    (hrec : recorded v.core m = history lim pre) (hroot : Rooted v) (hr : r ∈ rest) :
    v.core.evaluations.find r.jobId = none := by
  by_contra hne
  obtain ⟨e, he⟩ := Option.ne_none_iff_exists'.mp hne
  have hmem : r ∈ scheduledChecks v.ledger m := by
    rw [hall]
    exact List.mem_append_right _ hr
  obtain ⟨h, hfind, hm, -⟩ := mem_scheduledChecks.mp hmem
  obtain ⟨h', hfind', hm'⟩ := hroot _ _ he
  rw [hfind] at hfind'
  cases hfind'
  -- so it is a row of this monitor, and its result is among those before
  have hold : EvaluatedResult.entry ⟨r.jobId, e⟩ ∈ recorded v.core m :=
    mem_recorded.mpr ⟨e, he, hm'.symm.trans hm, rfl⟩
  rw [hrec] at hold
  have hpre := mem_of_mem_historyFrom hold
  have hpre' : (EvaluatedResult.entry ⟨r.jobId, e⟩).1 ∈ scheduledChecks v.ledger m := by
    rw [hall]
    exact List.mem_append_left _ hpre
  have hsame := scheduledChecks_inj hpre' hmem rfl
  have hasc := ascending_scheduledChecks v.ledger m
  rw [hall] at hasc
  have hlt := hasc.lt_of_append hpre hr
  rw [hsame] at hlt
  exact lt_irrefl _ hlt

variable {begun env : Env} {busy : Key → Bool} {e : Effect Database Key Unit}

/-- What an upsert of a result without a row does. -/
theorem upsertMonitorResultEvaluation_some (hfree : v.core.evaluations.find r.jobId = none)
    (he : upsertMonitorResultEvaluation m r t.1 t.2.1 t.2.2 begun env busy v = some e) :
    ∃ row : Evaluation, row.monitorId = m ∧ EvaluatedResult.entry ⟨r.jobId, row⟩ = (r, t) ∧
      e.write v = file v r.jobId row := by
  obtain ⟨e', he', -, -, hwrite⟩ := onCore_some he
  rw [hwrite]
  split at he'
  · cases he'
  · simp only [hfree, Option.some.injEq] at he'
    subst he'
    exact ⟨_, rfl, rfl, rfl⟩

variable {s : StateSnapshot}

/-- The loop, when the rows are the history of what comes before. -/
theorem evaluateResults_returns (hall : scheduledChecks v.ledger m = pre ++ rest)
    (hrec : recorded v.core m = history lim pre) (hs : Stands lim pre s) (hroot : Rooted v) :
    Returns remote begun (fun s' v' => Filed v v' ∧ Rooted v' ∧
      recorded v'.core m = history lim (scheduledChecks v.ledger m) ∧
      Stands lim (scheduledChecks v.ledger m) s')
      (evaluateResults m lim.failure lim.recovery rest s) v := by
  induction rest generalizing pre s v with
  | nil =>
    rw [List.append_nil] at hall
    refine returns_ok ⟨Filed.refl v, hroot, ?_, ?_⟩
    · rw [hall]; exact hrec
    · rw [hall]; exact hs
  | cons r rest ih =>
    refine returns_query (fun env busy e he => ?_) (fun _ => ⟨_, rfl⟩)
    have hfree := evaluation_free hall hrec hroot (List.mem_cons_self)
    have hasc := ascending_scheduledChecks v.ledger m
    rw [hall] at hasc
    obtain ⟨row, hm, hrow, hwrite⟩ := upsertMonitorResultEvaluation_some
      (t := advance lim (StateSnapshot.counters s) r) hfree he
    rw [hwrite]
    have hcounters : advance lim (StateSnapshot.counters s) r =
        observation lim (pre ++ [r]) := by
      rw [observation_concat, hs.counters]
    -- one more result is history
    have hrec' : recorded (file v r.jobId row).core m =
        history lim (pre ++ [r]) := by
      have hafter : ∀ p ∈ recorded v.core m, p.1.key < r.key := by
        intro p hp
        rw [hrec] at hp
        exact hasc.lt_of_append (mem_of_mem_historyFrom hp) List.mem_cons_self
      unfold file
      rw [recorded_put hm hrow hfree hafter, hrec, history_concat, hcounters]
    have hroot' : Rooted (file v r.jobId row) := by
      intro j e' hfind
      rcases Table.find_put_some.mp hfind with ⟨rfl, rfl⟩ | ⟨-, hfind⟩
      · have hmem : r ∈ scheduledChecks v.ledger m := by rw [hall]; simp
        obtain ⟨h, hcheck, hmon, -⟩ := mem_scheduledChecks.mp hmem
        exact ⟨h, hcheck, hmon.trans hm.symm⟩
      · exact hroot j e' hfind
    have hall' : scheduledChecks (file v r.jobId row).ledger m =
        (pre ++ [r]) ++ rest := by
      show scheduledChecks v.ledger m = _
      rw [hall]; simp
    refine (ih hall' hrec' (hs.concat r) hroot').mono fun s' v' h => ?_
    exact ⟨(filed_file v _ _).trans h.1, h.2⟩

/-! ## The cut

`old` is what the rows are the history of, `all` is what the checks are now;
they differ by the accepted result at most. -/

/-- The slot of an accepted result in the order of results. -/
def AcceptedSlot.key (slot : AcceptedSlot) : OrderKey :=
  orderKey slot.scheduled slot.jobId

structure Since (old : List ObservedResult) (accepted : Option AcceptedSlot)
    (all : List ObservedResult) : Prop where
  kept : ∀ r ∈ old, r ∈ all
  new : ∀ r ∈ all, r ∈ old ∨ ∃ slot, accepted = some slot ∧ r.key = AcceptedSlot.key slot

/-- The results before the cut. -/
def before (old : List ObservedResult) (correction : Option AcceptedSlot) : List ObservedResult :=
  match correction with
  | none => old
  | some slot => old.filter fun r => r.key < AcceptedSlot.key slot

/-- The results an evaluation lists. -/
def listed (l : Ledger) (m : Uuid) (current : StateSnapshot)
    (correction : Option AcceptedSlot) : List ObservedResult :=
  match correction, current.lastObservedAt, current.lastObservedJob with
  | some slot, _, _ => (scheduledChecks l m).filter fun r => AcceptedSlot.key slot ≤ r.key
  | none, some at_, some job => (scheduledChecks l m).filter fun r => orderKey at_ job < r.key
  | none, _, _ => scheduledChecks l m

theorem listResults_eq (m : Uuid) (current : StateSnapshot) (correction : Option AcceptedSlot) :
    listResults m current correction =
      Tx.query (.read fun db => listed db.ledger m current correction) := by
  obtain ⟨_, _, _, _, lastAt, lastJob⟩ := current
  cases correction with
  | some slot => rfl
  | none => cases lastAt <;> cases lastJob <;> rfl

theorem orderAfter_iff {t t' : Time} {j j' : Uuid} :
    orderAfter t j t' j' = true ↔ orderKey t' j' < orderKey t j := by
  simp only [orderAfter, orderKey, Bool.or_eq_true, decide_eq_true_eq,
    Bool.and_eq_true, beq_iff_eq, Prod.Lex.toLex_lt_toLex]
  constructor
  · rintro (h | ⟨rfl, h⟩)
    · exact .inl h
    · exact .inr ⟨rfl, h⟩
  · rintro (h | ⟨h, h'⟩)
    · exact .inl h
    · exact .inr ⟨h.symm, h'⟩

variable {old : List ObservedResult}

variable {all : List ObservedResult} {slot : AcceptedSlot}

/-- With a correction, the cut is at the accepted slot. -/
theorem cut_corrected (hold : Ascending ObservedResult.key old)
    (hall : Ascending ObservedResult.key all) (hsince : Since old (some slot) all) :
    all = before old (some slot) ++
      all.filter fun r => AcceptedSlot.key slot ≤ r.key := by
  have hcut := hall.filter_append_filter
    (p := fun r => decide (r.key < AcceptedSlot.key slot)) (fun hab hb => by
      simp only [decide_eq_true_eq] at hb ⊢
      exact lt_trans hab hb)
  have hpre : all.filter (fun r => decide (r.key < AcceptedSlot.key slot)) =
      before old (some slot) := by
    refine (hall.filter _).ext (hold.filter _) fun r => ?_
    unfold before
    rw [List.mem_filter, List.mem_filter]
    refine ⟨fun ⟨hr, hlt⟩ => ⟨?_, hlt⟩, fun ⟨hr, hlt⟩ => ⟨hsince.kept r hr, hlt⟩⟩
    rcases hsince.new r hr with hr | ⟨slot', heq, hkey⟩
    · exact hr
    · cases heq
      rw [hkey] at hlt
      exact absurd (of_decide_eq_true hlt) (lt_irrefl _)
  rw [hpre] at hcut
  conv_lhs => rw [← hcut]
  simp only [← decide_not, not_lt]

variable {accepted : Option AcceptedSlot}

/-- Without one, it is behind the last result observed. -/
theorem cut_appended {last : ObservedResult} (hold : Ascending ObservedResult.key old)
    (hall : Ascending ObservedResult.key all) (hsince : Since old accepted all)
    (hlast : old.getLast? = some last)
    (hafter : ∀ slot, accepted = some slot → last.key < AcceptedSlot.key slot) :
    all = old ++ all.filter fun r => last.key < r.key := by
  have hcut := hall.filter_append_filter
    (p := fun r => decide (r.key ≤ last.key)) (fun hab hb => by
      simp only [decide_eq_true_eq] at hb ⊢
      exact le_trans (le_of_lt hab) hb)
  have hpre : all.filter (fun r => decide (r.key ≤ last.key)) = old := by
    refine (hall.filter _).ext hold fun r => ?_
    rw [List.mem_filter]
    refine ⟨fun ⟨hr, hle⟩ => ?_, fun hr => ⟨hsince.kept r hr, ?_⟩⟩
    · rcases hsince.new r hr with hr | ⟨slot, heq, hkey⟩
      · exact hr
      · have hlt := hafter slot heq
        rw [← hkey] at hlt
        exact absurd (of_decide_eq_true hle) (not_le.mpr hlt)
    · exact decide_eq_true (hold.le_getLast hlast hr)
  rw [hpre] at hcut
  conv_lhs => rw [← hcut]
  simp only [← decide_not, not_le]

variable {current : StateSnapshot}

/-- A slot behind all that was observed needs no correction. -/
theorem correctionOf_none (hs : Stands lim old current)
    (hafter : ∀ last slot, old.getLast? = some last → accepted = some slot →
      last.key < AcceptedSlot.key slot) :
    correctionOf current accepted = none := by
  unfold correctionOf
  rw [hs.lastAt, hs.lastJob]
  cases hlast : old.getLast? with
  | none => cases accepted <;> rfl
  | some last =>
  cases accepted with
  | none => rfl
  | some slot => exact if_pos (orderAfter_iff.mpr (hafter last slot hlast rfl))

/-- Whatever the evaluation lists, it comes right behind what it starts from. -/
theorem cut {l : Ledger} (hold : Ascending ObservedResult.key old) (hs : Stands lim old current)
    (hsince : Since old accepted (scheduledChecks l m)) :
    scheduledChecks l m = before old (correctionOf current accepted) ++
      listed l m current (correctionOf current accepted) := by
  have hall := ascending_scheduledChecks l m
  by_cases hafter : ∀ last slot, old.getLast? = some last → accepted = some slot →
      last.key < AcceptedSlot.key slot
  · rw [correctionOf_none hs hafter]
    show _ = old ++ listed l m current none
    unfold listed
    rw [hs.lastAt, hs.lastJob]
    cases hlast : old.getLast? with
    | none =>
      -- nothing was observed, so everything is listed
      rw [List.getLast?_eq_none_iff.mp hlast]
      rfl
    | some last => exact cut_appended hold hall hsince hlast fun slot h => hafter last slot hlast h
  · simp only [not_forall, not_lt] at hafter
    obtain ⟨last, slot, hlast, rfl, hle⟩ := hafter
    have hcorr : correctionOf current (some slot) = some slot := by
      unfold correctionOf
      rw [hs.lastAt, hs.lastJob, hlast]
      refine if_neg fun h => ?_
      exact absurd (orderAfter_iff.mp h) (not_lt.mpr hle)
    rw [hcorr]
    exact cut_corrected hold hall hsince

/-! ## One evaluation -/

/-- The newest row before a slot, as a listing shows it. -/
theorem baseline_entry (hold : Ascending ObservedResult.key old)
    (hrec : recorded c m = history lim old) (k : OrderKey) :
    ((orderedEvaluations c m).filter fun e => e.key < k).getLast?.map EvaluatedResult.entry =
      (old.filter fun r => r.key < k).getLast?.map fun r =>
        (r, observation lim (old.filter fun r => r.key < k)) := by
  rw [← getLast?_history, ← filter_history hold, ← hrec, ← List.getLast?_map]
  unfold recorded
  rw [List.filter_map]
  rfl

/-- The state an evaluation goes back to. -/
def baselineOf : Option EvaluatedResult → StateSnapshot
  | none => {}
  | some e =>
    { observed := e.row.observedState
      failures := e.row.consecutiveFailures
      successes := e.row.consecutiveSuccesses
      lastObservedAt := some e.row.scheduledAt
      lastObservedJob := some e.jobId }

theorem stands_baseline {previous : Option EvaluatedResult}
    (h : previous.map EvaluatedResult.entry = pre.getLast?.map fun r => (r, observation lim pre)) :
    Stands lim pre (baselineOf previous) := by
  cases previous with
  | none =>
    have hlast : pre.getLast? = none := Option.map_eq_none_iff.mp h.symm
    rw [List.getLast?_eq_none_iff.mp hlast]
    exact ⟨rfl, rfl, rfl⟩
  | some e =>
  obtain ⟨r, hlast, hr⟩ := Option.map_eq_some_iff.mp h.symm
  have hresult : r = (EvaluatedResult.entry e).1 := congrArg Prod.fst hr
  have hcounters : observation lim pre = (EvaluatedResult.entry e).2 :=
    congrArg Prod.snd hr
  refine ⟨hcounters.symm, ?_, ?_⟩
  · rw [hlast, Option.map_some, hresult]; rfl
  · rw [hlast, Option.map_some, hresult]; rfl

theorem deleteReliabilityEvaluationsFrom_some
    (he : deleteReliabilityEvaluationsFrom m slot.scheduled slot.jobId begun env busy v = some e) :
    Filed v (e.write v) ∧ recorded (e.write v).core m =
        (recorded v.core m).filter (fun p => p.1.key < AcceptedSlot.key slot) ∧
      ∀ j row, (e.write v).core.evaluations.find j = some row →
        v.core.evaluations.find j = some row := by
  obtain ⟨e', he', -, -, hwrite⟩ := onCore_some he
  cases he'
  rw [hwrite]
  refine ⟨⟨rfl, rfl⟩, recorded_keep v.core (AcceptedSlot.key slot), ?_⟩
  intro j row hfind
  have hkeep : (v.core.evaluations.keep fun id _ =>
    !(doomed v.core m (AcceptedSlot.key slot)).contains id).find j = some row := hfind
  rw [Table.find_keep, Option.filter_eq_some_iff] at hkeep
  exact hkeep.1

theorem loadBaseline_returns (correction : Option AcceptedSlot)
    (hold : Ascending ObservedResult.key old) (hrec : recorded v.core m = history lim old)
    (hs : Stands lim old current) (hroot : Rooted v) :
    Returns remote begun (fun b v' => Filed v v' ∧ Rooted v' ∧
      recorded v'.core m = history lim (before old correction) ∧
      Stands lim (before old correction) b)
      (loadBaseline m current correction) v := by
  cases correction with
  | none => exact returns_ok ⟨Filed.refl v, hroot, hrec, hs⟩
  | some slot =>
  refine returns_readCore ?_ (fun _ => ⟨_, rfl⟩)
  refine returns_query (fun env busy e he => returns_ok ?_) (fun _ => ⟨_, rfl⟩)
  obtain ⟨hfiled, hrows, hsub⟩ := deleteReliabilityEvaluationsFrom_some he
  refine ⟨hfiled, fun j row hfind => ?_, ?_, ?_⟩
  · rw [hfiled.ledger]
    exact hroot j row (hsub j row hfind)
  · rw [hrows, hrec]
    exact filter_history hold _
  · exact stands_baseline (baseline_entry hold hrec (AcceptedSlot.key slot))

/-- What an evaluation leaves alone. -/
structure Beside (v v' : Database) : Prop where
  ledger : v'.ledger = v.ledger
  rules : v'.core.rules = v.core.rules
  incidents : v'.core.incidents = v.core.incidents

variable {v' : Database}

theorem Filed.beside (h : Filed v v') : Beside v v' := by
  refine ⟨h.ledger, ?_, ?_⟩ <;> rw [h.core]

theorem Beside.trans (huv : Beside u v) (hvw : Beside v w) : Beside u w :=
  ⟨hvw.ledger.trans huv.ledger, hvw.rules.trans huv.rules, hvw.incidents.trans huv.incidents⟩

theorem displayAt_returns (slot : Option Time) :
    Returns remote begun (fun _ v' => v' = v) (displayAt m slot) v := by
  cases slot with
  | none => exact returns_ok rfl
  | some slot =>
  refine returns_readCore ?_ (fun _ => ⟨_, rfl⟩)
  dsimp only
  split
  · exact returns_ok rfl
  · exact returns_ok rfl

/-- The state row is written over. -/
theorem updateMonitorReliabilityState_some {display : ObservedState} {newest : Option Time}
    {job : Option Uuid} (hrow : v.core.states.find m ≠ none)
    (he : updateMonitorReliabilityState m display s.observed s.failures s.successes
      s.lastObservedAt s.lastObservedJob newest job begun env busy v = some e) :
    ∃ state : ReliabilityState, state.snapshot = { s with display := display } ∧
      e.write v = { v with core := { v.core with
        states := v.core.states.put m state } } := by
  obtain ⟨e', he', -, -, hwrite⟩ := onCore_some he
  rw [hwrite]
  split at he'
  · next hnone => exact absurd hnone hrow
  split at he'
  · cases he'
  · cases he'
    exact ⟨_, rfl, rfl⟩

theorem recordPosition_returns (slot : Option Time) (job : Option Uuid) :
    Returns remote begun (fun _ v' => Aside m v v' ∧ Beside v v')
      (recordPosition m slot job) v := by
  cases slot with
  | none => exact returns_ok ⟨Aside.refl v, rfl, rfl, rfl⟩
  | some slot =>
  refine returns_last fun env busy e he => ?_
  obtain ⟨e', he', -, -, hwrite⟩ := onCore_some he
  cases he'
  rw [hwrite]
  exact ⟨⟨rfl, rfl, rfl, rfl⟩, rfl, rfl, rfl⟩

theorem recordCorrection_returns (correction : Option AcceptedSlot)
    (previous corrected : ObservedState) :
    Returns remote begun (fun _ v' => Aside m v v' ∧ Beside v v')
      (recordCorrection m correction previous corrected) v := by
  cases correction with
  | none => exact returns_ok ⟨Aside.refl v, rfl, rfl, rfl⟩
  | some slot =>
  refine returns_last fun env busy e he => ?_
  obtain ⟨e', he', -, -, hwrite⟩ := onCore_some he
  rw [hwrite]
  split at he'
  · cases he'
    exact ⟨⟨rfl, rfl, rfl, rfl⟩, rfl, rfl, rfl⟩
  · cases he'
    exact ⟨⟨rfl, rfl, rfl, rfl⟩, rfl, rfl, rfl⟩

variable {now : Time}

/-- An evaluation under the lock: from the history of `old` to the history of
all results there are. -/
theorem evaluateLocked_returns (hold : Ascending ObservedResult.key old)
    (hrec : recorded v.core m = history lim old) (hlim : limits v.core m = lim)
    (hs : Stands lim old current) (hroot : Rooted v) (hrow : v.core.states.find m ≠ none)
    (hsince : Since old accepted (scheduledChecks v.ledger m)) :
    Returns remote begun (fun corrected v' => UpToDate m lim v' ∧ Beside v v' ∧
      corrected = (correctionOf current accepted).isSome)
      (evaluateLocked m accepted now current) v := by
  refine returns_readCore ?_ (fun _ => ⟨_, rfl⟩)
  have hthresholds : evaluationLimits (alertThresholds v.core m) =
      (lim.failure, lim.recovery) := by
    rw [← hlim]
    rfl
  dsimp only
  rw [hthresholds]
  have hcut := cut hold hs hsince
  generalize correctionOf current accepted = correction at hcut ⊢
  refine returns_bind (loadBaseline_returns correction hold hrec hs hroot)
    (fun baseline v₁ h₁ => ?_) (fun _ => ⟨_, rfl⟩)
  obtain ⟨hfiled₁, hroot₁, hrec₁, hbase⟩ := h₁
  dsimp only
  rw [listResults_eq]
  refine returns_read ?_ (fun _ => ⟨_, rfl⟩)
  dsimp only
  rw [← hfiled₁.ledger] at hcut
  refine returns_bind (evaluateResults_returns hcut hrec₁ hbase hroot₁)
    (fun final v₂ h₂ => ?_) (fun _ => ⟨_, rfl⟩)
  obtain ⟨hfiled₂, hroot₂, hrec₂, hfinal⟩ := h₂
  have hfiled := hfiled₁.trans hfiled₂
  rw [← hfiled₂.ledger] at hrec₂ hfinal
  dsimp only
  refine returns_readCore ?_ (fun _ => ⟨_, rfl⟩)
  dsimp only
  refine returns_bind (displayAt_returns _) (fun shown v₃ h₃ => ?_) (fun _ => ⟨_, rfl⟩)
  subst h₃
  obtain ⟨display, job⟩ := shown
  dsimp only
  have hrow₃ : v₃.core.states.find m ≠ none := by rw [hfiled.core]; exact hrow
  refine returns_query (fun env busy e he => ?_) (fun _ => ⟨_, rfl⟩)
  obtain ⟨state, hstate, hwrite⟩ := updateMonitorReliabilityState_some hrow₃ he
  rw [hwrite]
  -- the rows are in place: what follows leaves them alone
  have hdone : UpToDate m lim { v₃ with core := { v₃.core with
      states := v₃.core.states.put m state } } := by
    refine ⟨⟨hrec₂, ?_, ?_⟩, hroot₂⟩
    · unfold snapshotOf
      simp only [Table.find_put, hstate]
      exact ⟨hfinal.counters, hfinal.lastAt, hfinal.lastJob⟩
    · rw [← hlim]
      exact limits_congr hfiled.beside.rules m
  have hbeside : Beside v { v₃ with core := { v₃.core with
      states := v₃.core.states.put m state } } :=
    hfiled.beside.trans ⟨rfl, rfl, rfl⟩
  generalize ({ v₃ with core := { v₃.core with
    states := v₃.core.states.put m state } } : Database) = v₄ at hdone hbeside ⊢
  refine returns_bind (recordPosition_returns _ _) (fun _ v₅ h₅ => ?_) (fun _ => ⟨_, rfl⟩)
  refine returns_bind (recordCorrection_returns _ _ _) (fun _ v₆ h₆ => ?_) (fun _ => ⟨_, rfl⟩)
  exact returns_ok ⟨hdone.aside (h₅.1.trans h₆.1), hbeside.trans (h₅.2.trans h₆.2), rfl⟩

/-- The state row is there, in the default state if it was not before. -/
structure Prepared (m : Uuid) (v v' : Database) : Prop where
  beside : Beside v v'
  evaluations : v'.core.evaluations = v.core.evaluations
  snapshot : snapshotOf v'.core m = snapshotOf v.core m

/-- Either nothing happens, or a default row is inserted and locked. -/
theorem ensureMonitorReliabilityState_some
    (he : ensureMonitorReliabilityState m begun env busy v = some e) :
    ((∀ db, e.write db = db) ∧ e.locks = []) ∨ (v.core.states.find m = none ∧ e.locks = [.state m] ∧
        ∃ state : ReliabilityState, state.snapshot = {} ∧
          ∀ db, e.write db = { db with core := { db.core with
            states := db.core.states.put m state } }) := by
  obtain ⟨e', he', -, hlocks, hwrite⟩ := onCore_some he
  split at he'
  · next hmonitor hnone =>
    cases he'
    exact .inr ⟨hnone, hlocks, _, rfl, hwrite⟩
  · cases he'
    exact .inl ⟨hwrite, hlocks⟩

variable {state : ReliabilityState}

/-- A default row is as good as none. -/
theorem prepared_put (hnone : v.core.states.find m = none) (hstate : state.snapshot = {}) :
    Prepared m v { v with core := { v.core with
      states := v.core.states.put m state } } := by
  refine ⟨⟨rfl, rfl, rfl⟩, rfl, ?_⟩
  unfold snapshotOf
  simp only [Table.find_put, hnone, hstate]

theorem lockMonitorReliabilityState_some {e : Effect Database Key (Option ReliabilityState)}
    (he : lockMonitorReliabilityState m begun env busy v = some e) :
    e.value = v.core.states.find m ∧ (∀ db, e.write db = db) ∧
      (v.core.states.find m ≠ none → e.locks = [.state m]) := by
  obtain ⟨e', he', hvalue, hlocks, hwrite⟩ := onCore_some he
  split at he'
  · next hnone =>
    cases he'
    exact ⟨hvalue.trans hnone.symm, hwrite, fun h => absurd hnone h⟩
  · next state hstate =>
    cases he'
    exact ⟨hvalue.trans hstate.symm, hwrite, fun _ => hlocks⟩

/-- What an evaluation is there for: the rows are a history, and of the results
only the accepted one may be missing in it. -/
structure Due (m : Uuid) (lim : Limits) (accepted : Option AcceptedSlot)
    (v : Database) : Prop where
  rooted : Rooted v
  history : ∃ old, Ascending ObservedResult.key old ∧ Evaluated m lim old v.core ∧
    Since old accepted (scheduledChecks v.ledger m)

theorem due_of_upToDate (h : UpToDate m lim v) : Due m lim none v :=
  ⟨h.rooted, _, ascending_scheduledChecks _ _, h.evaluated, ⟨fun _ hr => hr, fun _ hr => .inl hr⟩⟩

/-- The default row changes nothing about that. -/
theorem Due.prepared (h : Due m lim accepted v) (hprep : Prepared m v v') :
    Due m lim accepted v' := by
  obtain ⟨hroot, old, hold, hev, hsince⟩ := h
  refine ⟨?_, old, hold, ⟨?_, ?_, ?_⟩, ?_⟩
  · unfold Rooted
    rw [hprep.beside.ledger, hprep.evaluations]
    exact hroot
  · rw [recorded_congr hprep.evaluations]
    exact hev.rows
  · rw [hprep.snapshot]
    exact hev.state
  · rw [limits_congr hprep.beside.rules]
    exact hev.limits
  · rw [hprep.beside.ledger]
    exact hsince

/-- What an evaluation leaves, seen from the rows it found. -/
structure EvaluatedFrom (m : Uuid) (lim : Limits) (accepted : Option AcceptedSlot)
    (v : Database) (corrected : Bool) (v' : Database) : Prop where
  upToDate : UpToDate m lim v'
  beside : Beside v v'
  corrected : corrected = (correctionOf (snapshotOf v.core m) accepted).isSome

/-- From the moment the state row is locked. -/
theorem Due.locked (h : Due m lim accepted v) (hfound : v.core.states.find m = some state) :
    Returns remote begun (EvaluatedFrom m lim accepted v)
      (evaluateLocked m accepted now state.snapshot) v := by
  obtain ⟨hroot, old, hold, hev, hsince⟩ := h
  have hsnap : snapshotOf v.core m = state.snapshot := by
    unfold snapshotOf
    rw [hfound]
  refine (evaluateLocked_returns hold hev.rows hev.limits (hsnap ▸ hev.state) hroot
    (by rw [hfound]; exact Option.some_ne_none _) hsince).mono ?_
  exact fun _ _ h => ⟨h.1, h.2.1, hsnap ▸ h.2.2⟩

theorem ensureMonitorReliabilityState_prepared
    (he : ensureMonitorReliabilityState m begun env busy v = some e) :
    Prepared m v (e.write v) := by
  rcases ensureMonitorReliabilityState_some he with ⟨hsame, -⟩ |
    ⟨hnone, -, state, hstate, hwrite⟩
  · rw [hsame]
    exact ⟨⟨rfl, rfl, rfl⟩, rfl, rfl⟩
  · rw [hwrite]
    exact prepared_put hnone hstate

/-- From the moment the state row is there. -/
theorem Due.found (h : Due m lim accepted v) : Returns remote begun (EvaluatedFrom m lim accepted v)
      (query (lockMonitorReliabilityState m) >>= fun r => match r with
        | .ok (some state) => evaluateLocked m accepted now state.snapshot
        | _ => pure (.error .database)) v := by
  refine returns_query (fun env busy e he => ?_) (fun _ => ⟨_, rfl⟩)
  obtain ⟨hvalue, hsame, -⟩ := lockMonitorReliabilityState_some he
  rw [hsame, hvalue]
  cases hfound : v.core.states.find m with
  | none => exact returns_error
  | some state => exact h.locked hfound

/-- A whole evaluation, by a transaction that runs undisturbed. -/
theorem evaluateTx_returns (h : Due m lim accepted v) :
    Returns remote begun (EvaluatedFrom m lim accepted v)
      (evaluateTx m accepted now) v := by
  refine returns_query (fun env busy e he => ?_) (fun _ => ⟨_, rfl⟩)
  have hprep := ensureMonitorReliabilityState_prepared he
  refine (h.prepared hprep).found.mono fun corrected v' h' => ?_
  refine ⟨h'.upToDate, hprep.beside.trans h'.beside, ?_⟩
  rw [← hprep.snapshot]
  exact h'.corrected

end WatchTrace.Proofs
