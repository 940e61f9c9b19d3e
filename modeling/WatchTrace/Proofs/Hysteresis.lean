import WatchTrace.Proofs.Ordered
import WatchTrace.Spec.Hysteresis

/-!
# Recovery from an incident

Results are accepted one after the other in the order of their slots, so
nothing is ever corrected and each acceptance appends one result. An incident
that is open then means that the monitor is down, until a relapse breaks the
rule: the monitor is degraded with its incident still open, and the next
success, however lonely, resolves it.
-/

namespace WatchTrace.Proofs

open Tx Tx.Prog Model Spec

variable {m : Uuid} {lim : Limits}

/-! ## Results in the order of their slots -/

/-- The result `r` of monitor `m` is accepted in time, by a call that runs
alone. -/
def Accepts (m : Uuid) (r : ObservedResult) (db db' : Database) : Prop :=
  ∃ (env : Nat → Env) (evaluatedAt : Time) (job : LockedJob) (result : Result),
    job.row.monitorId = m ∧ job.row.jobType = .scheduled ∧
    evaluatedAt ≤ job.row.expiresAt + correctionWindow ∧
    observedResult job result = r ∧
    alone env (acceptance evaluatedAt job result) db = (.ok (), db')

variable {r : ObservedResult} {db db' : Database}

theorem Accepts.step (h : Accepts m r db db') (hup : UpToDate m lim db) :
    AcceptStep m lim db r db' := by
  obtain ⟨env, evaluatedAt, job, result, hm, ht, hin, rfl, hdone⟩ := h
  rcases acceptance_alone env result hup hm ht hin with
    ⟨db'', heq, hstep⟩ | ⟨f, heq⟩
  · rw [hdone] at heq
    cases heq
    exact hstep
  · rw [hdone] at heq
    cases heq

/-- The results `rs` are accepted in the order of their slots. -/
inductive AcceptedInOrder (m : Uuid) (db₀ : Database) :
    List ObservedResult → Database → Prop
  | nil : AcceptedInOrder m db₀ [] db₀
  | concat {rs : List ObservedResult} {db db' : Database} {r : ObservedResult}
      (hrs : AcceptedInOrder m db₀ rs db) (hlast : ∀ r' ∈ rs, r'.key < r.key)
      (hr : Accepts m r db db') : AcceptedInOrder m db₀ (rs ++ [r]) db'

variable {rs : List ObservedResult}

/-- One more result, behind all others. -/
theorem AcceptStep.results_concat (h : AcceptStep m lim db r db')
    (hrs : scheduledChecks db.ledger m = rs) (hlast : ∀ r' ∈ rs, r'.key < r.key) :
    scheduledChecks db'.ledger m = rs ++ [r] := by
  have hasc := ascending_scheduledChecks db.ledger m
  rw [hrs] at hasc
  refine (ascending_scheduledChecks _ _).ext (hasc.append_singleton hlast) fun r' => ?_
  rw [h.results, hrs, List.mem_append, List.mem_singleton]

/-- Nothing is corrected then. -/
theorem correctionOf_concat {s : StateSnapshot} (hs : Stands lim rs s)
    (hlast : ∀ r' ∈ rs, r'.key < r.key) :
    correctionOf s (some (ObservedResult.slot r)) = none := by
  refine correctionOf_none hs fun last slot hl hslot => ?_
  cases hslot
  exact hlast last (List.mem_of_getLast? hl)

/-! ## Open incidents -/

/-- An open incident of the monitor. -/
def OpenFor (m : Uuid) (c : Core) (id : Uuid) (incident : Incident) : Prop :=
  c.incidents.find id = some incident ∧ incident.monitorId = m ∧ incident.status = .isOpen

variable {c c' : Core} {id : Uuid} {incident : Incident}

theorem openFor_congr (h : c'.incidents = c.incidents) :
    OpenFor m c' id incident ↔ OpenFor m c id incident := by
  unfold OpenFor
  rw [h]

/-- What a look finds under a rule is an open incident of the monitor. -/
theorem openFor_of_openIncidentOf {ruleId : Uuid} (h : openIncidentOf c m ruleId = some id) :
    ∃ incident, OpenFor m c id incident ∧ incident.alertRuleId = ruleId := by
  obtain ⟨incident, hfind, hm, hrule, hopen⟩ := openIncidentOf_some h
  exact ⟨incident, ⟨hfind, hm, hopen⟩, hrule⟩

/-- Every open incident of the monitor is the one of its rule, and the monitor
is down. -/
structure Watched (m : Uuid) (c : Core) : Prop where
  rule : ∀ {id incident}, OpenFor m c id incident →
    ∃ rule, InForce c m rule ∧ incident.alertRuleId = rule.id
  unique : ∀ {id id' incident incident'}, OpenFor m c id incident →
    OpenFor m c id' incident' → id = id'
  down : ∀ {id incident}, OpenFor m c id incident → (snapshotOf c m).observed = .down

/-- What an acceptance does to the core, as far as incidents are concerned:
`mid` is the core its application finds. -/
structure Applies (m : Uuid) (corrected : Bool) (c mid c' : Core) : Prop where
  incidents : mid.incidents = c.incidents
  states : mid.states = c'.states
  row : c'.states.find m ≠ none
  rules : ∀ rule, c.rules.find m = some rule → c'.rules.find m = some rule
  applied : Applied m corrected mid c'

variable {corrected : Bool} {mid : Core}

variable {rule : AlertRule}

theorem Applies.inForce (h : Applies m corrected c mid c') (hrule : InForce c m rule) :
    InForce c' m rule := ⟨h.rules rule hrule.1, hrule.2⟩

theorem Applies.observed (h : Applies m corrected c mid c') : snapshotOf mid m = snapshotOf c' m :=
  snapshotOf_congr h.states m

/-- Nothing is open under a rule without an open incident. -/
theorem Watched.none_open (hw : Watched m c) (h : Applies m corrected c mid c')
    (hrule : InForce c' m rule) (hnone : openIncidentOf mid m rule.id = none) :
    ¬ OpenFor m c id incident := by
  intro hopen
  obtain ⟨rule', hrule', hid⟩ := hw.rule hopen
  have hsame : rule' = rule :=
    Option.some.inj ((h.inForce hrule').1.symm.trans hrule.1)
  obtain ⟨hfind, hm, hstatus⟩ := (openFor_congr h.incidents).mpr hopen
  exact openIncidentOf_none hnone hfind hm (hid.trans (by rw [hsame])) hstatus

/-- If a monitor that was down is down or healthy afterwards, its incidents stay
watched. -/
theorem Watched.applies (hw : Watched m c) (h : Applies m false c mid c')
    (hstay : (snapshotOf c m).observed = .down →
      (snapshotOf c' m).observed = .down ∨ (snapshotOf c' m).observed = .healthy) :
    Watched m c' := by
  have hsnap := h.observed
  cases h.applied with
  | idle hsame hwhy =>
    have hopen : ∀ {id incident}, OpenFor m c' id incident → OpenFor m c id incident :=
      fun ho => (openFor_congr h.incidents).mp ((openFor_congr hsame).mp ho)
    refine ⟨fun ho => ?_, fun ho ho' => hw.unique (hopen ho) (hopen ho'), fun ho => ?_⟩
    · obtain ⟨rule, hrule, hid⟩ := hw.rule (hopen ho)
      exact ⟨rule, h.inForce hrule, hid⟩
    · obtain ⟨rule, hrule, hid⟩ := hw.rule (hopen ho)
      rw [hsnap, h.states] at hwhy
      rcases hwhy rule (h.inForce hrule) with hrow | hnone | hdown | ⟨-, hsick⟩
      · exact absurd hrow h.row
      · exact absurd (hopen ho) (hw.none_open h (h.inForce hrule) hnone)
      · exact hdown
      · exact (hstay (hw.down (hopen ho))).resolve_right hsick
  | @opened rule id incident now hrule hdown hnone hfree hnew hput =>
    -- the new incident is the only one
    have honly : ∀ {id' incident'}, OpenFor m c' id' incident' →
        id' = id ∧ incident' = incident := by
      intro id' incident' ho
      have hfind := ho.1
      rw [hput] at hfind
      rcases Table.find_put_some.mp hfind with hsame | ⟨-, hold⟩
      · exact hsame
      · have hopen : OpenFor m mid id' incident' := ⟨hold, ho.2⟩
        exact absurd ((openFor_congr h.incidents).mp hopen) (hw.none_open h hrule hnone)
    refine ⟨fun ho => ⟨rule, hrule, ?_⟩, fun ho ho' => ?_, fun _ => hsnap ▸ hdown⟩
    · rw [(honly ho).2]
      exact hnew.rule
    · rw [(honly ho).1, (honly ho').1]
  | resolved hrule hup hopen hfind hkind hclosed hput =>
    -- the incident that was open is not, and there was no other
    obtain ⟨incident, hmid, -⟩ := openFor_of_openIncidentOf hopen
    have hfirst := (openFor_congr h.incidents).mp hmid
    have hnone : ∀ {id' incident'}, ¬ OpenFor m c' id' incident' := by
      intro id' incident' ho
      have hfound := ho.1
      rw [hput] at hfound
      rcases Table.find_put_some.mp hfound with ⟨-, rfl⟩ | ⟨hne, hold'⟩
      · have := ho.2.2
        rw [hclosed.status] at this
        cases this
      · have hother : OpenFor m c id' incident' :=
          (openFor_congr h.incidents).mp ⟨hold', ho.2⟩
        exact hne (hw.unique hother hfirst)
    exact ⟨fun ho => absurd ho hnone, fun ho => absurd ho hnone, fun ho => absurd ho hnone⟩

/-- An incident that an application resolves was open under the rule. -/
theorem Applies.resolves (h : Applies m false c mid c') {incident' : Incident}
    (hbefore : c.incidents.find id = some incident) (hopen : incident.status = .isOpen)
    (hafter : c'.incidents.find id = some incident') (hresolved : incident'.status = .resolved) :
    OpenFor m c id incident ∧ (snapshotOf c' m).observed = .healthy := by
  rw [← h.incidents] at hbefore
  have hkept : c'.incidents.find id ≠ mid.incidents.find id := by
    intro hsame
    rw [hafter, hbefore] at hsame
    cases hsame
    rw [hopen] at hresolved
    cases hresolved
  cases h.applied with
  | idle hsame => exact absurd (by rw [hsame]) hkept
  | @opened rule id' incident'' now hrule hdown hnone hfree hnew hput =>
    have hne : id ≠ id' := by
      rintro rfl
      rw [hbefore] at hfree
      cases hfree
    exact absurd (by rw [hput, Table.find_put_ne _ _ hne]) hkept
  | @resolved rule id' old new kind hrule hup hsome hfind hkind hclosed hput =>
  obtain rfl : id = id' := by
    by_contra hne
    exact hkept (by rw [hput, Table.find_put_ne _ _ hne])
  obtain ⟨incident₀, hmid, -⟩ := openFor_of_openIncidentOf hsome
  have heq : incident₀ = incident :=
    Option.some.inj (hmid.1.symm.trans hbefore)
  refine ⟨(openFor_congr h.incidents).mp (heq ▸ hmid), ?_⟩
  rw [← h.observed]
  simp only [Bool.false_eq_true, if_false] at hkind
  exact hkind.2

/-! ## Runs -/

/-- Nothing of the monitor has been observed, and no incident of it is open. -/
structure Untroubled (m : Uuid) (db : Database) : Prop where
  unobserved : Unobserved m db
  quiet : ∀ id incident, ¬ OpenFor m db.core id incident

/-- The state of affairs after results that were accepted in order. -/
structure Followed (m : Uuid) (lim : Limits) (rs : List ObservedResult)
    (db : Database) : Prop where
  upToDate : UpToDate m lim db
  results : scheduledChecks db.ledger m = rs
  watched : Watched m db.core

theorem followed_nil (h : Untroubled m db) : Followed m (limits db.core m) [] db :=
  ⟨h.unobserved.upToDate, h.unobserved.checks,
    ⟨fun ho => absurd ho (h.quiet _ _), fun ho => absurd ho (h.quiet _ _),
      fun ho => absurd ho (h.quiet _ _)⟩⟩

/-- One acceptance behind all others, as the incidents see it. -/
theorem Followed.applies (h : Followed m lim rs db) (hlast : ∀ r' ∈ rs, r'.key < r.key)
    (hr : AcceptStep m lim db r db') :
    scheduledChecks db'.ledger m = rs ++ [r] ∧
      ∃ mid, Applies m false db.core mid db'.core := by
  have hresults := hr.results_concat h.results hlast
  refine ⟨hresults, ?_⟩
  obtain ⟨mid, hincidents, -, hstates, happ⟩ := hr.applied
  have hstands := h.upToDate.evaluated.state
  rw [h.results] at hstands
  rw [correctionOf_concat hstands hlast] at happ
  refine ⟨mid, hincidents, hstates, hr.upToDate.state_row ?_, hr.rules, happ⟩
  rw [hresults]
  simp

theorem Followed.observed (h : Followed m lim rs db) :
    (snapshotOf db.core m).observed = (observation lim rs).1 := by
  rw [h.upToDate.observed, h.results]

theorem Followed.concat (hrec : 1 ≤ lim.recovery) (h : Followed m lim rs db)
    (hlast : ∀ r' ∈ rs, r'.key < r.key) (hr : AcceptStep m lim db r db')
    (hno : ¬ Relapse lim (rs ++ [r])) : Followed m lim (rs ++ [r]) db' := by
  obtain ⟨hresults, mid, happ⟩ := h.applies hlast hr
  refine ⟨hr.upToDate, hresults, h.watched.applies happ fun hdown => ?_⟩
  rw [h.observed] at hdown
  rw [hr.upToDate.observed, hresults]
  rcases down_concat hrec hdown with hstay | ⟨hwell, -⟩ | hrel
  · exact .inl hstay
  · exact .inr hwell
  · exact absurd hrel hno

theorem AcceptedInOrder.followed {db₀ : Database} (h₀ : Untroubled m db₀)
    (hrec : 1 ≤ (limits db₀.core m).recovery) (h : AcceptedInOrder m db₀ rs db)
    (hno : ¬ Relapse (limits db₀.core m) rs) :
    Followed m (limits db₀.core m) rs db := by
  induction h with
  | nil => exact followed_nil h₀
  | @concat rs db db' r hrs hlast hr ih =>
    have hfollowed := ih fun hrel => hno (hrel.mono (List.prefix_append _ _))
    exact hfollowed.concat hrec hlast (hr.step hfollowed.upToDate) hno

/-- An acceptance that resolves an incident as recovered comes with the result
that completes the recovery. -/
def ResolvesRecovered (m : Uuid) (lim : Limits) (rs : List ObservedResult) : Prop :=
  ∀ db₀ pre r db db', pre ++ [r] <+: rs → Untroubled m db₀ →
    limits db₀.core m = lim → AcceptedInOrder m db₀ pre db →
    (∀ r' ∈ pre, r'.key < r.key) → Accepts m r db db' →
    ∀ id incident incident', db.core.incidents.find id = some incident →
      incident.status = .isOpen → db'.core.incidents.find id = some incident' →
      incident'.status = .resolved →
      incident'.resolutionKind = some .automaticRecovery →
      Newest lim.recovery true (pre ++ [r])

theorem resolvesRecovered_of_no_relapse (hrec : 1 ≤ lim.recovery) (hno : ¬ Relapse lim rs) :
    ResolvesRecovered m lim rs := by
  intro db₀ pre r db db' hprefix h₀ hlim hpre hlast hr id incident incident' hbefore
    hopen hafter hresolved _
  subst hlim
  have hno' : ¬ Relapse (limits db₀.core m) (pre ++ [r]) :=
    fun hrel => hno (hrel.mono hprefix)
  have hfollowed := hpre.followed h₀ hrec fun hrel => hno' (hrel.mono (List.prefix_append _ _))
  have hstep := hr.step hfollowed.upToDate
  obtain ⟨hresults, mid, happ⟩ := hfollowed.applies hlast hstep
  obtain ⟨hfor, hwell⟩ := happ.resolves hbefore hopen hafter hresolved
  -- it was open, so the monitor was down, and now it is healthy
  have hdown := hfollowed.watched.down hfor
  rw [hfollowed.observed] at hdown
  rw [hstep.upToDate.observed, hresults] at hwell
  rcases down_concat hrec hdown with hstay | ⟨-, hnew⟩ | hrel
  · rw [hwell] at hstay
    cases hstay
  · exact hnew
  · exact absurd hrel hno'

/-- Recovery hysteresis holds for exactly the sequences without a relapse. -/
theorem recovery_hysteresis (m : Uuid) (failure recovery : Threshold) (rs : List ObservedResult) :
    (LeavesDownRecovered ⟨failure.val, recovery.val⟩ rs ∧
      ResolvesRecovered m ⟨failure.val, recovery.val⟩ rs) ↔
    ¬ Relapse ⟨failure.val, recovery.val⟩ rs := by
  have hleaves : LeavesDownRecovered ⟨failure.val, recovery.val⟩ rs ↔
      ¬ Relapse ⟨failure.val, recovery.val⟩ rs :=
    leavesDownRecovered_iff failure.2.1 recovery.2.1 rs
  constructor
  · rintro ⟨hlaw, -⟩
    exact hleaves.mp hlaw
  · intro hno
    exact ⟨hleaves.mpr hno, resolvesRecovered_of_no_relapse recovery.2.1 hno⟩

namespace Sample

/-- Minute `n` of a day on which three failures are followed by a success, a
failure and a success. -/
def relapsing (n : Nat) : Bool := n == 4 || n == 6

def relapse (n : Nat) : List ObservedResult :=
  (List.range n).map fun k => observedResult (slot (k + 1)) (outcome (k + 1) (relapsing (k + 1)))

/-- The environment of the call for minute `n`: every identifier is new. -/
def minuteOf (n : Nat) : Nat → Env := fun k => moment (60 * n) (1000 * n + k) 0

def accepted (n : Nat) (db : Database) : Except Failure Unit × Database :=
  alone (minuteOf n) (arriving n (relapsing n)) db

/-- The rows after the first `n` results. -/
def relapsed : Nat → Database
  | 0 => blank
  | n + 1 => (accepted (n + 1) (relapsed n)).2

theorem relapse_succ (n : Nat) : relapse (n + 1) = relapse n ++
    [observedResult (slot (n + 1)) (outcome (n + 1) (relapsing (n + 1)))] := by
  simp [relapse, List.range_succ]

/-- The slots of later minutes lie behind those of earlier ones. -/
theorem relapse_last (n : Nat) : ∀ r ∈ relapse n, r.key <
    (observedResult (slot (n + 1)) (outcome (n + 1) (relapsing (n + 1)))).key := by
  intro r hr
  obtain ⟨k, hk, rfl⟩ := List.mem_map.mp hr
  have hlt : k < n := List.mem_range.mp hk
  rw [ObservedResult.key, ObservedResult.key, orderKey, orderKey, Prod.Lex.toLex_lt_toLex]
  left
  show ((k + 1 : Nat) : Int) * minute < ((n + 1 : Nat) : Int) * minute
  have hpos : (0 : Int) < minute := by decide
  exact (Int.mul_lt_mul_right hpos).mpr (by omega)

theorem relapsed_accepts {n : Nat} (h : (accepted (n + 1) (relapsed n)).1 = .ok ()) :
    Accepts 1 (observedResult (slot (n + 1)) (outcome (n + 1) (relapsing (n + 1))))
      (relapsed n) (relapsed (n + 1)) := by
  have hin : ((n + 1 : Nat) : Int) * minute ≤
      (slot (n + 1)).row.expiresAt + correctionWindow := by
    have : (0 : Int) ≤ 120 * second + correctionWindow := by decide
    show _ ≤ ((n + 1 : Nat) : Int) * minute + 120 * second + correctionWindow
    omega
  exact ⟨minuteOf (n + 1), _, _, _, rfl, rfl, hin, rfl, Prod.ext h rfl⟩

theorem relapse_accepted : ∀ n, (∀ k < n, (accepted (k + 1) (relapsed k)).1 = .ok ()) →
    AcceptedInOrder 1 blank (relapse n) (relapsed n)
  | 0, _ => .nil
  | n + 1, h => by
      rw [relapse_succ]
      exact .concat (relapse_accepted n fun k hk => h k (by omega)) (relapse_last n)
        (relapsed_accepts (h n (by omega)))

theorem untroubled_blank : Untroubled 1 blank := by
  refine ⟨unobserved_blank, fun id incident h => ?_⟩
  have hfind := h.1
  rw [show blank.core.incidents.find id = none from Table.find_empty id] at hfind
  cases hfind

end Sample

open Sample

/-- With the default thresholds: after three failures and a success, a failure
takes the monitor out of the state down, and the next success, the only one in
a row, resolves the incident as recovered. -/
theorem relapse_breaks_hysteresis : ¬ LeavesDownRecovered ⟨3, 2⟩ (relapse 6) ∧
      ¬ ResolvesRecovered 1 ⟨3, 2⟩ (relapse 6) := by
  have hok : ∀ k < 6, (accepted (k + 1) (relapsed k)).1 = .ok () := by
    decide +kernel
  constructor
  · intro hlaw
    have hnew := hlaw (relapse 4) _ ⟨_, rfl⟩ (by decide +kernel) (by decide +kernel)
    rw [← relapse_succ, newest_iff] at hnew
    revert hnew
    decide +kernel
  · intro hlaw
    have hbefore : ((relapsed 5).core.incidents.find 3016).any
        (fun i => i.status == .isOpen) = true := by decide +kernel
    have hafter : ((relapsed 6).core.incidents.find 3016).any (fun i => i.status == .resolved &&
          i.resolutionKind == some .automaticRecovery) = true := by decide +kernel
    obtain ⟨incident, hfind, hopen⟩ := (Option.any_eq_true _ _).mp hbefore
    obtain ⟨incident', hfind', hdone⟩ := (Option.any_eq_true _ _).mp hafter
    simp only [Bool.and_eq_true, beq_iff_eq] at hopen hdone
    have hnew := hlaw blank (relapse 5) _ _ _
      (relapse_succ 5 ▸ List.prefix_refl _) untroubled_blank rfl
      (relapse_accepted 5 fun k hk => hok k (by omega)) (relapse_last 5)
      (relapsed_accepts (hok 5 (by omega))) 3016 incident incident' hfind hopen
      hfind' hdone.1 hdone.2
    rw [← relapse_succ, newest_iff] at hnew
    revert hnew
    decide +kernel

end WatchTrace.Proofs
