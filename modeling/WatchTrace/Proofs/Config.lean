import WatchTrace.Proofs.Issued

/-!
# What a result leaves as it is

Accepting a result, evaluating its monitor and settling incidents write what
is derived from checks. What people have configured (monitors and their
schedules, worker pools and their credentials, members) they only read. One
lemma for each statement; for the calls it follows from the text.
-/

namespace WatchTrace.Proofs

open Tx Model Spec

/-- Two cores with the same configuration. -/
structure SameConfig (c c' : Core) : Prop where
  monitors : c'.monitors = c.monitors
  periods : c'.periods = c.periods
  pools : c'.pools = c.pools
  credentials : c'.credentials = c.credentials
  members : c'.members = c.members
  users : c'.users = c.users

theorem SameConfig.refl (c : Core) : SameConfig c c := ⟨rfl, rfl, rfl, rfl, rfl, rfl⟩

theorem SameConfig.trans {c d e : Core} (h : SameConfig c d) (h' : SameConfig d e) :
    SameConfig c e :=
  { monitors := h'.monitors.trans h.monitors
    periods := h'.periods.trans h.periods
    pools := h'.pools.trans h.pools
    credentials := h'.credentials.trans h.credentials
    members := h'.members.trans h.members
    users := h'.users.trans h.users }

/-- A write to derived rows only. -/
def Derived (w : Database → Database) : Prop :=
  ∀ db, SameConfig db.core (w db).core

theorem derived_id : Derived id := fun db => .refl db.core

theorem Derived.comp {v w : Database → Database} (hv : Derived v) (hw : Derived w) :
    Derived fun db => w (v db) :=
  fun db => (hv db).trans (hw (v db))

/-- A statement that writes to derived rows only. -/
def WritesDerived {β : Type} (q : Stmt β) : Prop :=
  ∀ begun env busy db e, q begun env busy db = some e → Derived e.write

section

variable {β : Type}

theorem writesDerived_core {q : Tx.Stmt Core Key Env β}
    (h : ∀ {begun env busy c e}, q begun env busy c = some e →
      ∀ c, SameConfig c (e.write c)) : WritesDerived (onCore q) := by
  intro begun env busy db e he u
  obtain ⟨e', he', -, -, hwrite⟩ := onCore_some he
  rw [hwrite]
  exact h he' u.core

theorem writesDerived_ledger (q : Tx.Stmt Ledger Key Env β) :
    WritesDerived (onLedger q) := by
  intro begun env busy db e he u
  obtain ⟨e', -, rfl⟩ := onLedger_some he
  exact .refl u.core

theorem writesDerived_journal (q : Tx.Stmt Journal Key Env β) :
    WritesDerived (onJournal q) := by
  intro begun env busy db e he u
  obtain ⟨e', he', rfl⟩ := Option.map_eq_some_iff.mp he
  exact .refl u.core

theorem writesDerived_read (f : Database → β) : WritesDerived (.read f) := by
  intro begun env busy db e he u
  cases he
  exact .refl u.core

theorem writesDerived_readCore (f : Core → β) : WritesDerived (onCore (.read f)) := by
  refine writesDerived_core fun he c => ?_
  cases he
  exact .refl c

end

/-! No branch of any of these statements writes to what is configured. -/

/-- The statements of an evaluation. -/
theorem evaluates_derived (monitorId : Uuid) : Evaluates WritesDerived monitorId := by
  constructor
  case reads =>
    intro β f
    exact writesDerived_readCore f
  all_goals
    intros
    refine writesDerived_core fun he c => ?_
    repeat' split at he
    all_goals cases he
    all_goals exact ⟨rfl, rfl, rfl, rfl, rfl, rfl⟩

/-- The statements about incidents. -/
theorem reacts_derived : Reacts WritesDerived := by
  constructor
  case reads =>
    intro β f
    exact writesDerived_readCore f
  case journal =>
    intro β a
    exact writesDerived_journal _
  all_goals
    intros
    refine writesDerived_core fun he c => ?_
    try dsimp only at he
    repeat' split at he
    all_goals cases he
    all_goals exact ⟨rfl, rfl, rfl, rfl, rfl, rfl⟩

/-! ## `ConsumeNext` -/

theorem consumes_derived : Consumes WritesDerived where
  reads := fun f => writesDerived_read f
  accepted := fun _ => writesDerived_ledger _
  lock := by
    intro keyId jobId begun env busy db e he u
    unfold lockResultCheckJob at he
    repeat' split at he
    all_goals cases he
    all_goals exact .refl u.core
  conflict := fun _ _ _ _ _ => writesDerived_ledger _
  quarantine := fun _ _ _ _ _ => writesDerived_ledger _
  repair := fun _ => writesDerived_ledger _
  accept := fun _ _ _ => writesDerived_ledger _
  complete := fun _ _ => writesDerived_ledger _
  recover := fun _ _ => writesDerived_ledger _
  reacts := reacts_derived
  evaluates := evaluates_derived

theorem consumeNext_confined (P : Primitives) : Prog.Confined Derived (consumeNext P) :=
  (consumeNext_within consumes_derived P).mono fun h => h

end WatchTrace.Proofs
