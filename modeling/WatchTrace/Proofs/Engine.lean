import WatchTrace.Proofs.Consumer
import WatchTrace.Proofs.Maintenance
import WatchTrace.Proofs.Scheduler
import WatchTrace.Tx.Terms

/-!
# The engine

All calls of the FIFO path together, in any number and any interleaving, with
any call that leaves the ledger alone running in between: evaluations, the
incident service, changes of configuration. The theorems of the previous files
make every step of such a run a move of the protocol, and what is left for a
guarantee about runs is a question about moves.
-/

namespace WatchTrace.Proofs

open Tx Model Spec Protocol

/-! ## Bystanders -/

/-- A call that writes no row of the ledger, and neither sends, pulls nor
acknowledges. -/
def Bystander {α : Type} : Prog α → Prop
  | .ret _ => True
  | .start k => ∀ r, Bystander (k r)
  | .query q k =>
    (∀ begun env busy db e, q begun env busy db = some e → Apart e.write) ∧ ∀ r, Bystander (k r)
  | .commit k => ∀ r, Bystander (k r)
  | .rollback k => Bystander k
  | .call c k => (∀ i r w, remote.observe i c r w = w) ∧ ∀ r, Bystander (k r)

section

variable {α β : Type}

/-- A bystander may commit whatever it has written: the ledger is the same. -/
theorem bystander_meets {P : Primitives} {p : Prog α} (hp : Bystander p)
    {i : Nat} {ses : Session Database Key Env} {x : State}
    (hses : ∀ o, ses = .active o → Apart o.write) (hx : WellFormed x.1.ledger) :
    (fifo P).Meets remote i p ses .idle x := by
  induction p generalizing ses x with
  | ret r => trivial
  | start next ih =>
    refine ⟨fun env y hy => ih _ (hp _) ?_ (hy hx).1, fun y hy => ih _ (hp _) of_idle (hy hx).1⟩
    intro o ho
    cases ho
    exact fun _ => rfl
  | query q next ih =>
    cases ses with
    | idle => exact fun y hy => ih _ (hp.2 _) of_idle (hy hx).1
    | failed => exact fun y hy => ih _ (hp.2 _) of_failed (hy hx).1
    | active o =>
    refine ⟨fun env busy => ?_, fun y hy => ih _ (hp.2 _) of_failed (hy hx).1⟩
    cases he : q o.begun env busy (o.write x.1) with
    | none => exact fun y hy => ih _ (hp.2 _) of_failed (hy hx).1
    | some e =>
    refine fun y hy => ih _ (hp.2 _) ?_ (hy hx).1
    intro o' ho'
    cases ho'
    intro db
    show (e.write (o.write db)).ledger = db.ledger
    rw [hp.1 _ _ _ _ _ he]
    exact hses o rfl db
  | commit next ih =>
    cases ses with
    | idle | failed => exact fun y hy => ih _ (hp _) of_idle (hy hx).1
    | active o =>
    have hsame := hses o rfl x.1
    have hc : Commit o.locks x.1.ledger (o.write x.1).ledger := by
      rw [hsame]
      exact Commit.refl _ hx
    have hwf : WellFormed (o.write x.1).ledger := by
      rw [hsame]
      exact hx
    exact ⟨⟨.idle, moves_commit hc, fun y hy => ih _ (hp _) of_idle (hy hwf).1,
      fun y hy => ih _ (hp _) of_idle (hy hwf).1⟩,
      fun y hy => ih _ (hp _) of_idle (hy hx).1⟩
  | rollback next ih => exact fun y hy => ih hp of_idle (hy hx).1
  | call c next ih =>
    intro env
    rw [hp.1]
    exact ⟨.idle, ⟨.stay _ _, fun _ _ => (fifo P).rely_refl _ _⟩,
      fun y hy => ih _ (hp.2 _) hses (hy hx).1⟩

end

/-! ## Every call of the engine -/

variable {P : Primitives}

/-- The calls that run side by side. -/
inductive Engine (P : Primitives) : Prog Unit → Prop
  | scheduleDue (platformKeyId : String) (batch : Nat) :
      Engine P (scheduleDue P platformKeyId batch >>= fun _ => pure ())
  | testNow (signingKeyId : String) (userId environmentId monitorId : Uuid) :
      Engine P (testNow P signingKeyId userId environmentId monitorId >>= fun _ => pure ())
  | publishNext : Engine P (publishNext >>= fun _ => pure ())
  | reclaimPublisherLeases : Engine P (reclaimPublisherLeases >>= fun _ => pure ())
  | consumeNext : Engine P (consumeNext P >>= fun _ => pure ())
  | sweepDeadlines : Engine P (sweepDeadlines >>= fun _ => pure ())
  | reconcileNext : Engine P (reconcileNext P >>= fun _ => pure ())
  | bystander (p : Prog Unit) (hp : Bystander p) : Engine P p

theorem engine_meets {p : Prog Unit} (hp : Engine P p) (i : Nat) (x : State)
    (hx : (fifo P).good x) : (fifo P).Meets remote i p .idle (fifo P).init x := by
  cases hp with
  | scheduleDue => exact (scheduleDue_meets hx).void
  | testNow => exact (testNow_meets hx).void
  | publishNext => exact (publishNext_meets hx).void
  | reclaimPublisherLeases => exact (reclaimPublisherLeases_meets hx).void
  | consumeNext => exact (consumeNext_meets hx).void
  | sweepDeadlines => exact (sweepDeadlines_meets hx).void
  | reconcileNext => exact (reconcileNext_meets hx).void
  | bystander _ hp => exact bystander_meets hp of_idle hx

/-! ## Runs -/

abbrev System := Sys Database Key Env Call World

/-- Nothing has happened yet: no job was ever created, no message sent. The
configuration is whatever it is. -/
def Initial (s : System) : Prop :=
  ∃ core journal, s = Sys.quiet ⟨Ledger.empty, core, journal⟩ World.empty

/-- Some run of the engine leads from `s` to `s'`. -/
def Run (P : Primitives) : System → System → Prop := Steps remote (Engine P)

def Reachable (P : Primitives) (s : System) : Prop := ∃ s₀, Initial s₀ ∧ Run P s₀ s

variable {s s' : System}

theorem Reachable.trans (hs : Reachable P s) (h : Run P s s') :
    Reachable P s' := by
  obtain ⟨s₀, hinit, hrun⟩ := hs
  exact ⟨s₀, hinit, Relation.ReflTransGen.trans hrun h⟩

abbrev Abs := State × List Local

theorem unconditional (h : Run P s s') : Relation.ReflTransGen
      (fun t t' => Step remote (Engine P) t t' ∧ True) s s' := by
  exact h.lift id fun _ _ hstep => ⟨hstep, trivial⟩

variable {I : Abs → Prop}

/-- The invariant rule, for runs whose steps all satisfy `C`. -/
theorem run_invariant {C : Database → Database → Prop}
    (hInv : ∀ {p q : Abs}, AbsStep (fifo P) p q → C p.1.1 q.1.1 →
      WellFormed p.1.1.ledger → I p → I q) {as : List Local}
    (hrel : Related (fifo P) remote s as) (hs : I ((s.db, s.world), as))
    (hrun : Relation.ReflTransGen (fun t t' => Step remote (Engine P) t t' ∧ C t.db t'.db) s s') :
    ∃ as', Related (fifo P) remote s' as' ∧ I ((s'.db, s'.world), as') :=
  invariant (fun _ hp i x hx => engine_meets hp i x hx) hInv hrel hs hrun

theorem initial_related (h : Initial s) :
    Related (fifo P) remote s [] := by
  obtain ⟨core, journal, rfl⟩ := h
  have hgood : (fifo P).good (⟨Ledger.empty, core, journal⟩, World.empty) :=
    wellFormed_empty
  exact related_quiet hgood

/-- The invariant rule, for all runs. -/
theorem reachable_invariant
    (h₀ : ∀ core journal, I ((⟨Ledger.empty, core, journal⟩, World.empty), []))
    (hInv : ∀ {p q : Abs}, AbsStep (fifo P) p q →
      WellFormed p.1.1.ledger → I p → I q) (hs : Reachable P s) :
    ∃ as, Related (fifo P) remote s as ∧ I ((s.db, s.world), as) := by
  obtain ⟨s₀, hinit, hrun⟩ := hs
  have hrel := initial_related (P := P) hinit
  obtain ⟨core, journal, rfl⟩ := hinit
  exact run_invariant (C := fun _ _ => True) (fun hstep _ => hInv hstep) hrel
    (h₀ core journal) (unconditional hrun)

/-- A move changes the ledger by one transaction, if at all. -/
theorem absStep_ledger {p q : Abs} (h : AbsStep (fifo P) p q) :
    q.1.1 = p.1.1 ∨ ∃ L, Commit L p.1.1.ledger q.1.1.ledger := by
  cases h with
  | spawn => exact .inl rfl
  | move _ hm => exact hm.world_or_commit

/-- What every transaction keeps of the ledger holds along every run. -/
theorem ledger_invariant {I : Ledger → Prop}
    (hI : ∀ {L x y}, WellFormed x → Commit L x y → I x → I y) (hs : Reachable P s)
    (h : I s.db.ledger) (hrun : Run P s s') :
    I s'.db.ledger := by
  obtain ⟨as, hrel, -⟩ := reachable_invariant (I := fun _ => True)
    (fun _ _ => trivial) (fun _ _ _ => trivial) hs
  obtain ⟨as', -, hI'⟩ := run_invariant (C := fun _ _ => True)
    (I := fun p => I p.1.1.ledger) (fun hstep _ hwf hp => by
      rcases absStep_ledger hstep with heq | ⟨L, hc⟩
      · rw [heq]; exact hp
      · exact hI hwf hc hp) hrel h
    (unconditional hrun)
  exact hI'

theorem reachable_wellFormed (hs : Reachable P s) :
    WellFormed s.db.ledger := by
  obtain ⟨as, hrel, -⟩ := reachable_invariant (I := fun _ => True)
    (fun _ _ => trivial) (fun _ _ _ => trivial) hs
  exact hrel.good

end WatchTrace.Proofs
