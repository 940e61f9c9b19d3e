import WatchTrace.Tx.Serial

/-!
# Calls on terms

Some guarantees hold only as long as the calls keep out of each other's way
more than their locks make them: no two of a kind at once, nobody working on
the rows of the same owner, transactions that come to their locks in the
order they began. A `Terms` says such a thing of one kind of call. `own` is
what the call keeps to itself while its session is what it is, in whatever
the protocol at hand takes for keys; `fair` is what can be taken for granted
of the rows at that time. A run keeps the terms if in every state it reaches
no two calls own the same thing and every call finds what is fair. In return
the statements named by `must` are never refused, and what a call commits is
what it vows.

`Honours` is `Meets` for a program that runs on terms: the others leave alone
what it owns, and a state in which it does not find what is fair does not
have to be thought about. It carries a postcondition, so that a program is
proved part by part. `kept_invariant` is the invariant rule for the runs that
keep the terms. Locks are terms that every run keeps (`kept_of_steps`).
-/

namespace WatchTrace.Tx

variable {DB Key Env : Type} {Call : Type → Type} {World A Own Tag : Type}
variable {α β : Type}

/-- The terms of one kind of call. -/
structure Terms (DB Key Env Own : Type) where
  own : Session DB Key Env → Own → Prop
  fair : Session DB Key Env → DB → Prop := fun _ _ => True
  must : {β : Type} → Stmt DB Key Env β → Prop := fun _ => False
  vow : Open DB Key Env → DB → Prop := fun _ _ => True

/-- A call that has nothing left to do. It may still hold a transaction, which
will be rolled back. -/
def Process.Over (p : Process DB Key Env Call) : Prop := ∃ r, p.prog = .ret r

variable {q : Stmt DB Key Env β} {p : Prog DB Key Env Call α}

variable {k : Except Fault β → Prog DB Key Env Call α}

namespace Protocol

variable (P : Protocol DB Own World A) (T : Terms DB Key Env Own)

/-- `Q` holds now and after anything the others may do, wherever it matters. -/
def Later (ses : Session DB Key Env) (Q : DB × World → Prop) (x : DB × World) : Prop :=
  ∀ y, P.rely (T.own ses) x y → T.fair ses y.1 → Q y

/-- A change that process `i` may make in one go: a move, and one that whoever
owns something else tolerates. -/
def Takes (i : Nat) (ses : Session DB Key Env) (a : A) (x : DB × World) (a' : A)
    (y : DB × World) : Prop :=
  P.move i a x a' y ∧ ∀ L : Own → Prop, (∀ κ, L κ → ¬ T.own ses κ) → P.rely L x y

variable (R : Remote Env World Call)

/-- The obligation of a program that runs on the terms `T`, with `Q` to hold of
its answer where it ends. -/
def Honours (i : Nat) (Q : α → Session DB Key Env → A → DB × World → Prop) :
    Prog DB Key Env Call α → Session DB Key Env → A → DB × World → Prop
  | .ret r, ses, a, x => Q r ses a x
  | .start k, _, a, x =>
    (∀ env, P.Later T (.active (.fresh env))
      (Honours i Q (k (.ok ())) (.active (.fresh env)) a) x) ∧
    P.Later T .idle (Honours i Q (k (.error .failed)) .idle a) x
  | .query q k, .active o, a, x =>
    (∀ env busy, (T.must q → (q o.begun env busy (o.write x.1)).isSome) ∧
      match q o.begun env busy (o.write x.1) with
      | none => P.Later T .failed (Honours i Q (k (.error .rejected)) .failed a) x
      | some e => P.Later T (.active (o.extend e))
          (Honours i Q (k (.ok e.value)) (.active (o.extend e)) a) x) ∧
    P.Later T .failed (Honours i Q (k (.error .failed)) .failed a) x
  | .query _ k, .failed, a, x => P.Later T .failed (Honours i Q (k (.error .aborted)) .failed a) x
  | .query _ k, .idle, a, x => P.Later T .idle (Honours i Q (k (.error .failed)) .idle a) x
  | .commit k, .active o, a, x =>
    (T.vow o x.1 ∧ ∃ a', P.Takes T i (.active o) a x a' (o.write x.1, x.2) ∧
      P.Later T .idle (Honours i Q (k (.ok ())) .idle a') (o.write x.1, x.2) ∧
      P.Later T .idle (Honours i Q (k (.error .failed)) .idle a') (o.write x.1, x.2)) ∧
    P.Later T .idle (Honours i Q (k (.error .failed)) .idle a) x
  | .commit k, .failed, a, x => P.Later T .idle (Honours i Q (k (.error .aborted)) .idle a) x
  | .commit k, .idle, a, x => P.Later T .idle (Honours i Q (k (.error .failed)) .idle a) x
  | .rollback k, _, a, x => P.Later T .idle (Honours i Q k .idle a) x
  | .call c k, ses, a, x =>
    ∀ env, ∃ a', P.Takes T i ses a x a' (x.1, R.observe i c (R.answer env c) x.2) ∧
      P.Later T ses (Honours i Q (k (R.answer env c)) ses a')
        (x.1, R.observe i c (R.answer env c) x.2)

/-- Nothing is asked of the answer. -/
def Done : α → Session DB Key Env → A → DB × World → Prop := fun _ _ _ _ => True

variable {P T R}

/-! ## The rules, one for each interaction -/

section Rules

variable {i : Nat} {a : A} {x : DB × World} {ses : Session DB Key Env}
variable {o : Open DB Key Env} {Q : α → Session DB Key Env → A → DB × World → Prop}

theorem honours_start {k : Except Fault Unit → Prog DB Key Env Call α}
    (hok : ∀ env, P.Later T (.active (.fresh env))
      (P.Honours T R i Q (k (.ok ())) (.active (.fresh env)) a) x)
    (herr : P.Later T .idle (P.Honours T R i Q (k (.error .failed)) .idle a) x) :
    P.Honours T R i Q (start >>= k) ses a x :=
  ⟨hok, herr⟩

theorem honours_query (hmust : T.must q → ∀ env busy, q o.begun env busy (o.write x.1) ≠ none)
    (hok : ∀ env busy e, q o.begun env busy (o.write x.1) = some e →
      P.Later T (.active (o.extend e))
        (P.Honours T R i Q (k (.ok e.value)) (.active (o.extend e)) a) x)
    (herr : ∀ f, P.Later T .failed (P.Honours T R i Q (k (.error f)) .failed a) x) :
    P.Honours T R i Q (query q >>= k) (.active o) a x := by
  refine ⟨fun env busy => ⟨fun h => ?_, ?_⟩, herr _⟩
  · exact Option.isSome_iff_ne_none.mpr (hmust h env busy)
  · cases hq : q o.begun env busy (o.write x.1) with
    | none => exact herr _
    | some e => exact hok env busy e hq

theorem honours_commit {k : Except Fault Unit → Prog DB Key Env Call α} (hvow : T.vow o x.1)
    (hmove : ∃ a', P.Takes T i (.active o) a x a' (o.write x.1, x.2) ∧
      ∀ r, P.Later T .idle (P.Honours T R i Q (k r) .idle a') (o.write x.1, x.2))
    (herr : P.Later T .idle (P.Honours T R i Q (k (.error .failed)) .idle a) x) :
    P.Honours T R i Q (commit >>= k) (.active o) a x := by
  obtain ⟨a', hm, hk⟩ := hmove
  exact ⟨⟨hvow, a', hm, hk _, hk _⟩, herr⟩

theorem honours_call {c : Call β} {k : β → Prog DB Key Env Call α} (h : ∀ env, ∃ a',
      P.Takes T i ses a x a' (x.1, R.observe i c (R.answer env c) x.2) ∧
      P.Later T ses (P.Honours T R i Q (k (R.answer env c)) ses a')
        (x.1, R.observe i c (R.answer env c) x.2)) :
    P.Honours T R i Q (call c >>= k) ses a x := h

/-- One part after the other. -/
theorem honours_bind {Q' : β → Session DB Key Env → A → DB × World → Prop}
    {k : α → Prog DB Key Env Call β} (h : P.Honours T R i Q p ses a x)
    (hk : ∀ r ses a x, Q r ses a x → P.Honours T R i Q' (k r) ses a x) :
    P.Honours T R i Q' (p >>= k) ses a x := by
  induction p generalizing ses a x with
  | ret r => exact hk r ses a x h
  | start next ih =>
    exact ⟨fun env y hy hf => ih _ (h.1 env y hy hf), fun y hy hf => ih _ (h.2 y hy hf)⟩
  | query q next ih =>
    cases ses with
    | idle | failed => exact fun y hy hf => ih _ (h y hy hf)
    | active o =>
    refine ⟨fun env busy => ⟨(h.1 env busy).1, ?_⟩, fun y hy hf => ih _ (h.2 y hy hf)⟩
    have hq := (h.1 env busy).2
    cases he : q o.begun env busy (o.write x.1) with
    | none | some =>
      simp only [he] at hq
      exact fun y hy hf => ih _ (hq y hy hf)
  | commit next ih =>
    cases ses with
    | idle | failed => exact fun y hy hf => ih _ (h y hy hf)
    | active o =>
    obtain ⟨⟨hvow, a', hm, hok, hlost⟩, herr⟩ := h
    exact ⟨⟨hvow, a', hm, fun y hy hf => ih _ (hok y hy hf),
      fun y hy hf => ih _ (hlost y hy hf)⟩, fun y hy hf => ih _ (herr y hy hf)⟩
  | rollback next ih => exact fun y hy hf => ih (h y hy hf)
  | call c next ih =>
    intro env
    obtain ⟨a', hm, hst⟩ := h env
    exact ⟨a', hm, fun y hy hf => ih _ (hst y hy hf)⟩

theorem Honours.mono {Q' : α → Session DB Key Env → A → DB × World → Prop}
    (h : P.Honours T R i Q p ses a x) (hQ : ∀ r ses a x, Q r ses a x → Q' r ses a x) :
    P.Honours T R i Q' p ses a x := by
  rw [← Prog.bind_pure p]
  exact honours_bind h hQ

/-- The answer of a call plays no part in its obligation. -/
theorem Honours.void (h : P.Honours T R i Q p ses a x) :
    P.Honours T R i Done (p >>= fun _ => pure ()) ses a x :=
  honours_bind h fun _ _ _ _ _ => trivial

end Rules

/-! ## A condition on an open transaction

What a call has to know of its transaction while it is open: something that the
others leave true. Most calls do nothing with it but carry it along, from one
statement to the next. -/

section Conditions

/-- The others leave the condition true, wherever it matters. -/
def Lasting (P : Protocol DB Own World A) (T : Terms DB Key Env Own)
    (I : Open DB Key Env → DB → Prop) : Prop :=
  ∀ (o : Open DB Key Env) (x y : DB × World), I o x.1 → P.rely (T.own (.active o)) x y →
    T.fair (.active o) y.1 → I o y.1

/-- A statement after which the condition still holds. -/
def Upholds (I : Open DB Key Env → DB → Prop) (q : Stmt DB Key Env β) : Prop :=
  ∀ (o : Open DB Key Env) (x : DB) (env : Env) (busy : Key → Bool) (e : Effect DB Key β),
    I o x → q o.begun env busy (o.write x) = some e → I (o.extend e) x

/-- The outside is nobody's business in this protocol. -/
def Worldly (P : Protocol DB Own World A) (T : Terms DB Key Env Own) : Prop :=
  ∀ (i : Nat) (ses : Session DB Key Env) (a : A) (x : DB × World) (w : World),
    P.Takes T i ses a x a (x.1, w)

/-- A condition under which a transaction may commit at any time. -/
structure Safe (P : Protocol DB Own World A) (T : Terms DB Key Env Own)
    (I : Open DB Key Env → DB → Prop) : Prop where
  fresh : ∀ env x, I (.fresh env) x
  lasting : P.Lasting T I
  commits : ∀ (o : Open DB Key Env) (x : DB × World) (i : Nat) (a : A), I o x.1 →
    T.vow o x.1 ∧ ∃ a', P.Takes T i (.active o) a x a' (o.write x.1, x.2)

variable {i : Nat} {a : A} {x : DB × World} {o : Open DB Key Env}
variable {Q : α → Session DB Key Env → A → DB × World → Prop}
variable {I : Open DB Key Env → DB → Prop}

/-- A statement after which the condition `I` holds, whatever held before. -/
theorem lasting_query (hmust : ¬ T.must q)
    (hok : ∀ env busy e, q o.begun env busy (o.write x.1) = some e →
      ∃ I : Open DB Key Env → DB → Prop, P.Lasting T I ∧ I (o.extend e) x.1 ∧
        ∀ y : DB × World, I (o.extend e) y.1 → T.fair (.active (o.extend e)) y.1 →
          P.Honours T R i Q (k (.ok e.value)) (.active (o.extend e)) a y)
    (herr : ∀ f y, P.Honours T R i Q (k (.error f)) .failed a y) :
    P.Honours T R i Q (query q >>= k) (.active o) a x := by
  refine honours_query (fun h => absurd h hmust) ?_ fun f y _ _ => herr f y
  intro env busy e he y hy hfair
  obtain ⟨I, hlasting, hI, hk⟩ := hok env busy e he
  exact hk y (hlasting _ x y hI hy hfair) hfair

/-- A stretch that only talks to the outside. -/
theorem lasting_outside {Post : α → Prop} (hworld : P.Worldly T) (hI : P.Lasting T I)
    (hp : Prog.Outside R Post p) (h : I o x.1) :
    P.Honours T R i (fun r ses _ y => Post r ∧ ses = .active o ∧ I o y.1) p
      (.active o) a x := by
  induction p generalizing x with
  | ret r => exact ⟨hp, rfl, h⟩
  | call c next ih =>
    intro env
    refine ⟨a, hworld _ _ _ _ _, fun y hy hfair => ih _ (hp.2 _) ?_⟩
    exact hI o (x.1, R.observe i c (R.answer env c) x.2) y h hy hfair
  | query | start | commit | rollback => exact hp.elim

/-- A call of statements that uphold a safe condition. -/
theorem honours_upheld (hmust : ∀ {β : Type} (q : Stmt DB Key Env β), ¬ T.must q)
    (hworld : P.Worldly T) (hI : P.Safe T I) (hp : p.Within (Upholds I))
    {ses : Session DB Key Env} (hses : ∀ o, ses = .active o → I o x.1) :
    P.Honours T R i Done p ses a x := by
  induction p generalizing ses a x with
  | ret r => trivial
  | start next ih =>
    refine ⟨fun env y _ _ => ih _ (hp _) ?_, fun y _ _ => ih _ (hp _) of_idle⟩
    intro o ho
    cases ho
    exact hI.fresh env y.1
  | query q next ih =>
    cases ses with
    | idle => exact fun y _ _ => ih _ (hp.2 _) of_idle
    | failed => exact fun y _ _ => ih _ (hp.2 _) of_failed
    | active o =>
    refine honours_query (k := next) (fun h => absurd h (hmust q)) ?_
      fun f y _ _ => ih _ (hp.2 _) of_failed
    intro env busy e he y hy hfair
    refine ih _ (hp.2 _) fun o' ho' => ?_
    cases ho'
    exact hI.lasting _ x y (hp.1 o _ _ _ e (hses o rfl) he) hy hfair
  | commit next ih =>
    cases ses with
    | idle | failed => exact fun y _ _ => ih _ (hp _) of_idle
    | active o =>
    obtain ⟨hvow, a', htakes⟩ := hI.commits o x i a (hses o rfl)
    exact ⟨⟨hvow, a', htakes, fun y _ _ => ih _ (hp _) of_idle,
      fun y _ _ => ih _ (hp _) of_idle⟩, fun y _ _ => ih _ (hp _) of_idle⟩
  | rollback next ih => exact fun y _ _ => ih hp of_idle
  | call c next ih =>
    intro env
    refine ⟨a, hworld _ _ _ _ _, fun y hy hfair => ih _ (hp _) fun o ho => ?_⟩
    subst ho
    exact hI.lasting o (x.1, R.observe i c (R.answer env c) x.2) y (hses o rfl) hy hfair

end Conditions

end Protocol

/-! ## Runs -/

section Runs

variable (terms : Tag → Terms DB Key Env Own)

/-- The terms are kept in a state; `tags` says which kind each call is of. -/
structure Sys.Kept (s : Sys DB Key Env Call World) (tags : List Tag) : Prop where
  fair : ∀ {i : Nat} {p : Process DB Key Env Call} {t : Tag},
    s.procs[i]? = some p → tags[i]? = some t → ¬ p.Over →
    (terms t).fair p.session s.db
  apart : ∀ {i j : Nat} {p q : Process DB Key Env Call} {t u : Tag},
    s.procs[i]? = some p → s.procs[j]? = some q →
    tags[i]? = some t → tags[j]? = some u → i ≠ j → ¬ p.Over → ¬ q.Over →
    ∀ κ, (terms t).own p.session κ → ¬ (terms u).own q.session κ

variable [DecidableEq Key]

/-- One step of a machine whose calls of kind `t` come from `F t`, into a state
that `C` holds of. -/
def TaggedStep (R : Remote Env World Call) (F : Tag → Prog DB Key Env Call Unit → Prop)
    (C : Sys DB Key Env Call World → List Tag → Prop)
    (x y : Sys DB Key Env Call World × List Tag) : Prop :=
  ∃ a : Act DB Key Env Call, x.1.step R a = some y.1 ∧
    (match a with
      | .spawn p => ∃ t, F t p ∧ y.2 = x.2 ++ [t]
      | _ => y.2 = x.2) ∧
    C y.1 y.2

/-- Any number of steps. -/
def TaggedSteps (R : Remote Env World Call) (F : Tag → Prog DB Key Env Call Unit → Prop)
    (C : Sys DB Key Env Call World → List Tag → Prop) :
    Sys DB Key Env Call World × List Tag →
    Sys DB Key Env Call World × List Tag → Prop :=
  Relation.ReflTransGen (TaggedStep R F C)

/-- A step into a state that keeps the terms. -/
abbrev KeptStep (R : Remote Env World Call) (F : Tag → Prog DB Key Env Call Unit → Prop)
    (x y : Sys DB Key Env Call World × List Tag) : Prop :=
  TaggedStep R F (fun s tags => s.Kept terms tags) x y

/-- Any number of steps. -/
abbrev KeptSteps (R : Remote Env World Call) (F : Tag → Prog DB Key Env Call Unit → Prop) :
    Sys DB Key Env Call World × List Tag →
    Sys DB Key Env Call World × List Tag → Prop :=
  TaggedSteps R F fun s tags => s.Kept terms tags

end Runs

variable {i : Nat} {s : Sys DB Key Env Call World} {tags : List Tag} {as : List A}
variable {x : DB × World}
variable {db : DB} {w : World} {s' : Sys DB Key Env Call World}

variable {t : Tag} {o : Open DB Key Env}

namespace Protocol

variable {P : Protocol DB Own World A} {R : Remote Env World Call}
variable {T : Terms DB Key Env Own} {terms : Tag → Terms DB Key Env Own}

/-- How a state of the machine and the local states belong together. -/
structure Honoured (P : Protocol DB Own World A) (R : Remote Env World Call)
    (terms : Tag → Terms DB Key Env Own) (s : Sys DB Key Env Call World)
    (tags : List Tag) (as : List A) : Prop where
  tagged : tags.length = s.procs.length
  length : as.length = s.procs.length
  good : P.good (s.db, s.world)
  kept : s.Kept terms tags
  honours : ∀ {i : Nat} {p : Process DB Key Env Call} {t : Tag} {a : A},
    s.procs[i]? = some p → tags[i]? = some t → as[i]? = some a →
    P.Later (terms t) p.session (P.Honours (terms t) R i Done p.prog p.session a) (s.db, s.world)

theorem Honoured.now (h : Honoured P R terms s tags as) {p : Process DB Key Env Call} {a : A}
    (hp : s.procs[i]? = some p) (ht : tags[i]? = some t) (ha : as[i]? = some a) :
    P.Honours (terms t) R i Done p.prog p.session a (s.db, s.world) := by
  by_cases hover : p.Over
  · obtain ⟨r, hr⟩ := hover
    rw [hr]
    trivial
  · exact h.honours hp ht ha _ (P.rely_refl _ _) (h.kept.fair hp ht hover)

theorem Honoured.local_state (h : Honoured P R terms s tags as) {p : Process DB Key Env Call}
    (hp : s.procs[i]? = some p) : ∃ a, as[i]? = some a :=
  ⟨_, List.getElem?_eq_getElem (h.length ▸ (List.getElem?_eq_some_iff.mp hp).1)⟩

/-- A statement that must not be refused is not. -/
theorem Honoured.answers (h : Honoured P R terms s tags as)
    {k : Except Fault β → Prog DB Key Env Call Unit}
    (hp : s.procs[i]? = some ⟨.query q k, .active o⟩) (ht : tags[i]? = some t)
    (hmust : (terms t).must q) (env : Env) (busy : Key → Bool) :
    q o.begun env busy (o.write s.db) ≠ none := by
  obtain ⟨a, ha⟩ := h.local_state hp
  exact Option.isSome_iff_ne_none.mp (((h.now hp ht ha).1 env busy).1 hmust)

/-- What a call is about to commit is what it vows. -/
theorem Honoured.vows (h : Honoured P R terms s tags as)
    {k : Except Fault Unit → Prog DB Key Env Call Unit}
    (hp : s.procs[i]? = some ⟨.commit k, .active o⟩) (ht : tags[i]? = some t) :
    (terms t).vow o s.db := by
  obtain ⟨a, ha⟩ := h.local_state hp
  exact (h.now hp ht ha).1.1

/-- A step by one process, from its own side: what it did to the rows is
nothing or a move, others tolerate it, and it still honours its terms. -/
theorem advance_honours [DecidableEq Key] {busy : Key → Bool} {env : Env} {fate : Fate}
    {p p' : Process DB Key Env Call} {a : A} (hp : P.Honours T R i Done p.prog p.session a x)
    (h : advance R i busy env fate x.1 x.2 p = some (p', db, w)) :
    ∃ a', ((a' = a ∧ (db, w) = x) ∨ (¬ p.Over ∧ P.Takes T i p.session a x a' (db, w))) ∧
      P.Later T p'.session (P.Honours T R i Done p'.prog p'.session a') (db, w) := by
  obtain ⟨prog, ses⟩ := p
  -- a step that leaves the rows and the outside alone
  have hstill : ∀ (q : Process DB Key Env Call), some (q, x.1, x.2) = some (p', db, w) →
      P.Later T q.session (P.Honours T R i Done q.prog q.session a) x →
      ∃ a', ((a' = a ∧ (db, w) = x) ∨
          (¬ Process.Over ⟨prog, ses⟩ ∧ P.Takes T i ses a x a' (db, w))) ∧
        P.Later T p'.session (P.Honours T R i Done p'.prog p'.session a') (db, w) := by
    intro q he hst
    simp only [Option.some.injEq, Prod.mk.injEq] at he
    obtain ⟨rfl, rfl, rfl⟩ := he
    exact ⟨a, .inl ⟨rfl, rfl⟩, hst⟩
  cases prog with
  | ret r => exact hstill _ h fun _ _ _ => trivial
  | start k =>
    cases fate with
    | done => exact hstill _ h (hp.1 env)
    | failed | lost => exact hstill _ h hp.2
  | rollback k => exact hstill _ h hp
  | query q k =>
    cases ses with
    | idle | failed => exact hstill _ h hp
    | active o =>
    simp only [advance, Option.map_eq_some_iff, stepQuery] at h
    obtain ⟨r, hr, hpr⟩ := h
    cases fate with
    | failed | lost =>
      cases hr
      exact hstill _ (congrArg some hpr) hp.2
    | done =>
    have hq := (hp.1 env busy).2
    cases he : q o.begun env busy (o.write x.1) with
    | none =>
      simp only [he, Option.some.injEq] at hr hq
      subst hr
      exact hstill _ (congrArg some hpr) hq
    | some e =>
    simp only [he] at hr hq
    split at hr
    · cases hr
    · cases hr
      exact hstill _ (congrArg some hpr) hq
  | commit k =>
    cases ses with
    | idle | failed => exact hstill _ h hp
    | active o =>
    obtain ⟨⟨-, a', hm, hok, hlost⟩, herr⟩ := hp
    have hover : ¬ Process.Over (⟨.commit k, .active o⟩ : Process DB Key Env Call) := by
      rintro ⟨r, hr⟩
      cases hr
    cases fate with
    | done =>
      cases h
      exact ⟨a', .inr ⟨hover, hm⟩, hok⟩
    | lost =>
      cases h
      exact ⟨a', .inr ⟨hover, hm⟩, hlost⟩
    | failed => exact hstill _ h herr
  | call c k =>
    cases h
    obtain ⟨a', hm, hst⟩ := hp env
    refine ⟨a', .inr ⟨?_, hm⟩, hst⟩
    rintro ⟨r, hr⟩
    cases hr

variable {F : Tag → Prog DB Key Env Call Unit → Prop}

/-- One step into a state that keeps the terms is no step or one step of the
protocol. -/
theorem honoured_step [DecidableEq Key]
    (hF : ∀ t p, F t p → ∀ i x, P.good x → P.Honours (terms t) R i Done p .idle P.init x)
    {tags' : List Tag} (h : Honoured P R terms s tags as)
    (hstep : KeptStep terms R F (s, tags) (s', tags')) :
    ∃ as', Relation.ReflGen (AbsStep P) ((s.db, s.world), as) ((s'.db, s'.world), as') ∧
      Honoured P R terms s' tags' as' := by
  obtain ⟨act, hs, htags, hkept⟩ := hstep
  obtain ⟨p, rfl, rfl⟩ | ⟨i, rfl, rfl⟩ |
    ⟨i, env, fate, p, p', db, w, rfl, hp, hadv, rfl⟩ := Sys.step_cases hs
  · obtain ⟨t, ht, rfl⟩ := htags
    refine ⟨as ++ [P.init], .single .spawn,
      ⟨by simp [h.tagged], by simp [h.length], h.good, hkept, ?_⟩⟩
    intro j q u a hq hu ha
    rcases getElem?_concat hq with ⟨hj, hq⟩ | ⟨rfl, rfl⟩
    · rcases getElem?_concat hu with ⟨-, hu⟩ | ⟨hju, -⟩
      · rcases getElem?_concat ha with ⟨-, ha⟩ | ⟨hja, -⟩
        · exact h.honours hq hu ha
        · exact absurd (h.length ▸ hja) (Nat.ne_of_lt hj)
      · exact absurd (h.tagged ▸ hju) (Nat.ne_of_lt hj)
    · have hu' : u = t := by simpa [← h.tagged] using hu.symm
      have ha' : a = P.init := by simpa [← h.length] using ha.symm
      subst hu' ha'
      exact fun y hy _ => hF _ _ ht _ y (P.good_rely hy h.good)
  · cases htags
    refine ⟨as, .refl, ⟨by simp [h.tagged], by simp [h.length], h.good, hkept, ?_⟩⟩
    intro j q u a hq hu ha
    rcases getElem?_set_some hq with ⟨-, hq⟩ | ⟨-, rfl⟩
    · exact h.honours hq hu ha
    · exact fun _ _ _ => trivial
  · cases htags
    have hi : i < s.procs.length := (List.getElem?_eq_some_iff.mp hp).1
    obtain ⟨a, ha⟩ := h.local_state hp
    obtain ⟨t, ht⟩ : ∃ t, tags[i]? = some t :=
      ⟨_, List.getElem?_eq_getElem (h.tagged ▸ hi)⟩
    obtain ⟨a', hmove, hlater⟩ := advance_honours (h.now hp ht ha) hadv
    -- what the step means to another call that is still at work
    have hothers : ∀ (j : Nat) (q : Process DB Key Env Call) (u : Tag), j ≠ i →
        s.procs[j]? = some q → tags[j]? = some u → ¬ q.Over →
        P.rely ((terms u).own q.session) (s.db, s.world) (db, w) := by
      intro j q u hji hq hu hover
      rcases hmove with ⟨-, hx⟩ | ⟨hpo, -, hrely⟩
      · rw [hx]
        exact P.rely_refl _ _
      · exact hrely _ fun κ hκ => h.kept.apart hq hp hu ht hji hover hpo κ hκ
    refine ⟨as.set i a', ?_, ⟨by simp [h.tagged], by simp [h.length], ?_, hkept, ?_⟩⟩
    · rcases hmove with ⟨rfl, hx⟩ | ⟨-, hm, -⟩
      · rw [set_getElem?_self ha, hx]
      · exact .single (.move ha hm)
    · rcases hmove with ⟨-, hx⟩ | ⟨-, -, hrely⟩
      · rw [hx]
        exact h.good
      · exact P.good_rely (hrely (fun _ => False) fun _ h => h.elim) h.good
    · intro j q u b hq hu hb
      rcases getElem?_set_some hq with ⟨hji, hq⟩ | ⟨rfl, rfl⟩
      · rw [List.getElem?_set_ne (Ne.symm hji)] at hb
        by_cases hover : q.Over
        · obtain ⟨r, hr⟩ := hover
          rw [hr]
          exact fun _ _ _ => trivial
        · intro y hy hfair
          exact h.honours hq hu hb y (P.rely_trans (hothers j q u hji hq hu hover) hy) hfair
      · rw [ht] at hu
        rw [List.getElem?_set_self (h.length ▸ hi)] at hb
        cases hu
        cases hb
        exact hlater

/-- Committed rows with nothing running keep all terms. -/
theorem honoured_quiet (h : P.good x) : Honoured P R terms (Sys.quiet x.1 x.2) [] [] where
  tagged := rfl
  length := rfl
  good := h
  kept := ⟨fun hp => by simp [Sys.quiet] at hp, fun hp => by simp [Sys.quiet] at hp⟩
  honours := fun hp => by simp [Sys.quiet] at hp

/-- The invariant rule for runs that keep the terms. -/
theorem kept_invariant [DecidableEq Key]
    (hF : ∀ t p, F t p → ∀ i x, P.good x → P.Honours (terms t) R i Done p .idle P.init x)
    (Inv : (DB × World) × List A → Prop)
    (hInv : ∀ {p q}, AbsStep P p q → P.good p.1 → Inv p → Inv q)
    {s s' : Sys DB Key Env Call World × List Tag} (h : Honoured P R terms s.1 s.2 as)
    (hs : Inv ((s.1.db, s.1.world), as)) (hrun : KeptSteps terms R F s s') :
    ∃ as', Honoured P R terms s'.1 s'.2 as' ∧ Inv ((s'.1.db, s'.1.world), as') := by
  induction hrun with
  | refl => exact ⟨as, h, hs⟩
  | tail _ hstep ih =>
    obtain ⟨bs, hbs, hinv⟩ := ih
    obtain ⟨cs, habs, hcs⟩ := honoured_step hF hbs hstep
    refine ⟨cs, hcs, ?_⟩
    rcases (Relation.reflGen_iff _ _ _).mp habs with heq | habs
    · rw [heq]
      exact hinv
    · exact hInv habs hbs.good hinv

/-- What is good stays good along every run that keeps the terms. -/
theorem kept_good [DecidableEq Key]
    (hF : ∀ t p, F t p → ∀ i x, P.good x → P.Honours (terms t) R i Done p .idle P.init x)
    (h : P.good x) {s' : Sys DB Key Env Call World × List Tag}
    (hrun : KeptSteps terms R F (Sys.quiet x.1 x.2, []) s') :
    P.good (s'.1.db, s'.1.world) := by
  obtain ⟨as, has, -⟩ := kept_invariant hF (fun _ => True) (fun _ _ _ => trivial)
    (s := (Sys.quiet x.1 x.2, [])) (honoured_quiet h) trivial hrun
  exact has.good

end Protocol

/-! ## Locks are terms -/

/-- A call owns what it has locked. -/
def lockTerms : Terms DB Key Env Key := { own := fun ses κ => κ ∈ ses.locks }

/-- Every call still at work finds what is fair. -/
def Sys.Fair (T : Terms DB Key Env Own) (s : Sys DB Key Env Call World) : Prop :=
  ∀ p ∈ s.procs, ¬ p.Over → T.fair p.session s.db

/-- Any number of steps, through states that are fair to everyone. -/
def FairSteps [DecidableEq Key] (T : Terms DB Key Env Own) (R : Remote Env World Call)
    (F : Prog DB Key Env Call Unit → Prop) :
    Sys DB Key Env Call World → Sys DB Key Env Call World → Prop :=
  Relation.ReflTransGen fun s s' => Step R F s s' ∧ s'.Fair T

/-- A schedule each state of which has to pass a test. -/
def Sys.runThrough [DecidableEq Key] (R : Remote Env World Call)
    (test : Sys DB Key Env Call World → Bool) :
    Sys DB Key Env Call World → List (Act DB Key Env Call) →
    Option (Sys DB Key Env Call World)
  | s, [] => some s
  | s, a :: as => (s.step R a).bind fun s' => if test s' then s'.runThrough R test as else none

/-- Any number of steps, through states that `C` holds of. -/
def StepsThrough [DecidableEq Key] (R : Remote Env World Call)
    (F : Prog DB Key Env Call Unit → Prop) (C : Sys DB Key Env Call World → Prop) :
    Sys DB Key Env Call World → Sys DB Key Env Call World → Prop :=
  Relation.ReflTransGen fun s s' => Step R F s s' ∧ C s'

variable {F : Prog DB Key Env Call Unit → Prop} {R : Remote Env World Call}

variable {C : Sys DB Key Env Call World → Prop}

theorem Sys.runThrough_steps [DecidableEq Key] {test : Sys DB Key Env Call World → Bool}
    (htest : ∀ s, test s = true → C s) :
    ∀ {as : List (Act DB Key Env Call)} {s s' : Sys DB Key Env Call World},
      (∀ a ∈ as, a.within F) → s.runThrough R test as = some s' →
      StepsThrough R F C s s' := by
  intro as
  induction as with
  | nil =>
    intro s s' _ h
    cases h
    exact .refl
  | cons a as ih =>
    intro s s' hF h
    obtain ⟨mid, hmid, hrest⟩ := Option.bind_eq_some_iff.mp h
    split at hrest
    · next hpass =>
      have hstep : Step R F s mid := ⟨a, hF a List.mem_cons_self, hmid⟩
      exact .head ⟨hstep, htest mid hpass⟩ (ih (fun b hb => hF b (List.mem_cons_of_mem _ hb)) hrest)
    · cases hrest

theorem Sys.runThrough_fair [DecidableEq Key] {T : Terms DB Key Env Own}
    {test : Sys DB Key Env Call World → Bool} (htest : ∀ s, test s = true → s.Fair T)
    {as : List (Act DB Key Env Call)} (hF : ∀ a ∈ as, a.within F)
    (h : s.runThrough R test as = some s') :
    FairSteps T R F s s' :=
  Sys.runThrough_steps htest hF h

/-- An act with the tags it adds: one if it begins a call, and else none. -/
def Act.Tagged (F : Tag → Prog DB Key Env Call Unit → Prop) : Act DB Key Env Call × List Tag → Prop
  | (.spawn p, ts) => ∃ t, F t p ∧ ts = [t]
  | (_, ts) => ts = []

/-- A schedule with tags, each state of which has to pass a test. -/
def Sys.runTagged [DecidableEq Key] (R : Remote Env World Call)
    (test : Sys DB Key Env Call World → List Tag → Bool) :
    Sys DB Key Env Call World × List Tag → List (Act DB Key Env Call × List Tag) →
    Option (Sys DB Key Env Call World × List Tag)
  | x, [] => some x
  | x, (a, ts) :: rest => (x.1.step R a).bind fun s =>
    if test s (x.2 ++ ts) then Sys.runTagged R test (s, x.2 ++ ts) rest else none

variable {test : Sys DB Key Env Call World → List Tag → Bool}

theorem Sys.runTagged_append [DecidableEq Key] {acts rest : List (Act DB Key Env Call × List Tag)}
    {x : Sys DB Key Env Call World × List Tag} :
    Sys.runTagged R test x (acts ++ rest) =
      (Sys.runTagged R test x acts).bind fun y => Sys.runTagged R test y rest := by
  induction acts generalizing x with
  | nil => rfl
  | cons act acts ih =>
    obtain ⟨a, ts⟩ := act
    simp only [List.cons_append, Sys.runTagged]
    cases x.1.step R a with
    | none => rfl
    | some s =>
    simp only [Option.bind_some]
    split
    · exact ih
    · rfl

theorem Sys.runTagged_steps [DecidableEq Key] {F : Tag → Prog DB Key Env Call Unit → Prop}
    {C : Sys DB Key Env Call World → List Tag → Prop}
    (htest : ∀ s tags, test s tags = true → C s tags) :
    ∀ {acts : List (Act DB Key Env Call × List Tag)}
      {x y : Sys DB Key Env Call World × List Tag}, (∀ a ∈ acts, Act.Tagged F a) →
      Sys.runTagged R test x acts = some y → TaggedSteps R F C x y := by
  intro acts
  induction acts with
  | nil =>
    intro x y _ h
    cases h
    exact .refl
  | cons act rest ih =>
    intro x y hF h
    obtain ⟨a, ts⟩ := act
    obtain ⟨s, hs, hrest⟩ := Option.bind_eq_some_iff.mp h
    have hact := hF (a, ts) List.mem_cons_self
    split at hrest
    · next hpass =>
      refine .head (b := (s, x.2 ++ ts)) ⟨a, hs, ?_, htest _ _ hpass⟩
        (ih (fun b hb => hF b (List.mem_cons_of_mem _ hb)) hrest)
      cases a with
      | spawn p =>
        obtain ⟨t, ht, rfl⟩ := hact
        exact ⟨t, ht, rfl⟩
      | step | crash =>
        cases hact
        exact List.append_nil _
    · cases hrest

/-- One tag for all calls. -/
theorem Step.tagged [DecidableEq Key] {C : Sys DB Key Env Call World → List Unit → Prop}
    (h : Step R F s s') (hc : ∀ tags, C s' tags) (tags : List Unit) :
    ∃ tags', TaggedStep R (fun _ : Unit => F) C (s, tags) (s', tags') := by
  obtain ⟨a, ha, hs⟩ := h
  cases a with
  | spawn p => exact ⟨tags ++ [()], _, hs, ⟨(), ha, rfl⟩, hc _⟩
  | step | crash => exact ⟨tags, _, hs, rfl, hc _⟩

/-- Steps through certain states, with one tag for all calls. -/
theorem StepsThrough.tagged [DecidableEq Key] (h : StepsThrough R F C s s') (tags : List Unit) :
    ∃ tags', TaggedSteps R (fun _ : Unit => F) (fun s _ => C s) (s, tags) (s', tags') := by
  induction h with
  | refl => exact ⟨tags, .refl⟩
  | tail _ hstep ih =>
    obtain ⟨tags', hrun⟩ := ih
    obtain ⟨tags'', hlast⟩ := hstep.1.tagged (C := fun s _ => C s) (fun _ => hstep.2) tags'
    exact ⟨tags'', hrun.tail hlast⟩

variable {T : Terms DB Key Env Key}

section Locks

variable {R : Remote Env World Call} [DecidableEq Key]

/-- No key is ever locked twice, which may be taken for granted wherever a
condition on the states of a run is. -/
theorem TaggedSteps.mono {F : Tag → Prog DB Key Env Call Unit → Prop}
    {C C' : Sys DB Key Env Call World → List Tag → Prop}
    {x y : Sys DB Key Env Call World × List Tag} (hx : x.1.Apart)
    (h : TaggedSteps R F C x y) (hC : ∀ s tags, s.Apart → C s tags → C' s tags) :
    TaggedSteps R F C' x y ∧ y.1.Apart := by
  induction h with
  | refl => exact ⟨.refl, hx⟩
  | tail _ hstep ih =>
    obtain ⟨hrun, hapart⟩ := ih
    obtain ⟨a, hs, htags, hc⟩ := hstep
    have hnext := hapart.step hs
    exact ⟨hrun.tail ⟨a, hs, htags, hC _ _ hnext hc⟩, hnext⟩

/-- Every run keeps the terms its locks are, as far as it passes through fair
states only. -/
theorem kept_of_fair (hown : T.own = lockTerms.own) (h : FairSteps T R F (Sys.quiet db w) s) :
    ∃ tags, KeptSteps (fun _ : Unit => T) R (fun _ => F)
      (Sys.quiet db w, []) (s, tags) ∧ s.Apart := by
  obtain ⟨tags, hrun⟩ := StepsThrough.tagged h []
  refine ⟨tags, TaggedSteps.mono (Sys.apart_quiet db w) hrun fun u tags hapart hfair => ?_⟩
  refine ⟨fun hp _ hover => hfair _ (List.mem_of_getElem? hp) hover, ?_⟩
  intro i j p q _ _ hp hq _ _ hij _ _ κ hκ
  rw [hown] at hκ ⊢
  exact hapart i j p q hp hq hij κ hκ

namespace Protocol

variable {P : Protocol DB Key World A}

/-- What can be said of a state reached by calls that go by their locks. -/
theorem fair_honoured (hown : T.own = lockTerms.own)
    (hF : ∀ p, F p → ∀ i x, P.good x → P.Honours T R i Done p .idle P.init x) (h : P.good x)
    (hrun : FairSteps T R F (Sys.quiet x.1 x.2) s) :
    ∃ tags as, Honoured P R (fun _ : Unit => T) s tags as := by
  obtain ⟨tags, hkept, -⟩ := kept_of_fair hown hrun
  have hunit : ∀ (_ : Unit) (p : Prog DB Key Env Call Unit), F p → ∀ i x, P.good x →
      P.Honours T R i Done p .idle P.init x := fun _ => hF
  obtain ⟨as, has, -⟩ := kept_invariant hunit (fun _ => True) (fun _ _ _ => trivial)
    (s := (Sys.quiet x.1 x.2, [])) (honoured_quiet h) trivial hkept
  exact ⟨tags, as, has⟩

/-- What is good stays good along every run of calls that go by their locks. -/
theorem steps_good (hF : ∀ p, F p → ∀ i x, P.good x → P.Honours lockTerms R i Done p .idle P.init x)
    (h : P.good x) (hrun : Steps R F (Sys.quiet x.1 x.2) s) : P.good (s.db, s.world) := by
  have hfair : FairSteps lockTerms R F (Sys.quiet x.1 x.2) s :=
    hrun.lift id fun _ _ hstep => ⟨hstep, fun _ _ _ => trivial⟩
  obtain ⟨tags, as, has⟩ := fair_honoured rfl hF h hfair
  exact has.good

/-! ## The simulation

Whoever meets a protocol honours it on the terms of their locks. -/

omit [DecidableEq Key] in
theorem Meets.honours {i : Nat} {ses : Session DB Key Env} {a : A} {x : DB × World}
    (h : P.Meets R i p ses a x) : P.Honours lockTerms R i Done p ses a x := by
  induction p generalizing ses a x with
  | ret r => trivial
  | start next ih => exact ⟨fun env y hy _ => ih _ (h.1 env y hy), fun y hy _ => ih _ (h.2 y hy)⟩
  | query q next ih =>
    cases ses with
    | idle | failed => exact fun y hy _ => ih _ (h y hy)
    | active o =>
    refine ⟨fun env busy => ⟨False.elim, ?_⟩, fun y hy _ => ih _ (h.2 y hy)⟩
    have hq := h.1 env busy
    cases he : q o.begun env busy (o.write x.1) with
    | none | some =>
      simp only [he] at hq
      exact fun y hy _ => ih _ (hq y hy)
  | commit next ih =>
    cases ses with
    | idle | failed => exact fun y hy _ => ih _ (h y hy)
    | active o =>
    obtain ⟨⟨a', hm, hok, hlost⟩, herr⟩ := h
    exact ⟨⟨trivial, a', hm, fun y hy _ => ih _ (hok y hy), fun y hy _ => ih _ (hlost y hy)⟩,
      fun y hy _ => ih _ (herr y hy)⟩
  | rollback next ih => exact fun y hy _ => ih (h y hy)
  | call c next ih =>
    intro env
    obtain ⟨a', hm, hst⟩ := h env
    exact ⟨a', ⟨hm.1, fun L _ => hm.2 L (by simp)⟩, fun y hy _ => ih _ (hst y hy)⟩

/-- How a state of the machine and the local states belong together: every
call still goes by its locks, whatever the others do, and no two open
transactions own the same key. -/
structure Related (P : Protocol DB Key World A) (R : Remote Env World Call)
    (s : Sys DB Key Env Call World) (as : List A) : Prop where
  honoured : ∃ tags : List Unit, Honoured P R (fun _ => lockTerms) s tags as
  apart : s.Apart

omit [DecidableEq Key] in
theorem Related.good (h : Related P R s as) : P.good (s.db, s.world) := by
  obtain ⟨tags, hs⟩ := h.honoured
  exact hs.good

/-- A step by one process is nothing or a move. -/
theorem Related.advance (h : Related P R s as) {i : Nat} {env : Env} {fate : Fate} {a : A}
    {p p' : Process DB Key Env Call} (hp : s.procs[i]? = some p) (ha : as[i]? = some a)
    (hadv : Tx.advance R i (s.busy i) env fate s.db s.world p = some (p', db, w)) :
    ∃ a', (a' = a ∧ (db, w) = (s.db, s.world)) ∨ P.move i a (s.db, s.world) a' (db, w) := by
  obtain ⟨tags, hs⟩ := h.honoured
  have hi : i < s.procs.length := (List.getElem?_eq_some_iff.mp hp).1
  have hnow := hs.now hp (List.getElem?_eq_getElem (hs.tagged ▸ hi)) ha
  obtain ⟨a', hmove, -⟩ := advance_honours hnow hadv
  exact ⟨a', hmove.imp id fun hm => hm.2.1⟩

/-- One step of the machine is no step or one step of the protocol. -/
theorem simulation (hF : ∀ p, F p → ∀ i x, P.good x → P.Meets R i p .idle P.init x)
    (hrel : Related P R s as) (hstep : Step R F s s') :
    ∃ as', Relation.ReflGen (AbsStep P) ((s.db, s.world), as) ((s'.db, s'.world), as') ∧
      Related P R s' as' := by
  obtain ⟨tags, hs⟩ := hrel.honoured
  have hapart : s'.Apart := by
    obtain ⟨act, -, hact⟩ := hstep
    exact hrel.apart.step hact
  obtain ⟨tags', hkept⟩ := hstep.tagged (C := fun u us => u.Kept (fun _ => lockTerms) us) (fun us =>
    ⟨fun _ _ _ => trivial, fun hp hq _ _ hij _ _ => hapart _ _ _ _ hp hq hij⟩) tags
  obtain ⟨as', habs, hs'⟩ := honoured_step (fun _ p hp i x hx => (hF p hp i x hx).honours) hs hkept
  exact ⟨as', habs, ⟨tags', hs'⟩, hapart⟩

/-- A run of the machine is a run of the protocol. -/
theorem related_steps (hF : ∀ p, F p → ∀ i x, P.good x → P.Meets R i p .idle P.init x)
    (hrel : Related P R s as) (hrun : Steps R F s s') : ∃ as', Related P R s' as' := by
  induction hrun with
  | refl => exact ⟨as, hrel⟩
  | tail _ hstep ih =>
    obtain ⟨bs, hbs⟩ := ih
    obtain ⟨cs, -, hcs⟩ := simulation hF hbs hstep
    exact ⟨cs, hcs⟩

/-- Committed rows with nothing running belong to no local state at all. -/
theorem related_quiet (h : P.good x) : Related P R (Sys.quiet x.1 x.2) [] :=
  ⟨⟨[], honoured_quiet h⟩, Sys.apart_quiet _ _⟩

/-- The invariant rule: what every move of the protocol keeps, as long as the
change of rows satisfies `C`, holds along every run whose steps satisfy `C`. -/
theorem invariant (hF : ∀ p, F p → ∀ i x, P.good x → P.Meets R i p .idle P.init x)
    {C : DB → DB → Prop} {Inv : (DB × World) × List A → Prop}
    (hInv : ∀ {p q}, AbsStep P p q → C p.1.1 q.1.1 → P.good p.1 → Inv p → Inv q)
    (hrel : Related P R s as) (hs : Inv ((s.db, s.world), as)) (hrun : Relation.ReflTransGen
      (fun t t' => Step R F t t' ∧ C t.db t'.db) s s') :
    ∃ as', Related P R s' as' ∧ Inv ((s'.db, s'.world), as') := by
  induction hrun with
  | refl => exact ⟨as, hrel, hs⟩
  | tail _ hstep ih =>
    obtain ⟨bs, hbs, hinv⟩ := ih
    obtain ⟨cs, habs, hcs⟩ := simulation hF hbs hstep.1
    refine ⟨cs, hcs, ?_⟩
    rcases (Relation.reflGen_iff _ _ _).mp habs with heq | habs
    · rw [heq]; exact hinv
    · exact hInv habs hstep.2 hbs.good hinv

end Protocol

end Locks

end WatchTrace.Tx
