import WatchTrace.Proofs.Tokens

/-!
# Sessions under concurrency

Every call of the service is a transaction that starts by locking a row, and
goes on as one of three things: it adds tokens to the family of the one it was
given, it revokes a family or a user, or it opens a family. What it knows of the
book on the way is said by a fact that the others leave true, since nobody else
works on the tokens of the same user.

A revocation lists the rows to be revoked and then goes through them. Its fact
says that a token in the scope which is still live is one of those left to do.
-/

namespace WatchTrace.Proofs.Sessions

open Tx Model.Auth Spec.Sessions Protocol
open Model (Uuid Time Bytes Failure)

/-! ## Facts that persist -/

variable {kind : Uuid → TokenId}

variable {later : TokenId → Prop}

section Facts

variable {u f : Uuid} {scope : Scope} {left : TokenId → Prop} {t : TokenId} {s : Standing}
variable {b v b' v' : Book}

/-- Nothing has been done yet. -/
def Still (b v : Book) : Prop := (∀ t, v.token t = b.token t) ∧ ∀ w, v.hash w = b.hash w

theorem hash_same {w : Uuid} (hsince : Since u b v b' v') (h : v.hash w = b.hash w) :
    v'.hash w = b'.hash w := by
  rcases hsince.hash w with ⟨hnow, hview⟩ | ⟨-, hview⟩
  · rw [hnow, hview, h]
  · exact hview

theorem still_persistent : Persistent u Still := by
  intro b v b' v' h hsince
  refine ⟨fun t => ?_, fun w => hash_same hsince (h.2 w)⟩
  rcases hsince.token t with ⟨hnow, hview⟩ | ⟨-, hview⟩
  · rw [hnow, hview, h.1]
  · exact hview

theorem adds_persistent : Persistent u (Adds u f) := by
  intro b v b' v' h hsince
  refine ⟨fun t => ?_, fun w => hash_same hsince (h.hash w)⟩
  rcases hsince.token t with ⟨hnow, hview⟩ | ⟨-, hview⟩
  · exact hnow ▸ hview ▸ h.token t
  · exact .inl hview

/-- A token of the user that is there, and something else. -/
def With (t : TokenId) (s : Standing) (Fact : Book → Book → Prop) (b v : Book) : Prop :=
  b.token t = some s ∧ Fact b v

theorem with_persistent {Fact : Book → Book → Prop} (hs : s.userId = u)
    (hFact : Persistent u Fact) : Persistent u (With t s Fact) :=
  fun _ _ _ _ h hsince => ⟨(hsince.same t s hs).mpr h.1, hFact _ _ _ _ h.2 hsince⟩

/-- What the scope covers belongs to the user `u`. -/
def Anchored (u : Uuid) : Scope → Book → Prop
  | .user w, _ => w = u
  | .family f, b => ∃ t s, b.token t = some s ∧ s.userId = u ∧ s.familyId = f

theorem Anchored.inside (h : Anchored u scope b) (hb : b.Sound) (hs : b.token t = some s)
    (hcovers : scope.covers s.userId s.familyId = true) : s.userId = u := by
  cases scope with
  | user w => exact (beq_iff_eq.mp hcovers).trans h
  | family f =>
    obtain ⟨t', s', hs', hu, hf⟩ := h
    exact (hb t t' s s' hs hs' ((beq_iff_eq.mp hcovers).trans hf.symm)).trans hu

/-- A revocation on its way. -/
def Revoking (u : Uuid) (scope : Scope) (left : TokenId → Prop) (b v : Book) : Prop :=
  Anchored u scope b ∧ Revokes u scope left b v

theorem revoking_persistent : Persistent u (Revoking u scope left) := by
  intro b v b' v' h hsince
  have hanchored : Anchored u scope b' := by
    cases scope with
    | user w => exact h.1
    | family f =>
      obtain ⟨t, s, hs, hu, hf⟩ := h.1
      exact ⟨t, s, (hsince.same t s hu).mpr hs, hu, hf⟩
  refine ⟨hanchored, fun t => ?_, fun t s hs hcovers hlive => ?_,
    fun w hw => hash_same hsince (h.2.hash w hw)⟩
  · rcases hsince.token t with ⟨hnow, hview⟩ | ⟨-, hview⟩
    · exact hnow ▸ hview ▸ h.2.token t
    · exact .inl hview
  · rcases hsince.token t with ⟨-, hview⟩ | ⟨hold, hview⟩
    · exact h.2.covered t s (hview ▸ hs) hcovers hlive
    · -- a token of somebody else's doing is the user's own, and was there before
      have hs' : b'.token t = some s := hview ▸ hs
      have hthen := (hsince.same t s (hanchored.inside hsince.sound hs' hcovers)).mp hs'
      exact h.2.covered t s (hold.trans hthen) hcovers hlive

/-! ## What a statement adds -/

variable {α : Type} {e : Effect Tables Key α} {db : Database} {new : List Note}

theorem adds_of_still (h : Still b v) : Adds u f b v := ⟨fun t => .inl (h.1 t), h.2⟩

theorem adds_congr (h : Adds u f b v) (htoken : v'.token = v.token) (hhash : v'.hash = v.hash) :
    Adds u f b v' := ⟨htoken ▸ h.token, hhash ▸ h.hash⟩

theorem adds_insert (h : Adds u f b (book db)) (he : Inserts u f t db.rows e) :
    Adds u f b (book ⟨e.write db.rows, new⟩) := by
  have hnow : (book ⟨e.write db.rows, new⟩).token =
      Function.update (book db).token t (some ⟨u, f, true⟩) := he.sets.standings
  refine ⟨fun t' => ?_, fun w => ?_⟩
  · rw [hnow, Function.update_apply]
    split
    · next heq =>
      subst heq
      refine .inr ⟨?_, rfl⟩
      rcases h.token t' with hsame | ⟨hnone, -⟩
      · exact hsame.symm.trans he.absent
      · exact hnone
    · exact h.token t'
  · rw [← h.hash]
    exact congrFun he.sets.hashes w

/-- A token entered as it was. -/
theorem adds_same (h : Adds u f b (book db)) (hs : standings db.rows t = some s)
    (he : Sets (rowOf t) (.token s) e) : Adds u f b (book ⟨e.write db.rows, new⟩) := by
  refine adds_congr h ?_ he.hashes
  show standings (e.write db.rows) = standings db.rows
  rw [he.standings, ← hs, Function.update_eq_self]

theorem adds_quiet (h : Adds u f b (book db)) (he : Quiet e) :
    Adds u f b (book ⟨e.write db.rows, new⟩) := adds_congr h he.standings he.hashes

theorem revoking_congr (h : Revoking u scope left b v) (htoken : v'.token = v.token)
    (hhash : v'.hash = v.hash) : Revoking u scope left b v' := by
  obtain ⟨hanchored, ht, hc, hh⟩ := h
  exact ⟨hanchored, htoken ▸ ht, htoken ▸ hc, hhash ▸ hh⟩

/-- What is left to do matters where there is a live token only. -/
theorem revoking_mono (h : Revoking u scope left b v)
    (hleft : ∀ t s, v.token t = some s → scope.covers s.userId s.familyId = true →
      s.live = true → left t → later t) : Revoking u scope later b v := by
  refine ⟨h.1, h.2.token, fun t s hs hcovers hlive => ?_, h.2.hash⟩
  exact hleft t s hs hcovers hlive (h.2.covered t s hs hcovers hlive)

/-- One row of the loop, after which it is no longer left. -/
theorem revoking_kills (hb : b.Sound)
    (h : Revoking u scope (fun t' => t' = t ∨ later t') b (book db))
    (he : Kills scope t db.rows e) :
    Revoking u scope later b (book ⟨e.write db.rows, new⟩) := by
  rcases he with ⟨hquiet, hdead⟩ | ⟨s, hs, hcovers, hsets⟩
  · refine revoking_congr (revoking_mono h ?_) hquiet.standings hquiet.hashes
    rintro t' s' hs' hcovers hlive (rfl | hlater)
    · simp [hdead s' hs' hcovers] at hlive
    · exact hlater
  · obtain ⟨hanchored, htoken, hcovered, hhash⟩ := h
    have hnow : (book ⟨e.write db.rows, new⟩).token =
        Function.update (book db).token t (some s.revoked) := hsets.standings
    refine ⟨hanchored, fun t' => ?_, fun t' s' hs' hcovers' hlive => ?_, fun w hw => ?_⟩
    · rw [hnow, Function.update_apply]
      split
      · next heq =>
        subst heq
        -- the token was there in the book, whatever has been done to it since
        right
        rcases htoken t' with hsame | ⟨s₀, hs₀, hu, hrevoked⟩
        · have hbook : b.token t' = some s := hsame.symm.trans hs
          exact ⟨s, hbook, hanchored.inside hb hbook hcovers, rfl⟩
        · have heq : s = s₀.revoked := Option.some.inj (hs.symm.trans hrevoked)
          exact ⟨s₀, hs₀, hu, by rw [heq]; rfl⟩
      · exact htoken t'
    · rw [hnow, Function.update_apply] at hs'
      split at hs'
      · cases hs'
        cases hlive
      next hne =>
      rcases hcovered t' s' hs' hcovers' hlive with heq | hlater
      · exact absurd heq hne
      · exact hlater
    · rw [← hhash w hw]
      exact congrFun hsets.hashes w

/-- The listing leaves to do what it has found. -/
theorem revoking_lists {ids : Effect Tables Key (List Uuid)}
    (h : Revoking u scope left b (book db)) (he : Lists scope kind db.rows ids)
    (hkind : ∀ t, left t → (∃ id, t = kind id) ∨ later t) :
    Revoking u scope (fun t => (∃ id ∈ ids.value, t = kind id) ∨ later t) b
      (book ⟨ids.write db.rows, new⟩) := by
  refine revoking_congr (revoking_mono h ?_) he.1.standings he.1.hashes
  intro t s hs hcovers hlive hleft
  rcases hkind t hleft with ⟨id, rfl⟩ | hlater
  · exact .inl ⟨id, he.2 id s hs hcovers hlive, rfl⟩
  · exact .inr hlater

end Facts

/-! ## Stretches of a transaction -/

variable {ses : Session Database Key Env} {env₀ : Env} {stored : StoredRefreshToken}
variable {token : String}

variable {note : Env → List Note} {ε : Type} {f : Uuid} {v : Database} {env : Env}
variable {busy : Key → Bool} {db : Database}

section Stretches

variable {Opens : Prop} {Fair : Open Database Key Env → Database → Prop} {i : Nat}
variable {α β : Type} {u : Uuid} {new : List Note} {Fact : Book → Book → Prop}
variable {o : Open Database Key Env} {x : Database × Unit}
variable {Q : α → Session Database Key Env → Unit → Database × Unit → Prop}

/-- A call of the service that keeps to the protocol and the terms of the sessions. -/
abbrev Goes (Opens : Prop) (Fair : Open Database Key Env → Database → Prop) (i : Nat)
    (Q : α → Session Database Key Env → Unit → Database × Unit → Prop) :=
  (sessions Opens).Honours (sessionTerms Fair) remote i Q

/-- A statement: what is known after it, and the rest. -/
theorem doing_query {q : Stmt β} {k : Except Fault β → Prog α} (h : Doing u new Fact o x.1)
    (hok : ∀ env busy e, q o.begun env busy (o.write x.1).rows = some e → Rowwise e ∧
      ∃ Fact' : Book → Book → Prop, Persistent u Fact' ∧
        Fact' (book x.1) (book ⟨e.write (o.write x.1).rows, (o.write x.1).notes ++ note env⟩) ∧
        ∀ o' y, Doing u (new ++ note env) Fact' o' y.1 → Fair o' y.1 →
          Goes Opens Fair i Q (k (.ok e.value)) (.active o') () y)
    (herr : ∀ f y, Goes Opens Fair i Q (k (.error f)) .failed () y) :
    Goes Opens Fair i Q (query (q.noting note) >>= k)
      (.active o) () x := by
  refine lasting_query (fun hmust => hmust.elim) (fun env busy e he => ?_) herr
  obtain ⟨e', he', hvalue, -, hwrite⟩ := Stmt.noting_some he
  obtain ⟨hrows, Fact', hlasting, hfact, hk⟩ := hok env busy e' he'
  refine ⟨Doing u (new ++ note env) Fact', doing_lasting hlasting, ⟨?_, h.sound, ?_⟩,
    fun y hy hfair => ?_⟩
  · exact (h.working.extend he fun e'' he'' => by
      rw [he'] at he''
      cases he''
      exact hrows)
  · show Fact' _ (book (e.write (o.write x.1)))
    rw [hwrite]
    exact hfact
  · rw [hvalue]
    exact hk _ y hy hfair

/-- A statement that notes nothing. -/
theorem doing_exec {q : Stmt β} {k : Except Fault β → Prog α} (h : Doing u new Fact o x.1)
    (hok : ∀ env busy e, q o.begun env busy (o.write x.1).rows = some e → Rowwise e ∧
      ∃ Fact' : Book → Book → Prop, Persistent u Fact' ∧
        (∀ notes, Fact' (book x.1) (book ⟨e.write (o.write x.1).rows, notes⟩)) ∧
        ∀ o' y, Doing u new Fact' o' y.1 → Fair o' y.1 → Goes Opens Fair i Q (k (.ok e.value))
            (.active o') () y)
    (herr : ∀ f y, Goes Opens Fair i Q (k (.error f)) .failed () y) :
    Goes Opens Fair i Q (exec q >>= k) (.active o) () x := by
  refine doing_query h (fun env busy e he => ?_) herr
  obtain ⟨hrows, Fact', hlasting, hfact, hk⟩ := hok env busy e he
  refine ⟨hrows, Fact', hlasting, hfact _, fun o' y hy hfair => hk o' y ?_ hfair⟩
  rw [List.append_nil] at hy
  exact hy

/-- After a stretch that was not in vain the transaction is still at work. -/
def Ready (u : Uuid) (new : List Note) (Fact : Book → Book → Prop) {ε : Type}
    (r : Except ε β) (ses : Session Database Key Env) (_ : Unit) (y : Database × Unit) : Prop :=
  ∀ value, r = .ok value → ∃ o, ses = .active o ∧ Doing u new Fact o y.1

theorem ready_bind {p : Prog (Except ε β)} {k : Except ε β → Prog α}
    (hp : Goes Opens Fair i (Ready u new Fact) p ses () x)
    (herr : ∀ f ses y, Goes Opens Fair i Q (k (.error f)) ses () y)
    (hok : ∀ value o y, Doing u new Fact o y.1 →
      Goes Opens Fair i Q (k (.ok value)) (.active o) () y) :
    Goes Opens Fair i Q (p >>= k) ses () x := by
  refine honours_bind hp fun r ses a y hr => ?_
  cases r with
  | error f => exact herr f ses y
  | ok value =>
    obtain ⟨o, rfl, hdoing⟩ := hr value rfl
    exact hok value o y hdoing

theorem ready_error {f : ε} {a : Unit} {y : Database × Unit} :
    Ready u new Fact (Except.error f : Except ε β) ses a y := by
  intro _ h
  cases h

/-- The commit of a transaction that changes the book. -/
theorem doing_commit {k : Except Fault Unit → Prog α} (h : Doing u new Fact o x.1)
    (hchange : Change (book x.1) (book (o.write x.1)))
    (hopens : ¬ Opens → Unopened (book x.1) (book (o.write x.1)))
    (htouches : Touches u (book x.1) (book (o.write x.1)))
    (hk : ∀ r y, Goes Opens Fair i Q (k r) .idle () y) :
    Goes Opens Fair i Q (commit >>= k) (.active o) () x :=
  honours_commit trivial ⟨(), h.working.commits hchange hopens htouches i, fun r y _ _ => hk r y⟩
    fun y _ _ => hk _ y

theorem unopened_of_notes {b b' : Book} {n : List Note} (hnotes : b'.notes = b.notes ++ n)
    (hn : ∀ f u h, Note.opened f u h ∉ n) : Unopened b b' := by
  intro f u h hmem
  rw [hnotes, List.mem_append] at hmem
  exact hmem.resolve_right (hn f u h)

/-! ## A revocation -/

variable {scope : Scope} {left later : TokenId → Prop}

theorem Kills.rowwise {t : TokenId} {v : Tables} {e : Effect Tables Key β}
    (h : Kills scope t v e) : Rowwise e := by
  rcases h with ⟨hquiet, -⟩ | ⟨s, -, -, hsets⟩
  · exact hquiet.rowwise
  · exact hsets.rowwise

/-- The rows one after the other. -/
theorem forEach_revokes {q : Uuid → Stmt Nat}
    (hq : ∀ id begun env busy v e, q id begun env busy v = some e → Kills scope (kind id) v e) :
    ∀ (ids : List Uuid) (count : Nat) (o : Open Database Key Env) (x : Database × Unit),
      Doing u new (Revoking u scope fun t => (∃ id ∈ ids, t = kind id) ∨ later t) o x.1 →
      Goes Opens Fair i
        (Ready u new (Revoking u scope later)) (forEach (fun id => (q id).plain) ids count)
        (.active o) () x := by
  intro ids
  induction ids with
  | nil =>
    intro count o x h value _
    exact ⟨o, rfl, h.working, h.sound, revoking_mono h.fact fun t _ _ _ _ ht => by simpa using ht⟩
  | cons id rest ih =>
    intro count o x h
    refine doing_exec h (fun env busy e he => ?_) fun f y => ready_error
    have hkills := hq id _ _ _ _ _ he
    refine ⟨hkills.rowwise, Revoking u scope fun t => (∃ id ∈ rest, t = kind id) ∨ later t,
      revoking_persistent, fun notes => ?_, fun o' y hy _ => ?_⟩
    · refine revoking_kills h.sound (revoking_mono h.fact fun t _ _ _ _ ht => ?_) hkills
      simpa [or_assoc] using ht
    · exact ih _ o' y hy

/-- One `UPDATE` of a revocation. -/
theorem forRows_revokes (later : TokenId → Prop) (note : List Note) {listing : Stmt (List Uuid)}
    {q : Uuid → Stmt Nat}
    (hlist : ∀ begun env busy v e, listing begun env busy v = some e → Lists scope kind v e)
    (hq : ∀ id begun env busy v e, q id begun env busy v = some e → Kills scope (kind id) v e)
    (hkind : ∀ t, left t → (∃ id, t = kind id) ∨ later t)
    (h : Doing u new (Revoking u scope left) o x.1) :
    Goes Opens Fair i (Ready u (new ++ note) (Revoking u scope later))
      (forRows (listing.noting fun _ => note) fun id => (q id).plain) (.active o) () x := by
  refine doing_query h (fun env busy e he => ?_) fun f y => ready_error
  have hlists := hlist _ _ _ _ _ he
  refine ⟨hlists.1.rowwise, _, revoking_persistent, revoking_lists h.fact hlists hkind, ?_⟩
  exact fun o' y hy _ => forEach_revokes hq e.value 0 o' y hy

/-- Both of them. -/
theorem revoke_honours (h : Doing u new (Revoking u scope fun _ => True) o x.1) : Goes Opens Fair i
      (Ready u (new ++ [.revoked scope]) (Revoking u scope fun _ => False))
      (do
        let .ok _ ← revokeRefreshTokens scope | return .error Failure.database
        let .ok _ ← revokeAccessTokens scope | return .error Failure.database
        return .ok () : Prog (Except Failure Unit))
      (.active o) () x := by
  refine ready_bind (forRows_revokes (fun t => ∃ id, t = .access id) [.revoked scope]
    (fun _ _ _ _ _ => affectedRefreshTokens_some)
    (fun _ _ _ _ _ _ => revokeRefreshToken_some) ?_ h) (fun _ _ _ => ready_error)
    fun _ o' y hdoing => ?_
  · rintro (id | id) _
    · exact .inl ⟨id, rfl⟩
    · exact .inr ⟨id, rfl⟩
  · refine ready_bind (forRows_revokes (fun _ => False) []
      (fun _ _ _ _ _ => affectedAccessTokens_some)
      (fun _ _ _ _ _ _ => revokeAccessToken_some) (fun t ht => .inl ht) hdoing)
      (fun _ _ _ => ready_error) fun _ o'' y hdone => ?_
    rw [List.append_nil] at hdone
    exact fun _ _ => ⟨o'', rfl, hdone⟩

theorem revoked_commit {k : Except Fault Unit → Prog α}
    (h : Doing u [.revoked scope] (Revoking u scope fun _ => False) o x.1)
    (hk : ∀ r y, Goes Opens Fair i Q (k r) .idle () y) :
    Goes Opens Fair i Q (commit >>= k) (.active o) () x := by
  have hnotes : (book (o.write x.1)).notes = (book x.1).notes ++ [.revoked scope] :=
    h.working.notes x.1
  refine doing_commit h (.revoke h.fact.2 hnotes) (fun _ => ?_) (revokes_touches h.fact.2) hk
  exact unopened_of_notes hnotes fun _ _ _ hmem => by simp at hmem

/-! ## The row that comes first -/

/-- A transaction whose first statement has locked a row of the user. -/
theorem working_first {q : Stmt β} {e : Effect Database Key β}
    (he : q.noting note env₀ env busy v = some e)
    (hq : ∀ e', q env₀ env busy v.rows = some e' → e'.value = e.value →
      Rowwise e' ∧ ∃ r, .owned u r ∈ e'.locks) :
    Working u (note env) ((Open.fresh env₀).extend e) := by
  obtain ⟨e', he', hvalue, hlocks, hwrite⟩ := Stmt.noting_some he
  obtain ⟨hrows, r, hr⟩ := hq e' he' hvalue.symm
  refine ⟨⟨r, List.mem_append_left _ (hlocks ▸ hr)⟩, ?_, fun y => ?_⟩
  · have hpoint : Pointwise (fun db : Database => info db.rows) Key.row e.locks e.write :=
      rowwise_noted hwrite (hlocks ▸ hrows)
    exact Pointwise.comp (.same fun _ => rfl) hpoint
  · show (e.write y).notes = y.notes ++ note env
    rw [hwrite]

/-- One that has locked it and done nothing else. -/
theorem working_lock {q : Stmt β} {e : Effect Database Key β}
    (he : q.plain env₀ env busy v = some e)
    (hq : ∀ e', q env₀ env busy v.rows = some e' → e'.value = e.value →
      Quiet e' ∧ ∃ r, .owned u r ∈ e'.locks) :
    Working u [] ((Open.fresh env₀).extend e) ∧
      ∀ y, info (e.write y).rows = info y.rows := by
  refine ⟨working_first he fun e' he' hv => ?_, fun y => ?_⟩
  · obtain ⟨hquiet, howner⟩ := hq e' he' hv
    exact ⟨hquiet.rowwise, howner⟩
  · obtain ⟨e', he', hvalue, -, hwrite⟩ := Stmt.noting_some he
    rw [hwrite]
    exact (hq e' he' hvalue.symm).1 y.rows

theorem still_of_info (h : info db.rows = info x.1.rows) :
    Still (book x.1) (book db) := by
  refine ⟨fun t => ?_, fun w => ?_⟩
  · exact congrArg (·.bind Info.standing?) (congrFun h (rowOf t))
  · exact congrArg (·.bind Info.hash?) (congrFun h (.user w))

/-- What is known of a refresh token that has been presented. -/
abbrev Presented (stored : StoredRefreshToken) : Book → Book → Prop :=
  With (.refresh stored.id) ⟨stored.userId, stored.familyId, stored.revokedAt.isNone⟩ Still

theorem presented_persistent : Persistent stored.userId (Presented stored) :=
  with_persistent rfl still_persistent

theorem presented_query {digest : Bytes} {k : Except Fault (Option StoredRefreshToken) → Prog α}
    (hx : (book x.1).Sound)
    (hnone : ∀ o y, Goes Opens Fair i Q (k (.ok none))
      (.active o) () y) (hsome : ∀ stored o y, Doing stored.userId [] (Presented stored) o y.1 →
      Goes Opens Fair i Q (k (.ok (some stored))) (.active o) () y)
    (herr : ∀ f y, Goes Opens Fair i Q (k (.error f)) .failed () y) :
    Goes Opens Fair i Q
      (exec (lockRefreshTokenForRotation digest) >>= k) (.active (.fresh env₀)) () x := by
  refine lasting_query (fun hmust => hmust.elim) (fun env busy e he => ?_) herr
  cases hvalue : e.value with
  | none => exact ⟨fun _ _ => True, fun _ _ _ _ _ _ => trivial, trivial, fun y _ _ => hnone _ y⟩
  | some stored =>
  obtain ⟨hworking, hsame⟩ := working_lock he fun e' he' hv => by
    obtain ⟨hquiet, hstored⟩ := lockRefreshTokenForRotation_some he'
    exact ⟨hquiet, _, (hstored stored (hv.trans hvalue)).2⟩
  obtain ⟨e', he', hv, -, -⟩ := Stmt.noting_some he
  have hstanding := ((lockRefreshTokenForRotation_some he').2 stored (hv ▸ hvalue)).1
  refine ⟨Doing stored.userId [] (Presented stored), doing_lasting presented_persistent,
    ⟨hworking, hx, hstanding, still_of_info (hsame x.1)⟩, fun y hy _ => hsome stored _ y hy⟩

/-! ## The calls -/

variable {L : Library}

theorem issueTokenPair_outside : Prog.Outside remote (fun _ => True) (issueTokenPair L) := by
  simp [issueTokenPair, newOpaqueToken, clock, remote]

theorem clock_outside : Prog.Outside remote (fun _ => True) clock :=
  ⟨fun _ _ _ => rfl, fun _ => trivial⟩

/-- A stretch outside, in the middle of a transaction. -/
theorem doing_outside {p : Prog β} {k : β → Prog α} (hp : Prog.Outside remote (fun _ => True) p)
    (hFact : Persistent u Fact) (h : Doing u new Fact o x.1)
    (hk : ∀ r y, Doing u new Fact o y.1 → Goes Opens Fair i Q (k r) (.active o) () y) :
    Goes Opens Fair i Q (p >>= k) (.active o) () x := by
  refine honours_bind (lasting_outside sessions_worldly (doing_lasting hFact) hp h) ?_
  rintro r ses ⟨⟩ y ⟨-, rfl, hy⟩
  exact hk r y hy

/-- The access token that comes with a refresh token. -/
theorem createAccessToken_honours {tokens : TokenPair} (hFact : Persistent u Fact)
    (hinsert : ∀ {b : Book} {db : Database} {t : TokenId} {e : Effect Tables Key Unit}
      {n : List Note}, Fact b (book db) → Inserts u f t db.rows e →
        Fact b (book ⟨e.write db.rows, n⟩)) (h : Doing u new Fact o x.1) :
    Goes Opens Fair i (fun r ses _ y => ∀ value, r = .ok value →
        ∃ o, ses = .active o ∧ Doing u new Fact o y.1 ∧ Fair o y.1)
      (createAccessToken u f tokens) (.active o) () x := by
  refine doing_exec h (fun env busy e he => ?_) nofun
  have hinserts := createAuthSession_some he
  refine ⟨hinserts.sets.rowwise, Fact, hFact, fun notes => hinsert h.fact hinserts, ?_⟩
  exact fun o' y hy hfair _ _ => ⟨o', rfl, hy, hfair⟩

/-- A token in order is exchanged for a pair in the same family. -/
theorem rotate_honours (hlive : stored.revokedAt.isNone = true)
    (h : Doing stored.userId [] (Presented stored) o x.1) :
    Goes Opens Fair i Done (rotate L stored)
      (.active o) () x := by
  -- from the first insert on
  let Issuing : Book → Book → Prop :=
    With (.refresh stored.id) ⟨stored.userId, stored.familyId, true⟩
      (Adds stored.userId stored.familyId)
  have hissuing : Persistent stored.userId Issuing := with_persistent rfl adds_persistent
  refine doing_outside issueTokenPair_outside presented_persistent h fun tokens y hy => ?_
  cases tokens with
  | none => trivial
  | some tokens =>
  refine doing_exec hy (fun env busy e he => ?_) fun _ _ => trivial
  have hinserts := insertRefreshToken_some he
  refine ⟨hinserts.sets.rowwise, Issuing, hissuing, fun notes => ?_, fun o₁ y₁ hy₁ _ => ?_⟩
  · exact ⟨hlive ▸ hy.fact.1, adds_insert (adds_of_still hy.fact.2) hinserts⟩
  · refine doing_exec hy₁ (fun env busy e he => ?_) fun _ _ => trivial
    have hmark := markRefreshTokenRotated_some he
    have hrows : Rowwise e := by
      rcases hmark with hquiet | ⟨s, -, hsets⟩
      · exact hquiet.rowwise
      · exact hsets.rowwise
    refine ⟨hrows, Issuing, hissuing, fun notes => ⟨hy₁.fact.1, ?_⟩, fun o₂ y₂ hy₂ _ => ?_⟩
    · rcases hmark with hquiet | ⟨s, hs, hsets⟩
      · exact adds_quiet hy₁.fact.2 hquiet
      · exact adds_same hy₁.fact.2 hs hsets
    · show Goes _ _ _ _ (if e.value ≠ 1 then _ else _) _ _ _
      split
      · trivial
      refine honours_bind (createAccessToken_honours hissuing
        (fun hb he => ⟨hb.1, adds_insert hb.2 he⟩) hy₂) fun r ses a y₃ hr => ?_
      cases r with
      | error failure => trivial
      | ok value =>
      obtain ⟨o₃, rfl, hy₃, -⟩ := hr value rfl
      have hnotes : (book (o₃.write y₃.1)).notes = (book y₃.1).notes := by
        have := hy₃.working.notes y₃.1
        rwa [List.append_nil] at this
      refine doing_commit hy₃ (.issue hy₃.fact.2 hy₃.fact.1 hnotes) (fun _ => ?_)
        (adds_touches hy₃.fact.2) fun r y => ?_
      · intro f u g hmem
        rwa [hnotes] at hmem
      · cases r <;> trivial

/-- The presented token is what the scope of the revocation is known by. -/
theorem revoking_presented (h : Doing stored.userId [] (Presented stored) o x.1)
    (hscope : scope = .user stored.userId ∨ scope = .family stored.familyId) :
    Doing stored.userId [] (Revoking stored.userId scope fun _ => True) o x.1 := by
  refine ⟨h.working, h.sound, ?_, fun t => .inl (h.fact.2.1 t), fun _ _ _ _ _ => trivial,
    fun w _ => h.fact.2.2 w⟩
  rcases hscope with rfl | rfl
  · rfl
  · exact ⟨_, _, h.fact.1, rfl, rfl⟩

theorem refresh_honours (hx : (book x.1).Sound) : Goes Opens Fair i Done (refresh L token)
      ses () x := by
  unfold refresh
  split
  · trivial
  refine honours_start (fun env y hy _ => ?_) fun _ _ _ => trivial
  refine presented_query (hy.sound hx) (fun _ _ => trivial) ?_ fun _ _ => trivial
  intro stored o y h
  show Goes _ _ _ _ (if stored.rotatedAt.isSome then _ else _) _ _ _
  split
  · refine ready_bind (revoke_honours (revoking_presented h (.inr rfl)))
      (fun _ _ _ => trivial) fun _ o' y hdone => ?_
    exact revoked_commit hdone fun r y => by cases r <;> trivial
  refine doing_outside clock_outside presented_persistent h fun now y hy => ?_
  show Goes _ _ _ _ (if _ then _ else _) _ _ _
  split
  · trivial
  · next hactive =>
    simp only [Bool.or_eq_true, not_or, Bool.not_eq_true, Option.isSome_eq_false_iff] at hactive
    exact rotate_honours hactive.1 hy

/-- A transaction that has revoked something ends with its commit. -/
theorem revoked_end {v : Uuid} (r : Except Failure Unit) (ses : Session Database Key Env)
    (a : Unit) (y : Database × Unit) :
    Ready v [.revoked scope] (Revoking v scope fun _ => False) r ses a y →
    Goes Opens Fair i Done
      (match r with
        | .ok () => do
            let .ok () ← commit | return .error Failure.database
            return .ok ()
        | _ => return .error Failure.database : Prog (Except Failure Unit)) ses a y := by
  intro hr
  cases r with
  | error failure => trivial
  | ok value =>
  obtain ⟨o', rfl, hdone⟩ := hr value rfl
  refine revoked_commit hdone fun r y => ?_
  cases r <;> trivial

theorem logout_honours {allSessions : Bool} (hx : (book x.1).Sound) : Goes Opens Fair i Done
      (logout L token allSessions) ses () x := by
  unfold logout
  split
  · trivial
  refine honours_start (fun env y hy _ => ?_) fun _ _ _ => trivial
  refine presented_query (hy.sound hx) (fun _ _ => trivial) ?_ fun _ _ => trivial
  intro stored o y h
  refine doing_outside clock_outside presented_persistent h fun now y hy => ?_
  show Goes _ _ _ _ ((if _ then _ else _) >>= _) _ _ _
  split
  · exact honours_bind (revoke_honours (revoking_presented hy (.inl rfl))) revoked_end
  · exact honours_bind (revoke_honours (revoking_presented hy (.inr rfl))) revoked_end

/-- A stretch outside, with or without a transaction. -/
theorem sound_outside {p : Prog β} {k : β → Prog α} (hp : Prog.Outside remote (fun _ => True) p)
    (hx : (book x.1).Sound) (hk : ∀ r y, (book y.1).Sound → Goes Opens Fair i Q (k r) ses () y) :
    Goes Opens Fair i Q (p >>= k) ses () x := by
  induction p generalizing x with
  | ret r => exact hk r x hx
  | call c next ih =>
    refine honours_call fun env => ⟨(), sessions_worldly _ _ _ _ _, ?_⟩
    exact fun y hy _ => ih _ (hp.2 _) (hy.sound hx)
  | query | start | commit | rollback => exact hp.elim

/-- A reset token of the user that has been locked, with nothing done yet. -/
structure Holding (id u : Uuid) (o : Open Database Key Env) (x : Database) : Prop where
  doing : Doing u [] Still o x
  lock : .row (.actionToken id) ∈ o.locks
  write : ∀ y, info (o.write y).rows = info y.rows
  owner : info x.rows (.actionToken id) = some (.owner u)

theorem holding_lasting {id : Uuid} :
    (sessions Opens).Lasting (sessionTerms Fair) (Holding id u) := by
  intro o x y h hy hfair
  refine ⟨doing_lasting still_persistent o x y h.doing hy hfair, h.lock, h.write, ?_⟩
  rw [hy.rows _ h.lock]
  exact h.owner

/-- The other reset tokens have nothing to do with the book. -/
theorem invalidate_honours {user : Uuid} (hFact : Persistent u Fact)
    (hkeep : ∀ b v v' : Book, Fact b v → v'.token = v.token → v'.hash = v.hash → Fact b v')
    (h : Doing u new Fact o x.1) :
    Goes Opens Fair i (Ready u new Fact)
      (invalidateActivePasswordResetTokens user) (.active o) () x := by
  have heach : ∀ (ids : List Uuid) (count : Nat) (o : Open Database Key Env)
      (x : Database × Unit), Doing u new Fact o x.1 →
      Goes Opens Fair i (Ready u new Fact)
        (forEach (fun id => (invalidatePasswordResetToken user id).plain) ids count)
        (.active o) () x := by
    intro ids
    induction ids with
    | nil => exact fun _ o _ h _ _ => ⟨o, rfl, h⟩
    | cons id rest ih =>
      intro count o x h
      refine doing_exec h (fun env busy e he => ?_) fun f y => ready_error
      obtain ⟨hrows, hsame⟩ := invalidatePasswordResetToken_some he
      refine ⟨hrows, Fact, hFact, fun notes => ?_, fun o' y hy _ => ih _ o' y hy⟩
      exact hkeep _ _ _ h.fact (hsame _).1 (hsame _).2
  refine doing_exec h (fun env busy e he => ?_) fun f y => ready_error
  cases he
  refine ⟨.same fun _ => rfl, Fact, hFact, fun notes => ?_, ?_⟩
  · exact hkeep _ _ _ h.fact rfl rfl
  · exact fun o' y hy _ => heach _ 0 o' y hy

/-- The rest of a reset, from the password on. -/
theorem reset_honours {stored : StoredResetToken} {passwordHash : PasswordHash}
    (h : Holding stored.id stored.userId o x.1) :
    Goes Opens Fair i Done
      (do
        let .ok updated ← exec (completePasswordReset stored.id passwordHash)
          | return .error .database
        if updated ≠ 1 then return .error errInvalidPasswordResetToken
        let .ok _ ← invalidateActivePasswordResetTokens stored.userId
          | return .error .database
        let .ok () ← revokeUserSessions stored.userId | return .error .database
        let .ok () ← commit | return .error .database
        return .ok () : Prog (Except Failure Unit)) (.active o) () x := by
  have hview : info (o.write x.1).rows (.actionToken stored.id) =
      some (.owner stored.userId) := by
    rw [h.write]
    exact h.owner
  refine doing_exec h.doing (fun env busy e he => ?_) fun _ _ => trivial
  obtain ⟨hrows, hbook⟩ := completePasswordReset_some hview he
  refine ⟨hrows, Revoking stored.userId (.user stored.userId) fun _ => True,
    revoking_persistent, fun notes => ?_, fun o₁ y₁ h₁ _ => ?_⟩
  · refine ⟨rfl, fun t => .inl ?_, fun _ _ _ _ _ => trivial, fun w hw => ?_⟩
    · rw [← h.doing.fact.1 t]
      exact congrFun (hbook _).1 t
    · rw [← h.doing.fact.2 w]
      exact (hbook _).2 w fun heq => hw (heq ▸ rfl)
  · show Goes _ _ _ _ (if e.value ≠ 1 then _ else _) _ _ _
    split
    · trivial
    refine ready_bind (invalidate_honours revoking_persistent (fun _ _ _ => revoking_congr) h₁)
      (fun _ _ _ => trivial) fun _ o₂ y h₂ => ?_
    refine ready_bind (revoke_honours h₂) (fun _ _ _ => trivial) fun _ o₃ y h₃ => ?_
    exact revoked_commit h₃ fun r y => by cases r <;> trivial

theorem resetPassword_honours {newPassword : String} (hx : (book x.1).Sound) :
    Goes Opens Fair i Done
      (resetPassword L token newPassword) ses () x := by
  have hhash : Prog.Outside remote (fun _ => True) (hashPassword L newPassword) := by
    refine Prog.outside_call (fun _ _ _ => rfl) fun salt => ?_
    cases salt <;> trivial
  unfold resetPassword
  split
  · trivial
  split
  · trivial
  refine sound_outside hhash hx fun passwordHash y hy => ?_
  cases passwordHash with
  | none => trivial
  | some passwordHash =>
  refine honours_start (fun env z hz _ => ?_) fun _ _ _ => trivial
  have hsound := hz.sound hy
  refine lasting_query (fun hmust => hmust.elim) (fun env busy e he => ?_) fun _ _ => trivial
  cases hvalue : e.value with
  | none => exact ⟨fun _ _ => True, fun _ _ _ _ _ _ => trivial, trivial, fun _ _ _ => trivial⟩
  | some stored =>
  obtain ⟨hworking, hsame⟩ := working_lock he fun e' he' hv => by
    obtain ⟨hquiet, hstored⟩ := lockPasswordResetToken_some he'
    exact ⟨hquiet, _, (hstored stored (hv.trans hvalue)).2.2⟩
  obtain ⟨e', he', hv, hlocks, -⟩ := Stmt.noting_some he
  obtain ⟨howner, hlock, -⟩ :=
    (lockPasswordResetToken_some he').2 stored (hv ▸ hvalue)
  refine ⟨Holding stored.id stored.userId, holding_lasting,
    ⟨⟨hworking, hsound, still_of_info (hsame z.1)⟩,
      List.mem_append_left _ (hlocks ▸ hlock), hsame, howner⟩,
    fun y h _ => ?_⟩
  refine honours_bind (lasting_outside sessions_worldly holding_lasting clock_outside h) ?_
  rintro now ses ⟨⟩ y ⟨-, rfl, h⟩
  show Goes _ _ _ _ (if _ then _ else _) _ _ _
  split
  · trivial
  · exact reset_honours h

/-! ## Opening a family -/

/-- The family is in nobody's use. -/
structure Unused (db : Database) (f : Uuid) : Prop where
  refresh : ∀ id row, db.rows.refreshTokens.find id = some row → row.familyId ≠ f
  access : ∀ id row, db.rows.authSessions.find id = some row → row.familyId ≠ f
  notes : ∀ u h, .opened f u h ∉ db.notes

/-- The families a transaction is about to open are new ones, and the password of
the user is still the one that was verified. -/
def Current (o : Open Database Key Env) (db : Database) : Prop :=
  ∀ f u h, .opened f u h ∈ o.pending db →
    Unused db f ∧ ∃ user, db.rows.users.find u = some user ∧ user.passwordHash = h

theorem Unused.fresh (h : Unused db f) (t : TokenId) (s : Standing)
    (hs : (book db).token t = some s) : s.familyId ≠ f := by
  cases t with
  | refresh id =>
    cases hfind : db.rows.refreshTokens.find id <;>
      simp [book, standings, rowOf, info, Info.standing?, hfind] at hs
    exact hs ▸ h.refresh id _ hfind
  | access id =>
  cases hfind : db.rows.authSessions.find id <;>
    simp [book, standings, rowOf, info, Info.standing?, hfind] at hs
  exact hs ▸ h.access id _ hfind

theorem createTokenFamily_honours {verified : PasswordHash} (hopens : Opens)
    (hfair : ∀ o db, Fair o db → Current o db) (hx : (book x.1).Sound) :
    Goes Opens Fair i Done
      (createTokenFamily L verified u) ses () x := by
  refine sound_outside issueTokenPair_outside hx fun tokens y hy => ?_
  cases tokens with
  | none => trivial
  | some tokens =>
  refine honours_start (fun env z hz _ => ?_) fun _ _ _ => trivial
  have hsound := hz.sound hy
  have hpersist : Goes Opens Fair i
      (fun r ses _ y => ∀ value, r = .ok value → ∃ o f, ses = .active o ∧
        Doing u [.opened f u verified] (Adds u f) o y.1 ∧ Fair o y.1)
      (persistNewTokenFamily verified u tokens) (.active (.fresh env)) () z := by
    refine lasting_query (fun hmust => hmust.elim) (fun env busy e he => ?_) nofun
    obtain ⟨e', he', hvalue, -, hwrite⟩ := Stmt.noting_some he
    obtain ⟨hfamily, hinserts⟩ := createRefreshTokenFamily_some he'
    have hworking : Working u [.opened env.family u verified] ((Open.fresh _).extend e) :=
      working_first he fun e'' he'' _ => by
        obtain ⟨-, hinserts⟩ := createRefreshTokenFamily_some he''
        exact ⟨hinserts.sets.rowwise, _, hinserts.owner⟩
    refine ⟨Doing u [.opened env.family u verified] (Adds u env.family),
      doing_lasting adds_persistent, ⟨hworking, hsound, ?_⟩, fun y hdoing _ => ?_⟩
    · show Adds u env.family (book z.1) (book (e.write z.1))
      rw [hwrite]
      exact adds_insert (adds_of_still ⟨fun _ => rfl, fun _ => rfl⟩) hinserts
    · have hvalue' : e.value = (e'.value.1, env.family) := by
        rw [hvalue, ← hfamily]
      rw [hvalue']
      refine (createAccessToken_honours adds_persistent adds_insert hdoing).mono ?_
      intro r ses a y hr value hv
      obtain ⟨o, hses, hdoing, hfair⟩ := hr value hv
      exact ⟨o, env.family, hses, hdoing, hfair⟩
  refine honours_bind hpersist fun r ses a y hr => ?_
  cases r with
  | error failure => trivial
  | ok value =>
  obtain ⟨o, f, rfl, hdoing, ho⟩ := hr value rfl
  have hpending : .opened f u verified ∈ o.pending y.1 := by
    rw [Open.pending, hdoing.working.notes]
    exact List.mem_cons_self
  obtain ⟨hunused, user, hfind, hhash⟩ := hfair o y.1 ho f u verified hpending
  have hverified : (book y.1).hash u = some verified := by
    show (info y.1.rows (.user u)).bind Info.hash? = some verified
    simp [info, Info.hash?, hfind, hhash]
  refine doing_commit hdoing (.opened hdoing.fact hunused.fresh hunused.notes hverified
    (hdoing.working.notes y.1)) (fun hno => absurd hopens hno)
    (adds_touches hdoing.fact) fun r y => ?_
  cases r <;> trivial

/-- A transaction that reads and is rolled back, whatever came of it. -/
theorem sound_read {q : Stmt β} {k : Except Fault β → Prog α} (hx : (book x.1).Sound)
    (hk : ∀ found y, (book y.1).Sound → Goes Opens Fair i Q (k found) .idle () y) :
    Goes Opens Fair i Q
      (exec q >>= fun found => rollback >>= fun _ => k found) (.active o) () x := by
  have hrest : ∀ (found : Except Fault β) (ses : Session Database Key Env)
      (y : Database × Unit), (book y.1).Sound →
      Goes Opens Fair i Q (rollback >>= fun _ => k found) ses () y :=
    fun found ses y hy z hz _ => hk found z (hz.sound hy)
  refine honours_query (fun hmust => hmust.elim) ?_ ?_
  · exact fun env busy e he z hz _ => hrest (.ok e.value) _ z (hz.sound hx)
  · exact fun f z hz _ => hrest (.error f) _ z (hz.sound hx)

theorem login_honours {email password : String} (hopens : Opens)
    (hfair : ∀ o db, Fair o db → Current o db) (hx : (book x.1).Sound) :
    Goes Opens Fair i Done
      (login L email password) ses () x := by
  unfold login
  split
  · refine honours_start (fun env y hy _ => ?_) fun _ _ _ => trivial
    refine sound_read (hy.sound hx) fun found z hz => ?_
    match found with
    | .error _ | .ok none => trivial
    | .ok (some (id, stored)) =>
    show Goes _ _ _ _ (if _ then _ else _) _ _ _
    split
    · trivial
    · refine honours_bind (createTokenFamily_honours hopens hfair hz) fun r ses a y _ => ?_
      cases r <;> trivial
  · trivial

end Stretches

end WatchTrace.Proofs.Sessions
