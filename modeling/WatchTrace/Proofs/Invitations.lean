import WatchTrace.Tx.Inside
import WatchTrace.Tx.Rowwise
import WatchTrace.Model.Ownership

/-!
# Invitations under any interleaving

An invitation is a row that is open until it is closed, and closing it is the
one thing that can happen to it. `AcceptInvitation` closes the row it has locked
and makes it a membership in the same transaction; `Invite` closes the open row of
an address and inserts another. So a token is good for one membership at most, and
for none once another invitation has taken its place.

That is said of whole runs in a later file; here are the transactions.

All of it rests on four kinds of locks. The row of an invitation is locked by
whoever closes it, so it is closed once. An insert owns its digest, and its address
among the open rows, before others can see it; and the membership that comes of an
invitation is owned by the transaction that creates it. `Leaves` is what others do
to a transaction that owns such keys; `Issued`, `Spent` and `Accepted` are what the
two calls commit.
-/

namespace WatchTrace.Proofs.Joining

open Tx Model Model.Ownership Protocol

abbrev Invitations (db : Database) : Table Uuid OrgInvitation := db.core.invitations

abbrev Members (db : Database) : Table (Uuid × Uuid) OrgMember := db.core.members

/-! ## The answers

The outside remembers the memberships that were answered, with the user and the
token of the request. -/

structure Response where
  user : AuthUser
  token : String
  membership : Membership

def record : {β : Type} → Call β → β → List Response → List Response
  | _, .respondMembership user token membership, _, w => w ++ [⟨user, token, membership⟩]
  | _, _, _, w => w

def responses : Remote Env (List Response) Call :=
  { answer := fun env c => answer env c, observe := fun _ c r => record c r }

/-- The two calls. -/
inductive Calls (L : Library) : Prog Unit → Prop
  | invite (userId organizationId : Uuid) (email : String) (role : RoleText) :
      Calls L (invite L userId organizationId email role >>= fun _ => pure ())
  | accept (user : AuthUser) (token : String) : Calls L (acceptInvitationHandler L user token)

/-! ## Rows -/

/-- An open row has been closed. -/
def Closes (r r' : OrgInvitation) : Prop :=
  r.acceptedAt = none ∧ ∃ t, r' = { r with acceptedAt := some t }

theorem Closes.trans (r s t : OrgInvitation) (h : Closes r s) (h' : Closes s t) :
    Closes r t := by
  obtain ⟨-, time, rfl⟩ := h
  cases h'.1

section

variable (L : Library)

/-- What the unique index on open rows is about. -/
def addressOf (r : OrgInvitation) : Uuid × String := (r.organizationId, L.foldColumn r.email)

/-- The two unique indexes. -/
structure Constrained (db : Database) : Prop where
  sole : ∀ {id id' r r'}, (Invitations db).find id = some r →
    (Invitations db).find id' = some r' → r.acceptedAt = none → r'.acceptedAt = none →
    addressOf L r = addressOf L r' → id = id'
  digest : ∀ {id id' r r'}, (Invitations db).find id = some r →
    (Invitations db).find id' = some r' → r.tokenDigest = r'.tokenDigest → id = id'

/-- What the others leave to a transaction that owns the keys. -/
structure Leaves (K : Key → Prop) (x y : Database) : Prop where
  constrained : Constrained L x → Constrained L y
  row : ∀ id, K (.invitation id) → (Invitations y).find id = (Invitations x).find id
  member : ∀ o u, K (.member o u) → (Members y).find (o, u) = (Members x).find (o, u)
  digest : ∀ d, K (.invitationDigest d) → ∀ id r, (Invitations y).find id = some r →
    r.tokenDigest = d → ∃ r', (Invitations x).find id = some r' ∧ r'.tokenDigest = d
  address : ∀ o a, K (.activeInvitation o a) → ∀ id r, (Invitations y).find id = some r →
    r.acceptedAt = none → addressOf L r = (o, a) → (Invitations x).find id = some r

/-- What an `Invite` commits: a new row, and all other open rows of its address
are closed. -/
structure Issued (id : Uuid) (r : OrgInvitation) (x y : Database) : Prop where
  absent : (Invitations x).find id = none
  row : (Invitations y).find id = some r
  isOpen : r.acceptedAt = none
  others : ∀ k, k ≠ id → (Invitations y).find k = (Invitations x).find k ∨
    ∃ s s', (Invitations x).find k = some s ∧ Closes s s' ∧ (Invitations y).find k = some s'
  sole : ∀ k s, k ≠ id → (Invitations y).find k = some s → s.acceptedAt = none →
    addressOf L s ≠ addressOf L r
  digest : ∀ k s, k ≠ id → (Invitations y).find k = some s → s.tokenDigest ≠ r.tokenDigest
  members : ∀ k, (Members y).find k = (Members x).find k

/-- The row is closed, and no other is touched. -/
structure Spent (id : Uuid) (r : OrgInvitation) (x y : Database) : Prop where
  row : (Invitations x).find id = some r
  isOpen : r.acceptedAt = none
  closed : ∃ t, ∀ k, (Invitations y).find k =
    if k = id then some { r with acceptedAt := some t } else (Invitations x).find k

/-- The membership an invitation stands for. -/
def OrgInvitation.member (r : OrgInvitation) : OrgMember :=
  { role := r.role, incidentNotificationsEnabled := true }

/-- What an `AcceptInvitation` that succeeds commits: the row the token stands for
was open and addressed to the user, whose address is verified; it is closed, and
there is one membership more. -/
structure Accepted (user : AuthUser) (token : String) (id : Uuid) (r : OrgInvitation)
    (x y : Database) : Prop extends Spent id r x y where
  verified : user.emailVerified = true
  addressed : L.sameAddress r.email user.email = true
  digest : r.tokenDigest = L.digest token
  absent : (Members x).find (r.organizationId, user.id) = none
  members : ∀ k, (Members y).find k =
    if k = (r.organizationId, user.id) then some (OrgInvitation.member r)
    else (Members x).find k

end

variable {L : Library} {x y z : Database} {K K' : Key → Prop}

namespace Leaves

theorem refl (K : Key → Prop) (x : Database) : Leaves L K x x where
  constrained := fun h => h
  row := fun _ _ => rfl
  member := fun _ _ _ => rfl
  digest := fun _ _ _ r hr hd => ⟨r, hr, hd⟩
  address := fun _ _ _ _ _ hr _ _ => hr

theorem trans (h : Leaves L K x y) (h' : Leaves L K y z) : Leaves L K x z where
  constrained := fun hx => h'.constrained (h.constrained hx)
  row := fun id hK => (h'.row id hK).trans (h.row id hK)
  member := fun o u hK => (h'.member o u hK).trans (h.member o u hK)
  digest := by
    intro d hK id r hr hd
    obtain ⟨r', hr', hd'⟩ := h'.digest d hK id r hr hd
    exact h.digest d hK id r' hr' hd'
  address := by
    intro o a hK id r hr hopen haddress
    exact h.address o a hK id r (h'.address o a hK id r hr hopen haddress) hopen haddress

theorem anti (hK : ∀ κ, K κ → K' κ) (h : Leaves L K' x y) : Leaves L K x y where
  constrained := h.constrained
  row := fun id hid => h.row id (hK _ hid)
  member := fun o u hou => h.member o u (hK _ hou)
  digest := fun d hd => h.digest d (hK _ hd)
  address := fun o a hoa => h.address o a (hK _ hoa)

end Leaves

/-! ## The protocol -/

/-- Where a call is: it has nothing yet, it has turned an invitation into a
membership, or it has said so. -/
inductive Phase
  | calling
  | won (user : AuthUser) (token : String) (id : Uuid) (r : OrgInvitation)
  | told

def OrgInvitation.response (r : OrgInvitation) (user : AuthUser) (token : String) : Response :=
  { user := user, token := token
    membership := { organizationId := r.organizationId, userId := user.id, role := r.role } }

inductive Move (L : Library) : Phase → Database × List Response → Phase →
    Database × List Response → Prop
  | stay {a : Phase} {x : Database × List Response} : Move L a x a x
  | issue {a : Phase} {x y : Database} {w : List Response} {id : Uuid} {r : OrgInvitation}
      (h : Issued L id r x y) : Move L a (x, w) a (y, w)
  | spend {a : Phase} {x y : Database} {w : List Response} {id : Uuid} {r : OrgInvitation}
      (h : Spent id r x y) (hmembers : ∀ k, (Members y).find k = (Members x).find k) :
      Move L a (x, w) a (y, w)
  | accept {x y : Database} {w : List Response} {user : AuthUser} {token : String} {id : Uuid}
      {r : OrgInvitation} (h : Accepted L user token id r x y) :
      Move L .calling (x, w) (.won user token id r) (y, w)
  | respond {x : Database} {w : List Response} {user : AuthUser} {token : String} {id : Uuid}
      {r : OrgInvitation} :
      Move L (.won user token id r) (x, w) .told (x, w ++ [OrgInvitation.response r user token])

def protocol (L : Library) : Protocol Database Key (List Response) Phase where
  init := .calling
  move := fun _ a x a' y => Move L a x a' y
  rely := fun K x y => Leaves L K x.1 y.1
  good := fun x => Constrained L x.1
  rely_refl := fun K x => .refl K x.1
  rely_trans := fun h h' => h.trans h'
  rely_anti := fun hK h => h.anti hK
  good_rely := fun h hx => h.constrained hx

/-! ## What the moves leave to others -/

variable {id k : Uuid} {r s : OrgInvitation}

theorem Spent.other (h : Spent id r x y) (hs : (Invitations y).find k = some s)
    (hopen : s.acceptedAt = none) :
    (Invitations x).find k = some s := by
  obtain ⟨t, hclosed⟩ := h.closed
  rw [hclosed] at hs
  split at hs
  · cases hs
    cases hopen
  · exact hs

theorem Spent.digest (h : Spent id r x y) (hs : (Invitations y).find k = some s) :
    ∃ s', (Invitations x).find k = some s' ∧ s'.tokenDigest = s.tokenDigest := by
  obtain ⟨t, hclosed⟩ := h.closed
  rw [hclosed] at hs
  split at hs
  · next hk =>
    cases hs
    exact ⟨r, hk ▸ h.row, rfl⟩
  · exact ⟨s, hs, rfl⟩

theorem Spent.constrained (h : Spent id r x y) (hx : Constrained L x) : Constrained L y where
  sole := by
    intro k k' s s' hs hs' hopen hopen' haddress
    exact hx.sole (h.other hs hopen) (h.other hs' hopen') hopen hopen' haddress
  digest := by
    intro k k' s s' hs hs' hdigest
    obtain ⟨u, hu, hud⟩ := h.digest hs
    obtain ⟨u', hu', hud'⟩ := h.digest hs'
    exact hx.digest hu hu' (hud.trans (hdigest.trans hud'.symm))

/-- Whoever does not own the row, nor the membership that may come of it. -/
theorem Spent.leaves (h : Spent id r x y) (hrow : ¬ K (.invitation id))
    (hmember : ∀ o u, K (.member o u) → (Members y).find (o, u) = (Members x).find (o, u)) :
    Leaves L K x y where
  constrained := h.constrained
  row := by
    intro k hk
    have hne : k ≠ id := by
      rintro rfl
      exact hrow hk
    obtain ⟨t, hclosed⟩ := h.closed
    rw [hclosed, if_neg hne]
  member := hmember
  digest := by
    intro d _ k s hs hd
    obtain ⟨s', hs', hd'⟩ := h.digest hs
    exact ⟨s', hs', hd'.trans hd⟩
  address := fun _ _ _ k s hs hopen _ => h.other hs hopen

theorem Issued.other (h : Issued L id r x y) (hk : k ≠ id)
    (hs : (Invitations y).find k = some s) (hopen : s.acceptedAt = none) :
    (Invitations x).find k = some s := by
  rcases h.others k hk with hsame | ⟨u, u', -, ⟨-, t, rfl⟩, hu'⟩
  · exact hsame ▸ hs
  · rw [hu'] at hs
    cases hs
    cases hopen

theorem Issued.oldDigest (h : Issued L id r x y) (hk : k ≠ id)
    (hs : (Invitations y).find k = some s) :
    ∃ s', (Invitations x).find k = some s' ∧ s'.tokenDigest = s.tokenDigest := by
  rcases h.others k hk with hsame | ⟨u, u', hu, ⟨-, t, rfl⟩, hu'⟩
  · exact ⟨s, hsame ▸ hs, rfl⟩
  · rw [hu'] at hs
    cases hs
    exact ⟨u, hu, rfl⟩

theorem Issued.constrained (h : Issued L id r x y) (hx : Constrained L x) : Constrained L y where
  sole := by
    intro k k' s s' hs hs' hopen hopen' haddress
    by_cases hk : k = id
    · subst hk
      rw [h.row] at hs
      cases hs
      by_contra hne
      exact h.sole k' s' (fun heq => hne heq.symm) hs' hopen' haddress.symm
    by_cases hk' : k' = id
    · subst hk'
      rw [h.row] at hs'
      cases hs'
      exact absurd haddress (h.sole k s hk hs hopen)
    · exact hx.sole (h.other hk hs hopen) (h.other hk' hs' hopen') hopen hopen' haddress
  digest := by
    intro k k' s s' hs hs' hdigest
    by_cases hk : k = id
    · subst hk
      rw [h.row] at hs
      cases hs
      by_contra hne
      exact h.digest k' s' (fun heq => hne heq.symm) hs' hdigest.symm
    by_cases hk' : k' = id
    · subst hk'
      rw [h.row] at hs'
      cases hs'
      exact absurd hdigest (h.digest k s hk hs)
    · obtain ⟨u, hu, hud⟩ := h.oldDigest hk hs
      obtain ⟨u', hu', hud'⟩ := h.oldDigest hk' hs'
      exact hx.digest hu hu' (hud.trans (hdigest.trans hud'.symm))

/-- Whoever owns neither the rows that are closed nor the identifier, the digest
and the address of the new one. -/
theorem Issued.leaves (h : Issued L id r x y)
    (hrows : ∀ k, K (.invitation k) → k ≠ id ∧ (Invitations y).find k = (Invitations x).find k)
    (hdigest : ¬ K (.invitationDigest r.tokenDigest))
    (haddress : ¬ K (.activeInvitation r.organizationId (L.foldColumn r.email))) :
    Leaves L K x y where
  constrained := h.constrained
  row := fun k hk => (hrows k hk).2
  member := fun o u _ => h.members (o, u)
  digest := by
    intro d hd k s hs hsd
    have hk : k ≠ id := by
      rintro rfl
      rw [h.row] at hs
      cases hs
      exact hdigest (hsd ▸ hd)
    obtain ⟨s', hs', hd'⟩ := h.oldDigest hk hs
    exact ⟨s', hs', hd'.trans hsd⟩
  address := by
    intro o a hoa k s hs hopen hsa
    have hk : k ≠ id := by
      rintro rfl
      rw [h.row] at hs
      cases hs
      cases hsa
      exact haddress hoa
    exact h.other hk hs hopen

/-! ## Statements that do nothing to either table -/

/-- Neither invitations nor members are changed. -/
def Still (w : Database → Database) : Prop :=
  ∀ db, Invitations (w db) = Invitations db ∧ Members (w db) = Members db

theorem still_id : Still fun db => db := fun _ => ⟨rfl, rfl⟩

theorem Still.comp {v w : Database → Database} (hv : Still v) (hw : Still w) :
    Still fun db => w (v db) :=
  fun db => ⟨(hw (v db)).1.trans (hv db).1, (hw (v db)).2.trans (hv db).2⟩

/-- A statement of that kind. -/
def StillStmt {β : Type} (q : Stmt β) : Prop :=
  ∀ begun env busy db e, q begun env busy db = some e → Still e.write

variable {β : Type}

theorem still_read (f : Core → β) : StillStmt (onCore (.read f)) := by
  intro begun env busy db e he
  cases he
  exact fun db => ⟨rfl, rfl⟩

theorem still_journal (q : Tx.Stmt Journal Key Env β) : StillStmt (onJournal q) := by
  intro begun env busy db e he
  obtain ⟨e', -, rfl⟩ := Option.map_eq_some_iff.mp he
  exact fun db => ⟨rfl, rfl⟩

theorem still_insertTenantRefreshEvent (organizationId : Uuid) (environmentId : Option Uuid)
    (eventType resourceType : String) (resourceId : Uuid) :
    StillStmt (insertTenantRefreshEvent organizationId environmentId eventType resourceType
      resourceId) := by
  unfold insertTenantRefreshEvent insertRefreshEvent
  exact still_journal _

theorem still_pending (organizationId : Uuid) (email : String) :
    StillStmt (pendingInvitations L organizationId email) := by
  unfold pendingInvitations
  exact still_read _

theorem still_await (organizationId : Uuid) (address : String) :
    StillStmt (awaitActiveInvitation L organizationId address) := by
  intro begun env busy db e he
  cases he
  exact fun db => ⟨rfl, rfl⟩

theorem still_lock (digest : Bytes) : StillStmt (lockOrganizationInvitation digest) := by
  intro begun env busy db e he
  obtain ⟨e', he', rfl⟩ := Option.map_eq_some_iff.mp he
  dsimp only at he'
  split at he' <;> cases he' <;> exact fun db => ⟨rfl, rfl⟩

theorem outside_newInvitationToken :
    Prog.Outside responses (fun _ => True) (newInvitationToken L) := by
  refine Prog.outside_call (fun _ _ _ => rfl) fun raw => ?_
  cases raw with
  | none | some => trivial

variable {e : Effect Database Key β}

/-- A transaction after such a statement. -/
theorem extends_still {o : Open Database Key Env} (h : Still e.write) :
    o.Extends Still (o.extend e) :=
  ⟨rfl, fun _ hκ => List.mem_append_right _ hκ, e.write, h, fun _ => rfl⟩

/-- What is known of a transaction in progress: statements that do nothing to the
tables leave it true, and so do the others. -/
structure Carried (L : Library) (I : Open Database Key Env → Database → Prop) : Prop where
  extended : ∀ {o o' x}, I o x → o.Extends Still o' → I o' x
  later : ∀ {o x y}, I o x → Leaves L (· ∈ o.locks) x y → I o y

variable {env : Env} {busy : Key → Bool}

section Carried

variable {I : Open Database Key Env → Database → Prop} {o : Open Database Key Env}
variable {X : Database × List Response}

theorem Carried.query {q : Stmt β} (hI : Carried L I) (hq : StillStmt q) (h : I o x)
    (he : q o.begun env busy (o.write x) = some e) (hxy : Leaves L (· ∈ e.locks ++ o.locks) x y) :
    I (o.extend e) y :=
  hI.later (hI.extended h (extends_still (hq _ _ _ _ _ he))) hxy

theorem Carried.roleTx (hI : Carried L I) (userId organizationId : Uuid) (h : I o X.1) :
    (protocol L).Holds responses Failed (fun _ o' Y => I o' Y.1)
      (roleTx userId organizationId) o X := by
  refine holds_query ?_ fun f => ⟨_, rfl⟩
  intro env busy e he Y hY
  have hreads := hI.query (still_read _) h he hY
  cases e.value with
  | none | some => exact hreads

theorem Carried.recordTenantChange (hI : Carried L I) (organizationId : Uuid)
    (environmentId : Option Uuid) (actor : Uuid) (action resource : String) (id : Uuid)
    (h : I o X.1) :
    (protocol L).Holds responses Failed (fun _ o' Y => I o' Y.1)
      (recordTenantChange organizationId environmentId actor action resource id) o X := by
  refine holds_query ?_ fun f => ⟨_, rfl⟩
  intro env busy e he Y hY
  have hevent := hI.query (still_insertTenantRefreshEvent _ _ _ _ _) h he hY
  refine ⟨fun env' busy' e' he' Z hZ => ?_, fun f => ⟨f, rfl⟩⟩
  exact hI.query (still_journal _) hevent he' hZ

/-- Nothing but what is outside, and the transaction is where it was. -/
theorem Carried.away (hI : Carried L I) {α : Type} {p : Prog α} {Q : α → Prop}
    (hp : Prog.Outside responses Q p) (h : I o X.1) :
    (protocol L).Holds responses (fun _ => False) (fun r o' Y => Q r ∧ I o' Y.1) p o X := by
  refine (holds_outside hp).mono fun r o' Y hY => ?_
  obtain ⟨hr, rfl, hXY⟩ := hY
  exact ⟨hr, hI.later h hXY⟩

/-- One call of that kind. -/
theorem Carried.call (hI : Carried L I) {c : Call β}
    (hc : ∀ i r w, responses.observe i c r w = w) (h : I o X.1) :
    (protocol L).Holds responses (fun _ => False) (fun _ o' Y => I o' Y.1)
      (Tx.call c : Prog β) o X :=
  (hI.away (p := Tx.call c) (Q := fun _ => True) ⟨hc, fun _ => trivial⟩ h).mono fun _ _ _ h => h.2

end Carried

/-! ## An `Invite` in progress -/

/-- So far the transaction has closed open rows, and done nothing else to the two
tables. -/
structure Closing (o : Open Database Key Env) (x : Database) : Prop where
  revising : Revising Invitations Key.invitation Closes o x
  members : ∀ db, Members (o.write db) = Members db

theorem Closing.fresh (env : Env) (x : Database) : Closing (.fresh env) x :=
  ⟨.fresh env x, fun _ => rfl⟩

variable {o o' : Open Database Key Env}

theorem Closing.later (h : Closing o x) (hxy : Leaves L (· ∈ o.locks) x y) : Closing o y :=
  ⟨h.revising.later fun k hk => hxy.row k hk, h.members⟩

/-- Statements that do nothing to the tables. -/
theorem Closing.extends (h : Closing o x) (ho : o.Extends Still o') : Closing o' x := by
  obtain ⟨w, hw, hwrite⟩ := ho.write
  have hrow : ∀ db k, (Invitations (o'.write db)).find k = (Invitations (o.write db)).find k := by
    intro db k
    rw [hwrite, (hw (o.write db)).1]
  refine ⟨⟨h.revising.isLocal.congr hrow ho.locks, ?_⟩, ?_⟩
  · intro k
    rw [hrow]
    exact h.revising.evolves k
  · intro db
    rw [hwrite, (hw (o.write db)).2, h.members]

theorem carried_closing : Carried L Closing := ⟨Closing.extends, Closing.later⟩

variable {organizationId : Uuid} {email : String}

theorem openFor_iff : openFor L organizationId email r = true ↔
      addressOf L r = (organizationId, email) ∧ r.acceptedAt = none := by
  simp [openFor, addressOf, and_assoc]

variable {e : Effect Database Key Nat}

variable {v : Database} {begun : Env}

/-- A row is closed, or nothing happens. -/
theorem closeInvitation_some
    (he : closeInvitation L organizationId email id begun env busy v = some e) :
    (∀ db, e.write db = db) ∨
    ∃ r r', (Invitations v).find id = some r ∧ Closes r r' ∧ Key.invitation id ∈ e.locks ∧
      ∀ db, Invitations (e.write db) = (Invitations db).put id r' ∧
        Members (e.write db) = Members db := by
  obtain ⟨e', he', rfl⟩ := Option.map_eq_some_iff.mp he
  dsimp only at he'
  repeat' split at he'
  all_goals cases he'
  · exact .inl fun _ => rfl
  · next r hr hopen _ =>
    exact .inr ⟨r, _, hr, ⟨(openFor_iff.mp hopen).2, begun.now, rfl⟩,
      List.mem_singleton_self _, fun _ => ⟨rfl, rfl⟩⟩
  · exact .inl fun _ => rfl

theorem closeInvitation_revises (organizationId : Uuid) (email : String) (id : Uuid) :
    Revises Invitations Key.invitation Closes (closeInvitation L organizationId email id) := by
  intro begun env busy v e he
  rcases closeInvitation_some he with hsame | ⟨r, r', hr, hcloses, hlock, hwrite⟩
  · exact .inl fun db => by rw [hsame]
  · exact .inr ⟨id, r, r', hr, hlock, hcloses, fun db => (hwrite db).1⟩

theorem Closing.close (h : Closing o x)
    (he : closeInvitation L organizationId email id o.begun env busy (o.write x) = some e) :
    Closing (o.extend e) x where
  revising := h.revising.extend Closes.trans (closeInvitation_revises organizationId email id) he
  members := by
    intro db
    change Members (e.write (o.write db)) = Members db
    rcases closeInvitation_some he with hsame | ⟨_, _, _, _, _, hwrite⟩
    · rw [hsame, h.members]
    · rw [(hwrite (o.write db)).2, h.members]

theorem holds_close (organizationId : Uuid) (email : String) :
    ∀ (ids : List Uuid) (count : Nat) {o : Open Database Key Env}
      {X : Database × List Response}, Closing o X.1 →
      (protocol L).Holds responses Failed (fun _ o' Y => Closing o' Y.1)
        (forEach (closeInvitation L organizationId email) ids count) o X
  | [], _, _, _, h => h
  | id :: ids, count, o, X, h => by
      refine holds_query ?_ fun f => ⟨_, rfl⟩
      intro env busy e he Y hY
      exact holds_close organizationId email ids _ ((h.close he).later hY)

variable {X : Database × List Response}

theorem holds_invalidate (organizationId : Uuid) (email : String) (h : Closing o X.1) :
    (protocol L).Holds responses Failed (fun _ o' Y => Closing o' Y.1)
      (invalidatePendingInvitation L organizationId email) o X := by
  refine holds_query ?_ fun f => ⟨_, rfl⟩
  intro env busy e he Y hY
  exact holds_close organizationId email _ _ (carried_closing.query
    (still_pending organizationId email) h he hY)

/-- The new row is there, and commits with the transaction. -/
structure Issuing (L : Library) (id : Uuid) (r : OrgInvitation) (o : Open Database Key Env)
    (x : Database) : Prop where
  isLocal : RowLocal Invitations Key.invitation o.locks o.write
  members : ∀ db, Members (o.write db) = Members db
  row : Key.invitation id ∈ o.locks
  digest : Key.invitationDigest r.tokenDigest ∈ o.locks
  address : Key.activeInvitation r.organizationId (L.foldColumn r.email) ∈ o.locks
  issued : Issued L id r x (o.write x)

theorem Issuing.later (h : Issuing L id r o x) (hxy : Leaves L (· ∈ o.locks) x y) :
    Issuing L id r o y := by
  have hrow := h.isLocal.rowwise (hxy.row id h.row)
  have hlater := fun k => h.isLocal.toPointwise.later k (hxy.row k)
  refine ⟨h.isLocal, h.members, h.row, h.digest, h.address, ?_⟩
  refine ⟨?_, hrow.trans h.issued.row, h.issued.isOpen, ?_, ?_, ?_, ?_⟩
  · exact (hxy.row id h.row).trans h.issued.absent
  · intro k hk
    rcases hlater k with ⟨-, hnow, hview⟩ | ⟨-, -, hview⟩
    · rw [hnow, hview]
      exact h.issued.others k hk
    · exact .inl hview
  · intro k s hk hs hopen haddress
    rcases hlater k with ⟨-, -, hview⟩ | ⟨-, hold, hview⟩
    · rw [hview] at hs
      exact h.issued.sole k s hk hs hopen haddress
    · -- a row that has come to be open under the address while it was owned
      rw [hview] at hs
      have hx := hxy.address _ _ h.address k s hs hopen haddress
      exact h.issued.sole k s hk (hold.trans hx) hopen haddress
  · intro k s hk hs hdigest
    rcases hlater k with ⟨-, -, hview⟩ | ⟨-, hold, hview⟩
    · rw [hview] at hs
      exact h.issued.digest k s hk hs hdigest
    · rw [hview] at hs
      obtain ⟨s', hs', hdigest'⟩ := hxy.digest _ h.digest k s hs hdigest
      exact h.issued.digest k s' hk (hold.trans hs') hdigest'
  · intro k
    rw [h.members]

theorem Issuing.extends (h : Issuing L id r o x) (ho : o.Extends Still o') :
    Issuing L id r o' x := by
  obtain ⟨w, hw, hwrite⟩ := ho.write
  have hrow : ∀ db, Invitations (o'.write db) = Invitations (o.write db) := by
    intro db
    rw [hwrite, (hw (o.write db)).1]
  have hmembers : ∀ db, Members (o'.write db) = Members db := by
    intro db
    rw [hwrite, (hw (o.write db)).2, h.members]
  refine ⟨h.isLocal.congr (fun db k => by rw [hrow]) ho.locks, hmembers, ho.locks _ h.row,
    ho.locks _ h.digest, ho.locks _ h.address, ?_⟩
  obtain ⟨habsent, hnow, hopen, hothers, hsole, hdigest, -⟩ := h.issued
  rw [← hrow] at hnow hothers hsole hdigest
  exact ⟨habsent, hnow, hopen, hothers, hsole, hdigest, fun k => by rw [hmembers]⟩

theorem carried_issuing : Carried L (Issuing L id r) :=
  ⟨Issuing.extends, Issuing.later⟩

variable {userId : Uuid} {role : AssignableRole} {expiresAt : Time}

theorem insertOrganizationInvitation_some {digest : Bytes} {e : Effect Database Key Unit}
    (he : insertOrganizationInvitation L organizationId userId email role digest expiresAt
      begun env busy v = some e) :
    ∃ id r, (Invitations v).find id = none ∧ r.acceptedAt = none ∧
      (∀ k s, (Invitations v).find k = some s → s.tokenDigest ≠ r.tokenDigest) ∧
      (∀ k s, (Invitations v).find k = some s → s.acceptedAt = none →
        addressOf L s ≠ addressOf L r) ∧
      (r.organizationId = organizationId ∧ r.invitedByUserId = userId ∧ r.role = role) ∧
      e.locks = [.invitation id, .invitationDigest r.tokenDigest,
        .activeInvitation r.organizationId (L.foldColumn r.email)] ∧
      ∀ db, Invitations (e.write db) = (Invitations db).put id r ∧
        Members (e.write db) = Members db := by
  obtain ⟨e', he', rfl⟩ := Option.map_eq_some_iff.mp he
  dsimp only at he'
  split at he'
  · cases he'
  next hfree =>
  cases he'
  simp only [Bool.or_eq_true, not_or, Bool.not_eq_true, Option.isSome_eq_false_iff,
    Option.isNone_iff_eq_none] at hfree
  obtain ⟨⟨⟨-, hid⟩, hdigest⟩, hopen⟩ := hfree
  rw [← Bool.not_eq_true, Table.any_rows] at hdigest hopen
  refine ⟨env.uuid, _, hid, rfl, fun k s hs heq => ?_, fun k s hs hsopen heq => ?_,
    ⟨rfl, rfl, rfl⟩, rfl, fun _ => ⟨rfl, rfl⟩⟩
  · exact hdigest ⟨k, s, hs, beq_iff_eq.mpr heq⟩
  · exact hopen ⟨k, s, hs, openFor_iff.mpr ⟨heq, hsopen⟩⟩

theorem Closing.insert {digest : Bytes} {e : Effect Database Key Unit} (h : Closing o x)
    (he : insertOrganizationInvitation L organizationId userId email role digest expiresAt
      o.begun env busy (o.write x) = some e) :
    ∃ id r, Issuing L id r (o.extend e) x := by
  obtain ⟨id, r, hid, hopen, hdigest, haddress, -, hlocks, hwrite⟩ :=
    insertOrganizationInvitation_some he
  have hlock : Key.invitation id ∈ e.locks := by simp [hlocks]
  have hview : Invitations ((o.extend e).write x) = (Invitations (o.write x)).put id r :=
    (hwrite (o.write x)).1
  have hother : ∀ k, k ≠ id → (Invitations ((o.extend e).write x)).find k =
      (Invitations (o.write x)).find k := by
    intro k hk
    rw [hview, Table.find_put_ne _ _ hk]
  refine ⟨id, r, h.revising.isLocal.comp (.put (fun db => (hwrite db).1) hlock), ?_, ?_, ?_,
    ?_, ⟨?_, ?_, hopen, ?_, ?_, ?_, ?_⟩⟩
  · intro db
    change Members (e.write (o.write db)) = Members db
    rw [(hwrite (o.write db)).2, h.members]
  · exact List.mem_append_left _ hlock
  · simp [Open.extend, hlocks]
  · simp [Open.extend, hlocks]
  · exact (h.revising.evolves.none_iff id).mp hid
  · rw [hview, Table.find_put]
  · intro k hk
    rw [hother k hk]
    exact h.revising.evolves k
  · intro k s hk hs
    rw [hother k hk] at hs
    exact haddress k s hs
  · intro k s hk hs
    rw [hother k hk] at hs
    exact hdigest k s hs
  · intro k
    change (Members (e.write (o.write x))).find k = _
    rw [(hwrite (o.write x)).2, h.members]

variable {a : Phase}

/-- Committing it. -/
theorem Issuing.moves {i : Nat} (h : Issuing L id r o X.1) :
    (protocol L).Moves i o.locks a X a (o.write X.1, X.2) := by
  refine ⟨.issue h.issued, fun K hK => h.issued.leaves (fun k hk => ⟨?_, ?_⟩) ?_ ?_⟩
  · rintro rfl
    exact hK _ hk h.row
  · exact h.isLocal.locked (hK _ hk)
  · exact fun hd => hK _ hd h.digest
  · exact fun ha => hK _ ha h.address

section Meets

variable {i : Nat} {X : Database × List Response}

theorem stay (i : Nat) (a : Phase) (X : Database × List Response) :
    (protocol L).move i a X a X := .stay

theorem createOrganizationInvitation_holds {digest : Bytes} (h : Closing o X.1) :
    (protocol L).Holds responses Failed (fun _ o' Y => ∃ id r, Issuing L id r o' Y.1)
      (createOrganizationInvitation L organizationId userId email role digest expiresAt) o X := by
  refine holds_query ?_ fun f => ⟨_, rfl⟩
  intro env busy e he Y hY
  have hclosing := carried_closing.query (still_await organizationId (L.foldColumn email)) h he hY
  refine ⟨?_, fun f => ⟨f, rfl⟩⟩
  intro env' busy' e' he' Z hZ
  obtain ⟨id, r, hissuing⟩ := hclosing.insert he'
  exact ⟨id, r, hissuing.later hZ⟩

theorem issueInvitation_meets (h : Closing o X.1) :
    (protocol L).Meets responses i (issueInvitation L userId organizationId email role)
      (.active o) a X := by
  unfold issueInvitation
  refine meets_attempt stay (holds_invalidate organizationId email h) (fun _ _ _ => trivial)
    fun count o Y h => ?_
  refine meets_holds stay (carried_closing.away outside_newInvitationToken h) ?_
    fun r Y hr => hr.elim
  rintro (_ | issued) o Z ⟨-, h⟩
  · trivial
  refine meets_holds stay (carried_closing.call (fun _ _ _ => rfl) h) ?_ fun r Y hr => hr.elim
  intro wall o W h
  refine meets_attempt stay (createOrganizationInvitation_holds h) (fun _ _ _ => trivial) ?_
  rintro - o W ⟨id, r, h⟩
  refine meets_holds stay (carried_issuing.call (fun _ _ _ => rfl) h) ?_ fun r Y hr => hr.elim
  intro sent o W h
  cases sent with
  | false => trivial
  | true =>
    refine meets_commit ⟨a, h.moves, fun r _ _ => ?_⟩ fun _ _ => trivial
    cases r <;> trivial

theorem still_existing (organizationId : Uuid) (email : String) :
    StillStmt (existingOrganizationMemberByEmail L organizationId email) := by
  unfold existingOrganizationMemberByEmail
  exact still_read _

theorem invite_meets (userId organizationId : Uuid) (email : String) (role : RoleText) :
    (protocol L).Meets responses i (invite L userId organizationId email role) .idle a X := by
  unfold invite
  split
  · refine meets_start ?_ fun _ _ => trivial
    intro env Y _
    refine meets_attempt stay (carried_closing.roleTx userId organizationId (.fresh env Y.1))
      (fun _ _ _ => trivial) fun current o Z h => ?_
    dsimp only
    cases allows current .membersInvite with
    | false => trivial
    | true =>
    refine meets_query ?_ fun _ _ _ => trivial
    intro env busy e he W hW
    have hreads := carried_closing.query (still_existing organizationId _) h he hW
    dsimp only
    cases e.value with
    | true => trivial
    | false => exact issueInvitation_meets hreads
  · trivial

end Meets

/-! ## An `AcceptInvitation` in progress -/

/-- The transaction has locked the row, and done nothing to it. -/
structure Holding (id : Uuid) (r : OrgInvitation) (o : Open Database Key Env)
    (x : Database) : Prop where
  still : Still o.write
  lock : Key.invitation id ∈ o.locks
  row : (Invitations x).find id = some r

theorem Holding.later (h : Holding id r o x) (hxy : Leaves L (· ∈ o.locks) x y) :
    Holding id r o y :=
  ⟨h.still, h.lock, (hxy.row id h.lock).trans h.row⟩

/-- It has closed the row, and has created that many memberships. -/
structure Consuming (userId : Uuid) (id : Uuid) (r : OrgInvitation) (created : Nat)
    (o : Open Database Key Env) (x : Database) : Prop where
  lock : Key.invitation id ∈ o.locks
  row : (Invitations x).find id = some r
  isOpen : r.acceptedAt = none
  closed : ∃ t, ∀ db, Invitations (o.write db) =
    (Invitations db).put id { r with acceptedAt := some t }
  members : (created = 0 ∧ ∀ db, Members (o.write db) = Members db) ∨
    (created = 1 ∧ Key.member r.organizationId userId ∈ o.locks ∧
      (Members x).find (r.organizationId, userId) = none ∧
      ∀ db, Members (o.write db) =
        (Members db).put (r.organizationId, userId) (OrgInvitation.member r))

section Consuming

variable {userId id : Uuid} {r : OrgInvitation} {created : Nat}

theorem Consuming.later (h : Consuming userId id r created o x)
    (hxy : Leaves L (· ∈ o.locks) x y) : Consuming userId id r created o y := by
  refine ⟨h.lock, (hxy.row id h.lock).trans h.row, h.isOpen, h.closed, ?_⟩
  rcases h.members with hnone | ⟨hone, hlock, habsent, hwrite⟩
  · exact .inl hnone
  · exact .inr ⟨hone, hlock, (hxy.member _ _ hlock).trans habsent, hwrite⟩

theorem Consuming.extends (h : Consuming userId id r created o x) (ho : o.Extends Still o') :
    Consuming userId id r created o' x := by
  obtain ⟨w, hw, hwrite⟩ := ho.write
  obtain ⟨t, hclosed⟩ := h.closed
  refine ⟨ho.locks _ h.lock, h.row, h.isOpen, ⟨t, fun db => ?_⟩, ?_⟩
  · rw [hwrite, (hw _).1, hclosed]
  · rcases h.members with ⟨hnone, hmembers⟩ | ⟨hone, hlock, habsent, hmembers⟩
    · refine .inl ⟨hnone, fun db => ?_⟩
      rw [hwrite, (hw _).2, hmembers]
    · refine .inr ⟨hone, ho.locks _ hlock, habsent, fun db => ?_⟩
      rw [hwrite, (hw _).2, hmembers]

theorem carried_consuming : Carried L (Consuming userId id r created) :=
  ⟨Consuming.extends, Consuming.later⟩

theorem Holding.accept (h : Holding id r o x) (hopen : r.acceptedAt = none)
    (he : acceptOrganizationInvitation id userId o.begun env busy (o.write x) = some e) :
    Consuming userId id r e.value (o.extend e) x := by
  obtain ⟨e', he', rfl⟩ := Option.map_eq_some_iff.mp he
  have hview : (o.write x).core.invitations.find id = some r :=
    (congrArg (·.find id) (h.still x).1).trans h.row
  have hmembers : (o.write x).core.members = x.core.members := (h.still x).2
  have hwrite : ∀ db, Invitations (o.write db) = Invitations db := fun db => (h.still db).1
  have hwrite' : ∀ db, Members (o.write db) = Members db := fun db => (h.still db).2
  simp only [hview, hopen, Option.isSome_none, Bool.false_eq_true, if_false] at he'
  split at he'
  · cases he'
  rw [hmembers] at he'
  split at he'
  · cases he'
    refine ⟨List.mem_cons_self, h.row, hopen, ⟨o.begun.now, fun db => ?_⟩,
      .inl ⟨rfl, fun db => hwrite' db⟩⟩
    exact congrArg (fun t : Table Uuid OrgInvitation =>
      t.put id { r with acceptedAt := some o.begun.now }) (hwrite db)
  next habsent =>
  split at he'
  · cases he'
  cases he'
  refine ⟨List.mem_cons_self, h.row, hopen, ⟨o.begun.now, fun db => ?_⟩,
    .inr ⟨rfl, List.mem_cons_of_mem _ List.mem_cons_self, habsent, fun db => ?_⟩⟩
  · exact congrArg (fun t : Table Uuid OrgInvitation =>
      t.put id { r with acceptedAt := some o.begun.now }) (hwrite db)
  · exact congrArg (fun t : Table (Uuid × Uuid) OrgMember =>
      t.put (r.organizationId, userId) (OrgInvitation.member r)) (hwrite' db)

theorem Consuming.spent (h : Consuming userId id r created o x) :
    Spent id r x (o.write x) := by
  obtain ⟨t, hclosed⟩ := h.closed
  refine ⟨h.row, h.isOpen, t, fun k => ?_⟩
  rw [hclosed, Table.find_put_eq]

/-- Nobody else owns what it changes. -/
theorem Consuming.leaves (h : Consuming userId id r created o x)
    (hK : ∀ κ, K κ → κ ∉ o.locks) : Leaves L K x (o.write x) := by
  refine h.spent.leaves (fun hid => hK _ hid h.lock) fun p u hu => ?_
  rcases h.members with ⟨-, hmembers⟩ | ⟨-, hlock, -, hmembers⟩
  · rw [hmembers]
  · rw [hmembers, Table.find_put_ne]
    rintro heq
    cases heq
    exact hK _ hu hlock

end Consuming

variable {created : Nat}

section Meets

variable {i : Nat} {X : Database × List Response} {user : AuthUser} {token : String}
variable {id : Uuid} {r : OrgInvitation}

/-- Committing it, with a membership or without. -/
theorem Consuming.moves (h : Consuming user.id id r created o X.1)
    (hverified : user.emailVerified = true)
    (haddressed : L.sameAddress r.email user.email = true)
    (hdigest : r.tokenDigest = L.digest token) :
    ∃ a, (protocol L).Moves i o.locks .calling X a (o.write X.1, X.2) ∧
      (created = 1 → a = .won user token id r) := by
  rcases h.members with ⟨hnone, hmembers⟩ | ⟨hone, hlock, habsent, hmembers⟩
  · refine ⟨.calling, ⟨.spend h.spent fun k => ?_, fun K hK => h.leaves hK⟩, fun hone => ?_⟩
    · rw [hmembers]
    · omega
  · refine ⟨.won user token id r, ⟨.accept ⟨h.spent, hverified, haddressed, hdigest, habsent,
      fun k => ?_⟩, fun K hK => h.leaves hK⟩, fun _ => rfl⟩
    rw [hmembers, Table.find_put_eq]

theorem respond_meets {ses : Session Database Key Env} : (protocol L).Meets responses i
      (respond user token (.ok ⟨r.organizationId, user.id, r.role⟩)) ses
      (.won user token id r) X := by
  intro env
  refine ⟨.told, ⟨.respond, fun K _ => .refl K X.1⟩, fun _ _ => trivial⟩

theorem commitAcceptance_meets (h : Consuming user.id id r created o X.1)
    (hverified : user.emailVerified = true)
    (haddressed : L.sameAddress r.email user.email = true)
    (hdigest : r.tokenDigest = L.digest token) :
    (protocol L).Meets responses i (commitAcceptance user r created >>= respond user token)
      (.active o) .calling X := by
  obtain ⟨a, hmoves, hwon⟩ := h.moves hverified haddressed hdigest
  unfold commitAcceptance
  rw [Prog.bind_assoc]
  refine meets_commit ⟨a, hmoves, fun c Y _ => ?_⟩ fun _ _ => trivial
  cases c with
  | error f => trivial
  | ok u =>
  by_cases hone : created = 1
  · simp only [hone, ne_eq, not_true_eq_false, if_false]
    rw [hwon hone]
    exact respond_meets
  · simp only [ne_eq, hone, not_false_eq_true, if_true]
    trivial

theorem consumeInvitation_meets (h : Holding id r o X.1) (hopen : r.acceptedAt = none)
    (hverified : user.emailVerified = true) (haddressed : L.sameAddress r.email user.email = true)
    (hdigest : r.tokenDigest = L.digest token) :
    (protocol L).Meets responses i (consumeInvitation user id r >>= respond user token)
      (.active o) .calling X := by
  unfold consumeInvitation
  rw [Prog.bind_assoc]
  refine meets_query ?_ fun _ _ _ => trivial
  intro env busy e he Y hY
  have hconsuming := (h.accept hopen he).later hY
  generalize e.value = created at hconsuming ⊢
  generalize o.extend e = o at hconsuming ⊢
  by_cases hone : created = 1
  · simp only [if_pos hone, Prog.bind_assoc]
    exact meets_attempt stay (carried_consuming.recordTenantChange _ _ _ _ _ _ hconsuming)
      (fun _ _ _ => trivial)
      fun _ o Z hZ => commitAcceptance_meets hZ hverified haddressed hdigest
  · simp only [if_neg hone]
    exact commitAcceptance_meets hconsuming hverified haddressed hdigest

/-- The row it locks is the one with the digest, and it has the row from then on. -/
theorem lockOrganizationInvitation_some {digest : Bytes}
    {e : Effect Database Key (Option (Uuid × OrgInvitation))}
    (he : lockOrganizationInvitation digest o.begun env busy (o.write x) = some e)
    (ho : Still o.write) {found : Uuid × OrgInvitation} (hfound : e.value = some found) :
    found.2.tokenDigest = digest ∧ Holding found.1 found.2 (o.extend e) x := by
  have hstill := still_lock digest _ _ _ _ _ he
  obtain ⟨e', he', rfl⟩ := Option.map_eq_some_iff.mp he
  dsimp only at he'
  split at he'
  · cases he'
    cases hfound
  next row hrow =>
  cases he'
  cases hfound
  have hmem := Table.mem_rows.mp (List.mem_of_find?_eq_some hrow)
  have hdigest := List.find?_some hrow
  refine ⟨beq_iff_eq.mp hdigest, ho.comp hstill, List.mem_cons_self, ?_⟩
  rw [← (ho x).1]
  exact hmem

theorem acceptInvitationHandler_meets (user : AuthUser) (token : String) :
    (protocol L).Meets responses i (acceptInvitationHandler L user token) .idle .calling X := by
  unfold acceptInvitationHandler acceptInvitation
  cases hverified : user.emailVerified with
  | false => trivial
  | true =>
  cases validInvitationToken L token with
  | false => trivial
  | true =>
  simp only [Bool.not_true, Bool.false_eq_true, if_false, Prog.bind_assoc]
  refine meets_start ?_ fun _ _ => trivial
  intro env Y _
  simp only [Prog.bind_assoc]
  refine meets_query ?_ fun _ _ _ => trivial
  intro env busy e he Z hZ
  cases hfound : e.value with
  | none => trivial
  | some found =>
  obtain ⟨hdigest, hholding⟩ := lockOrganizationInvitation_some he still_id hfound
  have hholding := hholding.later hZ
  simp only [Prog.bind_assoc]
  intro env'
  refine ⟨.calling, ⟨.stay, fun K _ => .refl K Z.1⟩, fun W hW => ?_⟩
  change (protocol L).Meets responses i ((if !acceptable L user
    (responses.answer env' .now) found.2 then pure (.error errInvalidInvitation)
    else consumeInvitation user found.1 found.2) >>= respond user token) _ _ _
  cases hacceptable : acceptable L user (responses.answer env' .now) found.2 with
  | false => trivial
  | true =>
  simp only [acceptable, Bool.and_eq_true, Option.isNone_iff_eq_none] at hacceptable
  exact consumeInvitation_meets (hholding.later hW) hacceptable.1.1 hverified hacceptable.2 hdigest

end Meets

end WatchTrace.Proofs.Joining
