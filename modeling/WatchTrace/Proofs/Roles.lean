import Mathlib.Data.List.Induction
import WatchTrace.Tx.Lone
import WatchTrace.Proofs.SingleUse

/-!
# Who makes administrators

Four calls change who is a member and with which role: `Invite`,
`AcceptInvitation`, `UpdateMember` and `RemoveMember`. They are made one after
another here, each of them with whatever may fail in it.

`Written` says what each of them commits, and under which role of whom; it is all
that the rest of the file knows of the code. The owner's row is safe from all four,
whatever happens. Administrators are not: one of them may invite another, and may
make a member of another, because `Invite` and `UpdateMember` do not ask for what
`RemoveMember` asks for. Where this does not happen (`Proper`), it is the owner who
makes administrators, and the owner who unmakes them.
-/

namespace WatchTrace.Proofs.Roles

open Tx Model Model.Ownership Joining

/-! ## Calls one after another -/

inductive Request
  | invite (userId organizationId : Uuid) (email : String) (role : RoleText)
  | accept (user : AuthUser) (token : String)
  | update (actorId organizationId : Uuid) (memberId : IdText) (role : RoleText)
      (notifications : Option Bool)
  | remove (actorId organizationId : Uuid) (memberId : IdText)

/-- A call, with what happens to it step by step. -/
structure Turn where
  request : Request
  env : Nat → Env
  fate : Nat → Option Fate

/-- The rows a call leaves. -/
def Turn.left {α : Type} (t : Turn) (p : Prog α) (db : Database) : Database :=
  (p.lone remote 0 t.env t.fate 0 .idle db World.empty).2.1

def Turn.leaves (L : Library) (t : Turn) (db : Database) : Database :=
  match t.request with
  | .invite userId organizationId email role =>
    t.left (invite L userId organizationId email role) db
  | .accept user token => t.left (acceptInvitation L user token) db
  | .update actorId organizationId memberId role notifications =>
    t.left (updateMember L actorId organizationId memberId role notifications) db
  | .remove actorId organizationId memberId =>
    t.left (removeMember actorId organizationId memberId) db

/-- The rows after some calls. -/
def after (L : Library) (db : Database) (turns : List Turn) : Database :=
  turns.foldl (fun d t => t.leaves L d) db

/-! ## What a call commits -/

/-- What is open now was open before. -/
def NoneOpened (x y : Database) : Prop :=
  ∀ id r, (Invitations y).find id = some r → r.acceptedAt = none → (Invitations x).find id = some r

/-- Besides, one row may have been inserted. -/
def OneOpened (userId organizationId : Uuid) (role : AssignableRole) (x y : Database) : Prop :=
  ∀ id r, (Invitations y).find id = some r → r.acceptedAt = none →
    (Invitations x).find id = some r ∨
      ((Invitations x).find id = none ∧ r.organizationId = organizationId ∧
        r.invitedByUserId = userId ∧ r.role = role)

/-- The role a member is given. -/
def RoleText.over (role : RoleText) (existing : Role) : Role :=
  match role with
  | .known r => r
  | _ => existing

/-- What an `UpdateMember` has found when it commits. -/
structure MayUpdate (actorId organizationId : Uuid) (memberId : IdText) (role : RoleText)
    (actorRole existing : Role) : Prop where
  assignable : role ≠ .blank → role.assignable? ≠ none
  manages : IdText.canonical actorId ≠ memberId → allows actorRole .membersManage = true
  other : role ≠ .blank → IdText.canonical actorId ≠ memberId
  promotes : role = .known .admin → actorRole = .owner
  existing : existing ≠ .owner

inductive Written (L : Library) (x y : Database) : Request → Prop
  | nothing {request : Request} (members : ∀ k, (Members y).find k = (Members x).find k)
      (invitations : NoneOpened x y) : Written L x y request
  | invited {userId organizationId : Uuid} {email : String} {role : RoleText}
      {current : Role} {assigned : AssignableRole}
      (actor : membershipRole x.core organizationId userId = some current)
      (may : allows current .membersInvite = true) (assignable : role.assignable? = some assigned)
      (members : ∀ k, (Members y).find k = (Members x).find k)
      (invitations : OneOpened userId organizationId assigned x y) :
      Written L x y (.invite userId organizationId email role)
  | joined {user : AuthUser} {token : String} {id : Uuid} {r : OrgInvitation}
      (row : (Invitations x).find id = some r) (isOpen : r.acceptedAt = none)
      (digest : r.tokenDigest = L.digest token)
      (absent : (Members x).find (r.organizationId, user.id) = none)
      (members : ∀ k, (Members y).find k = if k = (r.organizationId, user.id) then
        some (OrgInvitation.member r) else (Members x).find k)
      (invitations : NoneOpened x y) : Written L x y (.accept user token)
  | updated {actorId organizationId userId : Uuid} {memberId : IdText} {role : RoleText}
      {notifications : Option Bool} {actorRole : Role} {m : OrgMember} {enabled : Bool}
      (actor : membershipRole x.core organizationId actorId = some actorRole)
      (target : memberId.toUuid? = some userId)
      (row : (Members x).find (organizationId, userId) = some m)
      (may : MayUpdate actorId organizationId memberId role actorRole m.role)
      (members : ∀ k, (Members y).find k = if k = (organizationId, userId) then
        some ⟨RoleText.over role m.role, enabled⟩ else (Members x).find k)
      (invitations : NoneOpened x y) :
      Written L x y (.update actorId organizationId memberId role notifications)
  | removed {actorId organizationId userId : Uuid} {memberId : IdText} {actorRole : Role}
      {m : OrgMember} (actor : membershipRole x.core organizationId actorId = some actorRole)
      (target : memberId.toUuid? = some userId)
      (row : (Members x).find (organizationId, userId) = some m)
      (notOwner : m.role ≠ .owner) (ofAdmin : m.role = .admin → actorRole = .owner)
      (members : ∀ k, (Members y).find k = if k = (organizationId, userId) then none
        else (Members x).find k)
      (invitations : NoneOpened x y) :
      Written L x y (.remove actorId organizationId memberId)

variable {L : Library} {x y : Database} {request : Request}

theorem noneOpened_refl (x : Database) : NoneOpened x x := fun _ _ hr _ => hr

theorem written_same : Written L x x request := .nothing (fun _ => rfl) (noneOpened_refl x)

/-! ## The parts the calls share -/

variable {userId organizationId id : Uuid}

variable {β : Type}

section Parts

variable {α : Type} {S : Database → Prop} {o : Open Database Key Env}
variable {Q : α → Session Database Key Env → Database → Prop}

/-- `roleTx` looks at the rows the call has found. -/
theorem lone_roleTx {k : Except Failure Role → Prog α} (hstop : S x) (ho : o.write x = x)
    (hok : ∀ role o', membershipRole x.core organizationId userId = some role →
      o'.write x = x → Prog.Lone remote S Q (k (.ok role)) (.active o') x)
    (herr : ∀ f ses, Prog.Lone remote S Q (k (.error f)) ses x) :
    Prog.Lone remote S Q (roleTx userId organizationId >>= k) (.active o) x := by
  unfold roleTx
  rw [Prog.bind_assoc]
  refine Prog.lone_query hstop (fun env e he => ?_) fun f => herr _ _
  cases he
  rw [ho]
  dsimp only
  cases hrole : membershipRole x.core organizationId userId with
  | none => exact herr _ _
  | some role => exact hok role _ hrole ho

theorem lone_readCore {f : Core → β} {k : Except Fault β → Prog α} (hstop : S x)
    (hok : ∀ o', o'.begun = o.begun → o'.write x = o.write x →
      Prog.Lone remote S Q (k (.ok (f (o.write x).core))) (.active o') x)
    (herr : ∀ r, Prog.Lone remote S Q (k (.error r)) .failed x) :
    Prog.Lone remote S Q (Tx.query (onCore (.read f)) >>= k) (.active o) x := by
  refine Prog.lone_query hstop (fun env e he => ?_) herr
  cases he
  exact hok _ rfl rfl

/-- A text that is no identifier is refused by the statement that reads it. -/
theorem lone_casting {id : IdText} {q : Uuid → Stmt β} {k : Except Fault β → Prog α}
    (hstop : S x) (hok : ∀ userId, id.toUuid? = some userId →
      Prog.Lone remote S Q (Tx.query (q userId) >>= k) (.active o) x)
    (herr : ∀ f, Prog.Lone remote S Q (k (.error f)) .failed x) :
    Prog.Lone remote S Q (Tx.query (casting id q) >>= k) (.active o) x := by
  unfold casting
  cases hid : id.toUuid? with
  | none => exact Prog.lone_query hstop (fun env e he => by cases he) herr
  | some userId => exact hok userId hid

/-- `recordTenantChange` writes to the journal. -/
theorem lone_recordTenantChange {actor : Uuid} {environmentId : Option Uuid}
    {action resource : String} {ms : Table (Uuid × Uuid) OrgMember}
    {is : Table Uuid OrgInvitation} (hstop : S x) (hmembers : Members (o.write x) = ms)
    (hinvitations : Invitations (o.write x) = is) :
    Prog.Lone remote S (Prog.Stretch o.begun x True fun _ v => Members v = ms ∧ Invitations v = is)
      (recordTenantChange organizationId environmentId actor action resource id) (.active o) x := by
  unfold recordTenantChange recordAudit
  refine Prog.lone_query hstop (fun env e he => ?_) fun f => .refused trivial
  cases he
  rw [← Prog.bind_pure (Tx.query _)]
  refine Prog.lone_query hstop (fun env e he => ?_) fun f => .refused trivial
  cases he
  exact .done rfl ⟨hmembers, hinvitations⟩

end Parts

/-! ## The calls -/

/-- Whatever becomes of the call, it has written what it may. -/
abbrev Writes {α : Type} (L : Library) (request : Request) (x : Database) (p : Prog α)
    (ses : Session Database Key Env) : Prop :=
  Prog.Lone remote (fun y => Written L x y request) (fun _ _ y => Written L x y request) p ses x

variable {o : Open Database Key Env}

/-- Nothing is left to do but to commit. -/
theorem writes_commit {α : Type} {k : Except Fault Unit → Prog α}
    (h : Written L x (o.write x) request) (hk : ∀ r, ∃ a, k r = pure a) :
    Writes L request x (Tx.commit >>= k) (.active o) := by
  have hend : ∀ r ses y, Written L x y request →
      Prog.Lone remote (fun y => Written L x y request) (fun _ _ y => Written L x y request)
        (k r) ses y := by
    intro r ses y hy
    obtain ⟨a, ha⟩ := hk r
    rw [ha]
    exact hy
  exact Prog.lone_commit written_same (fun r => hend _ _ _ h) (hend _ _ _ written_same)

variable {m : OrgMember} {begun env : Env} {v : Database}

theorem deleteOrganizationMember_some {e : Effect Database Key Unit}
    (hrow : (Members v).find (organizationId, userId) = some m)
    (he : deleteOrganizationMember organizationId userId begun env nobody v = some e) :
    Members (e.write v) = (Members v).drop (organizationId, userId) ∧
      Invitations (e.write v) = Invitations v := by
  obtain ⟨e', he', rfl⟩ := Option.map_eq_some_iff.mp he
  dsimp only at he'
  rw [hrow] at he'
  cases he'
  exact ⟨rfl, rfl⟩

theorem removeMember_writes (actorId organizationId : Uuid) (memberId : IdText) :
    Writes L (.remove actorId organizationId memberId) x
      (removeMember actorId organizationId memberId) .idle := by
  unfold removeMember
  split
  · exact written_same
  refine Prog.lone_start written_same (fun env => ?_) written_same
  refine lone_roleTx written_same rfl (fun role o hrole ho => ?_) fun f ses => written_same
  dsimp only
  split
  · exact written_same
  refine lone_casting written_same (fun userId htarget => ?_) fun f => written_same
  refine lone_readCore written_same (fun o' _ ho' => ?_) fun f => written_same
  rw [ho, htarget]
  cases hrow : x.core.members.find (organizationId, userId) with
  | none => exact written_same
  | some m =>
  dsimp only [Option.map_some]
  split
  · exact written_same
  next hallowed =>
  obtain ⟨hnotOwner, hofAdmin⟩ := not_or.mp hallowed
  refine Prog.lone_query written_same (fun env e he => ?_) fun f => written_same
  rw [ho', ho] at he
  obtain ⟨hmembers, hinvitations⟩ := deleteOrganizationMember_some hrow he
  have hview : (o'.extend e).write x = e.write x :=
    congrArg e.write (ho'.trans ho)
  refine Prog.lone_stretch (lone_recordTenantChange written_same
    (hview ▸ hmembers) (hview ▸ hinvitations)) ?_ fun f => written_same
  rintro - o'' - ⟨hmembers, hinvitations⟩
  refine writes_commit ?_ ?_
  · refine .removed hrole htarget hrow hnotOwner (fun hadmin => ?_) (fun k => ?_) ?_
    · by_contra hrole
      exact hofAdmin ⟨hrole, hadmin⟩
    · rw [hmembers, Table.find_drop_eq]
    · intro id r hr _
      rwa [hinvitations] at hr
  · rintro (f | u) <;> exact ⟨_, rfl⟩

variable {enabled : Bool}

theorem updateOrganizationMember_some {role : Role} {e : Effect Database Key (Option Member)}
    (he : updateOrganizationMember organizationId userId role enabled begun env nobody v =
      some e) : e.value = none ∨
    (Members (e.write v) = (Members v).put (organizationId, userId) ⟨role, enabled⟩ ∧
      Invitations (e.write v) = Invitations v) := by
  obtain ⟨e', he', rfl⟩ := Option.map_eq_some_iff.mp he
  dsimp only at he'
  split at he'
  · split at he'
    · cases he'
    · cases he'
      exact .inr ⟨rfl, rfl⟩
  · cases he'
    exact .inl rfl

variable {role : RoleText} {actorId : Uuid} {memberId : IdText} {actorRole : Role}

variable {notifications : Option Bool}

/-- The statements of `UpdateMember` once the flag is known. -/
theorem storedMember_writes (ho : o.write x = x)
    (hactor : membershipRole x.core organizationId actorId = some actorRole)
    (htarget : memberId.toUuid? = some userId)
    (hrow : (Members x).find (organizationId, userId) = some m)
    (hmay : MayUpdate actorId organizationId memberId role actorRole m.role) :
    Writes L (.update actorId organizationId memberId role notifications) x (do
      let .ok (some row) ← query (casting memberId fun id =>
        updateOrganizationMember organizationId id (RoleText.over role m.role) enabled)
        | return .error .database
      let .ok () ← recordTenantChange organizationId none actorId "membership.updated"
        "membership" row.userId | return .error .database
      let .ok () ← commit | return .error .database
      return (.ok row : Except Failure Member)) (.active o) := by
  refine lone_casting written_same (fun userId' htarget' => ?_) fun f => written_same
  rw [htarget, Option.some.injEq] at htarget'
  subst htarget'
  refine Prog.lone_query written_same (fun env e he => ?_) fun f => written_same
  rw [ho] at he
  have hview : (o.extend e).write x = e.write x := congrArg e.write ho
  rcases updateOrganizationMember_some he with hnone | ⟨hmembers, hinvitations⟩
  · rw [hnone]
    exact written_same
  · cases hvalue : e.value with
    | none => exact written_same
    | some row =>
      refine Prog.lone_stretch (lone_recordTenantChange written_same
        (hview ▸ hmembers) (hview ▸ hinvitations)) ?_ fun f => written_same
      rintro - o' - ⟨hmembers, hinvitations⟩
      refine writes_commit ?_ ?_
      · have hput : ∀ k, (Members (o'.write x)).find k =
            if k = (organizationId, userId) then
              some ⟨RoleText.over role m.role, enabled⟩ else (Members x).find k := by
          intro k
          rw [hmembers, Table.find_put_eq]
        refine .updated hactor htarget hrow hmay hput ?_
        intro id r hr _
        rwa [hinvitations] at hr
      · rintro (f | u) <;> exact ⟨_, rfl⟩

theorem storeMember_writes (ho : o.write x = x)
    (hactor : membershipRole x.core organizationId actorId = some actorRole)
    (htarget : memberId.toUuid? = some userId)
    (hrow : (Members x).find (organizationId, userId) = some m)
    (hmay : MayUpdate actorId organizationId memberId role actorRole m.role) :
    Writes L (.update actorId organizationId memberId role notifications) x
      (storeMember actorId organizationId memberId (RoleText.over role m.role) notifications)
      (.active o) := by
  unfold storeMember
  -- the flag is the one of the request, or the one of the row
  cases notifications with
  | some enabled => exact storedMember_writes ho hactor htarget hrow hmay
  | none =>
  refine lone_casting written_same (fun userId' htarget' => ?_) fun f => written_same
  refine lone_readCore written_same (fun o' _ ho' => ?_) fun f => written_same
  generalize Option.map OrgMember.incidentNotificationsEnabled _ = found
  cases found with
  | none => exact written_same
  | some enabled => exact storedMember_writes (ho'.trans ho) hactor htarget hrow hmay

theorem lockOrganizationMemberRole_some {e : Effect Database Key (Option Role)}
    (he : lockOrganizationMemberRole organizationId userId begun env nobody v = some e) :
    e.value = ((Members v).find (organizationId, userId)).map OrgMember.role ∧
      e.write v = v := by
  obtain ⟨e', he', rfl⟩ := Option.map_eq_some_iff.mp he
  dsimp only at he'
  split at he'
  · next hnone =>
    cases he'
    exact ⟨(congrArg (Option.map OrgMember.role) hnone).symm, rfl⟩
  · next m hm =>
    cases he'
    exact ⟨(congrArg (Option.map OrgMember.role) hm).symm, rfl⟩

variable {existing : Role}

/-- The checks of `UpdateMember`, all passed. -/
theorem MayUpdate.of_checks
    (hvalid : ¬ (!L.uuidPattern memberId || (role != .blank && role.assignable?.isNone)) = true)
    (hmanages : ¬ (decide (IdText.canonical actorId ≠ memberId) &&
      !allows actorRole .membersManage) = true)
    (hother : ¬ (role != .blank && decide (IdText.canonical actorId = memberId)) = true)
    (hpromotes : ¬ (role != .blank && actorRole != .owner && role == .known .admin) = true)
    (hexisting : existing ≠ .owner) :
    MayUpdate actorId organizationId memberId role actorRole existing := by
  simp only [Bool.or_eq_true, Bool.not_eq_true', Bool.and_eq_true, bne_iff_ne, ne_eq,
    Option.isNone_iff_eq_none, not_or, not_and, decide_eq_true_eq, Bool.not_eq_false,
    beq_iff_eq] at hvalid hmanages hother hpromotes
  refine ⟨hvalid.2, hmanages, hother, ?_, hexisting⟩
  rintro rfl
  by_contra hactor
  exact hpromotes ⟨fun h => (by cases h), hactor⟩ rfl

theorem updateMember_writes (actorId organizationId : Uuid) (memberId : IdText)
    (role : RoleText) (notifications : Option Bool) :
    Writes L (.update actorId organizationId memberId role notifications) x
      (updateMember L actorId organizationId memberId role notifications) .idle := by
  unfold updateMember
  split
  · exact written_same
  next hvalid =>
  refine Prog.lone_start written_same (fun env => ?_) written_same
  refine lone_roleTx written_same rfl (fun actorRole o hactor ho => ?_) fun f ses => written_same
  dsimp only
  split
  · exact written_same
  next hmanages =>
  split
  · exact written_same
  next hother =>
  split
  · exact written_same
  next hpromotes =>
  refine lone_casting written_same (fun userId htarget => ?_) fun f => written_same
  refine Prog.lone_query written_same (fun env e he => ?_) fun f => written_same
  rw [ho] at he
  obtain ⟨hvalue, hwrite⟩ := lockOrganizationMemberRole_some he
  have hview : (o.extend e).write x = x :=
    (congrArg e.write ho).trans hwrite
  rw [hvalue]
  cases hrow : (Members x).find (organizationId, userId) with
  | none => exact written_same
  | some m =>
  dsimp only [Option.map_some]
  split
  · exact written_same
  · next hexisting =>
    exact storeMember_writes hview hactor htarget hrow
      (.of_checks hvalid hmanages hother hpromotes hexisting)

/-- The view of an `Invite` before it inserts. -/
structure Emptied (x v : Database) : Prop where
  members : Members v = Members x
  invitations : NoneOpened x v
  rows : ∀ id, (Invitations v).find id = none → (Invitations x).find id = none

variable {email : String}

theorem Emptied.close {e : Effect Database Key Nat} (h : Emptied x v)
    (he : closeInvitation L organizationId email id begun env nobody v = some e) :
    Emptied x (e.write v) := by
  rcases closeInvitation_some he with hsame | ⟨r, r', -, ⟨-, t, rfl⟩, -, hwrite⟩
  · rwa [hsame]
  · refine ⟨(hwrite v).2.trans h.members, fun k s hs hopen => ?_, fun k hk => ?_⟩
    · rw [(hwrite v).1, Table.find_put_eq] at hs
      split at hs
      · cases hs
        cases hopen
      · exact h.invitations k s hs hopen
    · rw [(hwrite v).1, Table.find_put_eq] at hk
      split at hk
      · cases hk
      · exact h.rows k hk

theorem lone_createOrganizationInvitation {S : Database → Prop} {role : AssignableRole}
    {digest : Bytes} {expiresAt : Time} (hstop : S x) (hview : Emptied x (o.write x)) :
    Prog.Lone remote S (Prog.Stretch o.begun x True fun _ v =>
        Members v = Members x ∧ OneOpened userId organizationId role x v)
      (createOrganizationInvitation L organizationId userId email role digest expiresAt)
      (.active o) x := by
  unfold createOrganizationInvitation
  refine Prog.lone_query hstop (fun env e he => ?_) fun f => .refused trivial
  cases he
  rw [← Prog.bind_pure (Tx.query _)]
  refine Prog.lone_query hstop (fun env e he => ?_) fun f => .refused trivial
  obtain ⟨id, r, hid, -, -, -, ⟨horganization, hinviter, hrole⟩, -, hwrite⟩ :=
    insertOrganizationInvitation_some he
  refine .done rfl ⟨(hwrite (o.write x)).2.trans hview.members, fun k s hs hopen => ?_⟩
  have hs : (Invitations (e.write (o.write x))).find k = some s := hs
  rw [(hwrite (o.write x)).1, Table.find_put_eq] at hs
  split at hs
  · next hk =>
    cases hs
    rw [hk]
    exact .inr ⟨hview.rows id hid, horganization, hinviter, hrole⟩
  · exact .inl (hview.invitations k s hs hopen)

theorem issueInvitation_writes {address : String} {current : Role} {assigned : AssignableRole}
    (ho : o.write x = x) (hactor : membershipRole x.core organizationId userId = some current)
    (hmay : allows current .membersInvite = true) (hassigned : role.assignable? = some assigned) :
    Writes L (.invite userId organizationId email role) x
      (issueInvitation L userId organizationId address assigned) (.active o) := by
  unfold issueInvitation
  have hbefore : Emptied x (o.write x) := by
    rw [ho]
    exact ⟨rfl, noneOpened_refl x, fun _ h => h⟩
  refine Prog.lone_stretch (Prog.lone_forRows (Emptied x) written_same ?_
    (fun k v env e hv he => hv.close he) rfl hbefore) ?_ fun f => written_same
  · intro v env e hv he
    cases he
    exact hv
  intro _ o hbegun hview
  unfold newInvitationToken
  rw [Prog.bind_assoc]
  refine Prog.lone_call written_same fun env => ?_
  cases remote.answer env (.random Auth.sessionTokenBytes) with
  | none => exact written_same
  | some raw =>
  refine Prog.lone_call written_same fun env => ?_
  refine Prog.lone_stretch (lone_createOrganizationInvitation written_same hview) ?_
    fun f => written_same
  rintro - o' - ⟨hmembers, hone⟩
  refine Prog.lone_call written_same fun env => ?_
  split
  · exact written_same
  · refine writes_commit (.invited hactor hmay hassigned (fun k => ?_) hone) ?_
    · rw [hmembers]
    · rintro (f | u) <;> exact ⟨_, rfl⟩

theorem invite_writes (userId organizationId : Uuid) (email : String) (role : RoleText) :
    Writes L (.invite userId organizationId email role) x
      (invite L userId organizationId email role) .idle := by
  unfold invite
  split
  · next address assigned _ hassigned =>
    refine Prog.lone_start written_same (fun env => ?_) written_same
    refine lone_roleTx written_same rfl (fun current o hactor ho => ?_) fun f ses => written_same
    dsimp only
    split
    · exact written_same
    next hmay =>
    refine lone_readCore written_same (fun o' _ ho' => ?_) fun f => written_same
    dsimp only
    split
    · exact written_same
    · refine issueInvitation_writes (ho'.trans ho) hactor ?_ hassigned
      simpa using hmay
  · exact written_same

variable {created : Nat}

section Accept

variable {user : AuthUser} {token : String} {id : Uuid} {r : OrgInvitation}
variable {o : Open Database Key Env}

theorem consuming_written (h : Consuming user.id id r created o x)
    (hdigest : r.tokenDigest = L.digest token) (hmembers : Members y = Members (o.write x))
    (hinvitations : Invitations y = Invitations (o.write x)) :
    Written L x y (.accept user token) := by
  have hnone : NoneOpened x y := by
    intro k s hs hopen
    obtain ⟨t, hclosed⟩ := h.closed
    rw [hinvitations, hclosed, Table.find_put_eq] at hs
    split at hs
    · cases hs
      cases hopen
    · exact hs
  rcases h.members with ⟨-, hsame⟩ | ⟨-, -, habsent, hput⟩
  · refine .nothing (fun k => ?_) hnone
    rw [hmembers, hsame]
  · refine .joined h.row h.isOpen hdigest habsent (fun k => ?_) hnone
    rw [hmembers, hput, Table.find_put_eq]

theorem commitAcceptance_writes (h : Written L x (o.write x) (.accept user token)) :
    Writes L (.accept user token) x (commitAcceptance user r created) (.active o) := by
  unfold commitAcceptance
  refine writes_commit h ?_
  rintro (f | u)
  · exact ⟨_, rfl⟩
  · dsimp only
    split <;> exact ⟨_, rfl⟩

theorem consumeInvitation_writes (h : Joining.Holding id r o x) (hopen : r.acceptedAt = none)
    (hdigest : r.tokenDigest = L.digest token) :
    Writes L (.accept user token) x (consumeInvitation user id r) (.active o) := by
  unfold consumeInvitation
  refine Prog.lone_query written_same (fun env e he => ?_) fun f => written_same
  have hconsuming := h.accept hopen he
  by_cases hone : e.value = 1
  · simp only [if_pos hone]
    refine Prog.lone_stretch (lone_recordTenantChange written_same rfl rfl) ?_ fun f => written_same
    rintro - o' - ⟨hmembers, hinvitations⟩
    exact commitAcceptance_writes (consuming_written hconsuming hdigest hmembers hinvitations)
  · simp only [if_neg hone]
    exact commitAcceptance_writes (consuming_written hconsuming hdigest rfl rfl)

theorem acceptInvitation_writes (user : AuthUser) (token : String) :
    Writes L (.accept user token) x (acceptInvitation L user token) .idle := by
  unfold acceptInvitation
  split
  · exact written_same
  split
  · exact written_same
  refine Prog.lone_start written_same (fun env => ?_) written_same
  refine Prog.lone_query written_same (fun env e he => ?_) fun f => written_same
  cases hfound : e.value with
  | none => exact written_same
  | some found =>
  obtain ⟨hdigest, hholding⟩ := lockOrganizationInvitation_some he still_id hfound
  refine Prog.lone_call written_same fun env => ?_
  split
  · exact written_same
  next hacceptable =>
  simp only [acceptable, Bool.not_eq_true', Bool.not_eq_false, Bool.and_eq_true,
    Option.isNone_iff_eq_none] at hacceptable
  exact consumeInvitation_writes hholding hacceptable.1.1 hdigest

end Accept

/-- What any of the calls leaves. -/
theorem written_leaves (t : Turn) : Written L x (t.leaves L x) t.request := by
  obtain ⟨request, env, fate⟩ := t
  cases request with
  | invite userId organizationId email role =>
    exact Prog.lone_leaves (invite_writes userId organizationId email role) 0 World.empty
  | accept user token => exact Prog.lone_leaves (acceptInvitation_writes user token) 0 World.empty
  | update actorId organizationId memberId role notifications =>
    exact Prog.lone_leaves
      (updateMember_writes actorId organizationId memberId role notifications) 0 World.empty
  | remove actorId organizationId memberId =>
    exact Prog.lone_leaves (removeMember_writes actorId organizationId memberId) 0 World.empty

/-! ## The owner, and what is asked of the calls -/

def roleOf (db : Database) (organizationId userId : Uuid) : Option Role :=
  ((Members db).find (organizationId, userId)).map OrgMember.role

/-- The organization `o` has one owner, the user `w`. -/
structure OneOwner (o w : Uuid) (x : Database) : Prop where
  owner : roleOf x o w = some .owner
  only : ∀ u, roleOf x o u = some .owner → u = w

/-- No administrator invites an administrator, or makes somebody less of another
one. `x` is what the call finds. -/
def Proper (o : Uuid) (x : Database) : Request → Prop
  | .invite userId organizationId _ role => organizationId = o →
      ¬ (membershipRole x.core o userId = some .admin ∧ role = .known .admin)
  | .update actorId organizationId memberId role _ => organizationId = o →
      ¬ (membershipRole x.core o actorId = some .admin ∧ .canonical actorId ≠ memberId ∧
        (role = .known .member ∨ role = .known .viewer) ∧
        ∃ userId, memberId.toUuid? = some userId ∧ roleOf x o userId = some .admin)
  | _ => True

def Request.actor : Request → Uuid
  | .invite userId _ _ _ => userId
  | .accept user _ => user.id
  | .update actorId _ _ _ _ => actorId
  | .remove actorId _ _ => actorId

variable {p : Uuid} {r : OrgInvitation}

section Steps

variable {o w u : Uuid}

theorem roleOf_membership {role : Role} (h : membershipRole x.core o u = some role) :
    roleOf x o u = some role := by
  unfold membershipRole at h
  obtain ⟨m, hm, h⟩ := Option.bind_eq_some_iff.mp h
  obtain ⟨organization, -, h⟩ := Option.bind_eq_some_iff.mp h
  split at h
  · rw [roleOf, hm]
    exact h
  · cases h

theorem OneOwner.of_membership (h : OneOwner o w x)
    (hrole : membershipRole x.core o u = some .owner) : u = w :=
  h.only u (roleOf_membership hrole)

theorem roleOf_congr (hmembers : ∀ k, (Members y).find k = (Members x).find k) :
    roleOf y o u = roleOf x o u :=
  congrArg (Option.map OrgMember.role) (hmembers (o, u))

theorem roleOf_put {k : Uuid × Uuid} {found : Option OrgMember}
    (hmembers : ∀ k', (Members y).find k' = if k' = k then found else (Members x).find k') :
    roleOf y o u = if (o, u) = k then found.map OrgMember.role else roleOf x o u := by
  rw [roleOf, hmembers]
  split <;> rfl

theorem OneOwner.ne_of_role (h : OneOwner o w x) (hrow : (Members x).find (p, u) = some m)
    (hrole : m.role ≠ .owner) : (o, w) ≠ (p, u) := by
  rintro heq
  have howner := h.owner
  rw [roleOf, heq, hrow] at howner
  exact hrole (Option.some.inj howner)

theorem OneOwner.ne_of_absent (h : OneOwner o w x) (hrow : (Members x).find (p, u) = none) :
    (o, w) ≠ (p, u) := by
  rintro heq
  have howner := h.owner
  rw [roleOf, heq, hrow] at howner
  cases howner

theorem MayUpdate.over_ne_owner
    (h : MayUpdate actorId organizationId memberId role actorRole existing) :
    RoleText.over role existing ≠ .owner := by
  cases role with
  | blank | unknown => exact h.existing
  | known r =>
    rintro rfl
    exact h.assignable nofun rfl

theorem MayUpdate.lesser (h : MayUpdate actorId organizationId memberId role actorRole existing)
    (hadmin : existing = .admin) (hnot : RoleText.over role existing ≠ .admin) :
    role = .known .member ∨ role = .known .viewer := by
  cases role with
  | blank | unknown => exact absurd hadmin hnot
  | known r =>
  cases r with
  | owner => exact absurd rfl (h.assignable nofun)
  | admin => exact absurd rfl hnot
  | member => exact .inl rfl
  | viewer => exact .inr rfl

/-- No call touches the row of the owner, or makes another owner. -/
theorem Written.owner (h : Written L x y request) (hone : OneOwner o w x) :
    (Members y).find (o, w) = (Members x).find (o, w) ∧
      ∀ u, roleOf y o u = some .owner → roleOf x o u = some .owner := by
  cases h with
  | nothing hmembers _ => exact ⟨hmembers _, fun u hu => (roleOf_congr hmembers) ▸ hu⟩
  | invited _ _ _ hmembers _ => exact ⟨hmembers _, fun u hu => (roleOf_congr hmembers) ▸ hu⟩
  | @joined user _ _ r _ _ _ habsent hmembers _ =>
    refine ⟨?_, fun u hu => ?_⟩
    · rw [hmembers, if_neg (hone.ne_of_absent habsent)]
    · rw [roleOf_put hmembers] at hu
      split at hu
      · exact absurd (Option.some.inj hu) r.role.2
      · exact hu
  | updated _ _ hrow hmay hmembers _ =>
    refine ⟨?_, fun u hu => ?_⟩
    · rw [hmembers, if_neg (hone.ne_of_role hrow hmay.existing)]
    · rw [roleOf_put hmembers] at hu
      split at hu
      · exact absurd (Option.some.inj hu) hmay.over_ne_owner
      · exact hu
  | removed _ _ hrow hnotOwner _ hmembers _ =>
    refine ⟨?_, fun u hu => ?_⟩
    · rw [hmembers, if_neg (hone.ne_of_role hrow hnotOwner)]
    · rw [roleOf_put hmembers] at hu
      split at hu
      · cases hu
      · exact hu

theorem OneOwner.written (hone : OneOwner o w x) (h : Written L x y request) :
    OneOwner o w y := by
  obtain ⟨hrow, hothers⟩ := h.owner hone
  refine ⟨?_, fun u hu => hone.only u (hothers u hu)⟩
  rw [roleOf, hrow]
  exact hone.owner

/-- Whoever has become an administrator was made one by the owner, or has taken up
an invitation. -/
theorem Written.promoted (h : Written L x y request) (hone : OneOwner o w x)
    (hbefore : roleOf x o u ≠ some .admin) (hafter : roleOf y o u = some .admin) :
    (∃ memberId notifications, request = .update w o memberId (.known .admin) notifications ∧
      memberId.toUuid? = some u) ∨
    ∃ user token id r, request = .accept user token ∧ user.id = u ∧
      (Invitations x).find id = some r ∧ r.acceptedAt = none ∧
      r.tokenDigest = L.digest token ∧ r.organizationId = o ∧ r.role.val = .admin := by
  cases h with
  | nothing hmembers _ => exact absurd ((roleOf_congr hmembers).symm.trans hafter) hbefore
  | invited _ _ _ hmembers _ => exact absurd ((roleOf_congr hmembers).symm.trans hafter) hbefore
  | @joined user token id r hrow hopen hdigest _ hmembers _ =>
    rw [roleOf_put hmembers] at hafter
    split at hafter
    · next hkey =>
      cases hkey
      exact .inr ⟨user, token, id, r, rfl, rfl, hrow, hopen, hdigest, rfl, Option.some.inj hafter⟩
    · exact absurd hafter hbefore
  | @updated actorId _ userId memberId role notifications actorRole m _ hactor htarget hrow
      hmay hmembers _ =>
      rw [roleOf_put hmembers] at hafter
      split at hafter
      · next hkey =>
        cases hkey
        -- it is the role of the request that is new
        have hrole : role = .known .admin := by
          have hnew : RoleText.over role m.role = .admin := Option.some.inj hafter
          rw [roleOf, hrow] at hbefore
          cases role with
          | known r => exact congrArg RoleText.known hnew
          | blank | unknown => exact absurd (congrArg some hnew) hbefore
        subst hrole
        rw [hmay.promotes rfl] at hactor
        rw [hone.of_membership hactor]
        exact .inl ⟨memberId, notifications, rfl, htarget⟩
      · exact absurd hafter hbefore
  | removed _ _ _ _ _ hmembers _ =>
    rw [roleOf_put hmembers] at hafter
    split at hafter
    · cases hafter
    · exact absurd hafter hbefore

/-- Whoever is no administrator any more was made less by the owner. -/
theorem Written.demoted (h : Written L x y request) (hone : OneOwner o w x)
    (hproper : Proper o x request) (hbefore : roleOf x o u = some .admin)
    (hafter : roleOf y o u ≠ some .admin) : request.actor = w := by
  cases h with
  | nothing hmembers _ => exact absurd ((roleOf_congr hmembers).trans hbefore) hafter
  | invited _ _ _ hmembers _ => exact absurd ((roleOf_congr hmembers).trans hbefore) hafter
  | joined _ _ _ habsent hmembers _ =>
    rw [roleOf_put hmembers] at hafter
    split at hafter
    · next hkey =>
      rw [roleOf, hkey, habsent] at hbefore
      cases hbefore
    · exact absurd hbefore hafter
  | @updated actorId _ userId memberId role _ actorRole m _ hactor htarget hrow hmay hmembers _ =>
    rw [roleOf_put hmembers] at hafter
    split at hafter
    · next hkey =>
      cases hkey
      have hadmin : m.role = .admin := by
        rw [roleOf, hrow] at hbefore
        exact Option.some.inj hbefore
      have hlesser := hmay.lesser hadmin fun hsame => hafter (congrArg some hsame)
      have hother : IdText.canonical actorId ≠ memberId := hmay.other (by
        rcases hlesser with rfl | rfl <;> exact nofun)
      have hmanages := hmay.manages hother
      cases actorRole with
      | owner => exact hone.of_membership hactor
      | admin => exact absurd ⟨hactor, hother, hlesser, u, htarget, hbefore⟩ (hproper rfl)
      | member | viewer => cases hmanages
    · exact absurd hbefore hafter
  | @removed _ _ _ _ _ m hactor _ hrow _ hofAdmin hmembers _ =>
    rw [roleOf_put hmembers] at hafter
    split at hafter
    · next hkey =>
      cases hkey
      rw [roleOf, hrow] at hbefore
      rw [hofAdmin (Option.some.inj hbefore)] at hactor
      exact hone.of_membership hactor
    · exact absurd hbefore hafter

/-- An invitation that makes an administrator is an invitation by the owner. -/
theorem Written.opened (h : Written L x y request) (hone : OneOwner o w x)
    (hproper : Proper o x request) (hrow : (Invitations y).find id = some r)
    (hopen : r.acceptedAt = none) (horganization : r.organizationId = o)
    (hadmin : r.role.val = .admin) :
    (Invitations x).find id = some r ∨
      ((Invitations x).find id = none ∧ ∃ email, request = .invite w o email (.known .admin)) := by
  cases h with
  | nothing _ hnone => exact .inl (hnone id r hrow hopen)
  | @invited userId organizationId email role current assigned hactor hmay hassigned _ hopened =>
    rcases hopened id r hrow hopen with hold | ⟨habsent, rfl, -, rfl⟩
    · exact .inl hold
    · refine .inr ⟨habsent, email, ?_⟩
      subst horganization
      have hrole : role = .known .admin := by
        cases role with
        | blank | unknown => cases hassigned
        | known q =>
        cases q with
        | admin => rfl
        | owner => cases hassigned
        | member | viewer =>
          rw [← Option.some.inj hassigned] at hadmin
          cases hadmin
      have howner : current = .owner := by
        cases current with
        | owner => rfl
        | admin => exact absurd ⟨hactor, hrole⟩ (hproper rfl)
        | member | viewer => cases hmay
      rw [howner] at hactor
      rw [hone.of_membership hactor, hrole]
  | joined _ _ _ _ _ hnone => exact .inl (hnone id r hrow hopen)
  | updated _ _ _ _ _ hnone | removed _ _ _ _ _ _ hnone => exact .inl (hnone id r hrow hopen)

end Steps

/-! ## Runs -/

variable {before : List Turn}

section Runs

variable (L) (db : Database) (o w : Uuid)

/-- The owner has made the invitation, before the run or in it. -/
inductive InvitedByOwner (before : List Turn) (id : Uuid) (r : OrgInvitation) : Prop
  | earlier (row : (Invitations db).find id = some r) (inviter : r.invitedByUserId = w) :
      InvitedByOwner before id r
  | inRun {pre : List Turn} {t : Turn} {email : String} (part : pre ++ [t] <+: before)
      (call : t.request = .invite w o email (.known .admin))
      (absent : (Invitations (after L db pre)).find id = none)
      (row : (Invitations (after L db (pre ++ [t]))).find id = some r) :
      InvitedByOwner before id r

/-- How the owner makes a user an administrator. -/
inductive MadeByOwner (before : List Turn) : Request → Uuid → Prop
  | update {memberId : IdText} {notifications : Option Bool} {u : Uuid}
      (target : memberId.toUuid? = some u) :
      MadeByOwner before (.update w o memberId (.known .admin) notifications) u
  | accept {user : AuthUser} {token : String} {id : Uuid} {r : OrgInvitation}
      (row : (Invitations (after L db before)).find id = some r)
      (digest : r.tokenDigest = L.digest token) (organization : r.organizationId = o)
      (role : r.role.val = .admin) (invited : InvitedByOwner L db o w before id r) :
      MadeByOwner before (.accept user token) user.id

/-- What holds between the calls. -/
structure Kept (before : List Turn) : Prop where
  oneOwner : OneOwner o w (after L db before)
  row : (Members (after L db before)).find (o, w) = (Members db).find (o, w)
  invited : ∀ id r, (Invitations (after L db before)).find id = some r → r.acceptedAt = none →
    r.organizationId = o → r.role.val = .admin → InvitedByOwner L db o w before id r

variable {L db o w}

theorem after_snoc (before : List Turn) (t : Turn) :
    after L db (before ++ [t]) = t.leaves L (after L db before) :=
  List.foldl_concat _ _ _ _

theorem written_snoc (before : List Turn) (t : Turn) :
    Written L (after L db before) (after L db (before ++ [t])) t.request := by
  rw [after_snoc]
  exact written_leaves t

theorem InvitedByOwner.snoc (t : Turn) (h : InvitedByOwner L db o w before id r) :
    InvitedByOwner L db o w (before ++ [t]) id r := by
  cases h with
  | earlier hrow hinviter => exact .earlier hrow hinviter
  | inRun hpart hcall habsent hrow =>
    exact .inRun (hpart.trans (List.prefix_append before [t])) hcall habsent hrow

theorem Kept.snoc {t : Turn} (h : Kept L db o w before)
    (hproper : Proper o (after L db before) t.request) : Kept L db o w (before ++ [t]) where
  oneOwner := h.oneOwner.written (written_snoc before t)
  row := ((written_snoc before t).owner h.oneOwner).1.trans h.row
  invited := by
    intro id r hrow hopen horganization hadmin
    rcases (written_snoc before t).opened h.oneOwner hproper hrow hopen horganization hadmin with
      hold | ⟨habsent, email, hcall⟩
    · exact (h.invited id r hold hopen horganization hadmin).snoc t
    · exact .inRun (List.prefix_refl _) hcall habsent hrow

end Runs

/-- **Only the owner controls administrators**, in every run of calls whose calls are
proper: from an organization with one owner, and whose open invitations of
administrators are by that owner, the owner's membership is always what it was, a
user becomes an administrator by an `UpdateMember` or an `Invite` of the owner only,
and stops being one only by a call of the owner. -/
theorem owner_controls_administrators (L : Library) (db : Database) (o w : Uuid)
    (hone : OneOwner o w db)
    (hinvited : ∀ id r, (Invitations db).find id = some r → r.acceptedAt = none →
      r.organizationId = o → r.role.val = .admin → r.invitedByUserId = w)
    (turns : List Turn)
    (hproper : ∀ before t, before ++ [t] <+: turns → Proper o (after L db before) t.request) :
    ∀ before t, before ++ [t] <+: turns →
      (Members (after L db (before ++ [t]))).find (o, w) = (Members db).find (o, w) ∧
      ∀ u, (roleOf (after L db before) o u ≠ some .admin →
          roleOf (after L db (before ++ [t])) o u = some .admin →
          MadeByOwner L db o w before t.request u) ∧
        (roleOf (after L db before) o u = some .admin →
          roleOf (after L db (before ++ [t])) o u ≠ some .admin → t.request.actor = w) := by
  have hkept : ∀ before, before <+: turns → Kept L db o w before := by
    intro before
    induction before using List.reverseRecOn with
    | nil =>
      intro _
      exact ⟨hone, rfl, fun id r hr hopen ho hadmin =>
        .earlier hr (hinvited id r hr hopen ho hadmin)⟩
    | append_singleton before t ih =>
      intro hturns
      exact (ih ((List.prefix_append before [t]).trans hturns)).snoc (hproper before t hturns)
  intro before t hturns
  have hbefore := hkept before ((List.prefix_append before [t]).trans hturns)
  have hwritten : Written L (after L db before) (after L db (before ++ [t])) t.request :=
    written_snoc before t
  refine ⟨(hkept _ hturns).row, fun u => ⟨fun hnot hadmin => ?_, fun hadmin hnot => ?_⟩⟩
  · rcases hwritten.promoted hbefore.oneOwner hnot hadmin with
      ⟨memberId, notifications, hcall, htarget⟩ |
        ⟨user, token, id, r, hcall, rfl, hrow, hopen, hdigest, horganization, hrole⟩
    · rw [hcall]
      exact .update htarget
    · rw [hcall]
      exact .accept hrow hdigest horganization hrole
        (hbefore.invited id r hrow hopen horganization hrole)
  · exact hwritten.demoted hbefore.oneOwner (hproper before t hturns) hadmin hnot

namespace Sample

open Joining.Sample (library)

/-- The owner is 1 and an administrator 4; 5 is not a member yet. -/
def database : Database :=
  { ledger := .empty
    core := { Core.empty with
      organizations := Table.empty.put 2 {}
      users := ((Table.empty.put 1 { email := "o@w", emailVerifiedAt := some 0 }).put 4
        { email := "a@b", emailVerifiedAt := some 0 }).put 5
        { email := "c@d", emailVerifiedAt := some 0 }
      members := (Table.empty.put (2, 1)
        { role := .owner, incidentNotificationsEnabled := true }).put (2, 4)
        { role := .admin, incidentNotificationsEnabled := true } }
    journal := .empty }

def guest : AuthUser := { id := 5, email := "c@d", emailVerified := true }

def token : String := invitationTokenPrefix ++ String.ofList (List.replicate 32 'A')

/-- A call in which nothing fails. -/
def turn (n : Nat) (request : Request) : Turn where
  request := request
  env := fun _ =>
    { now := n, wall := n, uuid := n, pick := 0, sent := .error (), result := .noMessage
      dlq := .noMessage, acknowledged := true, sealed := none, nonce := none
      random := some (List.replicate 32 65) }
  fate := fun _ => some .done

/-- The guest is invited as an administrator, and accepts. -/
def joining (inviter : Uuid) : List Turn :=
  [turn 1 (.invite inviter 2 "c@d" (.known .admin)), turn 2 (.accept guest token)]

/-- And then somebody is made a viewer. -/
def demoting (actor target : Uuid) : Turn :=
  turn 3 (.update actor 2 (.canonical target) (.known .viewer) none)

theorem joining_proper : ∀ before t, before ++ [t] <+: joining 1 ++ [demoting 1 4] →
    Proper 2 (after library database before) t.request := by
  intro before t h
  unfold joining at h
  rcases before with _ | ⟨first, _ | ⟨second, _ | ⟨third, rest⟩⟩⟩ <;>
    simp only [List.nil_append, List.cons_append, List.cons_prefix_cons] at h
  · obtain ⟨rfl, -⟩ := h
    exact fun _ hadmin => absurd hadmin.1 (by decide +kernel)
  · obtain ⟨rfl, rfl, -⟩ := h
    trivial
  · obtain ⟨rfl, rfl, rfl, -⟩ := h
    exact fun _ hadmin => absurd hadmin.1 (by decide +kernel)
  · have hrest := List.prefix_nil.mp h.2.2.2
    simp at hrest

end Sample

open Roles.Sample

/-- The owner makes an administrator, and then makes less of another. -/
theorem owner_controls_administrators_sample :
    let turns := joining 1 ++ [demoting 1 4]
    roleOf (after Joining.Sample.library database turns) 2 4 = some .viewer ∧
    roleOf (after Joining.Sample.library database turns) 2 5 = some .admin ∧
    (Members (after Joining.Sample.library database turns)).find (2, 1) =
      (Members database).find (2, 1) := by
  refine ⟨by decide +kernel, by decide +kernel, ?_⟩
  refine (owner_controls_administrators Joining.Sample.library database 2 1
    ⟨by decide +kernel, ?_⟩ ?_ (joining 1 ++ [demoting 1 4])
    joining_proper (joining 1) (demoting 1 4) (List.prefix_refl _)).1
  · intro u hu
    simp only [roleOf, Members, database, Table.find_put_eq, Prod.mk.injEq, true_and] at hu
    split at hu
    · cases hu
    · split at hu
      · assumption
      · cases hu
  · intro id r hr
    cases hr

/-- An administrator invites, another demotes; the owner has not done anything. -/
theorem administrators_without_owner :
    let turns := joining 4 ++ [demoting 5 4]
    (∀ t ∈ turns, t.request.actor ≠ 1) ∧
    roleOf database 2 1 = some .owner ∧ roleOf database 2 4 = some .admin ∧
    roleOf database 2 5 = none ∧
    roleOf (after Joining.Sample.library database turns) 2 4 = some .viewer ∧
    roleOf (after Joining.Sample.library database turns) 2 5 = some .admin := by
  decide +kernel

end WatchTrace.Proofs.Roles
