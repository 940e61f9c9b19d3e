import WatchTrace.Model.Realtime

/-!
# What a stream delivers

A stream remembers the identifier of the last event it has written and never asks
for an earlier one again. That is enough as long as identifiers become visible in
their order. They are handed out in order; but a transaction that has drawn an
identifier may still be open when a later one is committed and delivered, and the
event it commits in the end lies behind the stream for good.

So the stream misses nothing if, whenever it polls, the open transactions hold no
identifier of the environment below one that is already there to be delivered.
-/

namespace WatchTrace.Proofs.Realtime

open Tx Model Model.Realtime

/-! ## `Poll` alone -/

/-- `polled` is what the program answers. -/
theorem poll_solo {i : Nat} {env : Nat → Env} {n : Nat} {db : Database} {w : World}
    (userId environmentId : Uuid) (after limit : Int) :
    (poll userId environmentId after limit).solo remote i env n .idle db w =
      (polled (environmentAccess db.core userId environmentId) db.journal.refresh
        environmentId after limit, db, w) := by
  unfold poll polled
  by_cases harguments : pollable after limit = true
  · simp only [harguments]
    by_cases hrole : mayPoll (environmentAccess db.core userId environmentId) = true
    · simp only [hrole]
      change Prog.solo remote i env _ (if !mayPoll (environmentAccess db.core userId
        environmentId) then _ else _) _ _ _ = _
      simp only [hrole]
      rfl
    simp only [hrole]
    change Prog.solo remote i env _ (if !mayPoll (environmentAccess db.core userId
      environmentId) then _ else _) _ _ _ = _
    simp only [hrole]
    rfl
  · simp only [harguments]
    rfl

/-! ## The rows a poll lists -/

variable {r : RefreshEvent}

variable {k : Nat} {x : RefreshEvent}

section Listing

variable {rows : List RefreshEvent} {environmentId : Uuid} {after : Int} {limit : Nat}

/-- The rows a poll chooses from. -/
theorem mem_candidates : r ∈ (rows.filter fun r => r.environmentId == some environmentId &&
      decide (after < r.id)).insertionSort (fun r r' => r.id ≤ r'.id) ↔
      r ∈ rows ∧ r.environmentId = some environmentId ∧ after < r.id := by
  rw [(List.perm_insertionSort _ _).mem_iff, List.mem_filter]
  simp

theorem mem_of_mem_refreshEventsAfter (h : r ∈ refreshEventsAfter rows environmentId after limit) :
    r ∈ rows ∧ r.environmentId = some environmentId ∧ after < r.id :=
  mem_candidates.mp (List.mem_of_mem_take h)

/-- What comes before a row of an initial segment lies in the segment. -/
theorem mem_take_of_le {l : List RefreshEvent} (hsorted : l.Pairwise fun r r' => r.id ≤ r'.id)
    (hinj : ∀ r ∈ l, ∀ r' ∈ l, r.id = r'.id → r = r') (hx : x ∈ l.take k) (hr : r ∈ l)
    (hle : r.id ≤ x.id) : r ∈ l.take k := by
  rw [← List.take_append_drop k l] at hr hsorted
  rcases List.mem_append.mp hr with htake | hdrop
  · exact htake
  · have hge : x.id ≤ r.id := (List.pairwise_append.mp hsorted).2.2 x hx r hdrop
    have heq : r = x := hinj r (List.mem_of_mem_drop hdrop) x (List.mem_of_mem_take hx) (by omega)
    rw [heq]
    exact hx

/-- If a row is among the first `k` a poll lists, so are those before it. -/
theorem refreshEventsAfter_complete (hinj : ∀ r ∈ rows, ∀ r' ∈ rows, r.id = r'.id → r = r')
    (hx : x ∈ (refreshEventsAfter rows environmentId after limit).take k) (hr : r ∈ rows)
    (henvironment : r.environmentId = some environmentId) (hafter : after < r.id)
    (hle : r.id ≤ x.id) :
    r ∈ (refreshEventsAfter rows environmentId after limit).take k := by
  unfold refreshEventsAfter at hx ⊢
  rw [List.take_take] at hx ⊢
  have hsorted := List.pairwise_insertionSort (fun r r' : RefreshEvent => r.id ≤ r'.id)
    (rows.filter fun r => r.environmentId == some environmentId && decide (after < r.id))
  refine mem_take_of_le hsorted (fun a ha b hb => ?_) hx
    (mem_candidates.mpr ⟨hr, henvironment, hafter⟩) hle
  exact hinj a (mem_candidates.mp ha).1 b (mem_candidates.mp hb).1

end Listing

/-! ## The stream -/

/-- After a write: the events that were taken have been delivered, and the stream
stands at the last of them. -/
theorem write_delivered (s : Stream) (events : List Event) (taken : Nat) :
    (s.write events taken).delivered = s.delivered ++ events.take taken := by
  induction events generalizing s taken with
  | nil => simp [Stream.write]
  | cons event rest ih =>
    cases taken with
    | zero => simp [Stream.write]
    | succ taken => simp [Stream.write, ih]

theorem write_last (s : Stream) (events : List Event) (taken : Nat) :
    (s.write events taken).last = s.last ∨
      ∃ event ∈ events.take taken, (s.write events taken).last = event.id := by
  induction events generalizing s taken with
  | nil => exact .inl rfl
  | cons event rest ih =>
    cases taken with
    | zero => exact .inl rfl
    | succ taken =>
    right
    rcases ih { s with last := event.id, delivered := s.delivered ++ [event] } taken with
      hlast | ⟨x, hx, hlast⟩
    · exact ⟨event, by simp, hlast⟩
    · exact ⟨x, by simp [hx], hlast⟩

/-- What a tick does: nothing is written, or the first `k` of the rows listed. -/
theorem tick_cases (f : Feed) (environmentId : Uuid) (authorized : Option (Uuid × Role))
    (taken : Nat) :
    let s := f.stream.tick (polled authorized f.rows environmentId f.stream.last 100) taken
    let listed := refreshEventsAfter f.rows environmentId f.stream.last 100
    (s.last = f.stream.last ∧ s.delivered = f.stream.delivered) ∨
      (s.delivered = f.stream.delivered ++ (listed.take taken).map eventOf ∧
        (s.last = f.stream.last ∨ ∃ r ∈ listed.take taken, s.last = r.id)) := by
  unfold Stream.tick polled
  split
  · exact .inl ⟨rfl, rfl⟩
  split
  · exact .inl ⟨rfl, rfl⟩
  next events hevents =>
  split at hevents
  · cases hevents
  split at hevents
  · cases hevents
  cases hevents
  right
  refine ⟨by rw [write_delivered, List.map_take]; rfl, ?_⟩
  rcases write_last f.stream _ taken with hlast | ⟨event, hevent, hlast⟩
  · exact .inl hlast
  · rw [← List.map_take] at hevent
    obtain ⟨r, hr, rfl⟩ := List.mem_map.mp hevent
    exact .inr ⟨r, hr, hlast⟩

/-! ## The table -/

/-- The identifiers are those of a primary key, and the sequence is ahead of them. -/
structure Numbered (f : Feed) : Prop where
  rows_le : ∀ r ∈ f.rows, r.id ≤ f.sequence
  pending_le : ∀ p ∈ f.pending, p.2.id ≤ f.sequence
  distinct : (f.rows ++ f.pending.map Prod.snd).Pairwise fun r r' => r.id ≠ r'.id

variable {environmentId : Uuid}

variable {f : Feed}

theorem Numbered.injective (h : Numbered f) :
    ∀ r ∈ f.rows, ∀ r' ∈ f.rows, r.id = r'.id → r = r' := by
  have hrows := (List.pairwise_append.mp h.distinct).1
  have : Std.Symm fun r r' : RefreshEvent => r.id ≠ r'.id := ⟨fun _ _ hne => Ne.symm hne⟩
  intro r hr r' hr' heq
  by_contra hne
  exact hrows.forall hr hr' hne heq

/-- Committing moves rows from one list to the other. -/
theorem perm_commit (f : Feed) (transaction : Nat) :
    (f.rows ++ (f.pending.filter fun p => p.1 == transaction).map Prod.snd ++
      (f.pending.filter fun p => p.1 != transaction).map Prod.snd).Perm
      (f.rows ++ f.pending.map Prod.snd) := by
  rw [List.append_assoc, ← List.map_append]
  exact ((List.filter_append_perm (fun p : Nat × RefreshEvent => p.1 == transaction)
    f.pending).map Prod.snd).append_left f.rows

theorem Numbered.step (h : Numbered f) (m : Move) :
    Numbered (f.step environmentId m) := by
  cases m with
  | insert transaction event gap =>
    refine ⟨fun r hr => ?_, fun p hp => ?_, ?_⟩
    · have hle := h.rows_le r hr
      simp only [Feed.step]
      omega
    · simp only [Feed.step] at hp ⊢
      rcases List.mem_append.mp hp with hold | hnew
      · have hle := h.pending_le p hold
        omega
      · rw [List.mem_singleton.mp hnew]
    · simp only [Feed.step, List.map_append, ← List.append_assoc]
      refine List.pairwise_append.mpr ⟨h.distinct, List.pairwise_singleton _ _, ?_⟩
      intro r hr r' hr'
      rw [List.map_singleton, List.mem_singleton] at hr'
      subst hr'
      have hle : r.id ≤ f.sequence := by
        rcases List.mem_append.mp hr with hrow | hpending
        · exact h.rows_le r hrow
        · obtain ⟨p, hp, rfl⟩ := List.mem_map.mp hpending
          exact h.pending_le p hp
      simp only
      omega
  | commit transaction =>
    refine ⟨fun r hr => ?_, fun p hp => h.pending_le p (List.mem_of_mem_filter hp), ?_⟩
    · rcases List.mem_append.mp hr with hold | hnew
      · exact h.rows_le r hold
      · obtain ⟨p, hp, rfl⟩ := List.mem_map.mp hnew
        exact h.pending_le p (List.mem_of_mem_filter hp)
    · exact (List.Perm.pairwise_iff (fun h => Ne.symm h) (perm_commit f transaction)).mpr h.distinct
  | rollback transaction =>
    refine ⟨h.rows_le, fun p hp => h.pending_le p (List.mem_of_mem_filter hp), ?_⟩
    refine h.distinct.sublist (List.Sublist.append_left ?_ f.rows)
    exact (List.filter_sublist).map Prod.snd
  | poll authorized taken => exact ⟨h.rows_le, h.pending_le, h.distinct⟩

/-- A row that is committed later is in progress now, or has a later identifier
than all that were handed out. -/
theorem mem_rows_run (h : Numbered f) (moves : List Move)
    (hr : r ∈ (f.run environmentId moves).rows) :
    r ∈ f.rows ∨ r ∈ f.pending.map Prod.snd ∨ f.sequence < r.id := by
  induction moves generalizing f with
  | nil => exact .inl hr
  | cons m moves ih =>
    have hlater := ih (h.step m) hr
    cases m with
    | insert transaction event gap =>
      simp only [Feed.step, List.map_append, List.mem_append, List.map_singleton,
        List.mem_singleton] at hlater
      rcases hlater with hrow | (hpending | rfl) | hlt
      · exact .inl hrow
      · exact .inr (.inl hpending)
      · refine .inr (.inr ?_)
        simp only
        omega
      · exact .inr (.inr (by omega))
    | commit transaction =>
      simp only [Feed.step, List.mem_append, List.mem_map, List.mem_filter] at hlater
      rcases hlater with (hrow | ⟨p, ⟨hp, -⟩, rfl⟩) | ⟨p, ⟨hp, -⟩, rfl⟩ | hlt
      · exact .inl hrow
      · exact .inr (.inl (List.mem_map_of_mem hp))
      · exact .inr (.inl (List.mem_map_of_mem hp))
      · exact .inr (.inr hlt)
    | rollback transaction =>
      simp only [Feed.step, List.mem_map, List.mem_filter] at hlater
      rcases hlater with hrow | ⟨p, ⟨hp, -⟩, rfl⟩ | hlt
      · exact .inl hrow
      · exact .inr (.inl (List.mem_map_of_mem hp))
      · exact .inr (.inr hlt)
    | poll authorized taken => exact hlater

/-! ## Runs -/

/-- No open transaction holds an identifier of the environment that is lower than
one the stream could be given now. -/
def Settled (environmentId : Uuid) (f : Feed) : Prop :=
  ∀ p ∈ f.pending, p.2.environmentId = some environmentId →
    ∀ r ∈ f.rows, r.environmentId = some environmentId → f.stream.last < r.id → r.id < p.2.id

instance (environmentId : Uuid) (f : Feed) : Decidable (Settled environmentId f) :=
  inferInstanceAs (Decidable (∀ p ∈ f.pending, _ → ∀ r ∈ f.rows, _ → _ → _))

/-- The polls of a run happen in settled states. -/
def SettledPolls (environmentId : Uuid) : Feed → List Move → Prop
  | _, [] => True
  | f, .poll authorized taken :: moves =>
    Settled environmentId f ∧
      SettledPolls environmentId (f.step environmentId (.poll authorized taken)) moves
  | f, m :: moves => SettledPolls environmentId (f.step environmentId m) moves

/-- What the stream that began after `start` has behind it, it has delivered, and
what is in progress lies ahead of it. -/
structure Complete (environmentId : Uuid) (start : Int) (f : Feed) : Prop where
  numbered : Numbered f
  last_le : f.stream.last = start ∨ f.stream.last ≤ f.sequence
  behind : ∀ r ∈ f.rows, r.environmentId = some environmentId → start < r.id →
    r.id ≤ f.stream.last → eventOf r ∈ f.stream.delivered
  ahead : ∀ p ∈ f.pending, p.2.environmentId = some environmentId → start < p.2.id →
    f.stream.last < p.2.id

variable {start : Int}

theorem Complete.poll (h : Complete environmentId start f) (hsettled : Settled environmentId f)
    (authorized : Option (Uuid × Role)) (taken : Nat) :
    Complete environmentId start (f.step environmentId (.poll authorized taken)) := by
  have hcases := tick_cases f environmentId authorized taken
  simp only at hcases
  generalize hs : f.stream.tick (polled authorized f.rows environmentId f.stream.last 100)
    taken = s at hcases
  have hstep : f.step environmentId (.poll authorized taken) = { f with stream := s } := by
    rw [← hs]
    rfl
  rw [hstep]
  rcases hcases with ⟨hlast, hdelivered⟩ | ⟨hdelivered, hlast⟩
  · refine ⟨⟨h.numbered.rows_le, h.numbered.pending_le, h.numbered.distinct⟩, ?_, ?_, ?_⟩
    · rw [hlast]
      exact h.last_le
    · rw [hlast, hdelivered]
      exact h.behind
    · rw [hlast]
      exact h.ahead
  · refine ⟨⟨h.numbered.rows_le, h.numbered.pending_le, h.numbered.distinct⟩, ?_, ?_, ?_⟩
    · rcases hlast with hlast | ⟨r, hr, hlast⟩
      · rw [hlast]
        exact h.last_le
      · have hrow := (mem_of_mem_refreshEventsAfter (List.mem_of_mem_take hr)).1
        rw [hlast]
        exact .inr (h.numbered.rows_le r hrow)
    · intro r hr henvironment hstart hle
      rw [hdelivered]
      by_cases hold : r.id ≤ f.stream.last
      · exact List.mem_append_left _ (h.behind r hr henvironment hstart hold)
      rcases hlast with hlast | ⟨x, hx, hlast⟩
      · exact absurd (hlast ▸ hle) hold
      · refine List.mem_append_right _ (List.mem_map_of_mem ?_)
        exact refreshEventsAfter_complete h.numbered.injective hx hr henvironment
          (by omega) (hlast ▸ hle)
    · intro p hp henvironment hstart
      rcases hlast with hlast | ⟨r, hr, hlast⟩
      · rw [hlast]
        exact h.ahead p hp henvironment hstart
      · obtain ⟨hrow, hrowEnvironment, hafter⟩ :=
          mem_of_mem_refreshEventsAfter (List.mem_of_mem_take hr)
        rw [hlast]
        exact hsettled p hp henvironment r hrow hrowEnvironment hafter

theorem Complete.insert (h : Complete environmentId start f) (transaction : Nat)
    (event : RefreshEvent) (gap : Nat) :
    Complete environmentId start (f.step environmentId (.insert transaction event gap)) := by
  refine ⟨h.numbered.step _, ?_, h.behind, fun p hp henvironment hstart => ?_⟩
  · refine h.last_le.imp id fun hle => ?_
    simp only [Feed.step]
    omega
  · rcases List.mem_append.mp hp with hold | hnew
    · exact h.ahead p hold henvironment hstart
    · -- the sequence is ahead of the stream, unless the stream has not moved
      rw [List.mem_singleton.mp hnew] at hstart ⊢
      rcases h.last_le with hlast | hlast
      · exact hlast ▸ hstart
      · simp only [Feed.step]
        omega

theorem Complete.commit (h : Complete environmentId start f) (transaction : Nat) :
    Complete environmentId start (f.step environmentId (.commit transaction)) := by
  refine ⟨h.numbered.step _, h.last_le, fun r hr henvironment hstart hle => ?_,
    fun p hp => h.ahead p (List.mem_of_mem_filter hp)⟩
  rcases List.mem_append.mp hr with hold | hnew
  · exact h.behind r hold henvironment hstart hle
  · obtain ⟨p, hp, rfl⟩ := List.mem_map.mp hnew
    have hahead := h.ahead p (List.mem_of_mem_filter hp) henvironment hstart
    exact absurd hle (Int.not_le.mpr hahead)

theorem Complete.rollback (h : Complete environmentId start f) (transaction : Nat) :
    Complete environmentId start (f.step environmentId (.rollback transaction)) :=
  ⟨h.numbered.step _, h.last_le, h.behind, fun p hp => h.ahead p (List.mem_of_mem_filter hp)⟩

theorem Complete.run (h : Complete environmentId start f) {moves : List Move}
    (hmoves : SettledPolls environmentId f moves) :
    Complete environmentId start (f.run environmentId moves) := by
  induction moves generalizing f with
  | nil => exact h
  | cons m moves ih =>
    cases m with
    | insert transaction event gap => exact ih (h.insert transaction event gap) hmoves
    | commit transaction => exact ih (h.commit transaction) hmoves
    | rollback transaction => exact ih (h.rollback transaction) hmoves
    | poll authorized taken => exact ih (h.poll hmoves.1 authorized taken) hmoves.2

/-- A table at rest, and a stream that begins after `start`. -/
def opened (sequence : Int) (rows : List RefreshEvent) (start : Int) : Feed :=
  { sequence := sequence, rows := rows, stream := { last := start } }

/-- The rows of a table whose primary key comes from a sequence. -/
def Keyed (sequence : Int) (rows : List RefreshEvent) : Prop :=
  (∀ r ∈ rows, r.id ≤ sequence) ∧ rows.Pairwise fun r r' => r.id ≠ r'.id

theorem complete_opened {sequence : Int} {rows : List RefreshEvent} (h : Keyed sequence rows)
    (start : Int) : Complete environmentId start (opened sequence rows start) := by
  refine ⟨⟨h.1, fun p hp => (by cases hp), ?_⟩, .inl rfl, fun r _ _ hlt hle => ?_, nofun⟩
  · simpa [opened] using h.2
  · simp only [opened] at hle
    omega

/-- **What the stream has passed, it has delivered.** The stream starts after
`start`, polls happen in settled states, and now it stands at some identifier. Then
every event up to there that is committed now or ever will be has been delivered. -/
theorem stream_skips_nothing (environmentId : Uuid) (sequence : Int)
    (rows : List RefreshEvent) (start : Int) (hrows : Keyed sequence rows)
    (moves later : List Move)
    (hmoves : SettledPolls environmentId (opened sequence rows start) moves) :
    let now := (opened sequence rows start).run environmentId moves
    ∀ r ∈ (now.run environmentId later).rows, r.environmentId = some environmentId →
      start < r.id → r.id ≤ now.stream.last → eventOf r ∈ now.stream.delivered := by
  intro now r hr henvironment hstart hle
  have hnow : Complete environmentId start now := (complete_opened hrows start).run hmoves
  rcases mem_rows_run hnow.numbered later hr with hrow | hpending | hlt
  · exact hnow.behind r hrow henvironment hstart hle
  · obtain ⟨p, hp, rfl⟩ := List.mem_map.mp hpending
    have hahead := hnow.ahead p hp henvironment hstart
    omega
  · rcases hnow.last_le with hlast | hlast
    · omega
    · omega

/-! ## Order -/

/-- What has been delivered is in order, up to where the stream stands. -/
def Ordered (s : Stream) : Prop :=
  s.delivered.Pairwise (fun e e' => e.id < e'.id) ∧ ∀ e ∈ s.delivered, e.id ≤ s.last

theorem Ordered.write {s : Stream} (h : Ordered s) {events : List Event}
    (hsorted : events.Pairwise fun e e' => e.id < e'.id) (hafter : ∀ e ∈ events, s.last < e.id)
    (taken : Nat) : Ordered (s.write events taken) := by
  induction events generalizing s taken with
  | nil => exact h
  | cons event rest ih =>
    cases taken with
    | zero => exact h
    | succ taken =>
    obtain ⟨hlater, hrest⟩ := List.pairwise_cons.mp hsorted
    have hlt : ∀ e ∈ s.delivered, e.id < event.id := fun e he =>
      Int.lt_of_le_of_lt (h.2 e he) (hafter event List.mem_cons_self)
    refine ih ⟨?_, List.forall_mem_append.mpr ⟨fun e he => ?_, ?_⟩⟩ hrest hlater taken
    · refine List.pairwise_append.mpr ⟨h.1, List.pairwise_singleton _ _, fun e he => ?_⟩
      exact List.forall_mem_singleton.mpr (hlt e he)
    · exact Int.le_of_lt (hlt e he)
    · exact List.forall_mem_singleton.mpr (Int.le_refl _)

theorem insertionSort_lt {rows : List RefreshEvent} (h : rows.Pairwise fun r r' => r.id ≠ r'.id) :
    (rows.insertionSort fun r r' => r.id ≤ r'.id).Pairwise fun r r' => r.id < r'.id := by
  have hsorted := List.pairwise_insertionSort (fun r r' : RefreshEvent => r.id ≤ r'.id) rows
  rw [← (List.perm_insertionSort (fun r r' => r.id ≤ r'.id) _).pairwise_iff Ne.symm] at h
  exact (hsorted.and h).imp fun h => by omega

theorem Ordered.poll (hf : Numbered f) (h : Ordered f.stream) (authorized : Option (Uuid × Role))
    (taken : Nat) : Ordered (f.step environmentId (.poll authorized taken)).stream := by
  unfold Feed.step Stream.tick polled
  dsimp only
  split
  · exact h
  split
  · exact h
  next hevents =>
  split at hevents
  · cases hevents
  split at hevents
  · cases hevents
  cases hevents
  refine h.write (List.pairwise_map.mpr ?_) (fun e he => ?_) taken
  · refine (insertionSort_lt ?_).sublist (List.take_sublist _ _)
    exact (List.pairwise_append.mp hf.distinct).1.filter _
  · obtain ⟨r, hr, rfl⟩ := List.mem_map.mp he
    exact (mem_of_mem_refreshEventsAfter hr).2.2

/-- **Nothing is delivered twice or out of order**, however transactions and polls
interleave. -/
theorem stream_in_order (environmentId : Uuid) (sequence : Int) (rows : List RefreshEvent)
    (start : Int) (hrows : Keyed sequence rows) (moves : List Move) :
    Ordered ((opened sequence rows start).run environmentId moves).stream := by
  have hf := (complete_opened hrows start : Complete environmentId start _).numbered
  have h : Ordered (opened sequence rows start).stream := ⟨.nil, List.forall_mem_nil _⟩
  generalize opened sequence rows start = f at hf h
  induction moves generalizing f with
  | nil => exact h
  | cons m moves ih =>
    refine ih _ (hf.step m) ?_
    cases m with
    | poll authorized taken => exact .poll hf h authorized taken
    | insert | commit | rollback => exact h

namespace Sample

def change (resourceId : Uuid) : RefreshEvent :=
  { organizationId := 2, environmentId := some 3, eventType := "monitor.changed"
    resourceType := "monitor", resourceId := resourceId }

/-- Two transactions that commit in the order of their inserts, the second one
open during a poll. -/
def inTurn : List Move :=
  [.insert 1 (change 10) 0, .insert 2 (change 20) 0, .commit 1,
    .poll (some (2, .viewer)) 100, .commit 2, .poll (some (2, .viewer)) 100]

/-- The first one commits after the second, and after the poll. -/
def overtaking : List Move :=
  [.insert 1 (change 10) 0, .insert 2 (change 20) 0, .commit 2, .poll (some (2, .viewer)) 100]

end Sample

theorem stream_skips_nothing_sample :
    let now := (opened 0 [] 0).run 3 Sample.inTurn
    now.stream.last = 2 ∧ now.stream.delivered.map Event.id = [1, 2] ∧
      ∀ r ∈ now.rows, r.environmentId = some 3 → 0 < r.id → r.id ≤ now.stream.last →
        eventOf r ∈ now.stream.delivered := by
  refine ⟨by decide +kernel, by decide +kernel, ?_⟩
  exact stream_skips_nothing 3 0 [] 0 ⟨fun r hr => (by cases hr), .nil⟩ Sample.inTurn []
    ⟨by decide +kernel, by decide +kernel, trivial⟩

theorem stream_in_order_sample : Ordered ((opened 0 [] 0).run 3 Sample.overtaking).stream :=
  stream_in_order 3 0 [] 0 ⟨List.forall_mem_nil _, .nil⟩ Sample.overtaking

/-- The event with identifier 1 is committed behind the stream, which stands at 2. -/
theorem late_commit_skipped :
    let now := (opened 0 [] 0).run 3 Sample.overtaking
    let later := now.run 3 [.commit 1, .poll (some (2, .viewer)) 100]
    now.stream.last = 2 ∧ later.stream.last = 2 ∧ later.stream.delivered.map Event.id = [2] ∧
      ∃ r ∈ later.rows, r.environmentId = some 3 ∧ r.id = 1 ∧
        eventOf r ∉ later.stream.delivered := by
  decide +kernel

end WatchTrace.Proofs.Realtime
