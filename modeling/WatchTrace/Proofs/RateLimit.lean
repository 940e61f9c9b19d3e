import WatchTrace.Arith.FixedWindow
import WatchTrace.Model.RateLimit

/-!
# The limit on authentication requests

The bucket of a request under `/api/v1/auth/` is meant to be chosen by where the
request comes from, so that a caller cannot get out of a full one. The
`Authorization` header has no say in it. The refresh cookie has: a request that
carries one with some text in it is counted in a bucket of that text, and nobody
looks whether the text is a token of anyone.

So the limit holds for an address as long as its requests carry no such cookie.
The traffic around them is arbitrary: it can touch the address's bucket only by
being counted in it.
-/

namespace WatchTrace.Proofs.RateLimit

open Tx
open Model
open Model.RateLimit
open Arith (Window)

/-! ## Traffic -/

inductive Event
  | arrives (now : Time) (request : Request)
  | finishes (request : Request)

/-- A request that has come in: whether it was passed on, and the beginning of the
window its bucket is then in. -/
structure Served where
  now : Time
  request : Request
  passed : Bool
  started : Option Time

section Traffic

variable (L : Library)

def windowOf (r : RateLimiter) (request : Request) : Option Time :=
  match r.limits.classify request.method request.path with
  | none => none
  | some (c, _, _) => (r.buckets.find (bucketKey L c request)).map RateBucket.started

/-- The requests of a traffic, as the limiter serves them one after another. -/
def served : RateLimiter → List Event → List Served
  | _, [] => []
  | r, .arrives now request :: rest =>
    { now, request
      passed := decide ((r.serve L now request).1 = .passed)
      started := windowOf L (r.serve L now request).2 request } ::
      served (r.serve L now request).2 rest
  | r, .finishes request :: rest => served (r.finish L request) rest

end Traffic

def Event.time : Event → Option Time
  | .arrives now _ => some now
  | .finishes _ => none

/-- The clock does not go back from one request to the next. -/
def Chronological (events : List Event) : Prop :=
  (events.filterMap Event.time).Pairwise (· ≤ ·)

/-! ## Keys -/

/-- The requests that are counted as attempts to authenticate. -/
def authentication (path : String) : Bool :=
  !hasSuffix path "/events" && (hasPrefix path "/api/v1/auth/" && path != "/api/v1/auth/me" &&
    path != "/api/v1/auth/logout")

variable {path : String}

variable {l : RateLimits} {method : String}

theorem classify_authentication (h : authentication path = true) :
    l.classify method path = some (.auth, l.authPerMinute, minute) := by
  unfold authentication at h
  rw [Bool.and_eq_true] at h
  unfold RateLimits.classify
  rw [if_neg (by simpa using h.1), if_pos h.2]

/-- Nothing else is in that class. -/
theorem authentication_of_classify {limit : Int} {window : Time}
    (h : l.classify method path = some (.auth, limit, window)) :
    authentication path = true := by
  unfold RateLimits.classify at h
  split at h
  · cases h
  next hevents =>
  split at h
  · next hauth =>
    unfold authentication
    rw [hauth, Bool.and_true]
    simpa using hevents
  · repeat' split at h
    all_goals cases h

theorem hasPrefix_of_authentication (h : authentication path = true) :
    hasPrefix path "/api/v1/auth/" = true := by
  unfold authentication at h
  simp only [Bool.and_eq_true] at h
  exact h.2.1.1

variable {x y : String}

/-- No class is the beginning of another one with its colon. -/
theorem class_of_key {c : RateLimit.Class} (h : c.text ++ ":" ++ x = "auth:" ++ y) :
    c = .auth ∧ x = y := by
  have hlist := congrArg String.toList h
  cases c <;> simp [Class.text] at hlist
  exact ⟨rfl, String.toList_inj.mp hlist⟩

theorem refresh_ne_address : "refresh:" ++ x ≠ "address:" ++ y := by
  intro h
  have hlist := congrArg String.toList h
  simp at hlist

theorem address_injective (h : "address:" ++ x = "address:" ++ y) : x = y := by
  have hlist := congrArg String.toList h
  exact String.toList_inj.mp (by simpa using hlist)

variable {L : Library}

/-- The bucket of an address. -/
def addressKey (a : String) : String := "auth:" ++ ("address:" ++ a)

variable {a : String}

/-- A request to authenticate is counted under its address unless it carries a
refresh cookie; what its other headers say is of no consequence. -/
theorem clientIdentity_eq_address_iff {request : Request}
    (hauth : authentication request.path = true) :
    clientIdentity L request = "address:" ++ a ↔
      request.refreshCookie = none ∧ clientAddress L request = a := by
  unfold clientIdentity
  rw [if_pos (hasPrefix_of_authentication hauth)]
  cases request.refreshCookie with
  | some value => simp [refresh_ne_address]
  | none =>
  constructor
  · intro h
    exact ⟨rfl, address_injective h⟩
  · rintro ⟨-, rfl⟩
    rfl

theorem bucketKey_eq_addressKey_iff {request : Request}
    (hauth : authentication request.path = true) :
    bucketKey L .auth request = addressKey a ↔
      request.refreshCookie = none ∧ clientAddress L request = a := by
  rw [← clientIdentity_eq_address_iff hauth]
  constructor
  · intro h
    exact (class_of_key h).2
  · intro h
    unfold bucketKey
    rw [h]
    rfl

/-! ## One bucket

The requests that are counted under one address, and the windows of its bucket.
-/

/-- Whether a request is counted in the bucket of the address. -/
def counted (L : Library) (a : String) (request : Request) : Bool :=
  authentication request.path && bucketKey L .auth request == addressKey a

/-- A bucket as a window. -/
def stored (r : RateLimiter) (key : String) : Option Window :=
  (r.buckets.find key).map fun b => ⟨b.started, b.count⟩

/-- `allow` counts in the window of its bucket. -/
theorem allow_eq (r : RateLimiter) (now : Time) (key : String) (limit : Int) (window : Time) :
    r.allow now key limit window =
      if limit ≤ (Window.current window now (stored r key)).count then
        (.limited (max 1 (ceilSeconds
          (window - (now - (Window.current window now (stored r key)).started)))), r)
      else
        (.passed, { r with
          buckets := r.buckets.put key
            { started := (Window.current window now (stored r key)).started
              count := (Window.current window now (stored r key)).count + 1 } }) := by
  unfold RateLimiter.allow stored
  cases r.buckets.find key with
  | none => rfl
  | some bucket =>
  by_cases hover : window ≤ now - bucket.started
  · simp only [Option.map_some, Window.current, if_pos hover]
  · simp only [Option.map_some, Window.current, if_neg hover]

/-- A request can write to no bucket but its own. -/
theorem serve_cases (r : RateLimiter) (now : Time) (request : Request) :
    (r.serve L now request).2.limits = r.limits ∧ ((r.serve L now request).2.buckets = r.buckets ∨
        ∃ c limit window b, r.limits.classify request.method request.path =
            some (c, limit, window) ∧
          (r.serve L now request).2.buckets = r.buckets.put (bucketKey L c request) b) := by
  unfold RateLimiter.serve
  cases hclass : r.limits.classify request.method request.path with
  | none => exact ⟨rfl, .inl rfl⟩
  | some entry =>
  obtain ⟨c, limit, window⟩ := entry
  by_cases hlive : c = .live
  · subst hlive
    by_cases hfull : r.limits.liveConnections ≤ (r.live.find (bucketKey L .live request)).getD 0
    · simp [RateLimiter.acquireLive, hfull]
    · simp [RateLimiter.acquireLive, hfull]
  have hallow : (r.allow now (bucketKey L c request) limit window).2.limits = r.limits ∧
      ((r.allow now (bucketKey L c request) limit window).2.buckets = r.buckets ∨
        ∃ b, (r.allow now (bucketKey L c request) limit window).2.buckets =
          r.buckets.put (bucketKey L c request) b) := by
    rw [allow_eq]
    split
    · exact ⟨rfl, .inl rfl⟩
    · exact ⟨rfl, .inr ⟨_, rfl⟩⟩
  cases c with
  | live => exact absurd rfl hlive
  | auth | manual | invite | report | mutation =>
  obtain ⟨hlimits, hsame | ⟨b, hput⟩⟩ := hallow
  · exact ⟨hlimits, .inl hsame⟩
  · exact ⟨hlimits, .inr ⟨_, limit, window, b, rfl, hput⟩⟩

theorem finish_same (r : RateLimiter) (request : Request) :
    (r.finish L request).limits = r.limits ∧ (r.finish L request).buckets = r.buckets := by
  unfold RateLimiter.finish
  split
  · unfold RateLimiter.releaseLive
    simp only
    split <;> exact ⟨rfl, rfl⟩
  · exact ⟨rfl, rfl⟩

variable {r : RateLimiter}

/-- A request that is not counted under the address leaves its bucket alone. -/
theorem stored_serve_other {now : Time} {request : Request} (h : counted L a request = false) :
    stored (r.serve L now request).2 (addressKey a) = stored r (addressKey a) := by
  unfold stored
  obtain ⟨-, hsame | ⟨c, limit, window, b, hclass, hput⟩⟩ := serve_cases (L := L) r now request
  · rw [hsame]
  · rw [hput, Table.find_put_ne]
    intro hkey
    obtain ⟨rfl, -⟩ := class_of_key hkey.symm
    have hauth := authentication_of_classify hclass
    unfold counted at h
    rw [hauth, ← hkey] at h
    simp at h

/-- One that is counted is served as its window says. -/
theorem serve_counted {request : Request} (h : counted L a request = true) :
    (∀ now, r.serve L now request = r.allow now (addressKey a) r.limits.authPerMinute minute) ∧
      ∀ r' : RateLimiter, windowOf L r' request =
        (r'.buckets.find (addressKey a)).map RateBucket.started := by
  unfold counted at h
  rw [Bool.and_eq_true, beq_iff_eq] at h
  obtain ⟨hauth, hkey⟩ := h
  constructor
  · intro now
    unfold RateLimiter.serve
    rw [classify_authentication hauth]
    simp only
    rw [hkey]
  · intro r'
    unfold windowOf
    rw [classify_authentication hauth]
    simp only
    rw [hkey]

/-! ## A whole traffic -/

/-- When the requests come that are counted under the address. -/
def countedTimes (L : Library) (a : String) (events : List Event) : List Time :=
  events.filterMap fun
    | .arrives now request => if counted L a request then some now else none
    | .finishes _ => none

/-- Those that were passed on, each with its window. -/
def booked (L : Library) (a : String) (entries : List Served) : List (Time × Time) :=
  entries.filterMap fun e =>
    if counted L a e.request && e.passed then e.started.map fun s => (e.now, s) else none

variable {e : Served}

theorem booked_cons_other (entries : List Served)
    (h : (counted L a e.request && e.passed) = false) :
    booked L a (e :: entries) = booked L a entries := by
  unfold booked
  rw [List.filterMap_cons, h]
  rfl

variable {s : Time}

theorem booked_cons_passed (entries : List Served)
    (h : (counted L a e.request && e.passed) = true) (hs : e.started = some s) :
    booked L a (e :: entries) = (e.now, s) :: booked L a entries := by
  unfold booked
  rw [List.filterMap_cons, h, hs]
  rfl

/-- What is passed on under an address is what its bucket admits: the rest of the
traffic makes no difference. -/
theorem booked_served (a : String) : ∀ (events : List Event) (r : RateLimiter),
    booked L a (served L r events) =
      Window.admitted r.limits.authPerMinute minute (stored r (addressKey a))
        (countedTimes L a events) := by
  intro events
  induction events with
  | nil =>
    intro r
    rfl
  | cons event rest ih =>
    intro r
    cases event with
    | finishes request =>
      obtain ⟨hlimits, hbuckets⟩ := finish_same (L := L) r request
      have hrest := ih (r.finish L request)
      unfold stored at hrest
      rw [hlimits, hbuckets] at hrest
      exact hrest
    | arrives now request =>
    have hrest := ih (r.serve L now request).2
    rw [(serve_cases (L := L) r now request).1] at hrest
    rw [served]
    by_cases hcounted : counted L a request = true
    · -- the bucket's own turn
      have htimes : countedTimes L a (.arrives now request :: rest) =
          now :: countedTimes L a rest := by
        simp [countedTimes, hcounted]
      obtain ⟨hserve, hwindow⟩ := serve_counted (L := L) (r := r) hcounted
      rw [htimes, Window.admitted, hwindow]
      rw [hserve now, allow_eq] at hrest ⊢
      generalize Window.current minute now (stored r (addressKey a)) = w at hrest ⊢
      by_cases hfull : r.limits.authPerMinute ≤ w.count
      · rw [if_pos hfull] at hrest ⊢
        rw [if_pos hfull, booked_cons_other]
        · exact hrest
        · exact Bool.and_false _
      rw [if_neg hfull] at hrest ⊢
      have hput := Table.find_put_eq r.buckets (addressKey a) (addressKey a)
        { started := w.started, count := w.count + 1 }
      rw [if_pos rfl] at hput
      rw [if_neg hfull, booked_cons_passed _ (by simpa using hcounted) (by rw [hput]; rfl), hrest]
      unfold stored
      rw [hput]
      rfl
    · -- somebody else's
      have hother := Bool.eq_false_iff.mpr hcounted
      rw [stored_serve_other hother] at hrest
      have htimes : countedTimes L a (.arrives now request :: rest) =
          countedTimes L a rest := by
        simp [countedTimes, hother]
      rw [htimes, booked_cons_other, hrest]
      exact Bool.and_eq_false_imp.mpr fun h => absurd h hcounted

/-! ## The limit -/

/-- A request to authenticate, other than by a refresh token, from the address. -/
def attempt (L : Library) (a : String) (request : Request) : Bool :=
  authentication request.path && request.path != "/api/v1/auth/refresh" &&
    clientAddress L request == a

/-- How many attempts from the address are passed on in windows that begin at `s`. -/
def passedIn (L : Library) (a : String) (s : Time) (entries : List Served) : Nat :=
  (entries.filter fun e => attempt L a e.request && e.passed && e.started == some s).length

theorem mem_served : ∀ {events : List Event} {r : RateLimiter} {e : Served},
    e ∈ served L r events → .arrives e.now e.request ∈ events := by
  intro events
  induction events with
  | nil =>
    intro r e he
    cases he
  | cons event rest ih =>
    intro r e he
    cases event with
    | finishes request => exact List.mem_cons_of_mem _ (ih he)
    | arrives now request =>
    rcases List.mem_cons.mp he with rfl | he
    · exact List.mem_cons_self
    · exact List.mem_cons_of_mem _ (ih he)

theorem attempt_iff {request : Request} :
    attempt L a request = true ↔ authentication request.path = true ∧
      request.path ≠ "/api/v1/auth/refresh" ∧ clientAddress L request = a := by
  unfold attempt
  rw [Bool.and_eq_true, Bool.and_eq_true, beq_iff_eq, bne_iff_ne, and_assoc]

/-- An attempt without a refresh cookie is counted under its address. -/
theorem counted_of_attempt {request : Request} (h : attempt L a request = true)
    (hcookie : request.refreshCookie = none) : counted L a request = true := by
  obtain ⟨hauth, -, haddress⟩ := attempt_iff.mp h
  unfold counted
  rw [hauth, Bool.true_and, beq_iff_eq, bucketKey_eq_addressKey_iff hauth]
  exact ⟨hcookie, haddress⟩

/-- Such attempts, if passed on, are among what the bucket has admitted. -/
theorem passedIn_le_booked : ∀ {entries : List Served},
    (∀ e ∈ entries, attempt L a e.request = true → counted L a e.request = true) →
      passedIn L a s entries ≤ ((booked L a entries).filter fun b => b.2 = s).length := by
  intro entries
  induction entries with
  | nil =>
    intro _
    exact Nat.le_refl _
  | cons e entries ih =>
    intro h
    have hrest := ih fun e' he' => h e' (List.mem_cons_of_mem _ he')
    unfold passedIn at hrest ⊢
    rw [List.filter_cons]
    split
    · next hin =>
      rw [Bool.and_eq_true, Bool.and_eq_true, beq_iff_eq] at hin
      obtain ⟨⟨hattempt, hpassed⟩, hs⟩ := hin
      have hcounted := h e List.mem_cons_self hattempt
      rw [booked_cons_passed entries (by rw [hcounted, hpassed]; rfl) hs, List.filter_cons,
        if_pos (decide_eq_true rfl), List.length_cons, List.length_cons]
      omega
    by_cases hbooked : (counted L a e.request && e.passed) = true
    · cases hs : e.started with
      | none =>
        have hnone : booked L a (e :: entries) = booked L a entries := by
          unfold booked
          rw [List.filterMap_cons, hbooked, hs]
          rfl
        rw [hnone]
        exact hrest
      | some s' =>
        rw [booked_cons_passed entries hbooked hs, List.filter_cons]
        split
        · rw [List.length_cons]
          omega
        · exact hrest
    · rw [booked_cons_other entries (Bool.eq_false_iff.mpr hbooked)]
      exact hrest

variable {events : List Event}

/-- The times of what is counted do not go back either. -/
theorem Chronological.countedTimes (h : Chronological events) (a : String) :
    (countedTimes L a events).Pairwise (· ≤ ·) := by
  have hsub : (RateLimit.countedTimes L a events).Sublist (events.filterMap Event.time) := by
    clear h
    induction events with
    | nil => exact List.Sublist.slnil
    | cons event rest ih =>
      cases event with
      | finishes request => exact ih
      | arrives now request =>
      unfold RateLimit.countedTimes at ih ⊢
      rw [List.filterMap_cons, List.filterMap_cons]
      by_cases hcounted : counted L a request = true
      · simp only [hcounted, if_true, Event.time]
        exact ih.cons_cons _
      · simp only [hcounted, Event.time]
        exact ih.cons _
  exact List.Pairwise.sublist hsub h

theorem authPerMinute_pos (l : RateLimits) : 0 < (newRateLimiter l).limits.authPerMinute := by
  show 0 < orDefault l.authPerMinute 30
  unfold orDefault
  split <;> omega

theorem before_newRateLimiter (l : RateLimits) (a : String) (h : Chronological events) :
    Window.Before (newRateLimiter l).limits.authPerMinute
      (stored (newRateLimiter l) (addressKey a)) (countedTimes L a events) :=
  { past := fun _ hw => nomatch hw
    within := fun _ hw => nomatch hw
    sorted := h.countedTimes a }

/-- The bucket of a request to authenticate is that of its address unless it
carries a refresh cookie. And in a traffic in which no such request from an
address carries one, no window of the address lets more of them through than it
should, whatever else comes in from there or from elsewhere. -/
theorem authentication_limited (L : Library) (l : RateLimits) :
    (∀ request : Request, attempt L (clientAddress L request) request = true →
      (bucketKey L .auth request = addressKey (clientAddress L request) ↔
        request.refreshCookie = none)) ∧
    ∀ (events : List Event) (a : String), Chronological events →
      (∀ now request, .arrives now request ∈ events → attempt L a request = true →
        request.refreshCookie = none) →
      ∀ s, (passedIn L a s (served L (newRateLimiter l) events) : Int) ≤
          (newRateLimiter l).limits.authPerMinute ∧
        ∀ e ∈ served L (newRateLimiter l) events, attempt L a e.request = true →
          e.passed = true → e.started = some s → s ≤ e.now ∧ e.now < s + minute := by
  refine ⟨fun request hattempt => ?_, fun events a hchron hcookies s => ?_⟩
  · rw [bucketKey_eq_addressKey_iff (attempt_iff.mp hattempt).1]
    exact and_iff_left rfl
  · have hcounted : ∀ e ∈ served L (newRateLimiter l) events,
        attempt L a e.request = true → counted L a e.request = true := by
      intro e he hattempt
      exact counted_of_attempt hattempt (hcookies e.now e.request (mem_served he) hattempt)
    have hminute : 0 < minute := by decide
    have hbefore := before_newRateLimiter (L := L) l a hchron
    have hbooked := booked_served (L := L) a events (newRateLimiter l)
    constructor
    · have hle := passedIn_le_booked (s := s) hcounted
      have hroom := Window.length_admitted_le hminute (authPerMinute_pos l).le s hbefore
      rw [hbooked] at hle
      exact le_trans (Int.ofNat_le.mpr hle) hroom
    · intro e he hattempt hpassed hstarted
      refine Window.admitted_within hminute hbefore (e.now, s) ?_
      rw [← hbooked]
      refine List.mem_filterMap.mpr ⟨e, he, ?_⟩
      rw [hcounted e he hattempt, hpassed, hstarted]
      rfl

namespace Sample

/-- A library for addresses without ports. -/
def library : Library :=
  { splitHost := some, fields := fun _ => [], equalFold := fun s t => s == t
    identityDigest := id }

def request (cookies : List (String × String)) : Request :=
  { method := "POST", path := "/api/v1/auth/login", remoteAddr := "192.0.2.1", cookies }

def login (cookies : List (String × String)) : Event := .arrives 0 (request cookies)

end Sample

open Sample

/-- Two logins from one address with made-up refresh cookies are both passed on where
one is the limit. -/
theorem authentication_limit_evaded : passedIn library "192.0.2.1" 0
      (served library (newRateLimiter { authPerMinute := 1 })
        [login [("watchtrace_refresh", "a")], login [("watchtrace_refresh", "b")]]) =
      2 ∧ (newRateLimiter { authPerMinute := 1 }).limits.authPerMinute = 1 := by
  decide +kernel

theorem authentication_limited_sample :
    bucketKey library .auth (request []) = addressKey "192.0.2.1" ∧ (passedIn library "192.0.2.1" 0
        (served library (newRateLimiter { authPerMinute := 1 })
          [login [], login [("theme", "dark")]]) : Int) ≤ 1 := by
  have h := authentication_limited library { authPerMinute := 1 }
  constructor
  · exact (h.1 (request []) (by decide +kernel)).mpr rfl
  · refine (h.2 _ "192.0.2.1" (show List.Pairwise _ _ by decide) ?_ 0).1
    intro now request hmem _
    rcases List.mem_cons.mp hmem with h | h
    · cases h
      rfl
    · cases List.mem_singleton.mp h
      rfl

/-! ## Calls for arbitrary keys -/

structure Call where
  now : Time
  key : String

/-- What came of a call, and when the bucket of its key began. -/
structure Answer where
  call : Call
  passed : Bool
  started : Option Time

variable {c : Call}

section Calls

variable (limit window : String → Int)

/-- `allow`, with the limit and the window of the key. -/
def allowKey (r : RateLimiter) (c : Call) : Verdict × RateLimiter :=
  r.allow c.now c.key (limit c.key) (window c.key)

def afterCalls (r : RateLimiter) (calls : List Call) : RateLimiter :=
  calls.foldl (fun r c => (allowKey limit window r c).2) r

def answers : RateLimiter → List Call → List Answer
  | _, [] => []
  | r, c :: rest =>
    { call := c
      passed := (allowKey limit window r c).1 == .passed
      started := ((allowKey limit window r c).2.buckets.find c.key).map RateBucket.started } ::
      answers (allowKey limit window r c).2 rest

variable {limit window}

theorem stored_allowKey_other {k : String} (h : c.key ≠ k) :
    stored (allowKey limit window r c).2 k = stored r k := by
  unfold allowKey stored
  rw [allow_eq]
  split
  · rfl
  · exact congrArg _ (Table.find_put_ne _ _ (Ne.symm h))

theorem allowKey_full
    (h : limit c.key ≤ (Window.current (window c.key) c.now (stored r c.key)).count) :
    ∃ retry, allowKey limit window r c = (.limited retry, r) := by
  unfold allowKey
  rw [allow_eq, if_pos h]
  exact ⟨_, rfl⟩

theorem allowKey_room
    (h : ¬ limit c.key ≤ (Window.current (window c.key) c.now (stored r c.key)).count) :
    (allowKey limit window r c).1 = .passed ∧ stored (allowKey limit window r c).2 c.key =
        some ⟨(Window.current (window c.key) c.now (stored r c.key)).started,
          (Window.current (window c.key) c.now (stored r c.key)).count + 1⟩ := by
  unfold allowKey
  rw [allow_eq, if_neg h]
  exact ⟨rfl, by simp [stored, Table.find_put]⟩

/-- What comes of a call depends on the bucket of its key alone. -/
theorem allowKey_congr {r' : RateLimiter} (h : stored r c.key = stored r' c.key) :
    (allowKey limit window r c).1 = (allowKey limit window r' c).1 ∧
      stored (allowKey limit window r c).2 c.key = stored (allowKey limit window r' c).2 c.key := by
  unfold allowKey
  rw [allow_eq, allow_eq, h]
  split
  · exact ⟨rfl, h⟩
  · exact ⟨rfl, by simp [stored, Table.find_put]⟩

theorem started_eq (r : RateLimiter) (k : String) :
    (r.buckets.find k).map RateBucket.started = (stored r k).map Window.started := by
  rw [stored, Option.map_map]
  rfl

/-- The answers for a key are those it would get alone. -/
theorem answers_filter (k : String) (calls : List Call) :
    ∀ {r r' : RateLimiter}, stored r k = stored r' k →
      (answers limit window r calls).filter (fun e => e.call.key = k) =
        answers limit window r' (calls.filter fun c => c.key = k) := by
  induction calls with
  | nil =>
    intro r r' _
    rfl
  | cons c rest ih =>
    intro r r' h
    by_cases hc : c.key = k
    · subst hc
      obtain ⟨hverdict, hstored⟩ : (allowKey limit window r c).1 = _ ∧ _ := allowKey_congr h
      rw [List.filter_cons_of_pos (by simp), answers, answers,
        List.filter_cons_of_pos (by simp), ih hstored, hverdict, started_eq, started_eq, hstored]
    · rw [List.filter_cons_of_neg (by simpa using hc), answers,
        List.filter_cons_of_neg (by simpa using hc), ih ((stored_allowKey_other hc).trans h)]

/-- The calls for a key that pass are those its window admits. -/
theorem answers_admitted (limit window : String → Int) (k : String) (calls : List Call) :
    ∀ {r : RateLimiter},
      ((answers limit window r calls).filter fun e => e.call.key = k ∧ e.passed).map
          (fun e => (e.call.now, e.started)) =
        (Window.admitted (limit k) (window k) (stored r k)
          ((calls.filter fun c => c.key = k).map Call.now)).map fun e => (e.1, some e.2) := by
  induction calls with
  | nil =>
    intro r
    rfl
  | cons c rest ih =>
    intro r
    rw [answers]
    by_cases hc : c.key = k
    · subst hc
      rw [List.filter_cons_of_pos (a := c) (by simp), List.map_cons, Window.admitted]
      split
      · next hfull =>
        obtain ⟨retry, hsame⟩ := allowKey_full hfull
        rw [hsame, List.filter_cons_of_neg (by simp), ih]
      next hroom =>
      obtain ⟨hpassed, hstored⟩ := allowKey_room hroom
      rw [hpassed, List.filter_cons_of_pos (by simp), List.map_cons, ih, started_eq, hstored]
      rfl
    · rw [List.filter_cons_of_neg (by simp [hc]), List.filter_cons_of_neg (by simpa using hc), ih,
        stored_allowKey_other hc]

/-- Times that do not go back, from the start. -/
theorem before_calls {calls : List Call} (hsorted : calls.Pairwise fun c c' => c.now ≤ c'.now)
    (k : String) (n : Int) :
    Window.Before n none ((calls.filter fun c => c.key = k).map Call.now) where
  past := fun _ hw => by cases hw
  within := fun _ hw => by cases hw
  sorted := List.pairwise_map.2 (hsorted.filter _)

/-- Calls that pass are counted as their window counts them. -/
theorem countP_answers (limit window : String → Int) (k : String) (calls : List Call)
    (l : RateLimits) (q : Time × Option Time → Bool) :
    ((answers limit window (newRateLimiter l) calls).countP fun e =>
        (e.call.key = k ∧ e.passed) ∧ q (e.call.now, e.started)) =
      (Window.admitted (limit k) (window k) none
        ((calls.filter fun c => c.key = k).map Call.now)).countP fun e => q (e.1, some e.2) := by
  have h := congrArg (List.countP q) (answers_admitted limit window k calls (r := newRateLimiter l))
  rw [List.countP_map, List.countP_map, List.countP_filter] at h
  refine Eq.trans (List.countP_congr fun e _ => ?_) h
  simp [and_comm]

/-- **Fixed-window bound.** Calls for one key get the answers they would get
alone; of those in one bucket at most the limit pass, and at most twice as many in
any interval as long as a window; and a call that comes a window or more after its
bucket began passes. -/
theorem allow_bounded (hlimit : ∀ k, 0 < limit k) (hwindow : ∀ k, 0 < window k)
    (l : RateLimits) (calls : List Call)
    (hsorted : calls.Pairwise fun c c' => c.now ≤ c'.now) (k : String) :
    ((answers limit window (newRateLimiter l) calls).filter fun e => e.call.key = k) =
        answers limit window (newRateLimiter l) (calls.filter fun c => c.key = k) ∧
    (∀ s, ((answers limit window (newRateLimiter l) calls).countP fun e =>
        (e.call.key = k ∧ e.passed) ∧ e.started = some s) ≤ limit k) ∧
    (∀ t, ((answers limit window (newRateLimiter l) calls).countP fun e =>
        (e.call.key = k ∧ e.passed) ∧ t ≤ e.call.now ∧ e.call.now < t + window k) ≤
      2 * limit k) ∧
    ∀ before c after bucket, calls = before ++ c :: after →
      (afterCalls limit window (newRateLimiter l) before).buckets.find c.key = some bucket →
      window c.key ≤ c.now - bucket.started →
      (allowKey limit window (afterCalls limit window (newRateLimiter l) before) c).1 =
        .passed := by
  have hbefore := before_calls hsorted k (limit k)
  refine ⟨answers_filter k calls rfl, fun s => ?_, fun t => ?_,
    fun before c after bucket _ hbucket hover => (allowKey_room ?_).1⟩
  · have hcount := countP_answers limit window k calls l fun p => p.2 = some s
    simp only [decide_eq_true_eq] at hcount
    rw [hcount, List.countP_eq_length_filter]
    simpa [Window.room] using Window.length_admitted_le (hwindow k) (hlimit k).le s hbefore
  · have hcount := countP_answers limit window k calls l fun p => t ≤ p.1 ∧ p.1 < t + window k
    simp only [decide_eq_true_eq] at hcount
    rw [hcount]
    exact Window.countP_interval_le (hwindow k) (hlimit k).le hbefore t
  · -- the bucket begins anew
    have hnew : Window.current (window c.key) c.now
        (stored (afterCalls limit window (newRateLimiter l) before) c.key) = ⟨c.now, 0⟩ := by
      rw [stored, hbucket]
      exact if_pos hover
    rw [hnew]
    exact not_le_of_gt (hlimit c.key)

end Calls

/-- One call a minute for every key: the second one for `a` does not pass, one for
`b` does, and so does a third one for `a` a minute later. -/
theorem allow_bounded_sample : (answers (fun _ => 1) (fun _ => minute) (newRateLimiter {})
        [⟨0, "a"⟩, ⟨1, "a"⟩, ⟨2, "b"⟩, ⟨minute, "a"⟩]).map Answer.passed =
        [true, false, true, true] ∧
      ((answers (fun _ => 1) (fun _ => minute) (newRateLimiter {})
        [⟨0, "a"⟩, ⟨1, "a"⟩, ⟨2, "b"⟩, ⟨minute, "a"⟩]).countP fun e =>
          (e.call.key = "a" ∧ e.passed) ∧ 1 ≤ e.call.now ∧ e.call.now < 1 + minute) ≤
        (2 * 1 : Int) :=
  ⟨by decide, (allow_bounded (fun _ => by decide) (fun _ => by decide) {}
    [⟨0, "a"⟩, ⟨1, "a"⟩, ⟨2, "b"⟩, ⟨minute, "a"⟩] (by decide) "a").2.2.1 1⟩

end WatchTrace.Proofs.RateLimit
