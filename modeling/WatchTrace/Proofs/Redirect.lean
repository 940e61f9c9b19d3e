import WatchTrace.Model.Destination

/-!
# Custom headers and redirects

`CheckRedirect` drops the custom headers of a redirected request when its host
is not the one of the request before. The client, however, copies the headers
of the first request to every redirected one, so a header that was dropped on
the way to another host is back on the next redirect within that host.

A chain of redirects is looked at as the list of requests sent. Every request
after the first has the headers that the one before it and the library's
copying leave, and that decides exactly which chains keep custom headers at
home.
-/

namespace WatchTrace.Proofs

open Tx Model.Destination

variable {L : Library} {policy : Policy} {input : CheckRequest} {locations : List Url}

/-! ## What a request carries -/

/-- The two headers every request may carry. -/
def ownHeaders : List String :=
  [canonicalMIMEHeaderKey "User-Agent", canonicalMIMEHeaderKey "X-WatchTrace-Job-ID"]

/-- The custom headers of a check, under the names they are sent with. -/
def customHeaders (input : CheckRequest) : List String :=
  (input.headers.map fun e => canonicalMIMEHeaderKey e.1).filter fun name =>
    !ownHeaders.contains name

variable {name : String}

theorem mem_customHeaders : name ∈ customHeaders input ↔
    (∃ e ∈ input.headers, canonicalMIMEHeaderKey e.1 = name) ∧ name ∉ ownHeaders := by
  simp [customHeaders]

/-- No custom header. -/
def Clean (input : CheckRequest) (r : Request) : Prop :=
  ∀ name ∈ customHeaders input, r.header.find name = none

theorem find_setAll (headers : List (String × String)) (h : Header)
    (hname : (∃ e ∈ headers, canonicalMIMEHeaderKey e.1 = name) ∨ h.find name ≠ none) :
    (headers.foldl (fun h e => Header.set h e.1 e.2) h).find name ≠ none := by
  induction headers generalizing h with
  | nil =>
    rcases hname with ⟨e, he, -⟩ | hname
    · cases he
    · exact hname
  | cons e es ih =>
    rw [List.foldl_cons]
    apply ih
    by_cases hset : canonicalMIMEHeaderKey e.1 = name
    · right
      rw [Header.set, hset, Table.find_put]
      exact Option.some_ne_none _
    rcases hname with ⟨e', he', hkey⟩ | hname
    · rcases List.mem_cons.mp he' with rfl | he'
      · exact absurd hkey hset
      · exact .inl ⟨e', he', hkey⟩
    · right
      rw [Header.set, Table.find_put_ne _ _ (Ne.symm hset)]
      exact hname

variable {initial : Request}

/-- The first request carries every custom header. -/
theorem newRequest_custom (h : newRequest L input = .ok initial)
    (hname : name ∈ customHeaders input) :
    initial.header.find name ≠ none := by
  unfold newRequest at h
  split at h
  · cases h
  split at h
  · cases h
  · cases h
    exact find_setAll _ _ (.inl (mem_customHeaders.mp hname).1)

/-! ## What a redirect leaves of it -/

/-- The same host, whatever the case of its letters. -/
def SameHost (L : Library) (r r' : Request) : Prop :=
  equalFold L r.url.hostname r'.url.hostname = true

theorem SameHost.refl (r : Request) : SameHost L r r := by
  unfold SameHost equalFold
  exact beq_self_eq_true _

variable {r : Request} {prior : List Request}

variable {request last : Request}

/-- Dropped on the way to another host. -/
theorem checkRedirect_other (h : checkRedirect L policy request prior = .ok r)
    (hlast : prior.getLast? = some last) (hhost : ¬ SameHost L last r) :
    Clean input r := by
  unfold checkRedirect at h
  rw [hlast] at h
  split at h
  · cases h
  split at h
  · cases h
  dsimp only at h
  split at h
  · next hsame =>
    cases h
    exact absurd hsame hhost
  cases h
  intro name hname
  have hown := (mem_customHeaders.mp hname).2
  simp only [ownHeaders, List.mem_cons, List.not_mem_nil, or_false, not_or] at hown
  simp only [Header.set]
  rw [Table.find_put_ne _ _ hown.2, Table.find_put_ne _ _ hown.1, Table.find_empty]

/-- Within one host, what the library copies stays. -/
theorem checkRedirect_same (h : checkRedirect L policy request prior = .ok r)
    (hlast : prior.getLast? = some last) (hhost : SameHost L last r) : r = request := by
  unfold checkRedirect at h
  rw [hlast] at h
  split at h
  · cases h
  split at h
  · cases h
  dsimp only at h
  split at h
  · cases h
    rfl
  · next hother =>
    cases h
    exact absurd hhost hother

/-! ## Chains -/

/-- The requests sent after `initial`, one redirect after the other. -/
inductive Chain (L : Library) (policy : Policy) (initial : Request) :
    List Request → Prop
  | first : Chain L policy initial [initial]
  | hop {prior : List Request} {location : Url} {r : Request}
      (hprior : Chain L policy initial prior)
      (h : checkRedirect L policy (redirected L initial prior location) prior = .ok r) :
      Chain L policy initial (prior ++ [r])

theorem chain_follow (h : Chain L policy initial prior) (locations : List Url) :
    Chain L policy initial (follow L policy initial prior locations) := by
  induction locations generalizing prior with
  | nil => exact h
  | cons location rest ih =>
    unfold follow
    split
    · exact h
    next r hr =>
    split
    · exact h
    · exact ih (h.hop hr)

/-- Every request after the first came from the one before it. -/
theorem Chain.step {sent : List Request} (h : Chain L policy initial sent) {k : Nat}
    {p : Request} (hp : sent[k]? = some p) (hr : sent[k + 1]? = some r) :
    ∃ location, checkRedirect L policy
      (redirected L initial (sent.take (k + 1)) location) (sent.take (k + 1)) = .ok r ∧
      (sent.take (k + 1)).getLast? = some p := by
  induction h with
  | first => cases hr
  | @hop prior location x hprior hx ih =>
    have hlen := (List.getElem?_eq_some_iff.mp hr).1
    simp only [List.length_append, List.length_singleton] at hlen
    have htake : (prior ++ [x]).take (k + 1) = prior.take (k + 1) :=
      List.take_append_of_le_length (by omega)
    rw [List.getElem?_append_left (by omega)] at hp
    rw [htake]
    by_cases hk : k + 1 < prior.length
    · rw [List.getElem?_append_left hk] at hr
      exact ih hp hr
    -- the new request itself
    have hk : k + 1 = prior.length := by omega
    rw [List.getElem?_append_right (by omega), hk, Nat.sub_self] at hr
    cases hr
    rw [hk, List.take_length]
    refine ⟨location, hx, ?_⟩
    rw [List.getLast?_eq_getElem?, ← hk]
    exact hp

/-! ## Which chains keep custom headers at home -/

/-- No request to another host than the first one carries a custom header. -/
def HeadersStayHome (L : Library) (input : CheckRequest) (sent : List Request) : Prop :=
  ∀ initial, sent[0]? = some initial → ∀ r ∈ sent, ¬ SameHost L initial r → Clean input r

/-- No redirect within another host gets a custom header copied. -/
def NoReturn (L : Library) (input : CheckRequest) (sent : List Request) : Prop :=
  ∀ initial, sent[0]? = some initial → ∀ k p r, sent[k]? = some p → sent[k + 1]? = some r →
      ¬ SameHost L initial r → SameHost L p r →
      ∀ name ∈ customHeaders input,
        L.copies ((sent.take (k + 1)).map Request.url) r.url name = false

/-- Within a host, a custom header is absent exactly when it was not copied. -/
theorem clean_iff_not_copied {location : Url} (hinitial : newRequest L input = .ok initial)
    (hr : r = redirected L initial prior location) :
    Clean input r ↔ ∀ name ∈ customHeaders input,
      L.copies (prior.map Request.url) r.url name = false := by
  subst hr
  constructor
  · intro hclean name hname
    have hnone := hclean name hname
    obtain ⟨value, hvalue⟩ :=
      Option.ne_none_iff_exists'.mp (newRequest_custom hinitial hname)
    simp only [redirected, Table.find_keep, hvalue, Option.filter_some] at hnone
    by_contra hcopied
    simp only [redirected, Bool.not_eq_false] at hcopied
    rw [if_pos hcopied] at hnone
    cases hnone
  · intro hnot name hname
    simp only [redirected, Table.find_keep]
    rw [Option.filter_eq_none_iff]
    intro value _
    have hfalse := hnot name hname
    simp only [redirected] at hfalse
    simp only [hfalse, Bool.false_eq_true, not_false_eq_true]

/-- For every check and every chain of redirects: custom headers never reach
another host if and only if no redirect within another host has one copied. -/
theorem headers_stay_home_iff (L : Library) (policy : Policy) (input : CheckRequest)
    (locations : List Url) :
    HeadersStayHome L input (execute L policy input locations) ↔
      NoReturn L input (execute L policy input locations) := by
  unfold execute
  split
  · constructor
    · intro _ initial h
      cases h
    · intro _ initial h
      cases h
  next first hfirst =>
  unfold send
  split
  · constructor
    · intro _ initial h
      cases h
    · intro _ initial h
      cases h
  have hchain := chain_follow (.first : Chain L policy first [first]) locations
  generalize follow L policy first [first] locations = sent at hchain
  constructor
  · intro hhome initial hinitial k p r hp hr hforeign hsame
    have hclean := hhome initial hinitial r (List.mem_of_getElem? hr) hforeign
    obtain ⟨location, hcheck, hlast⟩ := hchain.step hp hr
    exact (clean_iff_not_copied hfirst (checkRedirect_same hcheck hlast hsame)).mp hclean
  · intro hreturn initial hinitial r hr hforeign
    obtain ⟨k, hk⟩ := List.mem_iff_getElem?.mp hr
    cases k with
    | zero =>
      rw [hinitial] at hk
      cases hk
      exact absurd (SameHost.refl _) hforeign
    | succ k =>
    have hlen := (List.getElem?_eq_some_iff.mp hk).1
    have hp : sent[k]? = some sent[k] := List.getElem?_eq_getElem (by omega)
    obtain ⟨location, hcheck, hlast⟩ := hchain.step hp hk
    by_cases hsame : SameHost L sent[k] r
    · refine (clean_iff_not_copied hfirst (checkRedirect_same hcheck hlast hsame)).mpr ?_
      exact hreturn initial hinitial k _ r hp hk hforeign hsame
    · exact checkRedirect_other hcheck hlast hsame

/-! ## What is sent -/

/-- All have passed the check of the URL, and they are as few as the policy says. -/
def Policed (L : Library) (policy : Policy) (sent : List Request) : Prop :=
  (∀ r ∈ sent, validateURLForPolicy L r.url.text policy = none) ∧
    sent.length ≤ policy.maxRedirects.toNat + 1

theorem Policed.follow (h : Policed L policy prior) (locations : List Url) :
    Policed L policy (follow L policy initial prior locations) := by
  induction locations generalizing prior with
  | nil => exact h
  | cons location rest ih =>
    unfold Model.Destination.follow
    split
    · exact h
    next r hr =>
    split
    · exact h
    next hurl =>
    refine ih ⟨List.forall_mem_append.mpr ⟨h.1, List.forall_mem_singleton.mpr ?_⟩, ?_⟩
    · exact Option.not_isSome_iff_eq_none.mp hurl
    · unfold checkRedirect at hr
      split at hr
      · cases hr
      rw [List.length_append, List.length_singleton]
      omega

/-- **No request leaves unchecked**, whatever the servers answer with. -/
theorem requests_policed (L : Library) (policy : Policy) (initial : Request)
    (locations : List Url) : Policed L policy (send L policy initial locations) := by
  unfold send
  split
  · exact ⟨List.forall_mem_nil _, Nat.zero_le _⟩
  next hinitial =>
  refine Policed.follow ⟨List.forall_mem_singleton.mpr ?_, Nat.le_add_left 1 _⟩ locations
  exact Option.not_isSome_iff_eq_none.mp hinitial

namespace Sample

def page (host : String) : Url :=
  { text := host, scheme := "https", rest := "", host := host, hasUser := false
    fragment := "", hostname := host, port := "" }

/-- Names only, and a client that copies all but the headers it knows to be
sensitive. -/
def library : Library :=
  { parse := fun text => some (page text), parseAddr := fun _ => none
    fold := Char.toLower
    copies := fun _ _ name => !(["Authorization", "Cookie"].contains name) }

def secretCheck : CheckRequest :=
  { jobID := "11", url := "first.test", method := "GET"
    headers := [("X-Customer-Secret", "secret")], timeout := 5000000000
    expectedMin := 200, expectedMax := 299, maxResponseBytes := 1024 }

end Sample

open Sample

/-- The second host redirects to itself, and gets the secret. -/
theorem secret_reaches_other_host : (execute library ⟨[], 3⟩ secretCheck
      [page "second.test", page "Second.test"]).map (fun r =>
        (r.url.hostname, r.header.find "X-Customer-Secret")) =
      [("first.test", some "secret"), ("second.test", none), ("Second.test", some "secret")] ∧
    ¬ HeadersStayHome library secretCheck (execute library ⟨[], 3⟩ secretCheck
        [page "second.test", page "Second.test"]) := by
  have hsent : (execute library ⟨[], 3⟩ secretCheck
      [page "second.test", page "Second.test"]).map (fun r =>
        (r.url.hostname, r.header.find "X-Customer-Secret")) =
      [("first.test", some "secret"), ("second.test", none),
        ("Second.test", some "secret")] := by
    decide +kernel
  refine ⟨hsent, fun hhome => ?_⟩
  generalize execute library ⟨[], 3⟩ secretCheck
    [page "second.test", page "Second.test"] = sent at hsent hhome
  obtain ⟨first, rest, rfl, hfirst, hrest⟩ := List.map_eq_cons_iff.mp hsent
  obtain ⟨second, rest, rfl, -, hrest⟩ := List.map_eq_cons_iff.mp hrest
  obtain ⟨third, rest, rfl, hthird, -⟩ := List.map_eq_cons_iff.mp hrest
  rw [Prod.mk.injEq] at hfirst hthird
  have hforeign : ¬ SameHost library first third := by
    unfold SameHost
    rw [hfirst.1, hthird.1]
    decide +kernel
  have hclean := hhome first rfl third (by simp) hforeign "X-Customer-Secret" (by decide +kernel)
  rw [hthird.2] at hclean
  cases hclean

end WatchTrace.Proofs
