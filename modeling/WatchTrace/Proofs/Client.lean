import WatchTrace.Model.Client

/-!
# What the errors of the client are called

The errors of the client arrive in a `*url.Error`, which is a `net.Error` itself. The last
two categories are therefore out of reach, and a timeout is only seen when it is the error
directly inside, or a passed deadline.
-/

namespace WatchTrace.Proofs.Client

open Model.Destination

/-- What can go wrong, as far as a category is meant for it. -/
inductive Cause
  | redirectLimit
  | unsafeTarget
  | timeout
  | verification
  | resolution
  | dial
  | malformedResponse
  deriving DecidableEq

def Cause.category : Cause → String
  | redirectLimit => "redirect_limit"
  | unsafeTarget => "unsafe_target"
  | timeout => "timeout"
  | verification => "tls"
  | resolution => "dns"
  | dial => "connection"
  | malformedResponse => "http_protocol"

/-- What a single error value tells of the cause. -/
inductive Shows (n : ErrorNode) : Cause → Prop
  | unsafeTarget (h : n.is .errUnsafeTarget = true) : Shows n .unsafeTarget
  | deadline (h : n.is .deadlineExceeded = true) : Shows n .timeout
  | timeout (h : n.timeout = some true) : Shows n .timeout
  | certificate (h : n.type = .certificateVerificationError) : Shows n .verification
  | authority (h : n.type = .unknownAuthorityError) : Shows n .verification
  | hostname (h : n.type = .hostnameError) : Shows n .verification
  | resolution (h : n.is .errResolutionFailed = true) : Shows n .resolution
  | dns (h : n.type = .dnsError) : Shows n .resolution
  | dial (h : n.is .errConnectionFailed = true) : Shows n .dial

/-- The error has one cause: some value in the tree shows it, and none shows another. An
error of a malformed response shows nothing and is nowhere a `net.Error`, nor is it the
error of the redirect limit. -/
def CausedBy (err : Err) : Cause → Prop
  | .redirectLimit => err = RedirectError.redirectLimitExceeded.err
  | .malformedResponse => (∀ n ∈ err.nodes, (∀ c, ¬ Shows n c) ∧ n.timeout = none) ∧
      err ≠ RedirectError.redirectLimitExceeded.err
  | cause => (∃ n ∈ err.nodes, Shows n cause) ∧ ∀ n ∈ err.nodes, ∀ c, Shows n c → c = cause

variable {err : Err} {op url : String}

/-- A `*url.Error` is the first `net.Error` in its own tree. -/
theorem categorize_urlError : categorize (urlError op url err) =
    if err.is .deadlineExceeded then "timeout"
    else if err.is .errUnsafeTarget then "unsafe_target"
    else if err.is .errResolutionFailed then "dns"
    else if err.is .errConnectionFailed then "connection"
    else if err.as .dnsError then "dns"
    else if err.as .certificateVerificationError || err.as .unknownAuthorityError ||
        err.as .hostnameError then "tls"
    else if err.root.timeout = some true then "timeout" else "connection" := by
  have his : ∀ s, (urlError op url err).is s = err.is s := fun s => rfl
  have has : ∀ t, t ≠ .other → (urlError op url err).as t = err.as t := by
    intro t ht
    have hroot : (ErrorType.other == t) = false := beq_false_of_ne ht.symm
    simp [Err.as, Err.nodes, urlError, hroot]
  have hnet : (urlError op url err).asNetError = some (err.root.timeout.getD false) := rfl
  simp only [categorize, his, has _ (by decide : ErrorType.dnsError ≠ .other),
    has _ (by decide : ErrorType.certificateVerificationError ≠ .other),
    has _ (by decide : ErrorType.unknownAuthorityError ≠ .other),
    has _ (by decide : ErrorType.hostnameError ≠ .other), hnet]
  rcases err.root.timeout with _ | _ | _ <;> rfl

/-- Where no value shows another cause, the tests for the others fail. -/
theorem tests_of_cause {cause : Cause} (hone : ∀ n ∈ err.nodes, ∀ c, Shows n c → c = cause) :
    (cause ≠ .timeout → err.is .deadlineExceeded = false) ∧
      (cause ≠ .unsafeTarget → err.is .errUnsafeTarget = false) ∧
      (cause ≠ .resolution → err.is .errResolutionFailed = false ∧ err.as .dnsError = false) ∧
      (cause ≠ .dial → err.is .errConnectionFailed = false) ∧
      (cause ≠ .verification → err.as .certificateVerificationError = false ∧
        err.as .unknownAuthorityError = false ∧ err.as .hostnameError = false) ∧
      (cause ≠ .timeout → err.root.timeout ≠ some true) := by
  have his : ∀ {s : Sentinel} {c : Cause}, (∀ {n : ErrorNode}, n.is s = true → Shows n c) →
      cause ≠ c → err.is s = false := fun hshows hne =>
    List.any_eq_false.mpr fun n hn hs => hne (hone n hn _ (hshows hs)).symm
  have has : ∀ {t : ErrorType} {c : Cause}, (∀ {n : ErrorNode}, n.type = t → Shows n c) →
      cause ≠ c → err.as t = false := fun hshows hne =>
    List.any_eq_false.mpr fun n hn ht => hne (hone n hn _ (hshows (beq_iff_eq.mp ht))).symm
  exact ⟨his .deadline, his .unsafeTarget, fun h => ⟨his .resolution h, has .dns h⟩, his .dial,
    fun h => ⟨has .certificate h, has .authority h, has .hostname h⟩,
    fun hne ht => hne (hone _ List.mem_cons_self _ (.timeout ht)).symm⟩

/-- Every cause gets its category, if and only if the error is neither one of the redirect
limit nor one of a malformed response, and a timeout is the error directly inside the
`*url.Error` or a deadline. -/
theorem category_faithful_iff (err : Err) (op url : String) :
    (∀ cause, CausedBy err cause → categorize (urlError op url err) = cause.category) ↔
      ¬ CausedBy err .redirectLimit ∧ ¬ CausedBy err .malformedResponse ∧
        (CausedBy err .timeout → err.is .deadlineExceeded = true ∨
          err.root.timeout = some true) := by
  have hknown : categorize (urlError op url err) ∈
      ["timeout", "unsafe_target", "dns", "connection", "tls"] := by
    rw [categorize_urlError]
    repeat' split
    all_goals decide
  have hfound : ∀ {n : ErrorNode} {s : Sentinel}, n ∈ err.nodes → n.is s = true →
      err.is s = true := fun hn hs => List.any_eq_true.mpr ⟨_, hn, hs⟩
  have hfoundType : ∀ {n : ErrorNode} {t : ErrorType}, n ∈ err.nodes → n.type = t →
      err.as t = true := fun hn ht => List.any_eq_true.mpr ⟨_, hn, beq_iff_eq.mpr ht⟩
  constructor
  · intro h
    refine ⟨fun hc => ?_, fun hc => ?_, fun hc => ?_⟩
    · rw [h _ hc] at hknown
      exact absurd hknown (by decide)
    · rw [h _ hc] at hknown
      exact absurd hknown (by decide)
    · have hcategory := h _ hc
      have htests := tests_of_cause hc.2
      rw [categorize_urlError] at hcategory
      simp [htests, Cause.category] at hcategory
      exact Decidable.or_iff_not_imp_left.mpr fun hno => hcategory (by simpa using hno)
  · rintro ⟨hredirect, hmalformed, htimeout⟩ cause hc
    rw [categorize_urlError]
    cases cause with
    | redirectLimit => exact absurd hc hredirect
    | malformedResponse => exact absurd hc hmalformed
    | timeout =>
      have htests := tests_of_cause hc.2
      rcases htimeout hc with h | h
      · simp [h, Cause.category]
      · simp [htests, h, Cause.category]
    | unsafeTarget =>
      obtain ⟨⟨n, hn, hshows⟩, hone⟩ := hc
      have htests := tests_of_cause hone
      cases hshows with
      | unsafeTarget h => simp [htests, hfound hn h, Cause.category]
    | verification =>
      obtain ⟨⟨n, hn, hshows⟩, hone⟩ := hc
      have htests := tests_of_cause hone
      cases hshows with
      | certificate h => simp [htests, hfoundType hn h, Cause.category]
      | authority h => simp [htests, hfoundType hn h, Cause.category]
      | hostname h => simp [htests, hfoundType hn h, Cause.category]
    | resolution =>
      obtain ⟨⟨n, hn, hshows⟩, hone⟩ := hc
      have htests := tests_of_cause hone
      cases hshows with
      | resolution h => simp [htests, hfound hn h, Cause.category]
      | dns h => simp [htests, hfoundType hn h, Cause.category]
    | dial =>
      obtain ⟨⟨n, hn, hshows⟩, hone⟩ := hc
      have htests := tests_of_cause hone
      cases hshows with
      | dial h => simp [htests, hfound hn h, Cause.category]

namespace Sample

/-- The text of a response that is none. -/
def malformed : Err := { root := { text := "malformed HTTP response" } }

end Sample

/-- The redirect limit and a malformed response are both taken for a failed connection. -/
theorem redirect_limit_miscategorized :
    CausedBy RedirectError.redirectLimitExceeded.err .redirectLimit ∧
      categorize (urlError "Get" "\"/\"" RedirectError.redirectLimitExceeded.err) = "connection" ∧
      CausedBy Sample.malformed .malformedResponse ∧
      categorize (urlError "Get" "\"/\"" Sample.malformed) = "connection" := by
  refine ⟨rfl, by decide, ⟨?_, ?_⟩, by decide⟩
  · intro n hn
    cases List.mem_singleton.mp hn
    exact ⟨fun c hc => by cases hc <;> contradiction, rfl⟩
  · intro h
    exact absurd (congrArg (fun e => e.root.text) h) (by decide)

end WatchTrace.Proofs.Client
