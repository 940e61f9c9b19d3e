import Mathlib.Data.List.Infix
import WatchTrace.Model.Destination

/-!
# The errors of the guarded client

`categorize` of `internal/checkengine/engine.go`, and the errors it is asked about: what
the dialer and the redirect policy of `internal/destination/safety.go` return, in the
`*url.Error` of `net/http`.
-/

namespace WatchTrace.Model.Destination

inductive DialError
  | errInvalidTarget
  | errUnsafeTarget
  | errResolutionFailed
  | errConnectionFailed
  deriving DecidableEq

inductive Sentinel
  | deadlineExceeded
  | errInvalidTarget
  | errUnsafeTarget
  | errResolutionFailed
  | errConnectionFailed
  deriving DecidableEq

/-- The types `categorize` asks for by name. -/
inductive ErrorType
  | dnsError
  | certificateVerificationError
  | unknownAuthorityError
  | hostnameError
  | other
  deriving DecidableEq

/-- One error value: the sentinels it passes for, its type, the answer of its method
`Timeout` if it has one, and whether it has a method `Temporary`. -/
structure ErrorNode where
  is : Sentinel → Bool := fun _ => false
  type : ErrorType := .other
  timeout : Option Bool := none
  temporary : Bool := false
  text : String := ""

/-- An error and what it wraps, in the order in which `errors.Is` and `errors.As` go
through the tree. -/
structure Err where
  root : ErrorNode
  wrapped : List ErrorNode := []

def Err.nodes (err : Err) : List ErrorNode := err.root :: err.wrapped

def Err.is (err : Err) (target : Sentinel) : Bool := err.nodes.any fun n => n.is target

def Err.as (err : Err) (type : ErrorType) : Bool := err.nodes.any fun n => n.type == type

/-- The answer of `Timeout` of the first `net.Error`. -/
def Err.asNetError (err : Err) : Option Bool :=
  err.nodes.findSome? fun n => if n.temporary then n.timeout else none

def categorize (err : Err) : String :=
  if err.is .deadlineExceeded then "timeout"
  else if err.is .errUnsafeTarget then "unsafe_target"
  else if err.is .errResolutionFailed then "dns"
  else if err.is .errConnectionFailed then "connection"
  else if err.as .dnsError then "dns"
  else if err.as .certificateVerificationError || err.as .unknownAuthorityError ||
      err.as .hostnameError then "tls"
  else
    match err.asNetError with
    | some timeout => if timeout then "timeout" else "connection"
    | none =>
      if "redirect".toList <:+: lower err.root.text then "redirect_limit" else "http_protocol"

/-- `*url.Error`: `Timeout` asks the error it wraps, if that has the method. -/
def urlError (op quotedUrl : String) (err : Err) : Err :=
  { root := { timeout := some (err.root.timeout.getD false), temporary := true
              text := op ++ " " ++ quotedUrl ++ ": " ++ err.root.text }
    wrapped := err.nodes }

def sentinelError (s : Sentinel) (text : String) : Err := { root := { is := (· == s), text } }

def DialError.err : DialError → Err
  | errInvalidTarget => sentinelError .errInvalidTarget "invalid monitor target"
  | errUnsafeTarget => sentinelError .errUnsafeTarget "unsafe monitor target"
  | errResolutionFailed =>
    sentinelError .errResolutionFailed "monitor target resolution failed"
  | errConnectionFailed =>
    sentinelError .errConnectionFailed "monitor target connection failed"

def RedirectError.err : RedirectError → Err
  | redirectLimitExceeded => { root := { text := "redirect limit exceeded" } }
  | errUnsafeTarget => DialError.errUnsafeTarget.err

end WatchTrace.Model.Destination
