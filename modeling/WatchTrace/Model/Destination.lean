import WatchTrace.Tx.Table

/-!
# Monitor targets and the guarded client

`internal/destination/safety.go`, as far as it decides about URLs and
redirects, and the part of `internal/checkengine/engine.go` that builds a
request. What the standard library does is taken as given: how a URL or an
address is read, how letters fold, and which headers a redirect copies.
-/

namespace WatchTrace.Model.Destination

open Tx

/-! ## Addresses

The predicates of `net/netip`. -/

inductive Addr
  | zero
  | v4 (bits : BitVec 32)
  | v6 (bits : BitVec 128) (zone : String)
  deriving DecidableEq

/-- Both addresses begin with the same `n` bits. -/
def leading {w : Nat} (a b : BitVec w) (n : Nat) : Bool := a >>> (w - n) == b >>> (w - n)

def ipv4 (a b c d : Nat) : BitVec 32 :=
  BitVec.ofNat 32 (((a * 256 + b) * 256 + c) * 256 + d)

/-- The first groups of an address, the rest being zero. -/
def ipv6 (groups : List Nat) : BitVec 128 :=
  BitVec.ofNat 128 (((groups ++ List.replicate (8 - groups.length) 0).take 8).foldl
    (fun n g => n * 65536 + g) 0)

namespace Addr

def isValid : Addr → Bool
  | zero => false
  | _ => true

def zone : Addr → String
  | v6 _ zone => zone
  | _ => ""

/-- An IPv4-mapped address becomes the IPv4 address and loses its zone. -/
def unmap : Addr → Addr
  | v6 bits zone =>
    if leading bits (ipv6 [0, 0, 0, 0, 0, 0xffff]) 96 then v4 (bits.setWidth 32)
    else v6 bits zone
  | a => a

def isPrivate : Addr → Bool
  | v4 a => leading a (ipv4 10 0 0 0) 8 || leading a (ipv4 172 16 0 0) 12 ||
      leading a (ipv4 192 168 0 0) 16
  | v6 a _ => leading a (ipv6 [0xfc00]) 7
  | zero => false

def isLoopback : Addr → Bool
  | v4 a => leading a (ipv4 127 0 0 0) 8
  | v6 a _ => a == 1#128
  | zero => false

def isLinkLocalUnicast : Addr → Bool
  | v4 a => leading a (ipv4 169 254 0 0) 16
  | v6 a _ => leading a (ipv6 [0xfe80]) 10
  | zero => false

def isMulticast : Addr → Bool
  | v4 a => leading a (ipv4 224 0 0 0) 4
  | v6 a _ => leading a (ipv6 [0xff00]) 8
  | zero => false

def isUnspecified (a : Addr) : Bool := a == v4 0 || a == v6 0 ""

def isGlobalUnicast (a : Addr) : Bool :=
  a.isValid && a != v4 0 && a != v4 (ipv4 255 255 255 255) && a != v6 0 "" &&
    !a.isLoopback && !a.isMulticast && !a.isLinkLocalUnicast

end Addr

inductive Prefix
  | v4 (bits : BitVec 32) (length : Nat)
  | v6 (bits : BitVec 128) (length : Nat)

/-- An address with a zone is in no network. -/
def Prefix.contains : Prefix → Addr → Bool
  | v4 bits length, .v4 a => leading a bits length
  | v6 bits length, .v6 a zone => zone == "" && leading a bits length
  | _, _ => false

def metadataPrefixes : List Prefix :=
  [.v4 (ipv4 169 254 169 254) 32, .v6 (ipv6 [0xfd00, 0xec2, 0, 0, 0, 0, 0, 0x254]) 128]

def deniedSpecialUsePrefixes : List Prefix :=
  [.v4 (ipv4 0 0 0 0) 8, .v4 (ipv4 100 64 0 0) 10, .v4 (ipv4 192 0 0 0) 24,
    .v4 (ipv4 192 0 2 0) 24, .v4 (ipv4 198 18 0 0) 15, .v4 (ipv4 198 51 100 0) 24,
    .v4 (ipv4 203 0 113 0) 24, .v4 (ipv4 240 0 0 0) 4,
    .v6 (ipv6 [0x64, 0xff9b]) 96, .v6 (ipv6 [0x64, 0xff9b, 1]) 48,
    .v6 (ipv6 [0x100]) 64, .v6 (ipv6 [0x2001]) 32, .v6 (ipv6 [0x2001, 2]) 48,
    .v6 (ipv6 [0x2001, 0x10]) 28, .v6 (ipv6 [0x2001, 0x20]) 28,
    .v6 (ipv6 [0x2001, 0xdb8]) 32, .v6 (ipv6 [0x2002]) 16, .v6 (ipv6 [0x3fff]) 20,
    .v6 (ipv6 [0x5f00]) 16]

def isMetadataAddress (address : Addr) : Bool :=
  metadataPrefixes.any fun p => p.contains address

def isPublicAddress (address : Addr) : Bool :=
  if !address.isValid || address.zone != "" then false
  else
    let address := address.unmap
    if !address.isGlobalUnicast || address.isPrivate || address.isLoopback ||
        address.isLinkLocalUnicast || address.isMulticast || address.isUnspecified then
      false
    else !deniedSpecialUsePrefixes.any fun p => p.contains address

structure Policy where
  allowPrivateCIDRs : List Prefix
  maxRedirects : Int

def addressAllowed (policy : Policy) (address : Addr) : Bool :=
  let address := address.unmap
  if isPublicAddress address then true
  else if !address.isValid || address.isLoopback || address.isLinkLocalUnicast ||
      address.isMulticast || address.isUnspecified || isMetadataAddress address then false
  else if !address.isPrivate then false
  else policy.allowPrivateCIDRs.any fun p => p.contains address

/-! ## URLs -/

/-- A parsed URL: the parts that are looked at, and the text it is written as
again. -/
structure Url where
  text : String
  scheme : String
  rest : String
  host : String
  hasUser : Bool
  fragment : String
  hostname : String
  port : String

def Url.isAbs (u : Url) : Bool := u.scheme != ""

/-- What the standard library does. -/
structure Library where
  /-- `url.Parse` -/
  parse : String → Option Url
  /-- `netip.ParseAddr` -/
  parseAddr : String → Option Addr
  /-- Simple case folding of a letter. -/
  fold : Char → Char
  /-- Whether `http.Client` copies a header of the first request to a
  redirected one, given the URLs so far and the new one. -/
  copies : List Url → Url → String → Bool

inductive TargetError
  | errInvalidTarget
  | errUnsafeTarget
  deriving DecidableEq

variable (L : Library)

/-- `strings.EqualFold`. -/
def equalFold (s t : String) : Bool := s.toList.map L.fold == t.toList.map L.fold

def lower (s : String) : List Char := s.toList.map Char.toLower

/-- `strings.TrimSuffix(strings.ToLower(host), ".")`. -/
def canonicalHost (host : String) : List Char :=
  if ['.'].isSuffixOf (lower host) then (lower host).dropLast else lower host

def isLocalhost (host : String) : Bool :=
  canonicalHost host == "localhost".toList || ".localhost".toList.isSuffixOf (canonicalHost host)

/-- `none` is no error. -/
def validateURL (rawURL : String) : Option TargetError :=
  match L.parse rawURL with
  | none => some .errInvalidTarget
  | some parsed =>
    if !parsed.isAbs || parsed.rest != "" || parsed.host == "" || parsed.hasUser ||
        parsed.fragment != "" then some .errInvalidTarget
    else if lower parsed.scheme != "http".toList &&
        lower parsed.scheme != "https".toList then some .errInvalidTarget
    else if parsed.hostname == "" || [':'].isSuffixOf parsed.host.toList ||
        parsed.hostname.toList.contains '%' then some .errInvalidTarget
    else if parsed.port != "" && parsed.port != "80" && parsed.port != "443" then
      some .errUnsafeTarget
    else if isLocalhost parsed.hostname then some .errUnsafeTarget
    else
      match L.parseAddr parsed.hostname with
      | none => none
      | some address => if isPublicAddress address then none else some .errUnsafeTarget

def validateURLForPolicy (raw : String) (policy : Policy) : Option TargetError :=
  match validateURL L raw with
  | none => none
  | some err =>
    match L.parse raw with
    | none => some err
    | some parsed =>
      match L.parseAddr parsed.hostname with
      | none => some err
      | some address => if addressAllowed policy address then none else some err

/-! ## Headers -/

/-- `http.Header` when only `Set` writes to it: one value for a name. -/
abbrev Header := Table String String

/-- The bytes a header name may consist of. -/
def isToken (c : Char) : Bool :=
  c.isAlphanum || "!#$%&'*+-.^_`|~".toList.contains c

/-- Upper case at the beginning and after a hyphen, lower case elsewhere. -/
def canonicalize : Bool → List Char → List Char
  | _, [] => []
  | upper, c :: cs => (if upper then c.toUpper else c.toLower) :: canonicalize (c == '-') cs

/-- `textproto.CanonicalMIMEHeaderKey`: a text that cannot be a name stays as it
is. -/
def canonicalMIMEHeaderKey (key : String) : String :=
  if key.toList.all isToken then String.ofList (canonicalize true key.toList) else key

def Header.set (h : Header) (key value : String) : Header :=
  h.put (canonicalMIMEHeaderKey key) value

def Header.get (h : Header) (key : String) : String :=
  (h.find (canonicalMIMEHeaderKey key)).getD ""

/-! ## Requests and redirects -/

structure Request where
  url : Url
  header : Header

inductive RedirectError
  | redirectLimitExceeded
  | errUnsafeTarget
  deriving DecidableEq

/-- The `CheckRedirect` of `NewHTTPClientWithPolicy`: an error, or the request
with the headers it is sent with. -/
def checkRedirect (policy : Policy) (request : Request) (prior : List Request) :
    Except RedirectError Request :=
  if policy.maxRedirects < 0 ∨ policy.maxRedirects < prior.length then
    .error .redirectLimitExceeded
  else if (validateURLForPolicy L request.url.text policy).isSome then
    .error .errUnsafeTarget
  else
    match prior.getLast? with
    | none => .ok request
    | some last =>
      if equalFold L last.url.hostname request.url.hostname then .ok request
      else
        let userAgent := request.header.get "User-Agent"
        let jobID := request.header.get "X-WatchTrace-Job-ID"
        let header : Header := Table.empty
        .ok { request with header :=
          (header.set "User-Agent" userAgent).set "X-WatchTrace-Job-ID" jobID }

/-- The redirected request as `http.Client` hands it to `CheckRedirect`: the
headers are copied from the first request. -/
def redirected (initial : Request) (prior : List Request) (location : Url) : Request :=
  { url := location
    header := initial.header.keep fun name _ =>
      L.copies (prior.map Request.url) location name }

/-- The requests sent when the servers answer with these locations, one after
the other. `validatingTransport` looks at every URL once more. -/
def follow (policy : Policy) (initial : Request) : List Request → List Url → List Request
  | prior, [] => prior
  | prior, location :: rest =>
    match checkRedirect L policy (redirected L initial prior location) prior with
    | .error _ => prior
    | .ok request =>
      if (validateURLForPolicy L request.url.text policy).isSome then prior
      else follow policy initial (prior ++ [request]) rest

def send (policy : Policy) (initial : Request) (locations : List Url) : List Request :=
  if (validateURLForPolicy L initial.url.text policy).isSome then []
  else follow L policy initial [initial] locations

/-! ## The check engine -/

def UserAgent : String := "WatchTrace-Phase1/1.0"

/-- `checkengine.Request`; durations in nanoseconds. -/
structure CheckRequest where
  jobID : String
  url : String
  method : String
  headers : List (String × String)
  timeout : Int
  expectedMin : Int
  expectedMax : Int
  maxResponseBytes : Int

inductive Refusal
  | invalidCheckRequest
  | invalidTarget
  deriving DecidableEq

/-- The first half of `Execute`, up to the request it hands to the client. The
order of `Headers` is any order of the map. -/
def newRequest (input : CheckRequest) : Except Refusal Request :=
  if input.jobID == "" || (input.method != "GET" && input.method != "HEAD") ||
      decide (input.timeout < 1000000000) || decide (10 * 1000000000 < input.timeout) ||
      decide (input.expectedMin < 100) || decide (599 < input.expectedMax) ||
      decide (input.expectedMax < input.expectedMin) ||
      decide (input.maxResponseBytes < 1) ||
      decide (1024 * 1024 < input.maxResponseBytes) then
    .error .invalidCheckRequest
  else
    match L.parse input.url with
    | none => .error .invalidTarget
    | some url =>
      let header : Header := Table.empty
      let header := (header.set "User-Agent" UserAgent).set "X-WatchTrace-Job-ID" input.jobID
      .ok { url := url
            header := input.headers.foldl (fun h e => h.set e.1 e.2) header }

/-- All requests a check sends. -/
def execute (policy : Policy) (input : CheckRequest) (locations : List Url) : List Request :=
  match newRequest L input with
  | .error _ => []
  | .ok initial => send L policy initial locations

end WatchTrace.Model.Destination
