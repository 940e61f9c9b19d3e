import WatchTrace.Model.Schema

/-!
# The rate limiter of the API

`internal/httpapi/ratelimit.go`. A request is put into a class by its path, and
into a bucket by its class and by who seems to have sent it. A bucket counts the
requests of a window, which begins with the first of them; a live connection is
counted for as long as it lasts.

Who has sent a request is read off the request: a refresh cookie, a bearer token
where the path is not one of authentication, or else the address of the peer.
-/

namespace WatchTrace.Model.RateLimit

open Tx

/-- What `net`, `strings` and `crypto/sha256` compute. -/
structure Library where
  /-- the host of `net.SplitHostPort`, unless it answers an error -/
  splitHost : String → Option String
  /-- `strings.Fields` -/
  fields : String → List String
  equalFold : String → String → Bool
  /-- `sha256`, in hexadecimal digits -/
  identityDigest : String → String

/-- What the limiter reads of an `http.Request`: the cookies as `net/http` finds
them in the headers, and the first value of `Authorization`. -/
structure Request where
  method : String
  path : String
  remoteAddr : String
  authorization : String := ""
  cookies : List (String × String) := []

def refreshTokenCookieName : String := "watchtrace_refresh"

/-- `request.Cookie`: the first one of that name. -/
def Request.cookie (request : Request) (name : String) : Option String :=
  (request.cookies.find? fun c => c.1 == name).map Prod.snd

structure RateLimits where
  authPerMinute : Int := 0
  mutationsPerMinute : Int := 0
  manualPerMinute : Int := 0
  reportsPerMinute : Int := 0
  invitesPerHour : Int := 0
  liveConnections : Int := 0

structure RateBucket where
  started : Time
  count : Int

structure RateLimiter where
  limits : RateLimits
  buckets : Table String RateBucket
  live : Table String Int

def orDefault (value default : Int) : Int := if value < 1 then default else value

def newRateLimiter (l : RateLimits) : RateLimiter :=
  { limits :=
      { authPerMinute := orDefault l.authPerMinute 30
        mutationsPerMinute := orDefault l.mutationsPerMinute 120
        manualPerMinute := orDefault l.manualPerMinute 10
        reportsPerMinute := orDefault l.reportsPerMinute 120
        invitesPerHour := orDefault l.invitesPerHour 20
        liveConnections := orDefault l.liveConnections 3 }
    buckets := .empty
    live := .empty }

/-! ## Classes -/

inductive Class
  | live
  | auth
  | manual
  | invite
  | report
  | mutation
  deriving DecidableEq

def Class.text : Class → String
  | .live => "live"
  | .auth => "auth"
  | .manual => "manual"
  | .invite => "invite"
  | .report => "report"
  | .mutation => "mutation"

def hasPrefix (text leader : String) : Bool := leader.toList.isPrefixOf text.toList

def hasSuffix (text trailer : String) : Bool := trailer.toList.isSuffixOf text.toList

/-- The class, how many requests of it are let through, and in which time. A live
connection has no window. -/
def RateLimits.classify (l : RateLimits) (method path : String) : Option (Class × Int × Time) :=
  if hasSuffix path "/events" then some (.live, l.liveConnections, 0)
  else if hasPrefix path "/api/v1/auth/" && path != "/api/v1/auth/me" &&
      path != "/api/v1/auth/logout" then
    some (.auth, l.authPerMinute, minute)
  else if hasSuffix path "/test" then some (.manual, l.manualPerMinute, minute)
  else if hasSuffix path "/invitations" then some (.invite, l.invitesPerHour, hour)
  else if hasSuffix path "/report" || hasSuffix path "/dashboard" then
    some (.report, l.reportsPerMinute, minute)
  else if method == "POST" || method == "PUT" || method == "PATCH" || method == "DELETE" then
    some (.mutation, l.mutationsPerMinute, minute)
  else none

/-! ## Clients -/

section Clients

variable (L : Library)

def bearerToken (header : String) : Option String :=
  match L.fields header with
  | [scheme, token] => if !L.equalFold scheme "Bearer" || token == "" then none else some token
  | _ => none

def clientAddress (request : Request) : String :=
  match (L.splitHost request.remoteAddr).filter fun host => host != "" with
  | some host => host
  | none => if request.remoteAddr != "" then request.remoteAddr else "unknown"

/-- The refresh cookie, if it says something. -/
def Request.refreshCookie (request : Request) : Option String :=
  (request.cookie refreshTokenCookieName).filter fun value => value != ""

def clientIdentity (request : Request) : String :=
  match request.refreshCookie with
  | some value => "refresh:" ++ L.identityDigest value
  | none =>
    match (if hasPrefix request.path "/api/v1/auth/" then none
        else bearerToken L request.authorization) with
    | some token => "session:" ++ L.identityDigest token
    | none => "address:" ++ clientAddress L request

def bucketKey (c : Class) (request : Request) : String :=
  c.text ++ ":" ++ clientIdentity L request

end Clients

/-! ## Buckets -/

/-- Seconds, rounded up. -/
def ceilSeconds (d : Time) : Int := (d + (second - 1)) / second

inductive Verdict
  | passed
  | limited (retryAfter : Int)
  deriving DecidableEq

/-- A bucket that is not there is one that has never started. -/
def RateLimiter.allow (r : RateLimiter) (now : Time) (key : String) (limit : Int)
    (window : Time) : Verdict × RateLimiter :=
  let bucket : RateBucket := match r.buckets.find key with
    | none => { started := now, count := 0 }
    | some bucket => if window ≤ now - bucket.started then { started := now, count := 0 }
        else bucket
  if limit ≤ bucket.count then
    (.limited (max 1 (ceilSeconds (window - (now - bucket.started)))), r)
  else
    (.passed, { r with
      buckets := r.buckets.put key { bucket with count := bucket.count + 1 } })

def RateLimiter.acquireLive (r : RateLimiter) (key : String) : Bool × RateLimiter :=
  let open_ := (r.live.find key).getD 0
  if r.limits.liveConnections ≤ open_ then (false, r)
  else (true, { r with live := r.live.put key (open_ + 1) })

def RateLimiter.releaseLive (r : RateLimiter) (key : String) : RateLimiter :=
  let open_ := (r.live.find key).getD 0 - 1
  if open_ ≤ 0 then { r with live := r.live.drop key }
  else { r with live := r.live.put key open_ }

section Middleware

variable (L : Library)

/-- What `Middleware` does before it passes the request on, or does not. -/
def RateLimiter.serve (r : RateLimiter) (now : Time) (request : Request) : Verdict × RateLimiter :=
  match r.limits.classify request.method request.path with
  | none => (.passed, r)
  | some (.live, _, _) =>
    match r.acquireLive (bucketKey L .live request) with
    | (false, r) => (.limited 1, r)
    | (true, r) => (.passed, r)
  | some (c, limit, window) => r.allow now (bucketKey L c request) limit window

/-- And after the request has been served. -/
def RateLimiter.finish (r : RateLimiter) (request : Request) : RateLimiter :=
  match r.limits.classify request.method request.path with
  | some (.live, _, _) => r.releaseLive (bucketKey L .live request)
  | _ => r

end Middleware

end WatchTrace.Model.RateLimit
