import WatchTrace.Model.Monitor
import WatchTrace.Text.Utf8

/-!
# Mail

`internal/platform/mail/smtp.go`: the transports there are, what a message has to
pass before anything is sent, and the text that is sent. Then the text of a
provider as `internal/notification/worker.go` stores it. Texts are bytes: nothing
says that they are UTF-8.
-/

namespace WatchTrace.Model.Mail

open Text

/-- What `net` and `net/mail` answer. -/
structure Library where
  splitHostPort : Bytes → Option (Bytes × Bytes)
  equalFold : Bytes → Bytes → Bool
  /-- Whether an address is a loopback address, if it is one. -/
  parseIP : Bytes → Option Bool
  /-- The name and the address of a mailbox. -/
  parseAddress : Bytes → Option (Bytes × Bytes)

def trimSpace (s : Bytes) : Bytes := trim MonitorService.isSpace s

/-- The bytes of a text of the source. -/
def literal (s : String) : Bytes := s.toUTF8.data.toList

def cr : UInt8 := 13

def lf : UInt8 := 10

def crlf : Bytes := [cr, lf]

/-! ## Checks -/

section

variable (L : Library)

def validMailbox (value : Bytes) : Bool :=
  if value = [] || value != trimSpace value || 254 < value.length || cr ∈ value || lf ∈ value then
    false
  else L.parseAddress value == some ([], value)

def validMessageID (value : Bytes) : Bool :=
  value.length ≤ 128 && value.all fun b => b ∉ crlf ++ literal "<>"

/-- `unicode.IsControl`. -/
def isControl (c : Char) : Bool := c.val < 32 || 127 ≤ c.val && c.val < 160

def validCredential (value : Bytes) : Bool :=
  value != [] && value.length ≤ 1024 && !(chars value).any isControl

def safeHeader (value : Bytes) : Bytes :=
  trimSpace (value.filter fun b => b != cr && b != lf)

def isLoopback (host : Bytes) : Bool :=
  L.equalFold host (literal "localhost") || L.parseIP host == some true

/-! ## Transports -/

structure Transport where
  address : Bytes
  host : Bytes
  fromAddress : Bytes
  username : Bytes
  password : Bytes
  requireTLS : Bool
  timeout : Int

def newLocal (address fromAddress : Bytes) (timeout : Int) : Option Transport :=
  match L.splitHostPort (trimSpace address) with
  | none => none
  | some (host, _) =>
    if !isLoopback L host || !validMailbox L (trimSpace fromAddress) || timeout ≤ 0 then none
    else some
      { address := trimSpace address, host, fromAddress := trimSpace fromAddress
        username := [], password := [], requireTLS := false, timeout }

def newOCI (address username password fromAddress : Bytes) (timeout : Int) : Option Transport :=
  match L.splitHostPort (trimSpace address) with
  | none => none
  | some (host, _) =>
    if (L.parseIP host).isSome || isLoopback L host || !validCredential (trimSpace username) ||
        !validCredential (trimSpace password) || !validMailbox L (trimSpace fromAddress) ||
        timeout ≤ 0 then none
    else some
      { address := trimSpace address, host, fromAddress := trimSpace fromAddress
        username := trimSpace username, password := trimSpace password, requireTLS := true
        timeout }

/-- The transports that can be built. -/
def Built (transport : Transport) : Prop :=
  (∃ address fromAddress timeout, newLocal L address fromAddress timeout = some transport) ∨
    ∃ address username password fromAddress timeout,
      newOCI L address username password fromAddress timeout = some transport

/-! ## Messages -/

structure Message where
  recipient : Bytes
  subject : Bytes
  messageID : Bytes
  plainTextBody : Bytes

/-- What `Deliver` looks at before it connects. -/
def deliverable (message : Message) : Bool :=
  validMailbox L message.recipient && safeHeader message.subject != [] &&
    validMessageID message.messageID

end

/-- The body with its line ends as they are sent. -/
def formatBody (body : Bytes) : Bytes :=
  (body.filter (· != cr)).flatMap fun b => if b = lf then crlf else [b]

def Transport.format (transport : Transport) (message : Message) : Bytes :=
  literal "From: " ++ transport.fromAddress ++ crlf ++
  (literal "To: " ++ message.recipient ++ crlf ++
  (literal "Subject: " ++ safeHeader message.subject ++ crlf ++
  ((if message.messageID = [] then []
    else literal "Message-ID: <" ++ message.messageID ++ literal "@watchtrace.local>" ++ crlf) ++
  (literal "Content-Type: text/plain; charset=UTF-8" ++ crlf ++
  (crlf ++ formatBody message.plainTextBody)))))

/-! ## What a provider says -/

/-- Takes characters off the end until a text is short enough; a byte that ends
no character goes alone. -/
def truncate (maximum : Nat) (value : Bytes) : Bytes :=
  if maximum < value.length then
    truncate maximum (value.rdrop ((last value).elim 1 Char.utf8Size))
  else value
termination_by value.length
decreasing_by
  have : 0 < (last value).elim 1 Char.utf8Size := by
    cases last value with
    | none => exact Nat.one_pos
    | some c => exact c.utf8Size_pos
  rw [List.rdrop, List.length_take]
  omega

def safeText (value fallback : Bytes) (maximum : Nat) : Bytes :=
  let kept := trimSpace (encode ((chars value).filter fun c => !(c.val < 32 || c.val == 127)))
  truncate maximum (if kept = [] then fallback else kept)

structure ProviderResponse where
  messageID : Bytes
  status : Bytes

/-- The status of a failure, for an error that is one. -/
def safeProviderStatus : Option Bytes → Bytes
  | some status => safeText status (literal "provider_error") 160
  | none => literal "provider_error"

/-- The texts that are stored with an attempt. -/
structure Stored where
  providerStatus : Bytes
  providerMessageID : Option Bytes

def accept (deliveryID : Bytes) (response : ProviderResponse) : Stored where
  providerStatus := safeText response.status (literal "accepted") 160
  providerMessageID := some (safeText response.messageID deliveryID 255)

def retryOrFail (failure : Option Bytes) : Stored where
  providerStatus := safeProviderStatus failure
  providerMessageID := none

/-- The constraints of `notification_attempts` and `notification_outbox` on
these columns. -/
def Stored.admissible (stored : Stored) : Bool :=
  (1 ≤ stored.providerStatus.length && stored.providerStatus.length ≤ 160) &&
    stored.providerMessageID.all (·.length ≤ 255)

end WatchTrace.Model.Mail
