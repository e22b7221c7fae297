import Palworld.Lib.Base64
import Palworld.Lib.Dict
import Palworld.Lib.Trace
import Palworld.Lib.Traced
import Palworld.Tls.Provision

/-!
# An order at the certificate authority

`perform_dns01_flow` places an order, sets the TXT record that proves the domain, has it
checked, and sends its signing request. Each of its calls may raise.
-/

open Lib

namespace Palworld.Tls

/-! ## Replies -/

/-- A value of a JSON document. -/
inductive Value
  | null
  | bool (b : Bool)
  | int (n : Int)
  | float (zero : Bool)
  | str (s : Text)
  | list (items : List Value)
  | dict (fields : List (Text × Value))

inductive Fault
  | exception (text : Text)
  | cancelled                       -- no `Exception`: it passes through the handlers

def raise {α : Type} (text : Text) : Except Fault α := .error (.exception text)

structure HttpResponse where
  status : Nat
  location : Option Text            -- the headers that the client looks at
  replayNonce : Option Text
  json : Except Fault Value         -- `response.json()`
  text : Text
  content : Bytes

/-- What comes of one HTTP request. -/
inductive Reply
  | received (response : HttpResponse)
  | requestError (text : Text)      -- an `httpx.RequestError`
  | exception (text : Text)         -- another exception
  | cancelled

/-- What the client leaves to Python and to the libraries. -/
structure AcmeLibraries where
  str : Value → Text
  dict : Value → Except Fault (List (Text × Value))
  lower : Text → Text
  encodeAscii : Text → Except Fault Bytes
  sha256 : Bytes → Bytes
  statusError : HttpResponse → Text      -- the message of an `HTTPStatusError`
  thumbprint : Text                 -- of the account key

def Value.typeName : Value → Text
  | .null => lit "NoneType"
  | .bool _ => lit "bool"
  | .int _ => lit "int"
  | .float _ => lit "float"
  | .str _ => lit "str"
  | .list _ => lit "list"
  | .dict _ => lit "dict"

def Value.truth : Value → Bool
  | .null => false
  | .bool b => b
  | .int n => n != 0
  | .float zero => !zero
  | .str s => !s.isEmpty
  | .list items => !items.isEmpty
  | .dict fields => !fields.isEmpty

def Value.isText (text : String) : Value → Bool
  | .str s => s == lit text
  | _ => false

/-- The value as an object that has a `get`. -/
def Value.fields : Value → Except Fault (List (Text × Value))
  | .dict fields => .ok fields
  | v => raise (lit "'" ++ v.typeName ++ lit "' object has no attribute 'get'")

def get (fields : List (Text × Value)) (name : String) (default : Value) : Value :=
  (lastOf (lit name) fields).getD default

/-- `values[0]`. -/
def Value.first : Value → Except Fault Value
  | .list (v :: _) => .ok v
  | .list [] => raise (lit "list index out of range")
  | .str (c :: _) => .ok (.str [c])
  | .str [] => raise (lit "string index out of range")
  | .dict _ => raise (lit "0")
  | v => raise (lit "'" ++ v.typeName ++ lit "' object is not subscriptable")

/-- The items that a `for` loop goes over. -/
def Value.items : Value → Except Fault (List Value)
  | .list items => .ok items
  | .str s => .ok (s.map fun c => .str [c])
  | .dict fields => .ok (fields.map fun field => .str field.1)
  | v => raise (lit "'" ++ v.typeName ++ lit "' object is not iterable")

/-! ## Requests -/

inductive Payload
  | termsOfServiceAgreed
  | identifiers (domain : Text)
  | empty                           -- a GET that is authenticated
  | answer                          -- `{}`, which answers a challenge
  | csr (der : Text)

/-- What is signed, less its signature. Without a `kid` the header has the public key. -/
structure Jws where
  nonce : Text
  url : Value
  kid : Option Text
  payload : Payload

inductive Request
  | directory (url : Text)
  | newNonce (url : Value)
  | post (url : Value) (jws : Jws)
  | setTxt (url : Text)
  | clearTxt (url : Text)

inductive AcmeEvent
  | sent (request : Request)
  | txtSet (result : Bool)          -- `set_duckdns_txt_record` returned
  | orderStatus (status : Value)    -- the status of the order that was polled

abbrev Flow := Traced AcmeEvent Fault

structure ACMEAccount where
  accountUrl : Text

structure ACMEOrder where
  orderUrl : Text
  authorizationUrls : Value
  finalizeUrl : Value

structure ACMEChallenge where
  challengeUrl : Value
  token : Value
  keyAuthorizationDigest : Text

/-! ## What is read of the replies -/

section

variable (lib : AcmeLibraries)

def Reply.raiseForStatus : Reply → Except Fault HttpResponse
  | .received response =>
    if 200 ≤ response.status ∧ response.status ≤ 299 then .ok response else raise (lib.statusError response)
  | .requestError text | .exception text => raise text
  | .cancelled => .error .cancelled

def directoryOf (response : HttpResponse) : Except Fault (List (Text × Value)) := response.json >>= lib.dict

def nonceOf (response : HttpResponse) : Except Fault Text :=
  match response.replayNonce with
  | none | some [] => raise (lit "Replay-Nonce header missing from response")
  | some nonce => .ok nonce

def accountOf (response : HttpResponse) : Except Fault ACMEAccount :=
  match response.location with
  | none | some [] => raise (lit "Location header missing from newAccount response")
  | some url => .ok ⟨url⟩

def orderOf (response : HttpResponse) : Except Fault ACMEOrder :=
  match response.location with
  | none | some [] => raise (lit "Location header missing from newOrder response")
  | some url => do
    let data ← response.json >>= Value.fields
    return ⟨url, get data "authorizations" (.list []), get data "finalize" (.str [])⟩

/-- `order.authorization_urls[0]`, of an order that has any. -/
def ACMEOrder.firstAuthorization (order : ACMEOrder) : Except Fault Value :=
  if order.authorizationUrls.truth then order.authorizationUrls.first
  else raise (lit "No authorization URLs returned from newOrder")

def b64url (data : Bytes) : Text := ((urlsafeB64encode data).reverse.dropWhile (· == '=')).reverse

def computeKeyAuthorizationDigest (token : Value) : Except Fault Text := do
  let keyAuth ← lib.encodeAscii (lib.str token ++ lit "." ++ lib.thumbprint)
  return b64url (lib.sha256 keyAuth)

/-- The first challenge of the type that the flow can answer. -/
def dns01Of : List Value → Except Fault ACMEChallenge
  | [] => raise (lit "No dns-01 challenge found in authorization")
  | item :: items => do
    let challenge ← item.fields
    if (get challenge "type" .null).isText "dns-01" then
      let token := get challenge "token" (.str [])
      let digest ← computeKeyAuthorizationDigest lib token
      return ⟨get challenge "url" (.str []), token, digest⟩
    else dns01Of items

def challengeOf (response : HttpResponse) : Except Fault ACMEChallenge := do
  let data ← response.json >>= Value.fields
  let challenges ← (get data "challenges" (.list [])).items
  dns01Of lib challenges

/-- The data of an order and its status. -/
def statusOf (response : HttpResponse) : Except Fault (List (Text × Value) × Value) := do
  let data ← response.json >>= Value.fields
  return (data, get data "status" .null)

/-! ## The steps of the flow -/

def exchange (request : Request) (reply : Reply) : Flow HttpResponse := do
  Traced.emit (.sent request)
  Traced.lift (reply.raiseForStatus lib)

def getAcmeDirectory (directoryUrl : Text) (reply : Reply) : Flow (List (Text × Value)) := do
  let response ← exchange lib (.directory directoryUrl) reply
  Traced.lift (directoryOf lib response)

def getNonce (newNonceUrl : Value) (reply : Reply) : Flow Text := do
  let response ← exchange lib (.newNonce newNonceUrl) reply
  Traced.lift (nonceOf response)

/-- A request that is signed with a nonce of its own. -/
def signedPost (newNonceUrl url : Value) (kid : Option Text) (payload : Payload) (nonceReply reply : Reply) : Flow HttpResponse := do
  let nonce ← getNonce lib newNonceUrl nonceReply
  exchange lib (.post url ⟨nonce, url, kid, payload⟩) reply

def registerAccount (newAccountUrl newNonceUrl : Value) (nonceReply reply : Reply) : Flow ACMEAccount := do
  let response ← signedPost lib newNonceUrl newAccountUrl none .termsOfServiceAgreed nonceReply reply
  Traced.lift (accountOf response)

def createOrder (account : ACMEAccount) (domain : Text) (newOrderUrl newNonceUrl : Value) (nonceReply reply : Reply) : Flow ACMEOrder := do
  let response ← signedPost lib newNonceUrl newOrderUrl account.accountUrl (.identifiers domain) nonceReply reply
  Traced.lift (orderOf response)

def getDns01Challenge (account : ACMEAccount) (authorizationUrl newNonceUrl : Value) (nonceReply reply : Reply) : Flow ACMEChallenge := do
  let response ← signedPost lib newNonceUrl authorizationUrl account.accountUrl .empty nonceReply reply
  Traced.lift (challengeOf lib response)

def respondToChallenge (account : ACMEAccount) (challengeUrl newNonceUrl : Value) (nonceReply reply : Reply) : Flow Bool := do
  let _ ← signedPost lib newNonceUrl challengeUrl account.accountUrl .answer nonceReply reply
  return true

/-- One round of the polling. -/
structure Poll where
  nonce : Reply
  order : Reply
  sleep : Except Fault Unit

def ACME_MAX_POLL_ATTEMPTS : Nat := 40

/-- `status in ("ready", "valid", "invalid")`. -/
def Value.isSettled (status : Value) : Bool := status.isText "ready" || status.isText "valid" || status.isText "invalid"

def pollOrder (account : ACMEAccount) (orderUrl newNonceUrl : Value) : Nat → (Nat → Poll) → Flow (List (Text × Value))
  | 0, _ => Traced.lift (raise (lit "Timed out polling order status"))
  | attempts + 1, polls => do
    let response ← signedPost lib newNonceUrl orderUrl account.accountUrl .empty (polls 0).nonce (polls 0).order
    let (data, status) ← Traced.lift (statusOf response)
    Traced.emit (.orderStatus status)
    if status.isSettled then return data
    Traced.lift (polls 0).sleep
    pollOrder account orderUrl newNonceUrl attempts fun n => polls (n + 1)

def pollOrderStatus (account : ACMEAccount) (orderUrl newNonceUrl : Value) (polls : Nat → Poll) : Flow (List (Text × Value)) :=
  pollOrder lib account orderUrl newNonceUrl ACME_MAX_POLL_ATTEMPTS polls

/-- If processing, poll until valid. -/
def settleOrder (account : ACMEAccount) (finalizeUrl newNonceUrl : Value) (response : HttpResponse) (polls : Nat → Poll) :
    Flow (List (Text × Value)) := do
  let (data, status) ← Traced.lift (statusOf response)
  if status.isText "processing" then
    let orderUrl := (response.location.map Value.str).getD finalizeUrl
    pollOrderStatus lib account orderUrl newNonceUrl polls
  else return data

def certificateUrlOf (data : List (Text × Value)) : Except Fault Value :=
  let status := get data "status" .null
  let certUrl := get data "certificate" .null
  if !status.isText "valid" then raise (lit "Order not valid after finalize: " ++ lib.str status)
  else if !certUrl.truth then raise (lit "Certificate URL missing from finalized order")
  else .ok certUrl

def finalizeOrder (account : ACMEAccount) (finalizeUrl : Value) (csrDer : Bytes) (newNonceUrl : Value) (nonceReply reply : Reply)
    (polls : Nat → Poll) : Flow Value := do
  let response ← signedPost lib newNonceUrl finalizeUrl account.accountUrl (.csr (b64url csrDer)) nonceReply reply
  let data ← settleOrder lib account finalizeUrl newNonceUrl response polls
  Traced.lift (certificateUrlOf lib data)

def downloadCertificate (account : ACMEAccount) (certificateUrl newNonceUrl : Value) (nonceReply reply : Reply) : Flow Bytes := do
  let response ← signedPost lib newNonceUrl certificateUrl account.accountUrl .empty nonceReply reply
  return response.content

/-! ## DuckDNS -/

def cleanDomainName (domain : Text) : Text :=
  let cleaned := lib.lower (strip domain)
  let cleaned := if lit "https://" <+: cleaned then cleaned.drop 8 else cleaned
  let cleaned := if lit "http://" <+: cleaned then cleaned.drop 7 else cleaned
  (cleaned.takeWhile (· ≠ '/')).takeWhile (· ≠ ':')

def extractSubdomain (domain : Text) : Text :=
  let cleaned := cleanDomainName lib domain
  if lit ".duckdns.org" <:+ cleaned then cleaned.take (cleaned.length - 12) else cleaned

/-- An update of DuckDNS has succeeded. A failed request has not, and another exception is raised. -/
def Reply.duckdns : Reply → Except Fault Bool
  | .received response => .ok (decide (200 ≤ response.status ∧ response.status ≤ 299) && decide (lit "OK" <+: response.text))
  | .requestError _ => .ok false
  | .exception text => raise text
  | .cancelled => .error .cancelled

def updateUrl (domain token : Text) : Text :=
  lit "https://www.duckdns.org/update?domains=" ++ extractSubdomain lib domain ++ lit "&token=" ++ token

def setDuckdnsTxtRecord (domain token txtRecord : Text) (reply : Reply) : Flow Bool := do
  Traced.emit (.sent (.setTxt (updateUrl lib domain token ++ lit "&txt=" ++ txtRecord)))
  let result ← Traced.lift reply.duckdns
  Traced.emit (.txtSet result)
  return result

def clearDuckdnsTxtRecord (domain token : Text) (reply : Reply) : Flow Bool := do
  Traced.emit (.sent (.clearTxt (updateUrl lib domain token ++ lit "&clear=true")))
  Traced.lift reply.duckdns

/-! ## The flow -/

/-- What comes of each call that the flow makes. -/
structure AcmeIo where
  directory : Reply
  accountKey : Except Fault Unit         -- `create_or_load_account_key`
  accountNonce : Reply
  account : Reply
  orderNonce : Reply
  order : Reply
  authorizationNonce : Reply
  authorization : Reply
  txt : Reply
  propagation : Except Fault Unit        -- the sleep after it
  challengeNonce : Reply
  challenge : Reply
  polls : Nat → Poll
  csr : Except Fault Bytes               -- the request for the certificate, signed
  finalizeNonce : Reply
  finalize : Reply
  finalPolls : Nat → Poll
  certificateNonce : Reply
  certificate : Reply
  clear : Reply

variable (domain duckdnsToken directoryUrl : Text) (io : AcmeIo)

/-- What the steps before the TXT record give to the others. -/
structure Placed where
  newNonceUrl : Value
  account : ACMEAccount
  order : ACMEOrder
  challenge : ACMEChallenge

/-- The steps from 1 to 6. -/
def placeOrder : Flow Placed := do
  let directory ← getAcmeDirectory lib directoryUrl io.directory
  let newNonceUrl := get directory "newNonce" (.str [])
  let newAccountUrl := get directory "newAccount" (.str [])
  let newOrderUrl := get directory "newOrder" (.str [])
  Traced.lift io.accountKey
  let account ← registerAccount lib newAccountUrl newNonceUrl io.accountNonce io.account
  let order ← createOrder lib account domain newOrderUrl newNonceUrl io.orderNonce io.order
  let authzUrl ← Traced.lift order.firstAuthorization
  let challenge ← getDns01Challenge lib account authzUrl newNonceUrl io.authorizationNonce io.authorization
  return ⟨newNonceUrl, account, order, challenge⟩

/-- The check after the polling. -/
def checkOrder (finalOrderData : List (Text × Value)) : Except Fault Unit :=
  if (get finalOrderData "status" .null).isText "invalid" then raise (lit "Order became invalid during validation")
  else .ok ()

/-- The steps 10 and 11. -/
def issueCertificate (placed : Placed) (finalOrderData : List (Text × Value)) : Flow ACMECertificateResult := do
  Traced.lift (checkOrder finalOrderData)
  let csrDer ← Traced.lift io.csr
  let certUrl ← finalizeOrder lib placed.account placed.order.finalizeUrl csrDer placed.newNonceUrl io.finalizeNonce io.finalize io.finalPolls
  let certPem ← downloadCertificate lib placed.account certUrl placed.newNonceUrl io.certificateNonce io.certificate
  return ⟨true, some certPem, none⟩

/-- The steps from 8. -/
def completeOrder (placed : Placed) : Flow ACMECertificateResult := do
  Traced.lift io.propagation
  let _ ← respondToChallenge lib placed.account placed.challenge.challengeUrl placed.newNonceUrl io.challengeNonce io.challenge
  let finalOrderData ← pollOrderStatus lib placed.account (.str placed.order.orderUrl) placed.newNonceUrl io.polls
  issueCertificate lib io placed finalOrderData

/-- The `finally` block of a record that was set. -/
def clearing : Flow Unit :=
  (do let _ ← clearDuckdnsTxtRecord lib domain duckdnsToken io.clear).handle fun
    | .exception _ => .ok ()
    | .cancelled => .error .cancelled

/-- The steps from 7. Where the setting raises, `txt_set` is still false. -/
def proveDomain (placed : Placed) : Flow ACMECertificateResult := do
  let _ ← setDuckdnsTxtRecord lib domain duckdnsToken placed.challenge.keyAuthorizationDigest io.txt
  (completeOrder lib io placed).tryFinally (clearing lib domain duckdnsToken io)

def performDns01Flow : Flow ACMECertificateResult :=
  (placeOrder lib domain directoryUrl io >>= proveDomain lib domain duckdnsToken io).handle fun
    | .exception text => .ok ⟨false, none, some text⟩
    | .cancelled => .error .cancelled

/-- The outcome that the provisioning sees. -/
def acmeOutcome : AcmeOutcome :=
  match (performDns01Flow lib domain duckdnsToken directoryUrl io).result with
  | .ok result => .returns result
  | .error (.exception _) => .raises
  | .error .cancelled => .cancelled

end

/-! ## What the order promises -/

/-- What matters of the events. -/
inductive Milestone
  | txt (result : Bool)
  | answered
  | polled (status : Value)
  | finalized
  | cleared

def Payload.milestone : Payload → Option Milestone
  | .answer => some .answered
  | .csr _ => some .finalized
  | .termsOfServiceAgreed | .identifiers _ | .empty => none

def AcmeEvent.milestone : AcmeEvent → Option Milestone
  | .txtSet result => some (.txt result)
  | .orderStatus status => some (.polled status)
  | .sent (.post _ jws) => jws.payload.milestone
  | .sent (.clearTxt _) => some .cleared
  | .sent (.directory _) | .sent (.newNonce _) | .sent (.setTxt _) => none

def Milestone.status : Milestone → Option Value
  | .polled status => some status
  | _ => none

def Milestone.isCleared : Milestone → Bool
  | .cleared => true
  | _ => false

/-- The challenge is answered after the record was set, the order is finalized when it was found ready, and a record that
was set is cleared once. -/
structure Disciplined (milestones : List Milestone) : Prop where
  answered : At .answered milestones fun before _ => .txt true ∈ before
  finalized : At .finalized milestones fun before _ =>
    ∃ status, (before.filterMap Milestone.status).getLast? = some status ∧ status.isText "ready" = true
  cleared : At (.txt true) milestones fun _ after => after.countP Milestone.isCleared = 1

section

variable (lib : AcmeLibraries)

/-- The request succeeds, and its response can be read. -/
def Reply.Gives {α : Type} (reply : Reply) (read : HttpResponse → Except Fault α) : Prop :=
  ∃ a, reply.raiseForStatus lib >>= read = .ok a

def Reply.Succeeds (reply : Reply) : Prop := ∃ response, reply.raiseForStatus lib = .ok response

/-- The steps before the TXT record succeed. -/
structure AcmeIo.Places (io : AcmeIo) : Prop where
  directory : io.directory.Gives lib (directoryOf lib)
  accountKey : io.accountKey = .ok ()
  accountNonce : io.accountNonce.Gives lib nonceOf
  account : io.account.Gives lib accountOf
  orderNonce : io.orderNonce.Gives lib nonceOf
  order : io.order.Gives lib fun response => orderOf response >>= ACMEOrder.firstAuthorization
  authorizationNonce : io.authorizationNonce.Gives lib nonceOf
  authorization : io.authorization.Gives lib (challengeOf lib)

/-- After the TXT record, nothing keeps the flow from the challenge. -/
def AcmeIo.Answers (io : AcmeIo) : Prop := io.propagation = .ok () ∧ io.challengeNonce.Gives lib nonceOf

/-- What one round of the polling finds. -/
def Poll.read (poll : Poll) : Except Fault (List (Text × Value) × Value) := do
  let _ ← poll.nonce.raiseForStatus lib >>= nonceOf
  poll.order.raiseForStatus lib >>= statusOf

/-- The order has a status that the polling goes on with. -/
def Poll.Waits (poll : Poll) : Prop :=
  poll.sleep = .ok () ∧ ∃ data status, poll.read lib = .ok (data, status) ∧ status.isSettled = false

def Poll.Says (text : String) (poll : Poll) : Prop :=
  ∃ data status, poll.read lib = .ok (data, status) ∧ status.isText text = true

/-- The polling ends with this status. -/
def EndsWith (text : String) (attempts : Nat) (polls : Nat → Poll) : Prop :=
  ∃ n < attempts, (∀ i < n, (polls i).Waits lib) ∧ (polls n).Says lib text

/-- Nothing keeps the flow from a finalization after this data of the order. -/
def AcmeIo.Sends (io : AcmeIo) (data : List (Text × Value)) : Prop :=
  (get data "status" .null).isText "invalid" = false ∧ (∃ der, io.csr = .ok der) ∧ io.finalizeNonce.Gives lib nonceOf

/-- After its answer, nothing keeps the flow from a finalization that follows this status. -/
def AcmeIo.Finalizes (io : AcmeIo) (text : String) : Prop :=
  io.challenge.Succeeds lib ∧ EndsWith lib text ACME_MAX_POLL_ATTEMPTS io.polls ∧ (∃ der, io.csr = .ok der) ∧
    io.finalizeNonce.Gives lib nonceOf

/-- The outcomes that do no harm: where the record was not set, something else stops the flow before the answer, and so it
does before the finalization of an order that is valid already. -/
def AcmeIo.Harmless (io : AcmeIo) : Prop :=
  io.Places lib → ∀ result, io.txt.duckdns = .ok result → io.Answers lib → result = true ∧ ¬ io.Finalizes lib "valid"

end

/-! ## One step -/

theorem except_bind_ok {α β : Type} {x : Except Fault α} {f : α → Except Fault β} {b : β} (h : x >>= f = .ok b) :
    ∃ a, x = .ok a ∧ f a = .ok b := by
  cases x with
  | error => cases h
  | ok a => exact ⟨a, rfl, h⟩

section

variable {lib : AcmeLibraries} {nonceReply reply : Reply} {url newNonceUrl : Value} {kid : Option Text} {payload : Payload}
  {account : ACMEAccount}

abbrev milestones {α : Type} (x : Flow α) : List Milestone := x.marks AcmeEvent.milestone

theorem exchange_result (request : Request) : (exchange lib request reply).result = reply.raiseForStatus lib := by
  unfold exchange
  rw [Traced.result_bind]
  rfl

theorem getNonce_result : (getNonce lib newNonceUrl nonceReply).result = nonceReply.raiseForStatus lib >>= nonceOf := by
  unfold getNonce
  rw [Traced.result_bind, exchange_result]
  rfl

theorem exchange_milestones {request : Request} :
    milestones (exchange lib request reply) = ((AcmeEvent.sent request).milestone).toList := by
  unfold exchange milestones
  rw [Traced.marks_bind_ok rfl, Traced.quiet_lift, List.append_nil]
  cases h : (AcmeEvent.sent request).milestone with
  | none => exact Traced.quiet_emit h
  | some => exact Traced.marks_emit h

theorem getNonce_milestones : milestones (getNonce lib newNonceUrl nonceReply) = [] := by
  unfold getNonce
  exact Traced.quiet_bind exchange_milestones fun _ => Traced.quiet_lift _

theorem signedPost_result :
    (signedPost lib newNonceUrl url kid payload nonceReply reply).result =
      (nonceReply.raiseForStatus lib >>= nonceOf) >>= fun _ => reply.raiseForStatus lib := by
  unfold signedPost
  rw [Traced.result_bind, getNonce_result]
  simp only [exchange_result]

theorem signedPost_ok {response : HttpResponse} :
    (signedPost lib newNonceUrl url kid payload nonceReply reply).result = .ok response ↔
      nonceReply.Gives lib nonceOf ∧ reply.raiseForStatus lib = .ok response := by
  rw [signedPost_result]
  unfold Reply.Gives
  cases nonceReply.raiseForStatus lib >>= nonceOf with
  | error => simp [bind, Except.bind]
  | ok => simp [bind, Except.bind]

theorem signedPost_milestones_of_nonce (h : nonceReply.Gives lib nonceOf) :
    milestones (signedPost lib newNonceUrl url kid payload nonceReply reply) = payload.milestone.toList := by
  obtain ⟨nonce, hnonce⟩ := h
  unfold signedPost milestones
  rw [Traced.marks_bind_quiet getNonce_milestones, getNonce_result, hnonce]
  exact exchange_milestones

theorem signedPost_milestones_of_no_nonce (h : ¬ nonceReply.Gives lib nonceOf) :
    milestones (signedPost lib newNonceUrl url kid payload nonceReply reply) = [] := by
  unfold signedPost milestones
  rw [Traced.marks_bind_quiet getNonce_milestones, getNonce_result]
  split
  · rename_i nonce hnonce
    exact absurd ⟨nonce, hnonce⟩ h
  · rfl

theorem signedPost_quiet (h : payload.milestone = none) :
    milestones (signedPost lib newNonceUrl url kid payload nonceReply reply) = [] := by
  by_cases hnonce : nonceReply.Gives lib nonceOf
  · rw [signedPost_milestones_of_nonce hnonce, h]
    rfl
  · exact signedPost_milestones_of_no_nonce hnonce

theorem signedPost_returns :
    (signedPost lib newNonceUrl url kid payload nonceReply reply).Returns ↔ nonceReply.Gives lib nonceOf ∧ reply.Succeeds lib := by
  unfold Traced.Returns Reply.Succeeds
  simp only [signedPost_ok, exists_and_left]

/-- A signed request whose response is read, as the first half of the flow makes them. -/
theorem read_returns {α : Type} {read : HttpResponse → Except Fault α} :
    (signedPost lib newNonceUrl url kid payload nonceReply reply >>= fun response => Traced.lift (read response)).Returns ↔
      nonceReply.Gives lib nonceOf ∧ reply.Gives lib read := by
  rw [Traced.returns_bind]
  simp only [signedPost_ok, Traced.returns_lift]
  constructor
  · rintro ⟨response, ⟨hnonce, hreply⟩, a, hread⟩
    exact ⟨hnonce, a, by rw [hreply]; exact hread⟩
  · rintro ⟨hnonce, a, hread⟩
    obtain ⟨response, hreply, hread⟩ := except_bind_ok hread
    exact ⟨response, ⟨hnonce, hreply⟩, a, hread⟩

theorem read_quiet {α : Type} {read : HttpResponse → Except Fault α} (h : payload.milestone = none) :
    milestones (signedPost lib newNonceUrl url kid payload nonceReply reply >>= fun response => Traced.lift (read response)) = [] :=
  Traced.quiet_bind (signedPost_quiet h) fun _ => Traced.quiet_lift _

end

/-! ## The polling -/

section

variable {lib : AcmeLibraries} {account : ACMEAccount} {orderUrl newNonceUrl : Value} {attempts : Nat} {polls : Nat → Poll}
  {data : List (Text × Value)} {status : Value} {text : String}

theorem pollOrder_result :
    (pollOrder lib account orderUrl newNonceUrl (attempts + 1) polls).result =
      ((polls 0).read lib >>= fun (data, status) =>
        if status.isSettled then .ok data
        else (polls 0).sleep >>= fun _ => (pollOrder lib account orderUrl newNonceUrl attempts fun n => polls (n + 1)).result) := by
  rw [pollOrder, Traced.result_bind, signedPost_result]
  unfold Poll.read
  cases (polls 0).nonce.raiseForStatus lib >>= nonceOf with
  | error => rfl
  | ok =>
  cases (polls 0).order.raiseForStatus lib with
  | error => rfl
  | ok response =>
  cases hstatus : statusOf response with
  | error => simp [bind, Except.bind, hstatus, Traced.lift]
  | ok read =>
    simp only [bind, Except.bind, hstatus, Traced.lift, Traced.emit]
    split
    · rfl
    · cases (polls 0).sleep with
      | error => rfl
      | ok => rfl

theorem pollOrder_unread (h : ∀ read, (polls 0).read lib ≠ .ok read) :
    milestones (pollOrder lib account orderUrl newNonceUrl (attempts + 1) polls) = [] := by
  unfold milestones
  rw [pollOrder, Traced.marks_bind_quiet (signedPost_quiet rfl)]
  split
  · rename_i response hresponse
    obtain ⟨⟨nonce, hnonce⟩, horder⟩ := signedPost_ok.mp hresponse
    cases hstatus : statusOf response with
    | error => rfl
    | ok read => exact absurd (by rw [Poll.read, hnonce, horder]; exact hstatus) (h read)
  · rfl

theorem pollOrder_read (h : (polls 0).read lib = .ok (data, status)) :
    milestones (pollOrder lib account orderUrl newNonceUrl (attempts + 1) polls) =
      .polled status :: if status.isSettled then [] else
        match (polls 0).sleep with
        | .ok () => milestones (pollOrder lib account orderUrl newNonceUrl attempts fun n => polls (n + 1))
        | .error _ => [] := by
  unfold Poll.read at h
  cases hnonce : (polls 0).nonce.raiseForStatus lib >>= nonceOf with
  | error => rw [hnonce] at h; cases h
  | ok nonce =>
  cases horder : (polls 0).order.raiseForStatus lib with
  | error => rw [hnonce, horder] at h; cases h
  | ok response =>
  have hstatus : statusOf response = .ok (data, status) := by
    rw [hnonce, horder] at h
    exact h
  unfold milestones
  rw [pollOrder, Traced.marks_bind_quiet (signedPost_quiet rfl), signedPost_ok.mpr ⟨⟨nonce, hnonce⟩, horder⟩]
  dsimp only
  rw [hstatus, Traced.lift_ok_bind]
  dsimp only
  rw [Traced.marks_bind_ok rfl, Traced.marks_emit (p := AcmeEvent.milestone) rfl]
  split
  · rfl
  · cases (polls 0).sleep with
    | error => rfl
    | ok => rfl

theorem read_status {poll : Poll} (h : poll.read lib = .ok (data, status)) : status = get data "status" .null := by
  unfold Poll.read at h
  obtain ⟨nonce, -, h⟩ := except_bind_ok h
  obtain ⟨response, -, h⟩ := except_bind_ok h
  unfold statusOf at h
  obtain ⟨fields, -, h⟩ := except_bind_ok h
  cases h
  rfl

theorem pollOrder_milestones :
    ∃ statuses : List Value, milestones (pollOrder lib account orderUrl newNonceUrl attempts polls) = statuses.map .polled ∧
      ∀ data, (pollOrder lib account orderUrl newNonceUrl attempts polls).result = .ok data →
        statuses.getLast? = some (get data "status" .null) := by
  induction attempts generalizing polls with
  | zero => exact ⟨[], rfl, nofun⟩
  | succ attempts ih =>
    simp only [pollOrder_result]
    cases hread : (polls 0).read lib with
    | error => exact ⟨[], pollOrder_unread (by simp [hread]), nofun⟩
    | ok read =>
    obtain ⟨data, status⟩ := read
    rw [pollOrder_read hread]
    obtain ⟨statuses, hmarks, hlast⟩ := @ih fun n => polls (n + 1)
    by_cases hsettled : status.isSettled
    · refine ⟨[status], by simp [hsettled], ?_⟩
      rintro data' hdata
      have hsame : data = data' := by simpa [bind, Except.bind, hsettled] using hdata
      rw [← hsame, ← read_status hread]
      rfl
    · cases hsleep : (polls 0).sleep with
      | error =>
        refine ⟨[status], by simp, ?_⟩
        intro data' hdata
        simp [bind, Except.bind, hsettled] at hdata
      | ok =>
        refine ⟨status :: statuses, by simp [hsettled, hmarks], ?_⟩
        intro data' hdata
        have hrest := hlast data' (by simpa [bind, Except.bind, hsettled] using hdata)
        rw [List.getLast?_cons, hrest]
        rfl

theorem endsWith_succ : EndsWith lib text (attempts + 1) polls ↔
    (polls 0).Says lib text ∨ (polls 0).Waits lib ∧ EndsWith lib text attempts fun n => polls (n + 1) := by
  constructor
  · rintro ⟨n, hn, hwaits, hspoken⟩
    cases n with
    | zero => exact .inl hspoken
    | succ n => exact .inr ⟨hwaits 0 (by omega), n, by omega, fun i hi => hwaits (i + 1) (by omega), hspoken⟩
  · rintro (hspoken | ⟨hfirst, n, hn, hwaits, hspoken⟩)
    · exact ⟨0, by omega, nofun, hspoken⟩
    · refine ⟨n + 1, by omega, fun i hi => ?_, hspoken⟩
      cases i with
      | zero => exact hfirst
      | succ i => exact hwaits i (by omega)

/-- The status that the polling ends with, of the three that end it. -/
theorem pollOrder_ends (htext : ∀ status : Value, status.isText text = true → status.isSettled = true) :
    (∃ data, (pollOrder lib account orderUrl newNonceUrl attempts polls).result = .ok data ∧
      (get data "status" .null).isText text = true) ↔ EndsWith lib text attempts polls := by
  induction attempts generalizing polls with
  | zero =>
    constructor
    · rintro ⟨data, h, -⟩
      cases h
    · rintro ⟨n, hn, -⟩
      omega
  | succ attempts ih =>
    rw [endsWith_succ, ← ih, pollOrder_result]
    unfold Poll.Says Poll.Waits
    cases hread : (polls 0).read lib with
    | error => simp [bind, Except.bind]
    | ok read =>
      obtain ⟨data, status⟩ := read
      have hstatus := read_status hread
      by_cases hsettled : status.isSettled
      · simp [bind, Except.bind, hsettled, ← hstatus]
      · have hother : status.isText text ≠ true := fun h => hsettled (htext status h)
        cases hsleep : (polls 0).sleep with
        | error => simp [bind, Except.bind, hsettled, hother]
        | ok => simp [bind, Except.bind, hsettled, hother]

theorem pollOrder_settled (h : (pollOrder lib account orderUrl newNonceUrl attempts polls).result = .ok data) :
    (get data "status" .null).isSettled = true := by
  induction attempts generalizing polls with
  | zero => cases h
  | succ attempts ih =>
    rw [pollOrder_result] at h
    obtain ⟨⟨data', status⟩, hread, h⟩ := except_bind_ok h
    dsimp only at h
    split at h
    · rename_i hsettled
      cases h
      rwa [← read_status hread]
    · obtain ⟨-, -, h⟩ := except_bind_ok h
      exact ih h

end

/-! ## The flow -/

section

variable {lib : AcmeLibraries} {domain duckdnsToken directoryUrl : Text} {io : AcmeIo} {placed : Placed} {data : List (Text × Value)}

theorem order_returns {newNonceUrl newOrderUrl : Value} {account : ACMEAccount} {rest : ACMEOrder → Value → Flow Placed} {P : Prop}
    (hrest : ∀ order authzUrl, (rest order authzUrl).Returns ↔ P) :
    (createOrder lib account domain newOrderUrl newNonceUrl io.orderNonce io.order >>= fun order =>
        Traced.lift order.firstAuthorization >>= fun authzUrl => rest order authzUrl).Returns ↔
      (io.orderNonce.Gives lib nonceOf ∧ io.order.Gives lib fun response => orderOf response >>= ACMEOrder.firstAuthorization) ∧ P := by
  have hauthz : ∀ order, (Traced.lift order.firstAuthorization >>= fun authzUrl => rest order authzUrl).Returns ↔
      (∃ authzUrl, order.firstAuthorization = .ok authzUrl) ∧ P := fun order => Traced.returns_bind_iff fun authzUrl => hrest order authzUrl
  unfold createOrder Reply.Gives
  simp only [Traced.returns_bind, Traced.bind_eq_ok, signedPost_ok, hauthz]
  constructor
  · rintro ⟨order, ⟨response, ⟨hnonce, hreply⟩, horder⟩, ⟨authzUrl, hfirst⟩, hP⟩
    refine ⟨⟨hnonce, authzUrl, ?_⟩, hP⟩
    have horder' : orderOf response = .ok order := horder
    rw [hreply]
    change (orderOf response >>= ACMEOrder.firstAuthorization) = _
    rw [horder']
    exact hfirst
  · rintro ⟨⟨hnonce, authzUrl, h⟩, hP⟩
    obtain ⟨response, hreply, h⟩ := except_bind_ok h
    obtain ⟨order, horder, hfirst⟩ := except_bind_ok h
    exact ⟨order, ⟨response, ⟨hnonce, hreply⟩, horder⟩, ⟨authzUrl, hfirst⟩, hP⟩

theorem directory_returns : (getAcmeDirectory lib directoryUrl io.directory).Returns ↔ io.directory.Gives lib (directoryOf lib) := by
  unfold getAcmeDirectory Traced.Returns
  simp only [Traced.result_bind, exchange_result]
  rfl

theorem placeOrder_returns : (placeOrder lib domain directoryUrl io).Returns ↔ io.Places lib := by
  have hchallenge : ∀ newNonceUrl account order authzUrl,
      (getDns01Challenge lib account authzUrl newNonceUrl io.authorizationNonce io.authorization >>= fun challenge =>
        (pure ⟨newNonceUrl, account, order, challenge⟩ : Flow Placed)).Returns ↔
      (io.authorizationNonce.Gives lib nonceOf ∧ io.authorization.Gives lib (challengeOf lib)) ∧ True := fun _ _ _ _ =>
    (Traced.returns_bind_iff fun _ => iff_true_intro Traced.returns_pure).trans (and_congr_left' read_returns)
  have haccount : ∀ newAccountUrl newNonceUrl : Value,
      (registerAccount lib newAccountUrl newNonceUrl io.accountNonce io.account).Returns ↔
        io.accountNonce.Gives lib nonceOf ∧ io.account.Gives lib accountOf := fun _ _ => read_returns
  unfold placeOrder
  refine (Traced.returns_bind_iff
    (P := (∃ done, io.accountKey = .ok done) ∧ (io.accountNonce.Gives lib nonceOf ∧ io.account.Gives lib accountOf) ∧
      (io.orderNonce.Gives lib nonceOf ∧ io.order.Gives lib fun response => orderOf response >>= ACMEOrder.firstAuthorization) ∧
        (io.authorizationNonce.Gives lib nonceOf ∧ io.authorization.Gives lib (challengeOf lib)) ∧ True)
    fun directory => Traced.returns_bind_iff fun _ => ?_).trans ?_
  · rw [← haccount]
    exact Traced.returns_bind_iff fun account => order_returns fun order authzUrl => hchallenge _ account order authzUrl
  rw [directory_returns]
  constructor
  · rintro ⟨hdirectory, ⟨⟨⟩, hkey⟩, ⟨h1, h2⟩, ⟨h3, h4⟩, ⟨h5, h6⟩, -⟩
    exact ⟨hdirectory, hkey, h1, h2, h3, h4, h5, h6⟩
  · rintro ⟨hdirectory, hkey, h1, h2, h3, h4, h5, h6⟩
    exact ⟨hdirectory, ⟨(), hkey⟩, ⟨h1, h2⟩, ⟨h3, h4⟩, ⟨h5, h6⟩, trivial⟩

theorem placeOrder_quiet : milestones (placeOrder lib domain directoryUrl io) = [] := by
  unfold placeOrder
  refine Traced.quiet_bind (Traced.quiet_bind exchange_milestones fun _ => Traced.quiet_lift _) fun directory => ?_
  refine Traced.quiet_bind (Traced.quiet_lift _) fun _ => ?_
  refine Traced.quiet_bind (read_quiet rfl) fun account => ?_
  refine Traced.quiet_bind (read_quiet rfl) fun order => ?_
  refine Traced.quiet_bind (Traced.quiet_lift _) fun authzUrl => ?_
  exact Traced.quiet_bind (read_quiet rfl) fun challenge => Traced.quiet_pure _

/-- Nothing but polled statuses. -/
def OnlyPolls {α : Type} (x : Flow α) : Prop := ∃ statuses : List Value, milestones x = statuses.map .polled

theorem OnlyPolls.of_quiet {α : Type} {x : Flow α} (h : milestones x = []) : OnlyPolls x := ⟨[], h⟩

theorem OnlyPolls.bind {α β : Type} {x : Flow α} {f : α → Flow β} (hx : OnlyPolls x) (hf : ∀ a, OnlyPolls (f a)) :
    OnlyPolls (x >>= f) := by
  obtain ⟨statuses, hx⟩ := hx
  unfold OnlyPolls milestones
  cases h : x.result with
  | error => exact ⟨statuses, by rw [Traced.marks_bind_error h]; exact hx⟩
  | ok a =>
    obtain ⟨more, hf⟩ := hf a
    refine ⟨statuses ++ more, ?_⟩
    rw [Traced.marks_bind_ok h, List.map_append, ← hx, ← hf]

theorem pollOrderStatus_onlyPolls {account : ACMEAccount} {orderUrl newNonceUrl : Value} {polls : Nat → Poll} :
    OnlyPolls (pollOrderStatus lib account orderUrl newNonceUrl polls) := by
  obtain ⟨statuses, h, -⟩ := @pollOrder_milestones lib account orderUrl newNonceUrl ACME_MAX_POLL_ATTEMPTS polls
  exact ⟨statuses, h⟩

section Finalization

variable {account : ACMEAccount} {finalizeUrl newNonceUrl : Value} {csrDer : Bytes} {nonceReply reply : Reply} {polls : Nat → Poll}

theorem finalizeOrder_unsent (h : ¬ nonceReply.Gives lib nonceOf) :
    milestones (finalizeOrder lib account finalizeUrl csrDer newNonceUrl nonceReply reply polls) = [] := by
  unfold finalizeOrder milestones
  rw [Traced.marks_bind_of_not_returns fun hreturns => h (signedPost_returns.mp hreturns).1]
  exact signedPost_milestones_of_no_nonce h

theorem settleOrder_onlyPolls (response : HttpResponse) :
    OnlyPolls (settleOrder lib account finalizeUrl newNonceUrl response polls) := by
  unfold settleOrder
  refine .bind (.of_quiet (Traced.quiet_lift _)) fun read => ?_
  dsimp only
  split
  · exact pollOrderStatus_onlyPolls
  · exact .of_quiet (Traced.quiet_pure _)

theorem finalizeOrder_sent (h : nonceReply.Gives lib nonceOf) :
    ∃ finals : List Value, milestones (finalizeOrder lib account finalizeUrl csrDer newNonceUrl nonceReply reply polls) =
      .finalized :: finals.map .polled := by
  have hpost : Traced.marks AcmeEvent.milestone
      (signedPost lib newNonceUrl finalizeUrl account.accountUrl (.csr (b64url csrDer)) nonceReply reply) = [.finalized] :=
    signedPost_milestones_of_nonce h
  unfold finalizeOrder milestones
  cases hresult : (signedPost lib newNonceUrl finalizeUrl account.accountUrl (.csr (b64url csrDer)) nonceReply reply).result with
  | error => exact ⟨[], by rw [Traced.marks_bind_error hresult]; exact hpost⟩
  | ok response =>
    obtain ⟨finals, hfinals⟩ := OnlyPolls.bind (@settleOrder_onlyPolls lib account finalizeUrl newNonceUrl polls response)
      fun data => .of_quiet (Traced.quiet_lift (certificateUrlOf lib data))
    refine ⟨finals, ?_⟩
    rw [Traced.marks_bind_ok hresult, hpost]
    exact congrArg (Milestone.finalized :: ·) hfinals

end Finalization

theorem downloadCertificate_quiet {account : ACMEAccount} {certificateUrl newNonceUrl : Value} {nonceReply reply : Reply} :
    milestones (downloadCertificate lib account certificateUrl newNonceUrl nonceReply reply) = [] :=
  Traced.quiet_bind (signedPost_quiet rfl) fun _ => Traced.quiet_pure _

/-- The finalization of an order, and the download after it. -/
theorem issueCertificate_milestones {der : Bytes} (hstatus : (get data "status" .null).isText "invalid" = false) (hcsr : io.csr = .ok der) :
    milestones (issueCertificate lib io placed data) =
      milestones (finalizeOrder lib placed.account placed.order.finalizeUrl der placed.newNonceUrl io.finalizeNonce io.finalize io.finalPolls) := by
  unfold issueCertificate checkOrder milestones
  simp only [hstatus, hcsr, Bool.false_eq_true, if_false, Traced.lift_ok_bind]
  exact Traced.marks_bind_of_quiet fun certUrl => Traced.quiet_bind downloadCertificate_quiet fun _ => Traced.quiet_pure _

theorem issueCertificate_sent (h : io.Sends lib data) :
    ∃ finals : List Value, milestones (issueCertificate lib io placed data) = .finalized :: finals.map .polled := by
  obtain ⟨hstatus, ⟨der, hcsr⟩, hnonce⟩ := h
  rw [issueCertificate_milestones hstatus hcsr]
  exact finalizeOrder_sent hnonce

theorem issueCertificate_unsent (h : ¬ io.Sends lib data) : milestones (issueCertificate lib io placed data) = [] := by
  cases hstatus : (get data "status" .null).isText "invalid" with
  | true =>
    unfold issueCertificate checkOrder
    rw [if_pos hstatus]
    rfl
  | false =>
    cases hcsr : io.csr with
    | error =>
      unfold issueCertificate checkOrder
      rw [hstatus, hcsr]
      rfl
    | ok der =>
      rw [issueCertificate_milestones hstatus hcsr]
      exact finalizeOrder_unsent fun hnonce => h ⟨hstatus, ⟨der, hcsr⟩, hnonce⟩

theorem isText_unique {status : Value} {a b : String} (ha : status.isText a = true) (hb : status.isText b = true) : lit a = lit b := by
  unfold Value.isText at ha hb
  cases status with
  | str s =>
    rw [beq_iff_eq] at ha hb
    rw [← ha, ← hb]
  | _ => cases ha

theorem respondToChallenge_returns {account : ACMEAccount} {challengeUrl newNonceUrl : Value} {nonceReply reply : Reply} :
    (respondToChallenge lib account challengeUrl newNonceUrl nonceReply reply).Returns ↔
      nonceReply.Gives lib nonceOf ∧ reply.Succeeds lib := by
  unfold respondToChallenge
  rw [Traced.returns_bind_iff fun _ => iff_true_intro Traced.returns_pure, and_true, signedPost_returns]

theorem respondToChallenge_milestones {account : ACMEAccount} {challengeUrl newNonceUrl : Value} {nonceReply reply : Reply} :
    milestones (respondToChallenge lib account challengeUrl newNonceUrl nonceReply reply) =
      milestones (signedPost lib newNonceUrl challengeUrl account.accountUrl .answer nonceReply reply) :=
  Traced.marks_bind_of_quiet fun _ => Traced.quiet_pure _

theorem completeOrder_silent (h : ¬ io.Answers lib) : milestones (completeOrder lib io placed) = [] := by
  unfold completeOrder milestones
  cases hpropagation : io.propagation with
  | error => rfl
  | ok =>
    have hnonce : ¬ io.challengeNonce.Gives lib nonceOf := fun hnonce => h ⟨hpropagation, hnonce⟩
    rw [Traced.lift_ok_bind, Traced.marks_bind_of_not_returns fun hreturns => hnonce (respondToChallenge_returns.mp hreturns).1]
    exact respondToChallenge_milestones.trans (signedPost_milestones_of_no_nonce hnonce)

/-- The milestones from the challenge on, less those of the finalization. -/
def answering (statuses : List Value) : List Milestone := .answered :: statuses.map .polled

/-- The flow answers the challenge. What comes after it is a finalization or not. -/
theorem completeOrder_answers (h : io.Answers lib) :
    (∃ statuses, milestones (completeOrder lib io placed) = answering statuses ∧ ¬ io.Finalizes lib "valid") ∨
    ∃ (statuses : List Value) (status : Value) (finals : List Value),
      milestones (completeOrder lib io placed) = answering statuses ++ .finalized :: finals.map .polled ∧
        statuses.getLast? = some status ∧ (status.isText "ready" = true ↔ ¬ io.Finalizes lib "valid") := by
  obtain ⟨hpropagation, hnonce⟩ := h
  have hanswer : Traced.marks AcmeEvent.milestone
      (respondToChallenge lib placed.account placed.challenge.challengeUrl placed.newNonceUrl io.challengeNonce io.challenge) =
        [.answered] := respondToChallenge_milestones.trans (signedPost_milestones_of_nonce hnonce)
  obtain ⟨statuses, hpolls, hlast⟩ :=
    @pollOrder_milestones lib placed.account (.str placed.order.orderUrl) placed.newNonceUrl ACME_MAX_POLL_ATTEMPTS io.polls
  have hvalid := @pollOrder_ends lib placed.account (.str placed.order.orderUrl) placed.newNonceUrl ACME_MAX_POLL_ATTEMPTS io.polls
    "valid" fun status hstatus => by simp [Value.isSettled, hstatus]
  unfold completeOrder milestones
  rw [hpropagation, Traced.lift_ok_bind]
  by_cases hchallenge : io.challenge.Succeeds lib
  · obtain ⟨answer, hrespond⟩ := respondToChallenge_returns.mpr ⟨hnonce, hchallenge⟩
    rw [Traced.marks_bind_ok hrespond, hanswer]
    unfold pollOrderStatus
    cases hpoll : (pollOrder lib placed.account (.str placed.order.orderUrl) placed.newNonceUrl ACME_MAX_POLL_ATTEMPTS io.polls).result with
    | error =>
      refine .inl ⟨statuses, ?_, fun hfinalizes => ?_⟩
      · rw [Traced.marks_bind_error hpoll]
        exact congrArg (Milestone.answered :: ·) hpolls
      · obtain ⟨data, hdata, -⟩ := hvalid.mpr hfinalizes.2.1
        rw [hpoll] at hdata
        cases hdata
    | ok data =>
      have hstatus := hlast data hpoll
      have hfound : EndsWith lib "valid" ACME_MAX_POLL_ATTEMPTS io.polls → (get data "status" .null).isText "valid" = true := by
        intro hends
        obtain ⟨data', hdata, htext⟩ := hvalid.mpr hends
        rw [hpoll, Except.ok.injEq] at hdata
        rwa [hdata]
      rw [Traced.marks_bind_ok hpoll]
      by_cases hsends : io.Sends lib data
      · obtain ⟨finals, hissue⟩ := @issueCertificate_sent lib io placed data hsends
        refine .inr ⟨statuses, get data "status" .null, finals, ?_, hstatus, ?_⟩
        · exact congrArg (Milestone.answered :: ·) (congrArg₂ (· ++ ·) hpolls hissue)
        · constructor
          · intro hready hfinalizes
            exact absurd (isText_unique hready (hfound hfinalizes.2.1)) (by decide)
          · intro hnot
            have hsettled := pollOrder_settled hpoll
            unfold Value.isSettled at hsettled
            rw [hsends.1, Bool.or_false, Bool.or_eq_true] at hsettled
            exact hsettled.resolve_right fun h => hnot ⟨hchallenge, hvalid.mp ⟨data, hpoll, h⟩, hsends.2⟩
      · refine .inl ⟨statuses, ?_, fun hfinalizes => hsends ⟨?_, hfinalizes.2.2⟩⟩
        · have htail := congrArg₂ (· ++ ·) hpolls (@issueCertificate_unsent lib io placed data hsends)
          exact congrArg (Milestone.answered :: ·) (htail.trans (List.append_nil _))
        · have hnot : (get data "status" .null).isText "invalid" ≠ true := fun h =>
            absurd (isText_unique h (hfound hfinalizes.2.1)) (by decide)
          exact Bool.eq_false_iff.mpr hnot
  · refine .inl ⟨[], ?_, fun hfinalizes => hchallenge hfinalizes.1⟩
    rw [Traced.marks_bind_of_not_returns fun hreturns => hchallenge (respondToChallenge_returns.mp hreturns).2]
    exact hanswer

/-! ## The milestones of a record that was set -/

theorem clearing_milestones : milestones (clearing lib domain duckdnsToken io) = [.cleared] := by
  unfold clearing milestones
  rw [Traced.marks_handle]
  refine (Traced.marks_bind_of_quiet fun _ => Traced.quiet_pure _).trans ?_
  unfold clearDuckdnsTxtRecord
  exact (Traced.marks_bind_of_quiet fun _ => Traced.quiet_lift _).trans (Traced.marks_emit (p := AcmeEvent.milestone) rfl)

theorem disciplined_nil : Disciplined [] := ⟨at_of_notMem (by simp), at_of_notMem (by simp), at_of_notMem (by simp)⟩

/-- A record, what the flow does after it, and its clearing. -/
def cleared (result : Bool) (body : List Milestone) : List Milestone := .txt result :: body ++ [.cleared]

theorem at_txt {result : Bool} {body : List Milestone} (hbody : .txt true ∉ body) (hclear : body.countP Milestone.isCleared = 0) :
    At (.txt true) (cleared result body) fun _ after => after.countP Milestone.isCleared = 1 := by
  unfold cleared
  cases result with
  | false => exact at_of_notMem (by simpa using hbody)
  | true =>
    refine (at_once (by simp) (by simpa using hbody) : At (.txt true) ([] ++ Milestone.txt true :: (body ++ [.cleared])) _ ↔ _).mpr ?_
    exact (List.countP_append ..).trans (by rw [hclear]; rfl)

theorem at_answered {result : Bool} {body : List Milestone} (h : .answered ∉ body) :
    At .answered (cleared result (.answered :: body)) (fun before _ => .txt true ∈ before) ↔ result = true := by
  refine (at_once (by simp) (by simpa using h) : At .answered ([Milestone.txt result] ++ .answered :: (body ++ [.cleared])) _ ↔ _).trans ?_
  simp [eq_comm]

theorem disciplined_silent (result : Bool) : Disciplined (cleared result []) :=
  ⟨at_of_notMem (by simp [cleared]), at_of_notMem (by simp [cleared]), at_txt (by simp) rfl⟩

theorem disciplined_answering {result : Bool} {statuses : List Value} :
    Disciplined (cleared result (answering statuses)) ↔ result = true := by
  constructor
  · intro h
    exact (at_answered (by simp)).mp h.answered
  · intro h
    exact ⟨(at_answered (by simp)).mpr h, at_of_notMem (by simp [cleared, answering]), at_txt (by simp [answering]) (by simp [answering, Milestone.isCleared])⟩

theorem disciplined_finalized {result : Bool} {statuses finals : List Value} {status : Value} (hlast : statuses.getLast? = some status) :
    Disciplined (cleared result (answering statuses ++ .finalized :: finals.map .polled)) ↔
      result = true ∧ status.isText "ready" = true := by
  have hbody : cleared result (answering statuses ++ .finalized :: finals.map .polled) =
      (.txt result :: answering statuses) ++ .finalized :: (finals.map .polled ++ [.cleared]) := by
    simp [cleared]
  have hfinalized : At .finalized (cleared result (answering statuses ++ .finalized :: finals.map .polled)) (fun before _ =>
      ∃ status, (before.filterMap Milestone.status).getLast? = some status ∧ status.isText "ready" = true) ↔
        status.isText "ready" = true := by
    rw [hbody]
    refine (at_once (by simp [answering]) (by simp)).trans ?_
    have hstatuses : (Milestone.txt result :: answering statuses).filterMap Milestone.status = statuses := by
      refine (List.filterMap_map (f := Milestone.polled)).trans ?_
      exact List.filterMap_some
    simp [hstatuses, hlast]
  have hanswered : At .answered (cleared result (answering statuses ++ .finalized :: finals.map .polled))
      (fun before _ => .txt true ∈ before) ↔ result = true := at_answered (by simp)
  constructor
  · intro h
    exact ⟨hanswered.mp h.answered, hfinalized.mp h.finalized⟩
  · rintro ⟨hresult, hready⟩
    exact ⟨hanswered.mpr hresult, hfinalized.mpr hready, at_txt (by simp [answering]) (by simp [answering, Milestone.isCleared])⟩

theorem proveDomain_milestones {result : Bool} (h : io.txt.duckdns = .ok result) :
    milestones (proveDomain lib domain duckdnsToken io placed) = cleared result (milestones (completeOrder lib io placed)) := by
  have hset : setDuckdnsTxtRecord lib domain duckdnsToken placed.challenge.keyAuthorizationDigest io.txt =
      ⟨[.sent (.setTxt (updateUrl lib domain duckdnsToken ++ lit "&txt=" ++ placed.challenge.keyAuthorizationDigest)), .txtSet result],
        .ok result⟩ := by
    unfold setDuckdnsTxtRecord
    rw [h]
    rfl
  unfold proveDomain milestones
  rw [hset, Traced.marks_bind_ok rfl, Traced.marks_tryFinally]
  exact congrArg (Milestone.txt result :: Traced.marks AcmeEvent.milestone (completeOrder lib io placed) ++ ·) clearing_milestones

theorem proveDomain_unset {fault : Fault} (h : io.txt.duckdns = .error fault) :
    milestones (proveDomain lib domain duckdnsToken io placed) = [] := by
  unfold proveDomain setDuckdnsTxtRecord
  rw [h]
  rfl

/-- **When an order is disciplined.** The challenge is answered only after the record was set, the order is finalized only
when it was found ready, and a record that was set is cleared once, exactly if a record that could not be set, or an order
that is valid already, meets another failure before it does harm. -/
theorem disciplined_iff :
    Disciplined (milestones (performDns01Flow lib domain duckdnsToken directoryUrl io)) ↔ io.Harmless lib := by
  have hflow : milestones (performDns01Flow lib domain duckdnsToken directoryUrl io) =
      Traced.marks AcmeEvent.milestone (placeOrder lib domain directoryUrl io >>= proveDomain lib domain duckdnsToken io) :=
    Traced.marks_handle _
  unfold AcmeIo.Harmless
  rw [hflow, Traced.marks_bind_quiet placeOrder_quiet, ← @placeOrder_returns lib domain directoryUrl io]
  unfold Traced.Returns
  cases (placeOrder lib domain directoryUrl io).result with
  | error => exact ⟨fun _ => nofun, fun _ => disciplined_nil⟩
  | ok placed =>
  cases htxt : io.txt.duckdns with
  | error =>
    have hmarks : Traced.marks AcmeEvent.milestone (proveDomain lib domain duckdnsToken io placed) = [] := proveDomain_unset htxt
    dsimp only
    rw [hmarks]
    exact ⟨fun _ _ => nofun, fun _ => disciplined_nil⟩
  | ok result =>
    have hmarks : Traced.marks AcmeEvent.milestone (proveDomain lib domain duckdnsToken io placed) =
        cleared result (milestones (completeOrder lib io placed)) := proveDomain_milestones htxt
    dsimp only
    rw [hmarks]
    simp only [Except.ok.injEq, exists_eq', forall_const, forall_eq']
    by_cases hanswers : io.Answers lib
    · rcases @completeOrder_answers lib io placed hanswers with ⟨statuses, hmarks, hnot⟩ | ⟨statuses, status, finals, hmarks, hlast, hready⟩
      · rw [hmarks, disciplined_answering]
        exact ⟨fun h _ => ⟨h, hnot⟩, fun h => (h hanswers).1⟩
      · rw [hmarks, disciplined_finalized hlast, hready]
        exact ⟨fun h _ => h, fun h => h hanswers⟩
    · rw [completeOrder_silent hanswers]
      exact ⟨fun _ h => absurd h hanswers, fun _ => disciplined_silent result⟩

/-- The flow does not raise: it returns a failure, or it is cancelled. -/
theorem acmeOutcome_ne_raises : acmeOutcome lib domain duckdnsToken directoryUrl io ≠ .raises := by
  unfold acmeOutcome performDns01Flow Traced.handle
  cases (placeOrder lib domain directoryUrl io >>= proveDomain lib domain duckdnsToken io).result with
  | ok => simp
  | error fault =>
    cases fault with
    | exception => simp
    | cancelled => simp

end

/-! ## A record that is not set -/

def sampleLibraries : AcmeLibraries where
  str
    | .str s => s
    | v => v.typeName
  dict := Value.fields
  lower t := t.map Char.toLower
  encodeAscii t := .ok (t.map fun c => UInt8.ofNat c.toNat)
  sha256 _ := [44, 251, 8, 193, 58, 59, 163, 192, 104, 27, 79, 175, 140, 44, 134, 64, 96, 86, 73, 82, 15, 196, 143, 162, 253, 125, 247, 233,
    229, 14, 65, 154]
  statusError _ := lit "Server error"
  thumbprint := lit "9jg46WB3rR_AHD-EBXdN7cBkH1WOu0tA3M9fm21mqTI"

def textOf (s : String) : Value := .str (lit s)

/-- A reply of the certificate authority, with a nonce and a location. -/
def replyOf (location : String) (fields : List (String × Value)) : Reply :=
  .received ⟨200, some (lit location), some (lit "oFvnlFP1wIhRlYS2jTaXbA"), .ok (.dict (fields.map fun field => (lit field.1, field.2))), [], []⟩

def updateReply (text : String) : Reply := .received ⟨200, none, none, raise [], lit text, []⟩

/-- Every call succeeds, but DuckDNS says `KO` to the TXT record. -/
def refusedIo : AcmeIo where
  directory := replyOf "" [("newNonce", textOf "https://ca/nonce"), ("newAccount", textOf "https://ca/account"),
    ("newOrder", textOf "https://ca/order")]
  accountKey := .ok ()
  accountNonce := replyOf "" []
  account := replyOf "https://ca/account/1" []
  orderNonce := replyOf "" []
  order := replyOf "https://ca/order/1" [("authorizations", .list [textOf "https://ca/authz/1"]), ("finalize", textOf "https://ca/finalize/1")]
  authorizationNonce := replyOf "" []
  authorization := replyOf "" [("challenges", .list [.dict [(lit "type", textOf "dns-01"), (lit "url", textOf "https://ca/challenge/1"),
    (lit "token", textOf "LoqXcYV8q5ONbJQxbmR7SCTNo3tiAXDfowyjxAjEuX0")]])]
  txt := updateReply "KO"
  propagation := .ok ()
  challengeNonce := replyOf "" []
  challenge := replyOf "" []
  polls _ := ⟨replyOf "" [], replyOf "" [("status", textOf "ready")], .ok ()⟩
  csr := .ok [48, 130]
  finalizeNonce := replyOf "" []
  finalize := replyOf "https://ca/order/1" [("status", textOf "valid"), ("certificate", textOf "https://ca/certificate/1")]
  finalPolls _ := ⟨replyOf "" [], replyOf "" [("status", textOf "valid")], .ok ()⟩
  certificateNonce := replyOf "" []
  certificate := replyOf "" []
  clear := updateReply "OK"

/-- The challenge is answered although the record was not set. -/
theorem unset_record_answered :
    ¬ ∀ (lib : AcmeLibraries) (domain duckdnsToken directoryUrl : Text) (io : AcmeIo),
      Disciplined (milestones (performDns01Flow lib domain duckdnsToken directoryUrl io)) := by
  intro h
  have hflow : milestones (performDns01Flow sampleLibraries (lit "pal.duckdns.org") (lit "duck-token") (lit "https://ca/directory") refusedIo) =
      [.txt false] ++ .answered :: [.polled (textOf "ready"), .finalized, .cleared] := rfl
  have hbefore := (h _ _ _ _ _).answered _ _ hflow
  simp at hbefore

end Palworld.Tls
