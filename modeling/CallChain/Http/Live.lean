import CallChain.Http.Url
import CallChain.Json.Reader
import CallChain.Service
import CallChain.Text.Lossy

/-!
# Live services

A live service is rooted at an address. A call becomes a message; what comes back is read as JSON
if it is JSON and kept as text if it is not.

* `LiveService`: a service and what it does with messages.
* `LiveService.url`: the address that a call is made to.
* `Message`: what is sent.
* `Response.ofBytes`: what an answer says.
* `LiveService.answer`, `LiveService.connection`: one call.
-/

set_option autoImplicit false

namespace CallChain

/-- **What is sent**: a request line, the type of the content and the content. -/
structure Message where
  method : Method
  authority : String
  target : String
  contentType? : Option String := none
  content : String := ""
deriving DecidableEq, Repr, Inhabited

/-- The first line of a message. -/
def Message.line (m : Message) : String := m.method.text ++ " " ++ m.target ++ " HTTP/1.1"

/-- **A service at an address.** `exchange` gives the status and the content that it answers a
message with, or says why no answer came. -/
structure LiveService where
  base : String
  exchange : Message → Except String (UInt16 × ByteArray)

/-! ### Answers -/

/-- Whether an answer has no content whatever follows it. -/
def Response.isBodiless (method : Method) (status : UInt16) : Bool :=
  method == .head || status == 204 || status == 304

/-- **What the content of an answer says**: nothing is null, JSON is its value, and anything else
is its text. -/
def Response.bodyOfBytes (bytes : ByteArray) : Json :=
  if bytes.isEmpty then .null
  else
    match (String.fromUTF8? bytes).map Json.read with
    | some (.ok j) => j
    | _ => .str (Text.ofBytes bytes)

/-- An answer to a message of a method. -/
def Response.ofBytes (method : Method) (status : UInt16) (bytes : ByteArray) : Response :=
  ⟨status, if Response.isBodiless method status then .null else Response.bodyOfBytes bytes⟩

/-! ### Calls -/

/-- An address without the slashes at its end. -/
def trimSlashes (base : String) : String :=
  String.ofList (base.toList.reverse.dropWhile (· = '/')).reverse

namespace LiveService

/-- **The address that a call is made to**, before it is brought into its normal form. -/
def url (s : LiveService) (r : Request) : String := trimSlashes s.base ++ r.path

/-- The message of a call, if its address is one. A body is sent as JSON. -/
def message? (s : LiveService) (r : Request) : Option Message := do
  let u ← Url.parse? (s.url r)
  let u := u.withPairs r.query
  return {
    method := r.method
    authority := u.authority
    target := u.target
    contentType? := r.body.map (fun _ => "application/json")
    content := (r.body.map Json.compact).getD "" }

/-- **Answers a call**, or says why no answer came. -/
def answer (s : LiveService) (r : Request) : Except String Response :=
  match s.message? r with
  | none => .error "builder error"
  | some m =>
    match s.exchange m with
    | .error reason => .error reason
    | .ok (status, bytes) => .ok (.ofBytes r.method status bytes)

/-- A live service as sessions see it; waiting for it takes no simulated time. -/
def connection (s : LiveService) : Connection := fun _ r => do
  modify (fun t => { t with requests := t.requests ++ [r] })
  return s.answer r

end LiveService

end CallChain
