import Klaxon.Dispatch.Delivery
import Klaxon.Json.Printer
import Klaxon.Text.Truncation

/-!
# Requests over HTTP

Transports post JSON. `Http.Response.outcome` reads the outcome of an attempt off an answer: a
success gives a receipt, 429 and server errors an error that may pass, and everything else a
refusal. A request that cannot be sent, or that gets no answer, is an HTTP error.
-/

namespace Klaxon

namespace Http

/-- A request to be posted. -/
structure Request where
  url : String
  /-- Names and values, in the order of writing. -/
  headers : List (String × String)
  body : String
  deriving DecidableEq

/-- An answer. -/
structure Response where
  status : UInt16
  body : String
  deriving DecidableEq

/-- Whether a character can stand in the name of a header. -/
def isTokenChar (c : Char) : Bool :=
  c.isAlphanum || "!#$%&'*+-.^_`|~".toList.contains c

/-- Whether a text can be the name of a header. -/
def isHeaderName (name : String) : Bool := !name.isEmpty && name.toList.all isTokenChar

/-- Whether a text can be the value of a header. -/
def isHeaderValue (value : String) : Bool :=
  value.toList.all fun c => c == '\t' || (0x20 ≤ c.toNat && c.toNat != 0x7F)

/-- Whether a text is a port, or none is given. -/
def isPort (port : List Char) : Bool :=
  port.all Char.isDigit && port.foldl (fun n c => n * 10 + (c.toNat - '0'.toNat)) 0 < 65536

/-- Whether a text is a host, and a port behind a colon. -/
def isAuthority (authority : List Char) : Bool :=
  let host := authority.takeWhile (· != ':')
  !host.isEmpty && isPort (authority.drop (host.length + 1)) &&
    host.all fun c => !(" <>[]^|%\\\"".toList.contains c)

/-- The scheme and what is behind the two slashes of a web address. -/
def webAddress? (url : String) : Option (String × List Char) :=
  let cs := url.toList
  let scheme := (cs.takeWhile (· != ':')).map Char.toLower
  match cs.drop scheme.length with
  | ':' :: '/' :: '/' :: rest =>
    let scheme := String.ofList scheme
    if scheme == "http" || scheme == "https" then some (scheme, rest) else none
  | _ => none

/-- A web address in its normal form: small letters in scheme and host, and at least a slash behind
them. -/
def normalUrl? (url : String) : Option String :=
  (webAddress? url).bind fun (scheme, rest) =>
    let authority := rest.takeWhile fun c => c != '/' && c != '?' && c != '#'
    let behind := (rest.drop authority.length).takeWhile (· != '#')
    -- A user in front of the host is not sent as part of the address.
    let user := authority.takeWhile (· != '@')
    let host :=
      if user.length < authority.length then authority.drop (user.length + 1) else authority
    if isAuthority host then
      let path := if behind.head? == some '/' then behind else '/' :: behind
      some (scheme ++ "://" ++ String.ofList (host.map Char.toLower ++ path))
    else none

/-- The request as it goes out, if it can. -/
def Request.outgoing? (r : Request) : Option Request :=
  if r.headers.all fun h => isHeaderName h.1 && isHeaderValue h.2 then
    (normalUrl? r.url).map fun url =>
      { r with
        url
        headers := r.headers.map fun h => (String.ofList (h.1.toList.map Char.toLower), h.2) }
  else none

/-- A request that posts JSON. -/
def Request.json (url : String) (headers : List (String × String)) (body : Json) : Request :=
  ⟨url, headers ++ [("content-type", "application/json")], body.render⟩

/-- Whether a status says that the request was served. -/
def isSuccess (status : UInt16) : Bool := 200 ≤ status && status < 300

/-- Whether a status says that the request may be served later. -/
def mayPass (status : UInt16) : Bool := status == 429 || (500 ≤ status && status < 600)

/-- What is kept of the body of an answer. -/
def Response.keptBody (r : Response) : String := Text.truncate r.body Text.maxKeptBytes

/-- The receipt for an answer. -/
def Response.receipt (r : Response) : Receipt :=
  ⟨some r.status, if r.keptBody.isEmpty then none else some r.keptBody⟩

/-- The outcome that an answer of a service stands for. -/
def Response.outcome (r : Response) (service : String) : Except DispatchError Receipt :=
  if isSuccess r.status then .ok r.receipt
  else if mayPass r.status then .error (.api service r.status r.keptBody)
  else
    .error (.rejected (service ++ " returned HTTP " ++ toString r.status.toNat ++ ": " ++
      r.keptBody))

end Http

end Klaxon
