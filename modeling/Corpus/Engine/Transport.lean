/-
Corpus/Engine/Transport.lean

Requests to a search server and what comes back of them.  A transport carries one request at
a time; it has a state of its own, so that it may answer the same request differently the
next time.
-/
import Corpus.Json.Value
import Corpus.Time.Span

namespace Corpus

/-- What a request asks for. -/
inductive HttpMethod where
  | get
  | post
  | put
  deriving DecidableEq, Repr

/-- A request. -/
structure HttpRequest where
  method : HttpMethod
  url : String
  /-- The key sent along to be let in. -/
  key : Option String
  /-- What is sent as JSON. -/
  body : Option Json.Value

/-- An answer. -/
structure HttpResponse where
  status : Nat
  body : Bytes
  deriving DecidableEq, Repr

namespace HttpResponse

/-- The request was carried out. -/
def isSuccess (r : HttpResponse) : Bool := 200 ≤ r.status && r.status < 300

/-- The body as text. -/
def text (r : HttpResponse) : String := Text.decodeLossy r.body

end HttpResponse

/-- What came of a request: an answer, or none at all, after some time. -/
structure Exchange where
  answer : Option HttpResponse
  elapsed : Span
  deriving DecidableEq, Repr

/-- A carrier of requests with state `τ`. -/
class Transport (τ : Type) where
  send : τ → HttpRequest → Exchange × τ

/-- A transport that no server is behind. -/
structure Disconnected where
  /-- How long it takes to find that out. -/
  delay : Span
  deriving DecidableEq, Repr

instance : Transport Disconnected where
  send t _ := (⟨none, t.delay⟩, t)

/-! ### Forms of requests -/

namespace HttpRequest

/-- A key may be sent unless it holds a control character other than a tab. -/
def isSendableKey (key : String) : Bool :=
  key.toList.all fun c => c == '\t' || (32 ≤ c.toNat && c.toNat ≠ 127)

/-- The part of an address behind its scheme, if it has a scheme with a host. -/
def behindScheme? (url : String) : Option (List Char) :=
  let cs := url.toList
  let scheme := cs.takeWhile (· != ':')
  match scheme, cs.drop scheme.length with
  | c :: more, ':' :: '/' :: '/' :: host :: rest =>
    if c.isAlpha && more.all (fun c => c.isAlphanum || c == '+' || c == '-' || c == '.') &&
        !(host == '/' || host == '?' || host == '#') then some (host :: rest)
    else none
  | _, _ => none

/-- The request has an address and a key that can be sent. -/
def isSendable (r : HttpRequest) : Bool :=
  (behindScheme? r.url).isSome && r.key.all isSendableKey

/-- A byte that an address cannot hold as it is. -/
def isUnsafe (b : UInt8) : Bool :=
  b ≤ 32 || b == 34 || b == 60 || b == 62 || b == 96 || b == 123 || b == 125 || 126 < b

/-- A hexadecimal digit. -/
def hexDigit (n : UInt8) : UInt8 := if n < 10 then 48 + n else 55 + n

/-- The address as it is sent, with what it cannot hold written as numbers. -/
def sentUrl (url : String) : String :=
  Text.decodeLossy <| (Text.encode url).flatMap fun b =>
    if isUnsafe b then [37, hexDigit (b / 16), hexDigit (b % 16)] else [b]

end HttpRequest

end Corpus
