import Drachtio.Client.Framing
import Drachtio.Lib.Query

/-! The url that a new request is routed with (`PendingRequestController::processNewRequest` in
    pending-request-controller.cpp, `urlencode` in drachtio.cpp): what the routing server is told of the request goes
    into a query string. Texts are the bytes they come in from the network. -/

namespace Drachtio.Pending

open Client (bytes)
open Query (Bytes)

/-- The digits of `urlencode` -/
def hexDigits : Bytes := bytes "0123456789abcdef"

/-- A character is a signed `char`, which the operators promote to `int`. -/
def urlencodeChar (b : UInt8) : Bytes :=
  let c : Int32 := b.toInt8.toInt32
  if (48 ≤ c ∧ c ≤ 57) ∨ (65 ≤ c ∧ c ≤ 90) ∨ (97 ≤ c ∧ c ≤ 122) ∨ c = 45 ∨ c = 95 ∨ c = 46 ∨ c = 126 then [b]
  else
    [Query.percent, hexDigits.getD ((c &&& 0xF0) >>> 4).toNatClampNeg 0, hexDigits.getD (c &&& 0x0F).toNatClampNeg 0]

/-- The greatest `int` -/
def intMax : Nat := 2147483647

/-- The loop runs up to the length as an `int`. -/
def urlencode (s : Bytes) : Bytes :=
  let ix : Int32 := Int32.ofNat s.length
  (s.take ix.toNatClampNeg).flatMap urlencodeChar

/-- What is read of the request; an optional text is a pointer that may be null. -/
structure RouteRequest where
  methodName : Bytes
  /-- The parts of the Request-URI -/
  urlHost : Option Bytes
  urlUser : Option Bytes
  urlParams : Option Bytes
  /-- The whole of it, as `url_e` prints it into a buffer -/
  url : Bytes
  /-- The protocol and source address of the message (SipMsgData_t) -/
  protocol : Bytes
  address : Bytes
  fromUser : Option Bytes
  toUser : Option Bytes
  contentType : Option Bytes

/-- A parameter of the Request-URI: what `=` separates in it, where a value is one only if it is the second of two. -/
def paramPair (param : Bytes) : Bytes × Bytes :=
  let kv := param.splitOn Query.equals
  (kv.headD [], if kv.length = 2 then kv.getD 1 [] else [])

def semicolon : UInt8 := 59

namespace RouteRequest

/-- The names and values in the order of the source -/
def pairs (r : RouteRequest) : List (Bytes × Bytes) :=
  [(bytes "method", r.methodName), (bytes "domain", r.urlHost.getD []), (bytes "protocol", r.protocol),
    (bytes "source_address", r.address), (bytes "fromUser", r.fromUser.getD []), (bytes "toUser", r.toUser.getD []),
    (bytes "uriUser", r.urlUser.getD []), (bytes "contentType", r.contentType.getD []), (bytes "uri", r.url)] ++
    match r.urlParams with
    | some paramString => (paramString.splitOn semicolon).map paramPair
    | none => []

end RouteRequest

/-- The loop over the pairs, with `i` of them behind it -/
def appendPairs (httpUrl : Bytes) : Nat → List (Bytes × Bytes) → Bytes
  | _, [] => httpUrl
  | i, p :: v =>
    appendPairs (httpUrl ++ (if 0 < i then bytes "&" else bytes "?") ++ p.1 ++ bytes "=" ++ urlencode p.2) (i + 1) v

/-- Such a url is connected to directly. -/
def isDirect (httpUrl : Bytes) : Bool := decide (bytes "tcp:" <+: httpUrl) || decide (bytes "tls:" <+: httpUrl)

/-- The url that `makeRequestForRoute` is called with -/
def routeUrl (httpUrl : Bytes) (r : RouteRequest) : Bytes :=
  if isDirect httpUrl = true then httpUrl else appendPairs (httpUrl ++ bytes "/") 0 r.pairs

end Drachtio.Pending
