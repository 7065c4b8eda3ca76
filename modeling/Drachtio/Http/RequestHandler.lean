import Drachtio.Lib.Pool
import Drachtio.Sip.Headers

/-! The requests to the routing server (request-handler.cpp): easy handles of libcurl that are kept for reuse, and a
    `ConnInfo` for each request that is on its way. Everything runs on the thread of the io service, one callback after the
    other. libcurl keeps the options of a handle until they are set again; of its transfers only what the callbacks are
    called with is known. -/

namespace Drachtio.Http

open Sip (Text cText)

def easyHandleCacheSize : Nat := 4

def txnIdLen : Nat := 255

def urlLen : Nat := 1024

def httpBodyLen : Nat := 16384

/-- The C string in an array of `n` characters and one more after `strncpy`, which never writes the last one: behind a text
    that fills the others comes what the memory of the array holds from there on. -/
def copied (n : Nat) (s beyond : Text) : Text :=
  if (cText s).length < n then cText s else (cText s).take n ++ beyond

/-- The arguments of `makeRequestForRoute` -/
structure Request where
  transactionId : Text
  httpMethod : Text
  url : Text
  body : Text
  verifyPeer : Bool
deriving DecidableEq, Repr

/-- What `startRequest` meets: the memory behind the three texts in the `ConnInfo` it gets, and whether
    curl_multi_add_handle takes the handle, of which the source only logs that it does not. -/
structure StartEnv where
  beyondUrl : Text
  beyondBody : Text
  beyondTransactionId : Text
  added : Bool

/-- CURLOPT_POSTFIELDS and CURLOPT_POSTFIELDSIZE: the body in the `ConnInfo` of a request, and its length. With these
    options set a request is a POST. -/
structure PostFields where
  conn : Nat
  size : Nat
deriving DecidableEq, Repr

/-- The options of a handle that differ from request to request -/
structure Options where
  url : Text
  verifyPeer : Bool
  post : Option PostFields
  /-- CURLOPT_HTTPHEADER names the content type. -/
  contentType : Bool
deriving DecidableEq, Repr

/-- As `createEasyHandle` leaves a handle; libcurl verifies a peer unless it is told not to. -/
def Options.initial : Options := ⟨[], true, none, false⟩

/-- The record of a request that is on its way. `serial` and `received` are ghosts: the number of the request, and the
    pieces of the body that the callback was called with. -/
structure ConnInfo where
  serial : Nat
  easy : Nat
  transactionId : Text
  response : Text
  received : List Text
deriving DecidableEq, Repr

/-- A call of `httpCallRoutingComplete`; `serial` and `received` are ghosts as in `ConnInfo`. -/
structure Completion where
  serial : Nat
  transactionId : Text
  responseCode : Nat
  response : Text
  received : List Text
deriving DecidableEq, Repr

/-- A request that is handed to libcurl, and the options of its handle at that time -/
structure Sent where
  serial : Nat
  easy : Nat
  httpMethod : Text
  options : Options
deriving DecidableEq, Repr

structure RequestHandler where
  /-- m_cacheEasyHandles -/
  cache : List Nat
  /-- The handles that were made -/
  made : Nat
  options : Nat → Options
  conns : List ConnInfo
  /-- The handles that were not taken by curl_multi_add_handle, with the number of the request: nothing refers to them. -/
  lost : List (Nat × Nat)
  /-- Ghost: the requests in the order they are started in -/
  requests : List Request
  sent : List Sent
  completed : List Completion

namespace RequestHandler

/-- `getInstance` fills the cache. -/
def init : RequestHandler where
  cache := List.range easyHandleCacheSize
  made := easyHandleCacheSize
  options := fun _ => .initial
  conns := []
  lost := []
  requests := []
  sent := []
  completed := []

/-- The front of the cache, into which a new handle goes first when it is empty. -/
def acquire (h : RequestHandler) : RequestHandler × Nat :=
  let h := if h.cache = [] then { h with cache := [h.made], made := h.made + 1 } else h
  ({ h with cache := h.cache.tail }, h.cache.headD 0)

/-- A url that is connected to without asking the server -/
def isDirect (url : Text) : Bool := decide ("tcp://".toList <+: url) || decide ("tls://".toList <+: url)

/-- The reply that `startRequest` makes up for such a url -/
def directReply (url : Text) : Text :=
  "\x7b\"action\": \"route\", \"data\": \x7b\"uri\": \"".toList ++ url.drop 6 ++
    (if "tcp://".toList <+: url then ";transport=tcp".toList else ";transport=tls".toList) ++ "\"\x7d\x7d".toList

/-- The options that `startRequest` sets; the others stay as they were. -/
def setOptions (serial : Nat) (r : Request) (env : StartEnv) (o : Options) : Options :=
  let body := copied httpBodyLen r.body env.beyondBody
  let o := { o with url := copied urlLen r.url env.beyondUrl }
  let o := if "https:".toList <+: r.url then { o with verifyPeer := r.verifyPeer } else o
  if r.httpMethod = "POST".toList then { o with post := some ⟨serial, body.length⟩, contentType := true }
  else { o with contentType := false }

def startRequest (r : Request) (env : StartEnv) (h : RequestHandler) : RequestHandler :=
  let serial := h.requests.length
  let h := { h with requests := h.requests ++ [r] }
  if isDirect r.url = true then
    { h with completed := h.completed ++ [⟨serial, r.transactionId, 200, directReply r.url, []⟩] }
  else
    let (h, easy) := h.acquire
    let options := setOptions serial r env (h.options easy)
    let h := { h with options := Function.update h.options easy options }
    if env.added = true then
      { h with
        conns := h.conns ++ [⟨serial, easy, copied txnIdLen r.transactionId env.beyondTransactionId, [], []⟩]
        sent := h.sent ++ [⟨serial, easy, r.httpMethod, options⟩] }
    else { h with lost := h.lost ++ [(serial, easy)] }

/-- `write_cb` with the text so far and a piece of the body: a piece that does not fit is refused, and of one that fits
    `strncat` takes what comes before a NUL. -/
def writeCb (response ptr : Text) : Text :=
  if httpBodyLen < response.length + ptr.length then response else response ++ cText ptr

/-- libcurl has received a piece of the body for a handle. -/
def receive (easy : Nat) (ptr : Text) (h : RequestHandler) : RequestHandler :=
  { h with
    conns := h.conns.map fun conn =>
      if conn.easy = easy then { conn with response := writeCb conn.response ptr, received := conn.received ++ [ptr] }
      else conn }

/-- One round of the loop in `check_multi_info`: the transfer of a handle is done, however it ended. -/
def checkMultiInfo (easy responseCode : Nat) (h : RequestHandler) : RequestHandler :=
  match h.conns.find? (·.easy = easy) with
  | none => h
  | some conn =>
    { h with
      completed := h.completed ++ [⟨conn.serial, conn.transactionId, responseCode, conn.response, conn.received⟩]
      cache := h.cache ++ [easy]
      conns := h.conns.eraseP (·.easy = easy) }

/-- What happens on the thread of the io service. -/
inductive Op where
  | start (r : Request) (env : StartEnv)
  | receive (easy : Nat) (ptr : Text)
  | done (easy responseCode : Nat)

def step (h : RequestHandler) : Op → RequestHandler
  | .start r env => h.startRequest r env
  | .receive easy ptr => h.receive easy ptr
  | .done easy responseCode => h.checkMultiInfo easy responseCode

end RequestHandler

end Drachtio.Http
