import Drachtio.Lib.Table
import Mathlib.Data.Finset.Basic
import Mathlib.Order.Lattice.Nat

/-! The tables of `ClientController` and the calls an application connection makes on it (client-controller.cpp),
    with the thread hop to the stack: the work of a request is a message posted to the stack thread
    (`su_msg_create`, `su_msg_send` in sip-dialog-controller.cpp and sip-proxy-controller.cpp), whose texts go
    into buffers of fixed size. -/

namespace Drachtio.Client

/-- A connected application; the tables hold weak pointers to it. -/
abbrev ClientId := Nat

/-! ### Messages to the stack thread -/

/-- A text in a zeroed character array that takes `n` characters, read back as a C string. -/
def cString (n : Nat) (s : String) : String := String.ofList ((s.toList.take n).takeWhile (· ≠ '\x00'))

def msgIdLen : Nat := 128

def maxDialogIdLen : Nat := 1024

def startLen : Nat := 512

def hdrLen : Nat := 8400

def bodyLen : Nat := 12288

structure SipMessageData where
  clientMsgId : String
  transactionId : String
  dialogId : String
  startLine : String
  headers : String
  body : String
  routeUrl : String
deriving DecidableEq, Repr

namespace SipMessageData

/-- The constructor without a route URL. -/
def new (clientMsgId transactionId dialogId startLine headers body : String) : SipMessageData where
  clientMsgId := cString msgIdLen clientMsgId
  transactionId := cString msgIdLen transactionId
  dialogId := cString maxDialogIdLen dialogId
  startLine := cString startLen startLine
  headers := cString hdrLen headers
  body := cString bodyLen body
  routeUrl := ""

/-- The constructor with a route URL, which bounds the dialog id like a message id. -/
def newRouted (clientMsgId transactionId dialogId startLine headers body routeUrl : String) : SipMessageData where
  clientMsgId := cString msgIdLen clientMsgId
  transactionId := cString msgIdLen transactionId
  dialogId := cString msgIdLen dialogId
  startLine := cString startLen startLine
  headers := cString hdrLen headers
  body := cString bodyLen body
  routeUrl := cString startLen routeUrl

end SipMessageData

/-- What `doProxy` reads of a proxy command; the two ids are cut one character earlier than those of the
    other messages. -/
structure ProxyData where
  clientMsgId : String
  transactionId : String
  recordRoute : Bool
  fullResponse : Bool
  followRedirects : Bool
  simultaneous : Bool
  provisionalTimeout : String
  finalTimeout : String
  destinations : List String
  headers : String
deriving DecidableEq, Repr

namespace ProxyData

def uriLen : Nat := 256

def hdrStrLen : Nat := 1024

def new (clientMsgId transactionId : String) (recordRoute fullResponse followRedirects simultaneous : Bool)
    (provisionalTimeout finalTimeout : String) (destinations : List String) (headers : String) : ProxyData where
  clientMsgId := cString (msgIdLen - 1) clientMsgId
  transactionId := cString (msgIdLen - 1) transactionId
  recordRoute := recordRoute
  fullResponse := fullResponse
  followRedirects := followRedirects
  simultaneous := simultaneous
  provisionalTimeout := cString 15 provisionalTimeout
  finalTimeout := cString 15 finalTimeout
  destinations := destinations.map (cString (uriLen - 1))
  headers := cString (hdrStrLen - 1) headers

end ProxyData

/-- A message in the queue of the stack thread. -/
inductive Job where
  | sendRequestInsideDialog (d : SipMessageData)
  | sendRequestOutsideDialog (d : SipMessageData)
  | sendCancelRequest (d : SipMessageData)
  | respondToSipRequest (d : SipMessageData)
  | proxyRequest (d : ProxyData)
deriving DecidableEq, Repr

/-- How posting a message to the stack thread goes. -/
inductive Hop where
  | sent | createFails | sendFails
deriving DecidableEq, Repr

/-! ### The controller -/

/-- A response to an application's request, queued on its connection (`sendApiResponseToClient`). -/
structure ApiResponse where
  client : ClientId
  clientMsgId : String
  responseText : String
  data : String
deriving DecidableEq, Repr

/-- A table from ids to clients. -/
abbrev Id2Client := AList fun _ : String => ClientId

structure Server where
  /-- m_clients, the connected clients -/
  clients : Finset ClientId
  /-- m_request_types, a multimap from verbs -/
  requestTypes : List (String × ClientId)
  /-- m_map_of_request_type_offsets -/
  requestTypeOffsets : AList fun _ : String => Nat
  /-- m_mapApiRequests -/
  apiRequests : Id2Client
  /-- m_mapAppTransactions -/
  appTransactions : Id2Client
  /-- m_mapNetTransactions -/
  netTransactions : Id2Client
  /-- The messages on their way to the stack thread. -/
  posted : List Job
  /-- The responses queued on client connections, oldest first. -/
  outbox : List ApiResponse

namespace Server

def wantsRequests (client : ClientId) (verb : String) (s : Server) : Server × Bool :=
  ({ s with
      requestTypes := s.requestTypes ++ [(verb, client)]
      requestTypeOffsets := s.requestTypeOffsets.insertNew verb 0 }, true)

/-- All entries of the client go, whatever their verb. -/
def noLongerWantsRequests (client : ClientId) (_verb : String) (s : Server) : Server × Bool :=
  ({ s with requestTypes := s.requestTypes.filter fun e => e.2 != client }, true)

def addApiRequest (client : ClientId) (clientMsgId : String) (s : Server) : Server :=
  { s with apiRequests := s.apiRequests.insertNew clientMsgId client }

def removeApiRequest (clientMsgId : String) (s : Server) : Server :=
  { s with apiRequests := s.apiRequests.erase clientMsgId }

def addAppTransaction (client : ClientId) (transactionId : String) (s : Server) : Server :=
  { s with appTransactions := s.appTransactions.insertNew transactionId client }

def removeAppTransaction (transactionId : String) (s : Server) : Server :=
  { s with appTransactions := s.appTransactions.erase transactionId }

def removeNetTransaction (transactionId : String) (s : Server) : Server :=
  { s with netTransactions := s.netTransactions.erase transactionId }

/-- The weak pointer of a table entry leads to a client while that is connected. -/
def findClientForApiRequest (clientMsgId : String) (s : Server) : Option ClientId :=
  (s.apiRequests.lookup clientMsgId).filter (· ∈ s.clients)

/-- The text `additionalResponseData` of a notification that is not the last one. -/
def isContinue (data : String) : Bool := decide ("|continue".toList <:+: data.toList)

def routeApiResponse (clientMsgId responseText data : String) (s : Server) : Server :=
  if clientMsgId = "" then s
  else
    match s.findClientForApiRequest clientMsgId with
    | none => s.removeApiRequest clientMsgId
    | some client =>
      let s := if isContinue data = true then s else s.removeApiRequest clientMsgId
      { s with outbox := s.outbox ++ [⟨client, clientMsgId, responseText, data⟩] }

def post (job : Job) (s : Server) : Server := { s with posted := s.posted ++ [job] }

/-- Posting with the failures reported to the application, as for requests inside a dialog and proxying. -/
def postOrReport (hop : Hop) (clientMsgId : String) (job : Job) (s : Server) : Server :=
  match hop with
  | .sent => s.post job
  | .createFails => s.routeApiResponse clientMsgId "NOK" "Internal server error allocating message"
  | .sendFails => s.routeApiResponse clientMsgId "NOK" "Internal server error sending message"

/-- Posting whose failures nobody hears of. -/
def postOrDrop (hop : Hop) (job : Job) (s : Server) : Server :=
  match hop with
  | .sent => s.post job
  | .createFails => s
  | .sendFails => s

/-- An ACK makes no transaction. -/
def addTransactionFor (client : ClientId) (startLine transactionId : String) (s : Server) : Server :=
  if "ACK".toList <+: startLine.toList then s else s.addAppTransaction client transactionId

def sendRequestInsideDialog (hop : Hop) (client : ClientId)
    (clientMsgId dialogId startLine headers body transactionId : String) (s : Server) : Server :=
  ((s.addTransactionFor client startLine transactionId).addApiRequest client clientMsgId).postOrReport hop clientMsgId
    (.sendRequestInsideDialog (.new clientMsgId transactionId dialogId startLine headers body))

def sendRequestOutsideDialog (hop : Hop) (client : ClientId)
    (clientMsgId startLine headers body transactionId dialogId routeUrl : String) (s : Server) : Server :=
  ((s.addTransactionFor client startLine transactionId).addApiRequest client clientMsgId).postOrDrop hop
    (.sendRequestOutsideDialog (.newRouted clientMsgId transactionId dialogId startLine headers body routeUrl))

def respondToSipRequest (hop : Hop) (client : ClientId) (clientMsgId transactionId startLine headers body : String)
    (s : Server) : Server :=
  (s.addApiRequest client clientMsgId).postOrDrop hop
    (.respondToSipRequest (.new clientMsgId transactionId "" startLine headers body))

def sendCancelRequest (hop : Hop) (client : ClientId) (clientMsgId transactionId startLine headers body : String)
    (s : Server) : Server :=
  (s.addApiRequest client clientMsgId).postOrDrop hop
    (.sendCancelRequest (.new clientMsgId transactionId "" startLine headers body))

def proxyRequest (hop : Hop) (client : ClientId) (clientMsgId : String) (d : ProxyData) (transactionId : String)
    (s : Server) : Server :=
  ((s.addApiRequest client clientMsgId).postOrReport hop clientMsgId (.proxyRequest d)).removeNetTransaction transactionId

end Server

end Drachtio.Client
