import Drachtio.Client.Controller

/-! The commands of an application connection (`BaseClient::processClientMessage` in client.cpp, with the
    text functions of drachtio.cpp it uses). A character stands for a byte of the message. -/

namespace Drachtio.Client

/-! ### Texts -/

def crlf : List Char := ['\r', '\n']

/-- The text before and behind the first occurrence of a separator. -/
def cut (sep : List Char) : List Char → Option (List Char × List Char)
  | [] => if sep = [] then some ([], []) else none
  | c :: rest =>
    if sep <+: c :: rest then some ([], (c :: rest).drop sep.length)
    else (cut sep rest).map fun p => (c :: p.1, p.2)

structure SplitMsg where
  metaLine : String
  startLine : String
  headers : String
  body : String
deriving DecidableEq, Repr

def splitMsg (msg : String) : SplitMsg :=
  match cut crlf msg.toList with
  | none => ⟨msg, "", "", ""⟩
  | some (metaLine, chunk) =>
    let (chunk, body) := (cut (crlf ++ crlf) chunk).getD (chunk, [])
    let (startLine, headers) := (cut crlf chunk).getD (chunk, [])
    ⟨String.ofList metaLine, String.ofList startLine, String.ofList headers, String.ofList body⟩

/-- boost::split at one character. -/
def splitAt (sep : Char) (s : String) : List String := (s.toList.splitOn sep).map String.ofList

def splitTokens (s : String) : List String := splitAt '|' s

def isspace (c : Char) : Bool := decide (c ∈ [' ', '\t', '\n', '\x0b', '\x0c', '\r'])

/-- boost::trim -/
def trim (s : List Char) : List Char := ((s.dropWhile isspace).reverse.dropWhile isspace).reverse

def iequals (x y : List Char) : Bool := x.map Char.toLower == y.map Char.toLower

/-- The value of the first header line of a name. -/
def getValueForHeader (headers : String) (name : String) : Option String :=
  let lines := headers.toList.splitOnP fun c => c == '\r' || c == '\n'
  lines.findSome? fun line =>
    match cut [':'] line with
    | none => none
    | some (hdrName, value) =>
      if iequals (trim hdrName) name.toList = true then some (String.ofList (trim value)) else none

/-! ### Commands -/

/-- What a command asks of the controller. -/
inductive Call where
  | wantsRequests (verb : String)
  | noLongerWantsRequests (verb : String)
  | respondToSipRequest (clientMsgId transactionId startLine headers body : String)
  | sendRequestInsideDialog (clientMsgId dialogId startLine headers body transactionId : String)
  | sendCancelRequest (clientMsgId transactionId startLine headers body : String)
  | sendRequestOutsideDialog (clientMsgId startLine headers body transactionId dialogId routeUrl : String)
  | proxyRequest (clientMsgId transactionId : String) (d : ProxyData)
deriving DecidableEq, Repr

def Server.perform (hop : Hop) (client : ClientId) (s : Server) : Call → Server × Bool
  | .wantsRequests verb => s.wantsRequests client verb
  | .noLongerWantsRequests verb => s.noLongerWantsRequests client verb
  | .respondToSipRequest clientMsgId transactionId startLine headers body =>
    (s.respondToSipRequest hop client clientMsgId transactionId startLine headers body, true)
  | .sendRequestInsideDialog clientMsgId dialogId startLine headers body transactionId =>
    (s.sendRequestInsideDialog hop client clientMsgId dialogId startLine headers body transactionId, true)
  | .sendCancelRequest clientMsgId transactionId startLine headers body =>
    (s.sendCancelRequest hop client clientMsgId transactionId startLine headers body, true)
  | .sendRequestOutsideDialog clientMsgId startLine headers body transactionId dialogId routeUrl =>
    (s.sendRequestOutsideDialog hop client clientMsgId startLine headers body transactionId dialogId routeUrl, true)
  | .proxyRequest clientMsgId transactionId d => (s.proxyRequest hop client clientMsgId d transactionId, true)

/-- The configuration that commands read. -/
structure Config where
  isSecret : String → Bool
  hostports : String
  localHostports : String
  version : String

/-- What a command meets: the uuids generated, how the hop to the stack goes, and the stable dialogs by
    Call-ID. -/
structure CommandEnv where
  responseUuid : String
  transactionUuid : String
  dialogUuid : String
  hop : Hop
  findDialogByCallId : String → Option String

/-- An application connection and the server behind it. -/
structure Session where
  client : ClientId
  /-- m_tags -/
  tags : Finset String
  /-- Whether messages are still read from the connection. -/
  reading : Bool
  server : Server

/-- How `processClientMessage` ends. A token that is not there is read past the end of the vector. -/
inductive Result where
  | returned (ok : Bool)
  | undefined
deriving DecidableEq, Repr

structure Outcome where
  session : Session
  call : Option Call := none
  response : String := ""
  result : Result

def createResponseMsg (env : CommandEnv) (msgId : String) (ok : Bool) (reason : Option String) : String :=
  env.responseUuid ++ "|response|" ++ msgId ++ "|" ++ (if ok = true then "OK" else "NO") ++
    match reason with
    | some text => "|" ++ text
    | none => ""

/-- Whether a text starts with another one. -/
def startsWith (s p : String) : Bool := decide (p.toList <+: s.toList)

namespace Session

/-- The command changes nothing and is answered. -/
def answer (env : CommandEnv) (msgId : String) (ok : Bool) (reason : String) (s : Session) : Outcome where
  session := s
  response := createResponseMsg env msgId ok (some reason)
  result := .returned ok

/-- The controller is called, and the command has no response of its own. -/
def perform (env : CommandEnv) (call : Call) (s : Session) : Outcome where
  session := { s with server := (s.server.perform env.hop s.client call).1 }
  call := some call
  result := .returned true

/-- A registration, which the controller may refuse. -/
def register (env : CommandEnv) (msgId : String) (call : Call) (refusal : String) (s : Session) : Outcome :=
  let (server, ok) := s.server.perform env.hop s.client call
  { session := { s with server := server }
    call := some call
    response := if ok = true then createResponseMsg env msgId true none else createResponseMsg env msgId false (some refusal)
    result := .returned ok }

/-- The tags of an authenticate command are kept before the secret is looked at. -/
def authenticate (k : Config) (env : CommandEnv) (msgId secret : String) (more : List String) (s : Session) : Outcome :=
  let s := { s with
    tags := match more with
      | [] => s.tags
      | tags :: _ => s.tags ∪ (splitAt ',' tags).toFinset }
  if k.isSecret secret = false then s.answer env msgId false "incorrect secret"
  else s.answer env msgId true (k.hostports ++ "|" ++ k.version ++ "|" ++ k.localHostports)

def sip (env : CommandEnv) (msgId transactionId dialogId : String) (more : List String) (m : SplitMsg) (s : Session) :
    Outcome :=
  if startsWith m.startLine "SIP/" = true then
    if transactionId = "" then s.answer env msgId false "transaction id missing"
    else s.perform env (.respondToSipRequest msgId transactionId m.startLine m.headers m.body)
  else if dialogId ≠ "" then
    s.perform env (.sendRequestInsideDialog msgId dialogId m.startLine m.headers m.body env.transactionUuid)
  else if transactionId ≠ "" then
    if startsWith m.startLine "CANCEL" = true then
      s.perform env (.sendCancelRequest msgId transactionId m.startLine m.headers m.body)
    else { session := s, result := .returned true } -- assert(false), gone in builds without asserts
  else
    match (getValueForHeader m.headers "Call-ID").bind env.findDialogByCallId with
    | some id => s.perform env (.sendRequestInsideDialog msgId id m.startLine m.headers m.body env.transactionUuid)
    | none =>
      let dialogId := if "INVITE".toList <:+: m.startLine.toList then env.dialogUuid else ""
      s.perform env (.sendRequestOutsideDialog msgId m.startLine m.headers m.body env.transactionUuid dialogId
        (more.head?.getD ""))

def proxy (env : CommandEnv) (msgId : String) (args : List String) (m : SplitMsg) (s : Session) : Outcome :=
  match args with
  | transactionId :: remainInDialog :: more =>
    match more with
    | fullResponse :: followRedirects :: simultaneous :: provisionalTimeout :: finalTimeout :: destinations =>
      s.perform env (.proxyRequest msgId transactionId
        (.new msgId transactionId (remainInDialog == "remainInDialog") (fullResponse == "fullResponse")
          (followRedirects == "followRedirects") (simultaneous == "simultaneous") provisionalTimeout finalTimeout
          destinations m.headers))
    | _ => { session := s, result := .undefined }
  | _ => s.answer env msgId false "Invalid proxy request: not enough information provided"

def processClientMessage (k : Config) (env : CommandEnv) (msg : String) (s : Session) : Outcome :=
  let m := splitMsg msg
  match splitTokens m.metaLine with
  | [] => { session := s, result := .undefined }
  | [msgId] => s.answer env msgId false "Invalid message format"
  | msgId :: command :: args =>
    if command = "ping" then s.answer env msgId true "pong"
    else if command = "route" then
      match args with
      | [] => { session := s, result := .undefined }
      | verb :: _ => s.register env msgId (.wantsRequests verb) "Route request includes unsupported verb"
    else if command = "remove_route" then
      match args with
      | [] => { session := s, result := .undefined }
      | verb :: _ => s.register env msgId (.noLongerWantsRequests verb) "Remove route request includes unsupported verb"
    else if command = "authenticate" then
      match args with
      | [] => { session := s, result := .undefined }
      | secret :: more => s.authenticate k env msgId secret more
    else if command = "sip" then
      match args with
      | transactionId :: dialogId :: more => s.sip env msgId transactionId dialogId more m
      | _ => { session := s, result := .undefined }
    else if command = "proxy" then s.proxy env msgId args m
    else s.answer env msgId false "Unknown message type"

/-! ### What a command relies on -/

end Session

/-- A token that is read, the iterators from a token on to the end, or an assertion. -/
inductive Access where
  | token (i : Nat)
  | range (first : Nat)
  | assertion (holds : Bool)
deriving DecidableEq, Repr

def Access.valid (tokens : List String) : Access → Bool
  | .token i => decide (i < tokens.length)
  | .range first => decide (first ≤ tokens.length)
  | .assertion holds => holds

/-- The branch for sip of `processClientMessage`. -/
def sipAccesses (tokens : List String) (startLine : String) : List Access :=
  [.assertion (decide (4 ≤ tokens.length)), .token 2, .token 3] ++ (if 4 < tokens.length then [.token 4] else []) ++
    [.token 0, .token 1] ++
    if startsWith startLine "SIP/" = true then [.token 0]
    else if tokens.getD 3 "" ≠ "" then [.token 0]
    else if tokens.getD 2 "" ≠ "" then
      if startsWith startLine "CANCEL" = true then [.token 0]
      else [.assertion false]
    else [.token 0]

/-- What `processClientMessage` relies on for a message, in the order of the source. -/
def accesses (msg : String) : List Access :=
  let m := splitMsg msg
  let tokens := splitTokens m.metaLine
  if tokens.length < 2 then [.token 0]
  else
    .token 1 ::
      let command := tokens.getD 1 ""
      if command = "ping" then [.token 0]
      else if command = "route" ∨ command = "remove_route" then [.token 2, .token 0]
      else if command = "authenticate" then
        [.token 2] ++ (if 3 < tokens.length then [.token 3] else []) ++ [.token 0]
      else if command = "sip" then sipAccesses tokens m.startLine
      else if command = "proxy" then
        if tokens.length < 4 then [.token 0]
        else
          [.token 2, .token 3, .token 4, .token 5, .token 6, .token 7, .token 8, .range 9, .token 0]
      else [.token 0]

namespace Session

/-- The connection takes a message; after a result other than true nothing more is read from it. -/
def receive (k : Config) (s : Session) (i : CommandEnv × String) : Session :=
  if s.reading = true then
    let o := s.processClientMessage k i.1 i.2
    { o.session with reading := decide (o.result = .returned true) }
  else s

end Session

end Drachtio.Client
