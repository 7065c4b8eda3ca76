import Drachtio.Config.CommandLine
import Drachtio.Lib.Table

/-! Which requests are routed by a handler (`RequestRouter` in request-router.cpp): the table of the handlers by method, how
    `getEnv`, `parseCmdArgs`, `installConfig` and `handleSigHup` in controller.cpp fill it, and what `processNewRequest` in
    pending-request-controller.cpp makes of it. -/

namespace Drachtio.Config

open Sip (Text)

/-- A text as `boost::to_upper` leaves it -/
def upper (s : Text) : Text := s.map Char.toUpper

/-- Route_t -/
structure Route where
  httpMethod : Text
  url : Text
  verifyPeer : Bool
deriving DecidableEq, Repr

/-- m_mapSipMethod2Route -/
abbrev RequestRouter := AList fun _ : Text => Route

/-- The method of the route that serves all others -/
def anyMethod : Text := ['*']

def get : Text := "GET".toList

namespace RequestRouter

/-- The insert keeps the route that is there. -/
def addRoute (sipMethod httpMethod httpUrl : Text) (verifyPeer : Bool) (m : RequestRouter) : RequestRouter :=
  m.insertNew (upper sipMethod) ⟨httpMethod, httpUrl, verifyPeer⟩

def getRoute (szMethod : Text) (m : RequestRouter) : Option Route :=
  match m.lookup szMethod with
  | some route => some route
  | none => m.lookup anyMethod

def getCountOfRoutes (m : RequestRouter) : Nat := m.entries.length

end RequestRouter

/-- A `request-handler` of a configuration file, with the attributes it has -/
structure Handler where
  sipMethod : Option Text
  httpMethod : Option Text
  verifyPeer : Option Text
  httpUrl : Text
deriving DecidableEq, Repr

namespace Handler

def wantsVerifyPeer (h : Handler) : Bool :=
  let verifyPeer := h.verifyPeer.getD "false".toList
  decide (verifyPeer = "true".toList) || decide (verifyPeer = "1".toList) || decide (verifyPeer = "yes".toList)

/-- One round of the loop over the handlers of a file -/
def add (m : RequestRouter) (h : Handler) : RequestRouter :=
  m.addRoute (upper (h.sipMethod.getD anyMethod)) (h.httpMethod.getD get) h.httpUrl h.wantsVerifyPeer

/-- m_router of a configuration -/
def router (handlers : List Handler) : RequestRouter := handlers.foldl add ∅

end Handler

/-- What becomes of a request that `processNewRequest` does not refuse for its To tag. A route whose url is empty sets no
    client, and the request is then sent by none. -/
inductive Handling (Client : Type) where
  | makeRequestForRoute (httpMethod httpUrl : Text) (verifyPeer : Bool)
  | sendToClient (client : Client)
  | refuse (status : Nat)
  | nullClient
deriving DecidableEq, Repr

/-- The branches of `processNewRequest`. What the route says of the peer is not passed on: `makeRequestForRoute` has a default
    for it. The url is that before the query goes behind it. -/
def processNewRequest {Client : Type} (methodName : Text) (client : Option Client) (m : RequestRouter) : Handling Client :=
  match m.getRoute methodName with
  | none =>
    match client with
    | none => .refuse 503
    | some client => .sendToClient client
  | some route => if route.url = [] then .nullClient else .makeRequestForRoute route.httpMethod route.url true

/-- What the server finds at its start: variables of the environment, the options and the handlers of the file -/
structure Startup where
  /-- DRACHTIO_HTTP_HANDLER_URI -/
  handlerUri : Option Text
  /-- DRACHTIO_HOMER_ADDRESS and DRACHTIO_HOMER_ID, as `getEnv` sets the members -/
  homerAddress : Text
  homerId : UInt32
  opts : List Opt
  handlers : List Handler

/-- m_requestRouter and the handlers of m_ConfigNew -/
structure Routing where
  requestRouter : RequestRouter
  configNew : Option (List Handler)

namespace Routing

/-- The part of `getEnv` -/
def getEnv (handlerUri : Option Text) (m : RequestRouter) : RequestRouter :=
  match handlerUri with
  | none => m
  | some uri => RequestRouter.addRoute anyMethod get uri true ∅

/-- The end of `parseCmdArgs` -/
def addRoute (a : Args) (m : RequestRouter) : RequestRouter :=
  if a.httpUrl ≠ [] then m.addRoute anyMethod a.httpMethod a.httpUrl true else m

/-- The handlers are those of the configuration that is installed, the new one if there is one. -/
def installConfig (handlers : List Handler) (s : Routing) : Routing :=
  let handlers := s.configNew.getD handlers
  { requestRouter := if s.requestRouter.getCountOfRoutes = 0 then Handler.router handlers else s.requestRouter
    configNew := none }

/-- The constructor of the controller -/
def start (s : Startup) : Except Stop Routing :=
  match parseCmdArgs s.homerAddress s.homerId s.opts with
  | .error e => .error e
  | .ok a => .ok (installConfig s.handlers ⟨addRoute a (getEnv s.handlerUri ∅), none⟩)

/-- The file is read again; nothing is taken from one that is not valid. -/
def handleSigHup (file : Option (List Handler)) (s : Routing) : Routing :=
  match s.configNew with
  | some _ => s
  | none =>
    match file with
    | none => s
    | some handlers => { s with configNew := some handlers }.installConfig handlers

end Routing

end Drachtio.Config
