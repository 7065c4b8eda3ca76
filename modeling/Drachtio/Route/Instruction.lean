import Mathlib.Data.List.Basic

/-! The grammar of the replies of a routing server (`httpCallRoutingComplete` in controller.cpp): a JSON object
    with an action and the data for it, and the uri of an outbound connection. -/

namespace Drachtio.Route

/-- What `json_loads` makes of a text. Of a number that is no integer only the kind is read. -/
inductive Json where
  | null
  | boolean (value : Bool)
  | integer (value : Int)
  | real
  | string (value : String)
  | array (values : List Json)
  | object (members : List (String × Json))

namespace Json

def objectGet (key : String) : Json → Option Json
  | .object members => members.lookup key
  | _ => none

def isObject : Json → Bool
  | .object _ => true
  | _ => false

def isNumber : Json → Bool
  | .integer _ => true
  | .real => true
  | _ => false

/-- json_integer_value, which is 0 of all that is no integer -/
def integerValue : Json → Int
  | .integer value => value
  | _ => 0

/-- json_string_value, where json_is_string -/
def stringValue : Json → Option String
  | .string value => some value
  | _ => none

/-- json_boolean_value, where json_is_boolean -/
def booleanValue : Json → Option Bool
  | .boolean value => some value
  | _ => none

end Json

/-- An error of `json_loads` -/
structure JsonError where
  line : Nat
  text : String

/-- What a reply asks for. -/
inductive Instruction where
  | reject (status : Int) (reason : Option String)
  | proxy (recordRoute followRedirects simultaneous : Bool) (provisionalTimeout finalTimeout : String)
      (destination : List String)
  | redirect (contact : List String)
  /-- The action `route` with a uri, to which a connection is made, or with a tag. -/
  | connect (uri : String)
  | select (tag : String)

namespace Instruction

/-- An array of strings -/
def strings : List Json → Except String (List String)
  | [] => .ok []
  | value :: values =>
    match value.stringValue with
    | none => .error "DrachtioController::processRoutingInstructions - invalid 'contact' array: must contain strings"
    | some s =>
      match strings values with
      | .error err => .error err
      | .ok rest => .ok (s :: rest)

def ofReject (data : Json) : Except String Instruction :=
  match data.objectGet "status" with
  | none => .error "'status' is missing or is not a number"
  | some status =>
    if status.isNumber = true then .ok (.reject status.integerValue ((data.objectGet "reason").bind Json.stringValue))
    else .error "'status' is missing or is not a number"

/-- A missing destination, or one that is neither a string nor an array, is none at all. -/
def ofProxy (data : Json) : Except String Instruction :=
  let recordRoute := ((data.objectGet "recordRoute").bind Json.booleanValue).getD false
  let followRedirects := ((data.objectGet "followRedirects").bind Json.booleanValue).getD true
  let simultaneous := ((data.objectGet "simultaneous").bind Json.booleanValue).getD false
  let provisionalTimeout := ((data.objectGet "provisionalTimeout").bind Json.stringValue).getD "5s"
  let finalTimeout := ((data.objectGet "finalTimeout").bind Json.stringValue).getD "60s"
  let destination : Except String (List String) :=
    match data.objectGet "destination" with
    | some (.string s) => .ok [s]
    | some (.array values) => strings values
    | _ => .ok []
  match destination with
  | .error err => .error err
  | .ok destination => .ok (.proxy recordRoute followRedirects simultaneous provisionalTimeout finalTimeout destination)

def ofRedirect (data : Json) : Except String Instruction :=
  match data.objectGet "contact" with
  | some (.string s) => .ok (.redirect [s])
  | some (.array values) =>
    match strings values with
    | .error err => .error err
    | .ok contact => .ok (.redirect contact)
  | _ =>
    .error ("DrachtioController::processRoutingInstructions - invalid 'contact' attribute in redirect action: " ++
      "must be string or array")

/-- A uri goes before a tag. -/
def ofRoute (data : Json) : Except String Instruction :=
  match (data.objectGet "uri").bind Json.stringValue with
  | some uri => .ok (.connect uri)
  | none =>
    match (data.objectGet "tag").bind Json.stringValue with
    | some tag => .ok (.select tag)
    | none => .error "'uri' is missing or is not a string"

/-- The instruction in the value of a reply, or the error that is thrown. -/
def ofJson (root : Json) : Except String Instruction :=
  if root.isObject = false then .error "expected JSON object but got something else"
  else
    match (root.objectGet "action").bind Json.stringValue with
    | none => .error "missing or invalid 'action' attribute"
    | some actionText =>
      match root.objectGet "data" with
      | none => .error "missing 'data' object"
      | some data =>
        if data.isObject = false then .error "missing 'data' object"
        else if actionText = "reject" then ofReject data
        else if actionText = "proxy" then ofProxy data
        else if actionText = "redirect" then ofRedirect data
        else if actionText = "route" then ofRoute data
        else .error ("DrachtioController::processRoutingInstructions - invalid 'action' attribute value '" ++ actionText ++
          "': valid values are 'reject', 'proxy', 'redirect', and 'route'")

/-- The instruction in a reply. -/
def ofBody (jsonLoads : String → Except JsonError Json) (body : String) : Except String Instruction :=
  match jsonLoads body with
  | .error err => .error ("error parsing body as JSON on line " ++ toString err.line ++ ": " ++ err.text)
  | .ok root => ofJson root

end Instruction

/-! ### The uri of an outbound connection -/

/-- What `makeOutboundConnection` takes from a uri. -/
structure Target where
  host : String
  port : String
  transport : String
deriving DecidableEq, Repr

namespace Target

def isLineEnd (c : Char) : Bool := c == '\n' || c == '\r'

/-- The match of `^(.*):(\d+)`: the text before the last colon on the first line that a digit follows, and the text
    behind that colon. -/
def split : List Char → Option (List Char × List Char)
  | [] => none
  | c :: cs =>
    if isLineEnd c = true then none
    else
      match split cs with
      | some (host, rest) => some (c :: host, rest)
      | none => if c = ':' ∧ (cs.head?.any Char.isDigit) = true then some ([], cs) else none

/-- The match of `(;transport=(tcp|tls))?` behind the port. It counts as a match of nothing when the group is
    missing, so the transport is empty then, not the "tcp" it was before. -/
def transportOf (rest : List Char) : String :=
  if ";transport=tcp".toList.isPrefixOf rest = true then "tcp"
  else if ";transport=tls".toList.isPrefixOf rest = true then "tls"
  else ""

def ofUri (uri : String) : Option Target :=
  match split uri.toList with
  | none => none
  | some (host, rest) =>
    some ⟨String.ofList host, String.ofList (rest.takeWhile Char.isDigit), transportOf (rest.dropWhile Char.isDigit)⟩

end Target

end Drachtio.Route
