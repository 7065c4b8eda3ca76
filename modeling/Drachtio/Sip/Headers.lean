import Drachtio.Client.Commands

/-! The headers that an application writes, on their way into a SIP message (`makeTags`, `makeSafeTags` and what they use
    in drachtio.cpp, and the transport of a dialog that `SipDialog` describes to them). A character is a byte. -/

namespace Drachtio.Sip

open Client (cut trim crlf)

abbrev Text := List Char

/-- The text that a C string pointer shows -/
def cText (s : Text) : Text := s.takeWhile (· ≠ '\x00')

/-! ### Lines -/

def isEol (c : Char) : Bool := c == '\r' || c == '\n'

/-- boost::split with adjacent separators taken for one: no piece between two separators is empty. -/
def splitLines (s : Text) : List Text :=
  match s with
  | [] => []
  | _ =>
    match s.splitOnP isEol with
    | [] => []
    | first :: rest => first :: (rest.dropLast.filter (· ≠ []) ++ rest.getLast?.toList)

/-! ### Tags -/

/-- The tags a header may get -/
inductive Tag where
  | userAgentStr | subjectStr | maxForwardsStr | proxyRequireStr | acceptContactStr | rejectContactStr | expiresStr
  | dateStr | retryAfterStr | timestampStr | minExpiresStr | priorityStr | callInfoStr | organizationStr | serverStr
  | inReplyToStr | acceptStr | acceptEncodingStr | acceptLanguageStr | allowStr | requireStr | supportedStr
  | unsupportedStr | eventStr | allowEventsStr | subscriptionStateStr | proxyAuthenticateStr
  | proxyAuthenticationInfoStr | proxyAuthorizationStr | authorizationStr | wwwAuthenticateStr | authenticationInfoStr
  | errorInfoStr | warningStr | referToStr | referredByStr | replacesStr | sessionExpiresStr | minSeStr | pathStr
  | serviceRouteStr | reasonStr | securityClientStr | securityServerStr | securityVerifyStr | privacyStr | etagStr
  | ifMatchStr | mimeVersionStr | contentTypeStr | contentEncodingStr | contentLanguageStr | contentDispositionStr
  | requestDispositionStr | errorStr | referSubStr | alertInfoStr | replyToStr | pAssertedIdentityStr
  | pPreferredIdentityStr | remotePartyIdStr | payloadStr | fromStr | toStr | callIdStr | cseqStr | viaStr | routeStr
  | contactStr | rseqStr | rackStr | recordRouteStr | contentLengthStr | unknownStr | skip | null
deriving DecidableEq, Repr

structure TagItem where
  tag : Tag
  /-- The C string that t_value points to, if it is not null -/
  value : Option Text
deriving DecidableEq, Repr

def mapHdr2Tag : List (String × Tag) :=
  [("user_agent", .userAgentStr), ("subject", .subjectStr), ("max_forwards", .maxForwardsStr),
  ("proxy_require", .proxyRequireStr), ("accept_contact", .acceptContactStr), ("reject_contact", .rejectContactStr),
  ("expires", .expiresStr), ("date", .dateStr), ("retry_after", .retryAfterStr), ("timestamp", .timestampStr),
  ("min_expires", .minExpiresStr), ("priority", .priorityStr), ("call_info", .callInfoStr),
  ("organization", .organizationStr), ("server", .serverStr), ("in_reply_to", .inReplyToStr), ("accept", .acceptStr),
  ("accept_encoding", .acceptEncodingStr), ("accept_language", .acceptLanguageStr), ("allow", .allowStr),
  ("require", .requireStr), ("supported", .supportedStr), ("unsupported", .unsupportedStr), ("event", .eventStr),
  ("allow_events", .allowEventsStr), ("subscription_state", .subscriptionStateStr),
  ("proxy_authenticate", .proxyAuthenticateStr), ("proxy_authentication_info", .proxyAuthenticationInfoStr),
  ("proxy_authorization", .proxyAuthorizationStr), ("authorization", .authorizationStr),
  ("www_authenticate", .wwwAuthenticateStr), ("authentication_info", .authenticationInfoStr),
  ("error_info", .errorInfoStr), ("warning", .warningStr), ("refer_to", .referToStr), ("referred_by", .referredByStr),
  ("replaces", .replacesStr), ("session_expires", .sessionExpiresStr), ("min_se", .minSeStr), ("path", .pathStr),
  ("service_route", .serviceRouteStr), ("reason", .reasonStr), ("security_client", .securityClientStr),
  ("security_server", .securityServerStr), ("security_verify", .securityVerifyStr), ("privacy", .privacyStr),
  ("sip_etag", .etagStr), ("sip_if_match", .ifMatchStr), ("mime_version", .mimeVersionStr),
  ("content_type", .contentTypeStr), ("content_encoding", .contentEncodingStr),
  ("content_language", .contentLanguageStr), ("content_disposition", .contentDispositionStr),
  ("request_disposition", .requestDispositionStr), ("error", .errorStr), ("refer_sub", .referSubStr),
  ("alert_info", .alertInfoStr), ("reply_to", .replyToStr), ("p_asserted_identity", .pAssertedIdentityStr),
  ("p_preferred_identity", .pPreferredIdentityStr), ("remote_party_id", .remotePartyIdStr), ("payload", .payloadStr),
  ("from", .fromStr), ("to", .toStr), ("call_id", .callIdStr), ("cseq", .cseqStr), ("via", .viaStr),
  ("route", .routeStr), ("contact", .contactStr), ("from", .fromStr), ("to", .toStr), ("rseq", .rseqStr),
  ("rack", .rackStr), ("record_route", .recordRouteStr), ("content_length", .contentLengthStr)]

def setImmutableHdrs : List String := ["via", "route", "rseq", "record_route", "content_length"]

def isImmutableHdr (hdr : Text) : Bool := decide (String.ofList hdr ∈ setImmutableHdrs)

def getTagTypeForHdr (hdr : Text) : Option Tag := mapHdr2Tag.lookup (String.ofList hdr)

/-! ### Names -/

def rfc3261TokenChars : Text := "abcdefghijklmnopqrstuvwxyzABCDEFGHIJKLMNOPQRSTUVWXYZ01234567890-._!%*+`'~".toList

/-- No character is none of a token; the empty name passes. -/
def isTokenText (s : Text) : Bool := s.all fun c => decide (c ∈ rfc3261TokenChars)

/-- The loop over the characters, and whether the next one is capitalized -/
def capitalize : Bool → Text → Text
  | _, [] => []
  | next, c :: s =>
    let c := if next = true then c.toUpper else c
    c :: capitalize (c == '-') s

/-- The names in `preserved` (DRACHTIO_PRESERVE_HEADER_NAMES) stay as they are written. -/
def capitalizeAfterDash (preserved : List Text) (input : Text) : Text :=
  if preserved.any (fun header => Client.iequals (trim header) input) = true then input
  else if "X-".toList <+: input ∨ "x-".toList <+: input then input
  else capitalize true input

/-- The key of a header in the tables -/
def hdrOf (hdrName : Text) : Text := (hdrName.map fun c => if c = '-' then '_' else c).map Char.toLower

/-! ### Host and port -/

/-- A name-addr, in the parts before and behind the host and port of its URI -/
structure NameAddr where
  front : Text
  host : Text
  port : Text
  back : Text
deriving DecidableEq, Repr

def NameAddr.withHostPort (x : NameAddr) (host port : Text) : NameAddr := { x with host := host, port := port }

/-- A text is in one line. -/
def OneLine (s : Text) : Prop := ∀ c ∈ s, isEol c = false

/-- The SIP stack's reader and printer of a name-addr (sip_name_addr_d, and sip_name_addr_e into a buffer). -/
structure NameAddrs where
  decode : Text → Option NameAddr
  encode : NameAddr → Option Text
  /-- What is printed is a C string. -/
  printed : ∀ (x : NameAddr) out, encode x = some out → '\x00' ∉ out
  /-- A host and a port show in the print. -/
  shown : ∀ (x : NameAddr) host port out, encode (x.withHostPort host port) = some out →
    encode (x.withHostPort [] []) = some out → host = [] ∧ port = []
  /-- The buffer takes less where it takes more. -/
  shorter : ∀ (x : NameAddr) host port out, encode (x.withHostPort host port) = some out →
    (encode (x.withHostPort [] [])).isSome = true
  /-- The printer breaks no line. -/
  oneLine : ∀ s (x : NameAddr) host port out, decode s = some x → encode (x.withHostPort host port) = some out →
    OneLine s → OneLine host → OneLine port → OneLine out

/-- What `makeTags` meets: the stack's functions, and what `replaceHostInUri` finds in its buffer behind the 255
    characters it has copied there at most, up to the first zero. -/
structure TagEnv where
  nameAddrs : NameAddrs
  buffer : Text
  preserved : List Text

/-- The buffer after the strncpy of `replaceHostInUri`: a text of 255 characters is not terminated. -/
def TagEnv.copied (env : TagEnv) (uri : Text) : Text :=
  let s := cText uri
  if s.length < 255 then s else s.take 255 ++ cText env.buffer

def replaceHostInUri (env : TagEnv) (uri host port : Text) : Text :=
  match env.nameAddrs.decode (env.copied uri) with
  | none => uri
  | some x => (env.nameAddrs.encode (x.withHostPort host port)).getD uri

/-- The places of a separator, the last one first: what is before it and behind it -/
def splitsAt (sep : Char) : Text → List (Text × Text)
  | [] => []
  | c :: s => (splitsAt sep s).map (fun p => (c :: p.1, p.2)) ++ if c = sep then [([], s)] else []

/-- The greedy match of `^(.*)/(.*):(\d+)`, which stays in the first line -/
def parseTransportDescription (desc : Text) : Option (Text × Text × Text) :=
  (splitsAt '/' (desc.takeWhile fun c => !isEol c)).findSome? fun p =>
    (splitsAt ':' p.2).findSome? fun q =>
      let port := q.2.takeWhile Char.isDigit
      if port = [] then none else some (p.1, q.1, port)

/-! ### The tags of a header block -/

/-- A line with a name and a value that may go on: the checks of the two loops -/
def parseLine (line : Text) : Option (Text × Text) :=
  match cut [':'] line with
  | none => none
  | some (hdrName, hdrValue) =>
    let hdrName := trim hdrName
    if isTokenText hdrName = false then none
    else
      let hdrValue := trim hdrValue
      if crlf <:+: hdrValue then none else some (hdrName, hdrValue)

/-- The slot of a line, with `known` for the value of a well-known header, if it has one. -/
def makeTag (preserved : List Text) (known : Text → Text → Option Text) (line : Text) : TagItem :=
  match parseLine line with
  | none => ⟨.skip, none⟩
  | some (hdrName, hdrValue) =>
    let hdr := hdrOf hdrName
    if isImmutableHdr hdr = true then ⟨.skip, none⟩
    else
      match getTagTypeForHdr hdr with
      | some tt =>
        match known hdr hdrValue with
        | some value => ⟨tt, some (cText value)⟩
        | none => ⟨.skip, none⟩
      | none => ⟨.unknownStr, some (cText (capitalizeAfterDash preserved hdrName ++ ": ".toList ++ hdrValue))⟩

/-- The loop over the lines, which writes the slots one after the other -/
def makeTagsLoop (make : Text → TagItem) : List Text → Nat → List (Option TagItem) → List (Option TagItem)
  | [], _, tags => tags
  | line :: lines, i, tags => makeTagsLoop make lines (i + 1) (tags.set i (some (make line)))

/-- An array for the lines and tag_null; a slot that is not written has nothing in it. -/
def fillTags (make : Text → TagItem) (hdrs : Text) : List (Option TagItem) :=
  let vec := splitLines hdrs
  (makeTagsLoop make vec 0 (List.replicate (vec.length + 1) none)).set vec.length (some ⟨.null, none⟩)

/-- The headers whose host is replaced -/
def hasAddress (hdr : Text) : Bool :=
  decide (String.ofList hdr ∈ ["from", "contact", "to", "p_asserted_identity"])

def makeSafeTags (preserved : List Text) (hdrs : Text) : List (Option TagItem) :=
  fillTags (makeTag preserved fun hdr hdrValue => if hasAddress hdr = true then none else some hdrValue) hdrs

/-- The value of a well-known header in `makeTags` -/
def localize (env : TagEnv) (host port : Text) (hdr hdrValue : Text) : Text :=
  if "@localhost".toList <:+: hdrValue ∧ hasAddress hdr = true then replaceHostInUri env hdrValue host port else hdrValue

/-- The host and port that stand for localhost -/
def replacement (transport : Text) (externalIp : Option Text) : Text × Text :=
  let (_, host, port) := (parseTransportDescription transport).getD ([], [], [])
  (externalIp.getD host, port)

def makeTags (env : TagEnv) (hdrs transport : Text) (externalIp : Option Text) : List (Option TagItem) :=
  let (host, port) := replacement transport externalIp
  fillTags (makeTag env.preserved fun hdr hdrValue => some (localize env host port hdr hdrValue)) hdrs

/-! ### Requests inside a dialog -/

/-- What a dialog keeps of its transport -/
structure DialogTransport where
  protocol : Text
  transportAddress : Text
  transportPort : Text
deriving DecidableEq, Repr

namespace DialogTransport

def desc (d : DialogTransport) : Text := d.protocol ++ '/' :: d.transportAddress ++ ':' :: d.transportPort

/-- The parameter after the call, to which the description is assigned, and the caller's string, of which it is a copy -/
def getTransportDesc (d : DialogTransport) (transport : Text) : Text × Text := (d.desc, transport)

/-- The tags of `doSendRequestInsideDialog` -/
def requestTags (env : TagEnv) (hdrs : Text) (d : DialogTransport) : List (Option TagItem) :=
  makeTags env hdrs (d.getTransportDesc []).2 none

end DialogTransport

end Drachtio.Sip
