import Drachtio.Client.Commands
import Drachtio.Client.Framing

/-! The connection with its dispatcher: what `Client::read_handler` hands to `BaseClient::processClientMessage`. -/

namespace Drachtio.Client

/-- The text of a message, with a character for each byte. -/
def text (msg : List UInt8) : String := String.ofList (msg.map fun b => Char.ofNat b.toNat)

/-- The session of a connection and what its messages meet, one after the other. -/
structure Served where
  session : Session
  envs : Nat → CommandEnv
  /-- How many messages were handled. -/
  handled : Nat
  /-- No message so far was read past its tokens or failed an assertion. -/
  within : Bool

def Served.new (session : Session) (envs : Nat → CommandEnv) : Served := ⟨session, envs, 0, true⟩

/-- The dispatcher throws nothing. What comes after a message that was read past its tokens is undefined, and the
    connection ends there as far as this goes. -/
def dispatcher (k : Config) (isOutbound : Bool) (outboundReady : Session → Session) : Handlers Served where
  processClientMessage msg w :=
    let o := w.session.processClientMessage k (w.envs w.handled) (text msg)
    let tokens := splitTokens (splitMsg (text msg)).metaLine
    ({ w with
        session := o.session
        handled := w.handled + 1
        within := w.within && (accesses (text msg)).all (·.valid tokens) },
      bytes o.response,
      match o.result with
      | .returned ok => some ok
      | .undefined => none)
  isOutbound := isOutbound
  outboundReady w := { w with session := outboundReady w.session }

end Drachtio.Client
