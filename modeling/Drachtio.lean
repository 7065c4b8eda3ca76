import Drachtio.Lib.Run
import Drachtio.Proxy.ClientTransaction
import Drachtio.Proxy.ProxyCore
import Drachtio.Theorems.Proxy.Client
import Drachtio.Theorems.Proxy.Core
import Drachtio.Theorems.Proxy.Keys
import Drachtio.Theorems.Proxy.Micro
import Drachtio.Theorems.Proxy.Search
import Drachtio.Theorems.Proxy.Progress
import Drachtio.Theorems.Proxy.Timers
import Drachtio.Theorems.Proxy.Orphans
import Drachtio.Theorems.Proxy.Rseq
import Drachtio.Theorems.Proxy.Vector
import Drachtio.Theorems.Proxy.Upstream
import Drachtio.Theorems.Proxy.Kinds
import Drachtio.Theorems.Proxy.Launch
import Drachtio.Theorems.Proxy.Verdicts
import Drachtio.Theorems.Proxy.Serial
import Drachtio.Theorems.Proxy.Stranded
import Drachtio.Lib.Fields
import Drachtio.Lib.Table
import Drachtio.Proxy.Registry
import Drachtio.Theorems.Proxy.Registry
import Drachtio.Lib.Ranked
import Drachtio.Theorems.Proxy.Best
import Drachtio.Theorems.Proxy.Hops
import Drachtio.Theorems.Proxy.Pracks
import Drachtio.Theorems.Proxy.Redirects
import Drachtio.Client.Framing
import Drachtio.Theorems.Client.Framing
import Drachtio.Client.Commands
import Drachtio.Theorems.Client.Asks
import Drachtio.Theorems.Client.Accesses
import Drachtio.Theorems.Client.Gate
import Drachtio.Lib.Linked
import Drachtio.Timer.TimerQueue
import Drachtio.Theorems.Timer.Links
import Drachtio.Theorems.Timer.Queue
import Drachtio.Theorems.Timer.Runs
import Drachtio.Pending.PendingRequests
import Drachtio.Theorems.Pending.Tables
import Drachtio.Pending.Disposal
import Drachtio.Theorems.Pending.Canceled
import Drachtio.Theorems.Pending.Cancels
import Drachtio.Dialog.Network
import Drachtio.Dialog.System
import Drachtio.Theorems.Dialog.Objects
import Drachtio.Theorems.Dialog.View
import Drachtio.Theorems.Dialog.Ids
import Drachtio.Theorems.Dialog.Registered
import Drachtio.Theorems.Dialog.Keeps
import Drachtio.Theorems.Dialog.Steps
import Drachtio.Theorems.Dialog.Owners
import Drachtio.Theorems.Dialog.Backed
import Drachtio.Theorems.Dialog.Transactions
import Drachtio.Client.Requests
import Drachtio.Theorems.Proxy.Replies
import Drachtio.Theorems.Client.Answers
import Drachtio.Dialog.Respond
import Drachtio.Dialog.Sessions
import Drachtio.Theorems.Dialog.Sessions
import Drachtio.Dialog.InvitesInProgress
import Drachtio.Theorems.Dialog.InvitesInProgress
import Drachtio.Dialog.TimerD
import Drachtio.Theorems.Dialog.TimerD
import Drachtio.Dialog.Retransmit
import Drachtio.Theorems.Dialog.Retransmit
import Drachtio.Theorems.Dialog.Responses
import Drachtio.Theorems.Dialog.Outcomes
import Drachtio.Theorems.Dialog.Refusals
import Drachtio.Theorems.Dialog.Provisionals
import Drachtio.Theorems.Tport.Liveness
import Drachtio.Client.Stream
import Drachtio.Theorems.Client.Capacity
import Drachtio.Client.Dispatcher
import Drachtio.Theorems.Client.Containment
import Drachtio.Client.Selection
import Drachtio.Lib.RoundRobin
import Drachtio.Theorems.Client.Selection
import Drachtio.Timer.Callbacks
import Drachtio.Theorems.Timer.Callbacks
import Drachtio.Route.Instruction
import Drachtio.Route.Reply
import Drachtio.Theorems.Route.Reply
import Drachtio.Proxy.Challenges
import Drachtio.Theorems.Proxy.Challenges
import Drachtio.Theorems.Client.Registrations
import Drachtio.Controller.Bindings
import Drachtio.Theorems.Controller.Bindings
import Drachtio.Controller.ContactAlias
import Drachtio.Theorems.Controller.ContactAlias
import Drachtio.Theorems.Dialog.CallIds
import Drachtio.Theorems.Client.Marshalling
import Drachtio.Lib.Query
import Drachtio.Pending.Routing
import Drachtio.Theorems.Pending.Routing
import Drachtio.Sip.Headers
import Drachtio.Theorems.Sip.Headers
import Drachtio.Theorems.Sip.Localhost
import Drachtio.Theorems.Client.Messages
import Drachtio.Lib.Numerals
import Drachtio.Blacklist.Addresses
import Drachtio.Theorems.Blacklist.Addresses
import Drachtio.Blacklist.Thread
import Drachtio.Theorems.Blacklist.Polls
import Drachtio.Sip.Rfc1918
import Drachtio.Theorems.Sip.Rfc1918
import Drachtio.Theorems.Client.ProvisionalTimeout
import Drachtio.Lib.Backtrack
import Drachtio.Sip.Uri
import Drachtio.Lib.Sorting
import Drachtio.Transport.SipTransport
import Drachtio.Theorems.Transport.ContactUri
import Drachtio.Theorems.Transport.Networks
import Drachtio.Transport.Selection
import Drachtio.Theorems.Transport.Selection
import Drachtio.Lib.Pool
import Drachtio.Http.RequestHandler
import Drachtio.Theorems.Http.RequestHandler
import Drachtio.Theorems.Http.DirectRoutes
import Drachtio.Transport.Table
import Drachtio.Theorems.Transport.Table
import Drachtio.Config.CommandLine
import Drachtio.Theorems.Config.CommandLine
import Drachtio.Config.RequestRouter
import Drachtio.Theorems.Config.RequestRouter
import Drachtio.Controller.Dispatch
import Drachtio.Theorems.Controller.Cores
import Drachtio.Theorems.Controller.Dispatch
import Drachtio.Lib.Ledger
import Drachtio.Dialog.Connection
import Drachtio.Theorems.Dialog.Connection
import Drachtio.Theorems.Dialog.Peers
