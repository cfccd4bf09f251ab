import NanoMQ.Library.Bytes
import NanoMQ.Library.Blocks
import NanoMQ.Library.DualIndex
import NanoMQ.Library.TaskPool
import NanoMQ.Library.Reading
import NanoMQ.Library.Contexts
import NanoMQ.Library.Overlap
import NanoMQ.Library.References
import NanoMQ.Library.Digits
import NanoMQ.Library.Fields
import NanoMQ.Library.Probing
import NanoMQ.Library.Hashing
import NanoMQ.Library.BoundedQueue
import NanoMQ.Library.Sessions
import NanoMQ.Library.Verdicts
import NanoMQ.Library.SqlTokens
import NanoMQ.Library.SqlInsert
import NanoMQ.Nng.Packet
import NanoMQ.Nng.Message
import NanoMQ.Nng.Reference
import NanoMQ.Publish.Decode
import NanoMQ.Publish.Layout
import NanoMQ.Publish.Acceptance
import NanoMQ.Publish.Encode
import NanoMQ.Publish.RoundTrip
import NanoMQ.Publish.Forwarding
import NanoMQ.Subscriptions.Handlers
import NanoMQ.Subscriptions.Agreement
import NanoMQ.Subscriptions.Interleaving
import NanoMQ.Subscriptions.Decode
import NanoMQ.Decoders.Bounds
import NanoMQ.Subscriptions.Entries
import NanoMQ.Hashmap.Table
import NanoMQ.Hashmap.Refinement
import NanoMQ.Hashmap.FailedPut
import NanoMQ.Hashmap.Hash
import NanoMQ.Rest.Routing
import NanoMQ.Rest.Authorize
import NanoMQ.Rest.UriParams
import NanoMQ.Rest.PathSplit
import NanoMQ.Rest.Config
import NanoMQ.Rest.ConfigSettings
import NanoMQ.Rest.ConfigWrites
import NanoMQ.Rest.ConfigTransfer
import NanoMQ.Rest.BridgeForwards
import NanoMQ.Rest.CJson
import NanoMQ.Rest.Properties
import NanoMQ.Rest.InprocFrame
import NanoMQ.Rest.SubscribeMsg
import NanoMQ.Rest.Jobs
import NanoMQ.Rest.JobContexts
import NanoMQ.Rest.RuleParams
import NanoMQ.Rest.PutRules
import NanoMQ.Rest.RuleUpdates
import NanoMQ.Rest.RuleInForce
import NanoMQ.Rest.PostRules
import NanoMQ.Rest.RuleRefusals
import NanoMQ.Rules.Filter
import NanoMQ.Rules.Conditions
import NanoMQ.Rules.FilterExact
import NanoMQ.Rules.Output
import NanoMQ.Rules.History
import NanoMQ.Rules.Engine
import NanoMQ.Rules.Insert
import NanoMQ.WebHook.Base62
import NanoMQ.WebHook.Queue
import NanoMQ.Broker.Work
import NanoMQ.Broker.HandlePub
import NanoMQ.Broker.ServerCb
import NanoMQ.Broker.Frame
import NanoMQ.Broker.Activation
import NanoMQ.Broker.System
import NanoMQ.Broker.Resolution
import NanoMQ.Broker.Reference
import NanoMQ.Broker.Arming
import NanoMQ.Broker.FanOut
import NanoMQ.Broker.SubscribeRequest
import NanoMQ.Broker.SubscribeEntries
import NanoMQ.Broker.SubscribeRetained
import NanoMQ.Broker.Unsubscribe
import NanoMQ.Broker.UnsubscribeFields
import NanoMQ.Broker.Retained
import NanoMQ.Broker.Routing
import NanoMQ.Broker.Calls
import NanoMQ.Broker.Steps
import NanoMQ.Broker.TakeOver
import NanoMQ.Broker.Turns
import NanoMQ.Broker.Completion
import NanoMQ.Broker.CarryOver
import NanoMQ.Broker.ConnParams
import NanoMQ.Broker.Reports
import NanoMQ.Broker.Handover
import NanoMQ.Broker.Ownership
import NanoMQ.Broker.RetainedReferences
import NanoMQ.Broker.Expiry
import NanoMQ.Broker.EncodedLength
import NanoMQ.Broker.WorkArray
import NanoMQ.Bridge.Connect
import NanoMQ.Bridge.Forwards
