import QuoteServer.Lib.Machine
import QuoteServer.Lib.NumberedStream
import QuoteServer.Lib.OrderLedger
import QuoteServer.Lib.KeyedBatch
import QuoteServer.Lib.KeyedEdit
import QuoteServer.Lib.LockOrder
import QuoteServer.Lib.Footprint
import QuoteServer.Lib.Projection
import QuoteServer.Lib.Erasure
import QuoteServer.Lib.Sampling
import QuoteServer.Lib.RequestReply
import QuoteServer.Lib.FlatJson
import QuoteServer.Json
import QuoteServer.OrderBook
import QuoteServer.Trade
import QuoteServer.Transport.EndpointProvider
import QuoteServer.Product.ProductChange
import QuoteServer.Product.Product
import QuoteServer.Product.Reordering
import QuoteServer.Product.UniqueIds
import QuoteServer.Product.ProductSubscriber
import QuoteServer.Coinbase.MessageHandler
import QuoteServer.Coinbase.FeedProduct
import QuoteServer.Coinbase.FeedSteps
import QuoteServer.Coinbase.Forwarded
import QuoteServer.Coinbase.NoHole
import QuoteServer.Coinbase.HighWater
import QuoteServer.Coinbase.Recovery
import QuoteServer.Coinbase.StuckFetch
import QuoteServer.Coinbase.MergedPath
import QuoteServer.Coinbase.Lossless
import QuoteServer.Coinbase.Replica
import QuoteServer.Coinbase.FirstReset
import QuoteServer.Coinbase.LiveMode
import QuoteServer.Coinbase.TickerHeartbeat
import QuoteServer.Coinbase.Labels
import QuoteServer.Coinbase.Resync
import QuoteServer.Coinbase.FeedClient
import QuoteServer.Coinbase.MessageToTrade
import QuoteServer.Coinbase.FeedMessages
import QuoteServer.TradeMessage
import QuoteServer.Market
import QuoteServer.MarketSteps
import QuoteServer.MarketOrder
import QuoteServer.MarketDrain
import QuoteServer.Transport.Ports
import QuoteServer.Subscriptions
import QuoteServer.Server
import QuoteServer.Registries
import QuoteServer.Provenance
import QuoteServer.LivesOnce
import QuoteServer.Quotes
import QuoteServer.CatchUp
import QuoteServer.System
import QuoteServer.Isolation
import QuoteServer.TradeStream
import QuoteServer.ClientService.Loop
import QuoteServer.ClientService.Outcomes
import QuoteServer.ClientService.OneReply
import QuoteServer.ClientService.KnownCalls
import QuoteServer.ClientService.MissingProduct
import QuoteServer.ClientService.Served
import QuoteServer.Threads.Program
import QuoteServer.Threads.Steps
import QuoteServer.Threads.Order
import QuoteServer.Threads.Deadlock
import QuoteServer.Threads.Started
import QuoteServer.Threads.Stuck
import QuoteServer.DemoClient.Endpoints
import QuoteServer.DemoClient.Listening
import QuoteServer.DemoClient.MainLoop
import QuoteServer.DemoClient.Arguments
import QuoteServer.Session.Session
import QuoteServer.Session.Transcript
import QuoteServer.Session.Conversation
import QuoteServer.Session.Sessions
import QuoteServer.Session.Server
import QuoteServer.Session.Exchange
import QuoteServer.Session.Scenario
import QuoteServer.Session.Survival
import QuoteServer.Session.Listeners
import QuoteServer.Session.Refinement
import QuoteServer.Session.Completion
import QuoteServer.Session.Quotes
