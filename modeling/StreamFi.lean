import StreamFi.Js.Text
import StreamFi.Js.Encoding
import StreamFi.Sorted.Window
import StreamFi.Constants
import StreamFi.Js.Value
import StreamFi.Run.Table
import StreamFi.Coalesce
import StreamFi.Listing
import StreamFi.Factory.Paging
import StreamFi.Listing.OneFilter
import StreamFi.Stellar
import StreamFi.Amount
import StreamFi.Stroops
import StreamFi.Batch.Build
import StreamFi.Batch.Execute
import StreamFi.Batch.Submit
import StreamFi.Batch.Retry
import StreamFi.Create.Validate
import StreamFi.Create.Args
import StreamFi.Create.Schedule
import StreamFi.Confirm
import StreamFi.Withdraw
import StreamFi.Sequences
import StreamFi.Create.Chain
import StreamFi.Create.Batch
import StreamFi.Create.Truth
import StreamFi.Create.Order
import StreamFi.Config.Readers
import StreamFi.Config.Reads
import StreamFi.Factory.Address
import StreamFi.Caller
import StreamFi.Batch.Queue
import StreamFi.Js.Rounding
import StreamFi.Stream.Balance
import StreamFi.Stream.Status
import StreamFi.Stream.Accrual
import StreamFi.Js.Numeral
import StreamFi.Builder.Fields
import StreamFi.Builder.Config
import StreamFi.Builder.Exact
import StreamFi.Batch.Sync
import StreamFi.Batch.Encodable
import StreamFi.Builder.Routes
import StreamFi.Circuit.State
import StreamFi.Circuit.Breaker
import StreamFi.Circuit.Server
import StreamFi.Events.Subscription
import StreamFi.Events.Dedup
import StreamFi.Events.Gaps
import StreamFi.Events.Recovery
import StreamFi.Relayer.Socket
import StreamFi.Relayer.Stale
import StreamFi.Relayer.Lock
import StreamFi.Relayer.Destroy
import StreamFi.Relayer.Line
import StreamFi.Relayer.Traffic
import StreamFi.Relayer.Order
import StreamFi.Builder.Clone
import StreamFi.Js.Json
import StreamFi.Js.Map
import StreamFi.Memo.Lru
import StreamFi.Memo.Chunks
import StreamFi.Memo.Transparent
import StreamFi.Js.Reading
import StreamFi.Memo.Items
import StreamFi.Memo.Portfolio
import StreamFi.Memo.Classes
import StreamFi.Memo.Diff
import StreamFi.Memo.Snapshot
import StreamFi.Governor
import StreamFi.Adapter.WalletConnect
import StreamFi.Adapter.Requests
import StreamFi.Builder.Semaphore
import StreamFi.Pool.Adaptive
import StreamFi.Run.Rate
import StreamFi.Pool.TokenBucket
import StreamFi.Fees.Estimator
import StreamFi.Fees.Dynamic
import StreamFi.Fees.Estimate
import StreamFi.Run.Feed
import StreamFi.Js.Decoder
import StreamFi.Indexer.Stream
import StreamFi.Indexer.Subscription
import StreamFi.Dashboard.Records
import StreamFi.Sorted.Heap
import StreamFi.Dashboard.History
import StreamFi.Dashboard.Pages
import StreamFi.Dashboard.Visible
import StreamFi.Pool.Bounded
import StreamFi.Events.Decode
import StreamFi.Stream.Batch
import StreamFi.Js.Random
import StreamFi.Js.Quotient
import StreamFi.Display
import StreamFi.Dashboard.Format
import StreamFi.Retry
import StreamFi.Dashboard.Normalize
import StreamFi.Wire.Csv
import StreamFi.Dashboard.Export
import StreamFi.Wire.Der
import StreamFi.Signer
import StreamFi.Signing
import StreamFi.ContractErrors
import StreamFi.CustomFetch
import StreamFi.Duration
import StreamFi.Events.Replay
import StreamFi.Events.Unsubscribe
import StreamFi.Batch.Chunks
import StreamFi.Sorted.Records
import StreamFi.Indexer.Ledgers
import StreamFi.Indexer.Pages
import StreamFi.Js.Stringify
import StreamFi.Indexer.Persisted
import StreamFi.Indexer.Deadline
import StreamFi.Indexer.Auto
import StreamFi.Hooks.Notes
import StreamFi.Hooks.Paging
import StreamFi.Run.Latest
import StreamFi.Hooks.Fetching
import StreamFi.Events.Deferred
import StreamFi.Adapter.Keystore
import StreamFi.Fees.Footprint
import StreamFi.Polling
import StreamFi.Factory.Salt
import StreamFi.Bigints
import StreamFi.Stream.Parse
import StreamFi.Js.Sign
import StreamFi.Sorted.Stable
import StreamFi.Search
import StreamFi.Builder.Submit
import StreamFi.LatestLedger
import StreamFi.Events.Chain
