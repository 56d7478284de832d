import Mali.Abi.Command
import Mali.Abi.Layout
import Mali.Abi.Request
import Mali.Abi.Structs
import Mali.Allocator
import Mali.Allocator.Create
import Mali.Allocator.Import
import Mali.Allocator.Journal
import Mali.Allocator.Release
import Mali.Allocator.Summary
import Mali.Allocator.Wait
import Mali.Batch
import Mali.Batch.Submit
import Mali.Buffer
import Mali.Bytes
import Mali.Cache
import Mali.Decimal
import Mali.Device
import Mali.Device.Bench
import Mali.Device.CpuQueue
import Mali.Device.Events
import Mali.Device.Interface
import Mali.Device.Job
import Mali.Device.Open
import Mali.Device.Probe
import Mali.Device.Region
import Mali.Device.Slots
import Mali.Device.Stream
import Mali.Device.Summary
import Mali.Device.Sync
import Mali.Device.Wait
import Mali.Error
import Mali.Fence
import Mali.FlagNames
import Mali.Handle
import Mali.Json
import Mali.Kernel.Argument
import Mali.Kernel.Bench
import Mali.Kernel.Call
import Mali.Kernel.Trace
import Mali.Machine
import Mali.Memory
import Mali.Notification
import Mali.Options
import Mali.Properties
import Mali.Size
import Mali.Slot
import Mali.Statistics
import Mali.Usage
import Mali.Proofs.AccountHistory
import Mali.Proofs.Books
import Mali.Proofs.Collecting
import Mali.Proofs.DeferredFree
import Mali.Proofs.Dependencies
import Mali.Proofs.EventSlots
import Mali.Proofs.Execution
import Mali.Proofs.Frame
import Mali.Proofs.Ledger
import Mali.Proofs.LifeCycle
import Mali.Proofs.Passes
import Mali.Proofs.Progress
import Mali.Proofs.References
import Mali.Proofs.Release
import Mali.Proofs.Runs
import Mali.Proofs.SlotHistory
import Mali.Proofs.Usages
import Mali.Proofs.Termination
import Mali.Proofs.Atoms
import Mali.Proofs.AtomOrder
import Mali.Proofs.Places
import Mali.Proofs.BusyBuffers
import Mali.Proofs.BufferRuns
import Mali.Proofs.Access
import Mali.Proofs.Waits
import Mali.Proofs.WaitRuns
import Mali.Proofs.Streams
import Mali.Proofs.Fences
import Mali.Proofs.Binding
import Mali.Proofs.Shortcuts
import Mali.Proofs.CacheOrder
import Mali.Proofs.CacheRuns
import Mali.Proofs.Eviction
import Mali.Proofs.HandleRules
import Mali.Proofs.Polls
import Mali.Proofs.Handling
import Mali.Proofs.HandleMap
import Mali.Proofs.UseCounts
import Mali.Proofs.AtomFences
import Mali.Proofs.OpenFiles
import Mali.Proofs.FileRuns
import Mali.Proofs.Records
import Mali.Proofs.Mappings
import Mali.Proofs.OpenClose
import Mali.Proofs.Holdings
import Mali.Proofs.Transfers
import Mali.Proofs.StreamRelations
import Mali.Proofs.Workings
import Mali.Proofs.Proceedings
import Mali.Proofs.Totals
import Mali.Proofs.Sessions
import Mali.Proofs.Stock
import Mali.Proofs.Submitters
import Mali.Proofs.Bystanders
import Mali.Proofs.ContextObjects
import Mali.Proofs.ChronicleRuns
import Mali.Proofs.Conduct
import Mali.Proofs.ContextRuns
import Mali.Proofs.Holders
import Mali.Proofs.RefusedJobs
import Mali.Proofs.Requests
import Mali.Proofs.Rounding
import Mali.Proofs.Deeds
import Mali.Proofs.FailedRegions
import Mali.Proofs.FailedBindings
import Mali.Proofs.Respects
import Mali.Proofs.FailedImports
import Mali.Proofs.EventRecords
import Mali.Proofs.Recovery
import Mali.Proofs.Ladder
import Mali.Proofs.Searches
import Mali.Proofs.BufferSizes
import Mali.Proofs.SearchBooks
import Mali.Proofs.Marking
import Mali.Proofs.OutOfMemory
import Mali.Proofs.FreshBuffers
import Mali.Proofs.RegionSizes
import Mali.Proofs.Maintenance
import Mali.Proofs.Stations
import Mali.Proofs.Tenures
import Mali.Proofs.UsageJoins
import Mali.Proofs.Cleaning
import Mali.Proofs.PropertyStreams
import Mali.Proofs.MemoryHooks
import Mali.Proofs.RequestNumbers
import Mali.Proofs.Merging
import Mali.Proofs.ExternalResources
import Mali.Proofs.SizeClasses
import Mali.Proofs.Reuse
import Mali.Proofs.Notices
import Mali.Proofs.Disposal
import Mali.Proofs.NoticeRuns
import Mali.Proofs.Unstirred
import Mali.Proofs.Loans
import Mali.Proofs.Dues
import Mali.Proofs.LoanAccounts
import Mali.Proofs.SubmitterLoans
import Mali.Proofs.LoanRuns
import Mali.Proofs.FlagTexts
import Mali.Proofs.ClassBounds
