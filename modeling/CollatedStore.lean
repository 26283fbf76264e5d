import CollatedStore.Bytes
import CollatedStore.CallError
import CollatedStore.Client
import CollatedStore.Contents
import CollatedStore.Context
import CollatedStore.Cursor
import CollatedStore.CursorOp
import CollatedStore.Descriptor
import CollatedStore.Environment.Access
import CollatedStore.Environment.Basic
import CollatedStore.Environment.Cursors
import CollatedStore.Environment.Databases
import CollatedStore.Fault
import CollatedStore.Flags
import CollatedStore.Foreign
import CollatedStore.Handle
import CollatedStore.Hex
import CollatedStore.Host
import CollatedStore.Inquiry
import CollatedStore.Json.Number
import CollatedStore.Json.Printer
import CollatedStore.Json.Record
import CollatedStore.Json.Scanner
import CollatedStore.Json.Value
import CollatedStore.Listing
import CollatedStore.Order
import CollatedStore.Proofs.Alike
import CollatedStore.Proofs.Answers
import CollatedStore.Proofs.Baseline
import CollatedStore.Proofs.Batch
import CollatedStore.Proofs.Client.Degradation
import CollatedStore.Proofs.Client.Faults
import CollatedStore.Proofs.Client.Interchange
import CollatedStore.Proofs.Client.RoundTrip
import CollatedStore.Proofs.Client.Uses
import CollatedStore.Proofs.Context
import CollatedStore.Proofs.Edits
import CollatedStore.Proofs.Environment.Accounting
import CollatedStore.Proofs.Environment.Admission
import CollatedStore.Proofs.Environment.Alike
import CollatedStore.Proofs.Environment.AppendedValues
import CollatedStore.Proofs.Environment.Atomicity
import CollatedStore.Proofs.Environment.Attempts
import CollatedStore.Proofs.Environment.BatchCounts
import CollatedStore.Proofs.Environment.Batches
import CollatedStore.Proofs.Environment.Beside
import CollatedStore.Proofs.Environment.Bounds
import CollatedStore.Proofs.Environment.BulkLoad
import CollatedStore.Proofs.Environment.Calls
import CollatedStore.Proofs.Environment.Capacity
import CollatedStore.Proofs.Environment.Catalog
import CollatedStore.Proofs.Environment.Checks
import CollatedStore.Proofs.Environment.Conformity
import CollatedStore.Proofs.Environment.DatabaseSlots
import CollatedStore.Proofs.Environment.Deletion
import CollatedStore.Proofs.Environment.Effects
import CollatedStore.Proofs.Environment.Endings
import CollatedStore.Proofs.Environment.Enumeration
import CollatedStore.Proofs.Environment.Finding
import CollatedStore.Proofs.Environment.Footing
import CollatedStore.Proofs.Environment.Handles
import CollatedStore.Proofs.Environment.Interference
import CollatedStore.Proofs.Environment.Isolation
import CollatedStore.Proofs.Environment.Landing
import CollatedStore.Proofs.Environment.Lookups
import CollatedStore.Proofs.Environment.Marks
import CollatedStore.Proofs.Environment.Ordering
import CollatedStore.Proofs.Environment.Pages
import CollatedStore.Proofs.Environment.Places
import CollatedStore.Proofs.Environment.ReaderSlots
import CollatedStore.Proofs.Environment.Refinement
import CollatedStore.Proofs.Environment.Repetition
import CollatedStore.Proofs.Environment.Replacement
import CollatedStore.Proofs.Environment.Requests
import CollatedStore.Proofs.Environment.Resumption
import CollatedStore.Proofs.Environment.RoundTrip
import CollatedStore.Proofs.Environment.Routes
import CollatedStore.Proofs.Environment.Sifting
import CollatedStore.Proofs.Environment.Stale
import CollatedStore.Proofs.Environment.Standing
import CollatedStore.Proofs.Environment.StepBack
import CollatedStore.Proofs.Environment.Successor
import CollatedStore.Proofs.Environment.Twins
import CollatedStore.Proofs.Environment.Walk
import CollatedStore.Proofs.Evaluation
import CollatedStore.Proofs.Flags
import CollatedStore.Proofs.Foreign
import CollatedStore.Proofs.Gathering
import CollatedStore.Proofs.Hex
import CollatedStore.Proofs.Holding
import CollatedStore.Proofs.InOrder
import CollatedStore.Proofs.Json.Scanner
import CollatedStore.Proofs.Listing
import CollatedStore.Proofs.Moves
import CollatedStore.Proofs.Neighbours
import CollatedStore.Proofs.Orders
import CollatedStore.Proofs.Readers
import CollatedStore.Proofs.Records
import CollatedStore.Proofs.Reference.Basic
import CollatedStore.Proofs.Reference.OrderedMap
import CollatedStore.Proofs.Reference.PairSet
import CollatedStore.Proofs.Reference.SingleValues
import CollatedStore.Proofs.Reference.SortedValues
import CollatedStore.Proofs.Refusals
import CollatedStore.Proofs.Registry.CleanUp
import CollatedStore.Proofs.Registry.Forgetting
import CollatedStore.Proofs.Registry.Guards
import CollatedStore.Proofs.Registry.InMemory
import CollatedStore.Proofs.Registry.Installation
import CollatedStore.Proofs.Registry.Lent
import CollatedStore.Proofs.Registry.Linked
import CollatedStore.Proofs.Registry.Operations
import CollatedStore.Proofs.Registry.Policies
import CollatedStore.Proofs.Registry.Registration
import CollatedStore.Proofs.Registry.Rollback
import CollatedStore.Proofs.Registry.Serving
import CollatedStore.Proofs.Registry.Swept
import CollatedStore.Proofs.Registry.World
import CollatedStore.Proofs.Replacing
import CollatedStore.Proofs.Sample
import CollatedStore.Proofs.Search
import CollatedStore.Proofs.Sorted
import CollatedStore.Proofs.Table
import CollatedStore.Proofs.Text.Utf8
import CollatedStore.Proofs.Unbroken
import CollatedStore.Proofs.Writes
import CollatedStore.Readers
import CollatedStore.Records
import CollatedStore.Registry.Basic
import CollatedStore.Registry.Install
import CollatedStore.Registry.Judgement
import CollatedStore.Sample.Basic
import CollatedStore.Sample.Printer
import CollatedStore.Sample.Reader
import CollatedStore.Search
import CollatedStore.Status
import CollatedStore.Store.Basic
import CollatedStore.Store.Buffers
import CollatedStore.Store.Install
import CollatedStore.Store.Scripted
import CollatedStore.Strict
import CollatedStore.Table
import CollatedStore.Text.Legible
import CollatedStore.Text.Line
import CollatedStore.Text.Quoted
import CollatedStore.Text.Utf8
import CollatedStore.Work
