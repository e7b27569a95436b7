import PagedHeap.Action
import PagedHeap.Bytes
import PagedHeap.Checksum
import PagedHeap.CommandLine
import PagedHeap.Error
import PagedHeap.File.Disk
import PagedHeap.File.Header
import PagedHeap.File.Image
import PagedHeap.File.Memory
import PagedHeap.File.Name
import PagedHeap.File.Store
import PagedHeap.Filter.Basic
import PagedHeap.Filter.Text
import PagedHeap.Heap.Describe
import PagedHeap.Heap.File
import PagedHeap.Heap.Header
import PagedHeap.Heap.Insert
import PagedHeap.Heap.Scan
import PagedHeap.Identifier
import PagedHeap.Main
import PagedHeap.Page.Basic
import PagedHeap.Page.Command
import PagedHeap.Page.Header
import PagedHeap.Page.Slot
import PagedHeap.Page.Slotted
import PagedHeap.Pool.Access
import PagedHeap.Pool.Basic
import PagedHeap.Pool.Recency
import PagedHeap.Proofs.Agreement
import PagedHeap.Proofs.Allows
import PagedHeap.Proofs.Causes
import PagedHeap.Proofs.Checksum
import PagedHeap.Proofs.CommandLine.Commands
import PagedHeap.Proofs.CommandLine.History
import PagedHeap.Proofs.CommandLine.Lines
import PagedHeap.Proofs.CommandLine.Steps
import PagedHeap.Proofs.Concurrence
import PagedHeap.Proofs.Damage
import PagedHeap.Proofs.Ensures
import PagedHeap.Proofs.File.Books
import PagedHeap.Proofs.File.Calls
import PagedHeap.Proofs.File.Checks
import PagedHeap.Proofs.File.Chronicle
import PagedHeap.Proofs.File.Comparing
import PagedHeap.Proofs.File.Directory
import PagedHeap.Proofs.File.DiskBooks
import PagedHeap.Proofs.File.DiskChronicle
import PagedHeap.Proofs.File.Header
import PagedHeap.Proofs.File.History
import PagedHeap.Proofs.File.Holding
import PagedHeap.Proofs.File.Image
import PagedHeap.Proofs.File.Measured
import PagedHeap.Proofs.File.Memory
import PagedHeap.Proofs.File.MemoryBooks
import PagedHeap.Proofs.File.MemoryChronicle
import PagedHeap.Proofs.File.Mirror
import PagedHeap.Proofs.File.Names
import PagedHeap.Proofs.File.Offer
import PagedHeap.Proofs.File.Persistence
import PagedHeap.Proofs.File.Tallies
import PagedHeap.Proofs.Filter
import PagedHeap.Proofs.Headers
import PagedHeap.Proofs.Heap.Accounts
import PagedHeap.Proofs.Heap.Appending
import PagedHeap.Proofs.Heap.Attached
import PagedHeap.Proofs.Heap.Attempts
import PagedHeap.Proofs.Heap.Chain
import PagedHeap.Proofs.Heap.Closing
import PagedHeap.Proofs.Heap.Concurring
import PagedHeap.Proofs.Heap.Create
import PagedHeap.Proofs.Heap.Files
import PagedHeap.Proofs.Heap.Filling
import PagedHeap.Proofs.Heap.Header
import PagedHeap.Proofs.Heap.Housed
import PagedHeap.Proofs.Heap.Insert
import PagedHeap.Proofs.Heap.Lifetime
import PagedHeap.Proofs.Heap.Links
import PagedHeap.Proofs.Heap.Making
import PagedHeap.Proofs.Heap.Open
import PagedHeap.Proofs.Heap.Opening
import PagedHeap.Proofs.Heap.Packing
import PagedHeap.Proofs.Heap.Parallel
import PagedHeap.Proofs.Heap.Places
import PagedHeap.Proofs.Heap.Record
import PagedHeap.Proofs.Heap.Room
import PagedHeap.Proofs.Heap.Scan
import PagedHeap.Proofs.Heap.Untouched
import PagedHeap.Proofs.Heap.Volume
import PagedHeap.Proofs.Page.Accepted
import PagedHeap.Proofs.Page.Admission
import PagedHeap.Proofs.Page.Change
import PagedHeap.Proofs.Page.Checked
import PagedHeap.Proofs.Page.Compact
import PagedHeap.Proofs.Page.Insert
import PagedHeap.Proofs.Page.Layout
import PagedHeap.Proofs.Page.Map
import PagedHeap.Proofs.Page.Outcome
import PagedHeap.Proofs.Page.Pack
import PagedHeap.Proofs.Page.Reopening
import PagedHeap.Proofs.Page.Slices
import PagedHeap.Proofs.Page.WellFormed
import PagedHeap.Proofs.Pool.Access
import PagedHeap.Proofs.Pool.Accounts
import PagedHeap.Proofs.Pool.Eviction
import PagedHeap.Proofs.Pool.Exhaustion
import PagedHeap.Proofs.Pool.Flushed
import PagedHeap.Proofs.Pool.Held
import PagedHeap.Proofs.Pool.LastUse
import PagedHeap.Proofs.Pool.Law
import PagedHeap.Proofs.Pool.Parallel
import PagedHeap.Proofs.Pool.Positions
import PagedHeap.Proofs.Pool.Recency
import PagedHeap.Proofs.Pool.Room
import PagedHeap.Proofs.Pool.Tracked
import PagedHeap.Proofs.Pool.Transparency
import PagedHeap.Proofs.Pool.Usage
import PagedHeap.Proofs.Pool.Volume
import PagedHeap.Proofs.Session.Accounted
import PagedHeap.Proofs.Session.Accounts
import PagedHeap.Proofs.Session.Answering
import PagedHeap.Proofs.Session.Arranged
import PagedHeap.Proofs.Session.Browsing
import PagedHeap.Proofs.Session.Chain
import PagedHeap.Proofs.Session.Commands
import PagedHeap.Proofs.Session.Counts
import PagedHeap.Proofs.Session.Creating
import PagedHeap.Proofs.Session.Directory
import PagedHeap.Proofs.Session.Durable
import PagedHeap.Proofs.Session.Effect
import PagedHeap.Proofs.Session.ExactlyOnce
import PagedHeap.Proofs.Session.Filling
import PagedHeap.Proofs.Session.Flushed
import PagedHeap.Proofs.Session.Handles
import PagedHeap.Proofs.Session.Inserting
import PagedHeap.Proofs.Session.Interchange
import PagedHeap.Proofs.Session.Leading
import PagedHeap.Proofs.Session.Lookups
import PagedHeap.Proofs.Session.Marking
import PagedHeap.Proofs.Session.Mirror
import PagedHeap.Proofs.Session.Openings
import PagedHeap.Proofs.Session.Packing
import PagedHeap.Proofs.Session.Parallel
import PagedHeap.Proofs.Session.Reading
import PagedHeap.Proofs.Session.Records
import PagedHeap.Proofs.Session.Reopening
import PagedHeap.Proofs.Session.Retrying
import PagedHeap.Proofs.Session.Run
import PagedHeap.Proofs.Session.Scanning
import PagedHeap.Proofs.Session.Sound
import PagedHeap.Proofs.Session.Stocking
import PagedHeap.Proofs.Session.Storing
import PagedHeap.Proofs.Session.Visit
import PagedHeap.Proofs.Table
import PagedHeap.Session.Command
import PagedHeap.Session.Direct
import PagedHeap.Session.Run
import PagedHeap.Table
import PagedHeap.Text.Decimal
import PagedHeap.Text.Json
import PagedHeap.Text.Lossy
import PagedHeap.Text.Printable
import PagedHeap.Text.Quoted
