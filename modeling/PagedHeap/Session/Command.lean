import PagedHeap.File.Header
import PagedHeap.Filter.Text
import PagedHeap.Heap.Header
import PagedHeap.Page.Command

/-!
# Commands and replies

A session is a sequence of commands on one database. What is opened gets a name, its handle, under
which later commands refer to it. Every command has a reply; a command that is refused is answered
with the cause.
-/

namespace PagedHeap

/-- The ways to open a heap file. -/
inductive HeapUse where
  /-- To read records by their address. -/
  | lookup
  /-- To scan the records. -/
  | scan
  /-- To insert records. -/
  | insert
deriving DecidableEq

/-- The commands that open something. -/
inductive Opening where
  /-- Opens a heap file. -/
  | heap (use : HeapUse) (name : String)
  /-- Opens a file. -/
  | file (name : String)
  /-- Pins a page of the file behind a handle. -/
  | pin (file : String) (page : PageId)
  /-- Adds a page to the file behind a handle and pins it. -/
  | allocate (file : String)
  /-- A command that cannot be understood. -/
  | unusable

/-- The parameters of a scan as they are asked for. -/
structure ScanRequest where
  /-- The word for the type of the field. -/
  datatype : String
  /-- The word for the comparison. -/
  comparison : String
  /-- The constant in its stored form; without one every record passes. -/
  value : Option Bytes
  /-- Where the field starts. -/
  offset : UInt64
  /-- The length of the field. -/
  length : UInt64

/-- The commands on a handle. Which of them a handle understands depends on what it stands for. -/
inductive HandleCommand where
  /-- Gives the handle up. -/
  | drop
  /-- Closes a heap file. -/
  | close
  /-- Asks for the name of a heap file. -/
  | name
  /-- Asks for the number of records of a heap file. -/
  | recordCount
  /-- Asks for the header of a heap file. -/
  | header
  /-- Asks for the current record's address. -/
  | current
  /-- Asks for the description of a heap file. -/
  | describe
  /-- Reads the record at an address. -/
  | readAt (record : RecordId)
  /-- Inserts a record into a heap file or a page. -/
  | insert (record : Bytes)
  /-- Inserts `count` records of `size` bytes; each repeats the bytes of a number, counted up from
  `seed`. -/
  | insertMany (count size : Nat) (seed : Int32)
  /-- Sets the filter of a scan from parameters. -/
  | startScan (request : ScanRequest)
  /-- Sets the filter of a scan. -/
  | setFilter (filter : Option FilterRequest)
  /-- Asks for the filter of a scan. -/
  | filter
  /-- Goes on to the next record of a scan. -/
  | next
  /-- Reads at most `limit` records of a scan. -/
  | scan (limit : Nat)
  /-- Reads the current record. -/
  | read
  /-- Stores bytes into the current record. -/
  | modify (offset : Nat) (bytes : Bytes)
  /-- Deletes the current record. -/
  | delete
  /-- Marks the position of a scan. -/
  | mark
  /-- Returns to the marked position. -/
  | reset
  /-- Returns to the start of the file. -/
  | endScan
  /-- The current page of a scan, or a pinned page, counts as changed. -/
  | markDirty
  /-- Asks whether a record passes the filter. -/
  | accepts (record : Bytes)
  /-- Gives back one opening of a file. -/
  | closeFile
  /-- Asks for the number, name and size of a file. -/
  | info
  /-- Reads bytes of a page from the file. -/
  | readPage (page : PageId) (offset length : Nat)
  /-- Writes a page into the file. -/
  | writePage (page : PageId) (bytes : Bytes) (patches : List Patch)
  /-- Adds a page to the file. -/
  | allocatePage
  /-- Asks for the first page of a file. -/
  | firstPage
  /-- Brings the file up to date. -/
  | sync
  /-- Asks for the number of pins on a page. -/
  | pinCount (page : PageId)
  /-- Drops a pin of a page, whoever holds it. -/
  | unpin (page : PageId) (dirty : Bool)
  /-- Writes the pages of a file back. -/
  | flushFile
  /-- Lets go of a pinned page. -/
  | release
  /-- Reads bytes of a pinned page. -/
  | peek (offset length : Nat)
  /-- Stores bytes into a pinned page, and the checksum of a heap header if asked to. -/
  | poke (patches : List Patch) (resealed : Bool)
  /-- Turns a pinned page into an empty data page. -/
  | format
  /-- A command that cannot be understood. -/
  | unusable

/-- The commands of a session. -/
inductive Command where
  /-- Makes a heap file. -/
  | create (name : String)
  /-- Removes a heap file. -/
  | destroy (name : String)
  /-- Writes all pages back. -/
  | flush
  /-- Asks for the capacity of the pool. -/
  | capacity
  /-- Makes an empty file. -/
  | createFile (name : String)
  /-- Removes a file. -/
  | destroyFile (name : String)
  /-- Asks whether there is a file of this name. -/
  | hasFile (name : String)
  /-- Opens something under the name of a handle. -/
  | openAs (handle : String) (opening : Opening)
  /-- Sends a command to a handle. -/
  | tell (handle : String) (command : HandleCommand)
  /-- A command that cannot be understood. -/
  | unusable

/-- Why a command was not even tried. -/
inductive Refusal where
  /-- It cannot be understood, or not by this handle. -/
  | unusable
  /-- No handle has this name. -/
  | noHandle
  /-- A handle of this name is open already. -/
  | handleInUse
deriving DecidableEq

/-- How a run of a scan ended. -/
inductive ScanEnd where
  /-- There are no more records. -/
  | endOfFile
  /-- As many records were read as were asked for. -/
  | limit
  /-- The scan could not go on. -/
  | failed (cause : StorageError)

/-- The reply to a command. -/
inductive Reply where
  /-- Done. -/
  | done
  /-- The answer to a question. -/
  | flag (value : Bool)
  /-- A number. -/
  | number (value : Nat)
  /-- A text. -/
  | text (value : String)
  /-- The bytes of a record. -/
  | record (bytes : Bytes)
  /-- The address of a record, if there is one. -/
  | address (record : Option RecordId)
  /-- A page number. -/
  | page (page : PageId)
  /-- The slot of a record on a page. -/
  | slot (slot : SlotId)
  /-- The addresses of inserted records, and what stopped the inserting. -/
  | inserted (records : List RecordId) (stopped : Option StorageError)
  /-- The records that a scan read. -/
  | rows (rows : List (RecordId × Bytes)) (scanEnd : ScanEnd)
  /-- A filter, if there is one. -/
  | filter (filter : Option Filter)
  /-- The header of a heap file. -/
  | heapHeader (header : HeapHeader)
  /-- The number, name and size of a file. -/
  | file (id : FileId) (name : String) (pageCount : UInt32)
  /-- A pinned page. -/
  | pinned (file : FileId) (page : PageId) (dirty : Bool)
  /-- Whether the holder changed a page. -/
  | dirty (value : Bool)
  /-- Bytes of a page, with the whole page for its checksum. -/
  | bytes (page : Page) (bytes : Bytes)
  /-- The bytes of a file. -/
  | contents (bytes : Bytes)
  /-- The header of a file. -/
  | fileHeader (header : FileHeader)
  /-- The command was refused by the database. -/
  | failed (cause : StorageError)
  /-- The command was not even tried. -/
  | refused (cause : Refusal)

end PagedHeap
