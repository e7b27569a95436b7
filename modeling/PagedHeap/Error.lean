import PagedHeap.Identifier

/-!
# What can go wrong

A storage error is an answer: the operation reports its cause and the store goes on. A trap is not:
a counter left its range, a position fell outside a buffer or a walk along damaged links never
ended, and the whole computation stops there.
-/

namespace PagedHeap

/-- The causes for which a storage operation is refused. -/
inductive StorageError where
  /-- Reading or writing the file itself failed. -/
  | io
  /-- No file has this name. -/
  | fileNotFound (name : String)
  /-- A file of this name is already there. -/
  | fileExists (name : String)
  /-- The file cannot be removed while it is open. -/
  | fileOpen (name : String)
  /-- The name cannot be the name of a file. -/
  | invalidFileName (name : String)
  /-- The file has no such page, or the pool does not hold it. -/
  | pageNotFound (page : PageId)
  /-- A pin was to be dropped that nobody holds. -/
  | pageNotPinned (page : PageId)
  /-- The record does not fit, even after the page is compacted. -/
  | pageFull (page : PageId) (needed available : Nat)
  /-- The address is not that of a live record. -/
  | slotNotFound (record : RecordId)
  /-- The scan stands on no record. -/
  | noCurrentRecord
  /-- The parameters do not describe a filter. -/
  | badScanParameter (reason : String)
  /-- The record fits on no page. -/
  | invalidRecordLength (size max : Nat)
  /-- The stored bytes contradict each other. -/
  | corruption (reason : String)
  /-- The bytes are not those of a page of the expected kind. -/
  | invalidPage (reason : String)
  /-- Every frame of the pool is pinned. -/
  | bufferPoolExhausted
  /-- The operation makes no sense in this state. -/
  | invalidOperation (reason : String)
  /-- The file is not one of this format. -/
  | invalidDatabaseFile (reason : String)
deriving DecidableEq

/-- The text of an error. -/
def StorageError.message : StorageError → String
  | .io => "I/O error"
  | .fileNotFound name => s!"File {name} not found"
  | .fileExists name => s!"File {name} already exists"
  | .fileOpen name => s!"File {name} is still open"
  | .invalidFileName name => s!"Invalid file name: {name}"
  | .pageNotFound page => s!"Page {page.text} not found"
  | .pageNotPinned page => s!"Page {page.text} is not pinned"
  | .pageFull page needed available =>
      s!"Page {page.text} is full, need {needed} bytes but only {available} available"
  | .slotNotFound record => s!"No record at {record.text}"
  | .noCurrentRecord => "Scan is not positioned on a record"
  | .badScanParameter reason => s!"Bad scan parameter: {reason}"
  | .invalidRecordLength size max => s!"Invalid record length: {size} bytes (max: {max})"
  | .corruption reason => s!"Corruption detected: {reason}"
  | .invalidPage reason => s!"Invalid page: {reason}"
  | .bufferPoolExhausted => "Buffer pool exhausted: no available frames"
  | .invalidOperation reason => s!"Invalid operation: {reason}"
  | .invalidDatabaseFile reason => s!"Invalid database file: {reason}"

/-- The ways in which a computation stops without an answer. -/
inductive Trap where
  /-- The result of an addition or subtraction is outside the range of its counter. -/
  | overflow
  /-- A position is outside the buffer. -/
  | outOfRange
  /-- A walk does not end. -/
  | endless
deriving DecidableEq

/-- Why there is no result: a refused operation or a stopped computation. -/
inductive Failure where
  /-- The operation was refused. -/
  | error (cause : StorageError)
  /-- The computation stopped. -/
  | trap (cause : Trap)
deriving DecidableEq

/-- A result or the reason why there is none. -/
abbrev Result (α : Type) := Except Failure α

/-- The operation is refused. -/
def Result.refuse {α : Type} (cause : StorageError) : Result α := .error (.error cause)

/-- The computation stops. -/
def Result.stop {α : Type} (cause : Trap) : Result α := .error (.trap cause)

/-! ## Counters -/

/-- A counter of 16 bits, if the number fits. -/
def count16 (n : Nat) : Result UInt16 :=
  if n < UInt16.size then .ok (UInt16.ofNat n) else .stop .overflow

/-- A counter of 32 bits, if the number fits. -/
def count32 (n : Nat) : Result UInt32 :=
  if n < UInt32.size then .ok (UInt32.ofNat n) else .stop .overflow

/-- The difference of two sizes, if it is not negative. -/
def subtract (a b : Nat) : Result Nat := if b ≤ a then .ok (a - b) else .stop .overflow

/-- The byte offset of a page in a file of pages of the given size. -/
def PageId.offset (p : PageId) (pageSize : Nat) : Result Nat :=
  if p.val.toNat * pageSize < UInt64.size then .ok (p.val.toNat * pageSize) else .stop .overflow

end PagedHeap
