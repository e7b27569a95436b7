import PagedHeap.File.Disk
import PagedHeap.Filter.Text
import PagedHeap.Heap.Insert
import PagedHeap.Heap.Scan
import PagedHeap.Text.Decimal
import PagedHeap.Text.Json
import PagedHeap.Text.Lossy

/-!
# The command line

A program that works on the heap files of a directory, one command at a time. The command is a
function of its arguments and the files of the directory; it says what is printed and what becomes
of the files. A command that fails ends at once: what was not written to the files by then is lost.
-/

namespace PagedHeap

namespace CommandLine

/-- What a command prints and how it ends. -/
structure Outcome where
  /-- The exit code. -/
  code : Nat
  /-- What is printed to standard output. -/
  out : String
  /-- What is printed to standard error. -/
  err : String
deriving DecidableEq

/-- A running command: its database and the lines that it printed. -/
structure Process where
  /-- The database. -/
  db : Database DiskFiles
  /-- The lines printed to standard output, the last one in front. -/
  lines : List String

/-- A step of a command. Its failure is the message with which the command ends. -/
abbrev Step := EStateM String Process

/-- The number of pages that a command keeps in memory. -/
def poolCapacity : Nat := 1000

/-- How the program is used. -/
def usage : String :=
  "Usage: heap_cli <dir> <command> <name> [args...]\n" ++
  "Commands:\n" ++
  "  create <name>                 - Create an empty heap file\n" ++
  "  destroy <name>                - Remove a heap file\n" ++
  "  insert <name> <text>...       - Insert text records\n" ++
  "  insert-int <name> <int>...    - Insert 4-byte integer records\n" ++
  "  scan <name> [type off op val] - Print records, optionally filtered\n" ++
  "  count <name>                  - Print the record count\n" ++
  "  stats <name>                  - Print file statistics as JSON\n"

/-- How a scan is asked for. -/
def scanUsage : String :=
  "Usage: heap_cli <dir> scan <name> [int|float|string <offset> <op> <value>]"

/-- Prints a line. -/
def print (line : String) : Step Unit := modify fun p => { p with lines := line :: p.lines }

/-- The command fails with a failure of the database. -/
def Failure.text : Failure → String
  | .error e => e.message
  | .trap _ => "the command stopped"

/-- Runs an action on the database; if it fails, so does the command. -/
def onDatabase {α : Type} (action : Action (Database DiskFiles) α) : Step α := fun p =>
  match action p.db with
  | .ok a db => .ok a { p with db := db }
  | .error e db => .error (Failure.text e) { p with db := db }

/-- Runs an action on an open heap file. -/
def onHeap {α : Type} (heap : HeapFile) (action : HeapAction DiskFiles α) : Step (α × HeapFile) :=
  fun p =>
    match action ⟨p.db, heap⟩ with
    | .ok a s => .ok (a, s.heap) { p with db := s.db }
    | .error e s => .error (Failure.text e) { p with db := s.db }

/-- The result of a computation without state. -/
def ofResult {α : Type} : Result α → Step α
  | .ok a => pure a
  | .error e => throw (Failure.text e)

/-! ## Inserting -/

/-- Inserts records and prints their addresses. -/
def insertAll (heap : HeapFile) : List Bytes → Step HeapFile
  | [] => return heap
  | record :: records => do
    let (rid, heap) ← onHeap heap (HeapFile.insert record)
    print rid.text
    insertAll heap records

/-- Inserts records into a heap file. -/
def insert (name : String) (records : List Bytes) : Step Unit := do
  let heap ← onDatabase (Database.openHeap name)
  let heap ← insertAll heap records
  onDatabase (Database.closeHeap { heap with current := heap.current.map Pin.markDirty })

/-- The record of a typed text. -/
def textRecord (text : String) : Bytes := text.toUTF8.data.toList

/-- The record of a typed number. -/
def numberRecord (text : String) : Step Bytes :=
  match Decimal.int32? text with
  | some n => return littleEndian 4 n.toUInt32.toNat
  | none => throw s!"Invalid integer {text}"

/-! ## Scanning -/

/-- The filter that the arguments of a scan describe. -/
def parseFilter (datatype offset comparison value : String) : Result Filter := do
  let datatype ← Datatype.ofText datatype
  let offset ← match Decimal.size? offset with
    | some n => .ok n
    | none => .refuse (.badScanParameter "offset must be a non-negative integer")
  let comparison ← Comparison.ofText comparison
  match datatype with
  | .integer =>
    match Decimal.int32? value with
    | some n => return Filter.integer offset n comparison
    | none => .refuse (.badScanParameter "value is not an integer")
  | .float =>
    match Decimal.float? value with
    | some bits => return Filter.float offset bits comparison
    | none => .refuse (.badScanParameter "value is not a float")
  | .string =>
    Filter.new offset (UInt64.ofNat value.utf8ByteSize) .string (textRecord value) comparison

/-- The filter of a scan, if its arguments describe one. -/
def scanFilter : List String → Step (Option Filter)
  | [] => return none
  | [datatype, offset, comparison, value] =>
    return some (← ofResult (parseFilter datatype offset comparison value))
  | _ => throw scanUsage

/-- Prints the records that pass a filter and answers their number. A file has fewer than
`limit` records. -/
def printRecords (filter : Option Filter) (heap : HeapFile) (count : Nat) :
    (limit : Nat) → Step (Nat × HeapFile)
  | 0 => throw "the command stopped"
  | k + 1 => do
    let (rid?, heap) ← onHeap heap (HeapFile.scanNext filter)
    match rid? with
    | none => return (count, heap)
    | some rid =>
      let (record, heap) ← onHeap heap HeapFile.readCurrent
      print s!"{rid.text} -> {lossyText record}"
      printRecords filter heap (count + 1) k

/-- More records than the given number of pages can hold. -/
def recordBound (pageCount : Nat) : Nat := pageCount * pageSize + 1

/-- Prints the records of a heap file. -/
def scan (name : String) (args : List String) : Step Unit := do
  let filter ← scanFilter args
  let heap ← onDatabase (Database.openHeap name)
  let pageCount ← onDatabase (Database.onFiles (PageStore.pageCount heap.file.id))
  let (count, heap) ← printRecords filter heap 0 (recordBound pageCount.toNat)
  print s!"COUNT: {count}"
  let ((), heap) ← onHeap heap HeapFile.endScan
  onDatabase (Database.closeHeap heap)

/-! ## Commands -/

/-- Opens a heap file, prints what is made of its header and closes it. -/
def report (name : String) (text : HeapHeader → String) : Step Unit := do
  let heap ← onDatabase (Database.openHeap name)
  let (header, heap) ← onHeap heap HeapFile.header
  print (text header)
  onDatabase (Action.quietly (Database.closeHeap heap))

/-- The statistics of a heap file. -/
def statistics (h : HeapHeader) : String :=
  Json.object
    [("file_name", .text h.fileName),
      ("page_count", .number h.pageCount.toNat),
      ("record_count", .number h.recordCount.toNat),
      ("first_page", .number h.firstPage.val.toNat),
      ("last_page", .number h.lastPage.val.toNat)]

/-- Carries out a command on a heap file. -/
def perform (command name : String) (args : List String) : Step Unit :=
  match command with
  | "create" => do
    onDatabase (Database.createHeap name)
    print "OK"
  | "destroy" => do
    onDatabase (Database.destroyHeap name)
    print "OK"
  | "insert" => insert name (args.map textRecord)
  | "insert-int" => do insert name (← args.mapM numberRecord)
  | "scan" => scan name args
  | "count" => report name fun h => toString h.recordCount.toNat
  | "stats" => report name statistics
  | _ => throw s!"Unknown command: {command}"

/-- The text of printed lines. -/
def unlines (lines : List String) : String := String.join (lines.map (· ++ "\n"))

/-- Writes all pages back at the end of a command. -/
def finish (p : Process) : Outcome × Directory :=
  match Database.flushAll p.db with
  | .ok () db => (⟨0, unlines p.lines.reverse, ""⟩, db.files.directory)
  | .error e db =>
    (⟨0, unlines p.lines.reverse, s!"Warning: Failed to flush: {Failure.text e}\n"⟩,
      db.files.directory)

/-- Runs the program on the files of a directory, with the arguments that follow the directory. -/
def run (directory : Directory) : List String → Outcome × Directory
  | command :: name :: args =>
    match perform command name args ⟨⟨.ofDirectory directory, .empty poolCapacity⟩, []⟩ with
    | .ok () p => finish p
    | .error message p =>
      (⟨1, unlines p.lines.reverse, s!"ERROR: {message}\n"⟩, p.db.files.directory)
  | _ => (⟨1, "", usage⟩, directory)

end CommandLine

end PagedHeap
