import PagedHeap.File.Disk
import PagedHeap.File.Memory
import PagedHeap.Session.Run

/-!
# Sessions on a directory

A session whose files are kept in a directory can also be left and entered again, and the files can
be read and changed directly, past the database. Sessions in memory refuse these commands.
-/

namespace PagedHeap

/-- The commands that need a directory. -/
inductive DirectCommand where
  /-- Drops everything that is open and opens a new database on the same directory. -/
  | reopen
  /-- Makes the file if it is missing, sets its length if one is given, and writes bytes into it. -/
  | write (name : String) (size : Option Nat) (offset : Nat) (bytes : Bytes)
  /-- Reads a whole file. -/
  | read (name : String)
  /-- Reads the header of a file. -/
  | header (name : String)

/-- A command of any kind. -/
inductive Request where
  /-- A command to the database. -/
  | common (command : Command)
  /-- A command that needs a directory. -/
  | direct (command : DirectCommand)

/-- The longest name that a directory takes. -/
def maxEntrySize : Nat := 255

/-- Whether a text can name an entry of a directory. -/
def isEntryName (name : String) : Bool :=
  !(name.isEmpty || maxEntrySize < name.utf8ByteSize || name == "." || name == ".." ||
    name.toList.any fun c => c == '/' || c == '\x00')

namespace Session

/-! ## In a directory -/

/-- Whether a handle stands for a heap file. -/
def Handle.isHeap : Handle → Bool
  | .heap _ | .scan _ | .inserter _ => true
  | .file _ | .page _ => false

/-- Whether a handle stands for a pinned page. -/
def Handle.isPage : Handle → Bool
  | .page _ => true
  | _ => false

/-- Gives up the handles of a kind, in the order in which they were opened. -/
def dropHandles {σ : Type} [FileStore σ] (kind : Handle → Bool) : SessionAction σ Unit := do
  let handles := (← get).handles.filter fun entry => kind entry.2
  (Table.keys handles).forM fun handle => do
    let _ ← tellHandle handle .drop

/-- Gives up what is open, heap files first, and opens a new database on the directory. -/
def reopen : SessionAction DiskFiles Unit := do
  dropHandles Handle.isHeap
  dropHandles Handle.isPage
  modify fun s => start (.ofDirectory s.db.files.directory) s.db.pool.capacity

/-- Changes a file of the directory, which is made if it is missing. -/
def changeFile (name : String) (f : FileImage → FileImage) : Action DiskFiles Unit :=
  modify fun s => s.putImage name (f ((s.imageNamed? name).getD .empty))

/-- Writes a file of the directory. What would make it too long is refused. -/
def writeFile (name : String) (size : Option Nat) (offset : Nat) (bytes : Bytes) :
    Action DiskFiles Unit := do
  if !isEntryName name then Action.refuse .io
  changeFile name id
  if FileImage.maxSize < size.getD 0 then Action.refuse .io
  changeFile name fun image => (size.map image.resize).getD image
  if FileImage.maxSize < offset + bytes.length then Action.refuse .io
  changeFile name fun image => image.writeBytes offset bytes

/-- Reads a file of the directory. -/
def readFile (name : String) : Action DiskFiles Bytes := do
  match (← get).imageNamed? name with
  | some image => return image.bytes
  | none => Action.refuse .io

/-- Reads the header of a file of the directory. A path that leads nowhere names no file; one that
names a directory, or cannot be a path, cannot be opened. -/
def readFileHeader (name : String) : Action DiskFiles FileHeader := do
  match (← get).imageNamed? name with
  | some image => Action.ofResult (image.readHeader name)
  | none =>
    Action.refuse (if isEntryName name || name.contains '/' then .fileNotFound name else .io)

/-- Carries out a command that needs a directory. -/
def performDirect : DirectCommand → SessionAction DiskFiles Reply
  | .reopen => do
    reopen
    return .done
  | .write name size offset bytes => do
    onFiles (writeFile name size offset bytes)
    return .done
  | .read name => return .contents (← onFiles (readFile name))
  | .header name => return .fileHeader (← onFiles (readFileHeader name))

/-- Carries out a command in a session on a directory. -/
def stepDisk (s : Session DiskFiles) : Request → Except Trap (Reply × Session DiskFiles)
  | .common c => s.step c
  | .direct c => settle (performDirect c) s

/-- Carries out a command in a session in memory. -/
def stepMemory (s : Session MemoryFiles) : Request → Except Trap (Reply × Session MemoryFiles)
  | .common c => s.step c
  | .direct _ => .ok (.refused .unusable, s)

/-! ## Whole sessions -/

/-- Carries out commands one after the other. The replies come with the status of the pool after
each; a trap ends the session. -/
def run {σ : Type} (step : Session σ → Request → Except Trap (Reply × Session σ))
    (s : Session σ) : List Request → List (Reply × PoolStatus) × Option Trap
  | [] => ([], none)
  | r :: rs =>
    match step s r with
    | .error t => ([], some t)
    | .ok (reply, s) =>
      let (rest, trap) := run step s rs
      ((reply, s.db.pool.status) :: rest, trap)

/-- A session in memory; a trap when it is to be started is the whole outcome. -/
def runMemory (capacity : Nat) (requests : List Request) :
    Except Trap (List (Reply × PoolStatus) × Option Trap) := do
  return run stepMemory (← start? .empty capacity) requests

/-- A session on an empty directory; a trap when it is to be started is the whole outcome. -/
def runDisk (capacity : Nat) (requests : List Request) :
    Except Trap (List (Reply × PoolStatus) × Option Trap) := do
  return run stepDisk (← start? (.ofDirectory []) capacity) requests

end Session

end PagedHeap
