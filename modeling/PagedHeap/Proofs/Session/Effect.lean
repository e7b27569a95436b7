import PagedHeap.Proofs.Session.Sound

/-!
# What a command does to the records

`Session.records` are the records of all files by their addresses.  A command adds, changes or takes
out at most one of them, and its reply says whether it did (`Session.Effect`).  In `Session.Follows`
this stands beside what else a command leaves behind: a sound session, and other handles as they
were.
-/

namespace PagedHeap

open PagedHeap.Action

open MemoryFiles (law)

/-- Whether a reply says that a record was added, changed or taken out. -/
def Command.Changes (c : Command) (reply : Reply) : Prop :=
  (∃ handle record rid, c = .tell handle (.insert record) ∧ reply = .address (some rid)) ∨
    (∃ handle offset bytes, c = .tell handle (.modify offset bytes) ∧ reply = .done) ∨
    ∃ handle, c = .tell handle .delete ∧ reply = .done

/-- The commands on heap files and on the files as a whole, but for the ones that stand for several
others in a row. -/
def Command.HeapLevel : Command → Prop
  | .openAs _ (.file _) | .openAs _ (.pin ..) | .openAs _ (.allocate _) => False
  | .tell _ (.insertMany ..) | .tell _ (.scan _) => False
  | _ => True

namespace Session

/-- The heap file behind a handle. -/
def heapOf (s : Session MemoryFiles) (handle : String) : Option HeapFile :=
  (s.handles.find? handle).bind Handle.heap?

/-- The records of every file, by their addresses. -/
def records (s : Session MemoryFiles) (file : FileId) (rid : RecordId) : Option Bytes :=
  (law.volume s.db file).record? rid

/-- The records with one of them changed. -/
def recordsWith (s : Session MemoryFiles) (file : FileId) (rid : RecordId)
    (value : Option Bytes) : FileId → RecordId → Option Bytes :=
  Function.update s.records file (Function.update (s.records file) rid value)

/-- What a command does to the records of all files, as its reply tells. -/
inductive Effect (s : Session MemoryFiles) :
    Command → Reply → (FileId → RecordId → Option Bytes) → Prop
  /-- An insert that answers an address adds the record there, where none was. -/
  | insert {handle : String} {h : HeapFile} {record : Bytes} {rid : RecordId}
      (behind : s.heapOf handle = some h) (free : s.records h.file.id rid = none) :
      Effect s (.tell handle (.insert record)) (.address (some rid))
        (s.recordsWith h.file.id rid (some record))
  /-- The current record is changed in place and keeps its length. -/
  | modify {handle : String} {h : HeapFile} {offset : Nat} {bytes old new : Bytes} {rid : RecordId}
      (behind : s.heapOf handle = some h) (current : h.record = some rid)
      (live : s.records h.file.id rid = some old) (same : new.length = old.length)
      (stored : new = (Edit.store offset bytes old.length (Block.ofBytes old)).bytes) :
      Effect s (.tell handle (.modify offset bytes)) .done
        (s.recordsWith h.file.id rid (some new))
  /-- The current record is taken out. -/
  | delete {handle : String} {h : HeapFile} {rid : RecordId}
      (behind : s.heapOf handle = some h) (current : h.record = some rid)
      (live : (s.records h.file.id rid).isSome) :
      Effect s (.tell handle .delete) .done (s.recordsWith h.file.id rid none)
  /-- Whatever else is done, and whatever is refused, changes no record. -/
  | none {c : Command} {reply : Reply} (unchanged : ¬c.Changes reply) : Effect s c reply s.records

/-- What a command with its reply leaves behind. -/
structure Follows (s : Session MemoryFiles) (c : Command) (reply : Reply)
    (s' : Session MemoryFiles) : Prop where
  sound : s'.Sound
  heaps : ∀ file, s.db.HasHeap file → s'.db.HasHeap file
  made : ∀ name, c = .create name → reply = .done → s'.db.HasHeap ⟨s.db.files.nextId⟩
  effect : Effect s c reply s'.records
  others : ∀ name handle, s.handles.find? name = some handle → (∀ c', c ≠ .tell name c') →
    s'.handles.find? name = some handle

variable {s s' : Session MemoryFiles} {name : String} {handle new : Handle} {heap : HeapFile}
variable {db : Database MemoryFiles} {c : Command} {c' : HandleCommand} {reply : Reply}

theorem not_changes_refused (c : Command) (cause : Refusal) : ¬c.Changes (.refused cause) := by
  simp [Command.Changes]

theorem not_changes_failed (c : Command) (e : StorageError) : ¬c.Changes (.failed e) := by
  simp [Command.Changes]

/-- A reply that does not say so changes no record. -/
theorem Effect.unchanged_records {after : FileId → RecordId → Option Bytes}
    (heffect : Effect s c reply after) (hc : ¬c.Changes reply) : after = s.records := by
  cases heffect with
  | @insert handle _ record rid => exact absurd (.inl ⟨handle, record, rid, rfl, rfl⟩) hc
  | @modify handle _ offset bytes => exact absurd (.inr (.inl ⟨handle, offset, bytes, rfl, rfl⟩)) hc
  | @delete handle => exact absurd (.inr (.inr ⟨handle, rfl, rfl⟩)) hc
  | none => rfl

theorem records_eq (hvolume : ∀ file, (law.volume db file).record? = (law.volume s.db file).record?)
    (handles : Table String Handle) : records ⟨db, handles⟩ = s.records :=
  funext fun file => hvolume file

/-- A command that leaves the session alone. -/
theorem Follows.refl (h : s.Sound) (hc : ¬c.Changes reply)
    (hmade : ∀ name, c = .create name → reply ≠ .done) : Follows s c reply s where
  sound := h
  heaps _ := id
  made name hcreate hdone := absurd hdone (hmade name hcreate)
  effect := .none hc
  others _ _ hfind _ := hfind

/-- A command that changes no page and keeps the handles. -/
theorem Follows.of_steady (h : s.Sound) (hsteady : Database.Steady (pinsOf s.handles) s.db db)
    (hc : ¬c.Changes reply) (hmade : ∀ name, c = .create name → reply ≠ .done) :
    Follows s c reply ⟨db, s.handles⟩ where
  sound := h.of_evolves hsteady.evolves hsteady.holds
  heaps := hsteady.evolves.heaps
  made name hcreate hdone := absurd hdone (hmade name hcreate)
  effect := by
    have hrecords : records ⟨db, s.handles⟩ = s.records :=
      records_eq (fun file => by rw [hsteady.volume]) _
    rw [hrecords]
    exact .none hc
  others _ _ hfind _ := hfind

/-- A command that gives a handle up. -/
theorem Follows.of_erase (h : s.Sound)
    (hsteady : Database.Steady (pinsOf (s.handles.erase name)) s.db db)
    (hc : ¬(Command.tell name c').Changes reply) :
    Follows s (.tell name c') reply ⟨db, s.handles.erase name⟩ where
  sound := h.erase hsteady.evolves hsteady.holds
  heaps := hsteady.evolves.heaps
  made _ hcreate _ := by cases hcreate
  effect := by
    have hrecords : records ⟨db, s.handles.erase name⟩ = s.records :=
      records_eq (fun file => by rw [hsteady.volume]) _
    rw [hrecords]
    exact .none hc
  others other _ hfind hother := by
    have hne : name ≠ other := fun heq => hother c' (heq ▸ rfl)
    rw [Table.find?_erase_of_ne hne]
    exact hfind

/-- A command on the heap file behind a handle. -/
theorem Follows.of_moves (h : s.Sound) (hfind : s.handles.find? name = some handle)
    (hheap : handle.heap? = some heap) {t : HeapState MemoryFiles}
    (hmoves : HeapFile.Moves law (pinsOf (s.handles.erase name)) ⟨s.db, heap⟩ t)
    (hnew : new.heap? = some t.heap)
    (heffect : Effect s (.tell name c') reply fun file => (law.volume t.db file).record?) :
    Follows s (.tell name c') reply ⟨t.db, s.handles.put name new⟩ := by
  have hevolves := Database.Evolves.of_moves h.orderly (h.hasHeap hfind hheap) hmoves
  exact {
    sound := h.put hevolves hnew hmoves.attached hmoves.heap
    heaps := hevolves.heaps
    made := fun _ hcreate _ => by cases hcreate
    effect := heffect
    others := fun other _ hother hnot => by
      have hne : name ≠ other := fun heq => hnot c' (heq ▸ rfl)
      rw [Table.find?_put_of_ne hne]
      exact hother }

/-- A command on the heap file behind a handle that changes no page. -/
theorem Follows.of_stays (h : s.Sound) (hfind : s.handles.find? name = some handle)
    (hheap : handle.heap? = some heap) {t : HeapState MemoryFiles}
    (hstays : HeapFile.Stays law (pinsOf (s.handles.erase name)) ⟨s.db, heap⟩ t)
    (hnew : new.heap? = some t.heap) (hc : ¬(Command.tell name c').Changes reply) :
    Follows s (.tell name c') reply ⟨t.db, s.handles.put name new⟩ := by
  obtain ⟨header, hv⟩ := h.hasHeap hfind hheap
  have hrecords : (fun file => (law.volume t.db file).record?) = s.records := by
    funext file
    rw [PageStore.Reliable.volume_of_same hstays.same]
    rfl
  refine .of_moves h hfind hheap (hstays.moves hv) hnew ?_
  rw [hrecords]
  exact .none hc

/-- A command that changes what is remembered about a handle only. -/
theorem Follows.of_put (h : s.Sound) (hfind : s.handles.find? name = some handle)
    (hheap : handle.heap? = some heap) (hnew : new.heap? = some heap)
    (hc : ¬(Command.tell name c').Changes reply) :
    Follows s (.tell name c') reply ⟨s.db, s.handles.put name new⟩ :=
  .of_stays h hfind hheap ⟨h.attached hfind hheap, .refl _, rfl⟩ hnew hc

/-- The other records are as they were when those of one file changed at one address. -/
theorem records_of_moves {rest : Multiset Pin} {t : HeapState MemoryFiles} {rid : RecordId}
    {value : Option Bytes} (hmoves : HeapFile.Moves law rest ⟨s.db, heap⟩ t)
    (hrecord : (HeapFile.volume law t).record? =
      Function.update (HeapFile.volume law ⟨s.db, heap⟩).record? rid value) :
    (fun file => (law.volume t.db file).record?) = s.recordsWith heap.file.id rid value := by
  funext file
  unfold recordsWith
  by_cases hfile : file = heap.file.id
  · rw [hfile, Function.update_self]
    have hself : HeapFile.volume law t = law.volume t.db heap.file.id :=
      congrArg (fun f : FileHandle => law.volume t.db f.id) hmoves.file
    rw [hself] at hrecord
    exact hrecord
  · rw [Function.update_of_ne hfile, hmoves.only.others file hfile]
    rfl

end Session

end PagedHeap
