import PagedHeap.Proofs.Heap.Parallel
import PagedHeap.Proofs.Session.Sound

/-!
# Commands to handles over two stores

A command to a handle that is not closed by it comes to the same end in two sessions side by side,
if the same heap files are open in both.  Every handle then stands for the same file as before.
-/

namespace PagedHeap

open PagedHeap.Action

/-- The commands that give a handle up. -/
def HandleCommand.Closes : HandleCommand → Prop
  | .close | .drop => True
  | _ => False

/-- The commands that may add pages to a heap file. -/
def HandleCommand.Inserts : HandleCommand → Prop
  | .insert _ | .insertMany .. => True
  | _ => False

namespace Session

/-- The files behind the handles. -/
def filesOf (handles : Table String Handle) : Table String (Option FileHandle) :=
  handles.map fun entry => (entry.1, entry.2.heap?.map HeapFile.file)

variable {handles : Table String Handle} {name : String} {handle new : Handle}

theorem find?_filesOf (handles : Table String Handle) (name : String) :
    (filesOf handles).find? name =
      (handles.find? name).map fun handle => handle.heap?.map HeapFile.file :=
  Table.find?_map handles (fun _ handle => handle.heap?.map HeapFile.file) name

/-- A handle changes, but still stands for the same file. -/
theorem filesOf_put (h : (filesOf handles).find? name = some (new.heap?.map HeapFile.file)) :
    filesOf (handles.put name new) = filesOf handles := by
  induction handles with
  | nil => cases h
  | cons entry handles ih =>
    obtain ⟨k, old⟩ := entry
    change Table.find? ((k, _) :: filesOf handles) name = _ at h
    rw [Table.find?_cons] at h
    unfold Table.put
    by_cases hk : k = name
    · rw [if_pos hk] at h ⊢
      change (k, new.heap?.map HeapFile.file) :: filesOf handles = (k, _) :: filesOf handles
      rw [← Option.some.inj h]
    · rw [if_neg hk] at h ⊢
      change (k, _) :: filesOf (Table.put handles name new) = (k, _) :: filesOf handles
      rw [ih h]

variable {exact : Prop} {σ τ α : Type} [FileStore σ] [FileStore τ]

/-- The same handles are open over both stores, and stand for the given files. -/
structure Parallel (par : PageStore.Parallel exact σ τ) (files : Table String (Option FileHandle))
    (s : Session σ) (t : Session τ) : Prop where
  db : par.Db s.db t.db
  handles : t.handles = s.handles
  files : filesOf s.handles = files

variable {par : PageStore.Parallel exact σ τ} {files : Table String (Option FileHandle)}
variable {heap : HeapFile} {wrap : HeapFile → Handle}

theorem keeps_unusable : Keeps exact (Parallel par files) unusable unusable := keeps_pure _

section Handles

variable (hfind : files.find? name = some (some heap.file))
include hfind

theorem keeps_onHeap (hwrap : ∀ h, (wrap h).heap? = some h) {x : HeapAction σ α}
    {y : HeapAction τ α} (h : Keeps exact (HeapFile.Parallel par heap.file) x y) :
    Keeps exact (Parallel par files) (onHeap name heap wrap x) (onHeap name heap wrap y) := by
  refine keeps_onPart h (fun _ _ hst => ⟨hst.db, rfl, rfl⟩) fun s t u v hst huv => ?_
  refine ⟨huv.db, by rw [hst.handles, huv.heap], ?_⟩
  have hput : filesOf (s.handles.put name (wrap u.heap)) = filesOf s.handles :=
    filesOf_put (by rw [hst.files, hfind, hwrap, Option.map_some, huv.file])
  exact hput.trans hst.files

theorem keeps_setHandle (hnew : new.heap? = some heap) :
    Keeps exact (Parallel par files) (setHandle name new) (setHandle name new) :=
  keeps_modify fun s t h => by
    refine ⟨h.db, by rw [h.handles], ?_⟩
    have hput : filesOf (s.handles.put name new) = filesOf s.handles :=
      filesOf_put (by rw [h.files, hfind, hnew, Option.map_some])
    exact hput.trans h.files

theorem keeps_onAnyHeap (hwrap : ∀ h, (wrap h).heap? = some h) (c : HandleCommand) :
    Keeps exact (Parallel par files) (onAnyHeap name heap wrap c) (onAnyHeap name heap wrap c) := by
  have hheader : Keeps exact (Parallel par files)
      (onHeap name heap wrap HeapFile.header : SessionAction σ HeapHeader)
      (onHeap name heap wrap HeapFile.header) := keeps_onHeap hfind hwrap HeapFile.keeps_header
  unfold onAnyHeap
  split
  · exact keeps_pure _
  · exact keeps_bind hheader fun _ => keeps_pure _
  · exact keeps_bind hheader fun _ => keeps_pure _
  · exact keeps_pure _
  · exact keeps_pure _
  · exact keeps_unusable

variable (hknown : par.known heap.file.id)
include hknown

theorem keeps_onLookup {c : HandleCommand} (hopen : ¬c.Closes) :
    Keeps exact (Parallel par files) (onLookup name heap c) (onLookup name heap c) := by
  unfold onLookup
  split
  · exact keeps_bind (keeps_onHeap hfind (fun _ => rfl) (HeapFile.keeps_getRecord hknown _))
      fun _ => keeps_pure _
  · exact absurd trivial hopen
  · exact absurd trivial hopen
  · exact keeps_onAnyHeap hfind (fun _ => rfl) _

omit hfind in
theorem keeps_insertMany (hexact : ¬exact) (size count : Nat) (number : Int32) :
    Keeps exact (HeapFile.Parallel par heap.file) (insertMany size count number)
      (insertMany size count number) := by
  induction count generalizing number with
  | zero => exact keeps_pure _
  | succ k ih =>
    unfold insertMany
    simp only
    split
    · exact keeps_stop_bind _ _ _
    · refine keeps_bind (keeps_attempt (HeapFile.keeps_insert hknown hexact _)) fun answer => ?_
      split
      · exact keeps_bind (ih _) fun _ => keeps_pure _
      · exact keeps_pure _

theorem keeps_onInserter {c : HandleCommand} (hopen : ¬c.Closes) (hexact : c.Inserts → ¬exact) :
    Keeps exact (Parallel par files) (onInserter name heap c) (onInserter name heap c) := by
  unfold onInserter
  split
  · exact keeps_bind (keeps_onHeap hfind (fun _ => rfl)
      (HeapFile.keeps_insert hknown (hexact trivial) _)) fun _ => keeps_pure _
  · refine keeps_bind (keeps_onHeap hfind (fun _ => rfl)
      (keeps_insertMany hknown (hexact trivial) _ _ _)) fun _ => keeps_pure _
  · exact absurd trivial hopen
  · exact absurd trivial hopen
  · exact keeps_onAnyHeap hfind (fun _ => rfl) _

omit hfind in
theorem keeps_readRows (filter : Option Filter) (limit : Nat) :
    Keeps exact (HeapFile.Parallel par heap.file) (readRows filter limit)
      (readRows filter limit) := by
  induction limit with
  | zero => exact keeps_pure _
  | succ k ih =>
    refine keeps_bind (keeps_attempt (HeapFile.keeps_scanNext hknown filter)) fun answer => ?_
    split
    · exact keeps_pure _
    · exact keeps_pure _
    · refine keeps_bind HeapFile.keeps_readCurrent fun record => ?_
      exact keeps_bind ih fun _ => keeps_pure _

theorem keeps_onScan {scan : Scan} (hscan : scan.heap = heap) {c : HandleCommand}
    (hopen : ¬c.Closes) :
    Keeps exact (Parallel par files) (onScan name scan c) (onScan name scan c) := by
  subst hscan
  have hset (filter : Option Filter) : Keeps exact (Parallel par files)
      (do setHandle name (.scan { scan with filter := filter }); return .done :
        SessionAction σ Reply)
      (do setHandle name (.scan { scan with filter := filter }); return .done) :=
    keeps_bind (keeps_setHandle hfind rfl) fun _ => keeps_pure _
  unfold onScan
  dsimp only
  split
  · exact keeps_bind (keeps_onHeap hfind (fun _ => rfl) (HeapFile.keeps_getRecord hknown _))
      fun _ => keeps_pure _
  · exact keeps_bind (keeps_ofResult _) fun _ => hset _
  · exact keeps_bind (keeps_ofResult _) fun _ => hset _
  · exact keeps_pure _
  · exact keeps_bind (keeps_onHeap hfind (fun _ => rfl) (HeapFile.keeps_scanNext hknown _))
      fun _ => keeps_pure _
  · exact keeps_bind (keeps_onHeap hfind (fun _ => rfl) (keeps_readRows hknown _ _))
      fun _ => keeps_pure _
  · exact keeps_bind (keeps_onHeap hfind (fun _ => rfl) HeapFile.keeps_readCurrent)
      fun _ => keeps_pure _
  · exact keeps_bind (keeps_onHeap hfind (fun _ => rfl) (HeapFile.keeps_modifyCurrent _))
      fun _ => keeps_pure _
  · exact keeps_bind (keeps_onHeap hfind (fun _ => rfl) HeapFile.keeps_deleteCurrent)
      fun _ => keeps_pure _
  · exact keeps_bind (keeps_setHandle hfind rfl) fun _ => keeps_pure _
  · exact keeps_bind (keeps_onHeap hfind (fun _ => rfl) (HeapFile.keeps_resetTo hknown _))
      fun _ => keeps_pure _
  · exact keeps_bind (keeps_onHeap hfind (fun _ => rfl) HeapFile.keeps_endScan)
      fun _ => keeps_pure _
  · exact keeps_bind (keeps_onHeap hfind (fun _ => rfl) HeapFile.keeps_markDirty)
      fun _ => keeps_pure _
  · exact keeps_pure _
  · exact absurd trivial hopen
  · exact absurd trivial hopen
  · exact keeps_onAnyHeap hfind (fun _ => rfl) _

end Handles

/-- A command to a handle that stays open. -/
theorem keeps_tellHandle (hfiles : ∀ name file, files.find? name = some file →
      ∃ opened, file = some opened ∧ par.known opened.id) (name : String) {c : HandleCommand}
    (hopen : ¬c.Closes) (hexact : c.Inserts → ¬exact) :
    Keeps exact (Parallel par files) (tellHandle name c) (tellHandle name c) :=
  keeps_get fun s t h => by
    rw [h.handles]
    cases hfind : s.handles.find? name with
    | none => exact agrees_pure h
    | some handle =>
      have hfile : files.find? name = some (handle.heap?.map HeapFile.file) := by
        rw [← h.files, find?_filesOf, hfind, Option.map_some]
      obtain ⟨opened, hopened, hknown⟩ := hfiles name _ hfile
      rw [hopened] at hfile
      cases handle with
      | heap heap =>
        cases hopened
        exact keeps_onLookup hfile hknown hopen h
      | scan scan =>
        cases hopened
        exact keeps_onScan hfile hknown rfl hopen h
      | inserter heap =>
        cases hopened
        exact keeps_onInserter hfile hknown hopen hexact h
      | file file => cases hopened
      | page pin => cases hopened

end Session

end PagedHeap
