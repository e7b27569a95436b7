import PagedHeap.Proofs.Heap.Lifetime
import PagedHeap.Proofs.Session.Commands
import PagedHeap.Proofs.Session.Openings

/-!
# Sessions that are accounted for

In a session in which every handle stands for an open heap file, the handles have all pins and all
openings (`Session.InAccount`).  Every command on heap files keeps this, over any store whose books
are kept, whether it is answered or refused; and it is refused for want of a frame only if the
handles and one more pin take all frames.
-/

namespace PagedHeap

open PagedHeap.Action

/-! ## Requests know nothing of frames -/

section NotExhausted

open Result

theorem FilterRequest.notExhausted_resolve (r : FilterRequest) : r.resolve.NotExhausted := by
  refine (Comparison.notExhausted_ofText _).bind fun comparison => ?_
  cases r.constant with
  | integer value => exact notExhausted_ok _
  | float bits => exact notExhausted_ok _
  | string length value => exact Filter.notExhausted_new _ _ _ _ _
  | raw datatype length value =>
    exact (Datatype.notExhausted_ofText _).bind fun _ => Filter.notExhausted_new _ _ _ _ _

theorem FilterRequest.notExhausted_mapM (request : Option FilterRequest) :
    (request.mapM resolve).NotExhausted := by
  cases request with
  | none => exact notExhausted_ok _
  | some r => exact r.notExhausted_resolve.map some

theorem Session.notExhausted_resolve (r : ScanRequest) : (ScanRequest.resolve r).NotExhausted := by
  refine (Datatype.notExhausted_ofText _).bind fun datatype =>
    (Comparison.notExhausted_ofText _).bind fun comparison => ?_
  cases r.value with
  | none => exact notExhausted_ok _
  | some value => exact (Filter.notExhausted_new _ _ _ _ _).bind fun _ => notExhausted_ok _

end NotExhausted

/-! ## Pins of all handles -/

/-- The pages that a handle of a heap file has pinned. -/
def Handle.keys (handle : Handle) : Multiset FrameKey := handle.heap?.elim 0 HeapFile.keys

namespace Session

/-- The pages that the handles have pinned, each as often as it is pinned. -/
def keysOf (handles : Table String Handle) : Multiset FrameKey := Table.total Handle.keys handles

/-- The handles stand for open heap files and have all pins and openings. -/
structure InAccount {σ : Type} [FileStore σ] (books : FileStore.Books σ) (capacity : Nat)
    (s : Session σ) : Prop where
  distinct : s.handles.keys.Nodup
  accounts : s.db.Accounts books capacity (keysOf s.handles) (heldFiles s.handles)
  standing : ∀ {name handle}, s.handles.find? name = some handle →
    ∃ h, handle.heap? = some h ∧ h.OnFile

variable {σ α : Type} [FileStore σ] {books : FileStore.Books σ} {capacity : Nat}
variable {s : Session σ} {handles : Table String Handle} {name : String} {handle new : Handle}
variable {heap : HeapFile} {db : Database σ}

theorem keys_of_heap? (hheap : handle.heap? = some heap) : handle.keys = heap.keys := by
  unfold Handle.keys
  rw [hheap]
  rfl

/-- The pages of one handle and those of the others. -/
theorem keysOf_put (h : handles.keys.Nodup) (name : String) (hnew : new.heap? = some heap) :
    keysOf (handles.put name new) = heap.keys + keysOf (handles.erase name) := by
  rw [← keys_of_heap? hnew]
  exact Table.total_put Handle.keys h name new

theorem keysOf_eq (h : handles.keys.Nodup) (hfind : handles.find? name = some handle)
    (hheap : handle.heap? = some heap) :
    keysOf handles = heap.keys + keysOf (handles.erase name) := by
  rw [← keys_of_heap? hheap]
  exact Table.total_eq Handle.keys h hfind

/-- The file of one handle and those of the others. -/
theorem heldFiles_put_eq (h : handles.keys.Nodup) (name : String) (hnew : new.heap? = some heap) :
    heldFiles (handles.put name new) = heap.file ::ₘ heldFiles (handles.erase name) := by
  rw [heldFiles_eq_total, heldFiles_eq_total, Table.total_put heldBy h, heldBy_of_heap? hnew,
    Multiset.singleton_add]

/-- A handle has pinned at most two pages. -/
theorem card_keysOf_le (handles : Table String Handle) :
    (keysOf handles).toFinset.card ≤ 2 * handles.length := by
  refine (Multiset.toFinset_card_le _).trans (Table.card_total_le (fun handle => ?_) handles)
  unfold Handle.keys
  cases handle.heap? with
  | none => exact Nat.zero_le 2
  | some heap => exact heap.card_keys_le

/-- The other handles and two more pages are no more pages than all handles may have pinned. -/
theorem card_keysOf_erase_le (hfind : handles.find? name = some handle) :
    (keysOf (handles.erase name)).toFinset.card + 2 ≤ 2 * handles.length := by
  have hlength := Table.length_erase_lt hfind
  have hcard := card_keysOf_le (handles.erase name)
  omega

theorem inAccount_start {files : σ} (hvalid : books.valid files) (hopened : books.opened files = [])
    (capacity : Nat) : InAccount books capacity (start files capacity) where
  distinct := List.nodup_nil
  accounts := Database.accounts_start files hvalid hopened capacity
  standing := nofun

/-! ## Handles come and go -/

/-- The heap file behind a handle, with the pins of the other handles for the rest. -/
theorem InAccount.entrusted (h : InAccount books capacity s)
    (hfind : s.handles.find? name = some handle) (hheap : handle.heap? = some heap) :
    HeapFile.Entrusted books capacity (keysOf (s.handles.erase name)) (heldFiles s.handles)
      heap.file ⟨s.db, heap⟩ where
  accounts := by
    rw [← keysOf_eq h.distinct hfind hheap]
    exact h.accounts
  file := rfl
  onFile := by
    obtain ⟨_, heq, hfile⟩ := h.standing hfind
    cases hheap.symm.trans heq
    exact hfile

/-- Handles other than one stand for open heap files, and so does the new one. -/
theorem standing_put (h : InAccount books capacity s) (hnew : new.heap? = some heap)
    (hfile : heap.OnFile) {other : String} {value : Handle}
    (hother : (s.handles.put name new).find? other = some value) :
    ∃ h, value.heap? = some h ∧ h.OnFile := by
  rcases Table.find?_put_eq_some.1 hother with ⟨-, rfl⟩ | ⟨-, hold⟩
  · exact ⟨heap, hnew, hfile⟩
  · exact h.standing hold

/-- The heap file behind a handle has changed, but for its file. -/
theorem InAccount.put (h : InAccount books capacity s)
    (hfind : s.handles.find? name = some handle) (hheap : handle.heap? = some heap)
    {t : HeapState σ} (hnew : new.heap? = some t.heap)
    (ht : HeapFile.Entrusted books capacity (keysOf (s.handles.erase name)) (heldFiles s.handles)
      heap.file t) : InAccount books capacity ⟨t.db, s.handles.put name new⟩ where
  distinct := Table.nodup_keys_put h.distinct _ _
  accounts := by
    rw [keysOf_put h.distinct name hnew, heldFiles_put_eq h.distinct name hnew, ht.file,
      ← heldFiles_eq h.distinct hfind hheap]
    exact ht.accounts
  standing := standing_put h hnew ht.onFile

/-- A handle that was not there stands for a heap file that was opened. -/
theorem InAccount.opened (h : InAccount books capacity s) (hfree : s.handles.has name = false)
    (hnew : new.heap? = some heap) (hfile : heap.OnFile)
    (haccounts : db.Accounts books capacity (heap.keys + keysOf s.handles)
      (heap.file ::ₘ heldFiles s.handles)) :
    InAccount books capacity ⟨db, s.handles.put name new⟩ where
  distinct := Table.nodup_keys_put h.distinct _ _
  accounts := by
    rw [keysOf_put h.distinct name hnew, heldFiles_put h.distinct hfree hnew,
      Table.erase_of_has_eq_false hfree]
    exact haccounts
  standing := standing_put h hnew hfile

/-- A handle is gone, and so are its pins and its opening. -/
theorem InAccount.erase (h : InAccount books capacity s)
    (haccounts : db.Accounts books capacity (keysOf (s.handles.erase name))
      (heldFiles (s.handles.erase name))) :
    InAccount books capacity ⟨db, s.handles.erase name⟩ where
  distinct := Table.nodup_keys_erase h.distinct name
  accounts := haccounts
  standing hother := h.standing (Table.find?_erase_eq_some.1 hother).2

/-- The pages with pins are those that the handles hold. -/
theorem InAccount.pinnedPages_eq (h : InAccount books capacity s)
    (hnumbered : books.Numbered s.db.files) :
    s.db.pool.pinnedPages = (keysOf s.handles).toFinset.card :=
  Pool.pinnedPages_eq h.accounts.tracked.nodup (h.accounts.counted hnumbered)

/-- The handles are as before. -/
theorem InAccount.of_accounts (h : InAccount books capacity s)
    (haccounts : db.Accounts books capacity (keysOf s.handles) (heldFiles s.handles)) :
    InAccount books capacity ⟨db, s.handles⟩ := ⟨h.distinct, haccounts, h.standing⟩

/-! ## Commands -/

/-- The action leaves a session that is accounted for.  It answers no error of the database, and is
refused for want of a frame only if the handles and one more pin take all frames. -/
def KeepsAccount (books : FileStore.Books σ) (capacity : Nat) (action : SessionAction σ Reply)
    (s : Session σ) : Prop :=
  action.Allows s (fun reply s' => (∀ e, reply ≠ .failed e) ∧ InAccount books capacity s')
    (fun e s' => e.Justified capacity (2 * s.handles.length + 1) ∧ InAccount books capacity s')

theorem keepsAccount_unusable (h : InAccount books capacity s) :
    KeepsAccount books capacity unusable s := allows_pure ⟨nofun, h⟩

section Handles

variable {wrap : HeapFile → Handle} (h : InAccount books capacity s)
  (hfind : s.handles.find? name = some handle) (hheap : handle.heap? = some heap)
include h hfind hheap

/-- An operation on the heap file behind a handle. -/
theorem keepsAccount_onHeap {x : HeapAction σ α} (reply : α → Reply)
    (hreply : ∀ a e, reply a ≠ .failed e) (hwrap : ∀ h, (wrap h).heap? = some h)
    (hx : Preserves (HeapFile.Entrusted books capacity (keysOf (s.handles.erase name))
        (heldFiles s.handles) heap.file)
      (HeapFile.Crowded capacity heap.file (keysOf (s.handles.erase name))) x) :
    KeepsAccount books capacity (do return reply (← onHeap name heap wrap x)) s := by
  refine allows_bind (p := fun _ s' => InAccount books capacity s')
    (allows_onPart ((hx (h.entrusted hfind hheap)).mono
      (fun _ t ht => h.put hfind hheap (hwrap t.heap) ht) fun e t hpost => ⟨?_, ?_⟩))
    fun a _ hs' => allows_pure ⟨hreply a, hs'⟩
  · refine hpost.1.mono ?_
    have hcons := FrameKey.card_toFinset_cons_le ⟨heap.file.id, ⟨1⟩⟩
      (keysOf (s.handles.erase name))
    have hcard := card_keysOf_erase_le hfind
    omega
  · exact h.put hfind hheap (hwrap t.heap) hpost.2

/-- What a handle remembers changes, but not the pins of its heap file. -/
theorem InAccount.setHandle (hnew : new.heap? = some heap) :
    InAccount books capacity ⟨s.db, s.handles.put name new⟩ :=
  h.put hfind hheap hnew (h.entrusted hfind hheap)

/-- A handle is closed, whether or not that is refused. -/
theorem keepsAccount_close {close : Action (Database σ) Unit}
    (hclose : ∀ {held files}, heap.OnFile →
      s.db.Accounts books capacity (heap.keys + held) (heap.file ::ₘ files) →
      close.Allows s.db (fun _ => Database.Accounts books capacity held files)
        (fun e db => Database.NotExhausted e ∧ Database.Accounts books capacity held files db)) :
    KeepsAccount books capacity
      (do forgetHandle name; onDatabase close; return .done) s := by
  have hfile := (h.entrusted hfind hheap).onFile
  have haccounts := h.accounts
  rw [keysOf_eq h.distinct hfind hheap, heldFiles_eq h.distinct hfind hheap] at haccounts
  refine allows_modify_bind (allows_bind (p := fun _ s' => InAccount books capacity s')
    (allows_onPart ((hclose hfile haccounts).mono (fun _ _ hdb => h.erase hdb)
      fun e _ hpost => ⟨?_, ?_⟩)) fun _ _ hs' => allows_pure ⟨nofun, hs'⟩)
  · exact StorageError.justified_of_ne hpost.1
  · exact h.erase hpost.2

/-- The questions that every handle of a heap file answers. -/
theorem keepsAccount_onAnyHeap (hwrap : ∀ h, (wrap h).heap? = some h) (c : HandleCommand) :
    KeepsAccount books capacity (onAnyHeap name heap wrap c) s := by
  have hheader : Preserves (HeapFile.Entrusted books capacity (keysOf (s.handles.erase name))
      (heldFiles s.handles) heap.file)
      (HeapFile.Crowded capacity heap.file (keysOf (s.handles.erase name))) HeapFile.header :=
    HeapFile.preserves_header.mono HeapFile.crowded_of_notExhausted
  unfold onAnyHeap
  split
  · exact allows_pure ⟨nofun, h⟩
  · exact keepsAccount_onHeap h hfind hheap _ nofun hwrap hheader
  · exact keepsAccount_onHeap h hfind hheap _ nofun hwrap hheader
  · exact allows_pure ⟨nofun, h⟩
  · exact allows_pure ⟨nofun, h⟩
  · exact keepsAccount_unusable h

end Handles

/-! ### Closing -/

theorem allows_closeHeap {held : Multiset FrameKey} {files : Multiset FileHandle} (_ : heap.OnFile)
    (h : db.Accounts books capacity (heap.keys + held) (heap.file ::ₘ files)) :
    (Database.closeHeap heap).Allows db (fun _ => Database.Accounts books capacity held files)
      (fun e db' => Database.NotExhausted e ∧ Database.Accounts books capacity held files db') :=
  Database.allows_closeHeap h

theorem allows_closeScan {held : Multiset FrameKey} {files : Multiset FileHandle}
    (hfile : heap.OnFile)
    (h : db.Accounts books capacity (heap.keys + held) (heap.file ::ₘ files)) :
    (closeScan heap).Allows db (fun _ => Database.Accounts books capacity held files)
      (fun e db' => Database.NotExhausted e ∧ Database.Accounts books capacity held files db') := by
  have hentrusted : HeapFile.Entrusted books capacity held (heap.file ::ₘ files) heap.file
      ⟨db, heap⟩ := ⟨h, rfl, hfile⟩
  have hclose (t : HeapState σ) (ht : HeapFile.Entrusted books capacity held (heap.file ::ₘ files)
      heap.file t) :
      (do HeapFile.onDatabase (Database.closeHeap (← get).heap) : HeapAction σ Unit).Allows t
        (fun _ t' => t'.db.Accounts books capacity held files)
        (fun e t' => Database.NotExhausted e ∧ t'.db.Accounts books capacity held files) := by
    have haccounts := ht.accounts
    rw [← ht.file] at haccounts
    exact allows_get (allows_onPart (Database.allows_closeHeap haccounts))
  exact allows_onPart (Allows.thenAlways (q := fun t => t.db.Accounts books capacity held files)
    (HeapFile.preserves_endScan hentrusted) hclose)

theorem allows_closeInserter {held : Multiset FrameKey} {files : Multiset FileHandle}
    (_ : heap.OnFile) (h : db.Accounts books capacity (heap.keys + held) (heap.file ::ₘ files)) :
    (closeInserter heap).Allows db (fun _ => Database.Accounts books capacity held files)
      (fun e db' => Database.NotExhausted e ∧ Database.Accounts books capacity held files db') := by
  rw [← (HeapFile.samePins_markCurrent heap).keys_eq] at h
  exact Database.allows_closeHeap h

/-- Whoever drops a handle does not hear of what was refused. -/
theorem allows_quietClose {close : Action (Database σ) Unit} {held : Multiset FrameKey}
    {files : Multiset FileHandle}
    (hclose : close.Allows db (fun _ => Database.Accounts books capacity held files)
      (fun e db' => Database.NotExhausted e ∧ Database.Accounts books capacity held files db')) :
    (Action.quietly close).Allows db (fun _ => Database.Accounts books capacity held files)
      (fun e db' => Database.NotExhausted e ∧ Database.Accounts books capacity held files db') :=
  allows_quietly (hclose.mono (fun _ _ hpost => hpost) fun _ _ hpost => hpost.2)

/-! ### Each kind of handle -/

theorem keepsAccount_onLookup (h : InAccount books capacity s)
    (hfind : s.handles.find? name = some (.heap heap)) (c : HandleCommand) :
    KeepsAccount books capacity (onLookup name heap c) s := by
  unfold onLookup
  split
  · exact keepsAccount_onHeap h hfind rfl _ nofun (fun _ => rfl) (HeapFile.preserves_getRecord _)
  · exact keepsAccount_close h hfind rfl allows_closeHeap
  · exact keepsAccount_close h hfind rfl fun hfile hdb =>
      allows_quietClose (allows_closeHeap hfile hdb)
  · exact keepsAccount_onAnyHeap h hfind rfl (fun _ => rfl) _

theorem keepsAccount_onInserter (h : InAccount books capacity s)
    (hfind : s.handles.find? name = some (.inserter heap)) {c : HandleCommand}
    (hlevel : (Command.tell name c).HeapLevel) :
    KeepsAccount books capacity (onInserter name heap c) s := by
  unfold onInserter
  split
  · exact keepsAccount_onHeap h hfind rfl _ nofun (fun _ => rfl)
      (HeapFile.preserves_insert (mem_heldFiles h.distinct hfind rfl) _)
  · exact hlevel.elim
  · exact keepsAccount_close h hfind rfl allows_closeInserter
  · exact keepsAccount_close h hfind rfl fun hfile hdb =>
      allows_quietClose (allows_closeInserter hfile hdb)
  · exact keepsAccount_onAnyHeap h hfind rfl (fun _ => rfl) _

/-- The filter of a scan is replaced, or the request is refused. -/
theorem keepsAccount_filter {scan : Scan} {result : Result (Option Filter)}
    (h : InAccount books capacity s) (hfind : s.handles.find? name = some (.scan scan))
    (hresult : result.NotExhausted) :
    KeepsAccount books capacity (do
      let filter ← Action.ofResult result
      setHandle name (.scan { scan with filter := filter })
      return .done) s := by
  refine allows_ofResult_bind (fun filter _ => allows_modify_bind (allows_pure ⟨nofun, ?_⟩))
    fun e he => ⟨StorageError.justified_of_ne (hresult e he), h⟩
  exact h.setHandle hfind rfl rfl

theorem keepsAccount_onScan {scan : Scan} (h : InAccount books capacity s)
    (hfind : s.handles.find? name = some (.scan scan)) {c : HandleCommand}
    (hlevel : (Command.tell name c).HeapLevel) :
    KeepsAccount books capacity (onScan name scan c) s := by
  have hwrap (heap : HeapFile) : (Handle.scan { scan with heap := heap }).heap? = some heap := rfl
  unfold onScan
  split
  · exact keepsAccount_onHeap h hfind rfl _ nofun hwrap (HeapFile.preserves_getRecord _)
  · exact keepsAccount_filter h hfind (notExhausted_resolve _)
  · exact keepsAccount_filter h hfind (FilterRequest.notExhausted_mapM _)
  · exact allows_pure ⟨nofun, h⟩
  · exact keepsAccount_onHeap h hfind rfl _ nofun hwrap (HeapFile.preserves_scanNext _)
  · exact hlevel.elim
  · exact keepsAccount_onHeap h hfind rfl _ nofun hwrap
      (HeapFile.preserves_readCurrent.mono HeapFile.crowded_of_notExhausted)
  · exact keepsAccount_onHeap h hfind rfl (fun _ => .done) nofun hwrap
      ((HeapFile.preserves_modifyCurrent _).mono HeapFile.crowded_of_notExhausted)
  · exact keepsAccount_onHeap h hfind rfl (fun _ => .done) nofun hwrap
      (HeapFile.preserves_deleteCurrent.mono HeapFile.crowded_of_notExhausted)
  · exact allows_modify_bind (allows_pure ⟨nofun, h.setHandle hfind rfl rfl⟩)
  · exact keepsAccount_onHeap h hfind rfl (fun _ => .done) nofun hwrap
      (HeapFile.preserves_resetTo _)
  · exact keepsAccount_onHeap h hfind rfl (fun _ => .done) nofun hwrap
      (HeapFile.preserves_endScan.mono HeapFile.crowded_of_notExhausted)
  · exact keepsAccount_onHeap h hfind rfl (fun _ => .done) nofun hwrap
      (HeapFile.preserves_markDirty.mono HeapFile.crowded_of_notExhausted)
  · exact allows_pure ⟨nofun, h⟩
  · exact keepsAccount_close h hfind rfl allows_closeScan
  · exact keepsAccount_close h hfind rfl fun hfile hdb =>
      allows_quietClose (allows_closeHeap hfile hdb)
  · exact keepsAccount_onAnyHeap h hfind rfl hwrap _

/-! ### The commands of a session -/

theorem keepsAccount_tellHandle (h : InAccount books capacity s) {c : HandleCommand}
    (hlevel : (Command.tell name c).HeapLevel) :
    KeepsAccount books capacity (tellHandle name c) s := by
  refine allows_get ?_
  cases hfind : s.handles.find? name with
  | none => exact allows_pure ⟨nofun, h⟩
  | some handle =>
    obtain ⟨heap, hheap, -⟩ := h.standing hfind
    cases handle with
    | heap heap => exact keepsAccount_onLookup h hfind c
    | scan scan => exact keepsAccount_onScan h hfind hlevel
    | inserter heap => exact keepsAccount_onInserter h hfind hlevel
    | file file => cases hheap
    | page pin => cases hheap

/-- A heap file is opened and gets a handle. -/
theorem keepsAccount_openHandle (h : InAccount books capacity s)
    (hfree : s.handles.has name = false) (use : HeapUse) (title : String) :
    KeepsAccount books capacity (openHandle name (.heap use title)) s := by
  refine allows_bind (p := fun heap s' => s'.handles = s.handles ∧ heap.OnFile ∧
      s'.db.Accounts books capacity (heap.keys + keysOf s.handles)
        (heap.file ::ₘ heldFiles s.handles))
    (allows_onPart ((Database.allows_openHeap h.accounts title).mono
      (fun heap db hpost => ⟨rfl, hpost.2⟩) fun e db hpost => ⟨?_, h.of_accounts hpost.2⟩)) ?_
  · exact hpost.1.mono (Nat.succ_le_succ (card_keysOf_le s.handles))
  · rintro heap ⟨db, _⟩ ⟨rfl, hfile, hdb⟩
    refine allows_modify_bind (allows_pure ⟨nofun, h.opened hfree ?_ hfile hdb⟩)
    cases use <;> rfl

/-- An operation on the database that keeps the handles. -/
theorem keepsAccount_onDatabase {x : Action (Database σ) α} (reply : α → Reply)
    (hreply : ∀ a e, reply a ≠ .failed e) (h : InAccount books capacity s)
    (hx : Preserves (Database.Accounts books capacity (keysOf s.handles) (heldFiles s.handles))
      (StorageError.Justified capacity ((keysOf s.handles).toFinset.card + 1)) x) :
    KeepsAccount books capacity (do return reply (← onDatabase x)) s := by
  refine allows_bind (p := fun _ s' => InAccount books capacity s')
    (allows_onPart ((hx h.accounts).mono (fun _ _ hdb => h.of_accounts hdb)
      fun e _ hpost => ⟨?_, h.of_accounts hpost.2⟩)) fun a _ hs' => allows_pure ⟨hreply a, hs'⟩
  exact hpost.1.mono (Nat.succ_le_succ (card_keysOf_le s.handles))

/-- Every command on heap files leaves a session that is accounted for. -/
theorem keepsAccount_perform (h : InAccount books capacity s) {c : Command} (hlevel : c.HeapLevel) :
    KeepsAccount books capacity (perform c) s := by
  have hcause (e : StorageError) (he : Database.NotExhausted e) :
      e.Justified capacity ((keysOf s.handles).toFinset.card + 1) := StorageError.justified_of_ne he
  have hdone {x : Action (Database σ) Unit} := keepsAccount_onDatabase (x := x) (fun _ => .done)
    (by simp) h
  cases c with
  | create name => exact hdone (Database.preserves_createHeap name)
  | destroy name => exact hdone ((Database.preserves_destroyHeap name).mono hcause)
  | flush => exact hdone (Database.preserves_flushAll.mono hcause)
  | capacity => exact allows_get (allows_pure ⟨by simp, h⟩)
  | createFile name =>
    exact hdone ((Database.preserves_onFiles fun hs => books.create hs name).mono hcause)
  | destroyFile name =>
    exact hdone ((Database.preserves_onFiles fun hs => books.destroy hs name).mono hcause)
  | hasFile name =>
    exact keepsAccount_onDatabase .flag (by simp) h
      ((Database.preserves_onFiles fun hs => books.hasFile hs name).mono hcause)
  | openAs name opening =>
    refine allows_get ?_
    split
    · exact allows_pure ⟨by simp, h⟩
    · next hfree =>
      cases opening with
      | heap use title => exact keepsAccount_openHandle h (Bool.eq_false_iff.2 hfree) use title
      | file _ | pin _ _ | allocate _ => exact hlevel.elim
      | unusable => exact keepsAccount_unusable h
  | tell name c => exact keepsAccount_tellHandle h hlevel
  | unusable => exact keepsAccount_unusable h

end Session

end PagedHeap
