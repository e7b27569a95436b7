import PagedHeap.Pool.Access
import PagedHeap.Proofs.Agreement
import PagedHeap.Proofs.Pool.Tracked

/-!
# Two stores side by side

The operations of a database do not depend on where its files are kept.  If the pages of two stores
are read, written, allocated and counted in parallel, so are they through the pool: from equal pools
every operation comes to the same end over both stores, and the pools are equal again.

An operation stays within the files that are known on both sides.  Page numbers may run out in the
first store only; an exact parallel leaves allocating pages aside.
-/

namespace PagedHeap

open PagedHeap.Action

/-- Two stores whose known files have the same pages, as far as their operations can tell, with
pools of one capacity. -/
structure PageStore.Parallel (exact : Prop) (σ τ : Type) [PageStore σ] [PageStore τ] where
  /-- The states in which the known files have the same pages. -/
  rel : σ → τ → Prop
  /-- The files that both stores have. -/
  known : FileId → Prop
  /-- The capacity of the pools. -/
  capacity : Nat
  read : ∀ {file}, known file → ∀ page,
    Keeps exact rel (readPage file page : Action σ Page) (readPage file page)
  write : ∀ {file}, known file → ∀ page (data : Page),
    Keeps exact rel (writePage file page data : Action σ Unit) (writePage file page data)
  allocate : ¬exact → ∀ {file}, known file →
    Keeps exact rel (allocatePage file : Action σ PageId) (allocatePage file)
  count : ∀ {file}, known file →
    Keeps exact rel (pageCount file : Action σ UInt32) (pageCount file)
  sync : ∀ {file}, known file → Keeps exact rel (sync file : Action σ Unit) (sync file)

namespace PageStore.Parallel

variable {exact : Prop} {σ τ : Type} [PageStore σ] [PageStore τ] (par : Parallel exact σ τ)

/-- The pools are equal, and only known files have pages in them. -/
structure Db (d : Database σ) (e : Database τ) : Prop where
  files : par.rel d.files e.files
  pool : e.pool = d.pool
  known : ∀ key ∈ d.pool.frames.keys, par.known key.file
  tracked : d.pool.Tracked
  capacity : d.pool.capacity = par.capacity

/-- A store beside itself. -/
def same (exact : Prop) (σ : Type) [PageStore σ] (capacity : Nat) : Parallel exact σ σ where
  rel := Eq
  known _ := True
  capacity := capacity
  read _ _ := keeps_self _
  write _ _ _ := keeps_self _
  allocate _ _ _ := keeps_self _
  count _ := keeps_self _
  sync _ := keeps_self _

end PageStore.Parallel

namespace Database

variable {exact : Prop} {σ τ α : Type} [PageStore σ] [PageStore τ]
variable {par : PageStore.Parallel exact σ τ}

theorem keeps_onFiles {x : Action σ α} {y : Action τ α} (h : Keeps exact par.rel x y) :
    Keeps exact par.Db (onFiles x) (onFiles y) :=
  keeps_onPart h (fun _ _ hde => hde.files) fun _ _ _ _ hde hfiles =>
    ⟨hfiles, hde.pool, hde.known, hde.tracked, hde.capacity⟩

/-- A change of the pool that brings no new page into it. -/
theorem keeps_modifyPool {f : Pool → Pool} (hkeys : ∀ p, (f p).frames.keys ⊆ p.frames.keys)
    (htracked : ∀ p : Pool, p.Tracked → (f p).Tracked)
    (hcapacity : ∀ p, (f p).capacity = p.capacity) :
    Keeps exact par.Db (modifyPool f) (modifyPool f) :=
  keeps_modify fun _ _ h => ⟨h.files, congrArg f h.pool, fun key hkey => h.known key (hkeys _ hkey),
    htracked _ h.tracked, (hcapacity _).trans h.capacity⟩

theorem keeps_pageOf (pin : Pin) : Keeps exact par.Db (pageOf pin) (pageOf pin) :=
  keeps_get fun _ _ h => by
    rw [h.pool]
    exact agrees_pure h

theorem keeps_setPage (pin : Pin) (page : Page) :
    Keeps exact par.Db (setPage pin page) (setPage pin page) :=
  keeps_modifyPool (fun p _ hkey => p.keys_setPage pin page ▸ hkey)
    (fun p h => h.of_keys (p.keys_setPage pin page) rfl) fun _ => rfl

theorem keeps_writeBack (key : FrameKey) : Keeps exact par.Db (writeBack key) (writeBack key) :=
  keeps_get fun d e h => by
    rw [h.pool]
    cases hfind : d.pool.frames.find? key with
    | none => exact agrees_pure h
    | some frame =>
      have hknown := h.known key (Table.mem_keys_of_find? hfind)
      simp only
      split
      · exact keeps_onFiles (par.write hknown key.page frame.page) h
      · exact agrees_pure h

theorem keeps_unload (key : FrameKey) :
    Keeps exact par.Db (modifyPool (·.unload key)) (modifyPool (·.unload key)) :=
  keeps_modifyPool (fun _ _ hkey => (Table.mem_keys_erase.1 hkey).2) (fun _ h => h.unload key)
    fun _ => rfl

theorem keeps_makeRoom : Keeps exact par.Db makeRoom makeRoom :=
  keeps_get fun d e h => by
    simp only [h.pool]
    split
    · cases d.pool.victim? with
      | none => exact agrees_refuse h
      | some key => exact keeps_bind (keeps_writeBack key) (fun _ => keeps_unload key) h
    · exact agrees_pure h

theorem keeps_load {key : FrameKey} (hknown : par.known key.file) (page : Page) (dirty : Bool) :
    Keeps exact par.Db (load key page dirty) (load key page dirty) :=
  keeps_get fun d e h => by
    simp only [h.pool]
    refine agrees_bind (p := fun _ => par.Db) (agrees_set ⟨h.files, rfl, fun key' hkey' => ?_,
      h.tracked.load key page dirty, h.capacity⟩) fun _ _ _ h' => agrees_pure h'
    rcases Table.mem_keys_put.1 hkey' with rfl | hkey'
    · exact hknown
    · exact h.known key' hkey'

theorem keeps_pin {file : FileId} (hknown : par.known file) (page : PageId) :
    Keeps exact par.Db (pin file page) (pin file page) :=
  keeps_get fun d e h => by
    simp only [h.pool]
    cases hfind : d.pool.frames.find? ⟨file, page⟩ with
    | some frame =>
      refine agrees_bind (p := fun _ => par.Db) (agrees_modify ?_) fun _ _ _ h' => agrees_pure h'
      refine ⟨h.files, by rw [h.pool], fun key hkey => h.known key ?_, ?_, h.capacity⟩
      · simp only [Table.keys_adjust] at hkey
        exact hkey
      · exact h.tracked.touch (Table.mem_keys_of_find? hfind) (by simp only [Table.keys_adjust]) rfl
    | none =>
      refine keeps_bind keeps_makeRoom (fun _ => ?_) h
      exact keeps_bind (keeps_onFiles (par.read hknown page)) fun data =>
        keeps_load hknown data false

theorem keeps_unpin (key : FrameKey) (dirty : Bool) :
    Keeps exact par.Db (unpin key dirty) (unpin key dirty) :=
  keeps_get fun d e h => by
    simp only [h.pool]
    cases hfind : d.pool.frames.find? key with
    | none => exact agrees_refuse h
    | some frame =>
      simp only
      split
      · exact agrees_refuse h
      · refine agrees_modify ⟨h.files, by rw [h.pool], fun key' hkey' => h.known key' ?_, ?_,
          h.capacity⟩
        · simp only [Table.keys_adjust] at hkey'
          exact hkey'
        · have hkeys := Table.mem_keys_of_find? hfind
          exact h.tracked.touch hkeys (by simp only [Table.keys_adjust]) rfl

theorem keeps_release (pin : Pin) : Keeps exact par.Db (release pin) (release pin) := by
  refine keeps_bind (keeps_modifyPool ?_ ?_ fun _ => rfl) fun _ => keeps_unpin pin.key pin.dirty
  · exact fun p _ hkey => p.keys_forgetHolder pin ▸ hkey
  · exact fun p h => h.of_keys (p.keys_forgetHolder pin) rfl

theorem keeps_drop (pin : Pin) : Keeps exact par.Db (drop pin) (drop pin) :=
  keeps_quietly (keeps_release pin)

theorem keeps_allocate (hexact : ¬exact) {file : FileId} (hknown : par.known file) :
    Keeps exact par.Db (allocate file) (allocate file) :=
  keeps_bind keeps_makeRoom fun _ =>
    keeps_bind (keeps_onFiles (par.allocate hexact hknown)) fun _ => keeps_load hknown _ true

theorem keeps_setClean (key : FrameKey) :
    Keeps exact par.Db (modifyPool (·.setClean key)) (modifyPool (·.setClean key)) :=
  keeps_modifyPool (fun p _ hkey => p.keys_setClean key ▸ hkey)
    (fun p h => h.of_keys (p.keys_setClean key) rfl) fun _ => rfl

theorem keeps_flushPage (key : FrameKey) : Keeps exact par.Db (flushPage key) (flushPage key) :=
  keeps_bind (keeps_writeBack key) fun _ => keeps_bind (keeps_setClean key) fun _ =>
    keeps_get fun d e h => by
      rw [h.pool]
      cases d.pool.frames.find? key with
      | none => exact agrees_pure h
      | some frame =>
        simp only
        split
        · exact keeps_unload key h
        · exact agrees_pure h

theorem keeps_flushFile (file : FileId) : Keeps exact par.Db (flushFile file) (flushFile file) :=
  keeps_get fun d e h => by
    simp only [h.pool]
    exact keeps_forM (fun key _ => keeps_flushPage key) h

/-- The files that have frames are known. -/
theorem known_of_mem_cachedFiles {d : Database σ} {e : Database τ} (h : par.Db d e) {file : FileId}
    (hfile : file ∈ cachedFiles d.pool) : par.known file := by
  unfold cachedFiles at hfile
  rw [List.mem_mergeSort, List.mem_eraseDups, List.mem_map] at hfile
  obtain ⟨key, hkey, rfl⟩ := hfile
  exact h.known key hkey

theorem keeps_flushAll : Keeps exact par.Db flushAll flushAll :=
  keeps_get fun d e h => by
    simp only [h.pool]
    refine keeps_bind (keeps_forM fun key _ => ?_) (fun _ => keeps_forM fun file hfile => ?_) h
    · exact keeps_bind (keeps_writeBack key) fun _ => keeps_setClean key
    · exact keeps_onFiles (par.sync (known_of_mem_cachedFiles h hfile))

theorem keeps_firstPage {file : FileId} (hknown : par.known file) :
    Keeps exact par.Db (onFiles (PageStore.firstPage file))
      (onFiles (PageStore.firstPage file)) := by
  refine keeps_onFiles (keeps_bind (par.count hknown) fun count => ?_)
  split
  · exact keeps_pure _
  · exact keeps_refuse _

end Database

end PagedHeap
