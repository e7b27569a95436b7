import Mathlib.Data.Finset.Card
import PagedHeap.Proofs.File.Books
import PagedHeap.Proofs.Pool.Access
import PagedHeap.Proofs.Pool.Tracked

/-!
# Pins and openings that are accounted for

`Database.Accounts` relates a database to the pages that its users have pinned and to the files that
they have open: the pool counts the pins on each page, and the store counts the openings of each
file.  Each operation on the database changes the accounts by the pin or the opening that it is
about, whether it is answered or refused.

This holds whatever the bytes of the pages are, so that nothing has to be known of the files.  There
are only as many pages as there are numbers for: in a file that has grown beyond, two pages have the
same number, and then the pool still has no pin on a page that nobody pinned.

A pool says that it has no frame left only if there are as many pinned pages as it may have frames.
-/

namespace PagedHeap

open PagedHeap.Action

/-- If the cause is that there is no frame left, there are as many pinned pages as there may be
frames. -/
def StorageError.Justified (capacity pinned : Nat) (e : StorageError) : Prop :=
  e = .bufferPoolExhausted → capacity ≤ pinned

theorem StorageError.justified_of_ne {capacity pinned : Nat} {e : StorageError}
    (he : e ≠ .bufferPoolExhausted) : e.Justified capacity pinned := fun heq => absurd heq he

theorem StorageError.Justified.mono {capacity pinned pinned' : Nat} {e : StorageError}
    (h : e.Justified capacity pinned) (hle : pinned ≤ pinned') : e.Justified capacity pinned' :=
  fun heq => (h heq).trans hle

/-- One more pin is on one more page at most. -/
theorem FrameKey.card_toFinset_cons_le (key : FrameKey) (held : Multiset FrameKey) :
    (key ::ₘ held).toFinset.card ≤ held.toFinset.card + 1 := by
  rw [Multiset.toFinset_cons]
  exact Finset.card_insert_le _ _

/-! ## The pins on a page -/

namespace Pool

variable {p q : Pool} {key : FrameKey} {frame : Frame}

theorem pinCount_of_find? (h : p.frames.find? key = some frame) : p.pinCount key = frame.pins := by
  unfold pinCount
  rw [h]
  rfl

theorem pinCount_of_find?_none (h : p.frames.find? key = none) : p.pinCount key = 0 := by
  unfold pinCount
  rw [h]
  rfl

/-- Only the pins on the page whose frame is changed can change. -/
theorem pinCount_adjust (p : Pool) (key : FrameKey) (f : Frame → Frame)
    (recency : Recency FrameKey) (k : FrameKey) :
    pinCount { p with frames := p.frames.adjust key f, recency := recency } k =
      if k = key then ((p.frames.find? key).map fun frame => (f frame).pins).getD 0
      else p.pinCount k := by
  unfold pinCount
  simp only [Table.find?_adjust]
  split
  · next hk =>
    rw [hk, Option.map_map]
    rfl
  · rfl

/-- A change of a frame that keeps its pins keeps all pins. -/
theorem pinCount_of_adjust {f : Frame → Frame} (hframes : q.frames = p.frames.adjust key f)
    (hf : ∀ frame, (f frame).pins = frame.pins) (k : FrameKey) : q.pinCount k = p.pinCount k := by
  have hcount := pinCount_adjust p key f p.recency k
  rw [← hframes] at hcount
  refine hcount.trans ?_
  split
  · next hk =>
    rw [hk]
    unfold pinCount
    simp only [hf]
  · rfl

theorem pinCount_setPage (p : Pool) (pin : Pin) (page : Page) (k : FrameKey) :
    (p.setPage pin page).pinCount k = p.pinCount k := by
  have hframes : (p.setPage pin page).frames = p.frames.adjust pin.key fun frame =>
    if frame.serial = pin.serial then { frame with page := page } else frame := rfl
  exact pinCount_of_adjust hframes (fun frame => by split <;> rfl) k

theorem pinCount_setClean (p : Pool) (key k : FrameKey) :
    (p.setClean key).pinCount k = p.pinCount k := by
  have hframes : (p.setClean key).frames =
    p.frames.adjust key fun frame => { frame with dirty := false } := rfl
  exact pinCount_of_adjust hframes (fun _ => rfl) k

theorem pinCount_forgetHolder (p : Pool) (pin : Pin) (k : FrameKey) :
    (p.forgetHolder pin).pinCount k = p.pinCount k := by
  have hframes : (p.forgetHolder pin).frames = p.frames.adjust pin.key fun frame =>
    if frame.serial = pin.serial then { frame with holders := frame.holders - 1 } else frame := rfl
  exact pinCount_of_adjust hframes (fun frame => by split <;> rfl) k

theorem pinCount_load (p : Pool) (key : FrameKey) (page : Page) (dirty : Bool) (k : FrameKey) :
    (p.load key page dirty).2.pinCount k = if k = key then 1 else p.pinCount k := by
  unfold pinCount load
  simp only
  split
  · next hk =>
    rw [hk, Table.find?_put_self]
    rfl
  · next hk => rw [Table.find?_put_of_ne (Ne.symm hk)]

theorem pinCount_unload (p : Pool) (key k : FrameKey) :
    (p.unload key).pinCount k = if k = key then 0 else p.pinCount k := by
  unfold pinCount unload
  simp only
  split
  · next hk =>
    rw [hk, Table.find?_erase_self]
    rfl
  · next hk => rw [Table.find?_erase_of_ne (Ne.symm hk)]

/-- If every frame has a pin, there are as many pinned pages as frames. -/
theorem Tracked.size_le_of_victim?_none (h : p.Tracked) {held : Multiset FrameKey}
    (hcovered : ∀ key, p.pinCount key ≤ held.count key) (hnone : p.victim? = none) :
    p.size ≤ held.toFinset.card := by
  have hpinned : p.frames.keys.toFinset ⊆ held.toFinset := by
    intro key hkey
    obtain ⟨frame, hfind⟩ :=
      Option.isSome_iff_exists.1 (Table.mem_keys.1 (List.mem_toFinset.1 hkey))
    have hpins : frame.pins ≠ 0 := by
      intro hzero
      obtain ⟨victim, hvictim⟩ := h.exists_victim hfind hzero
      cases hnone.symm.trans hvictim
    have hle := hcovered key
    rw [pinCount_of_find? hfind] at hle
    exact Multiset.mem_toFinset.2 (Multiset.count_pos.1 (by omega))
  calc p.size = p.frames.keys.toFinset.card := by
        rw [List.toFinset_card_of_nodup h.nodup]
        exact (List.length_map _).symm
    _ ≤ held.toFinset.card := Finset.card_le_card hpinned

/-- The page whose frame is given up has a frame. -/
theorem Tracked.exists_of_victim (h : p.Tracked) (hvictim : p.victim? = some key) :
    ∃ frame, p.frames.find? key = some frame ∧ frame.pins = 0 := by
  have hlisted := (h.listed key).1 (List.mem_of_find?_eq_some hvictim)
  obtain ⟨frame, hfind⟩ := Option.isSome_iff_exists.1 (Table.mem_keys.1 hlisted)
  have hfree := List.find?_some hvictim
  simp only [hfind, beq_iff_eq] at hfree
  exact ⟨frame, hfind, hfree⟩

/-- The number of pages with pins. -/
def pinnedPages (p : Pool) : Nat := p.frames.keys.countP fun key => 0 < p.pinCount key

theorem pinnedPages_le_size (p : Pool) : p.pinnedPages ≤ p.size := by
  rw [size_eq]
  exact List.countP_le_length

/-- If the pins of a pool are those on the pages in `held`, these are the pages with pins. -/
theorem pinnedPages_eq (hnodup : p.frames.keys.Nodup) {held : Multiset FrameKey}
    (hcounted : ∀ key, p.pinCount key = held.count key) : p.pinnedPages = held.toFinset.card := by
  have hpages : (p.frames.keys.filter fun key => 0 < p.pinCount key).toFinset = held.toFinset := by
    ext key
    rw [List.mem_toFinset, List.mem_filter, Multiset.mem_toFinset, ← Multiset.count_pos,
      ← hcounted key, decide_eq_true_eq]
    refine ⟨And.right, fun hpins => ⟨?_, hpins⟩⟩
    cases hfind : p.frames.find? key with
    | some frame => exact Table.mem_keys_of_find? hfind
    | none =>
      rw [pinCount_of_find?_none hfind] at hpins
      exact absurd hpins (Nat.lt_irrefl 0)
  unfold pinnedPages
  rw [← hpages, List.toFinset_card_of_nodup (hnodup.filter _), List.countP_eq_length_filter]

end Pool

/-! ## Accounts of a database -/

/-- If files only grow, they had no more pages than there are numbers for. -/
theorem FileStore.Books.Numbered.of_grows {σ : Type} [FileStore σ] {books : FileStore.Books σ}
    {s t : σ} (h : books.Numbered t) (hgrows : books.Grows s t) : books.Numbered s :=
  fun file => (hgrows.size file).trans (h file)

namespace Database

variable {σ : Type} [FileStore σ]

/-- The pool has counted the pins on the pages in `held`, and the store the openings of the files in
`files`. -/
structure Accounts (books : FileStore.Books σ) (capacity : Nat) (held : Multiset FrameKey)
    (files : Multiset FileHandle) (db : Database σ) : Prop where
  /-- There are no more frames than there may be. -/
  bounded : db.pool.size ≤ capacity
  capacity : db.pool.capacity = capacity
  tracked : db.pool.Tracked
  /-- There is no pin on a page that nobody pinned. -/
  covered : ∀ key, db.pool.pinCount key ≤ held.count key
  valid : books.valid db.files
  tallies : (books.opened db.files).Tallies files
  /-- Every pin is counted. -/
  counted : books.Numbered db.files → ∀ key, db.pool.pinCount key = held.count key
  /-- The pool has pages of the files only. -/
  inFile : books.Numbered db.files → ∀ key ∈ db.pool.frames.keys,
    key.page.val.toNat < books.size db.files key.file

variable {books : FileStore.Books σ} {capacity : Nat} {held : Multiset FrameKey}
variable {files : Multiset FileHandle} {db : Database σ} {key : FrameKey} {t : σ} {p : Pool}

theorem accounts_start (s : σ) (hvalid : books.valid s) (hopened : books.opened s = [])
    (capacity : Nat) : Accounts books capacity 0 0 ⟨s, .empty capacity⟩ where
  capacity := rfl
  bounded := Nat.zero_le _
  tracked := Pool.tracked_empty capacity
  covered _ := Nat.le_refl 0
  valid := hvalid
  tallies := hopened ▸ OpenTable.tallies_nil
  counted _ _ := rfl
  inFile _ _ hkey := absurd hkey List.not_mem_nil

/-- Files may grow, if what is open is accounted for. -/
theorem Accounts.grow {files' : Multiset FileHandle} (h : Accounts books capacity held files db)
    (hgrows : books.Grows db.files t) (htallies : (books.opened t).Tallies files') :
    Accounts books capacity held files' { db with files := t } where
  capacity := h.capacity
  bounded := h.bounded
  tracked := h.tracked
  covered := h.covered
  valid := hgrows.valid
  tallies := htallies
  counted hnumbered := h.counted (hnumbered.of_grows hgrows)
  inFile hnumbered key hkey :=
    (h.inFile (hnumbered.of_grows hgrows) key hkey).trans_le (hgrows.size key.file)

theorem Accounts.same (h : Accounts books capacity held files db) (hsame : books.Same db.files t) :
    Accounts books capacity held files { db with files := t } :=
  h.grow hsame.toGrows (hsame.opened ▸ h.tallies)

/-- Frames may change or go, if the pins on them stay. -/
theorem Accounts.repool (h : Accounts books capacity held files db) (htracked : p.Tracked)
    (hcapacity : p.capacity = db.pool.capacity) (hsize : p.size ≤ db.pool.size)
    (hpins : ∀ key, p.pinCount key = db.pool.pinCount key)
    (hkeys : ∀ key ∈ p.frames.keys, key ∈ db.pool.frames.keys) :
    Accounts books capacity held files { db with pool := p } where
  capacity := hcapacity.trans h.capacity
  bounded := hsize.trans h.bounded
  tracked := htracked
  covered key := (hpins key).trans_le (h.covered key)
  valid := h.valid
  tallies := h.tallies
  counted hnumbered key := (hpins key).trans (h.counted hnumbered key)
  inFile hnumbered key hkey := h.inFile hnumbered key (hkeys key hkey)

/-- A frame without a pin is given up. -/
theorem Accounts.unload (h : Accounts books capacity held files db)
    (hpins : db.pool.pinCount key = 0) :
    Accounts books capacity held files { db with pool := db.pool.unload key } := by
  have hsize : (db.pool.unload key).size ≤ db.pool.size := List.length_filter_le _ _
  refine h.repool (h.tracked.unload key) rfl hsize (fun k => ?_) fun k hk => ?_
  · rw [Pool.pinCount_unload]
    split
    · next hkey => rw [hkey, hpins]
    · rfl
  · exact (Table.mem_keys_erase.1 hk).2

/-- A page gets one more pin. -/
theorem Accounts.pinned (h : Accounts books capacity held files db) (htracked : p.Tracked)
    (hcapacity : p.capacity = db.pool.capacity) (hbounded : p.size ≤ capacity)
    (hcovered : p.pinCount key ≤ held.count key + 1)
    (hpins : ∀ k, k ≠ key → p.pinCount k = db.pool.pinCount k)
    (hkeys : ∀ k ∈ p.frames.keys, k = key ∨ k ∈ db.pool.frames.keys)
    (hnumbered : books.Numbered db.files → p.pinCount key = held.count key + 1 ∧
      key.page.val.toNat < books.size db.files key.file) :
    Accounts books capacity (key ::ₘ held) files { db with pool := p } where
  capacity := hcapacity.trans h.capacity
  bounded := hbounded
  tracked := htracked
  covered k := by
    by_cases hk : k = key
    · rw [hk, Multiset.count_cons_self]
      exact hcovered
    · rw [Multiset.count_cons_of_ne hk, hpins k hk]
      exact h.covered k
  valid := h.valid
  tallies := h.tallies
  counted hnum k := by
    by_cases hk : k = key
    · rw [hk, Multiset.count_cons_self]
      exact (hnumbered hnum).1
    · rw [Multiset.count_cons_of_ne hk, hpins k hk]
      exact h.counted hnum k
  inFile hnum k hk := by
    rcases hkeys k hk with rfl | hold
    · exact (hnumbered hnum).2
    · exact h.inFile hnum k hold

/-- A page that has a frame gets one more pin. -/
theorem Accounts.pin_again {frame : Frame} (h : Accounts books capacity held files db)
    (hfind : db.pool.frames.find? key = some frame) :
    Accounts books capacity (key ::ₘ held) files { db with pool := { db.pool with
      frames := db.pool.frames.adjust key fun f =>
        { f with pins := f.pins + 1, holders := f.holders + 1 }
      recency := db.pool.recency.touch key } } := by
  have hkeys := Table.keys_adjust db.pool.frames key
    fun f => { f with pins := f.pins + 1, holders := f.holders + 1 }
  have hpins := Pool.pinCount_adjust db.pool key
    (fun f => { f with pins := f.pins + 1, holders := f.holders + 1 }) (db.pool.recency.touch key)
  have hself := hpins key
  rw [if_pos rfl, hfind, Option.map_some, Option.getD_some, ← Pool.pinCount_of_find? hfind] at hself
  have hmem := Table.mem_keys_of_find? hfind
  refine h.pinned (h.tracked.touch hmem hkeys rfl) rfl ((Pool.size_congr hkeys).trans_le h.bounded)
    ?_ (fun k hk => (hpins k).trans (if_neg hk))
    (fun k hk => .inr (hkeys ▸ hk)) fun hnumbered => ⟨?_, h.inFile hnumbered _ hmem⟩
  · rw [hself]
    exact Nat.succ_le_succ (h.covered key)
  · rw [hself, h.counted hnumbered]

/-- A page that had no frame gets one with a pin. -/
theorem Accounts.load (h : Accounts books capacity held files db) (hroom : db.pool.size < capacity)
    (hfresh : books.Numbered db.files → db.pool.frames.find? key = none ∧
      key.page.val.toNat < books.size db.files key.file) (page : Page) (dirty : Bool) :
    Accounts books capacity (key ::ₘ held) files
      { db with pool := (db.pool.load key page dirty).2 } := by
  have hbounded : (db.pool.load key page dirty).2.size ≤ capacity :=
    (Table.length_put_le _ _ _).trans hroom
  refine h.pinned (h.tracked.load key page dirty) rfl hbounded ?_ (fun k hk => ?_) (fun k hk => ?_)
    fun hnumbered => ⟨?_, (hfresh hnumbered).2⟩
  · rw [Pool.pinCount_load, if_pos rfl]
    exact Nat.le_add_left 1 _
  · rw [Pool.pinCount_load, if_neg hk]
  · exact Table.mem_keys_put.1 hk
  · rw [Pool.pinCount_load, if_pos rfl, ← h.counted hnumbered,
      Pool.pinCount_of_find?_none (hfresh hnumbered).1]

/-- A page loses a pin, or it had none. -/
theorem Accounts.unpinned (h : Accounts books capacity (key ::ₘ held) files db)
    (htracked : p.Tracked) (hcapacity : p.capacity = db.pool.capacity)
    (hself : p.pinCount key = db.pool.pinCount key - 1)
    (hpins : ∀ k, k ≠ key → p.pinCount k = db.pool.pinCount k)
    (hkeys : p.frames.keys = db.pool.frames.keys) :
    Accounts books capacity held files { db with pool := p } where
  capacity := hcapacity.trans h.capacity
  bounded := (Pool.size_congr hkeys).trans_le h.bounded
  tracked := htracked
  covered k := by
    have hcovered := h.covered k
    by_cases hk : k = key
    · rw [hk, Multiset.count_cons_self] at hcovered
      rw [hk, hself]
      omega
    · rw [Multiset.count_cons_of_ne hk] at hcovered
      rwa [hpins k hk]
  valid := h.valid
  tallies := h.tallies
  counted hnumbered k := by
    have hcounted := h.counted hnumbered k
    by_cases hk : k = key
    · rw [hk, Multiset.count_cons_self] at hcounted
      rw [hk, hself, hcounted, Nat.add_sub_cancel]
    · rw [Multiset.count_cons_of_ne hk] at hcounted
      rwa [hpins k hk]
  inFile hnumbered k hk := h.inFile hnumbered k (hkeys ▸ hk)

/-- A pin on a page is given back. -/
theorem Accounts.unpin {frame : Frame} (h : Accounts books capacity (key ::ₘ held) files db)
    (hfind : db.pool.frames.find? key = some frame) (dirty : Bool) :
    Accounts books capacity held files { db with pool := { db.pool with
      frames := db.pool.frames.adjust key fun f =>
        { f with pins := f.pins - 1, dirty := f.dirty || dirty }
      recency := db.pool.recency.touch key } } := by
  have hkeys := Table.keys_adjust db.pool.frames key
    fun f => { f with pins := f.pins - 1, dirty := f.dirty || dirty }
  have hpins := Pool.pinCount_adjust db.pool key
    (fun f => { f with pins := f.pins - 1, dirty := f.dirty || dirty })
    (db.pool.recency.touch key)
  have hself := hpins key
  rw [if_pos rfl, hfind, Option.map_some, Option.getD_some, ← Pool.pinCount_of_find? hfind] at hself
  exact h.unpinned (h.tracked.touch (Table.mem_keys_of_find? hfind) hkeys rfl) rfl hself
    (fun k hk => (hpins k).trans (if_neg hk)) hkeys

/-! ## What operations do to the accounts -/

/-- No operation but one that needs a frame is refused for want of one. -/
abbrev NotExhausted (e : StorageError) : Prop := e ≠ .bufferPoolExhausted

omit [FileStore σ] in
theorem preserves_pageOf {keep : Database σ → Prop} {cause : StorageError → Prop} (pin : Pin) :
    Preserves keep cause (pageOf pin : Action (Database σ) Page) :=
  preserves_get fun _ h => allows_pure h

theorem preserves_setPage (pin : Pin) (page : Page) {cause : StorageError → Prop} :
    Preserves (Accounts books capacity held files) cause (setPage pin page) :=
  preserves_modify fun db h => h.repool (h.tracked.of_keys (Pool.keys_setPage _ pin page) rfl) rfl
    (Pool.size_congr (Pool.keys_setPage _ pin page)).le (Pool.pinCount_setPage _ pin page)
    fun _ hkey => Pool.keys_setPage db.pool pin page ▸ hkey

/-- An operation on the files that opens and closes none. -/
theorem preserves_onFiles {α : Type} {x : Action σ α}
    (hx : ∀ {s}, books.valid s → x.Allows s (fun _ => books.Same s) (books.Refused s)) :
    Preserves (Accounts books capacity held files) NotExhausted (onFiles x) := fun _ h =>
  allows_onPart ((hx h.valid).mono (fun _ _ hsame => h.same hsame)
    fun _ _ hrefused => ⟨hrefused.1, h.same hrefused.2⟩)

/-- A file is opened. -/
theorem allows_openFile (h : Accounts books capacity held files db) (name : String) :
    (onFiles (FileStore.openFile name)).Allows db
      (fun file db' => file.name = name ∧ Accounts books capacity held (file ::ₘ files) db')
      (fun e db' => NotExhausted e ∧ Accounts books capacity held files db') := by
  refine allows_onPart ((books.openFile h.valid name).mono ?_
    fun _ _ hrefused => ⟨hrefused.1, h.same hrefused.2⟩)
  rintro file t ⟨hname, hgrows, count, hfind, hopened⟩
  refine ⟨hname, h.grow hgrows ?_⟩
  rw [hopened]
  exact h.tallies.opened hfind

/-- An opening of a file is given back, even if that is refused. -/
theorem allows_close {file : FileHandle}
    (h : Accounts books capacity held (file ::ₘ files) db) :
    (onFiles (FileStore.close file)).Allows db (fun _ => Accounts books capacity held files)
      (fun e db' => NotExhausted e ∧ Accounts books capacity held files db') := by
  have hclosed (t : σ) (ht : books.Closed db.files file (files.count file) t) :
      Accounts books capacity held files { db with files := t } :=
    h.grow ht.1 (h.tallies.closed ht.2)
  exact allows_onPart ((books.close h.valid h.tallies.find?_of_mem).mono
    (fun _ t ht => hclosed t ht) fun _ t ht => ⟨ht.1, hclosed t ht.2⟩)

/-! ### Frames -/

theorem allows_writeBack (h : Accounts books capacity held files db) (key : FrameKey) :
    (writeBack key).Allows db
      (fun _ db' => Accounts books capacity held files db' ∧ db'.pool = db.pool)
      (fun e db' => NotExhausted e ∧ Accounts books capacity held files db') := by
  refine allows_get ?_
  split
  · split
    · exact allows_onPart ((books.write h.valid _ _ _).mono (fun _ _ hsame => ⟨h.same hsame, rfl⟩)
        fun _ _ hrefused => ⟨hrefused.1, h.same hrefused.2⟩)
    · exact allows_pure ⟨h, rfl⟩
  · exact allows_pure ⟨h, rfl⟩

/-- Room is made by giving up a frame without pins. -/
theorem allows_makeRoom (h : Accounts books capacity held files db) :
    makeRoom.Allows db
      (fun _ db' => Accounts books capacity held files db' ∧ db'.pool.size < capacity ∧
        ∀ key, db.pool.frames.find? key = none → db'.pool.frames.find? key = none)
      (fun e db' => e.Justified capacity held.toFinset.card ∧
        Accounts books capacity held files db') := by
  refine allows_get ?_
  simp only
  split
  · next hfull =>
    cases hvictim : db.pool.victim? with
    | none =>
      refine allows_refuse ⟨fun _ => ?_, h⟩
      calc capacity = db.pool.capacity := h.capacity.symm
        _ ≤ db.pool.size := hfull
        _ ≤ held.toFinset.card := h.tracked.size_le_of_victim?_none h.covered hvictim
    | some key =>
      refine allows_bind ((allows_writeBack h key).because fun _ => StorageError.justified_of_ne) ?_
      rintro _ db' ⟨h', hpool⟩
      have hpins : db'.pool.pinCount key = 0 := by
        rw [hpool]
        cases hfind : db.pool.frames.find? key with
        | none => exact Pool.pinCount_of_find?_none hfind
        | some frame =>
          rw [Pool.pinCount_of_find? hfind]
          exact pins_eq_zero_of_victim hvictim hfind
      refine allows_modify ⟨h'.unload hpins, ?_, fun k hk => ?_⟩
      · obtain ⟨frame, hfind, -⟩ := h.tracked.exists_of_victim hvictim
        rw [← hpool] at hfind
        exact (Table.length_erase_lt hfind).trans_le h'.bounded
      change (db'.pool.frames.erase key).find? k = none
      rw [hpool]
      by_cases hkey : k = key
      · rw [hkey, Table.find?_erase_self]
      · rwa [Table.find?_erase_of_ne (Ne.symm hkey)]
  · next hroom => exact allows_pure ⟨h, h.capacity ▸ Nat.lt_of_not_le hroom, fun _ hnone => hnone⟩

/-- A page is pinned. -/
theorem allows_pin (h : Accounts books capacity held files db) (file : FileId) (page : PageId) :
    (pin file page).Allows db
      (fun pin db' => pin.key = ⟨file, page⟩ ∧
        Accounts books capacity (pin.key ::ₘ held) files db')
      (fun e db' => e.Justified capacity held.toFinset.card ∧
        Accounts books capacity held files db') := by
  refine allows_get ?_
  cases hfind : db.pool.frames.find? ⟨file, page⟩ with
  | some frame =>
    exact allows_modify_bind (allows_pure ⟨rfl, h.pin_again hfind⟩)
  | none =>
    refine allows_bind (allows_makeRoom h) ?_
    rintro _ db₁ ⟨h₁, hroom, hkept⟩
    refine allows_bind (p := fun _ db₂ => Accounts books capacity held files db₂ ∧
      db₂.pool = db₁.pool ∧ page.val.toNat < books.size db₂.files file)
      (allows_onPart ((books.read h₁.valid file page).mono ?_ ?_)) ?_
    · rintro data t ⟨hsame, hlt⟩
      exact ⟨h₁.same hsame, rfl, hlt.trans_le (hsame.size file)⟩
    · rintro e t ⟨he, hsame⟩
      exact ⟨StorageError.justified_of_ne he, h₁.same hsame⟩
    · rintro data db₂ ⟨h₂, hpool, hlt⟩
      rw [← hpool] at hroom hkept
      exact allows_get (allows_set_bind (allows_pure ⟨rfl, h₂.load hroom
        (fun _ => ⟨hkept _ hfind, hlt⟩) data _⟩))

/-- A pin is given back, even if that is refused. -/
theorem allows_release {pin : Pin}
    (h : Accounts books capacity (pin.key ::ₘ held) files db) :
    (release pin).Allows db (fun _ => Accounts books capacity held files)
      (fun e db' => NotExhausted e ∧ Accounts books capacity held files db') := by
  have h₁ : Accounts books capacity (pin.key ::ₘ held) files
      { db with pool := db.pool.forgetHolder pin } :=
    h.repool (h.tracked.of_keys (Pool.keys_forgetHolder _ pin) rfl) rfl
      (Pool.size_congr (Pool.keys_forgetHolder _ pin)).le (Pool.pinCount_forgetHolder _ pin)
      fun _ hk => Pool.keys_forgetHolder db.pool pin ▸ hk
  -- a page without pins has none to lose
  have hnone (hzero : (db.pool.forgetHolder pin).pinCount pin.key = 0) :
      Accounts books capacity held files { db with pool := db.pool.forgetHolder pin } :=
    h₁.unpinned h₁.tracked rfl (by rw [hzero]) (fun _ _ => rfl) rfl
  refine allows_modify_bind (allows_get ?_)
  split
  · next hfind => exact allows_refuse ⟨by simp, hnone (Pool.pinCount_of_find?_none hfind)⟩
  · next frame hfind =>
    split
    · next hzero =>
      exact allows_refuse ⟨by simp, hnone ((Pool.pinCount_of_find? hfind).trans hzero)⟩
    · exact allows_modify (h₁.unpin hfind pin.dirty)

theorem allows_drop {pin : Pin} (h : Accounts books capacity (pin.key ::ₘ held) files db)
    {refused : StorageError → Database σ → Prop} :
    (drop pin).Allows db (fun _ => Accounts books capacity held files) refused :=
  allows_quietly ((allows_release h).mono (fun _ _ hpost => hpost) fun _ _ hpost => hpost.2)

/-- A new page of an open file is pinned. -/
theorem allows_allocate {file : FileHandle} (h : Accounts books capacity held files db)
    (hfile : file ∈ files) :
    (allocate file.id).Allows db
      (fun pin db' => pin.key.file = file.id ∧
        Accounts books capacity (pin.key ::ₘ held) files db')
      (fun e db' => e.Justified capacity held.toFinset.card ∧
        Accounts books capacity held files db') := by
  refine allows_bind (allows_makeRoom h) ?_
  rintro _ db₁ ⟨h₁, hroom, -⟩
  refine allows_bind (p := fun page db₂ => Accounts books capacity held files db₂ ∧
    db₂.pool.size < capacity ∧ (books.Numbered db₂.files →
      db₂.pool.frames.find? ⟨file.id, page⟩ = none ∧
      page.val.toNat < books.size db₂.files file.id))
    (allows_onPart ((books.allocate h₁.valid (h₁.tallies.isOpen hfile)).mono ?_ ?_)) ?_
  · rintro page t ⟨hsame, hsize, hpage⟩
    refine ⟨h₁.same hsame, hroom, fun hnumbered => ?_⟩
    have hlt : books.size db₁.files file.id < 2 ^ 32 := by
      have hle := hnumbered file.id
      rw [hsize] at hle
      exact hle
    have hnumber := hpage hlt
    refine ⟨?_, by simp only [hsize, hnumber]; exact Nat.lt_succ_self _⟩
    by_contra hfound
    obtain ⟨frame, hfind⟩ := Option.ne_none_iff_exists'.1 hfound
    have hold := h₁.inFile (hnumbered.of_grows hsame.toGrows) _ (Table.mem_keys_of_find? hfind)
    simp only [hnumber] at hold
    exact Nat.lt_irrefl _ hold
  · rintro e t ⟨he, hsame⟩
    exact ⟨StorageError.justified_of_ne he, h₁.same hsame⟩
  · rintro page db₂ ⟨h₂, hroom₂, hfresh⟩
    exact allows_get (allows_set_bind (allows_pure ⟨rfl, h₂.load hroom₂ hfresh _ _⟩))

/-! ### Writing back -/

theorem preserves_setClean (key : FrameKey) {cause : StorageError → Prop} :
    Preserves (Accounts books capacity held files) cause
      (modifyPool (·.setClean key) : Action (Database σ) Unit) :=
  preserves_modify fun db h => h.repool (h.tracked.of_keys (Pool.keys_setClean _ key) rfl) rfl
    (Pool.size_congr (Pool.keys_setClean _ key)).le (Pool.pinCount_setClean _ key)
    fun _ hkey => Pool.keys_setClean db.pool key ▸ hkey

theorem preserves_writeBack (key : FrameKey) :
    Preserves (Accounts books capacity held files) NotExhausted (writeBack key) := fun _ h =>
  (allows_writeBack h key).mono (fun _ _ hpost => hpost.1) fun _ _ hpost => hpost

theorem preserves_flushPage (key : FrameKey) :
    Preserves (Accounts books capacity held files) NotExhausted (flushPage key) := by
  refine preserves_bind (preserves_writeBack key) fun _ => preserves_bind (preserves_setClean key)
    fun _ => preserves_get fun _ h => ?_
  split
  · next frame hfind =>
    split
    · next hzero => exact allows_modify (h.unload ((Pool.pinCount_of_find? hfind).trans hzero))
    · exact allows_pure h
  · exact allows_pure h

theorem preserves_flushFile (file : FileId) :
    Preserves (Accounts books capacity held files) NotExhausted (flushFile file) :=
  preserves_get fun _ h => preserves_forM _ preserves_flushPage h

theorem preserves_flushAll :
    Preserves (Accounts books capacity held files) NotExhausted flushAll :=
  preserves_get fun _ h => preserves_bind
    (preserves_forM _ fun key => preserves_bind (preserves_writeBack key) fun _ =>
      preserves_setClean key)
    (fun _ => preserves_forM _ fun file => preserves_onFiles fun hs => books.sync hs file) h

end Database

end PagedHeap
