import PagedHeap.Proofs.Heap.Accounts

/-!
# Accounts of heap files that are opened, closed and made

Opening a heap file takes its two pins and one opening of the file, or nothing if it is refused;
closing it gives them back, even if that is refused (`Database.allows_openHeap`,
`Database.allows_closeHeap`).  A heap file that is made, or cannot be made, leaves neither pins nor
openings behind (`Database.preserves_createHeap`).
-/

namespace PagedHeap

open PagedHeap.Action

namespace Database

variable {σ : Type} [FileStore σ] {books : FileStore.Books σ} {capacity : Nat}
variable {held : Multiset FrameKey} {files : Multiset FileHandle} {db : Database σ}

/-- The first page of a file is page one. -/
theorem allows_firstPage (h : Accounts books capacity held files db) (file : FileId) :
    (onFiles (PageStore.firstPage file)).Allows db
      (fun page db' => page = ⟨1⟩ ∧ Accounts books capacity held files db')
      (fun e db' => NotExhausted e ∧ Accounts books capacity held files db') := by
  refine allows_onPart (allows_bind ((books.count h.valid file).mono (fun _ _ hsame => h.same hsame)
    fun _ _ hrefused => ⟨hrefused.1, h.same hrefused.2⟩) fun count t ht => ?_)
  split
  · exact allows_pure ⟨rfl, ht⟩
  · exact allows_refuse ⟨by simp, ht⟩

/-- The first pages of a file are pinned, or no page is. -/
theorem allows_pinFirstPages (h : Accounts books capacity held files db) (file : FileHandle) :
    (pinFirstPages file).Allows db
      (fun heap db' => heap.file = file ∧ heap.OnFile ∧
        Accounts books capacity (heap.keys + held) files db')
      (fun e db' => e.Justified capacity (held.toFinset.card + 1) ∧
        Accounts books capacity held files db') := by
  refine allows_bind ((allows_firstPage h file.id).because fun _ => StorageError.justified_of_ne) ?_
  rintro page db₁ ⟨rfl, h₁⟩
  refine allows_bind ((allows_pin h₁ file.id ⟨1⟩).because fun _ he => he.mono (Nat.le_succ _)) ?_
  rintro headerPin db₂ ⟨hheader, h₂⟩
  -- whatever is refused from here on gives the pin on the header page back
  refine Allows.orClean (p := Accounts books capacity (headerPin.key ::ₘ held) files) ?_
    fun _ h' => allows_drop h'
  refine allows_bind (preserves_pageOf headerPin h₂) fun data db₃ h₃ => ?_
  refine allows_bind (preserves_ofResult (fun e he =>
    StorageError.justified_of_ne (HeapHeader.notExhausted_read data e he)) h₃)
    fun header db₄ h₄ => ?_
  refine allows_bind ((allows_pin h₄ file.id header.firstPage).because fun _ he =>
    he.mono (FrameKey.card_toFinset_cons_le _ _)) ?_
  rintro firstPin db₅ ⟨hfirst, h₅⟩
  have hcheck : Preserves
      (Accounts books capacity (firstPin.key ::ₘ (headerPin.key ::ₘ held)) files) NotExhausted
      (do let _ ← Action.ofResult (SlottedPage.read (← pageOf firstPin)) :
        Action (Database σ) Unit) :=
    preserves_bind (preserves_pageOf firstPin) fun data => preserves_bind
      (preserves_ofResult (SlottedPage.notExhausted_read data)) fun _ => preserves_pure _
  refine allows_bind (((hcheck h₅).orClean fun _ h' => allows_drop h').because
    fun _ => StorageError.justified_of_ne) fun _ db₆ h₆ => ?_
  refine allows_pure ⟨rfl, ⟨hheader, ?_⟩, ?_⟩
  · rintro key ⟨⟩
    rw [hfirst]
  · rwa [HeapFile.keys_add_of_some rfl]

/-- A heap file is opened, or nothing is pinned and opened. -/
theorem allows_openHeap (h : Accounts books capacity held files db) (name : String) :
    (openHeap name).Allows db
      (fun heap db' => heap.file.name = name ∧ heap.OnFile ∧
        Accounts books capacity (heap.keys + held) (heap.file ::ₘ files) db')
      (fun e db' => e.Justified capacity (held.toFinset.card + 1) ∧
        Accounts books capacity held files db') := by
  refine allows_bind ((allows_openFile h name).because fun _ => StorageError.justified_of_ne) ?_
  rintro file db₁ ⟨hname, h₁⟩
  refine Allows.orClean ((allows_pinFirstPages h₁ file).mono ?_ fun _ _ hpost => hpost)
    fun _ h₂ => (allows_close h₂).mono (fun _ _ hpost => hpost) fun _ _ hpost => hpost.2
  rintro heap db₂ ⟨rfl, hfile, h₂⟩
  exact ⟨hname, hfile, h₂⟩

/-- A heap file is closed: its pins and its opening are given back, whatever is refused. -/
theorem allows_closeHeap {heap : HeapFile}
    (h : Accounts books capacity (heap.keys + held) (heap.file ::ₘ files) db) :
    (closeHeap heap).Allows db (fun _ => Accounts books capacity held files)
      (fun e db' => NotExhausted e ∧ Accounts books capacity held files db') := by
  unfold closeHeap
  refine ((Allows.thenAlways (p := Accounts books capacity (heap.headerPin.key ::ₘ held)
    (heap.file ::ₘ files)) ?_ fun _ h₁ => allows_release h₁).thenAlways
      fun _ h₂ => preserves_flushFile heap.file.id h₂).thenAlways fun _ h₃ => allows_close h₃
  cases hcurrent : heap.current with
  | none =>
    rw [HeapFile.keys_add_of_none hcurrent] at h
    exact allows_pure h
  | some pin =>
    rw [HeapFile.keys_add_of_some hcurrent] at h
    exact allows_release h

/-- The first pages of a heap file are laid out, which changes no pins. -/
theorem preserves_layOut (headerPin firstPin : Pin) (name : String) :
    Preserves (Accounts books capacity held files) NotExhausted
      (do
        let first ← Action.ofResult (SlottedPage.format (← pageOf firstPin) firstPin.key.page)
        setPage firstPin first.data
        let header ← Action.ofResult (HeapHeader.new name firstPin.key.page)
        setPage headerPin (← Action.ofResult (header.write (← pageOf headerPin))) :
          Action (Database σ) Unit) := by
  refine preserves_bind (preserves_pageOf firstPin) fun data => ?_
  refine preserves_bind (preserves_ofResult (SlottedPage.notExhausted_format data _))
    fun first => preserves_bind (preserves_setPage firstPin _) fun _ => ?_
  refine preserves_bind (preserves_ofResult (HeapHeader.notExhausted_new name _))
    fun header => preserves_bind (preserves_pageOf headerPin) fun page => ?_
  exact preserves_bind (preserves_ofResult (header.notExhausted_write page))
    fun page => preserves_setPage headerPin page

/-- A file is laid out as a heap file with two more pins, which are given back. -/
theorem preserves_formatHeap {file : FileHandle} (hfile : file ∈ files) (name : String) :
    Preserves (Accounts books capacity held files)
      (StorageError.Justified capacity (held.toFinset.card + 1))
      (formatHeap file name) := by
  intro db h
  have hnew {held : Multiset FrameKey} {db : Database σ}
      (h : Accounts books capacity held files db) :
      (allocate file.id).Allows db
        (fun pin => Accounts books capacity (pin.key ::ₘ held) files)
        (fun e db' => e.Justified capacity held.toFinset.card ∧
          Accounts books capacity held files db') :=
    (allows_allocate h hfile).mono (fun _ _ hpost => hpost.2) fun _ _ hpost => hpost
  refine allows_bind ((hnew h).because fun _ he => he.mono (Nat.le_succ _))
    fun headerPin db₁ h₁ => ?_
  refine allows_bind (((hnew h₁).orClean fun _ h' => allows_drop h').because fun _ he =>
    he.mono (FrameKey.card_toFinset_cons_le _ _)) fun firstPin db₂ h₂ => ?_
  -- from here on no more frames are needed
  refine Allows.because ?_ fun e (he : NotExhausted e) => StorageError.justified_of_ne he
  refine allows_bind ((preserves_layOut headerPin firstPin name h₂).orClean fun _ h' =>
    allows_bind (allows_drop h') fun _ _ h'' => allows_drop h'') fun _ db₃ h₃ => ?_
  rw [Multiset.cons_swap] at h₃
  refine allows_bind ((allows_release h₃).orClean fun _ h' => allows_drop h') fun _ db₄ h₄ => ?_
  exact allows_bind (allows_release h₄) fun _ db₅ h₅ => preserves_flushFile file.id h₅

/-- A heap file is made, or refused, and nothing stays pinned or open. -/
theorem preserves_createHeap (name : String) :
    Preserves (Accounts books capacity held files)
      (StorageError.Justified capacity (held.toFinset.card + 1))
      (createHeap name) := by
  intro db h
  refine allows_bind ((preserves_onFiles (fun hs => books.create hs name) h).because
    fun _ => StorageError.justified_of_ne) fun _ db₁ h₁ => ?_
  refine allows_bind ((allows_openFile h₁ name).because fun _ => StorageError.justified_of_ne) ?_
  rintro file db₂ ⟨-, h₂⟩
  exact (preserves_formatHeap (Multiset.mem_cons_self file files) name h₂).thenAlways fun _ h₃ =>
    (allows_close h₃).because fun _ => StorageError.justified_of_ne

theorem preserves_destroyHeap (name : String) :
    Preserves (Accounts books capacity held files) NotExhausted (destroyHeap name) :=
  preserves_onFiles fun hs => books.destroy hs name

end Database

end PagedHeap
