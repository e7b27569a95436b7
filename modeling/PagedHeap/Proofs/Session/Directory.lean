import PagedHeap.Proofs.Heap.Opening

/-!
# Commands on heap files in a directory

A command on heap files comes to the same end in a session over a directory and in the one over its
mirror, and then the sessions stand beside each other again (`Session.agrees_perform`).  Only of a
heap file that could not be opened or made, although its file was opened, nothing is said.

Whoever gives up a handle changes nothing about what the directory is shown to have
(`Session.agrees_closing`).
-/

namespace PagedHeap

open PagedHeap.Action

open MemoryFiles (law)

/-- The commands on heap files; files are not made, removed or looked for as such. -/
def Command.OnHeaps : Command → Prop
  | .createFile _ | .destroyFile _ | .hasFile _ => False
  | c => c.HeapLevel

theorem Command.OnHeaps.heapLevel {c : Command} (h : c.OnHeaps) : c.HeapLevel := by
  cases c with
  | createFile | destroyFile | hasFile => exact h.elim
  | create | destroy | flush | capacity | openAs | tell | unusable => exact h

/-- The name of the file that a command opens, if it opens one. -/
def Command.title : Command → String
  | .create name => name
  | .openAs _ (.heap _ name) => name
  | _ => ""

namespace Session

/-- The file that a command opens can be opened. -/
def Reaches (s : Session DiskFiles) : Command → Prop
  | .create name => s.db.files.ReachesNew name
  | .openAs _ (.heap _ name) => s.db.files.Reaches name
  | _ => False

/-- What a command with its reply leads to over a directory and over its mirror. -/
structure Leads (s : Session DiskFiles) (c : Command) (reply : Reply) (s' : Session DiskFiles)
    (t' : Session MemoryFiles) : Prop where
  mirrored : s'.Mirrored t'
  settled : Database.Settled s.db s'.db t'.db
  named : ∀ {name}, s'.db.files.named.has name = true →
    s.db.files.named.has name = true ∨
      c = .create name ∧ reply = .done ∧ FileName.check name = .ok ()
  kept : ∀ {name i}, s.db.files.named.find? name = some i →
    s'.db.files.named.has name = true → s'.db.files.named.find? name = some i
  grows : s.db.files.Grows s'.db.files

/-- What giving up a handle leads to: the directory is shown with the same files and pages. -/
structure Forgets (s : Session DiskFiles) (name : String) (c : HandleCommand) (reply : Reply)
    (s' : Session DiskFiles) (t' : Session MemoryFiles) : Prop where
  leads : Leads s (.tell name c) reply s' t'
  handles : s'.handles = s.handles.erase name
  shown : s'.db.shown = s.db.shown
  nextId : s'.db.files.nextId = s.db.files.nextId

variable {exact : Prop} {s : Session DiskFiles} {t : Session MemoryFiles} {name : String}
variable {handle : Handle} {heap : HeapFile} {c : Command} {c' : HandleCommand} {reply : Reply}

theorem Leads.refl (h : s.Mirrored t) : Leads s c reply s t where
  mirrored := h
  settled := Database.settled_of_akin (.refl _) _
  named := .inl
  kept hfind _ := hfind
  grows := .refl _

/-- What was done to open files only. -/
theorem Leads.of_akin {d' : Database DiskFiles} {e' : Database MemoryFiles}
    {handles : Table String Handle} (hdb : d'.Mirrored e') (hakin : s.db.files.Akin d'.files)
    (htallies : s.db.files.opened.Tallies (heldFiles handles)) :
    Leads s c reply ⟨d', handles⟩ ⟨e', handles⟩ where
  mirrored := ⟨hdb, rfl, hakin.opened ▸ htallies⟩
  settled := Database.settled_of_akin hakin e'
  named hname := .inl (hakin.named ▸ hname)
  kept hfind _ := hakin.named ▸ hfind
  grows := hakin.keepsPages

/-! ## Pins and files of handles -/

/-- A file that is held is behind one of the handles. -/
theorem exists_of_mem_heldFiles {handles : Table String Handle} {file : FileHandle}
    (h : handles.keys.Nodup) (hfile : file ∈ heldFiles handles) :
    ∃ name handle heap, handles.find? name = some handle ∧ handle.heap? = some heap ∧
      heap.file = file := by
  rw [heldFiles_eq_total] at hfile
  obtain ⟨name, handle, hfind, hheld⟩ := Table.exists_of_mem_total h hfile
  unfold heldBy at hheld
  cases hheap : handle.heap? with
  | none =>
    rw [hheap] at hheld
    cases hheld
  | some heap =>
    rw [hheap] at hheld
    exact ⟨name, handle, heap, hfind, hheap, (Multiset.mem_singleton.1 hheld).symm⟩

/-- Every pin is on a page of a file behind a handle. -/
theorem exists_held {handles : Table String Handle} {db : Database MemoryFiles} {pin : Pin}
    (h : handles.keys.Nodup) (hstanding : ∀ name handle, handles.find? name = some handle →
      ∃ heap, handle.heap? = some heap ∧ heap.Standing db) (hpin : pin ∈ pinsOf handles) :
    ∃ file ∈ heldFiles handles, pin.key.file = file.id := by
  obtain ⟨name, handle, hfind, hmem⟩ := Table.exists_of_mem_total h hpin
  obtain ⟨heap, hheap, hstands⟩ := hstanding name handle hfind
  refine ⟨heap.file, mem_heldFiles h hfind hheap, ?_⟩
  rw [Handle.pins_of_heap? hheap] at hmem
  rcases Multiset.mem_cons.1 hmem with rfl | hcurrent
  · exact congrArg FrameKey.file hstands.headerKey
  · cases hpin : heap.current with
    | none =>
      rw [hpin] at hcurrent
      cases hcurrent
    | some current =>
      rw [hpin] at hcurrent
      obtain rfl := Multiset.mem_singleton.1 hcurrent
      exact hstands.currentFile _ hpin

section Handles

variable (h : s.Mirrored t) (hsound : t.Sound)
include h hsound

/-- Every file behind a handle is open. -/
theorem Mirrored.isOpen (hfind : s.handles.find? name = some handle)
    (hheap : handle.heap? = some heap) : s.db.files.opened.IsOpen heap.file.id := by
  have hdistinct := hsound.distinct
  rw [h.handles] at hdistinct
  exact h.tallies.isOpen (mem_heldFiles hdistinct hfind hheap)

/-- Every handle stands for a heap file. -/
theorem Mirrored.standing (hfind : s.handles.find? name = some handle) :
    ∃ heap, handle.heap? = some heap ∧ heap.Standing t.db :=
  hsound.standing name handle (h.handles ▸ hfind)

/-- A file that is open is a heap file. -/
theorem Mirrored.hasHeap {file : FileId} (hfile : s.db.files.opened.IsOpen file) :
    t.db.HasHeap file := by
  obtain ⟨title, entry, hentry, rfl⟩ := hfile
  obtain ⟨-, hpos, hcount⟩ := h.tallies.counted hentry
  rw [hcount, Multiset.count_pos] at hpos
  have hdistinct := hsound.distinct
  rw [h.handles] at hdistinct
  obtain ⟨name, handle, heap, hfind, hheap, heq⟩ := exists_of_mem_heldFiles hdistinct hpos
  rw [← heq]
  exact hsound.hasHeap (h.handles ▸ hfind) hheap

/-- Nobody has pins on a file that is not open. -/
theorem Mirrored.pin_ne {file : FileId} (hfile : ¬s.db.files.opened.IsOpen file) :
    ∀ pin ∈ pinsOf t.handles, pin.key.file ≠ file := by
  rintro pin hpin rfl
  obtain ⟨held, hheld, heq⟩ := exists_held hsound.distinct hsound.standing hpin
  rw [h.handles] at hheld
  exact hfile (heq ▸ h.tallies.isOpen hheld)

/-! ## Giving up a handle -/

variable (hfind : s.handles.find? name = some handle) (hheap : handle.heap? = some heap)
include hfind hheap

/-- The file behind a handle was opened once for it and once for each of the others. -/
theorem Mirrored.find?_opened : s.db.files.opened.find? heap.file.name =
    some ⟨heap.file, (heldFiles (s.handles.erase name)).count heap.file + 1⟩ := by
  have hdistinct := hsound.distinct
  rw [h.handles] at hdistinct
  have htallies := h.tallies
  rw [heldFiles_eq hdistinct hfind hheap] at htallies
  exact htallies.find?_of_mem

/-- If no other handle stands for the file, none has pins on it. -/
theorem Mirrored.pin_ne_erase (hlast : (heldFiles (s.handles.erase name)).count heap.file = 0) :
    ∀ pin ∈ pinsOf (t.handles.erase name), pin.key.file ≠ heap.file.id := by
  have hdistinct := hsound.distinct
  rw [h.handles] at hdistinct ⊢
  have htallies := h.tallies
  rw [heldFiles_eq hdistinct hfind hheap] at htallies
  intro pin hpin heq
  obtain ⟨file, hfile, hkey⟩ := exists_held (Table.nodup_keys_erase hdistinct name)
    (fun other handle' hother => h.standing hsound (Table.find?_erase_eq_some.1 hother).2) hpin
  obtain ⟨entry, hentry, rfl⟩ := htallies.entered file (Multiset.mem_cons_of_mem hfile)
  have hself := h.find?_opened hsound hfind hheap
  have hname := h.db.files.coherent.name_unique hentry hself (hkey.symm.trans heq)
  rw [hname, hself] at hentry
  cases hentry
  exact Multiset.count_eq_zero.1 hlast hfile

/-- A handle is given up for both when its heap file is closed. -/
theorem agrees_forget {x : Action (Database DiskFiles) Unit}
    {y : Action (Database MemoryFiles) Unit}
    (hxy : Agrees exact x y s.db t.db (fun _ d' e' => Database.Closed heap.file
      ((heldFiles (s.handles.erase name)).count heap.file) s.db d' e') (fun _ _ _ => False))
    (hy : y.Ensures t.db (fun _ e' => Database.Steady (pinsOf (t.handles.erase name)) t.db e')
      (fun _ e' => Database.Steady (pinsOf (t.handles.erase name)) t.db e')) :
    Agrees exact (do forgetHandle name; onDatabase x; return .done)
      (do forgetHandle name; onDatabase y; return .done) s t
      (Forgets s name c') (fun _ _ _ => False) := by
  have hdistinct := hsound.distinct
  rw [h.handles] at hdistinct
  have htallies := h.tallies
  rw [heldFiles_eq hdistinct hfind hheap] at htallies
  refine agrees_bind (p := fun _ s₁ t₁ => s₁ = ⟨s.db, s.handles.erase name⟩ ∧
    t₁ = ⟨t.db, t.handles.erase name⟩) (agrees_modify ⟨rfl, rfl⟩) ?_
  rintro _ _ _ ⟨rfl, rfl⟩
  refine agrees_bind (p := fun _ => Forgets s name c' .done) (agrees_onPart
    ((hxy.and_ensures hy).mono ?_ fun _ _ _ => And.left)) fun _ _ _ hpost => agrees_pure hpost
  rintro _ d' e' ⟨hclosed, hsteady⟩
  refine ⟨⟨⟨hclosed.mirrored, congrArg (Table.erase · name) h.handles,
    htallies.closed hclosed.opened⟩,
    hclosed.settled, fun hname => .inl (hclosed.named ▸ hname),
    fun hfind _ => hclosed.named ▸ hfind,
    hclosed.grows⟩, rfl, ?_, hclosed.nextId⟩
  exact hclosed.shown_eq h.db (h.find?_opened hsound hfind hheap) hsteady.volume

end Handles

/-- A handle is given up for both, and the directory shows the same files with the same pages. -/
theorem agrees_closing (h : s.Mirrored t) (hsound : t.Sound) (name : String) (hcloses : c'.Closes) :
    Agrees exact (tellHandle name c') (tellHandle name c') s t
      (Forgets s name c') (fun _ _ _ => False) := by
  refine agrees_get ?_
  rw [h.handles]
  cases hfind : s.handles.find? name with
  | none =>
    have hnone := Table.has_of_find?_none hfind
    exact agrees_pure ⟨.refl h, (Table.erase_of_has_eq_false hnone).symm, rfl, rfl⟩
  | some handle =>
    obtain ⟨heap, hheap, -⟩ := h.standing hsound hfind
    have hattached := hsound.attached (h.handles ▸ hfind) hheap
    have hclosed := h.find?_opened hsound hfind hheap
    have hpins := h.pin_ne_erase hsound hfind hheap
    have hquiet {x : Action (Database DiskFiles) Unit} {y : Action (Database MemoryFiles) Unit}
        (hxy : Agrees exact x y s.db t.db (fun _ d' e' => Database.Closed heap.file
          ((heldFiles (s.handles.erase name)).count heap.file) s.db d' e') (fun _ _ _ => False)) :
        Agrees exact (quietly x) (quietly y) s.db t.db (fun _ d' e' => Database.Closed heap.file
          ((heldFiles (s.handles.erase name)).count heap.file) s.db d' e') (fun _ _ _ => False) :=
      agrees_quietly (hxy.mono (fun _ _ _ => id) fun _ _ _ => False.elim)
    have hclose : Agrees exact _ _ _ _ _ _ :=
      Database.agrees_closeHeap h.db hattached.holds hsound.orderly hclosed hpins
    have hsteady := Database.ensures_closeHeap hattached.holds hsound.orderly
    cases handle with
    | heap heap =>
      cases hheap
      cases c' with
      | close => exact agrees_forget h hsound hfind rfl hclose hsteady
      | drop => exact agrees_forget h hsound hfind rfl (hquiet hclose) (ensures_quietly.2 hsteady)
      | _ => exact hcloses.elim
    | scan scan =>
      cases hheap
      cases c' with
      | close =>
        exact agrees_forget h hsound hfind rfl
          (Database.agrees_closeScan h.db hattached hsound.orderly hclosed hpins)
          (Database.ensures_closeScan hattached hsound.orderly)
      | drop => exact agrees_forget h hsound hfind rfl (hquiet hclose) (ensures_quietly.2 hsteady)
      | _ => exact hcloses.elim
    | inserter heap =>
      cases hheap
      have hmarked := ((HeapFile.ensures_markDirty hattached).of_ok rfl).1.attached
      have hclose : Agrees exact _ _ _ _ _ _ :=
        Database.agrees_closeHeap h.db hmarked.holds hsound.orderly hclosed hpins
      have hsteady := Database.ensures_closeInserter hattached hsound.orderly
      cases c' with
      | close => exact agrees_forget h hsound hfind rfl hclose hsteady
      | drop => exact agrees_forget h hsound hfind rfl (hquiet hclose) (ensures_quietly.2 hsteady)
      | _ => exact hcloses.elim
    | file file => cases hheap
    | page pin => cases hheap

/-! ## The other commands -/

/-- A command to a handle that stays open is carried out for both, and changes open files only. -/
theorem agrees_tell (h : s.Mirrored t) (hsound : t.Sound) (name : String) (hopen : ¬c'.Closes)
    (hexact : c'.Inserts → ¬exact) :
    Agrees exact (tellHandle name c') (tellHandle name c') s t
      (fun reply s' t' => Leads s (.tell name c') reply s' t' ∧ s.db.files.Akin s'.db.files)
      (fun e s' t' => Leads s (.tell name c') (.failed e) s' t' ∧
        s.db.files.Akin s'.db.files) := by
  have hparallel : Parallel (DiskFiles.parallel exact s.db.files s.db.pool.capacity)
      (filesOf s.handles) s t := ⟨h.db.parallel, h.handles, rfl⟩
  have hfiles : ∀ name file, (filesOf s.handles).find? name = some file →
      ∃ opened, file = some opened ∧ s.db.files.opened.IsOpen opened.id := by
    intro name file hfind
    rw [find?_filesOf] at hfind
    obtain ⟨handle, hhandle, rfl⟩ := Option.map_eq_some_iff.1 hfind
    obtain ⟨heap, hheap, -⟩ := h.standing hsound hhandle
    exact ⟨heap.file, by rw [hheap, Option.map_some], h.isOpen hsound hhandle hheap⟩
  have hleads {reply : Reply} {s' : Session DiskFiles} {t' : Session MemoryFiles}
      (hst : Parallel (DiskFiles.parallel exact s.db.files s.db.pool.capacity) (filesOf s.handles)
        s' t') : Leads s (.tell name c') reply s' t' ∧ s.db.files.Akin s'.db.files := by
    obtain ⟨d', handles⟩ := s'
    obtain ⟨e', handles'⟩ := t'
    obtain rfl : handles' = handles := hst.handles
    refine ⟨.of_akin (Database.mirrored_of_parallel hst.db) hst.db.files.akin ?_,
      hst.db.files.akin⟩
    have hheld : heldFiles handles' = heldFiles s.handles := by
      unfold heldFiles
      rw [hst.files]
    exact hheld ▸ h.tallies
  exact ((keeps_tellHandle hfiles name hopen hexact) hparallel).mono (fun _ _ _ => hleads)
    fun _ _ _ => hleads

/-- A heap file is opened for both, if the mirror offers it. -/
theorem agrees_openAs (h : s.Mirrored t) (hsound : t.Sound) (name : String) (use : HeapUse)
    (title : String) (hoffers : s.db.files.Offers t.db.files title)
    (hroom : s.db.files.nextId.toNat + 1 < 2 ^ 32) :
    Agrees exact (perform (.openAs name (.heap use title)))
      (perform (.openAs name (.heap use title)))
      s t (fun reply s' t' => Leads s (.openAs name (.heap use title)) reply s' t' ∧
        s'.db.files.nextId.toNat ≤ s.db.files.nextId.toNat + 1)
      (fun e s' t' => Leads s (.openAs name (.heap use title)) (.failed e) s' t' ∨
        s.Reaches (.openAs name (.heap use title))) := by
  have hdistinct := hsound.distinct
  rw [h.handles] at hdistinct
  refine agrees_get ?_
  rw [h.handles]
  cases hfree : s.handles.has name with
  | true => exact agrees_pure ⟨.refl h, Nat.le_succ _⟩
  | false =>
    simp only [Bool.false_eq_true, if_false]
    refine agrees_bind (p := fun heap s₁ t₁ =>
      s₁.db.files.nextId.toNat ≤ s.db.files.nextId.toNat + 1 ∧
      ∀ new : Handle, new.heap? = some heap →
        Leads s (.openAs name (.heap use title)) .done ⟨s₁.db, s₁.handles.put name new⟩
          ⟨t₁.db, t₁.handles.put name new⟩) (agrees_onPart
            ((Database.agrees_openHeap h.db hoffers hroom).mono ?_ ?_)) ?_
    · rintro heap d' e' ⟨hmirrored, hsettled, hnamed, hnumbers, hgrows, -, count, hopened, hcase⟩
      refine ⟨hnumbers, fun new hnew => ⟨⟨hmirrored, congrArg (Table.put · name new) h.handles, ?_⟩,
        hsettled, fun hname => .inl (hnamed ▸ hname), fun hfind _ => hnamed ▸ hfind, hgrows⟩⟩
      rw [heldFiles_put hdistinct hfree hnew]
      simp only [hopened]
      exact h.tallies.opened hcase
    · rintro e d' e' (⟨rfl, rfl⟩ | hreaches)
      · exact .inl (.refl h)
      · exact .inr hreaches
    · rintro heap s₁ t₁ ⟨hnumbers, hleads⟩
      refine agrees_bind (p := fun _ s' t' => Leads s (.openAs name (.heap use title)) .done s' t' ∧
        s'.db.files.nextId.toNat ≤ s.db.files.nextId.toNat + 1) (agrees_modify ⟨?_, hnumbers⟩)
        fun _ _ _ hpost => agrees_pure hpost
      cases use with
      | lookup | scan | insert => exact hleads _ rfl

/-- A heap file is made for both. -/
theorem agrees_create (h : s.Mirrored t) (hsound : t.Sound) (title : String)
    (hnext : s.db.files.named.has title = false → t.db.files.nextId = s.db.files.nextId)
    (hroom : s.db.files.nextId.toNat + 1 < 2 ^ 32) :
    Agrees False (perform (.create title)) (perform (.create title)) s t
      (fun reply => Leads s (.create title) reply)
      (fun e s' t' => Leads s (.create title) (.failed e) s' t' ∨ s.Reaches (.create title)) := by
  have hpins := h.pin_ne hsound fun hopen => h.db.files.coherent.ne_next hopen rfl
  refine agrees_bind (p := fun _ => Leads s (.create title) .done) (agrees_onPart
    ((Database.agrees_createHeap id h.db hnext hroom hsound.holds hsound.orderly hpins).mono ?_ ?_))
      fun _ _ _ hpost => agrees_pure hpost
  · intro _ d' e' hadds
    refine ⟨⟨hadds.mirrored, h.handles, h.tallies.congr hadds.opened⟩, hadds.settled,
      fun {name} hname => ?_, fun {name i} hfind _ => ?_, hadds.grows⟩
    · simp only [hadds.named, Table.has_put, Bool.or_eq_true, decide_eq_true_eq] at hname
      rcases hname with rfl | hname
      · exact .inr ⟨rfl, rfl, hadds.check⟩
      · exact .inl hname
    · have hne : title ≠ name := by
        rintro rfl
        have hhas := Table.has_of_find? hfind
        rw [hadds.free] at hhas
        cases hhas
      simp only [hadds.named]
      rw [Table.find?_put_of_ne hne, hfind]
  · rintro e d' e' (⟨rfl, rfl⟩ | ⟨hreaches, -⟩)
    · exact .inl (.refl h)
    · exact .inr hreaches

/-- A command on heap files is carried out for both, if the mirror has what it needs. -/
theorem agrees_perform (h : s.Mirrored t) (hsound : t.Sound) (hlevel : c.OnHeaps)
    (hoffers : s.db.files.Offers t.db.files c.title)
    (hnext : s.db.files.named.has c.title = false → t.db.files.nextId = s.db.files.nextId)
    (hroom : s.db.files.nextId.toNat + 1 < 2 ^ 32) :
    Agrees False (perform c) (perform c) s t (fun reply => Leads s c reply)
      (fun e s' t' => Leads s c (.failed e) s' t' ∨ s.Reaches c) := by
  cases c with
  | create title => exact agrees_create h hsound title hnext hroom
  | destroy title =>
    refine agrees_bind (p := fun _ => Leads s (.destroy title) .done) (agrees_onPart
      ((Database.agrees_destroyFile h.db title).mono ?_ ?_)) fun _ _ _ hpost => agrees_pure hpost
    · rintro _ d' e' ⟨hmirrored, hsettled, hnamed, hopened, hgrows⟩
      refine ⟨⟨hmirrored, h.handles, hopened ▸ h.tallies⟩, hsettled, fun {name} hname => .inl ?_,
        fun {name i} hfind hname => ?_, hgrows⟩
      · simp only [hnamed, Table.has_erase, Bool.and_eq_true] at hname
        exact hname.2
      · simp only [hnamed] at hname ⊢
        obtain ⟨j, hj⟩ := Option.isSome_iff_exists.1 hname
        rw [hj, ← (Table.find?_erase_eq_some.1 hj).2, hfind]
    · rintro e d' e' ⟨rfl, rfl⟩
      exact .inl (.refl h)
  | flush =>
    have hleads {reply : Reply} {d' : Database DiskFiles} {e' : Database MemoryFiles}
        (hde : (DiskFiles.parallel False s.db.files s.db.pool.capacity).Db d' e') :
        Leads s .flush reply ⟨d', s.handles⟩ ⟨e', t.handles⟩ := by
      rw [h.handles]
      exact .of_akin (Database.mirrored_of_parallel hde) hde.files.akin h.tallies
    refine agrees_bind (p := fun _ => Leads s .flush .done) (agrees_onPart
      ((Database.keeps_flushAll h.db.parallel).mono (fun _ _ _ => hleads)
        fun _ _ _ hde => .inl (hleads hde))) fun _ _ _ hpost => agrees_pure hpost
  | capacity =>
    refine agrees_get ?_
    rw [h.db.pool]
    exact agrees_pure (.refl h)
  | openAs name opening =>
    cases opening with
    | heap use title =>
      exact (agrees_openAs h hsound name use title hoffers hroom).mono (fun _ _ _ => And.left)
        fun _ _ _ => id
    | unusable =>
      refine agrees_get ?_
      rw [h.handles]
      cases s.handles.has name with
      | true => exact agrees_pure (.refl h)
      | false => exact agrees_pure (.refl h)
    | file | pin | allocate => exact hlevel.elim
  | tell name c' =>
    by_cases hcloses : c'.Closes
    · exact (agrees_closing h hsound name hcloses).mono (fun _ _ _ => Forgets.leads)
        fun _ _ _ => False.elim
    · exact (agrees_tell h hsound name hcloses fun _ => id).mono (fun _ _ _ => And.left)
        fun _ _ _ hpost => .inl hpost.1
  | unusable => exact agrees_pure (.refl h)
  | createFile | destroyFile | hasFile => exact hlevel.elim

end Session

end PagedHeap
