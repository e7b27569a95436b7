import PagedHeap.Proofs.Session.Reading

/-!
# Opening and giving up handles over a directory

Over a directory of heap files every file that is shown can be opened if there is room for two more
pins (`Session.InOrder.exists_opens`), and is presented with the pages that it is shown with
(`Session.InOrder.presents`).  All handles can be given up wherever commands have led
(`Session.InOrder.exists_closings`).
-/

namespace PagedHeap

open PagedHeap.Action

open MemoryFiles (law)

namespace Session

variable {s s' : Session DiskFiles} {t t' : Session MemoryFiles} {name handle : String} {v : Volume}
variable {header : HeapHeader} {heap : HeapFile} {c : Command} {c' : HandleCommand} {reply : Reply}

/-! ## Opening a heap file -/

/-- A heap file was opened under a handle, and there is room for its pages. -/
structure Opens (s : Session DiskFiles) (handle : String) (use : HeapUse) (name : String)
    (v : Volume) (s' : Session DiskFiles) (t' : Session MemoryFiles) (heap : HeapFile) : Prop where
  run : Database.openHeap name s.db = .ok heap s'.db
  named : heap.file.name = name
  shown : s'.db.shown = s.db.shown
  mirrored : s'.Mirrored t'
  sound : t'.Sound
  handles : t'.handles = s.handles.put handle (handleOf heap use)
  roomy : HeapFile.Roomy law (pinsOf s.handles) ⟨t'.db, heap⟩
  volume : law.volume t'.db heap.file.id = v
  position : heap.position = some ⟨2⟩
  record : heap.record = none
  few : s.db.files.nextId.toNat + 2 < 2 ^ 32 → s'.FewPages

/-- Wherever a command leads, few pages are shown if the files in memory are small. -/
theorem Leads.small_shown (hleads : Leads s c reply s' t') (hfew : s.FewPages) (hsmall : t'.Small) :
    ∀ name v, s'.db.shown name = some v → v.Small := by
  intro name v hshown
  cases hopened : s'.db.files.opened.find? name with
  | some entry =>
    rw [hleads.mirrored.db.shown_of_open hopened] at hshown
    exact Option.some.inj hshown ▸ hsmall entry.file.id
  | none =>
    rcases hleads.settled.shown_of_closed hleads.mirrored.db.pool (Table.has_of_find?_none hopened)
      hshown with ⟨-, hsame⟩ | ⟨file, -, rfl⟩
    · exact hfew.files name v hsame
    · exact hsmall file

/-- Opening a heap file shows nothing else, if it changes no page. -/
theorem Mirrored.shown_of_opened (h : s.Mirrored t) {d' : Database DiskFiles}
    {e' : Database MemoryFiles} (h' : d'.Mirrored e') (hsettled : Database.Settled s.db d' e')
    (hnamed : d'.files.named = s.db.files.named) {opened : OpenEntry}
    (hopened : d'.files.opened = s.db.files.opened.put name opened)
    (hvolume : law.volume e' = law.volume t.db)
    (hshown : s.db.shown name = some (law.volume t.db opened.file.id)) :
    d'.shown = s.db.shown := by
  funext title
  refine hsettled.shown_eq h' (by rw [hnamed]) fun entry hentry => ?_
  rw [hvolume]
  rcases hentry with hold | hentry
  · exact h.db.shown_of_open hold
  · rw [hopened] at hentry
    rcases Table.find?_put_eq_some.1 hentry with ⟨rfl, rfl⟩ | ⟨-, hold⟩
    · exact hshown
    · exact h.db.shown_of_open hold

/-- A heap file that is opened over the mirror for its name is opened over the directory. -/
theorem InOrder.exists_openAs (h : s.InOrder) (hfew : s.FewPages)
    (hfree : s.handles.has handle = false) {e : Database MemoryFiles}
    (hrun : Database.openHeap name (s.mirror name).db = .ok heap e) (use : HeapUse) :
    ∃ s', perform (.openAs handle (.heap use name)) s = .ok .done s' ∧
      Leads s (.openAs handle (.heap use name)) .done s'
        ⟨e, s.handles.put handle (handleOf heap use)⟩ ∧
      Sound ⟨e, s.handles.put handle (handleOf heap use)⟩ ∧
      s'.db.files.nextId.toNat ≤ s.db.files.nextId.toNat + 1 := by
  obtain ⟨hmirrored, hsound, hsmall⟩ := h.sound_mirror hfew name
  have hfree' : (s.mirror name).handles.has handle = false := hfree
  have hperform := perform_openAs hfree' hrun use
  obtain ⟨s', hrun', hleads, hnumbers⟩ := (agrees_openAs hmirrored hsound handle use name
    (DiskFiles.offers_mirror _ _) hfew.numbers).exists_ok trivial hperform
  have hlevel : (Command.openAs handle (.heap use name)).HeapLevel := trivial
  have hfollows := follows_step hsound hsmall hlevel (step_of_ok hperform)
  exact ⟨s', hrun', hleads, hfollows.sound, hnumbers⟩

/-- A file that is shown is opened if there is room for two more pins. -/
theorem InOrder.exists_opens (h : s.InOrder) (hfew : s.FewPages)
    (hroom : (pinsOf s.handles).card + 2 ≤ s.db.pool.capacity) (hshown : s.db.shown name = some v)
    (hv : v.IsHeap header) (hfree : s.handles.has handle = false) (use : HeapUse) :
    ∃ s' t' heap, Session.step s (.openAs handle (.heap use name)) = .ok (.done, s') ∧
      s.Opens handle use name v s' t' heap := by
  obtain ⟨hmirrored, hsound, hsmall⟩ := h.sound_mirror hfew name
  have hoffers := DiskFiles.offers_mirror s.db.files name
  obtain ⟨file, e₁, hopen, rfl⟩ := hmirrored.db.exists_openFile hsound.orderly.booked hoffers
    hfew.numbers (h.names name (Database.has_of_shown hshown)) hshown
  have hopens := Database.ensures_openHeap_of_card hsound.holds hsound.orderly
    hmirrored.db.tracked hroom hopen hv
  obtain ⟨heap, e₂, hrun, hroomy, hvolume, hfile, hposition, hrecord⟩ := hopens.exists_ok
  obtain ⟨d₂, hrun₂, hmirrored₂, hsettled, hsame, -, -, rfl, _, hopened, -⟩ :=
    (Database.agrees_openHeap hmirrored.db hoffers hfew.numbers).exists_ok trivial hrun
  obtain ⟨s', hrun', hleads, hsound', hnumbers⟩ := h.exists_openAs hfew hfree hrun use
  cases (perform_openAs hfree hrun₂ use).symm.trans hrun'
  have hsmall' : Small ⟨e₂, s.handles.put handle (handleOf heap use)⟩ := by
    intro file'
    rw [hvolume]
    exact hsmall file'
  refine ⟨_, _, heap, step_of_ok hrun', ⟨hrun₂, rfl, ?_, hleads.mirrored, hsound', rfl, hroomy,
    ?_, hposition, hrecord, fun hnext => ⟨hleads.small_shown hfew hsmall', ?_⟩⟩⟩
  · rw [← hfile] at hshown
    exact hmirrored.shown_of_opened hmirrored₂ hsettled hsame hopened hvolume hshown
  · rw [hvolume, hfile]
  · omega

/-- A session in order with room for two more pins presents the pages that a file is shown with. -/
theorem InOrder.presents (h : s.InOrder) (hfew : s.FewPages)
    (hroom : (pinsOf s.handles).card + 2 ≤ s.db.pool.capacity) (hshown : s.db.shown name = some v)
    (hv : v.IsHeap header) : s.Presents name header v := by
  intro handle hfree
  obtain ⟨s', t', heap, hstep, hopens⟩ := h.exists_opens hfew hroom hshown hv hfree .scan
  have hfind : t'.handles.find? handle = some (.scan (Scan.start heap)) := by
    rw [hopens.handles]
    exact Table.find?_put_self _ _ _
  have hvolume := hopens.volume
  subst hvolume
  exact ⟨s', hstep, hopens.mirrored.tells hopens.sound hfind hopens.roomy hv hopens.position
    hopens.record⟩

/-- Every handle of a session in order recalls what its file is shown with. -/
theorem InOrder.recalls (h : s.InOrder) {opened : Handle} {heap : HeapFile}
    (hfind : s.handles.find? handle = some opened) (hheap : opened.heap? = some heap)
    (hshown : s.db.shown heap.file.name = some v) (hv : v.IsHeap header) :
    s.Recalls handle header v := by
  obtain ⟨t, hmirrored, hsound⟩ := h.mirrored
  have hopened := hmirrored.find?_opened hsound hfind hheap
  have hvolume := (hmirrored.db.shown_of_open hopened).symm.trans hshown
  obtain rfl := Option.some.inj hvolume
  exact hmirrored.recalls hsound (hmirrored.handles ▸ hfind) hheap hv

/-! ## Giving up all handles -/

/-- A handle can always be given up. -/
theorem InOrder.exists_closing (h : s.InOrder) (hfew : s.FewPages) (name : String)
    (hcloses : c'.Closes) : ∃ reply s', Session.step s (.tell name c') = .ok (reply, s') ∧
      s'.handles = s.handles.erase name := by
  obtain ⟨hmirrored, hsound, hsmall⟩ := h.sound_mirror hfew ""
  have hagrees : Agrees True _ _ s _ (Forgets s name c') _ :=
    agrees_closing hmirrored hsound name hcloses
  cases hrun : perform (.tell name c') s with
  | ok reply s' =>
    obtain ⟨t', -, hforgets⟩ := hagrees.of_ok hrun
    exact ⟨reply, s', step_of_ok hrun, hforgets.handles⟩
  | error f s' =>
    cases f with
    | error e =>
      obtain ⟨_, -, hfalse⟩ := hagrees.of_error hrun
      exact hfalse.elim
    | trap cause =>
      obtain ⟨t', hrun'⟩ := hagrees.of_trap trivial hrun
      obtain ⟨hlevel, hcan⟩ : (Command.tell name c').HeapLevel ∧
          (s.mirror "").CanRun (.tell name c') := by
        cases c' with
        | close | drop => exact ⟨trivial, trivial⟩
        | _ => exact hcloses.elim
      exact absurd hrun' (obeys_perform hsound hsmall _ hlevel hcan).not_trap

/-- All handles can be given up, one after the other. -/
theorem InOrder.exists_closings (h : s.InOrder) (hfew : s.FewPages) :
    ∃ s', Closings s s' ∧ s'.handles = [] := by
  have hsome (n : Nat) : ∃ s', Closings s s' ∧ s'.handles.length ≤ s.handles.length - n := by
    induction n with
    | zero => exact ⟨s, .start, Nat.le_refl _⟩
    | succ n ih =>
      obtain ⟨s', hclosings, hlength⟩ := ih
      cases hhandles : s'.handles with
      | nil => exact ⟨s', hclosings, by rw [hhandles]; exact Nat.zero_le _⟩
      | cons entry handles =>
        obtain ⟨h', hfew', -⟩ := h.closings hfew hclosings
        have hdrops : HandleCommand.drop.Closes := trivial
        obtain ⟨_, s'', hstep, herase⟩ := h'.exists_closing hfew' entry.1 hdrops
        refine ⟨s'', hclosings.step hdrops hstep, ?_⟩
        have hless : s''.handles.length < s'.handles.length := by
          rw [herase]
          refine List.length_filter_lt_length_iff_exists.2 ⟨entry, ?_, by simp⟩
          rw [hhandles]
          exact List.mem_cons_self ..
        omega
  obtain ⟨s', hclosings, hlength⟩ := hsome s.handles.length
  refine ⟨s', hclosings, List.length_eq_zero_iff.1 ?_⟩
  omega

/-! ## A heap file that is made -/

/-- Whether a command was done. -/
def isDone : Reply → Bool
  | .done => true
  | _ => false

theorem eq_done_of_isDone {reply : Reply} (h : isDone reply = true) : reply = .done := by
  cases reply with
  | done => rfl
  | _ => cases h

/-- A heap file is made in an empty directory. -/
theorem exists_create : ∃ s,
    Session.step (start (DiskFiles.ofDirectory []) 8) (.create "t") = .ok (.done, s) ∧
    s.handles.isEmpty = true ∧ s.db.pool.capacity = 8 ∧ s.db.files.opened = [] ∧
    s.db.files.nextId = 2 ∧ s.db.files.named = [("t", 0)] ∧ (s.db.files.image 0).pageCount = 3 := by
  have hmade : ((Session.step (start (DiskFiles.ofDirectory []) 8) (.create "t")).toOption.any
      fun answer => isDone answer.1 && decide (answer.2.handles.isEmpty = true ∧
        answer.2.db.pool.capacity = 8 ∧ answer.2.db.files.opened = [] ∧
        answer.2.db.files.nextId = 2 ∧ answer.2.db.files.named = [("t", 0)] ∧
        (answer.2.db.files.image 0).pageCount = 3)) = true := by decide +kernel
  cases hstep : Session.step (start (DiskFiles.ofDirectory []) 8) (.create "t") with
  | error t =>
    rw [hstep] at hmade
    cases hmade
  | ok answer =>
    rw [hstep] at hmade
    obtain ⟨hdone, hfacts⟩ := Bool.and_eq_true_iff.1 hmade
    refine ⟨answer.2, ?_, of_decide_eq_true hfacts⟩
    rw [← eq_done_of_isDone hdone]

/-- A session on a directory without files. -/
theorem directoryRun_start (capacity : Nat) : DirectoryRun (start (.ofDirectory []) capacity) := by
  refine .start ⟨nofun, nofun, nofun⟩ ⟨fun name v hshown => ?_, numbers_start _ _⟩
  rw [shown_start] at hshown
  cases hshown

/-- A session in which a heap file was made and then opened for inserting. -/
theorem directoryRun_open : ∃ s v heap, DirectoryRun s ∧
    s.handles.find? "h" = some (.inserter heap) ∧ s.db.shown heap.file.name = some v := by
  obtain ⟨s, hcreate, hhandles, hcapacity, hopened, hnext, hnamed, hpages⟩ := exists_create
  have hnone : s.handles = [] := List.isEmpty_iff.1 hhandles
  have hsize (name : String) (v : Volume) (hshown : s.db.shown name = some v) : v.size = 3 := by
    rw [Database.shown_of_closed (by rw [hopened]; rfl)] at hshown
    unfold DiskFiles.imageNamed? at hshown
    rw [hnamed, Table.find?_cons] at hshown
    split at hshown
    · cases hshown
      exact hpages
    · cases hshown
  have hfew : s.FewPages := by
    refine ⟨fun name v hshown => Volume.small_of_size ?_, by rw [hnext]; decide⟩
    rw [hsize name v hshown]
    decide
  have hmakes : (Command.create "t").OnHeaps := trivial
  have run : DirectoryRun s :=
    (directoryRun_start 8).step hmakes hcreate (fun _ _ => nofun) hfew
  obtain ⟨h, -⟩ := run.inOrder
  have hhas : s.db.files.named.has "t" = true := by
    rw [hnamed]
    rfl
  obtain ⟨v, hshown⟩ := Database.exists_shown_of_has hhas
  obtain ⟨header, hv⟩ := h.heaps "t" v hshown
  have hroom : (pinsOf s.handles).card + 2 ≤ s.db.pool.capacity := by
    rw [hnone, hcapacity]
    decide
  have hfree : s.handles.has "h" = false := by
    rw [hnone]
    rfl
  obtain ⟨s', t', heap, hopen, hopens⟩ :=
    h.exists_opens hfew hroom hshown hv hfree .insert
  have hfew' : s'.FewPages := hopens.few (by rw [hnext]; decide)
  have hinserts : (Command.openAs "h" (.heap .insert "t")).OnHeaps := trivial
  have run' : DirectoryRun s' := run.step hinserts hopen (fun _ _ => nofun) hfew'
  have hfind : s'.handles.find? "h" = some (handleOf heap .insert) := by
    rw [← hopens.mirrored.handles, hopens.handles]
    exact Table.find?_put_self _ _ _
  have hentry := hopens.mirrored.find?_opened hopens.sound hfind rfl
  refine ⟨s', v, heap, run', hfind, ?_⟩
  rw [hopens.mirrored.db.shown_of_open hentry]
  exact congrArg some hopens.volume

end Session

end PagedHeap
