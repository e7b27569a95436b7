import PagedHeap.Proofs.Session.Mirror

/-!
# Heap files come and go over a directory and its mirror

A heap file is opened, closed, made and removed over a directory and over its mirror alike.  Whoever
closes a heap file has it written back before, and nobody else has pins on the pages of a file that
is closed for good: so none of its pages stays in the pool, and its image has the pages that the
file was last seen with (`Database.Settled`).

A heap file that cannot be opened or laid out after its file was opened is closed without being
written back.  Its pages may stay in the pool, and nothing is said about what is left then.
-/

namespace PagedHeap

open PagedHeap.Action

open MemoryFiles (law)

namespace Database

/-! ## Files that were written back -/

section Flushed

variable {σ : Type} [PageStore σ] {db db' : Database σ} {key : FrameKey} {file : FileId}

theorem pool_of_writeBack (h : writeBack key db = .ok () db') : db'.pool = db.pool := by
  obtain ⟨_, _, hget, hrest⟩ := exists_of_bind_ok h
  cases hget
  cases hfind : db.pool.frames.find? key with
  | none =>
    simp only [hfind] at hrest
    cases hrest
    rfl
  | some frame =>
    simp only [hfind] at hrest
    split at hrest
    · unfold onFiles onPart at hrest
      split at hrest
      · cases hrest
        rfl
      · cases hrest
    · cases hrest
      rfl

/-- Writing a page back takes its frame out, unless it has pins, and leaves the others. -/
theorem frames_of_flushPage (h : flushPage key db = .ok () db') :
    (∀ k frame, db'.pool.frames.find? k = some frame →
      ∃ old, db.pool.frames.find? k = some old ∧ old.pins = frame.pins) ∧
    ∀ frame, db'.pool.frames.find? key = some frame → frame.pins ≠ 0 := by
  obtain ⟨_, db₁, hwrite, h⟩ := exists_of_bind_ok h
  obtain ⟨_, db₂, hclean, h⟩ := exists_of_bind_ok h
  cases hclean
  obtain ⟨_, _, hget, h⟩ := exists_of_bind_ok h
  cases hget
  have hpool := pool_of_writeBack hwrite
  have hfind (k : FrameKey) : (db₁.pool.setClean key).frames.find? k =
      (db.pool.frames.find? k).map fun f => if k = key then { f with dirty := false } else f := by
    rw [← hpool]
    exact Pool.find?_of_adjust rfl k
  have hkept (k : FrameKey) (frame : Frame)
      (hk : (db₁.pool.setClean key).frames.find? k = some frame) :
      ∃ old, db.pool.frames.find? k = some old ∧ old.pins = frame.pins := by
    rw [hfind] at hk
    obtain ⟨old, hold, rfl⟩ := Option.map_eq_some_iff.1 hk
    refine ⟨old, hold, ?_⟩
    split <;> rfl
  cases hframe : (db₁.pool.setClean key).frames.find? key with
  | none =>
    simp only [hframe] at h
    cases h
    exact ⟨hkept, fun frame hk => by cases hframe.symm.trans hk⟩
  | some frame =>
    simp only [hframe] at h
    split at h
    · cases h
      refine ⟨fun k frame' hk => hkept k frame' (Table.find?_erase_eq_some.1 hk).2,
        fun frame' hk => ?_⟩
      exact absurd rfl (Table.find?_erase_eq_some.1 hk).1
    · next hpins =>
      cases h
      refine ⟨hkept, fun frame' hk => ?_⟩
      cases hframe.symm.trans hk
      exact hpins

theorem frames_of_flushPages {keys : List FrameKey} (h : keys.forM flushPage db = .ok ⟨⟩ db') :
    (∀ k frame, db'.pool.frames.find? k = some frame →
      ∃ old, db.pool.frames.find? k = some old ∧ old.pins = frame.pins) ∧
    ∀ k ∈ keys, ∀ frame, db'.pool.frames.find? k = some frame → frame.pins ≠ 0 := by
  induction keys generalizing db with
  | nil =>
    cases h
    exact ⟨fun k frame hk => ⟨frame, hk, rfl⟩, nofun⟩
  | cons key keys ih =>
    obtain ⟨_, db₁, hfirst, hrest⟩ := exists_of_bind_ok h
    obtain ⟨hkept₁, hself⟩ := frames_of_flushPage hfirst
    obtain ⟨hkept, hothers⟩ := ih hrest
    refine ⟨fun k frame hk => ?_, fun k hk frame hframe => ?_⟩
    · obtain ⟨frame₁, hk₁, hpins₁⟩ := hkept k frame hk
      obtain ⟨old, hold, hpins⟩ := hkept₁ k frame₁ hk₁
      exact ⟨old, hold, hpins.trans hpins₁⟩
    · rcases List.mem_cons.1 hk with rfl | hk
      · obtain ⟨frame₁, hk₁, hpins₁⟩ := hkept k frame hframe
        exact hpins₁ ▸ hself frame₁ hk₁
      · exact hothers k hk frame hframe

/-- Of a file that was written back only pages with pins stay in the pool. -/
theorem pins_ne_zero_of_flushFile (h : flushFile file db = .ok ⟨⟩ db') {frame : Frame}
    (hfind : db'.pool.frames.find? key = some frame) (hfile : key.file = file) :
    frame.pins ≠ 0 := by
  obtain ⟨_, _, hget, hrest⟩ := exists_of_bind_ok h
  cases hget
  obtain ⟨hkept, hpinned⟩ := frames_of_flushPages hrest
  obtain ⟨old, hold, -⟩ := hkept key frame hfind
  refine hpinned key (List.mem_filter.2 ⟨Table.mem_keys_of_find? hold, ?_⟩) frame hfind
  exact decide_eq_true hfile

end Flushed

/-! ## What closed files have stored -/

/-- The number under which a file was open, or would be opened first. -/
def NumberOf (d : DiskFiles) (name : String) (file : FileId) : Prop :=
  (∃ entry, d.opened.find? name = some entry ∧ entry.file.id = file) ∨
    d.named.has name = false ∧ file = ⟨d.nextId⟩

/-- A file that is closed has the pages stored that it had before, or it was closed in the meantime
and has the pages of its mirror, none of which is in the pool any more. -/
def Settled (d d' : Database DiskFiles) (e' : Database MemoryFiles) : Prop :=
  ∀ name i, d'.files.named.find? name = some i → d'.files.opened.has name = false →
    (d.files.named.find? name = some i ∧ d.files.opened.has name = false ∧
      (d'.files.image i).pages = (d.files.image i).pages) ∨
    ∃ file, NumberOf d.files name file ∧ e'.files.pages file = (d'.files.image i).pages ∧
      ∀ key ∈ d'.pool.frames.keys, key.file ≠ file

variable {exact : Prop} {d d' d₁ : Database DiskFiles} {e e' e₁ : Database MemoryFiles}
variable {name : String} {file : FileHandle} {heap : HeapFile} {count : Nat} {pins : Multiset Pin}

/-- What does nothing to closed files leaves them settled. -/
theorem settled_of_akin (h : d.files.Akin d'.files) (e' : Database MemoryFiles) :
    Settled d d' e' := by
  intro name i hnamed hclosed
  rw [h.named] at hnamed
  rw [h.opened] at hclosed
  exact .inl ⟨hnamed, hclosed, congrArg FileImage.pages (h.closed hnamed hclosed)⟩

/-- What was done to open files before does not matter. -/
theorem Settled.of_akin (h : Settled d₁ d' e') (hakin : d.files.Akin d₁.files) :
    Settled d d' e' := by
  intro name i hnamed hclosed
  rcases h name i hnamed hclosed with ⟨hnamed₁, hclosed₁, hpages⟩ | ⟨file, hfile, hpages⟩
  · rw [hakin.named] at hnamed₁
    rw [hakin.opened] at hclosed₁
    exact .inl ⟨hnamed₁, hclosed₁,
      hpages.trans (congrArg FileImage.pages (hakin.closed hnamed₁ hclosed₁))⟩
  · unfold NumberOf at hfile
    rw [hakin.opened, hakin.named, hakin.nextId] at hfile
    exact .inr ⟨file, hfile, hpages⟩

/-- A closed file is shown as it was before, or as its mirror is seen through the pool. -/
theorem Settled.shown_of_closed (h : Settled d d' e') (hpool : e'.pool = d'.pool)
    (hclosed : d'.files.opened.has name = false) {v : Volume} (hshown : d'.shown name = some v) :
    d.files.opened.has name = false ∧ d.shown name = some v ∨
      ∃ file, NumberOf d.files name file ∧ v = law.volume e' file := by
  rw [Database.shown_of_closed hclosed] at hshown
  unfold DiskFiles.imageNamed? at hshown
  rw [Option.map_map] at hshown
  obtain ⟨i, hnamed, rfl⟩ := Option.map_eq_some_iff.1 hshown
  rcases h name i hnamed hclosed with ⟨hnamed₀, hclosed₀, hpages⟩ | ⟨file, hfile, hpages, hframes⟩
  · refine .inl ⟨hclosed₀, ?_⟩
    rw [Database.shown_of_closed hclosed₀]
    unfold DiskFiles.imageNamed?
    rw [hnamed₀]
    exact congrArg some (FileImage.volume_congr hpages.symm)
  · refine .inr ⟨file, hfile, ?_⟩
    have hvolume := volume_eq_over hpages e'.pool
    rw [Pool.over_eq (hpool ▸ hframes)] at hvolume
    exact hvolume.symm

/-- A file is shown as before if it was shown with the pages that its mirror has in the end,
whenever it was open before or is open now. -/
theorem Settled.shown_eq (hsettled : Settled d d' e') (h : d'.Mirrored e')
    (hnamed : d'.files.named.has name = d.files.named.has name)
    (hopen : ∀ entry, d.files.opened.find? name = some entry ∨
      d'.files.opened.find? name = some entry →
      d.shown name = some (law.volume e' entry.file.id)) : d'.shown name = d.shown name := by
  have hback {v : Volume} (hshown : d'.shown name = some v) : d.shown name = some v := by
    cases hentry : d'.files.opened.find? name with
    | some entry =>
      rw [hopen entry (.inr hentry), ← h.shown_of_open hentry, hshown]
    | none =>
      rcases hsettled.shown_of_closed h.pool (Table.has_of_find?_none hentry) hshown with
        ⟨-, hsame⟩ | ⟨number, ⟨entry, hold, rfl⟩ | ⟨hfree, -⟩, rfl⟩
      · exact hsame
      · exact hopen entry (.inl hold)
      · have hhas := has_of_shown hshown
        rw [hnamed, hfree] at hhas
        cases hhas
  cases hshown : d'.shown name with
  | some v => exact (hback hshown).symm
  | none =>
    refine (Option.eq_none_iff_forall_ne_some.2 fun v hv => ?_).symm
    obtain ⟨w, hw⟩ := exists_shown_of_has (hnamed.trans (has_of_shown hv))
    cases hshown.symm.trans hw

/-! ## Closing -/

/-- One opening of a file was given back. -/
structure Released (file : FileHandle) (count : Nat) (d d' : Database DiskFiles)
    (e e' : Database MemoryFiles) : Prop where
  files : DiskFiles.Beside d'.files d'.files e'.files
  closes : d.files.Closes ⟨file, count + 1⟩ d'.files
  pages : ∀ other, e'.files.pages other = e.files.pages other
  pool : d'.pool = d.pool
  pool' : e'.pool = e.pool

/-- One opening of a file is given back for both. -/
theorem agrees_closeFile (h : d.Mirrored e)
    (hfind : d.files.opened.find? file.name = some ⟨file, count + 1⟩) :
    Agrees exact (onFiles (FileStore.close file)) (onFiles (FileStore.close file)) d e
      (fun _ d' e' => Released file count d d' e e') (fun _ _ _ => False) := by
  have hentry : d.files.opened.find? (OpenEntry.mk file (count + 1)).file.name =
      some ⟨file, count + 1⟩ := hfind
  refine agrees_onPart ((h.files.close hentry).mono ?_ fun _ _ _ => False.elim)
  rintro _ files files' ⟨hbeside, hcloses, rfl⟩
  exact ⟨hbeside, hcloses, fun _ => rfl, rfl, rfl⟩

namespace Released

variable (hreleased : Released file count d d' e e') (h : d.Mirrored e)
  (hfind : d.files.opened.find? file.name = some ⟨file, count + 1⟩)
  (hframes : count = 0 → ∀ key ∈ d.pool.frames.keys, key.file ≠ file.id)
include hreleased

/-- The other files stay open. -/
theorem find?_opened (hne : name ≠ file.name) :
    d'.files.opened.find? name = d.files.opened.find? name := by
  rw [hreleased.closes.opened]
  split
  · exact Table.find?_erase_of_ne (Ne.symm hne) _
  · exact Table.find?_put_of_ne (Ne.symm hne) _ _

include h hfind hframes

/-- The file is open as long as it has pages in the pool. -/
theorem mirrored : d'.Mirrored e' := by
  refine ⟨hreleased.files, ?_, fun key hkey => ?_, hreleased.pool ▸ h.tracked⟩
  · rw [hreleased.pool', hreleased.pool, h.pool]
  · rw [hreleased.pool] at hkey
    obtain ⟨name, entry, hname, heq⟩ := h.cached key hkey
    by_cases hne : name = file.name
    · subst hne
      cases hfind.symm.trans hname
      by_cases hlast : count = 0
      · exact absurd heq.symm (hframes hlast key hkey)
      · refine ⟨file.name, ⟨file, count⟩, ?_, heq⟩
        rw [hreleased.closes.opened, if_neg (by simp only; omega)]
        exact Table.find?_put_self _ _ _
    · exact ⟨name, entry, (hreleased.find?_opened hne).trans hname, heq⟩

/-- The file is settled when it is closed. -/
theorem settled : Settled d d' e' := by
  intro name i hnamed hclosed
  rw [hreleased.closes.named] at hnamed
  by_cases hne : name = file.name
  · subst hne
    have hlast : count = 0 := by
      by_contra hmore
      rw [hreleased.closes.opened, if_neg (by simp only; omega), Table.has_put] at hclosed
      simp at hclosed
    refine .inr ⟨file.id, .inl ⟨_, hfind, rfl⟩, ?_, ?_⟩
    · rw [hreleased.pages, hreleased.closes.pages]
      exact h.files.mirrors.pages hfind hnamed
    · rw [hreleased.pool]
      exact hframes hlast
  · refine .inl ⟨hnamed, ?_, hreleased.closes.pages i⟩
    unfold Table.has at hclosed ⊢
    rwa [hreleased.find?_opened hne] at hclosed

end Released

theorem keeps_giveUp {σ τ : Type} [PageStore σ] [PageStore τ] {par : PageStore.Parallel exact σ τ}
    (heap : HeapFile) : Keeps exact par.Db (giveUp heap) (giveUp heap) := by
  refine keeps_thenAlways (keeps_thenAlways ?_ (keeps_release _)) (keeps_flushFile _)
  cases heap.current with
  | none => exact keeps_pure _
  | some pin => exact keeps_release pin

/-- Nobody has pins on the pages of a file, and those without pins are written back: so none is
left. -/
theorem not_mem_keys_of_flushFile {file : FileId} (hflush : flushFile file e = .ok ⟨⟩ e₁)
    (hpool : e'.pool = e₁.pool) (h : law.Holds pins e')
    (hpins : ∀ pin ∈ pins, pin.key.file ≠ file) : ∀ key ∈ e'.pool.frames.keys, key.file ≠ file := by
  intro key hkey heq
  obtain ⟨frame, hfind⟩ := Option.isSome_iff_exists.1 (Table.mem_keys.1 hkey)
  have hcount := (Pool.Held.counted h key frame hfind).1
  rw [hpool] at hfind
  refine pins_ne_zero_of_flushFile hflush hfind heq ?_
  rw [hcount, Multiset.countP_eq_zero]
  rintro pin hpin rfl
  exact hpins pin hpin heq

/-- A heap file was closed that is still open `count` times. -/
structure Closed (file : FileHandle) (count : Nat) (d d' : Database DiskFiles)
    (e' : Database MemoryFiles) : Prop where
  mirrored : d'.Mirrored e'
  settled : Settled d d' e'
  named : d'.files.named = d.files.named
  nextId : d'.files.nextId = d.files.nextId
  grows : d.files.Grows d'.files
  opened : d'.files.opened = if count = 0 then d.files.opened.erase file.name
    else d.files.opened.put file.name ⟨file, count⟩

/-- What was done to open files before does not matter. -/
theorem Closed.of_akin (h : Closed file count d₁ d' e') (hakin : d.files.Akin d₁.files) :
    Closed file count d d' e' where
  mirrored := h.mirrored
  settled := h.settled.of_akin hakin
  named := h.named.trans hakin.named
  nextId := h.nextId.trans hakin.nextId
  grows := hakin.keepsPages.trans h.grows
  opened := by rw [h.opened, hakin.opened]

/-- The files that are still open were open before. -/
theorem Closed.find?_opened (h : Closed file count d d' e')
    (hfind : d.files.opened.find? file.name = some ⟨file, count + 1⟩) {entry : OpenEntry}
    (hentry : d'.files.opened.find? name = some entry) :
    ∃ old, d.files.opened.find? name = some old ∧ old.file = entry.file := by
  rw [h.opened] at hentry
  split at hentry
  · exact ⟨entry, (Table.find?_erase_eq_some.1 hentry).2, rfl⟩
  · rcases Table.find?_put_eq_some.1 hentry with ⟨rfl, rfl⟩ | ⟨-, hold⟩
    · exact ⟨_, hfind, rfl⟩
    · exact ⟨entry, hold, rfl⟩

/-- Closing a heap file changes nothing about what is shown, if it changes no page. -/
theorem Closed.shown_eq (hclosed : Closed file count d d' e') (h : d.Mirrored e)
    (hfind : d.files.opened.find? file.name = some ⟨file, count + 1⟩)
    (hvolume : law.volume e' = law.volume e) : d'.shown = d.shown := by
  funext name
  refine hclosed.settled.shown_eq hclosed.mirrored (by rw [hclosed.named]) fun entry hentry => ?_
  rw [hvolume]
  rcases hentry with hold | hentry
  · exact h.shown_of_open hold
  · obtain ⟨old, hold, hfile⟩ := hclosed.find?_opened hfind hentry
    rw [← hfile]
    exact h.shown_of_open hold

/-- A heap file is closed for both, and is settled if nobody else has it open. -/
theorem agrees_closeHeap (h : d.Mirrored e) (hholds : law.Holds (heap.pins + pins) e)
    (ho : e.Orderly) (hfind : d.files.opened.find? heap.file.name = some ⟨heap.file, count + 1⟩)
    (hpins : count = 0 → ∀ pin ∈ pins, pin.key.file ≠ heap.file.id) :
    Agrees exact (closeHeap heap) (closeHeap heap) d e
      (fun _ d' e' => Closed heap.file count d d' e') (fun _ _ _ => False) := by
  rw [closeHeap_eq, closeHeap_eq]
  refine agrees_thenAlways
    (((keeps_giveUp heap h.parallel).and_run.and_ensures (ensures_giveUp hholds ho)).mono ?_
      fun _ _ _ hpost => hpost.2.elim)
  rintro _ d₁ e₁ ⟨⟨hparallel, -, hrun⟩, hsteady⟩
  obtain ⟨e₀, hflush⟩ := exists_of_thenAlways_ok hrun
  have h₁ := mirrored_of_parallel hparallel
  have hakin := hparallel.files.akin
  have hfind₁ := hfind
  rw [← hakin.opened] at hfind₁
  have hframes : count = 0 → ∀ key ∈ d₁.pool.frames.keys, key.file ≠ heap.file.id := by
    intro hlast
    rw [← h₁.pool]
    exact not_mem_keys_of_flushFile hflush rfl hsteady.holds (hpins hlast)
  refine (agrees_closeFile h₁ hfind₁).mono ?_ fun _ _ _ => False.elim
  intro _ d' e' hreleased
  refine .of_akin ⟨hreleased.mirrored h₁ hfind₁ hframes, hreleased.settled h₁ hfind₁ hframes,
    hreleased.closes.named, hreleased.closes.nextId, hreleased.closes.grows, ?_⟩ hakin
  rw [hreleased.closes.opened]
  by_cases hlast : count = 0
  · rw [if_pos hlast, if_pos (by simp only; omega)]
  · rw [if_neg hlast, if_neg (by simp only; omega)]
    rfl

/-- A scan is closed for both. -/
theorem agrees_closeScan (h : d.Mirrored e) (hattached : HeapFile.Attached law pins ⟨e, heap⟩)
    (ho : e.Orderly) (hfind : d.files.opened.find? heap.file.name = some ⟨heap.file, count + 1⟩)
    (hpins : count = 0 → ∀ pin ∈ pins, pin.key.file ≠ heap.file.id) :
    Agrees exact (Session.closeScan heap) (Session.closeScan heap) d e
      (fun _ d' e' => Closed heap.file count d d' e') (fun _ _ _ => False) := by
  have hparallel : HeapFile.Parallel (DiskFiles.parallel exact d.files d.pool.capacity) heap.file
      ⟨d, heap⟩ ⟨e, heap⟩ := ⟨h.parallel, rfl, rfl⟩
  refine agrees_onPart (agrees_thenAlways (((HeapFile.keeps_endScan hparallel).and_ensures
    (HeapFile.ensures_endScan hattached)).mono ?_ fun _ _ _ hpost => hpost.2.elim))
  rintro _ ⟨d₁, heap₁⟩ ⟨e₁, heap₂⟩ ⟨⟨hdb, hheap, hfile⟩, hstays, -⟩
  obtain rfl : heap₂ = heap₁ := hheap
  have hakin := hdb.files.akin
  have hattached₁ := hstays.attached
  have ho₁ := ho.of_same hstays.same
  simp only at hfile
  rw [← hfile, ← hakin.opened] at hfind
  rw [← hfile] at hpins
  refine agrees_get (agrees_onPart ((agrees_closeHeap (mirrored_of_parallel hdb)
    hattached₁.holds ho₁
    hfind hpins).mono ?_ fun _ _ _ => id))
  intro _ d' e' hclosed
  simp only at hclosed
  rw [hfile] at hclosed
  exact hclosed.of_akin hakin

end Database

end PagedHeap
