import PagedHeap.Proofs.Heap.Closing

/-!
# Opening and making heap files in a directory

A heap file is opened over a directory and over its mirror alike, if the mirror offers it.  A heap
file that is made is laid out, written back and closed again, so that afterwards the same files are
open as before.

What is left behind by a heap file that could not be opened or laid out is described only if its
file was not even opened (`DiskFiles.Reaches`, `DiskFiles.ReachesNew`): then nothing changed.
-/

namespace PagedHeap

open PagedHeap.Action

open MemoryFiles (law)

namespace DiskFiles

/-- A file of this name can be opened. -/
def Reaches (d : DiskFiles) (name : String) : Prop :=
  ∃ file d', (FileStore.openFile name : Action DiskFiles FileHandle) d = .ok file d'

/-- A file of this name can be made and then opened. -/
def ReachesNew (d : DiskFiles) (name : String) : Prop :=
  ∃ file d', (do FileStore.create name; FileStore.openFile name : Action DiskFiles FileHandle) d =
    .ok file d'

variable {d d' : DiskFiles} {name : String} {file : FileHandle}

/-- A file that was opened has an entry under its name. -/
theorem Opens.find?_eq (h : d.Opens name file d') (hd : d.Coherent) :
    file.name = name ∧ ∃ count, d'.opened = d.opened.put name ⟨file, count + 1⟩ ∧
      (d.opened.find? name = some ⟨file, count⟩ ∨ d.opened.find? name = none ∧ count = 0) := by
  obtain ⟨count, hput, hold | ⟨hnone, rfl, rfl⟩⟩ := h.opened
  · exact ⟨(hd.opened hold).1, count, hput, .inl hold⟩
  · exact ⟨rfl, 0, hput, .inr ⟨hnone, rfl⟩⟩

/-- Files that were open stay open. -/
theorem Opens.isOpen (h : d.Opens name file d') {other : FileId} (hother : d.opened.IsOpen other) :
    d'.opened.IsOpen other := by
  obtain ⟨count, hput, hcase⟩ := h.opened
  obtain ⟨name', entry, hfind, rfl⟩ := hother
  by_cases hne : name' = name
  · subst hne
    rcases hcase with hold | ⟨hnone, -⟩
    · cases hold.symm.trans hfind
      exact ⟨name', ⟨file, count + 1⟩, by rw [hput, Table.find?_put_self], rfl⟩
    · cases hnone.symm.trans hfind
  · exact ⟨name', entry, by rw [hput, Table.find?_put_of_ne (Ne.symm hne), hfind], rfl⟩

/-- The files that are closed afterwards were closed before. -/
theorem Opens.closed (h : d.Opens name file d') {name' : String}
    (hclosed : d'.opened.has name' = false) : name' ≠ name ∧ d.opened.has name' = false := by
  obtain ⟨count, hput, -⟩ := h.opened
  rw [hput, Table.has_put, Bool.or_eq_false_iff, decide_eq_false_iff_not] at hclosed
  exact hclosed

end DiskFiles

/-- One more file is shown, and all others are shown as before. -/
structure ShowsNew (name : String) (shown shown' : String → Option Volume) (v : Volume) : Prop where
  free : shown name = none
  new : shown' name = some v
  others : ∀ other, other ≠ name → shown' other = shown other

namespace Database

variable {exact : Prop} {d d' : Database DiskFiles} {e e' : Database MemoryFiles}
variable {name : String} {pins : Multiset Pin}

/-! ## Opening -/

/-- The file that is offered is opened for both, or for neither. -/
theorem agrees_openFile (h : d.Mirrored e) (hoffers : d.files.Offers e.files name)
    (hroom : d.files.nextId.toNat + 1 < 2 ^ 32) :
    Agrees exact (onFiles (FileStore.openFile name)) (onFiles (FileStore.openFile name)) d e
      (fun file d' e' => d'.Mirrored e' ∧ d.files.Opens name file d'.files ∧ d.files.Reaches name)
      (fun _ d' e' => d' = d ∧ e' = e ∧
        (FileName.check name = .ok () → d.files.named.has name = false)) := by
  refine agrees_onPart ((h.files.openFile hoffers hroom).and_run.mono ?_ ?_)
  · rintro file files files' ⟨⟨hbeside, hopens⟩, hrun, -⟩
    exact ⟨⟨hbeside, h.pool, fun key hkey => hopens.isOpen (h.cached key hkey), h.tracked⟩, hopens,
      file, files, hrun⟩
  · rintro _ _ _ ⟨rfl, rfl, hname⟩
    exact ⟨rfl, rfl, hname⟩

/-- A heap file that is offered is opened for both.  If it cannot be opened then neither can its
file, and nothing changed; otherwise its file was opened first. -/
theorem agrees_openHeap (h : d.Mirrored e) (hoffers : d.files.Offers e.files name)
    (hroom : d.files.nextId.toNat + 1 < 2 ^ 32) :
    Agrees exact (openHeap name) (openHeap name) d e
      (fun heap d' e' => d'.Mirrored e' ∧ Settled d d' e' ∧ d'.files.named = d.files.named ∧
        d'.files.nextId.toNat ≤ d.files.nextId.toNat + 1 ∧ d.files.Grows d'.files ∧
        heap.file.name = name ∧ ∃ count,
          d'.files.opened = d.files.opened.put heap.file.name ⟨heap.file, count + 1⟩ ∧
          (d.files.opened.find? heap.file.name = some ⟨heap.file, count⟩ ∨
            d.files.opened.find? heap.file.name = none ∧ count = 0))
      (fun _ d' e' => d' = d ∧ e' = e ∨ d.files.Reaches name) := by
  unfold openHeap
  refine agrees_bind ((agrees_openFile h hoffers hroom).mono (fun _ _ _ => id)
    fun _ _ _ hpost => .inl ⟨hpost.1, hpost.2.1⟩) ?_
  rintro file d₁ e₁ ⟨h₁, hopens, hreaches⟩
  obtain ⟨hname, count, hput, hcase⟩ := hopens.find?_eq h.files.coherent
  subst hname
  have hentry : d₁.files.opened.find? file.name = some ⟨file, count + 1⟩ := by
    rw [hput, Table.find?_put_self]
  have hknown : d₁.files.opened.IsOpen file.id := ⟨_, _, hentry, rfl⟩
  refine agrees_orClean ((agrees_pinFirstPages hknown h₁.parallel).mono ?_ ?_)
  · rintro heap d₂ e₂ ⟨hparallel, rfl⟩
    have hakin := hparallel.files.akin
    refine ⟨mirrored_of_parallel hparallel, fun name' i hnamed hclosed => ?_,
      hakin.named.trans hopens.named, hakin.nextId ▸ hopens.numbers,
      (DiskFiles.Grows.of_image hopens.image).trans hakin.keepsPages, rfl, count,
      hakin.opened.trans hput, hcase⟩
    rw [hakin.named] at hnamed
    rw [hakin.opened] at hclosed
    refine .inl ⟨hopens.named ▸ hnamed, (hopens.closed hclosed).2, ?_⟩
    rw [hakin.closed hnamed hclosed, hopens.image]
  · intro _ d₂ e₂ hparallel
    rw [← hparallel.files.akin.opened] at hentry
    exact (agrees_closeFile (mirrored_of_parallel hparallel) hentry).mono
      (fun _ _ _ _ => .inr hreaches) fun _ _ _ => False.elim

/-! ## Making -/

/-- A heap file that was laid out was written back at the end. -/
theorem exists_flushFile_of_formatHeap {file : FileHandle} {db db' : Database MemoryFiles}
    (h : formatHeap file name db = .ok () db') : ∃ db₀, flushFile file.id db₀ = .ok () db' := by
  unfold formatHeap at h
  obtain ⟨_, _, -, h⟩ := exists_of_bind_ok h
  obtain ⟨_, _, -, h⟩ := exists_of_bind_ok h
  obtain ⟨_, _, -, h⟩ := exists_of_bind_ok h
  obtain ⟨_, _, -, h⟩ := exists_of_bind_ok h
  obtain ⟨_, _, -, h⟩ := exists_of_bind_ok h
  exact ⟨_, h⟩

/-- A new file was made and opened, and since then only open files changed. -/
structure Entered (name : String) (file : FileHandle) (d d₁ : Database DiskFiles)
    (e₁ : Database MemoryFiles) : Prop where
  mirrored : d₁.Mirrored e₁
  check : FileName.check name = .ok ()
  number : file = ⟨⟨d.files.nextId⟩, name⟩
  free : d.files.named.has name = false
  named : d₁.files.named = d.files.named.put name d.files.images.size
  opened : d₁.files.opened = d.files.opened.put name ⟨file, 1⟩
  closed : ∀ {name' i}, name' ≠ name → d.files.named.find? name' = some i →
    d.files.opened.has name' = false → d₁.files.image i = d.files.image i
  grows : d.files.Grows d₁.files

/-- A new file was made, opened and laid out. -/
structure LaidOut (name : String) (file : FileHandle) (d d₁ : Database DiskFiles)
    (e₁ : Database MemoryFiles) : Prop extends Entered name file d d₁ e₁ where
  flushed : ∃ e₀, flushFile file.id e₀ = .ok () e₁

/-- A new file was made, opened and closed again, but could not be laid out. -/
structure NotLaidOut (name : String) (d d' : Database DiskFiles) (e' : Database MemoryFiles) :
    Prop where
  reaches : d.files.ReachesNew name
  entered : ∃ file d₁ e₁, Entered name file d d₁ e₁ ∧ Released file 0 d₁ d' e₁ e'

/-- A new heap file was made, and nobody has it open. -/
structure Adds (name : String) (d d' : Database DiskFiles) (e' : Database MemoryFiles) : Prop where
  mirrored : d'.Mirrored e'
  settled : Settled d d' e'
  check : FileName.check name = .ok ()
  free : d.files.named.has name = false
  named : d'.files.named = d.files.named.put name d.files.images.size
  opened : ∀ name', d'.files.opened.find? name' = d.files.opened.find? name'
  grows : d.files.Grows d'.files
  shows : ∃ v, ShowsNew name d.shown d'.shown v ∧ v.IsHeap (Volume.newHeader name)

/-- A file that was free was not open. -/
theorem find?_opened_of_free (h : d.Mirrored e) (hfree : d.files.named.has name = false) :
    d.files.opened.find? name = none := by
  cases hfind : d.files.opened.find? name with
  | none => rfl
  | some entry =>
    obtain ⟨-, -, i, -, hnamed, -⟩ := h.files.coherent.opened hfind
    rw [Table.has_of_find? hnamed] at hfree
    cases hfree

/-- A file that was made and opened is entered, whatever its pages become. -/
theorem Entered.of_parallel {d₁ d₂ d₃ : Database DiskFiles} {e₃ : Database MemoryFiles} {n : Nat}
    (h : d.Mirrored e) (hcheck : FileName.check name = .ok ())
    (hmakes : d.files.Makes name d₁.files) (hnamed : d₂.files.named = d₁.files.named)
    (himage : ∀ i, d₂.files.image i = d₁.files.image i)
    (hopened : d₂.files.opened = d.files.opened.put name ⟨⟨⟨d.files.nextId⟩, name⟩, 1⟩)
    (hparallel : (DiskFiles.parallel exact d₂.files n).Db d₃ e₃) :
    Entered name ⟨⟨d.files.nextId⟩, name⟩ d d₃ e₃ := by
  have hakin := hparallel.files.akin
  refine ⟨mirrored_of_parallel hparallel, hcheck, rfl, hmakes.free,
    (hakin.named.trans hnamed).trans hmakes.named, hakin.opened.trans hopened, ?_,
    (hmakes.grows.trans (.of_image himage)).trans hakin.keepsPages⟩
  intro other i hne hother hclosed
  have hother₂ : d₂.files.named.find? other = some i := by
    rw [hnamed, hmakes.named, Table.find?_put_of_ne (Ne.symm hne), hother]
  have hclosed₂ : d₂.files.opened.has other = false := by
    rw [hopened, Table.has_put, hclosed, Bool.or_false, decide_eq_false hne]
  rw [hakin.closed hother₂ hclosed₂, himage, hmakes.image i (h.files.coherent.stored hother).1]

/-- A new heap file is made for both, up to its closing. -/
theorem agrees_layOut (hexact : ¬exact) (h : d.Mirrored e)
    (hnext : d.files.named.has name = false → e.files.nextId = d.files.nextId)
    (hroom : d.files.nextId.toNat + 1 < 2 ^ 32) :
    Agrees exact (createHeap name) (createHeap name) d e
      (fun _ d' e' => ∃ file d₁ e₁, LaidOut name file d d₁ e₁ ∧ Released file 0 d₁ d' e₁ e')
      (fun _ d' e' => d' = d ∧ e' = e ∨ NotLaidOut name d d' e') := by
  unfold createHeap
  refine agrees_bind (p := fun _ d₁ e₁ => FileName.check name = .ok () ∧
    d.files.Makes name d₁.files ∧ d₁.files.Offers e₁.files name ∧ d₁.Mirrored e₁ ∧
    FileStore.create name d.files = .ok () d₁.files ∧ onFiles (FileStore.create name) e = .ok () e₁)
    (agrees_onPart ((h.files.create hnext hroom).and_run.mono ?_ ?_)) ?_
  · rintro _ files files' ⟨⟨hcheck, hmakes, hoffers, hbeside⟩, hrun, hrun'⟩
    refine ⟨hcheck, hmakes, hoffers, ⟨hbeside, h.pool, fun key hkey => ?_, h.tracked⟩, hrun, ?_⟩
    · simp only [hmakes.opened]
      exact h.cached key hkey
    · exact onPart_run_ok hrun'
  · rintro _ _ _ ⟨rfl, rfl⟩
    exact .inl ⟨rfl, rfl⟩
  rintro _ d₁ e₁ ⟨hcheck, hmakes, hoffers, h₁, hmake, hmake'⟩
  have hroom₁ : d₁.files.nextId.toNat + 1 < 2 ^ 32 := by rwa [hmakes.nextId]
  have hnamed₁ : d₁.files.named.has name = true := by
    rw [hmakes.named, Table.has_put, decide_eq_true rfl, Bool.true_or]
  have hnone := find?_opened_of_free h hmakes.free
  refine agrees_bind ((agrees_openFile h₁ hoffers hroom₁).and_run.mono (fun _ _ _ => id) ?_) ?_
  · rintro _ _ _ ⟨-, -, hname⟩
    rw [hname hcheck] at hnamed₁
    cases hnamed₁
  rintro file d₂ e₂ ⟨⟨h₂, hopens, file', d', hrun⟩, -, hopen'⟩
  have hnew : d.files.ReachesNew name := ⟨file', d', (bind_run_ok hmake _).trans hrun⟩
  obtain ⟨count, hput, hold | ⟨-, rfl, rfl⟩⟩ := hopens.opened
  · rw [hmakes.opened, hnone] at hold
    cases hold
  rw [hmakes.opened, hmakes.nextId] at hput
  have hentry : d₂.files.opened.find? name = some ⟨⟨⟨d.files.nextId⟩, name⟩, 1⟩ := by
    rw [hput, Table.find?_put_self]
  rw [hmakes.nextId]
  have hknown : d₂.files.opened.IsOpen (FileHandle.id ⟨⟨d.files.nextId⟩, name⟩) :=
    ⟨_, _, hentry, rfl⟩
  have hentered {d₃ : Database DiskFiles} {e₃ : Database MemoryFiles}
      (hparallel : (DiskFiles.parallel exact d₂.files d₂.pool.capacity).Db d₃ e₃) :
      Entered name ⟨⟨d.files.nextId⟩, name⟩ d d₃ e₃ :=
    .of_parallel h hcheck hmakes hopens.named hopens.image hput hparallel
  refine agrees_thenAlways (((keeps_formatHeap hexact hknown
    name) h₂.parallel).and_run.and_refused.mono ?_ ?_)
  · rintro _ d₃ e₃ ⟨hparallel, -, hformat⟩
    have h₃ := hentered hparallel
    rw [← hparallel.files.akin.opened] at hentry
    exact (agrees_closeFile h₃.mirrored hentry).mono (fun _ d' e' hreleased => ⟨_, d₃, e₃,
      ⟨h₃, exists_flushFile_of_formatHeap hformat⟩, hreleased⟩) fun _ _ _ => False.elim
  · rintro _ d₃ e₃ ⟨hparallel, -⟩
    have h₃ := hentered hparallel
    rw [← hparallel.files.akin.opened] at hentry
    exact (agrees_closeFile h₃.mirrored hentry).mono (fun _ d' e' hreleased =>
      .inr ⟨hnew, _, d₃, e₃, h₃, hreleased⟩) fun _ _ _ => False.elim

/-- A new file that was closed again is shown as it is in memory, unless pages of it are left in the
pool; the other files are shown as before. -/
theorem Entered.shows {file : FileHandle} {d₁ : Database DiskFiles} {e₁ : Database MemoryFiles}
    (hentered : Entered name file d d₁ e₁) (hreleased : Released file 0 d₁ d' e₁ e')
    (h : d.Mirrored e) (hothers : ∀ other, other ≠ ⟨d.files.nextId⟩ →
      law.volume e' other = law.volume e other) :
    ∃ v, ShowsNew name d.shown d'.shown v ∧ v.size = (law.volume e' ⟨d.files.nextId⟩).size ∧
      ((∀ key ∈ d'.pool.frames.keys, key.file ≠ ⟨d.files.nextId⟩) →
        v = law.volume e' ⟨d.files.nextId⟩) := by
  obtain ⟨h₁, -, rfl, hfree, hnamed₁, hopened₁, hclosed₁, -⟩ := hentered
  have hpool : e'.pool = d'.pool := by rw [hreleased.pool', hreleased.pool, h₁.pool]
  have hnamed : d'.files.named = d.files.named.put name d.files.images.size :=
    hreleased.closes.named.trans hnamed₁
  have hnew : d'.files.named.find? name = some d.files.images.size := by
    rw [hnamed, Table.find?_put_self]
  have hclosed : d'.files.opened.has name = false := by
    rw [hreleased.closes.opened, if_pos (Nat.le_refl 1), Table.has_erase, decide_eq_true rfl]
    rfl
  have hpages : e'.files.pages ⟨d.files.nextId⟩ = (d'.files.image d.files.images.size).pages := by
    have hentry : d₁.files.opened.find? name = some ⟨⟨⟨d.files.nextId⟩, name⟩, 1⟩ := by
      rw [hopened₁, Table.find?_put_self]
    rw [hreleased.pages, hreleased.closes.pages]
    rw [hreleased.closes.named] at hnew
    exact h₁.files.mirrors.pages hentry hnew
  have hvolume := volume_eq_over hpages e'.pool
  refine ⟨(d'.files.image d.files.images.size).volume, ⟨?_, ?_, fun other hne => ?_⟩,
    (congrArg Volume.size hvolume).symm, fun hframes => ?_⟩
  · refine Option.eq_none_iff_forall_ne_some.2 fun v hv => ?_
    have hhas := has_of_shown hv
    rw [hfree] at hhas
    cases hhas
  · rw [shown_of_closed hclosed]
    unfold DiskFiles.imageNamed?
    rw [hnew]
    rfl
  · have hopened : d'.files.opened.find? other = d.files.opened.find? other := by
      rw [hreleased.find?_opened hne, hopened₁, Table.find?_put_of_ne (Ne.symm hne)]
    have hsame : d'.files.named.find? other = d.files.named.find? other := by
      rw [hnamed, Table.find?_put_of_ne (Ne.symm hne)]
    cases hentry : d.files.opened.find? other with
    | some entry =>
      have hstays := hothers _ (h.files.coherent.ne_next ⟨other, entry, hentry, rfl⟩)
      rw [h.shown_of_open hentry, ← hstays]
      exact shown_of_beside hreleased.files hpool (hopened.trans hentry)
    | none =>
      have hclosed₀ := Table.has_of_find?_none hentry
      rw [shown_of_closed hclosed₀,
        shown_of_closed (Table.has_of_find?_none (hopened.trans hentry))]
      unfold DiskFiles.imageNamed?
      rw [hsame]
      cases hnamed₀ : d.files.named.find? other with
      | none => rfl
      | some i =>
        refine congrArg some (FileImage.volume_congr ?_)
        rw [hreleased.closes.pages, hclosed₁ hne hnamed₀ hclosed₀]
  · rw [Pool.over_eq (hpool ▸ hframes)] at hvolume
    exact hvolume.symm

/-- A new heap file is settled when it is closed. -/
theorem LaidOut.released {file : FileHandle} {d₁ : Database DiskFiles} {e₁ : Database MemoryFiles}
    (hlaid : LaidOut name file d d₁ e₁) (hreleased : Released file 0 d₁ d' e₁ e') (h : d.Mirrored e)
    (hholds : law.Holds pins e') (hpins : ∀ pin ∈ pins, pin.key.file ≠ ⟨d.files.nextId⟩)
    (hothers : ∀ other, other ≠ ⟨d.files.nextId⟩ → law.volume e' other = law.volume e other)
    (hheap : (law.volume e' ⟨d.files.nextId⟩).IsHeap (Volume.newHeader name)) :
    Adds name d d' e' := by
  obtain ⟨v, hshows, -, hvolume⟩ := hlaid.toEntered.shows hreleased h hothers
  obtain ⟨⟨h₁, hcheck, rfl, hfree, hnamed₁, hopened₁, hclosed₁, hgrows⟩, e₀, hflush⟩ := hlaid
  have hnone := find?_opened_of_free h hfree
  have hentry : d₁.files.opened.find? name = some ⟨⟨⟨d.files.nextId⟩, name⟩, 0 + 1⟩ := by
    rw [hopened₁, Table.find?_put_self]
  have hframes : ∀ key ∈ d₁.pool.frames.keys, key.file ≠ ⟨d.files.nextId⟩ := by
    rw [← h₁.pool, ← hreleased.pool']
    exact not_mem_keys_of_flushFile hflush hreleased.pool' hholds hpins
  have hopened (name' : String) : d'.files.opened.find? name' = d.files.opened.find? name' := by
    by_cases hne : name' = name
    · rw [hne, hnone, hreleased.closes.opened, if_pos (Nat.le_refl 1)]
      exact Table.find?_erase_self _ _
    · rw [hreleased.find?_opened hne, hopened₁, Table.find?_put_of_ne (Ne.symm hne)]
  refine ⟨hreleased.mirrored h₁ hentry fun _ => hframes, fun name' i hnamed hclosed => ?_, hcheck,
    hfree, hreleased.closes.named.trans hnamed₁, hopened, hgrows.trans hreleased.closes.grows, v,
    hshows, ?_⟩
  rotate_left
  · rw [hvolume (hreleased.pool ▸ hframes)]
    exact hheap
  by_cases hne : name' = name
  · subst hne
    refine .inr ⟨⟨d.files.nextId⟩, .inr ⟨hfree, rfl⟩, ?_, ?_⟩
    · rw [hreleased.pages, hreleased.closes.pages]
      rw [hreleased.closes.named] at hnamed
      exact h₁.files.mirrors.pages hentry hnamed
    · rw [hreleased.pool]
      exact hframes
  · have hnamed₀ : d.files.named.find? name' = some i := by
      rwa [hreleased.closes.named, hnamed₁, Table.find?_put_of_ne (Ne.symm hne)] at hnamed
    have hclosed₀ : d.files.opened.has name' = false := by
      unfold Table.has at hclosed ⊢
      rwa [hopened] at hclosed
    refine .inl ⟨hnamed₀, hclosed₀, ?_⟩
    rw [hreleased.closes.pages, hclosed₁ hne hnamed₀ hclosed₀]

/-- A heap file is made for both.  If it cannot be made then neither can its file, and nothing
changed; otherwise its file was made and opened first, and there was no frame for its pages.  Then
the file stays, without a header. -/
theorem agrees_createHeap (hexact : ¬exact) (h : d.Mirrored e)
    (hnext : d.files.named.has name = false → e.files.nextId = d.files.nextId)
    (hroom : d.files.nextId.toNat + 1 < 2 ^ 32) (hholds : law.Holds pins e) (ho : e.Orderly)
    (hpins : ∀ pin ∈ pins, pin.key.file ≠ ⟨d.files.nextId⟩) :
    Agrees exact (createHeap name) (createHeap name) d e
      (fun _ d' e' => Adds name d d' e')
      (fun f d' e' => d' = d ∧ e' = e ∨ d.files.ReachesNew name ∧ f = .bufferPoolExhausted ∧
        ∃ v, ShowsNew name d.shown d'.shown v ∧ v.size ≤ 2) := by
  have hlaid := agrees_layOut hexact h hnext hroom
  cases hfree : d.files.named.has name with
  | true =>
    refine hlaid.mono ?_ ?_
    · rintro _ d' e' ⟨file, d₁, e₁, hlaid, -⟩
      rw [hlaid.free] at hfree
      cases hfree
    · rintro f d' e' (hsame | hbare)
      · exact .inl hsame
      · obtain ⟨file, d₁, e₁, hentered, -⟩ := hbare.entered
        rw [hentered.free] at hfree
        cases hfree
  | false =>
    rw [← hnext hfree] at hroom
    have hends := ends_createHeap hholds ho hroom name
    rw [hnext hfree] at hends
    refine (hlaid.and_ensures hends).mono ?_ ?_
    · rintro _ d' e' ⟨⟨file, d₁, e₁, hlaid, hreleased⟩, hbegun, hheap⟩
      exact hlaid.released hreleased h hbegun.holds hpins (hnext hfree ▸ hbegun.others) hheap
    · rintro f d' e' ⟨hsame | ⟨hreaches, file, d₁, e₁, hentered, hreleased⟩, hend⟩
      · exact .inl hsame
      · rcases hend with ⟨rfl, -⟩ | ⟨hbegun, hcause, hblank⟩
        · -- the mirror has the name in the end, as the directory has
          have hhas := hreleased.files.mirrors.named name
          rw [h.files.mirrors.named, hfree, hreleased.closes.named, hentered.named, Table.has_put,
            decide_eq_true rfl] at hhas
          cases hhas
        · obtain ⟨v, hshows, hsize, -⟩ := hentered.shows hreleased h (hnext hfree ▸ hbegun.others)
          exact .inr ⟨hreaches, hcause, v, hshows, hsize.trans_le hblank.size_le⟩

/-! ## Removing -/

/-- A file that is not open is removed for both, or for neither. -/
theorem agrees_destroyFile (h : d.Mirrored e) (name : String) :
    Agrees exact (onFiles (FileStore.destroy name)) (onFiles (FileStore.destroy name)) d e
      (fun _ d' e' => d'.Mirrored e' ∧ Settled d d' e' ∧
        d'.files.named = d.files.named.erase name ∧ d'.files.opened = d.files.opened ∧
        d.files.Grows d'.files)
      (fun _ d' e' => d' = d ∧ e' = e) := by
  refine agrees_onPart ((h.files.destroy name).mono ?_ ?_)
  · rintro _ files files' ⟨hbeside, hremoves⟩
    refine ⟨⟨hbeside, h.pool, fun key hkey => ?_, h.tracked⟩, fun name' i hnamed hclosed => ?_,
      hremoves.named, hremoves.opened, .of_image hremoves.image⟩
    · simp only [hremoves.opened]
      exact h.cached key hkey
    · simp only [hremoves.opened] at hclosed
      simp only [hremoves.named] at hnamed
      refine .inl ⟨(Table.find?_erase_eq_some.1 hnamed).2, hclosed, ?_⟩
      simp only [hremoves.image]
  · rintro _ _ _ ⟨rfl, rfl⟩
    exact ⟨rfl, rfl⟩

end Database

end PagedHeap
