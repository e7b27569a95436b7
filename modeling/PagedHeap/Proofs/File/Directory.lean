import PagedHeap.Proofs.File.Mirror
import PagedHeap.Proofs.File.Names

/-!
# Names in a directory and in its mirror

Files are made, opened, closed and removed in a directory and in its mirror in memory alike, if the
mirror offers the file that is opened: under the number that the file will get in the directory it
has the pages of the file's image.  What was opened is counted in the table of open files, and no
image loses its pages when a file is closed.
-/

namespace PagedHeap

open PagedHeap.Action

namespace DiskFiles

variable {exact : Prop} {origin d d' : DiskFiles} {m m' : MemoryFiles} {name : String}
variable {file : FileHandle} {entry : OpenEntry}

/-- A closed file of the directory stands ready in memory, under the next number. -/
def Offers (d : DiskFiles) (m : MemoryFiles) (name : String) : Prop :=
  d.opened.has name = false → ∀ i, d.named.find? name = some i →
    m.named.find? name = some ⟨d.nextId⟩ ∧ m.pages ⟨d.nextId⟩ = (d.image i).pages

theorem Beside.restart (h : Beside origin d m) : Beside d d m := ⟨.refl d, h.coherent, h.mirrors⟩

/-! ## Making and removing files -/

/-- A file was made. -/
structure Makes (d : DiskFiles) (name : String) (d' : DiskFiles) : Prop where
  free : d.named.has name = false
  named : d'.named = d.named.put name d.images.size
  opened : d'.opened = d.opened
  nextId : d'.nextId = d.nextId
  image : ∀ i, i < d.images.size → d'.image i = d.image i
  fresh : d'.image d.images.size = .fresh

theorem Makes.grows {name : String} (h : d.Makes name d') : Grows d d' := by
  intro i
  by_cases hi : i < d.images.size
  · rw [h.image i hi]
  · have hempty : d.image i = .empty := by
      unfold DiskFiles.image
      rw [Array.getElem?_eq_none (Nat.le_of_not_lt hi)]
      rfl
    rw [hempty]
    exact Nat.zero_le _

/-- The store after a file was made. -/
def made (d : DiskFiles) (name : String) : DiskFiles :=
  { d with images := d.images.push .fresh, named := d.named.put name d.images.size }

theorem makes_made (d : DiskFiles) (hfree : d.named.has name = false) :
    d.Makes name (d.made name) where
  free := hfree
  named := rfl
  opened := rfl
  nextId := rfl
  image i hi := by
    unfold image made
    simp only
    rw [Array.getElem?_push_lt hi, Array.getElem?_eq_getElem hi]
  fresh := by
    unfold image made
    simp only [Array.getElem?_push_size, Option.getD_some]

/-- A new file has an image of its own, and its mirror is offered. -/
theorem Beside.made (h : Beside origin d m) (hfree : d.named.has name = false)
    (hnext : m.nextId = d.nextId) :
    Beside (d.made name) (d.made name) (m.made name) ∧ (d.made name).Offers (m.made name) name := by
  have hmakes := makes_made d hfree
  have hnone := Table.find?_of_has_eq_false hfree
  have hcases {name' : String} {i : Nat} (hnamed : (d.made name).named.find? name' = some i) :
      (name' = name ∧ i = d.images.size) ∨ (name' ≠ name ∧ d.named.find? name' = some i) :=
    Table.find?_put_eq_some.1 hnamed
  have hpages {name' : String} {entry : OpenEntry} (hfind : d.opened.find? name' = some entry) :
      (m.made name).pages entry.file.id = m.pages entry.file.id := by
    have hlt := (h.coherent.opened hfind).2.1
    rw [MemoryFiles.pages_made, if_neg fun heq => ?_]
    rw [heq, hnext] at hlt
    exact Nat.lt_irrefl _ hlt
  have hsize : (d.made name).images.size = d.images.size + 1 := Array.size_push _
  refine ⟨⟨.refl _, ⟨fun {name' i} hnamed => ?_, fun {name' name'' i} hnamed hnamed' => ?_, ?_,
    fun {name' entry} hfind => ?_⟩, ⟨?_, fun name' => ?_, fun {name' entry i} hfind hnamed => ?_⟩⟩,
    fun _ i hnamed => ?_⟩
  · rw [hsize]
    rcases hcases hnamed with ⟨-, rfl⟩ | ⟨-, hold⟩
    · rw [hmakes.fresh]
      exact ⟨Nat.lt_succ_self _, _, FileImage.stored_fresh⟩
    · obtain ⟨hlt, hstored⟩ := h.coherent.stored hold
      rw [hmakes.image i hlt]
      exact ⟨Nat.lt_succ_of_lt hlt, hstored⟩
  · rcases hcases hnamed with ⟨rfl, rfl⟩ | ⟨-, hold⟩ <;>
      rcases hcases hnamed' with ⟨rfl, heq⟩ | ⟨-, hold'⟩
    · rfl
    · exact absurd (h.coherent.stored hold').1 (Nat.lt_irrefl _)
    · exact absurd (heq ▸ (h.coherent.stored hold).1) (Nat.lt_irrefl _)
    · exact h.coherent.apart hold hold'
  · rw [hmakes.opened]
    exact h.coherent.distinct
  · rw [hmakes.opened] at hfind
    obtain ⟨htitle, hlt, i, header, hnamed, hfiles, hstored⟩ := h.coherent.opened hfind
    have hne : name ≠ name' := by
      rintro rfl
      rw [hnone] at hnamed
      cases hnamed
    refine ⟨htitle, hlt, i, header, ?_, hfiles, ?_⟩
    · rw [hmakes.named, Table.find?_put_of_ne hne]
      exact hnamed
    · rw [hmakes.image i (h.coherent.stored hnamed).1]
      exact hstored
  · exact h.mirrors.opened
  · rw [hmakes.named, Table.has_put, ← h.mirrors.named]
    exact Table.has_put _ _ _ _
  · rw [hmakes.opened] at hfind
    rw [hpages hfind]
    rcases hcases hnamed with ⟨rfl, rfl⟩ | ⟨-, hold⟩
    · obtain ⟨-, -, i, -, hnamed', -⟩ := h.coherent.opened hfind
      rw [hnone] at hnamed'
      cases hnamed'
    · rw [hmakes.image i (h.coherent.stored hold).1]
      exact h.mirrors.pages hfind hold
  · rcases hcases hnamed with ⟨-, rfl⟩ | ⟨hne, -⟩
    · rw [hmakes.fresh, hmakes.nextId, ← hnext]
      refine ⟨MemoryFiles.find?_made m name, ?_⟩
      rw [MemoryFiles.pages_made, if_pos rfl, FileImage.pages_fresh]
    · exact absurd rfl hne

/-- A file is made on both sides, or the name is refused. -/
theorem Beside.create (h : Beside origin d m) {name : String}
    (hnext : d.named.has name = false → m.nextId = d.nextId)
    (hroom : d.nextId.toNat + 1 < 2 ^ 32) :
    Agrees exact (create name) (MemoryFiles.create name) d m
      (fun _ d' m' => FileName.check name = .ok () ∧ d.Makes name d' ∧ d'.Offers m' name ∧
        Beside d' d' m')
      (fun _ d' m' => d' = d ∧ m' = m) := by
  refine agrees_ofResult_bind (fun _ hcheck => ?_) fun _ _ => ⟨rfl, rfl⟩
  refine agrees_get ?_
  rw [h.mirrors.named]
  cases hfree : d.named.has name with
  | true => exact agrees_refuse ⟨rfl, rfl⟩
  | false =>
    have hnext := hnext hfree
    have hcount := count32_eq_ok (n := m.nextId.toNat + 1) (hnext ▸ hroom)
    have hput : d.putImage name .fresh = d.made name := by
      unfold putImage
      rw [Table.find?_of_has_eq_false hfree]
      rfl
    simp only [Bool.false_eq_true, if_false]
    rw [hcount, hput]
    refine .of_right (b := UInt32.ofNat (m.nextId.toNat + 1)) rfl (agrees_set ?_)
    obtain ⟨hbeside, hoffers⟩ := h.made hfree hnext
    exact ⟨hcheck, makes_made d hfree, hoffers, hbeside⟩

/-- A file was removed. -/
structure Removes (d : DiskFiles) (name : String) (d' : DiskFiles) : Prop where
  closed : d.opened.has name = false
  named : d'.named = d.named.erase name
  opened : d'.opened = d.opened
  nextId : d'.nextId = d.nextId
  image : ∀ i, d'.image i = d.image i

/-- The images of the other files stay where they are. -/
theorem Beside.removed (h : Beside origin d m) (hclosed : d.opened.has name = false) :
    Beside { d with named := d.named.erase name } { d with named := d.named.erase name }
      { m with named := m.named.erase name } := by
  refine ⟨.refl _, ⟨fun {_ _} hnamed => ?_, fun {_ _ _} hnamed hnamed' => ?_, h.coherent.distinct,
    fun {name' entry} hfind => ?_⟩, ⟨h.mirrors.opened, fun name' => ?_,
      fun {_ _ _} hfind hnamed => ?_⟩⟩
  · exact h.coherent.stored (Table.find?_erase_eq_some.1 hnamed).2
  · exact h.coherent.apart (Table.find?_erase_eq_some.1 hnamed).2
      (Table.find?_erase_eq_some.1 hnamed').2
  · obtain ⟨htitle, hlt, i, header, hnamed, hrest⟩ := h.coherent.opened hfind
    have hne : name' ≠ name := by
      rintro rfl
      rw [Table.has_of_find? hfind] at hclosed
      cases hclosed
    exact ⟨htitle, hlt, i, header, Table.find?_erase_eq_some.2 ⟨hne, hnamed⟩, hrest⟩
  · simp only [Table.has_erase, h.mirrors.named]
  · exact h.mirrors.pages hfind (Table.find?_erase_eq_some.1 hnamed).2

/-- A file is removed on both sides, or neither. -/
theorem Beside.destroy (h : Beside origin d m) (name : String) :
    Agrees exact (destroy name) (MemoryFiles.destroy name) d m
      (fun _ d' m' => Beside d' d' m' ∧ d.Removes name d') (fun _ d' m' => d' = d ∧ m' = m) := by
  refine agrees_ofResult_bind (fun _ _ => ?_) fun _ _ => ⟨rfl, rfl⟩
  refine agrees_get ?_
  have hsame : m.opened.has name = d.opened.has name := by rw [h.mirrors.opened]
  simp only [h.mirrors.named, hsame]
  cases hopened : d.opened.has name with
  | true => exact agrees_refuse ⟨rfl, rfl⟩
  | false =>
    simp only [Bool.false_eq_true, if_false]
    split
    · exact agrees_set ⟨h.removed hopened, hopened, rfl, rfl, rfl, fun _ => rfl⟩
    · exact agrees_refuse ⟨rfl, rfl⟩

/-! ## Opening and closing files -/

/-- What is remembered of a closed file when it is opened. -/
theorem Beside.readHeader (h : Beside origin d m) {i : Nat} (hnamed : d.named.find? name = some i) :
    ∃ header, (d.image i).readHeader name = .ok header ∧ (d.image i).Stored header := by
  obtain ⟨-, header, hstored⟩ := h.coherent.stored hnamed
  exact ⟨header, hstored.readHeader_eq name, hstored⟩

/-- A file that is open is opened once more or once less. -/
theorem Beside.recount (h : Beside origin d m) (hfind : d.opened.find? name = some entry)
    (count : Nat) :
    Beside { d with opened := d.opened.put name { entry with openings := count } }
      { d with opened := d.opened.put name { entry with openings := count } }
      { m with opened := d.opened.put name { entry with openings := count } } := by
  have hback {name' : String} {entry' : OpenEntry}
      (hfind' : (d.opened.put name { entry with openings := count }).find? name' = some entry') :
      ∃ old, d.opened.find? name' = some old ∧ old.file = entry'.file := by
    rcases Table.find?_put_eq_some.1 hfind' with ⟨rfl, rfl⟩ | ⟨-, hold⟩
    · exact ⟨entry, hfind, rfl⟩
    · exact ⟨entry', hold, rfl⟩
  refine ⟨.refl _, ⟨h.coherent.stored, h.coherent.apart,
    Table.nodup_keys_put h.coherent.distinct _ _, fun {name' entry'} hfind' => ?_⟩,
    ⟨rfl, h.mirrors.named, fun {name' entry' i} hfind' hnamed => ?_⟩⟩
  · obtain ⟨old, hold, hfile⟩ := hback hfind'
    rw [← hfile]
    exact h.coherent.opened hold
  · obtain ⟨old, hold, hfile⟩ := hback hfind'
    rw [← hfile]
    exact h.mirrors.pages hold hnamed

/-- A closed file is entered under the next number. -/
theorem Beside.entered (h : Beside origin d m) (hclosed : d.opened.has name = false)
    (hroom : d.nextId.toNat + 1 < 2 ^ 32) {i : Nat} {header : FileHeader}
    (hnamed : d.named.find? name = some i) (hstored : (d.image i).Stored header)
    (hpages : m.pages ⟨d.nextId⟩ = (d.image i).pages) :
    Beside { d with
        files := d.files.put ⟨d.nextId⟩ ⟨i, header⟩
        opened := d.opened.enter ⟨⟨d.nextId⟩, name⟩
        nextId := UInt32.ofNat (d.nextId.toNat + 1) }
      { d with
        files := d.files.put ⟨d.nextId⟩ ⟨i, header⟩
        opened := d.opened.enter ⟨⟨d.nextId⟩, name⟩
        nextId := UInt32.ofNat (d.nextId.toNat + 1) }
      { m with opened := d.opened.enter ⟨⟨d.nextId⟩, name⟩ } := by
  have hnext : (UInt32.ofNat (d.nextId.toNat + 1)).toNat = d.nextId.toNat + 1 :=
    UInt32.toNat_ofNat_of_lt' hroom
  refine ⟨.refl _, ⟨h.coherent.stored, h.coherent.apart,
    Table.nodup_keys_put h.coherent.distinct _ _, fun {name' entry'} hfind' => ?_⟩,
    ⟨rfl, h.mirrors.named, fun {name' entry' j} hfind' hnamed' => ?_⟩⟩
  · simp only [hnext]
    rcases Table.find?_put_eq_some.1 hfind' with ⟨rfl, rfl⟩ | ⟨-, hold⟩
    · exact ⟨rfl, Nat.lt_succ_self _, i, header, hnamed, Table.find?_put_self _ _ _, hstored⟩
    · obtain ⟨htitle, hlt, j, old, hnamed', hfiles, hstored'⟩ := h.coherent.opened hold
      refine ⟨htitle, Nat.lt_succ_of_lt hlt, j, old, hnamed', ?_, hstored'⟩
      rw [Table.find?_put_of_ne fun heq => ?_]
      · exact hfiles
      · rw [← heq] at hlt
        exact Nat.lt_irrefl _ hlt
  · rcases Table.find?_put_eq_some.1 hfind' with ⟨rfl, rfl⟩ | ⟨-, hold⟩
    · cases hnamed.symm.trans hnamed'
      exact hpages
    · exact h.mirrors.pages hold hnamed'

/-- A file was opened: once more, or for the first time and then under the next number. -/
structure Opens (d : DiskFiles) (name : String) (file : FileHandle) (d' : DiskFiles) : Prop where
  named : d'.named = d.named
  image : ∀ i, d'.image i = d.image i
  numbers : d'.nextId.toNat ≤ d.nextId.toNat + 1
  opened : ∃ count, d'.opened = d.opened.put name ⟨file, count + 1⟩ ∧
    (d.opened.find? name = some ⟨file, count⟩ ∨
      d.opened.find? name = none ∧ count = 0 ∧ file = ⟨⟨d.nextId⟩, name⟩)

/-- A file is opened on both sides, or neither, if it is offered. -/
theorem Beside.openFile (h : Beside origin d m) (hoffers : d.Offers m name)
    (hroom : d.nextId.toNat + 1 < 2 ^ 32) :
    Agrees exact (openFile name) (MemoryFiles.openFile name) d m
      (fun file d' m' => Beside d' d' m' ∧ d.Opens name file d')
      (fun _ d' m' => d' = d ∧ m' = m ∧
        (FileName.check name = .ok () → d.named.has name = false)) := by
  refine agrees_ofResult_bind (fun _ _ => ?_) fun _ hcheck => ⟨rfl, rfl, fun hok => by
    rw [hok] at hcheck
    cases hcheck⟩
  refine agrees_get ?_
  unfold OpenTable.reopen?
  rw [h.mirrors.opened]
  cases hopened : d.opened.find? name with
  | some entry =>
    simp only [Option.map_some]
    refine agrees_bind (p := fun _ d' m' => Beside d' d' m' ∧ d.Opens name entry.file d')
      (agrees_set ⟨h.recount hopened _, rfl, fun _ => rfl, Nat.le_succ _, entry.openings, rfl,
        .inl hopened⟩)
      fun _ _ _ hpost => agrees_pure hpost
  | none =>
    have hclosed := Table.has_of_find?_none hopened
    simp only [Option.map_none]
    cases hnamed : d.named.find? name with
    | none =>
      have hnone : m.named.find? name = none := by
        refine Table.find?_of_has_eq_false ?_
        rw [h.mirrors.named]
        exact Table.has_of_find?_none hnamed
      rw [hnone]
      exact agrees_refuse ⟨rfl, rfl, fun _ => Table.has_of_find?_none hnamed⟩
    | some i =>
      obtain ⟨hready, hpages⟩ := hoffers hclosed i hnamed
      obtain ⟨header, hread, hstored⟩ := h.readHeader hnamed
      rw [hready]
      simp only
      rw [hread, count32_eq_ok hroom]
      refine .of_left (b := header) rfl (.of_left (b := UInt32.ofNat (d.nextId.toNat + 1)) rfl ?_)
      refine agrees_bind (p := fun _ d' m' =>
        Beside d' d' m' ∧ d.Opens name ⟨⟨d.nextId⟩, name⟩ d') (agrees_set ?_)
        fun _ _ _ hpost => agrees_pure hpost
      exact ⟨h.entered hclosed hroom hnamed hstored hpages, rfl, fun _ => rfl,
        (UInt32.toNat_ofNat_of_lt' hroom).le, 0, rfl, .inr ⟨hopened, rfl, rfl⟩⟩

/-- One opening of a file was given back. -/
structure Closes (d : DiskFiles) (entry : OpenEntry) (d' : DiskFiles) : Prop where
  named : d'.named = d.named
  nextId : d'.nextId = d.nextId
  pages : ∀ i, (d'.image i).pages = (d.image i).pages
  opened : d'.opened =
    if entry.openings ≤ 1 then d.opened.erase entry.file.name
    else d.opened.put entry.file.name { entry with openings := entry.openings - 1 }

theorem Closes.grows (h : d.Closes entry d') : Grows d d' := by
  intro i
  rw [← FileImage.size_pages, ← FileImage.size_pages, h.pages]

/-- A file is no longer open. -/
theorem Beside.erased (h : Beside origin d m) (name : String) :
    Beside { d with opened := d.opened.erase name } { d with opened := d.opened.erase name }
      { m with opened := d.opened.erase name } := by
  refine ⟨.refl _, ⟨h.coherent.stored, h.coherent.apart,
    Table.nodup_keys_erase h.coherent.distinct _, fun {_ _} hfind => ?_⟩,
    ⟨rfl, h.mirrors.named, fun {_ _ _} hfind hnamed => ?_⟩⟩
  · exact h.coherent.opened (Table.find?_erase_eq_some.1 hfind).2
  · exact h.mirrors.pages (Table.find?_erase_eq_some.1 hfind).2 hnamed

/-- The header that is remembered of an open file is stored once more, whatever files are open. -/
theorem flushHeader_run {t : OpenTable} {i : Nat} {header : FileHeader} {id : FileId}
    (h : d.files.find? id = some ⟨i, header⟩) :
    DiskFiles.flushHeader id { d with opened := t } =
      .ok () { d with
        opened := t
        images := d.images.modify i (·.writePage 0 header.toPage) } := by
  exact bind_run_ok (openFileOf_run (d := { d with opened := t }) h) _

/-- The last one who closes a file stores its header, and no page changes. -/
theorem Beside.closeLast (h : Beside origin d m)
    (hfind : d.opened.find? entry.file.name = some entry) :
    ∃ d', DiskFiles.flushHeader entry.file.id
        { d with opened := d.opened.erase entry.file.name } = .ok () d' ∧
      Beside d' d' { m with opened := d.opened.erase entry.file.name } ∧
      d'.named = d.named ∧ d'.nextId = d.nextId ∧ (∀ i, (d'.image i).pages = (d.image i).pages) ∧
      d'.opened = d.opened.erase entry.file.name := by
  have hknown : d.opened.IsOpen entry.file.id := ⟨_, entry, hfind, rfl⟩
  obtain ⟨i, header, hopen⟩ := h.restart.exists_open hknown
  -- the header is stored in the same way while the file is still open
  have hkeeps : Keeps True (Beside d) (DiskFiles.flushHeader entry.file.id)
      (PageStore.sync entry.file.id : Action MemoryFiles Unit) := Beside.flushHeader hknown
  obtain ⟨_, hsync, hbeside⟩ :=
    (hkeeps h.restart).of_ok (flushHeader_run (t := d.opened) hopen.remembered)
  cases hsync
  refine ⟨_, flushHeader_run hopen.remembered, hbeside.erased entry.file.name, rfl, rfl,
    fun j => ?_, rfl⟩
  refine (congrArg FileImage.pages (image_modify d i j (·.writePage 0 header.toPage))).trans ?_
  split
  · next hij => rw [← hij.1, hopen.stored.writeHeader.2]
  · rfl

/-- One opening of a file that is open is given back on both sides. -/
theorem Beside.close (h : Beside origin d m) (hfind : d.opened.find? entry.file.name = some entry) :
    Agrees exact (close entry.file) (MemoryFiles.close entry.file) d m
      (fun _ d' m' => Beside d' d' m' ∧ d.Closes entry d' ∧ m' = { m with opened := d'.opened })
      (fun _ _ _ => False) := by
  have hrelease : d.opened.release entry.file =
      if entry.openings ≤ 1 then .ok (true, d.opened.erase entry.file.name)
      else .ok (false,
        d.opened.put entry.file.name { entry with openings := entry.openings - 1 }) := by
    unfold OpenTable.release
    rw [hfind]
    simp only [if_true]
  refine agrees_get ?_
  simp only [h.mirrors.opened, hrelease]
  by_cases hlast : entry.openings ≤ 1
  · obtain ⟨d', hrun, hbeside, hnamed, hnext, hpages, hopened⟩ := h.closeLast hfind
    have hcloses : d.Closes entry d' := ⟨hnamed, hnext, hpages, by rw [if_pos hlast, hopened]⟩
    simp only [hlast, if_true]
    refine .of_left (b := (true, d.opened.erase entry.file.name)) rfl
      (.of_right (b := (true, d.opened.erase entry.file.name)) rfl (.of_left (b := ⟨⟩) rfl ?_))
    unfold Agrees
    simp only [if_true]
    rw [hrun]
    exact ⟨_, rfl, hbeside, hcloses, by rw [hopened]⟩
  · have hcloses (t : OpenTable) (ht : t = d.opened.put entry.file.name
        { entry with openings := entry.openings - 1 }) :
        d.Closes entry { d with opened := t } :=
      ⟨rfl, rfl, fun _ => rfl, by rw [if_neg hlast, ht]⟩
    simp only [hlast, if_false]
    exact ⟨_, rfl, h.recount hfind _, hcloses _ rfl, rfl⟩

end DiskFiles

end PagedHeap
