import PagedHeap.Proofs.File.Directory

/-!
# The mirror that a command needs

A file in memory has its number from the time it is made, one in a directory gets a number when it
is opened.  So the mirror is made anew for each command: beside the open files it has the file that
the command may open, under the number that this file will get (`DiskFiles.mirror`).

A directory that is read anew is coherent, and has its mirror like any other.
-/

namespace PagedHeap

open PagedHeap.Action

/-- Whether a file is open can be looked up. -/
instance (t : OpenTable) (file : FileId) : Decidable (t.IsOpen file) :=
  decidable_of_iff
    (∃ name ∈ t.keys, (t.find? name).any (fun entry => entry.file.id = file) = true) (by
    unfold OpenTable.IsOpen
    simp only [Option.any_eq_true, decide_eq_true_eq]
    constructor
    · rintro ⟨name, -, entry, hfind, heq⟩
      exact ⟨name, entry, hfind, heq⟩
    · rintro ⟨name, entry, hfind, heq⟩
      exact ⟨name, Table.mem_keys_of_find? hfind, entry, hfind, heq⟩)

namespace DiskFiles

variable {origin d : DiskFiles} {m : MemoryFiles} {title : String} {file : FileId}

/-! ## The mirror for a name -/

/-- The pages that a file will show when it is opened; none if it is open already. -/
def offered (d : DiskFiles) (title : String) : Array Page :=
  if d.opened.has title then #[] else ((d.imageNamed? title).map FileImage.pages).getD #[]

/-- The files that are open, and the file of the name under the number that it will get. -/
def mirror (d : DiskFiles) (title : String) : MemoryFiles where
  contents := (⟨d.nextId⟩, d.offered title) :: d.files.filterMap fun entry =>
    if decide (d.opened.IsOpen entry.1) then some (entry.1, (d.image entry.2.image).pages) else none
  named := d.named.map fun entry => (entry.1, ⟨d.nextId⟩)
  opened := d.opened
  nextId := if d.named.has title then UInt32.ofNat (d.nextId.toNat + 1) else d.nextId

theorem Coherent.ne_next (h : d.Coherent) (hopen : d.opened.IsOpen file) : file ≠ ⟨d.nextId⟩ := by
  obtain ⟨name, entry, hfind, rfl⟩ := hopen
  have hlt := (h.opened hfind).2.1
  intro heq
  rw [heq] at hlt
  exact Nat.lt_irrefl _ hlt

/-- An open file has the pages of its image. -/
theorem Coherent.pages_mirror (h : d.Coherent) {name : String} {entry : OpenEntry} {i : Nat}
    (hfind : d.opened.find? name = some entry) (hnamed : d.named.find? name = some i) :
    (d.mirror title).pages entry.file.id = (d.image i).pages := by
  obtain ⟨-, -, j, header, hnamed', hfiles, -⟩ := h.opened hfind
  cases hnamed.symm.trans hnamed'
  have hopen : d.opened.IsOpen entry.file.id := ⟨name, entry, hfind, rfl⟩
  unfold MemoryFiles.pages mirror
  rw [Table.find?_cons, if_neg (h.ne_next hopen).symm]
  rw [Table.find?_filterMap d.files (fun file => decide (d.opened.IsOpen file))
    (fun f => (d.image f.image).pages), if_pos (decide_eq_true hopen), hfiles]
  rfl

/-- The file of the name stands ready under the next number. -/
theorem pages_mirror_next (d : DiskFiles) (title : String) :
    (d.mirror title).pages ⟨d.nextId⟩ = d.offered title := by
  unfold MemoryFiles.pages mirror
  rw [Table.find?_cons, if_pos rfl]
  rfl

/-- There are no other pages. -/
theorem pages_mirror_of_not_isOpen (hnext : file ≠ ⟨d.nextId⟩) (hopen : ¬d.opened.IsOpen file) :
    (d.mirror title).pages file = #[] := by
  unfold MemoryFiles.pages mirror
  rw [Table.find?_cons, if_neg hnext.symm]
  rw [Table.find?_filterMap d.files (fun file => decide (d.opened.IsOpen file))
    (fun f => (d.image f.image).pages), if_neg fun hyes => hopen (of_decide_eq_true hyes)]
  rfl

theorem find?_named_mirror (d : DiskFiles) (title name : String) :
    (d.mirror title).named.find? name = (d.named.find? name).map fun _ => ⟨d.nextId⟩ :=
  Table.find?_map d.named (fun _ _ => (⟨d.nextId⟩ : FileId)) name

theorem has_named_mirror (d : DiskFiles) (title name : String) :
    (d.mirror title).named.has name = d.named.has name := by
  unfold Table.has
  rw [find?_named_mirror, Option.isSome_map]

/-- A coherent directory stands beside its mirror for any name. -/
theorem Coherent.beside_mirror (h : d.Coherent) (title : String) : Beside d d (d.mirror title) :=
  ⟨.refl d, h, rfl, has_named_mirror d title, h.pages_mirror⟩

/-- The mirror for a name offers the file of this name. -/
theorem offers_mirror (d : DiskFiles) (title : String) : d.Offers (d.mirror title) title := by
  intro hclosed i hnamed
  refine ⟨by rw [find?_named_mirror, hnamed, Option.map_some], ?_⟩
  rw [pages_mirror_next]
  unfold offered imageNamed?
  rw [hclosed, hnamed]
  rfl

/-- The number for a new file is the one that it will get in the directory. -/
theorem nextId_mirror (hfree : d.named.has title = false) :
    (d.mirror title).nextId = d.nextId := by
  unfold mirror
  rw [hfree]
  rfl

/-- Only numbers that were given out have pages. -/
theorem Coherent.fresh_mirror (h : d.Coherent) (hroom : d.nextId.toNat + 1 < 2 ^ 32)
    (hpages : 0 < ((d.mirror title).pages file).size) :
    file.val.toNat < (d.mirror title).nextId.toNat := by
  have hle : d.nextId.toNat ≤ (d.mirror title).nextId.toNat := by
    unfold mirror
    simp only
    split
    · rw [UInt32.toNat_ofNat_of_lt' hroom]
      exact Nat.le_succ _
    · exact Nat.le_refl _
  by_cases hopen : d.opened.IsOpen file
  · obtain ⟨name, entry, hfind, rfl⟩ := hopen
    exact Nat.lt_of_lt_of_le (h.opened hfind).2.1 hle
  · by_cases hnext : file = ⟨d.nextId⟩
    · subst hnext
      rw [pages_mirror_next] at hpages
      have hnamed : d.named.has title = true := by
        by_contra hfree
        have hnone := Table.find?_of_has_eq_false (Bool.not_eq_true _ ▸ hfree)
        unfold offered imageNamed? at hpages
        rw [hnone, Option.map_none, Option.map_none, Option.getD_none, ite_self] at hpages
        exact Nat.lt_irrefl 0 hpages
      unfold mirror
      rw [hnamed]
      simp only [if_true]
      rw [UInt32.toNat_ofNat_of_lt' hroom]
      exact Nat.lt_succ_self _
    · rw [pages_mirror_of_not_isOpen hnext hopen] at hpages
      exact absurd hpages (Nat.lt_irrefl 0)

/-- Every open file has a name. -/
theorem Coherent.booked_mirror (h : d.Coherent) (title : String) : (d.mirror title).Booked := by
  intro name hname
  change d.opened.has name = true at hname
  rw [has_named_mirror]
  obtain ⟨entry, hfind⟩ := Option.isSome_iff_exists.1 hname
  obtain ⟨-, -, i, -, hnamed, -⟩ := h.opened hfind
  exact Table.has_of_find? hnamed

/-! ## A directory that is read -/

/-- Where the names of a directory are numbered from a number on, each has a number of its own, and
it is the place of its file. -/
theorem find?_zipIdx (files : Directory) (start : Nat) (name : String) :
    (∀ i, Table.find? ((files.map Prod.fst).zipIdx start) name = some i →
      start ≤ i ∧ (files.map Prod.snd)[i - start]? = files.find? name) ∧
    (Table.find? ((files.map Prod.fst).zipIdx start) name).isSome = (files.find? name).isSome := by
  induction files generalizing start with
  | nil => exact ⟨nofun, rfl⟩
  | cons entry files ih =>
    obtain ⟨k, f⟩ := entry
    obtain ⟨hplace, hsome⟩ := ih (start + 1)
    rw [List.map_cons, List.zipIdx_cons, Table.find?_cons, Table.find?_cons]
    by_cases hk : k = name
    · rw [if_pos hk, if_pos hk]
      refine ⟨fun i hi => ?_, rfl⟩
      cases hi
      refine ⟨Nat.le_refl _, ?_⟩
      rw [Nat.sub_self]
      rfl
    · rw [if_neg hk, if_neg hk]
      refine ⟨fun i hi => ?_, hsome⟩
      obtain ⟨hle, hfile⟩ := hplace i hi
      refine ⟨Nat.le_of_succ_le hle, ?_⟩
      have hsub : i - start = (i - (start + 1)) + 1 := by omega
      rw [hsub, List.map_cons, List.getElem?_cons_succ, hfile]

/-- Different names have different numbers. -/
theorem find?_zipIdx_apart (names : List String) (start : Nat) {name name' : String} {i : Nat}
    (h : Table.find? (names.zipIdx start) name = some i)
    (h' : Table.find? (names.zipIdx start) name' = some i) : name = name' := by
  have hfst (names : List String) (start i : Nat) (name : String)
      (h : Table.find? (names.zipIdx start) name = some i) :
      start ≤ i ∧ names[i - start]? = some name := by
    induction names generalizing start with
    | nil => cases h
    | cons k names ih =>
      rw [List.zipIdx_cons, Table.find?_cons] at h
      by_cases hk : k = name
      · rw [if_pos hk] at h
        cases h
        exact ⟨Nat.le_refl _, by rw [Nat.sub_self, List.getElem?_cons_zero, hk]⟩
      · rw [if_neg hk] at h
        obtain ⟨hle, hname⟩ := ih (start + 1) h
        have hsub : i - start = (i - (start + 1)) + 1 := by omega
        exact ⟨Nat.le_of_succ_le hle, by rw [hsub, List.getElem?_cons_succ, hname]⟩
  have heq := (hfst names start i name h).2.symm.trans (hfst names start i name' h').2
  exact Option.some.inj heq

variable {files : Directory} {name : String} {i : Nat}

/-- The files of a directory are found under their names. -/
theorem find?_named_ofDirectory (h : (ofDirectory files).named.find? name = some i) :
    i < (ofDirectory files).images.size ∧
      files.find? name = some ((ofDirectory files).image i) := by
  obtain ⟨hplace, hsome⟩ := find?_zipIdx files 0 name
  have hfile := (hplace i h).2
  change Table.find? ((files.map Prod.fst).zipIdx 0) name = some i at h
  rw [h] at hsome
  obtain ⟨f, hf⟩ := Option.isSome_iff_exists.1 hsome.symm
  have hget : (ofDirectory files).images[i]? = some f := by
    change ((files.map Prod.snd).toArray)[i]? = some f
    rw [List.getElem?_toArray]
    exact hfile.trans hf
  refine ⟨(Array.getElem?_eq_some_iff.1 hget).1, ?_⟩
  unfold image
  rw [hget, hf]
  rfl

/-- A directory shows the files that it was made from. -/
theorem imageNamed?_ofDirectory (files : Directory) (name : String) :
    (ofDirectory files).imageNamed? name = files.find? name := by
  unfold imageNamed?
  cases hfind : (ofDirectory files).named.find? name with
  | some i => exact (find?_named_ofDirectory hfind).2.symm
  | none =>
    have hsome := (find?_zipIdx files 0 name).2
    change Table.find? ((files.map Prod.fst).zipIdx 0) name = none at hfind
    rw [hfind] at hsome
    exact (Option.isNone_iff_eq_none.1 (Option.isSome_eq_false_iff.1 hsome.symm)).symm

/-- A directory all of whose files have headers is coherent when it is read. -/
theorem coherent_ofDirectory (h : ∀ name f, files.find? name = some f → ∃ header, f.Stored header) :
    (ofDirectory files).Coherent where
  stored hnamed := by
    obtain ⟨hlt, hfind⟩ := find?_named_ofDirectory hnamed
    exact ⟨hlt, h _ _ hfind⟩
  apart hnamed hnamed' := find?_zipIdx_apart _ 0 hnamed hnamed'
  distinct := List.nodup_nil
  opened := nofun

/-- The directory lists the files under their names. -/
theorem find?_directory (d : DiskFiles) (name : String) :
    d.directory.find? name = d.imageNamed? name := by
  unfold directory imageNamed?
  exact Table.find?_map d.named (fun _ i => d.image i) name

end DiskFiles

end PagedHeap
