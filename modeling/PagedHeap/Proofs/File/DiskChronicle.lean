import PagedHeap.Proofs.File.Chronicle
import PagedHeap.Proofs.File.Directory

/-!
# Files in a directory answer by the history

A file gets a new number each time that it is opened and was not open.  So an opening can only be
given back through the handles that were opened since the file was last closed
(`DiskFiles.chronicle`).
-/

namespace PagedHeap

open PagedHeap.Action

namespace DiskFiles

/-- A file without pages was opened under this number. -/
def Remembers (s : DiskFiles) (id : FileId) : Prop :=
  id.val.toNat < s.nextId.toNat ∧ ∃ i, s.files.find? id = some ⟨i, .fresh⟩

/-- The history leads to this state.  A file was held if it is still open under the same number. -/
structure Fits (y : History) (given : String → Option FileHandle) (s : DiskFiles) : Prop where
  seen : y.Seen s.named.has s.opened given
  number : s.nextId.toNat ≤ y.calls + 1
  stored : ∀ {name i}, s.named.find? name = some i →
    i < s.images.size ∧ (s.image i).Stored .fresh
  opened : ∀ {name entry}, s.opened.find? name = some entry → s.Remembers entry.file.id
  given : ∀ {h file}, given h = some file → s.Remembers file.id ∧ ∀ {g}, y.handed h = some g →
    (g.held = true ↔ ∃ count, s.opened.find? file.name = some ⟨file, count⟩)

variable {y : History} {given : String → Option FileHandle} {s : DiskFiles} {name h : String}
variable {file : FileHandle} {g : Handed}

theorem fits_start : Fits .start (fun _ => none) (ofDirectory []) :=
  ⟨.start fun _ => rfl, Nat.le_refl 1, nofun, nofun, nofun⟩

theorem Fits.tick (hfits : Fits y given s) : Fits y.tick given s :=
  ⟨hfits.seen.tick, Nat.le_succ_of_le hfits.number, hfits.stored, hfits.opened, hfits.given⟩

theorem Fits.made (hfits : Fits y given s) (hfree : s.named.has name = false) :
    Fits (y.made name).tick given (s.made name) := by
  have hmakes := makes_made s hfree
  refine ⟨?_, Nat.le_succ_of_le hfits.number, fun {other i} hfind => ?_, hfits.opened, hfits.given⟩
  · exact (hfits.seen.made fun other => Table.has_put ..).tick
  · have hsize : (s.made name).images.size = s.images.size + 1 := Array.size_push _
    rw [hsize]
    rcases Table.find?_put_eq_some.1 hfind with ⟨-, rfl⟩ | ⟨-, hold⟩
    · exact ⟨Nat.lt_succ_self _, hmakes.fresh ▸ FileImage.stored_fresh⟩
    · obtain ⟨hlt, hstored⟩ := hfits.stored hold
      exact ⟨Nat.lt_succ_of_lt hlt, (hmakes.image i hlt).symm ▸ hstored⟩

theorem Fits.removed (hfits : Fits y given s) :
    Fits (y.removed name).tick given { s with named := s.named.erase name } := by
  refine ⟨?_, Nat.le_succ_of_le hfits.number, fun {other i} hfind => ?_, hfits.opened,
    fun {h file} hgiven => ?_⟩
  · exact (hfits.seen.removed fun other => Table.has_erase ..).tick
  · exact hfits.stored (Table.find?_erase_eq_some.1 hfind).2
  · obtain ⟨hremembers, hheld⟩ := hfits.given hgiven
    refine ⟨hremembers, fun hhanded => ?_⟩
    obtain ⟨before, hbefore, rfl⟩ := History.handed_removed.1 hhanded
    exact (hheld hbefore :)

/-- A file is opened.  The handles of its name are as good as before if they are handles of this
file just when it was the one that was open. -/
theorem Fits.handedOut (hfits : Fits y given s) (hy : y.Regular) {files : Table FileId OpenFile}
    {nextId : UInt32} (hnumber : nextId.toNat ≤ y.calls + 2)
    (hremembers : ∀ {id}, s.Remembers id →
      Remembers { s with files := files, nextId := nextId } id)
    (hnew : Remembers { s with files := files, nextId := nextId } file.id)
    (hsame : ∀ {h' file'}, given h' = some file' → file'.name = file.name →
      ((∃ count, s.opened.find? file.name = some ⟨file', count⟩) ↔ file' = file)) (h : String) :
    Fits (y.handedOut h file.name).tick (Function.update given h (some file))
      { s with
        files := files
        opened := s.opened.put file.name ⟨file, y.openings file.name + 1⟩
        nextId := nextId } := by
  have hput (file' : FileHandle) (heq : file'.name = file.name) :
      (∃ count, (s.opened.put file.name ⟨file, y.openings file.name + 1⟩).find? file'.name =
        some ⟨file', count⟩) ↔ file' = file := by
    rw [heq, Table.find?_put_self]
    constructor
    · rintro ⟨count, ⟨⟩⟩
      rfl
    · rintro rfl
      exact ⟨_, rfl⟩
  refine ⟨(hfits.seen.handedOut hy file h).tick, hnumber, hfits.stored,
    fun {other entry} hfind => ?_, fun {h' file'} hgiven => ?_⟩
  · rcases Table.find?_put_eq_some.1 hfind with ⟨-, rfl⟩ | ⟨-, hold⟩
    · exact hnew
    · exact hremembers (hfits.opened hold)
  · have hhanded' := History.handed_handedOut y h file.name h'
    rw [Function.update_apply] at hgiven
    split at hgiven
    · next heq =>
      cases hgiven
      refine ⟨hnew, fun hhanded => ?_⟩
      rw [if_pos heq] at hhanded'
      cases hhanded'.symm.trans hhanded
      exact ⟨fun _ => (hput file rfl).2 rfl, fun _ => rfl⟩
    · next hne =>
      obtain ⟨hold, hheld⟩ := hfits.given hgiven
      rw [if_neg hne] at hhanded'
      refine ⟨hremembers hold, fun hhanded => (hheld (hhanded'.symm.trans hhanded)).trans ?_⟩
      by_cases heq : file'.name = file.name
      · rw [hput file' heq, heq]
        exact hsame hgiven heq
      · rw [Table.find?_put_of_ne (Ne.symm heq)]

/-- A file that is open is opened once more. -/
theorem Fits.reopened (hfits : Fits y given s) (hy : y.Regular) {count : Nat}
    (hfind : s.opened.find? file.name = some ⟨file, count⟩) (h : String) :
    Fits (y.handedOut h file.name).tick (Function.update given h (some file))
      { s with opened := s.opened.put file.name ⟨file, count + 1⟩ } := by
  obtain rfl : y.openings file.name = count := hfits.seen.openings_eq hfind
  refine hfits.handedOut hy (Nat.le_succ_of_le hfits.number) id (hfits.opened hfind)
    (fun {h' file'} _ _ => ?_) h
  rw [hfind]
  constructor
  · rintro ⟨count, ⟨⟩⟩
    rfl
  · rintro rfl
    exact ⟨_, rfl⟩

/-- A file that is not open is opened under the next number, which no handle has. -/
theorem Fits.entered (hfits : Fits y given s) (hy : y.Regular)
    (hroom : s.nextId.toNat + 1 < 2 ^ 32) (hclosed : s.opened.find? file.name = none)
    (hid : file.id = ⟨s.nextId⟩) (i : Nat) (h : String) :
    Fits (y.handedOut h file.name).tick (Function.update given h (some file))
      { s with
        files := s.files.put file.id ⟨i, .fresh⟩
        opened := s.opened.enter file
        nextId := UInt32.ofNat (s.nextId.toNat + 1) } := by
  have hnext : (UInt32.ofNat (s.nextId.toNat + 1)).toNat = s.nextId.toNat + 1 :=
    UInt32.toNat_ofNat_of_lt' hroom
  have hentered : s.opened.enter file =
      s.opened.put file.name ⟨file, y.openings file.name + 1⟩ := by
    rw [hfits.seen.openings_eq_zero hclosed]
    rfl
  rw [hentered]
  refine hfits.handedOut hy ?_ (fun {id} hold => ?_) ?_ (fun {h' file'} hgiven _ => ?_) h
  · rw [hnext]
    exact Nat.succ_le_succ hfits.number
  · obtain ⟨hlt, j, hfind⟩ := hold
    refine ⟨hnext.symm ▸ Nat.lt_succ_of_lt hlt, j, (Table.find?_put_of_ne ?_ ..).trans hfind⟩
    rintro rfl
    rw [hid] at hlt
    exact Nat.lt_irrefl _ hlt
  · refine ⟨?_, i, Table.find?_put_self ..⟩
    rw [hid, hnext]
    exact Nat.lt_succ_self _
  · rw [hclosed]
    refine ⟨nofun, ?_⟩
    rintro rfl
    have hlt := (hfits.given hgiven).1.1
    rw [hid] at hlt
    exact absurd hlt (Nat.lt_irrefl _)

/-- An opening is given back. -/
theorem Fits.givenBack (hfits : Fits y given s) {count : Nat}
    (hfind : s.opened.find? file.name = some ⟨file, count + 1⟩) :
    Fits (y.givenBack file.name).tick given { s with
      opened := if count = 0 then s.opened.erase file.name
        else s.opened.put file.name ⟨file, count⟩ } := by
  have hcount : y.openings file.name = count + 1 := hfits.seen.openings_eq hfind
  refine ⟨(hfits.seen.givenBack hfind).tick, Nat.le_succ_of_le hfits.number, hfits.stored,
    fun {other entry} hother => ?_, fun {h' file'} hgiven => ?_⟩
  · split at hother
    · exact hfits.opened (Table.find?_erase_eq_some.1 hother).2
    · rcases Table.find?_put_eq_some.1 hother with ⟨-, rfl⟩ | ⟨-, hold⟩
      · exact (hfits.opened hfind :)
      · exact hfits.opened hold
  · obtain ⟨hremembers, hheld⟩ := hfits.given hgiven
    refine ⟨hremembers, fun hhanded => ?_⟩
    obtain ⟨before, hbefore, rfl⟩ := History.handed_givenBack.1 hhanded
    have hname := hfits.seen.name_eq hgiven hbefore
    by_cases hlast : count = 0
    · -- The file is closed, and all its handles are let go.
      have hone : y.openings file.name ≤ 1 := by
        rw [hcount, hlast]
      rw [if_pos hone, if_pos hlast, Handed.held_letGo, hheld hbefore, hname]
      simp only [Table.find?_erase_eq_some, exists_and_left]
      exact and_comm
    · have hmore : ¬y.openings file.name ≤ 1 := by
        rw [hcount]
        omega
      rw [if_neg hmore, if_neg hlast, hheld hbefore]
      by_cases heq : file'.name = file.name
      · rw [heq, hfind, Table.find?_put_self]
        simp
      · rw [Table.find?_put_of_ne (Ne.symm heq)]

/-- The header of a file without pages is stored again. -/
theorem Fits.flushed (hfits : Fits y given s) (i : Nat) : Fits y given
    { s with images := s.images.modify i (·.writePage 0 FileHeader.fresh.toPage) } := by
  refine ⟨hfits.seen, hfits.number, fun {other j} hfind => ?_, hfits.opened, hfits.given⟩
  obtain ⟨hlt, hstored⟩ := hfits.stored hfind
  rw [image_modify, Array.size_modify]
  refine ⟨hlt, ?_⟩
  split
  · exact hstored.writeHeader.1
  · exact hstored

section Calls

variable (hfits : Fits y given s)
include hfits

theorem Fits.create (name : String) :
    (create name).Ensures s
      (fun _ t => y.making name = .ok () ∧ Fits (y.made name).tick given t)
      (fun e t => y.making name = .error e ∧ t = s) := by
  refine FileName.ensures_check_bind (fun hvalid => ?_) fun hvalid => ?_
  · rw [hfits.seen.making_eq hvalid, ensures_bind, ensures_get]
    cases hnamed : s.named.has name with
    | true => exact ⟨rfl, rfl⟩
    | false =>
      have hput : s.putImage name .fresh = s.made name := by
        unfold putImage
        rw [Table.find?_of_has_eq_false hnamed]
        rfl
      simp only [Bool.false_eq_true, if_false]
      rw [ensures_set, hput]
      exact ⟨trivial, hfits.made hnamed⟩
  · exact ⟨y.making_of_invalid hvalid, rfl⟩

theorem Fits.openFile (hy : y.Regular) (hruns : (openFile name).Runs s) (h : String) :
    (openFile name).Ensures s
      (fun file t => y.opening name = .ok () ∧ file.name = name ∧
        Fits (y.handedOut h name).tick (Function.update given h (some file)) t)
      (fun e t => y.opening name = .error e ∧ t = s) := by
  refine FileName.ensures_check_bind (fun hvalid => ?_) fun hvalid => ?_
  · have hgoes := FileName.runs_of_check hvalid hruns
    unfold Action.Runs OpenTable.reopen? at hgoes
    unfold OpenTable.reopen?
    rw [ensures_bind, ensures_get] at hgoes
    rw [hfits.seen.opening_eq hvalid, ensures_bind, ensures_get]
    cases hopened : s.opened.find? name with
    | some entry =>
      obtain ⟨file, count⟩ := entry
      obtain ⟨rfl, hpos⟩ := hfits.seen.entry hopened
      have hpresent := hy.present (hfits.seen.openings_eq hopened ▸ hpos)
      exact ⟨if_pos ((hfits.seen.has _).trans hpresent), rfl, hfits.reopened hy hopened h⟩
    | none =>
      cases hnamed : s.named.find? name with
      | none =>
        rw [Table.has_of_find?_none hnamed]
        exact ⟨rfl, rfl⟩
      | some i =>
        have hread := (hfits.stored hnamed).2.readHeader_eq name
        simp only [hopened, hnamed, Option.map_none] at hgoes ⊢
        rw [ensures_bind, ensures_ofResult_ok hread] at hgoes ⊢
        have hroom : s.nextId.toNat + 1 < 2 ^ 32 := lt_of_runs_count32 hgoes
        rw [Table.has_of_find? hnamed, ensures_bind, ensures_ofResult_ok (count32_eq_ok hroom)]
        let file : FileHandle := ⟨⟨s.nextId⟩, name⟩
        have hclosed : s.opened.find? file.name = none := hopened
        exact ⟨rfl, rfl, hfits.entered hy hroom hclosed rfl i h⟩
  · exact ⟨y.opening_of_invalid hvalid, rfl⟩

theorem Fits.runs_openFile (hcalls : y.calls + 2 < 2 ^ 32) (name : String) :
    (DiskFiles.openFile name).Runs s := by
  have hroom : s.nextId.toNat + 1 < 2 ^ 32 := by
    have hnumber := hfits.number
    omega
  refine FileName.ensures_check_bind (fun _ => ?_) fun _ => trivial
  unfold OpenTable.reopen?
  rw [ensures_bind, ensures_get]
  cases s.opened.find? name with
  | some entry => trivial
  | none =>
    cases hnamed : s.named.find? name with
    | none => trivial
    | some i =>
      have hread := (hfits.stored hnamed).2.readHeader_eq name
      simp only [Option.map_none]
      rw [ensures_bind, ensures_ofResult_ok hread, ensures_bind,
        ensures_ofResult_ok (count32_eq_ok hroom)]
      trivial

theorem Fits.close (hgiven : given h = some file) (hhanded : y.handed h = some g) :
    (close file).Ensures s
      (fun _ t => g.held = true ∧ Fits (y.givenBack g.name).tick given t)
      (fun e t => g.held = false ∧ e = History.notOpen g.name ∧ t = s) := by
  obtain ⟨⟨-, i, hfiles⟩, hheld⟩ := hfits.given hgiven
  unfold DiskFiles.close
  rw [hfits.seen.name_eq hgiven hhanded, ensures_bind, ensures_get, ensures_bind]
  rcases hfits.seen.release_cases file with ⟨count, last, hfind, hrelease⟩ | ⟨hother, hrelease⟩
  · have hopen := (hheld hhanded).2 ⟨_, hfind⟩
    have hback := hfits.givenBack hfind
    rw [ensures_ofResult_ok hrelease, ensures_bind, ensures_set]
    cases last with
    | false => exact ⟨hopen, hback⟩
    | true => exact .of_run (flushHeader_run hfiles) ⟨hopen, hback.flushed i⟩
  · rw [ensures_ofResult_refuse hrelease]
    refine ⟨Bool.eq_false_iff.2 fun hopen => ?_, rfl, rfl⟩
    obtain ⟨count, hfind⟩ := (hheld hhanded).1 hopen
    exact hother _ hfind rfl

theorem Fits.destroy (name : String) :
    (destroy name).Ensures s
      (fun _ t => y.removing name = .ok () ∧ Fits (y.removed name).tick given t)
      (fun e t => y.removing name = .error e ∧ t = s) := by
  refine FileName.ensures_check_bind (fun hvalid => ?_) fun hvalid => ?_
  · rw [hfits.seen.removing_eq hvalid, ensures_bind, ensures_get]
    cases hopened : s.opened.has name with
    | true => exact ⟨rfl, rfl⟩
    | false =>
      cases s.named.has name with
      | true => exact ⟨rfl, hfits.removed⟩
      | false => exact ⟨rfl, rfl⟩
  · exact ⟨y.removing_of_invalid hvalid, rfl⟩

/-- A text that is no file name is no name of a file. -/
theorem Fits.hasFile (hy : y.Regular) (name : String) :
    (hasFile name).Ensures s (fun found t => found = y.present name ∧ t = s) Never := by
  have hpresent := hfits.seen.has name
  refine ⟨?_, rfl⟩
  rw [hpresent]
  cases hfile : y.present name with
  | true => rw [hy.valid hfile, Bool.and_true]
  | false => exact Bool.and_false _

theorem Fits.pageCount (hgiven : given h = some file) :
    (pageCount file.id).Ensures s (fun count t => count = 1 ∧ t = s) Never := by
  obtain ⟨⟨-, i, hfind⟩, -⟩ := hfits.given hgiven
  have hremembered : openFileOf file.id s = .ok ⟨i, .fresh⟩ s := by
    refine (bind_run_ok rfl _).trans ?_
    simp only [hfind]
    rfl
  unfold DiskFiles.pageCount
  rw [ensures_bind]
  exact .of_run hremembered ⟨rfl, rfl⟩

end Calls

/-- Files in a directory answer by the history, and take back an opening of a file that was held. -/
def chronicle : FileStore.Chronicle DiskFiles where
  fits := Fits
  goes _ g := g.held
  goes_open hy hhanded hheld := (hy.held hhanded hheld).2
  name_eq hfits := hfits.seen.given
  tick := Fits.tick
  runs hfits _ hcalls name := ⟨(hfits.create name).runs, hfits.runs_openFile hcalls name⟩
  create hfits _ _ _ := hfits.create _
  openFile hfits hy _ := hfits.openFile hy
  close hfits _ := hfits.close
  destroy hfits _ := hfits.destroy
  hasFile hfits hy := hfits.hasFile hy
  pageCount hfits := hfits.pageCount

end DiskFiles

end PagedHeap
