import PagedHeap.Proofs.File.Chronicle
import PagedHeap.Proofs.File.Names

/-!
# Files in memory answer by the history

A file gets its number when it is made, and is opened under this number ever after.  So an opening
can be given back through every handle that was opened since, even if the file was closed meanwhile
(`MemoryFiles.chronicle`).
-/

namespace PagedHeap

open PagedHeap.Action

namespace MemoryFiles

/-- A file without pages is there, whether it still has a name or not. -/
def Keeps (s : MemoryFiles) (id : FileId) : Prop :=
  id.val.toNat < s.nextId.toNat ∧ s.contents.find? id = some #[Block.zero pageSize]

/-- The history leads to this state.  A file was kept if its name still stands for it. -/
structure Fits (y : History) (given : String → Option FileHandle) (s : MemoryFiles) : Prop where
  seen : y.Seen s.named.has s.opened given
  number : s.nextId.toNat ≤ y.calls + 1
  named : ∀ {name id}, s.named.find? name = some id → s.Keeps id
  opened : ∀ {name entry}, s.opened.find? name = some entry →
    s.named.find? name = some entry.file.id
  given : ∀ {h file}, given h = some file → s.Keeps file.id ∧
    ∀ {g}, y.handed h = some g → (g.kept = true ↔ s.named.find? file.name = some file.id)

variable {y : History} {given : String → Option FileHandle} {s : MemoryFiles} {name h : String}
variable {file : FileHandle} {g : Handed}

theorem fits_start : Fits .start (fun _ => none) empty :=
  ⟨.start fun _ => rfl, Nat.le_refl 1, nofun, nofun, nofun⟩

theorem Fits.tick (hfits : Fits y given s) : Fits y.tick given s :=
  ⟨hfits.seen.tick, Nat.le_succ_of_le hfits.number, hfits.named, hfits.opened, hfits.given⟩

/-- Files stay when another one is made. -/
theorem Keeps.made (hroom : s.nextId.toNat + 1 < 2 ^ 32) {id : FileId} (hkeeps : s.Keeps id)
    (name : String) : (s.made name).Keeps id := by
  obtain ⟨hlt, hfind⟩ := hkeeps
  refine ⟨?_, ?_⟩
  · unfold MemoryFiles.made
    rw [UInt32.toNat_ofNat_of_lt' hroom]
    exact Nat.lt_succ_of_lt hlt
  · unfold MemoryFiles.made
    rw [Table.find?_put_of_ne]
    · exact hfind
    · rintro rfl
      exact Nat.lt_irrefl _ hlt

theorem Fits.made (hfits : Fits y given s) (hroom : s.nextId.toNat + 1 < 2 ^ 32)
    (hfree : s.named.has name = false) : Fits (y.made name).tick given (s.made name) := by
  have hnone := Table.find?_of_has_eq_false hfree
  have hnext : (s.made name).nextId.toNat = s.nextId.toNat + 1 := UInt32.toNat_ofNat_of_lt' hroom
  refine ⟨?_, ?_, fun {other id} hfind => ?_, fun {other entry} hfind => ?_,
    fun {h file} hgiven => ?_⟩
  · exact (hfits.seen.made fun other => Table.has_put ..).tick
  · rw [hnext]
    exact Nat.succ_le_succ hfits.number
  · rcases Table.find?_put_eq_some.1 hfind with ⟨-, rfl⟩ | ⟨-, hold⟩
    · exact ⟨hnext ▸ Nat.lt_succ_self _, Table.find?_put_self ..⟩
    · exact (hfits.named hold).made hroom name
  · refine Table.find?_put_eq_some.2 (.inr ⟨?_, hfits.opened hfind⟩)
    rintro rfl
    cases hnone.symm.trans (hfits.opened hfind)
  · obtain ⟨hkeeps, hkept⟩ := hfits.given hgiven
    refine ⟨hkeeps.made hroom name, fun hhanded => (hkept hhanded).trans ?_⟩
    -- The new file has a number that no handle has.
    have hne : file.id ≠ ⟨s.nextId⟩ := fun heq => by
      rw [heq] at hkeeps
      exact Nat.lt_irrefl _ hkeeps.1
    refine ⟨fun hold => Table.find?_put_eq_some.2 (.inr ⟨?_, hold⟩), fun hfind => ?_⟩
    · rintro heq
      cases hnone.symm.trans (heq ▸ hold)
    · rcases Table.find?_put_eq_some.1 hfind with ⟨-, hid⟩ | ⟨-, hold⟩
      · exact absurd hid hne
      · exact hold

theorem Fits.removed (hfits : Fits y given s) (hclosed : y.openings name = 0) :
    Fits (y.removed name).tick given { s with named := s.named.erase name } := by
  refine ⟨?_, Nat.le_succ_of_le hfits.number, fun {other id} hfind => ?_,
    fun {other entry} hfind => ?_, fun {h file} hgiven => ?_⟩
  · exact (hfits.seen.removed fun other => Table.has_erase ..).tick
  · exact hfits.named (Table.find?_erase_eq_some.1 hfind).2
  · refine Table.find?_erase_eq_some.2 ⟨?_, hfits.opened hfind⟩
    rintro rfl
    have hpos := (hfits.seen.entry hfind).2
    rw [← hfits.seen.openings_eq hfind, hclosed] at hpos
    cases hpos
  · obtain ⟨hkeeps, hkept⟩ := hfits.given hgiven
    refine ⟨hkeeps, fun hhanded => ?_⟩
    obtain ⟨before, hbefore, rfl⟩ := History.handed_removed.1 hhanded
    rw [Handed.kept_lose, hkept hbefore, hfits.seen.name_eq hgiven hbefore,
      Table.find?_erase_eq_some]
    exact and_comm

/-- A file that is there is opened, for the first time or once more. -/
theorem Fits.handedOut (hfits : Fits y given s) (hy : y.Regular)
    (hnamed : s.named.find? file.name = some file.id) (h : String) :
    Fits (y.handedOut h file.name).tick (Function.update given h (some file))
      { s with opened := s.opened.put file.name ⟨file, y.openings file.name + 1⟩ } := by
  refine ⟨(hfits.seen.handedOut hy file h).tick, Nat.le_succ_of_le hfits.number, hfits.named,
    fun {other entry} hfind => ?_, fun {h' file'} hgiven => ?_⟩
  · rcases Table.find?_put_eq_some.1 hfind with ⟨rfl, rfl⟩ | ⟨-, hold⟩
    · exact hnamed
    · exact hfits.opened hold
  · have hhanded' := History.handed_handedOut y h file.name h'
    rw [Function.update_apply] at hgiven
    split at hgiven
    · next heq =>
      cases hgiven
      refine ⟨hfits.named hnamed, fun hhanded => ?_⟩
      rw [if_pos heq] at hhanded'
      cases hhanded'.symm.trans hhanded
      exact ⟨fun _ => hnamed, fun _ => rfl⟩
    · next hne =>
      obtain ⟨hkeeps, hkept⟩ := hfits.given hgiven
      rw [if_neg hne] at hhanded'
      exact ⟨hkeeps, fun hhanded => hkept (hhanded'.symm.trans hhanded)⟩

/-- An opening is given back. -/
theorem Fits.givenBack (hfits : Fits y given s) {count : Nat}
    (hfind : s.opened.find? file.name = some ⟨file, count + 1⟩) :
    Fits (y.givenBack file.name).tick given { s with
      opened := if count = 0 then s.opened.erase file.name
        else s.opened.put file.name ⟨file, count⟩ } := by
  refine ⟨(hfits.seen.givenBack hfind).tick, Nat.le_succ_of_le hfits.number, hfits.named,
    fun {other entry} hother => ?_, fun {h' file'} hgiven => ?_⟩
  · split at hother
    · exact hfits.opened (Table.find?_erase_eq_some.1 hother).2
    · rcases Table.find?_put_eq_some.1 hother with ⟨rfl, rfl⟩ | ⟨-, hold⟩
      · exact (hfits.opened hfind :)
      · exact hfits.opened hold
  · obtain ⟨hkeeps, hkept⟩ := hfits.given hgiven
    refine ⟨hkeeps, fun hhanded => ?_⟩
    obtain ⟨before, hbefore, rfl⟩ := History.handed_givenBack.1 hhanded
    rw [← hkept hbefore]
    split <;> rfl

/-- An opening is given back through a handle of a file that was kept, if it is open. -/
theorem Fits.goes_iff (hfits : Fits y given s) (hgiven : given h = some file)
    (hhanded : y.handed h = some g) : (g.kept && decide (0 < y.openings g.name)) = true ↔
      ∃ count, s.opened.find? file.name = some ⟨file, count⟩ := by
  rw [Bool.and_eq_true, decide_eq_true_eq, (hfits.given hgiven).2 hhanded,
    hfits.seen.name_eq hgiven hhanded]
  constructor
  · rintro ⟨hnamed, hpos⟩
    obtain ⟨⟨⟨id, title⟩, count⟩, hfind⟩ := Option.isSome_iff_exists.1 (hfits.seen.has_iff.2 hpos)
    obtain ⟨rfl, -⟩ := hfits.seen.entry hfind
    have hid : some id = some file.id := (hfits.opened hfind).symm.trans hnamed
    cases hid
    exact ⟨count, hfind⟩
  · rintro ⟨count, hfind⟩
    exact ⟨hfits.opened hfind, hfits.seen.openings_eq hfind ▸ (hfits.seen.entry hfind).2⟩

section Calls

variable (hfits : Fits y given s)
include hfits

theorem Fits.create (hruns : (create name).Runs s) :
    (create name).Ensures s
      (fun _ t => y.making name = .ok () ∧ Fits (y.made name).tick given t)
      (fun e t => y.making name = .error e ∧ t = s) := by
  refine FileName.ensures_check_bind (fun hvalid => ?_) fun hvalid => ?_
  · have hgoes := FileName.runs_of_check hvalid hruns
    unfold Action.Runs at hgoes
    rw [ensures_bind, ensures_get] at hgoes
    rw [hfits.seen.making_eq hvalid, ensures_bind, ensures_get]
    cases hnamed : s.named.has name with
    | true => exact ⟨rfl, rfl⟩
    | false =>
      simp only [hnamed, Bool.false_eq_true, if_false] at hgoes ⊢
      have hroom : s.nextId.toNat + 1 < 2 ^ 32 := lt_of_runs_count32 hgoes
      rw [ensures_bind, ensures_ofResult_ok (count32_eq_ok hroom), ensures_set]
      exact ⟨trivial, hfits.made hroom hnamed⟩
  · exact ⟨y.making_of_invalid hvalid, rfl⟩

theorem Fits.runs_create (hcalls : y.calls + 2 < 2 ^ 32) (name : String) :
    (MemoryFiles.create name).Runs s := by
  refine (ensures_create s name ?_).runs
  have hnumber := hfits.number
  omega

theorem Fits.openFile (hy : y.Regular) (name h : String) :
    (openFile name).Ensures s
      (fun file t => y.opening name = .ok () ∧ file.name = name ∧
        Fits (y.handedOut h name).tick (Function.update given h (some file)) t)
      (fun e t => y.opening name = .error e ∧ t = s) := by
  refine FileName.ensures_check_bind (fun hvalid => ?_) fun hvalid => ?_
  · rw [hfits.seen.opening_eq hvalid, ensures_bind, ensures_get]
    unfold OpenTable.reopen?
    cases hopened : s.opened.find? name with
    | some entry =>
      obtain ⟨file, count⟩ := entry
      obtain ⟨rfl, -⟩ := hfits.seen.entry hopened
      have hfits' := hfits.handedOut hy (hfits.opened hopened) h
      rw [hfits.seen.openings_eq hopened] at hfits'
      exact ⟨if_pos (Table.has_of_find? (hfits.opened hopened)), rfl, hfits'⟩
    | none =>
      cases hnamed : s.named.find? name with
      | none =>
        rw [Table.has_of_find?_none hnamed]
        exact ⟨rfl, rfl⟩
      | some id =>
        rw [Table.has_of_find? hnamed]
        let file : FileHandle := ⟨id, name⟩
        have hfile : s.named.find? file.name = some file.id := hnamed
        have hfits' := hfits.handedOut hy hfile h
        rw [hfits.seen.openings_eq_zero hopened] at hfits'
        exact ⟨rfl, rfl, hfits'⟩
  · exact ⟨y.opening_of_invalid hvalid, rfl⟩

theorem Fits.close (hgiven : given h = some file) (hhanded : y.handed h = some g) :
    (close file).Ensures s
      (fun _ t => (g.kept && decide (0 < y.openings g.name)) = true ∧
        Fits (y.givenBack g.name).tick given t)
      (fun e t => (g.kept && decide (0 < y.openings g.name)) = false ∧
        e = History.notOpen g.name ∧ t = s) := by
  have hgoes := hfits.goes_iff hgiven hhanded
  unfold MemoryFiles.close
  rw [hfits.seen.name_eq hgiven hhanded] at hgoes ⊢
  rw [ensures_bind, ensures_get, ensures_bind]
  rcases hfits.seen.release_cases file with ⟨count, last, hfind, hrelease⟩ | ⟨hother, hrelease⟩
  · rw [ensures_ofResult_ok hrelease]
    exact ⟨hgoes.2 ⟨_, hfind⟩, hfits.givenBack hfind⟩
  · rw [ensures_ofResult_refuse hrelease]
    refine ⟨Bool.eq_false_iff.2 fun h => ?_, rfl, rfl⟩
    obtain ⟨count, hfind⟩ := hgoes.1 h
    exact hother _ hfind rfl

theorem Fits.destroy (name : String) :
    (destroy name).Ensures s
      (fun _ t => y.removing name = .ok () ∧ Fits (y.removed name).tick given t)
      (fun e t => y.removing name = .error e ∧ t = s) := by
  refine FileName.ensures_check_bind (fun hvalid => ?_) fun hvalid => ?_
  · rw [hfits.seen.removing_eq hvalid, ensures_bind, ensures_get]
    cases hopened : s.opened.has name with
    | true => exact ⟨rfl, rfl⟩
    | false =>
      have hclosed := hfits.seen.openings_eq_zero (Table.find?_of_has_eq_false hopened)
      cases s.named.has name with
      | true => exact ⟨rfl, hfits.removed hclosed⟩
      | false => exact ⟨rfl, rfl⟩
  · exact ⟨y.removing_of_invalid hvalid, rfl⟩

theorem Fits.pageCount (hgiven : given h = some file) :
    (pageCount file.id).Ensures s (fun count t => count = 1 ∧ t = s) Never := by
  obtain ⟨⟨-, hfind⟩, -⟩ := hfits.given hgiven
  have hpages : s.pages file.id = #[Block.zero pageSize] := by
    unfold pages
    rw [hfind]
    rfl
  refine ⟨?_, rfl⟩
  rw [hpages]
  rfl

end Calls

/-- Files in memory answer by the history, and take back an opening of a file that was kept. -/
def chronicle : FileStore.Chronicle MemoryFiles where
  fits := Fits
  goes y g := g.kept && decide (0 < y.openings g.name)
  goes_open _ _ hgoes := of_decide_eq_true (Bool.and_eq_true_iff.1 hgoes).2
  name_eq hfits := hfits.seen.given
  tick := Fits.tick
  runs hfits hy hcalls name := ⟨hfits.runs_create hcalls name, (hfits.openFile hy name name).runs⟩
  create hfits _ := hfits.create
  openFile hfits hy _ _ := hfits.openFile hy _
  close hfits _ := hfits.close
  destroy hfits _ := hfits.destroy
  hasFile hfits _ name := ⟨hfits.seen.has name, rfl⟩
  pageCount hfits := hfits.pageCount

end MemoryFiles

end PagedHeap
