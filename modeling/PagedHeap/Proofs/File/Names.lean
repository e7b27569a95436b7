import PagedHeap.Proofs.File.Memory

/-!
# Names of files in memory

Opening, closing and removing a file changes what names stand for and what is open, but no page.
Every file that is open has a name (`MemoryFiles.Booked`), so that a new name is never that of an
open file.
-/

namespace PagedHeap

open PagedHeap.Action

namespace MemoryFiles

variable {s t u : MemoryFiles} {name : String}

/-- Every open file has a name. -/
def Booked (s : MemoryFiles) : Prop := ∀ name, s.opened.has name = true → s.named.has name = true

/-- The pages and the numbers of files are as before. -/
structure SamePages (s t : MemoryFiles) : Prop where
  contents : t.contents = s.contents
  nextId : t.nextId = s.nextId

/-- One opening of a file is given back. -/
theorem ensures_close (hs : s.Booked) (file : FileHandle) :
    (close file).Ensures s (fun _ t => SamePages s t ∧ t.Booked) (fun _ t => t = s) := by
  unfold close OpenTable.release
  rw [ensures_bind, ensures_get, ensures_bind]
  cases hfind : s.opened.find? file.name with
  | none => exact rfl
  | some entry =>
    simp only
    split
    · split
      · rw [ensures_ofResult_ok rfl]
        refine ⟨⟨rfl, rfl⟩, fun name hopened => hs name ?_⟩
        rw [Table.has_erase, Bool.and_eq_true] at hopened
        exact hopened.2
      · rw [ensures_ofResult_ok rfl]
        refine ⟨⟨rfl, rfl⟩, fun name hopened => hs name ?_⟩
        rw [Table.has_put, Bool.or_eq_true, decide_eq_true_eq] at hopened
        refine hopened.elim (fun heq => ?_) id
        unfold Table.has
        rw [heq, hfind]
        rfl
    · exact rfl

/-- A file is opened, under the name that it has. -/
theorem ensures_openFile (hs : s.Booked) (name : String) :
    (openFile name).Ensures s
      (fun file t => SamePages s t ∧ t.Booked ∧
        ∀ id, s.opened.has name = false → s.named.find? name = some id → file = ⟨id, name⟩)
      (fun _ t => t = s) := by
  unfold openFile
  rw [ensures_bind]
  rcases FileName.check_cases name with ⟨hcheck, -⟩ | hcheck
  · rw [ensures_ofResult_ok hcheck, ensures_bind, ensures_get]
    unfold OpenTable.reopen?
    cases hopened : s.opened.find? name with
    | some entry =>
      have hhas : s.opened.has name = true := by
        unfold Table.has
        rw [hopened]
        rfl
      refine ⟨⟨rfl, rfl⟩, fun other hother => hs other ?_, fun id hnot => ?_⟩
      · rw [Table.has_put, Bool.or_eq_true, decide_eq_true_eq] at hother
        exact hother.elim (fun heq => heq ▸ hhas) id
      · rw [hhas] at hnot
        cases hnot
    | none =>
      cases hnamed : s.named.find? name with
      | none =>
        exact rfl
      | some id =>
        refine ⟨⟨rfl, rfl⟩, fun other hother => ?_, fun id' _ heq => ?_⟩
        · unfold OpenTable.enter at hother
          rw [Table.has_put, Bool.or_eq_true, decide_eq_true_eq] at hother
          refine hother.elim (fun heq => ?_) (hs other)
          unfold Table.has
          rw [heq, hnamed]
          rfl
        · rw [Option.some.inj heq]
  · rw [ensures_ofResult_refuse hcheck]

/-- A file that is not open is removed; its pages stay. -/
theorem ensures_destroy (hs : s.Booked) (name : String) :
    (destroy name).Ensures s (fun _ t => SamePages s t ∧ t.Booked) (fun _ t => t = s) := by
  unfold destroy
  rw [ensures_bind]
  rcases FileName.check_cases name with ⟨hcheck, -⟩ | hcheck
  · rw [ensures_ofResult_ok hcheck, ensures_bind, ensures_get]
    cases hopened : s.opened.has name with
    | true => exact rfl
    | false =>
      simp only [Bool.false_eq_true, if_false]
      split
      · refine ⟨⟨rfl, rfl⟩, fun other hother => ?_⟩
        rw [Table.has_erase, Bool.and_eq_true]
        refine ⟨?_, hs other hother⟩
        by_contra hne
        have heq : other = name := by simpa using hne
        rw [heq, hopened] at hother
        cases hother
      · exact rfl
  · rw [ensures_ofResult_refuse hcheck]

/-- The store with one more file, which has no pages but its own. -/
def made (s : MemoryFiles) (name : String) : MemoryFiles where
  contents := s.contents.put ⟨s.nextId⟩ #[Block.zero pageSize]
  named := s.named.put name ⟨s.nextId⟩
  opened := s.opened
  nextId := UInt32.ofNat (s.nextId.toNat + 1)

/-- A file is made under a new name. -/
theorem ensures_create (s : MemoryFiles) (name : String) (hroom : s.nextId.toNat + 1 < 2 ^ 32) :
    (create name).Ensures s
      (fun _ t => FileName.isValid name = true ∧ s.named.has name = false ∧ t = s.made name)
      (fun _ t => t = s ∧ (FileName.isValid name = true → s.named.has name = true)) := by
  unfold create
  rw [ensures_bind]
  rcases FileName.check_cases name with ⟨hcheck, hvalid⟩ | hcheck
  · rw [ensures_ofResult_ok hcheck, ensures_bind, ensures_get]
    cases hnamed : s.named.has name with
    | true => exact ⟨rfl, fun _ => rfl⟩
    | false =>
      simp only [Bool.false_eq_true, if_false]
      rw [ensures_bind, ensures_ofResult_ok (count32_eq_ok hroom), ensures_set]
      exact ⟨hvalid, trivial, rfl⟩
  · rw [ensures_ofResult_refuse hcheck]
    refine ⟨rfl, fun hvalid => ?_⟩
    rw [FileName.check_eq_ok hvalid] at hcheck
    cases hcheck

/-- Without a number for it no file is made. -/
theorem fails_create (s : MemoryFiles) (name : String) (hfull : ¬s.nextId.toNat + 1 < 2 ^ 32) :
    (create name).Fails s s := by
  have hcount : count32 (s.nextId.toNat + 1) = .error (.trap .overflow) := if_neg hfull
  unfold create
  rcases FileName.check_cases name with ⟨hcheck, -⟩ | hcheck
  · rw [hcheck]
    refine .of_ok rfl (.of_ok rfl ?_)
    cases hnamed : s.named.has name with
    | true => exact fails_throw _ s
    | false =>
      simp only [Bool.false_eq_true, if_false]
      rw [hcount]
      exact (fails_ofResult _ s).bind
  · rw [hcheck]
    exact (fails_ofResult _ s).bind

theorem booked_made (hs : s.Booked) (name : String) : (s.made name).Booked := by
  intro other hother
  unfold made
  rw [Table.has_put, Bool.or_eq_true]
  exact .inr (hs other hother)

theorem find?_made (s : MemoryFiles) (name : String) :
    (s.made name).named.find? name = some ⟨s.nextId⟩ := Table.find?_put_self _ _ _

/-- The pages of the files when one was made. -/
theorem pages_made (s : MemoryFiles) (name : String) (file : FileId) :
    (s.made name).pages file =
      if file = ⟨s.nextId⟩ then #[Block.zero pageSize] else s.pages file := by
  unfold pages made
  split
  · next heq =>
    rw [heq, Table.find?_put_self]
    rfl
  · next hne => rw [Table.find?_put_of_ne (Ne.symm hne)]

end MemoryFiles

end PagedHeap
