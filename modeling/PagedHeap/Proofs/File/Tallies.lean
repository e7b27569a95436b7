import Mathlib.Data.Multiset.Count
import PagedHeap.File.Store
import PagedHeap.Proofs.Table

/-!
# The table of open files and those who hold them

Whoever opened a file holds it until the opening is given back.  If the holders are the ones that
the table of open files knows of, it counts them (`OpenTable.Tallies`): a file is open if somebody
holds it, and the last one closes it.
-/

namespace PagedHeap

namespace OpenTable

/-- The file is open under some name. -/
def IsOpen (t : OpenTable) (file : FileId) : Prop :=
  ∃ name entry, t.find? name = some entry ∧ entry.file.id = file

/-- The number of openings of a name that were not given back. -/
def openings (t : OpenTable) (name : String) : Nat := ((t.find? name).map OpenEntry.openings).getD 0

/-- Every file that is held is open, and every file that is open was opened once for each time that
it is held. -/
structure Tallies (t : OpenTable) (held : Multiset FileHandle) : Prop where
  entered : ∀ file ∈ held, ∃ entry, t.find? file.name = some entry ∧ entry.file = file
  counted : ∀ {name entry}, t.find? name = some entry →
    entry.file.name = name ∧ 0 < entry.openings ∧ entry.openings = held.count entry.file

variable {t t' : OpenTable} {held : Multiset FileHandle} {file : FileHandle} {entry : OpenEntry}

/-- At first no file is open. -/
theorem tallies_nil : Tallies [] 0 := ⟨fun _ h => absurd h (Multiset.notMem_zero _), nofun⟩

/-- What is found in the table is all that counts. -/
theorem Tallies.congr (h : t.Tallies held) (hfind : ∀ name, t'.find? name = t.find? name) :
    t'.Tallies held where
  entered file hfile := by
    rw [hfind]
    exact h.entered file hfile
  counted hname := h.counted ((hfind _).symm.trans hname)

/-- Files that are held are open. -/
theorem Tallies.isOpen (h : t.Tallies held) (hfile : file ∈ held) : t.IsOpen file.id := by
  obtain ⟨entry, hfind, rfl⟩ := h.entered file hfile
  exact ⟨_, entry, hfind, rfl⟩

/-- The openings of a name are those of the files of this name that are held. -/
theorem Tallies.openings_eq (h : t.Tallies held) (name : String) :
    t.openings name = held.countP fun file => file.name = name := by
  unfold openings
  cases hfind : t.find? name with
  | none =>
    refine (Multiset.countP_eq_zero.2 fun file hfile hname => ?_).symm
    obtain ⟨entry, hentry, -⟩ := h.entered file hfile
    rw [hname, hfind] at hentry
    cases hentry
  | some entry =>
    obtain ⟨hname, -, hcount⟩ := h.counted hfind
    change entry.openings = _
    rw [hcount]
    refine Multiset.countP_congr rfl fun file hfile => propext ⟨?_, fun hsame => ?_⟩
    · rintro rfl
      exact hname
    · obtain ⟨other, hother, rfl⟩ := h.entered file hfile
      rw [hsame, hfind] at hother
      cases hother
      rfl

/-- If no file is held, none is open. -/
theorem Tallies.eq_nil (h : t.Tallies 0) : t = [] := by
  cases t with
  | nil => rfl
  | cons head rest =>
    obtain ⟨name, entry⟩ := head
    have hfind : Table.find? ((name, entry) :: rest) name = some entry := if_pos rfl
    obtain ⟨-, hpos, hcount⟩ := h.counted hfind
    rw [Multiset.count_zero] at hcount
    omega

/-- A file is opened once more, or for the first time. -/
theorem Tallies.opened (h : t.Tallies held) {count : Nat}
    (hfind : t.find? file.name = some ⟨file, count⟩ ∨ t.find? file.name = none ∧ count = 0) :
    Tallies (t.put file.name ⟨file, count + 1⟩) (file ::ₘ held) where
  entered other hother := by
    by_cases hname : other.name = file.name
    · refine ⟨⟨file, count + 1⟩, hname ▸ Table.find?_put_self _ _ _, ?_⟩
      rcases Multiset.mem_cons.1 hother with rfl | hheld
      · rfl
      · obtain ⟨entry, hentry, rfl⟩ := h.entered other hheld
        rw [hname] at hentry
        rcases hfind with hsome | ⟨hnone, -⟩
        · cases hsome.symm.trans hentry
          rfl
        · cases hnone.symm.trans hentry
    · rcases Multiset.mem_cons.1 hother with rfl | hheld
      · exact absurd rfl hname
      · rw [Table.find?_put_of_ne (Ne.symm hname)]
        exact h.entered other hheld
  counted {name entry} hentry := by
    rcases Table.find?_put_eq_some.1 hentry with ⟨rfl, rfl⟩ | ⟨hne, hold⟩
    · refine ⟨rfl, Nat.succ_pos _, ?_⟩
      rw [Multiset.count_cons_self]
      refine congrArg (· + 1) ?_
      rcases hfind with hsome | ⟨hnone, rfl⟩
      · exact (h.counted hsome).2.2
      · refine (Multiset.count_eq_zero.2 fun hheld => ?_).symm
        obtain ⟨entry, hentry, -⟩ := h.entered file hheld
        cases hnone.symm.trans hentry
    · obtain ⟨hname, hpos, hcount⟩ := h.counted hold
      refine ⟨hname, hpos, ?_⟩
      rw [Multiset.count_cons_of_ne fun heq => hne ?_]
      · exact hcount
      · rw [← heq, hname]

/-- A file that is held has its entry. -/
theorem Tallies.find?_of_mem (h : t.Tallies (file ::ₘ held)) :
    t.find? file.name = some ⟨file, held.count file + 1⟩ := by
  obtain ⟨⟨other, count⟩, hfind, rfl⟩ := h.entered file (Multiset.mem_cons_self _ _)
  have hcount := (h.counted hfind).2.2
  rw [Multiset.count_cons_self] at hcount
  simp only at hcount hfind
  rw [hfind, hcount]

/-- One opening of a file is given back; the last one closes it. -/
theorem Tallies.closed (h : t.Tallies (file ::ₘ held))
    (ht : t' = if held.count file = 0 then t.erase file.name
      else t.put file.name ⟨file, held.count file⟩) : t'.Tallies held := by
  have hentry := h.find?_of_mem
  subst ht
  by_cases hlast : held.count file = 0
  · simp only [hlast, if_true]
    refine ⟨fun other hheld => ?_, fun {name entry} hother => ?_⟩
    · obtain ⟨entry, hother, rfl⟩ := h.entered other (Multiset.mem_cons_of_mem hheld)
      refine ⟨entry, ?_, rfl⟩
      rw [Table.find?_erase_of_ne fun heq => ?_]
      · exact hother
      · rw [← heq, hentry] at hother
        cases hother
        exact Multiset.count_eq_zero.1 hlast hheld
    · rw [Table.find?_erase_eq_some] at hother
      obtain ⟨hne, hold⟩ := hother
      obtain ⟨hname, hpos, hcount⟩ := h.counted hold
      refine ⟨hname, hpos, ?_⟩
      rwa [Multiset.count_cons_of_ne fun heq => hne (by rw [← hname, heq])] at hcount
  · simp only [hlast, if_false]
    refine ⟨fun other hheld => ?_, fun {name entry} hother => ?_⟩
    · obtain ⟨entry, hother, rfl⟩ := h.entered other (Multiset.mem_cons_of_mem hheld)
      by_cases hname : entry.file.name = file.name
      · rw [hname, hentry] at hother
        cases hother
        rw [hname]
        exact ⟨_, Table.find?_put_self _ _ _, rfl⟩
      · exact ⟨entry, (Table.find?_put_of_ne (Ne.symm hname) _ _).trans hother, rfl⟩
    · rw [Table.find?_put_eq_some] at hother
      rcases hother with ⟨rfl, rfl⟩ | ⟨hne, hold⟩
      · exact ⟨rfl, Nat.pos_of_ne_zero hlast, rfl⟩
      · obtain ⟨hname, hpos, hcount⟩ := h.counted hold
        refine ⟨hname, hpos, ?_⟩
        rwa [Multiset.count_cons_of_ne fun heq => hne (by rw [← hname, heq])] at hcount

end OpenTable

end PagedHeap
