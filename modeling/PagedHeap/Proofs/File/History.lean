import Mathlib.Logic.Function.Basic
import PagedHeap.File.Store

/-!
# What callers know of files

Callers who make, open, close and remove files by name learn nothing but the answers.  From these
they know which files there are, how often each name was opened and given back, and of each handle
whether its file was open all the time and whether it was never removed (`History`).  What they know
decides whether a file can be made, opened or removed.
-/

namespace PagedHeap

/-- What callers know of a handle of a file. -/
structure Handed where
  /-- The name under which the file was opened. -/
  name : String
  /-- The file was open at all times since. -/
  held : Bool
  /-- The file was not removed since. -/
  kept : Bool

namespace Handed

/-- What is known of the handle after the file of a name was closed. -/
def letGo (name : String) (g : Handed) : Handed :=
  { g with held := g.held && !decide (g.name = name) }

/-- What is known of the handle after the file of a name was removed. -/
def lose (name : String) (g : Handed) : Handed :=
  { g with kept := g.kept && !decide (g.name = name) }

theorem held_letGo {name : String} {g : Handed} :
    (g.letGo name).held = true ↔ g.held = true ∧ g.name ≠ name := by simp [letGo]

theorem kept_lose {name : String} {g : Handed} :
    (g.lose name).kept = true ↔ g.kept = true ∧ g.name ≠ name := by simp [lose]

end Handed

/-- What callers know of the files. -/
structure History where
  /-- The number of calls. -/
  calls : Nat
  /-- The names of the files that there are. -/
  present : String → Bool
  /-- How often a name was opened. -/
  opens : String → Nat
  /-- How often an opening of a name was given back. -/
  closes : String → Nat
  /-- The handles of files. -/
  handed : String → Option Handed

namespace History

/-- Nothing was called yet. -/
def start : History := ⟨0, fun _ => false, fun _ => 0, fun _ => 0, fun _ => none⟩

/-- The number of openings of a name that were not given back. -/
def openings (y : History) (name : String) : Nat := y.opens name - y.closes name

/-- There was one more call. -/
def tick (y : History) : History := { y with calls := y.calls + 1 }

/-- A file was made. -/
def made (y : History) (name : String) : History :=
  { y with present := Function.update y.present name true }

/-- A file was removed. -/
def removed (y : History) (name : String) : History where
  calls := y.calls
  present := Function.update y.present name false
  opens := y.opens
  closes := y.closes
  handed h := (y.handed h).map (Handed.lose name)

/-- A file was opened, under a handle that was free. -/
def handedOut (y : History) (h name : String) : History where
  calls := y.calls
  present := y.present
  opens := Function.update y.opens name (y.opens name + 1)
  closes := y.closes
  handed := Function.update y.handed h (some ⟨name, true, true⟩)

/-- An opening was given back, and with the last one the file was closed. -/
def givenBack (y : History) (name : String) : History where
  calls := y.calls
  present := y.present
  opens := y.opens
  closes := Function.update y.closes name (y.closes name + 1)
  handed h := if y.openings name ≤ 1 then (y.handed h).map (Handed.letGo name) else y.handed h

variable {y : History} {name other h : String} {g : Handed}

theorem present_made (y : History) (name other : String) :
    (y.made name).present other = if other = name then true else y.present other :=
  Function.update_apply ..

theorem present_removed (y : History) (name other : String) :
    (y.removed name).present other = if other = name then false else y.present other :=
  Function.update_apply ..

theorem handed_removed : (y.removed name).handed h = some g ↔
    ∃ before, y.handed h = some before ∧ before.lose name = g := Option.map_eq_some_iff

theorem handed_handedOut (y : History) (h name other : String) : (y.handedOut h name).handed other =
    if other = h then some ⟨name, true, true⟩ else y.handed other := Function.update_apply ..

/-- Only the last opening that is given back makes a difference for the handles. -/
theorem handed_givenBack : (y.givenBack name).handed h = some g ↔
    ∃ before, y.handed h = some before ∧
      (if y.openings name ≤ 1 then before.letGo name else before) = g := by
  unfold givenBack
  simp only
  split
  · exact Option.map_eq_some_iff
  · simp

theorem openings_givenBack (y : History) (name other : String) :
    (y.givenBack name).openings other =
      if other = name then y.openings name - 1 else y.openings other := by
  unfold openings givenBack
  simp only [Function.update_apply]
  split
  · next heq =>
    subst heq
    rfl
  · rfl

/-! ## What can be done -/

/-- A file is made if there is none of its name. -/
def making (y : History) (name : String) : Except StorageError Unit :=
  if FileName.isValid name then
    if y.present name then .error (.fileExists name) else .ok ()
  else .error (.invalidFileName name)

/-- A file is opened if it is there. -/
def opening (y : History) (name : String) : Except StorageError Unit :=
  if FileName.isValid name then
    if y.present name then .ok () else .error (.fileNotFound name)
  else .error (.invalidFileName name)

/-- A file is removed if it is there and not open. -/
def removing (y : History) (name : String) : Except StorageError Unit :=
  if FileName.isValid name then
    if 0 < y.openings name then .error (.fileOpen name)
    else if y.present name then .ok () else .error (.fileNotFound name)
  else .error (.invalidFileName name)

/-! A text that is no file name is refused as such. -/

theorem making_of_invalid (y : History) (hvalid : FileName.isValid name = false) :
    y.making name = .error (.invalidFileName name) := if_neg (Bool.eq_false_iff.1 hvalid)

theorem opening_of_invalid (y : History) (hvalid : FileName.isValid name = false) :
    y.opening name = .error (.invalidFileName name) := if_neg (Bool.eq_false_iff.1 hvalid)

theorem removing_of_invalid (y : History) (hvalid : FileName.isValid name = false) :
    y.removing name = .error (.invalidFileName name) := if_neg (Bool.eq_false_iff.1 hvalid)

/-- What is answered to who gives back an opening of a file through a handle that is no good. -/
def notOpen (name : String) : StorageError := .invalidOperation s!"file {name} is not open"

/-! ## Histories that can be -/

/-- A history that can be. -/
structure Regular (y : History) : Prop where
  closes_le : ∀ name, y.closes name ≤ y.opens name
  present : ∀ {name}, 0 < y.openings name → y.present name = true
  valid : ∀ {name}, y.present name = true → FileName.isValid name = true
  held : ∀ {h g}, y.handed h = some g → g.held = true →
    g.kept = true ∧ 0 < y.openings g.name

theorem regular_start : start.Regular where
  closes_le _ := Nat.le_refl 0
  present := nofun
  valid := nofun
  held := nofun

theorem Regular.openings_handedOut (hy : y.Regular) (h name other : String) :
    (y.handedOut h name).openings other =
      if other = name then y.openings name + 1 else y.openings other := by
  have hle := hy.closes_le name
  unfold openings handedOut
  simp only [Function.update_apply]
  split
  · next heq =>
    subst heq
    omega
  · rfl

theorem Regular.tick (hy : y.Regular) : y.tick.Regular :=
  ⟨hy.closes_le, hy.present, hy.valid, hy.held⟩

theorem Regular.made (hy : y.Regular) (hvalid : FileName.isValid name = true) :
    (y.made name).Regular where
  closes_le := hy.closes_le
  present hpos := by
    rw [present_made, hy.present hpos, ite_self]
  valid hpresent := by
    rw [present_made] at hpresent
    split at hpresent
    · next heq => exact heq.symm ▸ hvalid
    · exact hy.valid hpresent
  held := hy.held

/-- A file that is removed is not open, and so nobody has it open. -/
theorem Regular.removed (hy : y.Regular) (hclosed : y.openings name = 0) :
    (y.removed name).Regular where
  closes_le := hy.closes_le
  present {other} hpos := by
    have hne : other ≠ name := by
      rintro rfl
      exact absurd hclosed (Nat.ne_of_gt hpos)
    rw [present_removed, if_neg hne]
    exact hy.present hpos
  valid hpresent := by
    rw [present_removed] at hpresent
    split at hpresent
    · cases hpresent
    · exact hy.valid hpresent
  held hhanded hheld := by
    obtain ⟨g, hg, rfl⟩ := handed_removed.1 hhanded
    obtain ⟨hkept, hpos⟩ := hy.held hg hheld
    refine ⟨Handed.kept_lose.2 ⟨hkept, ?_⟩, hpos⟩
    rintro rfl
    exact absurd hclosed (Nat.ne_of_gt hpos)

theorem Regular.handedOut (hy : y.Regular) (hpresent : y.present name = true) (h : String) :
    (y.handedOut h name).Regular where
  closes_le other := by
    have hle := hy.closes_le other
    change y.closes other ≤ Function.update y.opens name (y.opens name + 1) other
    rw [Function.update_apply]
    split
    · next heq => exact heq ▸ Nat.le_succ_of_le hle
    · exact hle
  present hpos := by
    rw [hy.openings_handedOut] at hpos
    split at hpos
    · next heq => exact heq.symm ▸ hpresent
    · exact hy.present hpos
  valid := hy.valid
  held hhanded hheld := by
    rw [handed_handedOut] at hhanded
    rw [hy.openings_handedOut]
    split at hhanded
    · cases hhanded
      exact ⟨rfl, by rw [if_pos rfl]; exact Nat.succ_pos _⟩
    · obtain ⟨hkept, hpos⟩ := hy.held hhanded hheld
      refine ⟨hkept, ?_⟩
      split
      · exact Nat.succ_pos _
      · exact hpos

theorem Regular.givenBack (hy : y.Regular) (hpos : 0 < y.openings name) :
    (y.givenBack name).Regular where
  closes_le other := by
    have hle := hy.closes_le other
    change Function.update y.closes name (y.closes name + 1) other ≤ y.opens other
    rw [Function.update_apply]
    split
    · next heq =>
      subst heq
      exact Nat.lt_of_sub_pos hpos
    · exact hle
  present hpos' := by
    rw [openings_givenBack] at hpos'
    split at hpos'
    · next heq => exact heq.symm ▸ hy.present hpos
    · exact hy.present hpos'
  valid := hy.valid
  held hhanded hheld := by
    obtain ⟨before, hbefore, rfl⟩ := handed_givenBack.1 hhanded
    rw [openings_givenBack]
    split at hheld
    · next hlast =>
      obtain ⟨hheld, hne⟩ := Handed.held_letGo.1 hheld
      obtain ⟨hkept, hopen⟩ := hy.held hbefore hheld
      rw [if_pos hlast]
      exact ⟨hkept, by rwa [if_neg (show (before.letGo name).name ≠ name from hne)]⟩
    · next hmore =>
      obtain ⟨hkept, hopen⟩ := hy.held hbefore hheld
      rw [if_neg hmore]
      refine ⟨hkept, ?_⟩
      split
      · omega
      · exact hopen

end History

end PagedHeap
