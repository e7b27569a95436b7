import PagedHeap.Proofs.File.Books
import PagedHeap.Proofs.File.History

/-!
# Stores answer by the history

A store answers its callers by what they know of the files (`FileStore.Chronicle`), as long as no
pages are added to any of them.  What callers know shows in the names of the store and in its table
of open files (`History.Seen`).  Only through which handles an opening can be given back is for the
store to say.
-/

namespace PagedHeap

open PagedHeap.Action

/-- What follows the check of a name may rely on it. -/
theorem FileName.ensures_check_bind {σ α : Type} {s : σ} {name : String} {f : Unit → Action σ α}
    {ok : α → σ → Prop} {refused : StorageError → σ → Prop}
    (hok : isValid name = true → (f ()).Ensures s ok refused)
    (hrefused : isValid name = false → refused (.invalidFileName name) s) :
    (ofResult (check name) >>= f).Ensures s ok refused := by
  unfold check
  cases hvalid : isValid name with
  | true => exact hok hvalid
  | false => exact hrefused hvalid

/-- An action does not stop. -/
def Action.Runs {σ α : Type} (action : Action σ α) (s : σ) : Prop :=
  action.Ensures s (fun _ _ => True) fun _ _ => True

theorem Action.Ensures.runs {σ α : Type} {action : Action σ α} {s : σ} {ok : α → σ → Prop}
    {refused : StorageError → σ → Prop} (h : action.Ensures s ok refused) : action.Runs s :=
  h.mono (fun _ _ _ => trivial) fun _ _ _ => trivial

theorem FileName.runs_of_check {σ α : Type} {s : σ} {name : String} {f : Unit → Action σ α}
    (hvalid : isValid name = true) (h : (ofResult (check name) >>= f).Runs s) : (f ()).Runs s := by
  rw [check_eq_ok hvalid] at h
  exact h

/-- Whoever counts on has room to count. -/
theorem lt_of_runs_count32 {σ α : Type} {s : σ} {n : Nat} {f : UInt32 → Action σ α}
    (h : (ofResult (count32 n) >>= f).Runs s) : n < 2 ^ 32 := by
  by_contra hfull
  have htrap : count32 n = .error (.trap .overflow) := if_neg hfull
  rw [htrap] at h
  exact h

namespace OpenTable

variable {t : OpenTable} {name other : String} {entry : OpenEntry}

theorem openings_of_find? (h : t.find? name = some entry) : t.openings name = entry.openings := by
  unfold openings
  rw [h]
  rfl

theorem openings_of_none (h : t.find? name = none) : t.openings name = 0 := by
  unfold openings
  rw [h]
  rfl

theorem openings_put (t : OpenTable) (name : String) (entry : OpenEntry) (other : String) :
    openings (t.put name entry) other =
      if other = name then entry.openings else t.openings other := by
  split
  · next heq =>
    subst heq
    exact openings_of_find? (Table.find?_put_self ..)
  · next hne =>
    unfold openings
    rw [Table.find?_put_of_ne (Ne.symm hne)]

theorem openings_erase (t : OpenTable) (name other : String) :
    openings (t.erase name) other = if other = name then 0 else t.openings other := by
  split
  · next heq =>
    subst heq
    exact openings_of_none (Table.find?_erase_self ..)
  · next hne =>
    unfold openings
    rw [Table.find?_erase_of_ne (Ne.symm hne)]

end OpenTable

/-! ## What all stores show -/

/-- The names, the openings and the handles are what callers know. -/
structure History.Seen (y : History) (has : String → Bool) (opened : OpenTable)
    (given : String → Option FileHandle) : Prop where
  has : ∀ name, has name = y.present name
  openings : ∀ name, opened.openings name = y.openings name
  entry : ∀ {name entry}, opened.find? name = some entry →
    entry.file.name = name ∧ 0 < entry.openings
  given : ∀ h, (given h).map FileHandle.name = (y.handed h).map Handed.name

namespace History.Seen

variable {y : History} {has : String → Bool} {opened : OpenTable}
variable {given : String → Option FileHandle} {name h : String} {file : FileHandle}

/-- At first there are no files and no handles. -/
theorem start (hhas : ∀ name, has name = false) : History.start.Seen has [] fun _ => none :=
  ⟨hhas, fun _ => rfl, nofun, fun _ => rfl⟩

theorem openings_eq (hseen : y.Seen has opened given) {entry : OpenEntry}
    (hfind : opened.find? name = some entry) : y.openings name = entry.openings :=
  (hseen.openings name).symm.trans (OpenTable.openings_of_find? hfind)

theorem openings_eq_zero (hseen : y.Seen has opened given) (hfind : opened.find? name = none) :
    y.openings name = 0 := (hseen.openings name).symm.trans (OpenTable.openings_of_none hfind)

/-- A file is open if there are openings of its name. -/
theorem has_iff (hseen : y.Seen has opened given) :
    opened.has name = true ↔ 0 < y.openings name := by
  unfold Table.has
  cases hfind : opened.find? name with
  | none => simp [hseen.openings_eq_zero hfind]
  | some entry => simp [hseen.openings_eq hfind, (hseen.entry hfind).2]

/-- Something is known of every handle. -/
theorem exists_handed (hseen : y.Seen has opened given) (hgiven : given h = some file) :
    ∃ g, y.handed h = some g ∧ g.name = file.name := by
  have hname := hseen.given h
  rw [hgiven] at hname
  exact Option.map_eq_some_iff.1 hname.symm

theorem name_eq (hseen : y.Seen has opened given) (hgiven : given h = some file) {g : Handed}
    (hhanded : y.handed h = some g) : g.name = file.name := by
  obtain ⟨g', hg', hname⟩ := hseen.exists_handed hgiven
  cases hg'.symm.trans hhanded
  exact hname

/-- Through a handle an opening is given back, or its file is not the one that is open. -/
theorem release_cases (hseen : y.Seen has opened given) (file : FileHandle) :
    (∃ count last, opened.find? file.name = some ⟨file, count + 1⟩ ∧
      opened.release file = .ok (last,
        if count = 0 then opened.erase file.name else opened.put file.name ⟨file, count⟩)) ∨
    (∀ entry, opened.find? file.name = some entry → entry.file ≠ file) ∧
      opened.release file = .error (.error (notOpen file.name)) := by
  cases hfind : opened.find? file.name with
  | none =>
    refine .inr ⟨nofun, ?_⟩
    unfold OpenTable.release
    rw [hfind]
    rfl
  | some entry =>
    obtain ⟨⟨id, title⟩, openings⟩ := entry
    obtain ⟨rfl, hpos⟩ := hseen.entry hfind
    obtain ⟨count, rfl⟩ := Nat.exists_eq_succ_of_ne_zero (Nat.ne_of_gt hpos)
    by_cases hid : id = file.id
    · subst hid
      obtain ⟨last, hrelease⟩ := OpenTable.release_eq hfind
      exact .inl ⟨count, last, rfl, hrelease⟩
    · refine .inr ⟨?_, ?_⟩
      · rintro entry ⟨⟩ heq
        exact hid (congrArg FileHandle.id heq)
      · unfold OpenTable.release
        rw [hfind]
        exact if_neg hid

/-! What can be done shows in the names and the table of open files. -/

theorem making_eq (hseen : y.Seen has opened given) (hvalid : FileName.isValid name = true) :
    y.making name = if has name then .error (.fileExists name) else .ok () := by
  unfold making
  rw [if_pos hvalid, hseen.has]

theorem opening_eq (hseen : y.Seen has opened given) (hvalid : FileName.isValid name = true) :
    y.opening name = if has name then .ok () else .error (.fileNotFound name) := by
  unfold opening
  rw [if_pos hvalid, hseen.has]

theorem removing_eq (hseen : y.Seen has opened given) (hvalid : FileName.isValid name = true) :
    y.removing name = if opened.has name then .error (.fileOpen name)
      else if has name then .ok () else .error (.fileNotFound name) := by
  unfold removing
  simp only [hvalid, hseen.has, hseen.has_iff, if_true]

/-! Every answered call changes what all stores show in the same way. -/

theorem tick (hseen : y.Seen has opened given) : y.tick.Seen has opened given :=
  ⟨hseen.has, hseen.openings, hseen.entry, hseen.given⟩

theorem made (hseen : y.Seen has opened given) {has' : String → Bool}
    (hhas : ∀ other, has' other = (decide (other = name) || has other)) :
    (y.made name).Seen has' opened given where
  has other := by
    rw [hhas, hseen.has, present_made]
    by_cases heq : other = name <;> simp [heq]
  openings := hseen.openings
  entry := hseen.entry
  given := hseen.given

theorem removed (hseen : y.Seen has opened given) {has' : String → Bool}
    (hhas : ∀ other, has' other = (!decide (other = name) && has other)) :
    (y.removed name).Seen has' opened given where
  has other := by
    rw [hhas, hseen.has, present_removed]
    by_cases heq : other = name <;> simp [heq]
  openings := hseen.openings
  entry := hseen.entry
  given h := by
    unfold History.removed
    rw [hseen.given, Option.map_map]
    rfl

theorem handedOut (hseen : y.Seen has opened given) (hy : y.Regular) (file : FileHandle)
    (h : String) : (y.handedOut h file.name).Seen has
      (opened.put file.name ⟨file, y.openings file.name + 1⟩)
      (Function.update given h (some file)) where
  has := hseen.has
  openings other := by
    rw [OpenTable.openings_put, hy.openings_handedOut, hseen.openings]
  entry hfind := by
    rcases Table.find?_put_eq_some.1 hfind with ⟨rfl, rfl⟩ | ⟨-, hold⟩
    · exact ⟨rfl, Nat.succ_pos _⟩
    · exact hseen.entry hold
  given other := by
    rw [Function.update_apply, handed_handedOut]
    split
    · rfl
    · exact hseen.given other

theorem givenBack (hseen : y.Seen has opened given) {count : Nat}
    (hfind : opened.find? file.name = some ⟨file, count + 1⟩) :
    (y.givenBack file.name).Seen has
      (if count = 0 then opened.erase file.name else opened.put file.name ⟨file, count⟩)
      given where
  has := hseen.has
  openings other := by
    rw [openings_givenBack, hseen.openings_eq hfind, ← hseen.openings]
    split
    · next hlast =>
      rw [OpenTable.openings_erase, hlast]
      rfl
    · exact OpenTable.openings_put ..
  entry hother := by
    split at hother
    · exact hseen.entry (Table.find?_erase_eq_some.1 hother).2
    · next hmore =>
      rcases Table.find?_put_eq_some.1 hother with ⟨rfl, rfl⟩ | ⟨-, hold⟩
      · exact ⟨rfl, Nat.pos_of_ne_zero hmore⟩
      · exact hseen.entry hold
  given h := by
    rw [hseen.given]
    unfold History.givenBack
    simp only
    split
    · rw [Option.map_map]
      rfl
    · rfl

end History.Seen

/-! ## Stores with histories -/

/-- A store that answers by the history, as long as there are numbers for the files. -/
structure FileStore.Chronicle (σ : Type) [FileStore σ] where
  /-- The history leads to this state, with these files behind the handles. -/
  fits : History → (String → Option FileHandle) → σ → Prop
  /-- The handles through which an opening can be given back. -/
  goes : History → Handed → Bool
  /-- The file behind such a handle is open. -/
  goes_open : ∀ {y : History} {h g}, y.Regular → y.handed h = some g → goes y g = true →
    0 < y.openings g.name
  /-- There is something known of every handle, and nothing of others. -/
  name_eq : ∀ {y given s}, fits y given s →
    ∀ h, (given h).map FileHandle.name = (y.handed h).map Handed.name
  tick : ∀ {y given s}, fits y given s → fits y.tick given s
  /-- There are numbers for as many files as there were calls. -/
  runs : ∀ {y given s}, fits y given s → y.Regular → y.calls + 2 < 2 ^ 32 → ∀ name,
    (FileStore.create name).Runs s ∧ (FileStore.openFile name).Runs s
  create : ∀ {y given s}, fits y given s → y.Regular → ∀ {name}, (FileStore.create name).Runs s →
    (FileStore.create name).Ensures s
      (fun _ t => y.making name = .ok () ∧ fits (y.made name).tick given t)
      (fun e t => y.making name = .error e ∧ t = s)
  openFile : ∀ {y given s}, fits y given s → y.Regular → ∀ {name},
    (FileStore.openFile name).Runs s → ∀ h, (FileStore.openFile name).Ensures s
      (fun file t => y.opening name = .ok () ∧ file.name = name ∧
        fits (y.handedOut h name).tick (Function.update given h (some file)) t)
      (fun e t => y.opening name = .error e ∧ t = s)
  close : ∀ {y given s}, fits y given s → y.Regular → ∀ {h file g}, given h = some file →
    y.handed h = some g → (FileStore.close file).Ensures s
      (fun _ t => goes y g = true ∧ fits (y.givenBack g.name).tick given t)
      (fun e t => goes y g = false ∧ e = History.notOpen g.name ∧ t = s)
  destroy : ∀ {y given s}, fits y given s → y.Regular → ∀ name,
    (FileStore.destroy name).Ensures s
      (fun _ t => y.removing name = .ok () ∧ fits (y.removed name).tick given t)
      (fun e t => y.removing name = .error e ∧ t = s)
  hasFile : ∀ {y given s}, fits y given s → y.Regular → ∀ name,
    (FileStore.hasFile name).Ensures s (fun found t => found = y.present name ∧ t = s) Never
  pageCount : ∀ {y given s}, fits y given s → ∀ {h file}, given h = some file →
    (PageStore.pageCount file.id).Ensures s (fun count t => count = 1 ∧ t = s) Never

end PagedHeap
