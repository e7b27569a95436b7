import PagedHeap.Proofs.Session.Directory

/-!
# Directories of heap files, left and entered again

A session over a directory of heap files is in order if its mirror is sound and all its files are
shown as heap files.  Commands on heap files keep it so (`Session.InOrder.step`), for any number of
handles and a pool of any size (`Session.DirectoryRun`).

Whoever closes all handles leaves a directory in which every file has the pages that it was shown
with: a new session on the directory shows the same files (`Session.InOrder.shown_reopened`).
-/

namespace PagedHeap

open PagedHeap.Action

open MemoryFiles (law)

/-- Every file of the directory has a name that is accepted and a header of its own, and is a heap
file. -/
structure Directory.AllHeaps (files : Directory) : Prop where
  names : ∀ name f, files.find? name = some f → FileName.check name = .ok ()
  stored : ∀ name f, files.find? name = some f → ∃ header, f.Stored header
  heaps : ∀ name f, files.find? name = some f → ∃ header, f.volume.IsHeap header

namespace Session

/-- The session over a directory has a sound mirror, and every file has a name that is accepted and
is shown as a heap file. -/
structure InOrder (s : Session DiskFiles) : Prop where
  mirrored : ∃ t, s.Mirrored t ∧ t.Sound
  names : ∀ name, s.db.files.named.has name = true → FileName.check name = .ok ()
  heaps : s.AllHeaps

/-- The sessions over directories of heap files that commands on heap files lead to.  There are
numbers left for files, pages and records, and what cannot be opened or made fails before its file
was opened. -/
inductive DirectoryRun : Session DiskFiles → Prop
  /-- At first nothing is open. -/
  | start {files : Directory} {capacity : Nat} : files.AllHeaps →
      (start (.ofDirectory files) capacity).FewPages →
      DirectoryRun (start (.ofDirectory files) capacity)
  /-- Commands follow one another, whether they are answered or refused. -/
  | step {s s' : Session DiskFiles} {c : Command} {reply : Reply} : DirectoryRun s → c.OnHeaps →
      Session.step s c = .ok (reply, s') → (s.Reaches c → ∀ e, reply ≠ .failed e) → s'.FewPages →
      DirectoryRun s'

/-- Handles of a session are given up one after the other. -/
inductive Closings (s : Session DiskFiles) : Session DiskFiles → Prop
  /-- At first none is. -/
  | start : Closings s s
  /-- A handle is closed or dropped, whether that is answered or refused. -/
  | step {s' s'' : Session DiskFiles} {name : String} {c : HandleCommand} {reply : Reply} :
      Closings s s' → c.Closes → Session.step s' (.tell name c) = .ok (reply, s'') → Closings s s''

/-- Commands on heap files follow one another, and a file is in the directory all the while. -/
inductive Stretch (name : String) (s : Session DiskFiles) : Session DiskFiles → Prop
  /-- At first nothing is done. -/
  | start : Stretch name s s
  /-- One more command is answered or refused. -/
  | step {s' s'' : Session DiskFiles} {c : Command} {reply : Reply} :
      Stretch name s s' → c.OnHeaps →
      Session.step s' c = .ok (reply, s'') → (s'.Reaches c → ∀ e, reply ≠ .failed e) →
      s''.FewPages → s''.db.files.named.has name = true → Stretch name s s''

/-- A new session on the directory that a session has left. -/
def reopened (s : Session DiskFiles) (capacity : Nat) : Session DiskFiles :=
  start (.ofDirectory s.db.files.directory) capacity

variable {s s' : Session DiskFiles} {t t' : Session MemoryFiles} {c : Command} {reply : Reply}
variable {files : Directory} {capacity : Nat}

/-! ## One command -/

/-- A step over a directory is one over its mirror. -/
theorem exists_step_of_agrees {exact : Prop}
    {ok : Reply → Session DiskFiles → Session MemoryFiles → Prop}
    {refused : StorageError → Session DiskFiles → Session MemoryFiles → Prop}
    (h : Agrees exact (perform c) (perform c) s t ok refused)
    (hstep : Session.step s c = .ok (reply, s')) :
    ∃ t', Session.step t c = .ok (reply, t') ∧
      (ok reply s' t' ∨ ∃ e, reply = .failed e ∧ refused e s' t') := by
  rcases run_of_step hstep with hrun | ⟨e, rfl, hrun⟩
  · obtain ⟨t', hrun', hpost⟩ := h.of_ok hrun
    exact ⟨t', step_of_ok hrun', .inl hpost⟩
  · obtain ⟨t', hrun', hpost⟩ := h.of_error hrun
    exact ⟨t', step_of_refused hrun', .inr ⟨e, rfl, hpost⟩⟩

/-- The mirror for a name is sound and small. -/
theorem InOrder.sound_mirror (h : s.InOrder) (hfew : s.FewPages) (title : String) :
    s.Mirrored (s.mirror title) ∧ (s.mirror title).Sound ∧ (s.mirror title).Small := by
  obtain ⟨t, hmirrored, hsound⟩ := h.mirrored
  exact ⟨hmirrored.mirror title, hmirrored.sound_mirror hsound h.heaps hfew.numbers title,
    hmirrored.small_mirror hfew title⟩

/-- Wherever a command leads, all files are shown as heap files. -/
theorem Leads.allHeaps (hleads : Leads s c reply s' t') (h : s.Mirrored t) (hsound : t.Sound)
    (hheaps : s.AllHeaps) (hfollows : Follows t c reply t')
    (hnext : s.db.files.named.has c.title = false → t.db.files.nextId = s.db.files.nextId) :
    s'.AllHeaps := by
  intro name v hshown
  cases hopened : s'.db.files.opened.find? name with
  | some entry =>
    rw [hleads.mirrored.db.shown_of_open hopened] at hshown
    cases hshown
    exact hleads.mirrored.hasHeap hfollows.sound ⟨name, entry, hopened, rfl⟩
  | none =>
    have hclosed := Table.has_of_find?_none hopened
    rcases hleads.settled.shown_of_closed hleads.mirrored.db.pool hclosed hshown with
      ⟨-, hsame⟩ | ⟨file, ⟨entry, hentry, rfl⟩ | ⟨hfree, rfl⟩, rfl⟩
    · exact hheaps name v hsame
    · exact hfollows.heaps _ (h.hasHeap hsound ⟨name, entry, hentry, rfl⟩)
    · rcases hleads.named (Database.has_of_shown hshown) with hold | ⟨rfl, hdone, -⟩
      · rw [hfree] at hold
        cases hold
      · rw [← hnext hfree]
        exact hfollows.made name rfl hdone

/-- A command on heap files leads to a session and to one over its mirror. -/
theorem InOrder.exists_leads (h : s.InOrder) (hfew : s.FewPages) (hlevel : c.OnHeaps)
    (hstep : Session.step s c = .ok (reply, s')) (hreach : s.Reaches c → ∀ e, reply ≠ .failed e) :
    ∃ t', Follows (s.mirror c.title) c reply t' ∧ Leads s c reply s' t' := by
  obtain ⟨hmirrored, hsound, hsmall⟩ := h.sound_mirror hfew c.title
  obtain ⟨t', hstep', hcase⟩ := exists_step_of_agrees (agrees_perform hmirrored hsound hlevel
    (DiskFiles.offers_mirror _ _) DiskFiles.nextId_mirror hfew.numbers) hstep
  refine ⟨t', follows_step hsound hsmall hlevel.heapLevel hstep', ?_⟩
  rcases hcase with hleads | ⟨e, rfl, hleads | hreaches⟩
  · exact hleads
  · exact hleads
  · exact absurd rfl (hreach hreaches e)

/-- A command on heap files leaves the session in order. -/
theorem InOrder.step (h : s.InOrder) (hfew : s.FewPages) (hlevel : c.OnHeaps)
    (hstep : Session.step s c = .ok (reply, s')) (hreach : s.Reaches c → ∀ e, reply ≠ .failed e) :
    s'.InOrder := by
  obtain ⟨hmirrored, hsound, -⟩ := h.sound_mirror hfew c.title
  obtain ⟨t', hfollows, hleads⟩ := h.exists_leads hfew hlevel hstep hreach
  refine ⟨⟨t', hleads.mirrored, hfollows.sound⟩, fun name hname => ?_,
    hleads.allHeaps hmirrored hsound h.heaps hfollows DiskFiles.nextId_mirror⟩
  rcases hleads.named hname with hold | ⟨-, -, hcheck⟩
  · exact h.names name hold
  · exact hcheck

/-- Giving up a handle leaves the session in order and shows nothing else. -/
theorem InOrder.closing (h : s.InOrder) (hfew : s.FewPages) {name : String} {c : HandleCommand}
    (hcloses : c.Closes) (hstep : Session.step s (.tell name c) = .ok (reply, s')) :
    s'.InOrder ∧ s'.FewPages ∧ s'.db.shown = s.db.shown := by
  obtain ⟨hmirrored, hsound, hsmall⟩ := h.sound_mirror hfew ""
  have hlevel : (Command.tell name c).HeapLevel := by
    cases c with
    | close | drop => trivial
    | _ => exact hcloses.elim
  have hagrees : Agrees True _ _ s _ (Forgets s name c) _ :=
    agrees_closing hmirrored hsound name hcloses
  obtain ⟨t', hstep', ⟨hleads, -, hshown, hnext⟩ | ⟨_, _, hfalse⟩⟩ :=
    exists_step_of_agrees hagrees hstep
  · have hfollows := follows_step hsound hsmall hlevel hstep'
    refine ⟨⟨⟨t', hleads.mirrored, hfollows.sound⟩, fun name hname => ?_, fun name v hv => ?_⟩,
      ⟨fun name v hv => ?_, ?_⟩, hshown⟩
    · obtain ⟨v, hv⟩ := Database.exists_shown_of_has hname
      exact h.names name (Database.has_of_shown (hshown ▸ hv))
    · exact h.heaps name v (hshown ▸ hv)
    · exact hfew.files name v (hshown ▸ hv)
    · rw [hnext]
      exact hfew.numbers
  · exact hfalse.elim

/-- Giving up handles leaves the session in order and shows nothing else. -/
theorem InOrder.closings (h : s.InOrder) (hfew : s.FewPages) (hclosings : Closings s s') :
    s'.InOrder ∧ s'.FewPages ∧ s'.db.shown = s.db.shown := by
  induction hclosings with
  | start => exact ⟨h, hfew, rfl⟩
  | step _ hcloses hstep ih =>
    obtain ⟨h₁, hfew₁, hshown₁⟩ := ih
    obtain ⟨h₂, hfew₂, hshown₂⟩ := h₁.closing hfew₁ hcloses hstep
    exact ⟨h₂, hfew₂, hshown₂.trans hshown₁⟩

/-! ## A directory that is entered -/

/-- A new session has given out no number for a file. -/
theorem numbers_start (files : Directory) (capacity : Nat) :
    (start (DiskFiles.ofDirectory files) capacity).db.files.nextId.toNat + 1 < 2 ^ 32 :=
  show (1 : UInt32).toNat + 1 < 2 ^ 32 by decide

/-- A new session shows the files as they are stored. -/
theorem shown_start (files : Directory) (capacity : Nat) (name : String) :
    (start (DiskFiles.ofDirectory files) capacity).db.shown name =
      (files.find? name).map FileImage.volume := by
  rw [Database.shown_of_closed rfl]
  exact congrArg (Option.map FileImage.volume) (DiskFiles.imageNamed?_ofDirectory files name)

/-- A new session on a directory of heap files is in order. -/
theorem inOrder_start (h : files.AllHeaps) (capacity : Nat) :
    (start (DiskFiles.ofDirectory files) capacity).InOrder := by
  have hcoherent := DiskFiles.coherent_ofDirectory h.stored
  have hmirrored : (start (DiskFiles.ofDirectory files) capacity).Mirrored
      ((start (DiskFiles.ofDirectory files) capacity).mirror "") :=
    ⟨⟨hcoherent.beside_mirror "", rfl, nofun, Pool.tracked_empty capacity⟩, rfl,
      OpenTable.tallies_nil⟩
  have hheaps : (start (DiskFiles.ofDirectory files) capacity).AllHeaps := by
    intro name v hshown
    rw [shown_start] at hshown
    obtain ⟨f, hf, rfl⟩ := Option.map_eq_some_iff.1 hshown
    exact h.heaps name f hf
  refine ⟨⟨_, hmirrored, ?_⟩, fun name hname => ?_, hheaps⟩
  rotate_left
  · obtain ⟨i, hi⟩ := Option.isSome_iff_exists.1 hname
    exact h.names name _ (DiskFiles.find?_named_ofDirectory hi).2
  refine (sound_start capacity).refile (fun _ => False) nofun nofun ?_ (hcoherent.booked_mirror "")
    (fun file => hcoherent.fresh_mirror (numbers_start files capacity)) fun file _ => ?_
  · intro file hfile
    cases hfile
  · have hclosed : ¬(start (DiskFiles.ofDirectory files) capacity).db.files.opened.IsOpen file := by
      rintro ⟨name, entry, hnone, -⟩
      cases hnone
    rcases hmirrored.volume_mirror "" hclosed with hshown | hsize
    · exact .inr (hheaps _ _ hshown)
    · exact .inl (.inl (hsize.trans_le (Nat.zero_le 1)))

/-- Wherever commands lead, the session is in order. -/
theorem DirectoryRun.inOrder (run : DirectoryRun s) : s.InOrder ∧ s.FewPages := by
  induction run with
  | start hheaps hfew => exact ⟨inOrder_start hheaps _, hfew⟩
  | step _ hlevel hstep hreach hfew ih => exact ⟨ih.1.step ih.2 hlevel hstep hreach, hfew⟩

/-! ## A directory that is left -/

/-- If no handle is open, a new session on the directory shows the same files. -/
theorem InOrder.shown_reopened (h : s.InOrder) (hdone : s.handles = []) (capacity : Nat) :
    (s.reopened capacity).db.shown = s.db.shown := by
  obtain ⟨t, hmirrored, -⟩ := h.mirrored
  have htallies := hmirrored.tallies
  rw [hdone] at htallies
  have hopened : s.db.files.opened = [] := htallies.eq_nil
  funext name
  unfold reopened
  rw [shown_start, DiskFiles.find?_directory, Database.shown_of_closed]
  rw [hopened]
  rfl

/-- If no handle is open, the directory is one of heap files. -/
theorem InOrder.allHeaps_directory (h : s.InOrder) (hdone : s.handles = []) :
    s.db.files.directory.AllHeaps := by
  obtain ⟨t, hmirrored, -⟩ := h.mirrored
  have hnamed {name : String} {f : FileImage} (hfind : s.db.files.directory.find? name = some f) :
      ∃ i, s.db.files.named.find? name = some i ∧ s.db.files.image i = f := by
    rw [DiskFiles.find?_directory] at hfind
    exact Option.map_eq_some_iff.1 hfind
  refine ⟨fun name f hfind => ?_, fun name f hfind => ?_, fun name f hfind => ?_⟩
  · obtain ⟨i, hi, -⟩ := hnamed hfind
    exact h.names name (Table.has_of_find? hi)
  · obtain ⟨i, hi, rfl⟩ := hnamed hfind
    exact (hmirrored.db.files.coherent.stored hi).2
  · refine h.heaps name _ ?_
    rw [← h.shown_reopened hdone 0]
    unfold reopened
    rw [shown_start, hfind, Option.map_some]

/-- What commands have led to can be left and entered again. -/
theorem DirectoryRun.reopened (run : DirectoryRun s) (hdone : s.handles = []) (capacity : Nat) :
    DirectoryRun (s.reopened capacity) := by
  obtain ⟨h, hfew⟩ := run.inOrder
  refine .start (h.allHeaps_directory hdone) ⟨fun name v hv => ?_, numbers_start _ _⟩
  have hshown := h.shown_reopened hdone capacity
  exact hfew.files name v (hshown ▸ hv)

end Session

end PagedHeap
