import PagedHeap.Proofs.Session.Storing

/-!
# What is on disk when all handles are given up

Pages come into a directory when their frames make room for others, when a handle of their file is
closed and when everything is written back, and the counts of pages come there on ways of their own.
Whichever way they took: as soon as no handle is open, a new session on the directory presents every
heap file with the header, the records and the order of the records that the old one did
(`Session.DirectoryRun.durable`).  Whether a store waits for its device when it writes makes no
difference to what is read back, and the stores here have no such switch.
-/

namespace PagedHeap

namespace Session

variable {s s' : Session DiskFiles}

/-- Once all handles are given up, a new session on the directory shows the files of the old one
with the same pages, and presents them as the old one does. -/
theorem DirectoryRun.durable (run : DirectoryRun s) (hclosings : Closings s s')
    (hdone : s'.handles = []) (capacity : Nat) :
    (s'.reopened capacity).db.shown = s.db.shown ∧
    ∀ name v, s.db.shown name = some v → ∃ header, v.IsHeap header ∧
      ((pinsOf s.handles).card + 2 ≤ s.db.pool.capacity → s.Presents name header v) ∧
      (∀ handle opened heap, s.handles.find? handle = some opened → opened.heap? = some heap →
        heap.file.name = name → s.Recalls handle header v) ∧
      (2 ≤ capacity → (s'.reopened capacity).Presents name header v) := by
  obtain ⟨h, hfew⟩ := run.inOrder
  obtain ⟨h', hfew', hshown'⟩ := h.closings hfew hclosings
  have hsame : (s'.reopened capacity).db.shown = s.db.shown :=
    (h'.shown_reopened hdone capacity).trans hshown'
  refine ⟨hsame, fun name v hshown => ?_⟩
  obtain ⟨header, hv⟩ := h.heaps name v hshown
  refine ⟨header, hv, fun hroom => h.presents hfew hroom hshown hv, ?_, fun hroom => ?_⟩
  · rintro handle opened heap hfind hheap rfl
    exact h.recalls hfind hheap hshown hv
  · have hnew : (s'.reopened capacity).InOrder :=
      inOrder_start (h'.allHeaps_directory hdone) capacity
    have hfewNew : (s'.reopened capacity).FewPages :=
      ⟨fun name v hv => hfew.files name v (hsame ▸ hv), numbers_start _ _⟩
    refine hnew.presents hfewNew ?_ (hsame ▸ hshown) hv
    change 0 + 2 ≤ capacity
    omega

/-- Two records are on two pages of a heap file, and the handle through which they were inserted
recalls them.  Once it is given up, a new session with two frames presents them. -/
theorem DirectoryRun.durable_stocked : ∃ s s' heap header v, DirectoryRun s ∧
    s.handles = [("i", .inserter heap)] ∧ Closings s s' ∧ s'.handles = [] ∧
    s.db.shown "t" = some v ∧ v.dataPages = [⟨2⟩, ⟨3⟩] ∧
    v.rows = [(⟨⟨2⟩, 0⟩, List.replicate 2000 1), (⟨⟨3⟩, 0⟩, List.replicate 3000 2)] ∧
    (s'.reopened 2).db.shown = s.db.shown ∧ s.Recalls "i" header v ∧
    (s'.reopened 2).Presents "t" header v := by
  obtain ⟨_, s, t, heap, -, -, -, -, hstocks⟩ := exists_stocked_directory
  obtain ⟨v, _, hshown, -, hpages, hrows⟩ := hstocks.laid_out
  obtain ⟨h, hfew⟩ := hstocks.run.inOrder
  obtain ⟨s', hclosings, hdone⟩ := h.exists_closings hfew
  obtain ⟨hsame, hall⟩ := DirectoryRun.durable hstocks.run hclosings hdone 2
  obtain ⟨header, -, -, hrecalls, hpresents⟩ := hall _ v hshown
  exact ⟨s, s', heap, header, v, hstocks.run, hstocks.packs.handles, hclosings, hdone, hshown,
    hpages,
    hrows, hsame, hrecalls _ _ _ hstocks.packs.find? rfl hstocks.packs.name,
    hpresents (Nat.le_refl 2)⟩

end Session

end PagedHeap
