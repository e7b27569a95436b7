import PagedHeap.Proofs.Session.Storing

/-!
# Stored page counts

Every opening of a file that was closed remembers the header of the file anew, and writes it back
when pages are added, when everything is written back and when the last handle is closed.  As long
as what cannot be opened or made fails before its file was opened, the header that is stored is the
one that is remembered, and the number of pages in it never goes down while the file is in the
directory (`Session.DirectoryRun.counts`).
-/

namespace PagedHeap

open PagedHeap.Action

namespace Session

/-- The header that is stored on page zero of a file. -/
def Stores (s : Session DiskFiles) (name : String) (count : FileHeader) : Prop :=
  ∃ f, s.db.files.imageNamed? name = some f ∧ f.readHeader name = .ok count

variable {s s' : Session DiskFiles} {name : String} {c : Command} {reply : Reply}

/-- In a session in order every file stores the number of its pages. -/
theorem InOrder.exists_stores (h : s.InOrder) {i : Nat}
    (hnamed : s.db.files.named.find? name = some i) :
    ∃ count, s.Stores name count ∧ count.pageCount.toNat = (s.db.files.image i).pageCount := by
  obtain ⟨t, hmirrored, -⟩ := h.mirrored
  obtain ⟨-, count, hstored⟩ := hmirrored.db.files.coherent.stored hnamed
  refine ⟨count, ⟨_, ?_, hstored.readHeader_eq name⟩, hstored.pageCount_eq.symm⟩
  unfold DiskFiles.imageNamed?
  rw [hnamed]
  rfl

/-- The number of pages that is stored is the number of pages. -/
theorem InOrder.count_eq (h : s.InOrder) {count : FileHeader} (hstores : s.Stores name count) :
    ∃ i, s.db.files.named.find? name = some i ∧
      count.pageCount.toNat = (s.db.files.image i).pageCount := by
  obtain ⟨f, hf, hread⟩ := hstores
  obtain ⟨i, hi, rfl⟩ := Option.map_eq_some_iff.1 hf
  obtain ⟨count', ⟨f', hf', hread'⟩, hcount⟩ := h.exists_stores hi
  cases hf.symm.trans hf'
  cases hread.symm.trans hread'
  exact ⟨i, hi, hcount⟩

/-- Commands leave a file its image, and no fewer pages. -/
theorem Stretch.grows (stretch : Stretch name s s') (h : s.InOrder) (hfew : s.FewPages) :
    s'.InOrder ∧ s'.FewPages ∧ s.db.files.Grows s'.db.files ∧
      ∀ i, s.db.files.named.find? name = some i → s'.db.files.named.find? name = some i := by
  induction stretch with
  | start => exact ⟨h, hfew, .refl _, fun _ => id⟩
  | step _ hlevel hstep hreach hfew₂ hhas ih =>
    obtain ⟨h₁, hfew₁, hgrows, hkept⟩ := ih
    obtain ⟨t', -, hleads⟩ := h₁.exists_leads hfew₁ hlevel hstep hreach
    exact ⟨h₁.step hfew₁ hlevel hstep hreach, hfew₂, hgrows.trans hleads.grows,
      fun i hi => hleads.kept (hkept i hi) hhas⟩

/-- A file for which no handle stands is not open. -/
theorem InOrder.closed_of_handles (h : s.InOrder) (hnone : ∀ handle opened heap,
      s.handles.find? handle = some opened → opened.heap? = some heap → heap.file.name ≠ name) :
    s.db.files.opened.has name = false := by
  obtain ⟨t, hmirrored, hsound⟩ := h.mirrored
  cases hfind : s.db.files.opened.find? name with
  | none => exact Table.has_of_find?_none hfind
  | some entry =>
    obtain ⟨hname, hpos, hcount⟩ := hmirrored.tallies.counted hfind
    rw [hcount, Multiset.count_pos] at hpos
    have hdistinct := hsound.distinct
    rw [hmirrored.handles] at hdistinct
    obtain ⟨handle, opened, heap, hhandle, hheap, hfile⟩ := exists_of_mem_heldFiles hdistinct hpos
    exact absurd (hfile ▸ hname) (hnone handle opened heap hhandle hheap)

/-- Giving up handles is one way to go on. -/
theorem Stretch.closings {made : Session DiskFiles} (stretch : Stretch name made s)
    (hclosings : Closings s s') (h : s.InOrder) (hfew : s.FewPages)
    (hhas : s.db.files.named.has name = true) : Stretch name made s' := by
  induction hclosings with
  | start => exact stretch
  | @step s₁ s₂ handle c reply hclosings hcloses hstep ih =>
    obtain ⟨h₂, hfew₂, hshown⟩ := h.closings hfew (hclosings.step hcloses hstep)
    have hlevel : (Command.tell handle c).OnHeaps := by
      cases c with
      | close | drop => trivial
      | _ => exact hcloses.elim
    have hhas₂ : s₂.db.files.named.has name = true := by
      obtain ⟨v, hv⟩ := Database.exists_shown_of_has hhas
      exact Database.has_of_shown (hshown ▸ hv)
    exact ih.step hlevel hstep (fun hreaches => hreaches.elim) hfew₂ hhas₂

/-- While a file is in the directory, the number of pages that is stored in it never goes down.
Whenever no handle stands for the file, the pages of its chain have numbers below the one stored. -/
theorem DirectoryRun.counts (run : DirectoryRun s) (stretch : Stretch name s s')
    {count : FileHeader}
    (hstores : s.Stores name count) :
    ∃ count', s'.Stores name count' ∧ count.pageCount.toNat ≤ count'.pageCount.toNat ∧
      ((∀ handle opened heap, s'.handles.find? handle = some opened → opened.heap? = some heap →
          heap.file.name ≠ name) →
        ∃ f header chain, s'.db.files.imageNamed? name = some f ∧
          HeapHeader.read (f.volume.page ⟨1⟩) = .ok header ∧ f.volume.IsChain header chain ∧
          ∀ p ∈ chain, p.val.toNat < count'.pageCount.toNat) := by
  obtain ⟨h, hfew⟩ := run.inOrder
  obtain ⟨h', -, hgrows, hkept⟩ := stretch.grows h hfew
  obtain ⟨i, hi, hcount⟩ := h.count_eq hstores
  obtain ⟨count', hstores', hcount'⟩ := h'.exists_stores (hkept i hi)
  refine ⟨count', hstores', ?_, fun hnone => ?_⟩
  · rw [hcount, hcount']
    exact hgrows i
  · have himage : s'.db.files.imageNamed? name = some (s'.db.files.image i) := by
      unfold DiskFiles.imageNamed?
      rw [hkept i hi]
      rfl
    have hshown := Database.shown_of_closed (h'.closed_of_handles hnone)
    rw [himage, Option.map_some] at hshown
    obtain ⟨header, hv⟩ := h'.heaps name _ hshown
    refine ⟨_, header, _, himage, hv.header, hv.isChain, fun p hp => ?_⟩
    rw [hcount']
    exact (hv.mem_dataPages.1 hp).2

/-- A page was appended to a heap file since it was made, and the only handle was closed.  The
number of pages that is stored has grown from three to four. -/
theorem DirectoryRun.counts_grown : ∃ s s' count count' f header, DirectoryRun s ∧
    Stretch "t" s s' ∧ s'.handles = [] ∧ s.Stores "t" count ∧ count.pageCount = 3 ∧
    s'.Stores "t" count' ∧ count'.pageCount = 4 ∧
    count.pageCount.toNat ≤ count'.pageCount.toNat ∧
    s'.db.files.imageNamed? "t" = some f ∧
    f.volume.rows = [(⟨⟨2⟩, 0⟩, List.replicate 2000 1), (⟨⟨3⟩, 0⟩, List.replicate 3000 2)] ∧
    f.volume.IsChain header [⟨2⟩, ⟨3⟩] ∧
    ∀ p ∈ ([⟨2⟩, ⟨3⟩] : List PageId), p.val.toNat < count'.pageCount.toNat := by
  obtain ⟨s, s₁, t, heap, run, -, hnamed, hpages, hstocks⟩ := exists_stocked_directory
  obtain ⟨v, header, hshown, hv, hdata, hrows⟩ := hstocks.laid_out
  obtain ⟨h₁, hfew₁⟩ := hstocks.run.inOrder
  obtain ⟨s', hclosings, hdone⟩ := h₁.exists_closings hfew₁
  obtain ⟨h', -, hsame⟩ := h₁.closings hfew₁ hclosings
  have stretch := hstocks.stretch.closings hclosings h₁ hfew₁ (Database.has_of_shown hshown)
  have hnobody (handle : String) (opened : Handle) (heap : HeapFile)
      (hfind : s'.handles.find? handle = some opened) (_ : opened.heap? = some heap) :
      heap.file.name ≠ "t" := by
    rw [hdone] at hfind
    cases hfind
  -- The file was made with three pages.
  have hi : s.db.files.named.find? "t" = some 0 := by
    rw [hnamed]
    rfl
  obtain ⟨count, hstores, hcount⟩ := run.inOrder.1.exists_stores hi
  obtain ⟨count', hstores', hle, hchain⟩ := DirectoryRun.counts run stretch hstores
  obtain ⟨f, header', chain, hf, hread, hwalk, hbelow⟩ := hchain hnobody
  -- Its pages are those that were shown before the handle was closed.
  have hclosed := Database.shown_of_closed (h'.closed_of_handles hnobody)
  rw [hf, hsame, hshown] at hclosed
  obtain rfl : v = f.volume := Option.some.inj hclosed
  obtain rfl : header' = header := Except.ok.inj (hread.symm.trans hv.header)
  obtain rfl : chain = [⟨2⟩, ⟨3⟩] := (hv.chain_unique hwalk).trans hdata
  obtain ⟨j, hj, hcount'⟩ := h'.count_eq hstores'
  obtain rfl : s'.db.files.image j = f := by
    unfold DiskFiles.imageNamed? at hf
    rw [hj] at hf
    exact Option.some.inj hf
  have hsize : (s'.db.files.image j).pageCount = 4 := by
    have hlength : 2 = header'.pageCount.toNat := hwalk.length
    exact hwalk.size.trans (by rw [← hlength])
  exact ⟨s, s', count, count', _, header', run, stretch, hdone, hstores,
    UInt32.toNat_inj.1 (hcount.trans hpages), hstores', UInt32.toNat_inj.1 (hcount'.trans hsize),
    hle,
    hf, hrows, hwalk, hbelow⟩

end Session

end PagedHeap
