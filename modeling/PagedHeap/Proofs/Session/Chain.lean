import PagedHeap.Proofs.Heap.Chain
import PagedHeap.Proofs.Session.Stocking

/-!
# The chains of heap files

After every command, answered or refused, the pages of each heap file form the chain that its header
describes (`Session.Run.chain`).
-/

namespace PagedHeap

open PagedHeap.Action

open MemoryFiles (law)

namespace Session

variable {capacity : Nat} {s : Session MemoryFiles} {heaps : Set FileId} {file : FileId}

/-- At every step, the pages of each heap file that was made form the chain that its header
describes, and there are no others. -/
theorem Run.chain (run : Run capacity s heaps) (hmade : file ∈ heaps) :
    ∃ header chain, HeapHeader.read ((law.volume s.db file).page ⟨1⟩) = .ok header ∧
      (law.volume s.db file).IsChain header chain ∧
      ∃ count, PageStore.pageCount file s.db.files = .ok count s.db.files ∧
        count.toNat = header.pageCount.toNat + 2 := by
  obtain ⟨-, -, hheaps⟩ := run.sound
  obtain ⟨header, hv⟩ := hheaps file hmade
  refine ⟨header, _, hv.header, hv.isChain, UInt32.ofNat (law.volume s.db file).size, ?_, ?_⟩
  · exact Ensures.run_eq ((law.count s.db.files file).mono (fun _ _ hpost => hpost.symm)
      fun _ _ => id)
  · rw [UInt32.toNat_ofNat_of_lt' hv.size_lt, ← hv.pages]

/-- A page was appended to the first one of a heap file for the second of two records.  The handle
through which they were inserted stands on it, and the chain leads to it. -/
theorem Run.chain_stocked : ∃ s heaps heap header, Run 8 s heaps ∧ ⟨1⟩ ∈ heaps ∧
    s.handles = [("i", .inserter heap)] ∧ heap.currentPage? = some ⟨3⟩ ∧
    (law.volume s.db ⟨1⟩).rows =
      [(⟨⟨2⟩, 0⟩, List.replicate 2000 1), (⟨⟨3⟩, 0⟩, List.replicate 3000 2)] ∧
    HeapHeader.read ((law.volume s.db ⟨1⟩).page ⟨1⟩) = .ok header ∧
    (law.volume s.db ⟨1⟩).IsChain header [⟨2⟩, ⟨3⟩] ∧
    ∃ count, PageStore.pageCount ⟨1⟩ s.db.files = .ok count s.db.files ∧ count.toNat = 4 := by
  obtain ⟨_, s, v, heap, -, hstocked, hpacks⟩ := exists_stocked_first
  obtain ⟨heaps, run, hmade⟩ := hstocked.filling.run
  obtain ⟨header, hv⟩ := hstocked.hosts.heap
  obtain rfl : law.volume s.db ⟨1⟩ = v := hstocked.hosts.volume
  obtain ⟨header', chain, hread, hchain, count, hcount, heq⟩ := Run.chain run hmade
  obtain rfl : header' = header := Except.ok.inj (hread.symm.trans hv.header)
  have hpages : (law.volume s.db ⟨1⟩).dataPages = [⟨2⟩, ⟨3⟩] := by
    unfold Volume.dataPages
    rw [hpacks.laid.size]
    rfl
  rw [hv.chain_unique hchain, hpages] at hchain
  have hlength : header'.pageCount.toNat + 2 = 4 := hchain.size.symm.trans hpacks.laid.size
  exact ⟨s, heaps, heap, header', run, hmade, hstocked.handles, hpacks.current, hpacks.rows_eq hv,
    hread, hchain, count, hcount, heq.trans hlength⟩

end Session

end PagedHeap
