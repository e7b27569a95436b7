import PagedHeap.Proofs.Session.Stocking

/-!
# Scans see every record once

Whatever is changed between the steps of a scan, it returns the records that pass its filter in the
order of the chain and each at most once, and it misses none that stays where it is from the start
of the scan to its end (`Session.Scanning.exactly_once`).
-/

namespace PagedHeap

open PagedHeap.Action

open MemoryFiles (law)

namespace Session

variable {capacity : Nat} {s s' s₀ : Session MemoryFiles} {name : String} {scan : Scan}
variable {visited : List (Session MemoryFiles)} {rids : List RecordId}

/-- What a scan has returned on its way to the session `s`, and what it goes on to return. -/
structure ExactlyOnce (name : String) (scan : Scan) (start s : Session MemoryFiles)
    (visited : List (Session MemoryFiles)) (rids : List RecordId) : Prop where
  /-- The pages of the chain stay in the order of their numbers. -/
  ordered : ∀ t ∈ visited, ∃ header chain,
    HeapHeader.read ((law.volume t.db scan.heap.file.id).page ⟨1⟩) = .ok header ∧
      (law.volume t.db scan.heap.file.id).IsChain header chain ∧
      chain.Pairwise fun p q => p.val.toNat < q.val.toNat
  /-- The addresses were returned in the order of the chain and then of the slots, and each once. -/
  increasing : rids.Pairwise RecordId.Before
  /-- What is returned next is there and passes the filter. -/
  live : ∀ rid s', Session.step s (.tell name .next) = .ok (.address (some rid), s') →
    ∃ bytes, s.records scan.heap.file.id rid = some bytes ∧
      s'.records scan.heap.file.id rid = some bytes ∧ passes scan.filter bytes = true
  /-- At the end all that was there all the time and passes the filter has been returned. -/
  complete : ∀ s', Session.step s (.tell name .next) = .ok (.address none, s') → ∀ rid bytes,
    (∀ t ∈ visited, t.records scan.heap.file.id rid = some bytes) →
      passes scan.filter bytes = true → rid ∈ rids
  /-- If nothing changed, what has been returned at the end are all records that pass the filter. -/
  unchanged : ∀ s', Session.step s (.tell name .next) = .ok (.address none, s') →
    (∀ t ∈ visited, t.records scan.heap.file.id = start.records scan.heap.file.id) →
    ∀ header chain,
      HeapHeader.read ((law.volume start.db scan.heap.file.id).page ⟨1⟩) = .ok header →
      (law.volume start.db scan.heap.file.id).IsChain header chain →
      rids = ((law.volume start.db scan.heap.file.id).listing chain).filter fun rid =>
        (start.records scan.heap.file.id rid).any (passes scan.filter)
  /-- No more pages are looked at than the header counts. -/
  bounded : ∀ scan' header, s.handles.find? name = some (.scan scan') →
    HeapHeader.read ((law.volume s.db scan.heap.file.id).page ⟨1⟩) = .ok header →
    HeapFile.scanNext scan'.filter ⟨s.db, scan'.heap⟩ =
      HeapFile.scanChain scan'.filter header.pageCount.toNat scan'.heap.position ⟨s.db, scan'.heap⟩

/-- At the end of a scan no record ahead passes the filter. -/
theorem OnTheWay.atEnd {file : FileId} {filter : Option Filter}
    (h : OnTheWay name file filter s visited rids)
    (hstep : Session.step s (.tell name .next) = .ok (.address none, s')) :
    ∃ ahead, Progress file filter visited rids ahead ∧
      (law.volume s.db file).Finds filter ahead none := by
  obtain ⟨scan, hfind, rfl, rfl, hprogress⟩ := h.scan
  rcases of_step (ensures_next h.sound hfind) hstep with
    ⟨found, scan', heq, -, -, -, hfinds, -⟩ | ⟨e, he, -⟩
  · cases heq
    exact ⟨_, hprogress, hfinds⟩
  · cases he

/-- A scan without changes in between has returned all records that pass the filter at its end. -/
theorem Progress.rids_eq {file : FileId} {filter : Option Filter} {ahead : RecordId → Prop}
    {header : HeapHeader} (h : Progress file filter visited rids ahead) (hs : s ∈ visited)
    (hfinds : (law.volume s.db file).Finds filter ahead none)
    (hsame : ∀ t ∈ visited, t.records file = s₀.records file)
    (hv : (law.volume s₀.db file).IsHeap header) :
    rids = ((law.volume s₀.db file).listing (law.volume s₀.db file).dataPages).filter fun rid =>
      (s₀.records file rid).any (passes filter) := by
  refine h.sorted.eq_of_mem_iff (hv.sorted_listing.filter _) fun rid => ?_
  rw [List.mem_filter, hv.mem_listing, Option.any_eq_true]
  constructor
  · intro hrid
    obtain ⟨t, ht, bytes, hbytes, hpass⟩ := h.live rid hrid
    have hlive : s₀.records file rid = some bytes := by
      rw [← hsame t ht]
      exact hbytes
    exact ⟨Option.isSome_iff_exists.2 ⟨bytes, hlive⟩, bytes, hlive, hpass⟩
  · rintro ⟨-, bytes, hlive, hpass⟩
    refine h.complete hs hfinds (fun t ht => ?_) hpass
    rw [hsame t ht]
    exact hlive

/-- Whatever is changed between its steps, a scan returns the records that pass its filter in the
order of the chain, each at most once, and misses none that is there from its start to its end. -/
theorem Scanning.exactly_once (begins : Begins capacity name s₀)
    (hfind : s₀.handles.find? name = some (.scan scan))
    (scanning : Scanning name s₀ s visited rids) :
    ExactlyOnce name scan s₀ s visited rids := by
  have hway := scanning.onTheWay begins hfind
  obtain ⟨⟨heaps, run⟩, -⟩ := begins.atStart
  refine ⟨fun t ht => ?_, ?_, fun rid s' => hway.live, fun s' hstep => ?_, ?_, ?_⟩
  · obtain ⟨header, hv⟩ := hway.heaps t ht
    exact ⟨header, _, hv.header, hv.isChain, hv.sorted_dataPages⟩
  · obtain ⟨_, -, -, -, hprogress⟩ := hway.scan
    exact hprogress.sorted
  · obtain ⟨ahead, hprogress, hfinds⟩ := hway.atEnd hstep
    exact fun rid bytes => hprogress.complete hway.here hfinds
  · intro s' hstep hsame header chain hread hchain
    obtain ⟨ahead, hprogress, hfinds⟩ := hway.atEnd hstep
    obtain ⟨header', hv⟩ := run.sound.1.hasHeap hfind rfl
    obtain rfl : header = header' := Except.ok.inj (hread.symm.trans hv.header)
    rw [hv.chain_unique hchain]
    exact hprogress.rids_eq hway.here hfinds hsame hv
  · intro scan' header hfind' hread
    obtain ⟨scan'', hfind'', -, hfile, -⟩ := hway.scan
    rw [hfind''] at hfind'
    cases hfind'
    obtain ⟨header', hv⟩ := hway.sound.hasHeap hfind'' rfl
    rw [← hfile] at hread
    obtain rfl : header = header' := Except.ok.inj (hread.symm.trans hv.header)
    exact HeapFile.scanNext_eq_scanChain _ (hway.sound.attached hfind'' rfl) hv

/-- A command that leaves a scan where it stands is told to the handle of that scan or to another
one.
-/
theorem rests_of_told (c : HandleCommand) (hrests : c.Rests) (other : String) (c' : HandleCommand)
    (htold : Command.tell other c = .tell name c') : c'.Rests := by
  obtain ⟨-, rfl⟩ := Command.tell.inj htold
  exact hrests

/-- A scan that is disturbed has found one record. -/
theorem Disturbed.scanning {file : FileHandle} {a b c : Bytes} {s₁ s₂ s₃ s₄ : Session MemoryFiles}
    (h : Disturbed file a b c s s₀ s₁ s₂ s₃ s₄) :
    Scanning "h" s₀ s₄ [s₄, s₃, s₂, s₁, s₀] [⟨⟨2⟩, 0⟩] := by
  obtain ⟨-, hsmall₁, hsmall₂, hsmall₃, hsmall₄⟩ := h.small
  have hmark : (Command.tell "h" .mark).HeapLevel := trivial
  have hinsert : (Command.tell "i" (.insert c)).HeapLevel := trivial
  have hdelete : (Command.tell "h" .delete).HeapLevel := trivial
  have hfound : Scanning "h" s₀ s₁ [s₁, s₀] [⟨⟨2⟩, 0⟩] := Scanning.start.found h.found hsmall₁
  have hmarked := hfound.other hmark (rests_of_told .mark trivial "h") h.marked hsmall₂
  have hinserted := hmarked.other hinsert (rests_of_told (.insert c) trivial "i") h.inserted hsmall₃
  exact hinserted.other hdelete (rests_of_told .delete trivial "h") h.deleted hsmall₄

/-- Between the first two steps of a scan the record that it has found is deleted, and another one
is inserted behind the others, which it finds as well before it comes to the end. -/
theorem Scanning.exactly_once_disturbed : ∃ s₀ s visited scan, Begins 8 "h" s₀ ∧
    s₀.handles.find? "h" = some (.scan scan) ∧ scan.heap.file.id = ⟨1⟩ ∧
    (law.volume s₀.db ⟨1⟩).rows =
      [(⟨⟨2⟩, 0⟩, List.replicate 2000 1), (⟨⟨3⟩, 0⟩, List.replicate 3000 2)] ∧
    (law.volume s.db ⟨1⟩).rows = [(⟨⟨3⟩, 0⟩, List.replicate 3000 2), (⟨⟨3⟩, 1⟩, [7])] ∧
    Scanning "h" s₀ s visited [⟨⟨2⟩, 0⟩, ⟨⟨3⟩, 0⟩, ⟨⟨3⟩, 1⟩] ∧
    ExactlyOnce "h" scan s₀ s visited [⟨⟨2⟩, 0⟩, ⟨⟨3⟩, 0⟩, ⟨⟨3⟩, 1⟩] := by
  obtain ⟨s, s₀, s₁, s₂, s₃, s₄, hdisturbed⟩ := exists_disturbed_first
  obtain ⟨heaps, run⟩ := hdisturbed.run
  obtain ⟨scan, hfind, hfile, hrows⟩ := hdisturbed.start
  obtain ⟨v, scan₄, h₄, hrows₄, hfind₄, -, hawaits⟩ := hdisturbed.rest
  have hbegins : Begins 8 "h" s₀ := .opened run hdisturbed.opened hdisturbed.small.1
  obtain ⟨t, hgoes, hkeeps⟩ := h₄.exists_goes hfind₄ hawaits (by rw [hdisturbed.length]; decide)
  obtain ⟨visited, hscanning'⟩ := hgoes.exists_scanning hdisturbed.scanning
  refine ⟨s₀, t, visited, scan, hbegins, hfind, by rw [hfile], hrows, ?_, hscanning',
    Scanning.exactly_once hbegins hfind hscanning'⟩
  rw [hkeeps.volume, h₄.volume, hrows₄]

end Session

end PagedHeap
