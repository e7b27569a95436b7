import PagedHeap.Proofs.Session.Stocking

/-!
# Scans go on after refusals

A scan of a heap file whose pages stay as they are is told to go on, again and again, and is refused
now and then because all frames are in use (`Session.Retrying`).  What it has still to find is a
list (`HeapFile.due`): an answer takes the first record off, and a refusal leaves the list as it is.

There is one exception.  A scan that has looked through the rest of the page of its record, and
finds no frame for the page behind it, has given up the record but not the page
(`Session.Restarts`).  It then finds the records of this page again.  As long as that does not
happen the answers are those of a scan that is never refused (`Session.Retrying.retried`).
-/

namespace PagedHeap

open PagedHeap.Action

open MemoryFiles (law)

namespace Session

variable {capacity : Nat} {s s' : Session MemoryFiles} {heaps : Set FileId} {c : Command}
variable {reply : Reply} {name : String} {scan : Scan} {file : FileId} {header : HeapHeader}

/-- A scan that stood on a record of a page stands on none and goes on from the start of the page.
-/
def Restarts (name : String) (page : PageId) (s s' : Session MemoryFiles) : Prop :=
  ∃ scan scan' rid, s.handles.find? name = some (.scan scan) ∧ scan.heap.record = some rid ∧
    rid.page = page ∧ s'.handles.find? name = some (.scan scan') ∧
    scan'.heap.position = some page ∧ scan'.heap.record = none

/-- A scan goes on from the session `start` while the pages of its file stay as they are; the page
at the start of which it was last sent back by a refusal, if that happened, and the answers that it
has given since. -/
inductive Retrying (name : String) (file : FileId) (start : Session MemoryFiles) :
    Session MemoryFiles → Option PageId → List (Option RecordId) → Prop
  /-- At first there are no answers. -/
  | start : Retrying name file start start none []
  /-- The scan goes on to a record or to the end. -/
  | answered {s s' : Session MemoryFiles} {since : Option PageId}
      {answers : List (Option RecordId)} {found : Option RecordId} :
      Retrying name file start s since answers →
      Session.step s (.tell name .next) = .ok (.address found, s') →
      Retrying name file start s' since (answers ++ [found])
  /-- The scan is refused. -/
  | refused {s s' : Session MemoryFiles} {since : Option PageId}
      {answers : List (Option RecordId)} {e : StorageError} :
      Retrying name file start s since answers →
      Session.step s (.tell name .next) = .ok (.failed e, s') →
      (∀ page, ¬Restarts name page s s') → Retrying name file start s' since answers
  /-- The scan is refused, and is sent back to the start of the page on which it was. -/
  | restarted {s s' : Session MemoryFiles} {since : Option PageId}
      {answers : List (Option RecordId)} {e : StorageError} {page : PageId} :
      Retrying name file start s since answers →
      Session.step s (.tell name .next) = .ok (.failed e, s') →
      Restarts name page s s' → Retrying name file start s' (some page) []
  /-- Any other command is carried out, or refused, that leaves the pages of the file as they are
  and the scan where it stands. -/
  | other {s s' : Session MemoryFiles} {since : Option PageId}
      {answers : List (Option RecordId)} {c : Command} {reply : Reply} :
      Retrying name file start s since answers → c.HeapLevel →
      (∀ c', c = .tell name c' → c'.Rests) → Session.step s c = .ok (reply, s') → s'.Small →
      law.volume s'.db file = law.volume s.db file → Retrying name file start s' since answers

/-! ## What is still to be found -/

/-- The records of a page and of those behind it that pass a filter, or of all pages. -/
abbrev hitsSince (v : Volume) (chain : List PageId) (filter : Option Filter)
    (since : Option PageId) : List RecordId :=
  v.hits chain filter fun rid => ∀ page ∈ since, page.val.toNat ≤ rid.page.val.toNat

theorem hitsSince_none (v : Volume) (chain : List PageId) (filter : Option Filter) :
    hitsSince v chain filter none =
      (v.listing chain).filter fun rid => (v.record? rid).any (passes filter) := by
  refine List.filter_congr fun rid _ => ?_
  simp

theorem hitsSince_some (v : Volume) (chain : List PageId) (filter : Option Filter)
    (page : PageId) : hitsSince v chain filter (some page) =
      (v.listing chain).filter fun rid => (v.record? rid).any (passes filter) &&
        decide (page.val.toNat ≤ rid.page.val.toNat) := by
  refine List.filter_congr fun rid _ => ?_
  simp

/-- What a scan has still to find are the records behind those that it has answered. -/
structure Resuming (name : String) (scan : Scan) (v : Volume) (s : Session MemoryFiles)
    (since : Option PageId) (answers : List (Option RecordId)) : Prop where
  sound : s.Sound
  small : s.Small
  volume : law.volume s.db scan.heap.file.id = v
  here : ∃ scan', s.handles.find? name = some (.scan scan') ∧ scan'.filter = scan.filter ∧
    scan'.heap.file.id = scan.heap.file.id ∧ scan'.heap.Within v ∧
    scan'.heap.due v scan.filter =
      (hitsSince v v.dataPages scan.filter since).drop answers.length
  given : answers = (List.range answers.length).map
    fun i => (hitsSince v v.dataPages scan.filter since)[i]?

variable {v : Volume} {since : Option PageId} {answers : List (Option RecordId)}

/-- A scan at its start has all records to find. -/
theorem StandsAtStart.resuming (hsound : s.Sound) (hsmall : s.Small)
    (hfind : s.handles.find? name = some (.scan scan)) (hstart : StandsAtStart name s) :
    Resuming name scan (law.volume s.db scan.heap.file.id) s none [] := by
  obtain ⟨header, hv⟩ := hsound.hasHeap hfind rfl
  obtain ⟨_, hfind', hposition, hrecord⟩ := hstart
  cases hfind.symm.trans hfind'
  refine ⟨hsound, hsmall, rfl, ⟨scan, hfind, rfl, rfl, ?_, ?_⟩, rfl⟩
  · refine .page hposition hv.isData_two fun rid hrid => ?_
    cases hrecord.symm.trans hrid
  · refine hv.hits_congr_among fun rid hpass => ?_
    obtain ⟨bytes, hbytes, -⟩ := hpass
    have hdata := Volume.isData_of_record? hbytes
    exact iff_of_true (HeapFile.ahead_of_start hposition hrecord hdata) nofun

/-- A scan that is told to go on stays on its pages, which stay as they are.  It has answered the
first record that it had still to find, or is refused. -/
theorem Resuming.next (h : Resuming name scan v s since answers)
    (hstep : Session.step s (.tell name .next) = .ok (reply, s')) :
    ∃ scan' header, s'.handles.find? name = some (.scan scan') ∧ scan'.filter = scan.filter ∧
      scan'.heap.file.id = scan.heap.file.id ∧ scan'.heap.Within v ∧ v.IsHeap header ∧
      s'.Sound ∧ s'.Small ∧ law.volume s'.db scan.heap.file.id = v ∧
      ∃ left, left = (hitsSince v v.dataPages scan.filter since).drop answers.length ∧
        ((reply = .address left.head? ∧ scan'.heap.due v scan.filter = left.tail) ∨
          (reply = .failed .bufferPoolExhausted ∧
            ((∃ page, Restarts name page s s') ∨ scan'.heap.due v scan.filter = left))) := by
  have hlevel : (Command.tell name .next).HeapLevel := trivial
  have hsound := (follows_step h.sound h.small hlevel hstep).sound
  obtain ⟨scan', hfind, hfilter, hfile, hwithin, hdue⟩ := h.here
  obtain ⟨header, hv⟩ := h.sound.hasHeap hfind rfl
  have hvolume : law.volume s.db scan'.heap.file.id = v := hfile ▸ h.volume
  have hwithin' : scan'.heap.Within (law.volume s.db scan'.heap.file.id) := hvolume.symm ▸ hwithin
  rcases of_step (ensures_next_due h.sound hfind hv hwithin') hstep with
    ⟨t, hstays, rfl, hwithin₁, hreply, hdue₁, -⟩ | ⟨_, rfl, t, hstays, rfl, first, hfirst, hstuck⟩
  · have hsame := PageStore.Reliable.volume_of_same hstays.same
    rw [hvolume, hfilter, hdue] at hreply hdue₁
    rw [hvolume] at hwithin₁ hv
    exact ⟨_, header, Table.find?_put_self .., hfilter, hstays.file ▸ hfile, hwithin₁, hv, hsound,
      fun file => by rw [hsame]; exact h.small file, by rw [hsame, h.volume], _, rfl,
      .inl ⟨hreply, hdue₁⟩⟩
  · have hsame := PageStore.Reliable.volume_of_same hstays.same
    obtain ⟨rfl, hwithin₁, hkept⟩ := hstuck.kept (h.sound.attached hfind rfl) hv hwithin' hfirst
    rw [HeapFile.volume, hvolume] at hwithin₁ hkept
    rw [hvolume] at hv
    refine ⟨_, header, Table.find?_put_self .., hfilter, hstays.file ▸ hfile, hwithin₁, hv, hsound,
      fun file => by rw [hsame]; exact h.small file, by rw [hsame, h.volume], _, rfl,
      .inr ⟨rfl, ?_⟩⟩
    rcases hkept with ⟨rid, hrid, hposition, hnone⟩ | hkept
    · exact .inl ⟨rid.page, scan', _, rid, hfind, hrid, rfl, Table.find?_put_self .., hposition,
        hnone⟩
    · rw [hfilter, hdue] at hkept
      exact .inr hkept

/-- A scan that is told to go on answers the record that it has still to find. -/
theorem Resuming.answered {found : Option RecordId} (h : Resuming name scan v s since answers)
    (hstep : Session.step s (.tell name .next) = .ok (.address found, s')) :
    Resuming name scan v s' since (answers ++ [found]) := by
  obtain ⟨scan', header, hfind, hfilter, hfile, hwithin, -, hsound, hsmall, hvolume, _, rfl,
    ⟨hreply, hdue⟩ | ⟨hreply, -⟩⟩ := h.next hstep
  · cases hreply
    refine ⟨hsound, hsmall, hvolume, ⟨scan', hfind, hfilter, hfile, hwithin, ?_⟩, ?_⟩
    · rw [hdue, List.tail_drop, List.length_append, List.length_singleton]
    · rw [List.length_append, List.length_singleton, List.range_succ, List.map_append, ← h.given,
        List.map_singleton, List.head?_drop]
  · cases hreply

/-- A scan that is refused has still to find what it had to find, or the records from its page on.
-/
theorem Resuming.refused {e : StorageError} (h : Resuming name scan v s since answers)
    (hstep : Session.step s (.tell name .next) = .ok (.failed e, s')) :
    e = .bufferPoolExhausted ∧
      ((∀ page, ¬Restarts name page s s') → Resuming name scan v s' since answers) ∧
      ∀ page, Restarts name page s s' → Resuming name scan v s' (some page) [] := by
  obtain ⟨scan', header, hfind, hfilter, hfile, hwithin, hv, hsound, hsmall, hvolume, _, rfl,
    ⟨hreply, -⟩ | ⟨hreply, hkept⟩⟩ := h.next hstep
  · cases hreply
  · cases hreply
    refine ⟨rfl, fun hnot => ?_, fun page hrestarts => ?_⟩
    · rcases hkept with ⟨page, hrestarts⟩ | hdue
      · exact absurd hrestarts (hnot page)
      · exact ⟨hsound, hsmall, hvolume, ⟨scan', hfind, hfilter, hfile, hwithin, hdue⟩, h.given⟩
    · obtain ⟨-, _, -, -, -, -, hfound, hposition, hrecord⟩ := hrestarts
      cases hfound.symm.trans hfind
      refine ⟨hsound, hsmall, hvolume, ⟨scan', hfind, hfilter, hfile, hwithin, ?_⟩, rfl⟩
      refine hv.hits_congr_among fun rid _ => ?_
      rw [HeapFile.ahead_of_page hposition hrecord]
      simp only [Option.mem_def, Option.some.injEq, forall_eq']

/-- Whatever else is done leaves a scan with what it has still to find. -/
theorem Resuming.other (h : Resuming name scan v s since answers) (hlevel : c.HeapLevel)
    (hrests : ∀ c', c = .tell name c' → c'.Rests) (hstep : Session.step s c = .ok (reply, s'))
    (hsmall : s'.Small)
    (hsame : law.volume s'.db scan.heap.file.id = law.volume s.db scan.heap.file.id) :
    Resuming name scan v s' since answers := by
  have hfollows := follows_step h.sound h.small hlevel hstep
  obtain ⟨scan', hfind, hfilter, hfile, hwithin, hdue⟩ := h.here
  obtain ⟨scan'', hfind', hfilter', hfile', hposition, hrecord⟩ :=
    stands_of_step h.sound h.small hfind hlevel hrests hstep
  refine ⟨hfollows.sound, hsmall, hsame.trans h.volume, ⟨scan'', hfind', hfilter'.trans hfilter,
    hfile' ▸ hfile, hwithin.of_place hposition hrecord, ?_⟩, h.given⟩
  rw [HeapFile.due_of_place hposition hrecord, hdue]

/-- As long as a scan goes on, it has still to find the records behind those that it has
answered. -/
theorem Retrying.resuming {start : Session MemoryFiles} (begins : Begins capacity name start)
    (hfind : start.handles.find? name = some (.scan scan))
    (retrying : Retrying name scan.heap.file.id start s since answers) :
    Resuming name scan (law.volume start.db scan.heap.file.id) s since answers := by
  induction retrying with
  | start =>
    obtain ⟨⟨heaps, run⟩, hstart⟩ := begins.atStart
    exact hstart.resuming run.sound.1 run.sound.2.1 hfind
  | answered _ hstep ih => exact ih.answered hstep
  | refused _ hstep hnot ih => exact (ih.refused hstep).2.1 hnot
  | restarted _ hstep hrestarts ih => exact (ih.refused hstep).2.2 _ hrestarts
  | other _ hlevel hrests hstep hsmall hsame ih =>
    exact ih.other hlevel hrests hstep hsmall hsame

/-- What a scan has answered in spite of refusals on its way from the session `start` to the session
`s`. -/
structure Retried (name : String) (scan : Scan) (start s : Session MemoryFiles)
    (since : Option PageId) (answers : List (Option RecordId)) : Prop where
  /-- A refusal is for want of a frame. -/
  exhausted : ∀ e s', Session.step s (.tell name .next) = .ok (.failed e, s') →
    e = .bufferPoolExhausted
  /-- If no refusal has sent the scan back, its answers are the records that pass the filter, each
  once and in the order of the chain and then of the slots, and then the end of the file. -/
  unbroken : since = none → ∀ header chain,
    HeapHeader.read ((law.volume start.db scan.heap.file.id).page ⟨1⟩) = .ok header →
    (law.volume start.db scan.heap.file.id).IsChain header chain →
    answers = (List.range answers.length).map fun i =>
      (((law.volume start.db scan.heap.file.id).listing chain).filter fun rid =>
        (start.records scan.heap.file.id rid).any (passes scan.filter))[i]?
  /-- If one has sent it back to the start of a page, its answers since then are those of the
  records that are on this page or behind it. -/
  again : ∀ page, since = some page → ∀ header chain,
    HeapHeader.read ((law.volume start.db scan.heap.file.id).page ⟨1⟩) = .ok header →
    (law.volume start.db scan.heap.file.id).IsChain header chain →
    answers = (List.range answers.length).map fun i =>
      (((law.volume start.db scan.heap.file.id).listing chain).filter fun rid =>
        (start.records scan.heap.file.id rid).any (passes scan.filter) &&
          decide (page.val.toNat ≤ rid.page.val.toNat))[i]?

/-- Whichever calls are refused because other handles hold the frames, the others answer what a scan
answers that is never refused, from its start or from the page to which a refusal sent it back. -/
theorem Retrying.retried {start : Session MemoryFiles} (begins : Begins capacity name start)
    (hfind : start.handles.find? name = some (.scan scan))
    (retrying : Retrying name scan.heap.file.id start s since answers) :
    Retried name scan start s since answers := by
  obtain ⟨⟨heaps, run⟩, -⟩ := begins.atStart
  obtain ⟨header, hv⟩ := run.sound.1.hasHeap hfind rfl
  have hresuming := retrying.resuming begins hfind
  have hgiven := hresuming.given
  refine ⟨fun e s' hstep => (hresuming.refused hstep).1, ?_, ?_⟩
  · rintro rfl header' chain hread hchain
    obtain rfl : header' = header := Except.ok.inj (hread.symm.trans hv.header)
    rw [hv.chain_unique hchain]
    rw [hitsSince_none] at hgiven
    exact hgiven
  · rintro page rfl header' chain hread hchain
    obtain rfl : header' = header := Except.ok.inj (hread.symm.trans hv.header)
    rw [hv.chain_unique hchain]
    rw [hitsSince_some] at hgiven
    exact hgiven

/-! ## A scan that is obstructed -/

/-- A scan goes on to the record on the first of two pages.  Then the file is opened again, and
another one, and the scan is refused the second page.  It goes on from the start of the first one
when these handles are closed. -/
structure Obstructed (s s₀ s₁ s₂ s₃ s₄ s₅ s₆ t : Session MemoryFiles) : Prop where
  run : ∃ heaps, Run 4 s heaps
  opened : Session.step s (.openAs "h" (.heap .scan "t")) = .ok (.done, s₀)
  start : ∃ scan, s₀.handles.find? "h" = some (.scan scan) ∧ scan.heap.file.id = ⟨2⟩
  found : Session.step s₀ (.tell "h" .next) = .ok (.address (some ⟨⟨2⟩, 0⟩), s₁)
  again : Session.step s₁ (.openAs "a" (.heap .insert "t")) = .ok (.done, s₂)
  another : Session.step s₂ (.openAs "b" (.heap .insert "u")) = .ok (.done, s₃)
  refused : Session.step s₃ (.tell "h" .next) = .ok (.failed .bufferPoolExhausted, s₄)
  restarts : Restarts "h" ⟨2⟩ s₃ s₄
  closed : Session.step s₄ (.tell "b" .close) = .ok (.done, s₅)
  closedAll : Session.step s₅ (.tell "a" .close) = .ok (.done, s₆)
  goes : Goes "h" s₆ [some ⟨⟨2⟩, 0⟩, some ⟨⟨3⟩, 0⟩, none] t
  small : s₀.Small ∧ s₁.Small ∧ s₂.Small ∧ s₄.Small ∧ s₅.Small
  keeps : KeepsFiles s₁ s₂ ∧ KeepsFiles s₂ s₃ ∧ KeepsFiles s₄ s₅ ∧ KeepsFiles s₅ s₆

/-- A scan is opened on a file of two pages, with nothing else open, and goes on to the record on the
first one. -/
theorem Hosts.exists_first {v w : Volume} {a b : Bytes} (h : Hosts 4 ⟨⟨2⟩, "t"⟩ v s)
    (hother : Hosts 4 ⟨⟨1⟩, "u"⟩ w s) (hnone : s.handles = [])
    (hrows : v.rows = [(⟨⟨2⟩, 0⟩, a), (⟨⟨3⟩, 0⟩, b)]) :
    ∃ s₀ s₁ heap₀ heap, Session.step s (.openAs "h" (.heap .scan "t")) = .ok (.done, s₀) ∧
      s₀.Small ∧ s₀.handles.find? "h" = some (.scan (Scan.start heap₀)) ∧ heap₀.file.id = ⟨2⟩ ∧
      Session.step s₀ (.tell "h" .next) = .ok (.address (some ⟨⟨2⟩, 0⟩), s₁) ∧
      s₁.handles = [("h", .scan ⟨heap, none, none⟩)] ∧
      Hosts 4 ⟨⟨2⟩, "t"⟩ v s₁ ∧ Hosts 4 ⟨⟨1⟩, "u"⟩ w s₁ ∧
      Awaits ⟨⟨2⟩, "t"⟩ v ⟨heap, none, none⟩ [⟨⟨3⟩, 0⟩] ∧
      heap.At (some ⟨2⟩) (some ⟨⟨2⟩, 0⟩) (some ⟨2⟩) := by
  obtain ⟨header, hv⟩ := h.heap
  obtain ⟨db, handles⟩ := s
  obtain rfl : handles = [] := hnone
  obtain ⟨heap₀, db₀, hopen, hfile, hat, hkeeps₀⟩ := h.exists_open "h" rfl
    (fun _ hentry => absurd hentry List.not_mem_nil) (Nat.le_of_ble_eq_true rfl) .scan
  have hlevel₀ : (Command.openAs "h" (.heap .scan "t")).HeapLevel := trivial
  have h₀ := h.keepAll hlevel₀ hopen hkeeps₀
  have hawaits₀ := awaits_start hfile hat hv
  rw [hrows] at hawaits₀
  have hfind : Table.find? [("h", Handle.scan (Scan.start heap₀))] "h" =
    some (.scan (Scan.start heap₀)) := rfl
  obtain ⟨t, hnext, hkeeps, hawaits, hat'⟩ :=
    h₀.exists_next hfind hawaits₀ (Nat.le_of_ble_eq_true rfl)
  have hlevel : (Command.tell "h" .next).HeapLevel := trivial
  exact ⟨_, _, heap₀, t.heap, hopen, h₀.small, hfind, congrArg FileHandle.id hfile, hnext, rfl,
    h₀.keepAll hlevel hnext hkeeps,
    (hother.keepAll hlevel₀ hopen hkeeps₀).keepAll hlevel hnext hkeeps, hawaits,
    hat' ⟨⟨2⟩, 0⟩ rfl⟩

/-- Beside a scan on the first page of its file, this file and another one are opened for inserting.
-/
theorem Hosts.exists_crowded {v w : Volume} (h : Hosts 4 ⟨⟨2⟩, "t"⟩ v s)
    (hother : Hosts 4 ⟨⟨1⟩, "u"⟩ w s) (hhandles : s.handles = [("h", .scan scan)])
    (hfile : scan.heap.file = ⟨⟨2⟩, "t"⟩) (hpage : scan.heap.currentPage? = some ⟨2⟩) :
    ∃ s₂ s₃ heap₂ heap₃,
      Session.step s (.openAs "a" (.heap .insert "t")) = .ok (.done, s₂) ∧ s₂.Small ∧
      KeepsFiles s s₂ ∧ Session.step s₂ (.openAs "b" (.heap .insert "u")) = .ok (.done, s₃) ∧
      KeepsFiles s₂ s₃ ∧ Hosts 4 ⟨⟨2⟩, "t"⟩ v s₃ ∧
      s₃.handles = [("h", .scan scan), ("a", .inserter heap₂), ("b", .inserter heap₃)] ∧
      heap₂.keys = {⟨⟨2⟩, ⟨1⟩⟩, ⟨⟨2⟩, ⟨2⟩⟩} ∧ heap₃.keys = {⟨⟨1⟩, ⟨1⟩⟩, ⟨⟨1⟩, ⟨2⟩⟩} := by
  obtain ⟨db, handles⟩ := s
  obtain rfl : handles = [("h", .scan scan)] := hhandles
  obtain ⟨heap₂, db₂, hopen₂, hfile₂, hat₂, hkeeps₂⟩ := h.exists_open "a" rfl
    (by
      rintro _ hentry heap hheap -
      obtain rfl := List.mem_singleton.1 hentry
      cases hheap
      exact hfile)
    ((Nat.add_le_add_right (card_keysOf_le _) 2).trans (Nat.le_of_ble_eq_true rfl)) .insert
  have hlevel₂ : (Command.openAs "a" (.heap .insert "t")).HeapLevel := trivial
  have h₂ := h.keepAll hlevel₂ hopen₂ hkeeps₂
  have hother₂ := hother.keepAll hlevel₂ hopen₂ hkeeps₂
  have hkeys : scan.heap.keys = {⟨⟨2⟩, ⟨1⟩⟩, ⟨⟨2⟩, ⟨2⟩⟩} := by
    have hfind : Table.find? [("h", Handle.scan scan)] "h" = some (.scan scan) := rfl
    have hkeys := h.sound.keys_eq hfind rfl hpage
    rwa [hfile] at hkeys
  have hkeys₂ : heap₂.keys = {⟨⟨2⟩, ⟨1⟩⟩, ⟨⟨2⟩, ⟨2⟩⟩} := by
    have hkeys := h₂.sound.keys_eq (Table.find?_put_self ..) rfl hat₂.page
    rwa [hfile₂] at hkeys
  -- The scan and the new handle stand on the same two pages, so that two frames are left.
  have hroom : (scan.heap.keys + (heap₂.keys + 0)).toFinset.card + 2 ≤ 4 := by
    rw [hkeys, hkeys₂]
    decide
  obtain ⟨heap₃, db₃, hopen₃, hfile₃, hat₃, hkeeps₃⟩ := hother₂.exists_open "b" rfl
    (by
      rintro _ hentry heap hheap hname
      rcases List.mem_cons.1 hentry with rfl | hentry
      · cases hheap
        rw [hfile] at hname
        exact absurd hname (by decide)
      · obtain rfl := List.mem_singleton.1 hentry
        cases hheap
        rw [hfile₂] at hname
        exact absurd hname (by decide))
    hroom .insert
  have hlevel₃ : (Command.openAs "b" (.heap .insert "u")).HeapLevel := trivial
  have h₃ := h₂.keepAll hlevel₃ hopen₃ hkeeps₃
  have hkeys₃ : heap₃.keys = {⟨⟨1⟩, ⟨1⟩⟩, ⟨⟨1⟩, ⟨2⟩⟩} := by
    have hkeys := h₃.sound.keys_eq (Table.find?_put_self ..) rfl hat₃.page
    rwa [hfile₃] at hkeys
  exact ⟨_, _, heap₂, heap₃, hopen₂, h₂.small, hkeeps₂, hopen₃, hkeeps₃, h₃, rfl, hkeys₂, hkeys₃⟩

/-- Two handles for inserting beside a scan are closed. -/
theorem Hosts.exists_left {v : Volume} {file : FileHandle} {heap₂ heap₃ : HeapFile}
    (h : Hosts capacity file v s)
    (hhandles : s.handles = [("h", .scan scan), ("a", .inserter heap₂), ("b", .inserter heap₃)]) :
    ∃ s₅ s₆, Session.step s (.tell "b" .close) = .ok (.done, s₅) ∧ s₅.Small ∧ KeepsFiles s s₅ ∧
      Session.step s₅ (.tell "a" .close) = .ok (.done, s₆) ∧ KeepsFiles s₅ s₆ ∧
      Hosts capacity file v s₆ ∧ s₆.handles = [("h", .scan scan)] := by
  obtain ⟨db, handles⟩ := s
  obtain rfl : handles = [("h", .scan scan), ("a", .inserter heap₂), ("b", .inserter heap₃)] :=
    hhandles
  have hlevel (name : String) : (Command.tell name .close).HeapLevel := trivial
  have hfind : Table.find? [("h", Handle.scan scan), ("a", .inserter heap₂),
    ("b", .inserter heap₃)] "b" = some (.inserter heap₃) := rfl
  obtain ⟨db₅, hclose, hvolume, hnamed⟩ := exists_close_inserter h.sound h.inAccount hfind
  have h₅ := h.keepAll (hlevel "b") hclose ⟨hvolume, hnamed⟩
  have hfind₅ : Table.find? [("h", Handle.scan scan), ("a", .inserter heap₂)] "a" =
    some (.inserter heap₂) := rfl
  obtain ⟨db₆, hclose₆, hvolume₆, hnamed₆⟩ := exists_close_inserter h₅.sound h₅.inAccount hfind₅
  exact ⟨_, _, hclose, h₅.small, ⟨hvolume, hnamed⟩, hclose₆, ⟨hvolume₆, hnamed₆⟩,
    h₅.keepAll (hlevel "a") hclose₆ ⟨hvolume₆, hnamed₆⟩, rfl⟩

/-- With four frames a scan of two pages can be obstructed so. -/
theorem exists_obstructed {v w : Volume} {a b : Bytes} (h : Hosts 4 ⟨⟨2⟩, "t"⟩ v s)
    (hother : Hosts 4 ⟨⟨1⟩, "u"⟩ w s) (hnone : s.handles = [])
    (hrows : v.rows = [(⟨⟨2⟩, 0⟩, a), (⟨⟨3⟩, 0⟩, b)]) :
    ∃ s₀ s₁ s₂ s₃ s₄ s₅ s₆ t, Obstructed s s₀ s₁ s₂ s₃ s₄ s₅ s₆ t := by
  obtain ⟨header, hv⟩ := h.heap
  obtain ⟨s₀, s₁, heap₀, heap, hopen₀, hsmall₀, hfind₀, hfile₀, hnext, hhandles₁, h₁, hother₁,
    hawaits, hat⟩ := h.exists_first hother hnone hrows
  obtain ⟨s₂, s₃, heap₂, heap₃, hopen₂, hsmall₂, hkeeps₂, hopen₃, hkeeps₃, h₃, hhandles₃, hkeys₂,
    hkeys₃⟩ := h₁.exists_crowded hother₁ hhandles₁ hawaits.file hat.page
  -- There is no frame for the second page.
  have hfull : 4 < ({⟨⟨2⟩, ⟨1⟩⟩, ⟨⟨2⟩, ⟨3⟩⟩} + (heap₂.keys + (heap₃.keys + 0))).toFinset.card := by
    rw [hkeys₂, hkeys₃]
    decide
  obtain ⟨db₃, handles₃⟩ := s₃
  obtain rfl : handles₃ = [("h", .scan ⟨heap, none, none⟩), ("a", .inserter heap₂),
    ("b", .inserter heap₃)] := hhandles₃
  have hfind₃ : Table.find? [("h", Handle.scan ⟨heap, none, none⟩), ("a", .inserter heap₂),
    ("b", .inserter heap₃)] "h" = some (.scan ⟨heap, none, none⟩) := rfl
  have hat' : heap.At (some (⟨⟨2⟩, 0⟩ : RecordId).page) (some ⟨⟨2⟩, 0⟩) (some ⟨2⟩) := hat
  obtain ⟨t₄, hrefused, hkeeps₄, hfile₄, hat₄⟩ := h₃.exists_restart hfind₃ hawaits hat' rfl hfull
  have hlevel : (Command.tell "h" .next).HeapLevel := trivial
  have h₄ := h₃.keepAll hlevel hrefused hkeeps₄
  -- The other handles are closed, and the scan goes on.
  obtain ⟨s₅, ⟨db₆, handles₆⟩, hclose₅, hsmall₅, hkeeps₅, hclose₆, hkeeps₆, h₆, rfl⟩ :=
    h₄.exists_left rfl
  have hawaits₆ : Awaits ⟨⟨2⟩, "t"⟩ v ⟨t₄.heap, none, none⟩ _ :=
    awaits_of_page hfile₄ rfl hat₄ hv hv.isData_two
  rw [hrows] at hawaits₆
  have hfind₆ : Table.find? [("h", Handle.scan ⟨t₄.heap, none, none⟩)] "h" =
    some (.scan ⟨t₄.heap, none, none⟩) := rfl
  obtain ⟨t, hgoes, -⟩ := h₆.exists_goes hfind₆ hawaits₆ (Nat.le_of_ble_eq_true rfl)
  refine ⟨s₀, s₁, s₂, _, _, s₅, _, t, h.run, hopen₀, ⟨_, hfind₀, hfile₀⟩, hnext, hopen₂, hopen₃,
    hrefused, ?_, hclose₅, hclose₆, hgoes, ⟨hsmall₀, h₁.small, hsmall₂, h₄.small, hsmall₅⟩,
    ⟨hkeeps₂, hkeeps₃, hkeeps₅, hkeeps₆⟩⟩
  exact ⟨_, ⟨t₄.heap, none, none⟩, ⟨⟨2⟩, 0⟩, hfind₃, hat.record, rfl, Table.find?_put_self ..,
    hat₄.position, hat₄.record⟩

/-- A scan that goes on and on gives its answers. -/
theorem Goes.retrying {start t : Session MemoryFiles} {file : FileId} {since : Option PageId}
    {answers given : List (Option RecordId)} (goes : Goes name s answers t)
    (retrying : Retrying name file start s since given) :
    Retrying name file start t since (given ++ answers) := by
  induction goes generalizing given with
  | start => rwa [List.append_nil]
  | next hstep _ _ ih =>
    rw [List.append_cons]
    exact ih (retrying.answered hstep)

/-- A command that keeps the files and is told to no scan is carried out while a scan goes on. -/
theorem Retrying.kept {start : Session MemoryFiles} {file : FileId} {since : Option PageId}
    {answers : List (Option RecordId)} (retrying : Retrying name file start s since answers)
    (hlevel : c.HeapLevel) (hother : ∀ c', c ≠ .tell name c')
    (hstep : Session.step s c = .ok (reply, s')) (hsmall : s.Small) (hkeeps : KeepsFiles s s') :
    Retrying name file start s' since answers :=
  retrying.other hlevel (fun c' heq => absurd heq (hother c')) hstep
    (fun other => by rw [hkeeps.volume]; exact hsmall other) (by rw [hkeeps.volume])

/-- Two heap files are made over a pool with four frames, and two records that do not fit on one
page are packed into the second one.  A scan of it is obstructed. -/
theorem exists_obstructed_made :
    ∃ s s₀ s₁ s₂ s₃ s₄ s₅ s₆ t, Obstructed s s₀ s₁ s₂ s₃ s₄ s₅ s₆ t := by
  have hroom : 2 * 0 + 1 < 4 := by decide
  have hvalid : FileName.isValid "u" = true ∧ FileName.isValid "t" = true := by decide
  have run : Run 4 (start .empty 4) ∅ := .start
  -- The first file stays without records.
  have hnumber : (start MemoryFiles.empty 4).db.files.nextId.toNat + 1 < 2 ^ 32 := by decide
  obtain ⟨db, hmake, hbegun⟩ := run.exists_create hvalid.1 rfl hnumber hroom
  obtain ⟨w, hother, -⟩ := run.exists_hosts hmake
  obtain ⟨heaps, run'⟩ := hother.run
  -- The records are packed into the second one, which is closed then.
  have hnext : db.files.nextId = 2 := hbegun.nextId
  have hfree : db.files.named.has "t" = false := by
    rw [hbegun.named]
    rfl
  have hnumber' : db.files.nextId.toNat + 1 < 2 ^ 32 := by
    rw [hnext]
    decide
  obtain ⟨db', hmake', hbegun'⟩ := run'.exists_create hvalid.2 hfree hnumber' hroom
  obtain ⟨_, hmade, -⟩ := run'.exists_hosts hmake'
  obtain ⟨s, v, heap, hstocked, hpacks⟩ :=
    run'.exists_stocked_pair rfl (Nat.le_refl 4) hmake' "i"
  have hne : (⟨1⟩ : FileId) ≠ ⟨db.files.nextId⟩ := by
    rw [hnext]
    decide
  have hother' := (hother.made hmade.run hbegun').other hstocked.hosts.run hstocked.others hne
  have hosts := hstocked.hosts
  obtain ⟨header, hv⟩ := hosts.heap
  obtain ⟨db'', hclose, hvolume, hnamed⟩ :=
    exists_close_inserter hosts.sound hosts.inAccount (find?_of_alone hstocked.handles)
  have hlevel : (Command.tell "i" .close).HeapLevel := trivial
  have hnone : s.handles.erase "i" = [] := by
    rw [hstocked.handles]
    exact Table.erase_singleton ..
  have hfile : (⟨⟨db.files.nextId⟩, "t"⟩ : FileHandle) = ⟨⟨2⟩, "t"⟩ := by rw [hnext]
  rw [hfile] at hosts
  exact ⟨_, exists_obstructed (hosts.keepAll hlevel hclose ⟨hvolume, hnamed⟩)
    (hother'.keepAll hlevel hclose ⟨hvolume, hnamed⟩) hnone (hpacks.rows_eq hv)⟩

/-- A scan goes on, is refused and sent back to the start of its page while other handles hold the
frames, and answers all records from there on when they are closed. -/
theorem Retrying.retried_obstructed : ∃ start s s' t scan, Begins 4 "h" start ∧
    start.handles.find? "h" = some (.scan scan) ∧ scan.heap.file.id = ⟨2⟩ ∧
    Retrying "h" ⟨2⟩ start s none [some ⟨⟨2⟩, 0⟩] ∧
    Session.step s (.tell "h" .next) = .ok (.failed .bufferPoolExhausted, s') ∧
    Restarts "h" ⟨2⟩ s s' ∧ Retrying "h" ⟨2⟩ start s' (some ⟨2⟩) [] ∧
    Retrying "h" ⟨2⟩ start t (some ⟨2⟩) [some ⟨⟨2⟩, 0⟩, some ⟨⟨3⟩, 0⟩, none] ∧
    Retried "h" scan start t (some ⟨2⟩) [some ⟨⟨2⟩, 0⟩, some ⟨⟨3⟩, 0⟩, none] := by
  obtain ⟨s, s₀, s₁, s₂, s₃, s₄, s₅, s₆, t, h⟩ := exists_obstructed_made
  obtain ⟨heaps, run⟩ := h.run
  obtain ⟨hsmall₀, hsmall₁, hsmall₂, hsmall₄, hsmall₅⟩ := h.small
  obtain ⟨hkeeps₂, hkeeps₃, hkeeps₅, hkeeps₆⟩ := h.keeps
  obtain ⟨scan, hfind, hfile⟩ := h.start
  have hbegins : Begins 4 "h" s₀ := .opened run h.opened hsmall₀
  have hagain : (Command.openAs "a" (.heap .insert "t")).HeapLevel := trivial
  have hanother : (Command.openAs "b" (.heap .insert "u")).HeapLevel := trivial
  have hclose (name : String) : (Command.tell name .close).HeapLevel := trivial
  -- The scan answers once, and is refused when the two other handles are open.
  have hfound : Retrying "h" ⟨2⟩ s₀ s₁ none [some ⟨⟨2⟩, 0⟩] := Retrying.start.answered h.found
  have hopened := (hfound.kept hagain nofun h.again hsmall₁ hkeeps₂).kept hanother nofun h.another
    hsmall₂ hkeeps₃
  have hrestarted := hopened.restarted h.refused h.restarts
  -- It goes on when they are closed.
  have hlast := hrestarted.kept (hclose "b")
    (fun _ heq => absurd (Command.tell.inj heq).1 (by decide)) h.closed hsmall₄ hkeeps₅
  have hclosed := hlast.kept (hclose "a")
    (fun _ heq => absurd (Command.tell.inj heq).1 (by decide)) h.closedAll hsmall₅ hkeeps₆
  have hretrying := h.goes.retrying hclosed
  refine ⟨s₀, s₃, s₄, t, scan, hbegins, hfind, hfile, hopened, h.refused, h.restarts, hrestarted,
    hretrying, Retrying.retried hbegins hfind ?_⟩
  rw [hfile]
  exact hretrying

end Session

end PagedHeap
