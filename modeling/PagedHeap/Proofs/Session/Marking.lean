import PagedHeap.Proofs.Session.Stocking

/-!
# Scans go back to their marks

A scan that was opened and used is marked, is used again while other handles change the file, and is
then sent back (`Session.GoesBack`).  As long as what is asked of a scan is answered, it is at the
start of the file, at a record or at the end (`ScanMark.Regular`), and such a place is all that a
mark has to remember: the records behind it (`ScanMark.Precedes`) are those that the scan goes on to
find, whatever became of the marked record itself (`Session.GoesBack.resumes`).
-/

namespace PagedHeap

open PagedHeap.Action

open MemoryFiles (law)

/-! ## Places -/

/-- Whether an address lies behind a place: all addresses lie behind the start of a file, and none
behind its end. -/
def ScanMark.Precedes (m : ScanMark) (rid : RecordId) : Prop :=
  match m.position, m.record with
  | none, _ => False
  | some _, none => True
  | some _, some current => current.Before rid

instance ScanMark.decidablePrecedes (rid : RecordId) : (m : ScanMark) → Decidable (m.Precedes rid)
  | ⟨none, _⟩ => .isFalse id
  | ⟨some _, none⟩ => .isTrue trivial
  | ⟨some _, some current⟩ => RecordId.decidableBefore current rid

/-- The places of a scan from which all that was asked was answered. -/
inductive ScanMark.Regular : ScanMark → Prop
  /-- The start of the file. -/
  | start : Regular ⟨some ⟨2⟩, none⟩
  /-- A record, on its page. -/
  | record (rid : RecordId) : Regular ⟨some rid.page, some rid⟩
  /-- The end of the file. -/
  | ended : Regular ⟨none, none⟩

/-- At the end of the file a scan stands on no record. -/
theorem ScanMark.Regular.record_of_end {m : ScanMark} (hregular : m.Regular)
    (hend : m.position = none) : m.record = none := by
  cases hregular with
  | start => rfl
  | record rid => cases hend
  | ended => rfl

/-- What is answered leads a scan from such a place to another one. -/
theorem ScanMark.Regular.of_leads {c : HandleCommand} {saved : Option ScanMark} {m m' : ScanMark}
    (hregular : m.Regular) (hsaved : ∀ m, saved = some m → m.Regular) (h : c.Leads saved m m') :
    m'.Regular := by
  cases c with
  | readAt rid =>
    obtain rfl : m' = ⟨some rid.page, some rid⟩ := h
    exact .record rid
  | next =>
    by_cases hend : m.position = none
    · rw [h.1 hend, hregular.record_of_end hend]
      exact .ended
    · obtain ⟨found, rfl⟩ := h.2 hend
      cases found with
      | none => exact .ended
      | some rid => exact .record rid
  | reset => exact hsaved m' h
  | endScan =>
    obtain rfl : m' = ⟨some ⟨2⟩, none⟩ := h
    exact .start
  | _ =>
    obtain rfl : m' = m := h
    exact hregular

namespace HeapFile

variable {h : HeapFile} {rid : RecordId}

/-- What is ahead of a scan lies behind its place. -/
theorem precedes_of_ahead (hregular : h.mark.Regular) (hahead : h.Ahead rid) :
    h.mark.Precedes rid := by
  generalize hm : h.mark = m at hregular ⊢
  cases hregular with
  | start => trivial
  | record current =>
    exact (ahead_of_record (congrArg ScanMark.position hm) (congrArg ScanMark.record hm)).1 hahead
  | ended => exact not_ahead_of_end (congrArg ScanMark.position hm) hahead

/-- The records that lie behind the place of a scan are ahead of it. -/
theorem ahead_of_precedes {v : Volume} (hregular : h.mark.Regular) (hdata : v.IsData rid.page)
    (hbehind : h.mark.Precedes rid) : h.Ahead rid := by
  generalize hm : h.mark = m at hregular hbehind
  cases hregular with
  | start =>
    exact ahead_of_start (congrArg ScanMark.position hm) (congrArg ScanMark.record hm) hdata
  | record current =>
    exact (ahead_of_record (congrArg ScanMark.position hm) (congrArg ScanMark.record hm)).2 hbehind
  | ended => exact hbehind.elim

end HeapFile

/-- Whether a reply is an answer. -/
def Reply.IsAnswer : Reply → Prop
  | .failed _ | .refused _ => False
  | _ => True

/-- Whether a command leaves a scan open and its mark as it is. -/
def HandleCommand.KeepsMark (c : HandleCommand) : Prop := ¬c.Closes ∧ c ≠ .mark

namespace Session

variable {capacity : Nat} {s s' : Session MemoryFiles} {heaps : Set FileId} {c : Command}
variable {c' : HandleCommand} {reply : Reply} {name : String} {scan : Scan} {file : FileId}

/-! ## Using a scan -/

/-- A scan is at a place of a file, and its mark is one, too. -/
structure Placed (name : String) (file : FileId) (mark : Option ScanMark)
    (s : Session MemoryFiles) : Prop where
  sound : s.Sound
  small : s.Small
  marked : ∀ m, mark = some m → m.Regular
  scan : ∃ scan, s.handles.find? name = some (.scan scan) ∧ scan.heap.file.id = file ∧
    scan.heap.mark.Regular ∧ scan.mark = mark

/-- What is answered leaves a scan at a place, whatever is done through other handles. -/
theorem Placed.step {mark : Option ScanMark} (h : Placed name file mark s) (hlevel : c.HeapLevel)
    (htold : ∀ c', c = .tell name c' → ¬c'.Closes ∧ reply.IsAnswer)
    (hstep : Session.step s c = .ok (reply, s')) (hsmall : s'.Small) :
    ∃ mark', Placed name file mark' s' ∧ (mark' = mark ∨ c = .tell name .mark) := by
  have hfollows := follows_step h.sound h.small hlevel hstep
  obtain ⟨scan, hfind, hfile, hregular, hmark⟩ := h.scan
  rcases led_of_step h.sound h.small hfind hlevel (fun c' hc' => (htold c' hc').1) hstep with
    hfind' | ⟨c', rfl, ⟨scan', hfind', hled⟩ | ⟨⟨e, rfl⟩, -⟩⟩
  · exact ⟨mark, ⟨hfollows.sound, hsmall, h.marked, scan, hfind', hfile, hregular, hmark⟩, .inl rfl⟩
  · have hregular' := hregular.of_leads (hmark ▸ h.marked) hled.place
    have hfile' : scan'.heap.file.id = file := hled.file ▸ hfile
    rcases hled.mark with hkept | ⟨rfl, hset⟩
    · exact ⟨mark, ⟨hfollows.sound, hsmall, h.marked, scan', hfind', hfile', hregular',
        hkept.trans hmark⟩, .inl rfl⟩
    · refine ⟨_, ⟨hfollows.sound, hsmall, ?_, scan', hfind', hfile', hregular', hset⟩, .inr rfl⟩
      rintro m ⟨⟩
      exact hregular
  · exact (htold c' rfl).2.elim

/-- The sessions to which commands lead if all that is sent to a handle is of a certain kind and is
answered.  Other commands may be refused. -/
inductive Serves (name : String) (sent : HandleCommand → Prop) (start : Session MemoryFiles) :
    Session MemoryFiles → Prop
  /-- Nothing was done yet. -/
  | start : Serves name sent start start
  /-- One more command is carried out. -/
  | step {s s' : Session MemoryFiles} {c : Command} {reply : Reply} :
      Serves name sent start s → c.HeapLevel →
      (∀ c', c = .tell name c' → sent c' ∧ reply.IsAnswer) →
      Session.step s c = .ok (reply, s') → s'.Small → Serves name sent start s'

variable {sent : HandleCommand → Prop} {marked back : Session MemoryFiles}

/-- As long as a scan answers it is at a place, and it keeps its mark until it is marked again. -/
theorem Serves.placed {mark : Option ScanMark} (h : Placed name file mark s)
    (hopen : ∀ c, sent c → ¬c.Closes) (serves : Serves name sent s s') :
    ∃ mark', Placed name file mark' s' ∧ (¬sent .mark → mark' = mark) := by
  induction serves with
  | start => exact ⟨mark, h, fun _ => rfl⟩
  | step _ hlevel htold hstep hsmall ih =>
    obtain ⟨mark₁, hplaced, hkept⟩ := ih
    have htold' := fun c' hc' => (htold c' hc').imp_left (hopen c')
    obtain ⟨mark₂, hplaced', hsame⟩ := hplaced.step hlevel htold' hstep hsmall
    refine ⟨mark₂, hplaced', fun hnot => ?_⟩
    rcases hsame with rfl | rfl
    · exact hkept hnot
    · exact absurd (htold .mark rfl).1 hnot

/-- A scan that was just opened is at a place and has no mark. -/
theorem Run.placed {title : String} (run : Run capacity s heaps)
    (hstep : Session.step s (.openAs name (.heap .scan title)) = .ok (.done, s'))
    (hsmall : s'.Small) : ∃ file, Placed name file none s' := by
  obtain ⟨hsound, hsmall₀, -⟩ := run.sound
  have hlevel : (Command.openAs name (.heap .scan title)).HeapLevel := trivial
  obtain ⟨heap, hhandles, -, hposition, hrecord⟩ := exists_of_openAs hsound hstep
  refine ⟨heap.file.id, (follows_step hsound hsmall₀ hlevel hstep).sound, hsmall, nofun,
    Scan.start heap, ?_, rfl, ?_, rfl⟩
  · rw [hhandles]
    exact Table.find?_put_self ..
  · have hmark : (Scan.start heap).heap.mark = ⟨some ⟨2⟩, none⟩ := by
      unfold Scan.start HeapFile.mark
      rw [hposition, hrecord]
    rw [hmark]
    exact .start

/-- A scan answers its record. -/
theorem step_current (hfind : s.handles.find? name = some (.scan scan)) :
    Session.step s (.tell name .current) = .ok (.address scan.heap.record, s) :=
  step_of_ok (Ensures.run_eq ((ensures_tell hfind).2 ⟨rfl, rfl⟩))

/-- A scan that was marked, and was then used without being marked again, went back to its mark.
Whatever was asked of it from the time at which it was opened was answered. -/
structure GoesBack (capacity : Nat) (name : String) (marked back : Session MemoryFiles) : Prop where
  /-- The scan is opened, used and marked. -/
  before : ∃ s t u heaps title, Run capacity s heaps ∧
    Session.step s (.openAs name (.heap .scan title)) = .ok (.done, t) ∧ t.Small ∧
    Serves name (¬HandleCommand.Closes ·) t u ∧
    Session.step u (.tell name .mark) = .ok (.done, marked)
  /-- It is used again and sent back. -/
  after : ∃ s, Serves name HandleCommand.KeepsMark marked s ∧
    Session.step s (.tell name .reset) = .ok (.done, back) ∧ back.Small

/-- A scan that goes back is at the place at which it was marked. -/
theorem GoesBack.exists_scan (h : GoesBack capacity name marked back) :
    ∃ scan scan', marked.handles.find? name = some (.scan scan) ∧
      back.handles.find? name = some (.scan scan') ∧ scan'.heap.file.id = scan.heap.file.id ∧
      scan'.heap.mark = scan.heap.mark ∧ scan.heap.mark.Regular ∧
      marked.Sound ∧ marked.Small ∧ back.Sound ∧ back.Small := by
  obtain ⟨⟨s, t, u, heaps, title, run, hopen, hsmall, serves, hmark⟩,
    v, serves', hreset, hsmall'⟩ := h
  obtain ⟨file, hplaced⟩ := run.placed hopen hsmall
  obtain ⟨_, hplaced, -⟩ := serves.placed hplaced fun _ => id
  -- The scan is marked where it is.
  obtain ⟨scan, hfind, rfl, hregular, -⟩ := hplaced.scan
  cases (step_mark hfind).symm.trans hmark
  have hlevel : (Command.tell name .mark).HeapLevel := trivial
  have hsound := (follows_step hplaced.sound hplaced.small hlevel (step_mark hfind)).sound
  have hmarked : Placed name scan.heap.file.id (some scan.heap.mark)
      ⟨u.db, u.handles.put name (.scan { scan with mark := some scan.heap.mark })⟩ := by
    refine ⟨hsound, hplaced.small, ?_, _, Table.find?_put_self _ _ _, rfl, hregular, rfl⟩
    rintro m ⟨⟩
    exact hregular
  -- It keeps the mark until it is sent back.
  obtain ⟨_, hplaced', hkept⟩ := serves'.placed hmarked fun _ => And.left
  obtain rfl := hkept fun hkeeps => hkeeps.2 rfl
  obtain ⟨scan₁, hfind₁, hfile₁, -, hmark₁⟩ := hplaced'.scan
  have hopen : ¬HandleCommand.reset.Closes := id
  have hlevel' : (Command.tell name .reset).HeapLevel := trivial
  have hsound' := (follows_step hplaced'.sound hplaced'.small hlevel' hreset).sound
  rcases led_of_tell hplaced'.sound hfind₁ hopen hlevel' hreset with
    ⟨scan', hfind', hled⟩ | ⟨⟨e, he⟩, -⟩
  · have hback : scan'.heap.mark = scan.heap.mark :=
      Option.some.inj (hled.place.symm.trans hmark₁)
    exact ⟨_, scan', Table.find?_put_self _ _ _, hfind',
      (congrArg FileHandle.id hled.file).trans hfile₁, hback, hregular, hsound, hmarked.small,
      hsound', hsmall'⟩
  · cases he

/-! ## Going on from a place -/

/-- What a scan has returned on its way from a place in the session `start` to the session `s`, and
what it goes on to return. -/
structure Continues (name : String) (place : ScanMark) (scan : Scan)
    (start s : Session MemoryFiles) (visited : List (Session MemoryFiles))
    (rids : List RecordId) : Prop where
  /-- The addresses were returned in the order of the chain and then of the slots, and each once. -/
  increasing : rids.Pairwise RecordId.Before
  /-- They lie behind the place. -/
  behind : ∀ rid ∈ rids, place.Precedes rid
  /-- What is returned next is there and passes the filter. -/
  live : ∀ rid s', Session.step s (.tell name .next) = .ok (.address (some rid), s') →
    ∃ bytes, s.records scan.heap.file.id rid = some bytes ∧
      s'.records scan.heap.file.id rid = some bytes ∧ passes scan.filter bytes = true
  /-- What was there all the time behind the place and passes the filter has been returned, if it is
  before what is returned next.  At the end all of it has been. -/
  complete : ∀ found s', Session.step s (.tell name .next) = .ok (.address found, s') →
    ∀ rid bytes, (∀ t ∈ visited, t.records scan.heap.file.id rid = some bytes) →
      passes scan.filter bytes = true → place.Precedes rid →
      (∀ next, found = some next → rid.Before next) → rid ∈ rids
  /-- From the end of the file on, nothing is returned. -/
  ended : place.position = none → rids = []
  /-- If nothing changed, the records behind the place that pass the filter are those that have been
  returned and others, of which the first is returned next. -/
  unchanged : (∀ t ∈ visited, t.records scan.heap.file.id = start.records scan.heap.file.id) →
    ∀ header chain,
      HeapHeader.read ((law.volume start.db scan.heap.file.id).page ⟨1⟩) = .ok header →
      (law.volume start.db scan.heap.file.id).IsChain header chain →
      ∃ rest, (law.volume start.db scan.heap.file.id).hits chain scan.filter place.Precedes =
          rids ++ rest ∧
        ∀ found s', Session.step s (.tell name .next) = .ok (.address found, s') →
          found = rest.head?

section Place

variable {s₀ : Session MemoryFiles} {visited : List (Session MemoryFiles)} {rids : List RecordId}
variable {header : HeapHeader}
variable (hregular : scan.heap.mark.Regular)
  (hv : (law.volume s₀.db scan.heap.file.id).IsHeap header)
include hregular hv

/-- The records that do not lie behind the place of a scan count as returned. -/
theorem progress_of_place : Progress scan.heap.file.id scan.filter [s₀]
    ((law.volume s₀.db scan.heap.file.id).hits (law.volume s₀.db scan.heap.file.id).dataPages
      scan.filter fun rid => ¬scan.heap.mark.Precedes rid) scan.heap.Ahead where
  sorted := hv.sorted_hits
  behind := by
    intro rid hrid other hother
    obtain ⟨hbefore, bytes, hbytes, -⟩ := hv.mem_hits.1 hrid
    have hnot : ¬scan.heap.Ahead rid := fun hahead =>
      hbefore (HeapFile.precedes_of_ahead hregular hahead)
    rcases RecordId.Before.trichotomy rid other with hlt | rfl | hgt
    · exact hlt
    · exact absurd hother hnot
    · exact absurd (hother.of_before hgt) hnot
  covered := by
    intro rid bytes hlive hpass
    have hrid : (law.volume s₀.db scan.heap.file.id).record? rid = some bytes :=
      hlive s₀ (List.mem_singleton_self _)
    by_cases hbehind : scan.heap.mark.Precedes rid
    · exact .inr (HeapFile.ahead_of_precedes hregular (Volume.isData_of_record? hrid) hbehind)
    · exact .inl (hv.mem_hits.2 ⟨hbehind, bytes, hrid, hpass⟩)
  live := by
    intro rid hrid
    exact ⟨s₀, List.mem_singleton_self _, (hv.mem_hits.1 hrid).2⟩

variable (hway : Underway name scan.heap.file.id scan.filter scan.heap.Ahead s₀ s visited rids)
include hway

omit hv in
/-- What a scan has found lies behind the place from which it started. -/
theorem Underway.behind (rid : RecordId) (hrid : rid ∈ rids) : scan.heap.mark.Precedes rid := by
  obtain ⟨ahead, hfinding, -⟩ := hway.exists_ahead
  obtain ⟨hrids, -⟩ := hfinding.within fun a b => HeapFile.Ahead.of_before
  exact HeapFile.precedes_of_ahead hregular (hrids rid hrid)

/-- While nothing changes, a scan finds the records behind its place one after the other. -/
theorem Underway.exists_rest (hsame : ∀ t ∈ visited,
    t.records scan.heap.file.id = s₀.records scan.heap.file.id) :
    ∃ rest, (law.volume s₀.db scan.heap.file.id).hits
        (law.volume s₀.db scan.heap.file.id).dataPages scan.filter scan.heap.mark.Precedes =
        rids ++ rest ∧
      ∀ found s', Session.step s (.tell name .next) = .ok (.address found, s') →
        found = rest.head? := by
  classical
  obtain ⟨ahead, hfinding, hfinds⟩ := hway.exists_ahead
  have hprogress := hfinding.progress (progress_of_place hregular hv)
  obtain ⟨-, hwithin⟩ := hfinding.within fun a b => HeapFile.Ahead.of_before
  have hbehind := hway.behind hregular
  have hpassing (t : Session MemoryFiles) (ht : t ∈ visited) (rid : RecordId) :
      (law.volume t.db scan.heap.file.id).Passing scan.filter rid ↔
        (law.volume s₀.db scan.heap.file.id).Passing scan.filter rid := by
    have hrecord : (law.volume t.db scan.heap.file.id).record? =
        (law.volume s₀.db scan.heap.file.id).record? := hsame t ht
    unfold Volume.Passing
    rw [hrecord]
  have hrest (rid : RecordId) : rid ∈ (law.volume s₀.db scan.heap.file.id).hits
      (law.volume s₀.db scan.heap.file.id).dataPages scan.filter ahead ↔
      ahead rid ∧ (law.volume s.db scan.heap.file.id).Passing scan.filter rid := by
    rw [hv.mem_hits, hpassing s hway.here]
  refine ⟨_, ?_, fun found s' hstep =>
    HeapFile.eq_head?_of_finds (hfinds found s' hstep) hv.sorted_hits hrest⟩
  refine hv.sorted_hits.eq_of_mem_iff ?_ fun rid => ?_
  · obtain ⟨-, hsorted, -⟩ := List.pairwise_append.1 hprogress.sorted
    refine List.pairwise_append.2 ⟨hsorted, hv.sorted_hits, fun a ha b hb => ?_⟩
    exact hprogress.behind a (List.mem_append_right _ ha) b ((hrest b).1 hb).1
  · rw [List.mem_append, hv.mem_hits, hrest]
    constructor
    · rintro ⟨hafter, bytes, hbytes, hpass⟩
      have hlive (t : Session MemoryFiles) (ht : t ∈ visited) :
          t.records scan.heap.file.id rid = some bytes := by
        rw [hsame t ht]
        exact hbytes
      rcases hprogress.covered rid bytes hlive hpass with hin | hahead
      · rcases List.mem_append.1 hin with hin | hin
        · exact absurd hafter (hv.mem_hits.1 hin).1
        · exact .inl hin
      · exact .inr ⟨hahead, bytes, hlive s hway.here, hpass⟩
    · rintro (hin | ⟨hahead, hpass⟩)
      · obtain ⟨t, ht, hpass⟩ := hprogress.live rid (List.mem_append_right _ hin)
        exact ⟨hbehind rid hin, (hpassing t ht rid).1 hpass⟩
      · exact ⟨HeapFile.precedes_of_ahead hregular (hwithin rid hahead),
          (hpassing s hway.here rid).1 hpass⟩

/-- A scan goes on from a place to the records behind it. -/
theorem Underway.continues : Continues name scan.heap.mark scan s₀ s visited rids := by
  have hprogress := progress_of_place hregular hv
  have honTheWay := hway.onTheWay hprogress
  have hbehind := hway.behind hregular
  refine ⟨?_, hbehind, fun rid s' => honTheWay.live, ?_, ?_, ?_⟩
  · obtain ⟨_, -, -, -, hprogress'⟩ := honTheWay.scan
    exact (List.pairwise_append.1 hprogress'.sorted).2.1
  · intro found s' hstep rid bytes hlive hpass hafter hbefore
    obtain ⟨ahead, hfinding, hfinds⟩ := hway.exists_ahead
    have hpassing : (law.volume s.db scan.heap.file.id).Passing scan.filter rid :=
      ⟨bytes, hlive s hway.here, hpass⟩
    rcases (hfinding.progress hprogress).covered rid bytes hlive hpass with hin | hahead
    · rcases List.mem_append.1 hin with hin | hin
      · exact absurd hafter (hv.mem_hits.1 hin).1
      · exact hin
    · cases found with
      | none => exact absurd hpassing (hfinds none s' hstep rid hahead)
      | some next =>
        obtain ⟨-, -, hfirst⟩ := hfinds (some next) s' hstep
        exact absurd hpassing (hfirst rid hahead (hbefore next rfl))
  · intro hend
    refine List.eq_nil_iff_forall_not_mem.2 fun rid hrid => ?_
    have hafter := hbehind rid hrid
    unfold ScanMark.Precedes at hafter
    rw [hend] at hafter
    exact hafter
  · intro hsame header' chain hread hchain
    obtain rfl : header' = header := Except.ok.inj (hread.symm.trans hv.header)
    rw [hv.chain_unique hchain]
    exact hway.exists_rest hregular hv hsame

end Place

/-- How a scan that was marked in one session goes on from another one, in which it went back to its
mark. -/
structure Resumes (name : String) (marked back : Session MemoryFiles) (scan scan' : Scan) :
    Prop where
  /-- It is a scan of the same file. -/
  file : scan'.heap.file.id = scan.heap.file.id
  /-- Its current record is the one at the mark. -/
  current : Session.step back (.tell name .current) = .ok (.address scan.heap.record, back)
  /-- It goes on to the records behind the mark. -/
  continues : ∀ s visited rids, Scanning name back s visited rids →
    Continues name scan.heap.mark scan' back s visited rids
  /-- If nothing was changed, it returns what it returns from the session in which it was marked. -/
  identical : scan'.filter = scan.filter →
    back.records scan.heap.file.id = marked.records scan.heap.file.id →
    ∀ s visited rids t visited' rids',
      Scanning name marked s visited rids → Scanning name back t visited' rids' →
      (∀ u ∈ visited, u.records scan.heap.file.id = marked.records scan.heap.file.id) →
      (∀ u ∈ visited', u.records scan.heap.file.id = marked.records scan.heap.file.id) →
      (rids <+: rids' ∨ rids' <+: rids) ∧
      (rids.length = rids'.length → rids = rids' ∧ ∀ found found' s' t',
        Session.step s (.tell name .next) = .ok (.address found, s') →
        Session.step t (.tell name .next) = .ok (.address found', t') → found = found')

/-- Whatever was done since a scan was marked, it goes on from its mark once it went back there. -/
theorem GoesBack.resumes (h : GoesBack capacity name marked back) :
    ∃ scan scan', marked.handles.find? name = some (.scan scan) ∧
      back.handles.find? name = some (.scan scan') ∧ Resumes name marked back scan scan' := by
  obtain ⟨scan, scan', hfind, hfind', hfile, hplace, hregular, hsound, hsmall, hsound', hsmall'⟩ :=
    h.exists_scan
  obtain ⟨header, hv⟩ := hsound.hasHeap hfind rfl
  obtain ⟨header', hv'⟩ := hsound'.hasHeap hfind' rfl
  have hregular' : scan'.heap.mark.Regular := hplace ▸ hregular
  refine ⟨scan, scan', hfind, hfind', hfile, ?_, ?_, ?_⟩
  · have hrecord : scan'.heap.record = scan.heap.record := congrArg ScanMark.record hplace
    rw [← hrecord]
    exact step_current hfind'
  · intro s visited rids scanning
    rw [← hplace]
    exact (scanning.underway hsound' hsmall' hfind').continues hregular' hv'
  · intro hfilter hback s visited rids t visited' rids' scanning scanning' hsame hsame'
    have hway := scanning.underway hsound hsmall hfind
    have hway' := scanning'.underway hsound' hsmall' hfind'
    obtain ⟨rest, hrest, hnext⟩ := hway.exists_rest hregular hv hsame
    obtain ⟨rest', hrest', hnext'⟩ := hway'.exists_rest hregular' hv' fun u hu => by
      rw [hfile, hsame' u hu, hback]
    -- Both scans find the records behind the same place.
    have heq : rids ++ rest = rids' ++ rest' := by
      have hrecord : (law.volume back.db scan'.heap.file.id).record? =
          (law.volume marked.db scan.heap.file.id).record? := by
        rw [hfile]
        exact hback
      have hplaces : scan'.heap.mark.Precedes = scan.heap.mark.Precedes :=
        congrArg ScanMark.Precedes hplace
      rw [← hrest, ← hrest', hfilter]
      simp only [hplaces]
      exact (hv'.hits_congr hv hrecord).symm
    refine ⟨List.prefix_or_prefix_of_prefix (List.prefix_append rids rest)
      (heq ▸ List.prefix_append rids' rest'), fun hlength => ?_⟩
    obtain ⟨rfl, rfl⟩ := List.append_inj heq hlength
    exact ⟨rfl, fun found found' s' t' hstep hstep' =>
      (hnext found s' hstep).trans (hnext' found' t' hstep').symm⟩

/-- What is told to the handle of a scan and is answered serves it. -/
theorem Serves.told {start : Session MemoryFiles} (serves : Serves name sent start s)
    (hlevel : (Command.tell name c').HeapLevel)
    (hstep : Session.step s (.tell name c') = .ok (reply, s')) (hsent : sent c')
    (hanswer : reply.IsAnswer) (hsmall : s'.Small) : Serves name sent start s' := by
  refine serves.step hlevel (fun c'' htold => ?_) hstep hsmall
  obtain ⟨-, rfl⟩ := Command.tell.inj htold
  exact ⟨hsent, hanswer⟩

/-- A scan that was disturbed after it was marked goes on, and is sent back then to its mark.  There
it awaits the records that it awaited when it was disturbed. -/
theorem Disturbed.exists_back {file : FileHandle} {a b bytes : Bytes}
    {s₀ s₁ s₂ s₃ s₄ : Session MemoryFiles} (h : Disturbed file a b bytes s s₀ s₁ s₂ s₃ s₄) :
    ∃ moved back v scan, Session.step s₄ (.tell "h" .next) = .ok (.address (some ⟨⟨3⟩, 0⟩), moved) ∧
      Session.step moved (.tell "h" .reset) = .ok (.done, back) ∧ GoesBack 8 "h" s₂ back ∧
      Hosts 8 file v back ∧
      v.rows = [(⟨⟨3⟩, 0⟩, b), (⟨⟨3⟩, 1⟩, bytes)] ∧ back.handles.find? "h" = some (.scan scan) ∧
      scan.heap.record = some ⟨⟨2⟩, 0⟩ ∧ Awaits file v scan [⟨⟨3⟩, 0⟩, ⟨⟨3⟩, 1⟩] ∧
      back.handles.length = 2 := by
  obtain ⟨heaps, run⟩ := h.run
  obtain ⟨hsmall₀, hsmall₁, hsmall₂, hsmall₃, hsmall₄⟩ := h.small
  obtain ⟨v, scan, h₄, hrows, hfind₄, hmark, hawaits⟩ := h.rest
  obtain ⟨header, hv⟩ := h₄.heap
  have hroom : 2 * s₄.handles.length + 1 < 8 := by
    rw [h.length]
    decide
  have hlevel : (Command.tell "h" .next).HeapLevel := trivial
  have hinsert : (Command.tell "i" (.insert bytes)).HeapLevel := trivial
  have hdelete : (Command.tell "h" .delete).HeapLevel := trivial
  have hlevel' : (Command.tell "h" .reset).HeapLevel := trivial
  -- The scan goes on, and is sent back to its mark.
  obtain ⟨t₅, hnext, hkeeps₅, hawaits₅, -⟩ := h₄.exists_next hfind₄ hawaits hroom
  have h₅ := h₄.keepAll hlevel hnext hkeeps₅
  have hlength₅ := Table.length_put_of_find? hfind₄ (.scan { scan with heap := t₅.heap })
  obtain ⟨t₆, hreset, hkeeps₆, hfile₆, hat₆⟩ := h₅.exists_reset (Table.find?_put_self ..)
    hawaits₅.file hmark rfl hv.isData_two (hlength₅ ▸ hroom)
  have h₆ := h₅.keepAll hlevel' hreset hkeeps₆
  have hlength₆ := Table.length_put_of_find? (Table.find?_put_self s₄.handles "h"
    (.scan { scan with heap := t₅.heap })) (.scan { scan with heap := t₆.heap })
  have hawaits₆ : Awaits file v { scan with heap := t₆.heap }
      ((v.rows.map Prod.fst).filter (⟨⟨2⟩, 0⟩ : RecordId).Before) :=
    awaits_of_at hfile₆ hawaits.filter hat₆ hv hv.isData_two
  rw [hrows] at hawaits₆
  -- All that was asked of it was answered.
  have hbefore : Serves "h" (¬HandleCommand.Closes ·) s₀ s₁ :=
    Serves.start.told hlevel h.found id trivial hsmall₁
  have hinserted : Serves "h" HandleCommand.KeepsMark s₂ s₃ :=
    Serves.start.step hinsert (fun _ htold => absurd (Command.tell.inj htold).1 (by decide))
      h.inserted hsmall₃
  have hdeleted := hinserted.told hdelete h.deleted ⟨id, nofun⟩ trivial hsmall₄
  have hafter := hdeleted.told hlevel hnext ⟨id, nofun⟩ trivial h₅.small
  have hback : GoesBack 8 "h" s₂ _ :=
    ⟨⟨s, s₀, s₁, heaps, _, run, h.opened, hsmall₀, hbefore, h.marked⟩, _, hafter, hreset, h₆.small⟩
  exact ⟨_, _, v, _, hnext, hreset, hback, h₆, hrows, Table.find?_put_self .., hat₆.record,
    hawaits₆, (hlength₆.trans hlength₅).trans h.length⟩

/-- A scan is marked at a record, which is deleted then, and another one is inserted.  After it has
gone on it is sent back to its mark, and finds the records behind it. -/
theorem GoesBack.resumes_disturbed : ∃ marked grown left moved back s visited scan scan',
    GoesBack 8 "h" marked back ∧
    Session.step marked (.tell "i" (.insert [7])) = .ok (.address (some ⟨⟨3⟩, 1⟩), grown) ∧
    Session.step grown (.tell "h" .delete) = .ok (.done, left) ∧
    Session.step left (.tell "h" .next) = .ok (.address (some ⟨⟨3⟩, 0⟩), moved) ∧
    Session.step moved (.tell "h" .reset) = .ok (.done, back) ∧
    marked.handles.find? "h" = some (.scan scan) ∧ back.handles.find? "h" = some (.scan scan') ∧
    scan.heap.record = some ⟨⟨2⟩, 0⟩ ∧ (law.volume back.db ⟨1⟩).rows =
      [(⟨⟨3⟩, 0⟩, List.replicate 3000 2), (⟨⟨3⟩, 1⟩, [7])] ∧
    Resumes "h" marked back scan scan' ∧ Scanning "h" back s visited [⟨⟨3⟩, 0⟩, ⟨⟨3⟩, 1⟩] ∧
    Continues "h" scan.heap.mark scan' back s visited [⟨⟨3⟩, 0⟩, ⟨⟨3⟩, 1⟩] := by
  obtain ⟨_, _, _, marked, grown, left, hdisturbed⟩ := exists_disturbed_first
  obtain ⟨moved, back, v, scan₆, hnext, hreset, hback, h₆, hrows, hfind₆, hrecord, hawaits,
    hlength⟩ := hdisturbed.exists_back
  obtain ⟨scan, scan', hfind, hfind', hresumes⟩ := GoesBack.resumes hback
  cases hfind₆.symm.trans hfind'
  obtain ⟨s, hgoes, -⟩ := h₆.exists_goes hfind₆ hawaits (by rw [hlength]; decide)
  obtain ⟨visited, hscanning⟩ := hgoes.exists_scanning .start
  refine ⟨marked, grown, left, moved, back, s, visited, scan, scan₆, hback, hdisturbed.inserted,
    hdisturbed.deleted, hnext, hreset, hfind, hfind₆, ?_, h₆.volume ▸ hrows, hresumes, hscanning,
    hresumes.continues s visited _ hscanning⟩
  have hsame := hresumes.current.symm.trans (step_current hfind₆)
  simp only [Except.ok.injEq, Prod.mk.injEq, Reply.address.injEq, and_true] at hsame
  exact hsame.trans hrecord

end Session

end PagedHeap
