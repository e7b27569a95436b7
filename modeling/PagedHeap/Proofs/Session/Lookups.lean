import PagedHeap.Proofs.Heap.Concurring
import PagedHeap.Proofs.Session.Filling

/-!
# Lookups that are refused

A record is looked up through a scan, and there is none at the address, or its page cannot be
pinned.  Such a lookup changes no page and no other handle (`Session.Missed`), but it does not
always leave the scan where it was.  The current page is given up before the other one is pinned, so
that the current record is not in hand any more; and the page of the address, once it is pinned, is
the page from which the scan goes on, even if no record is found there.

Everything else is as if nothing had been asked: whatever is told to the scan afterwards, it replies
what it would have replied, as long as the command depends neither on a place nor on a record in
hand that the lookup has cost (`Session.Uses.missed`).  If the scan was on the page of the address
already, it has lost nothing.
-/

namespace PagedHeap

open PagedHeap.Action

open MemoryFiles (law)

/-! ## Places at the end -/

/-- A place at the end of the file is on no record. -/
def ScanMark.Proper (m : ScanMark) : Prop := m.position = none → m.record = none

section Proper

variable {c : HandleCommand} {saved : Option ScanMark} {m m' : ScanMark} (hproper : m.Proper)
include hproper

theorem ScanMark.Proper.of_leads (hsaved : ∀ m, saved = some m → m.Proper)
    (h : c.Leads saved m m') : m'.Proper := by
  cases c with
  | readAt rid =>
    obtain rfl : m' = ⟨some rid.page, some rid⟩ := h
    exact nofun
  | next =>
    by_cases hend : m.position = none
    · rw [h.1 hend]
      exact fun _ => hproper hend
    · obtain ⟨found, rfl⟩ := h.2 hend
      exact Option.map_eq_none_iff.1
  | reset => exact hsaved m' h
  | endScan =>
    obtain rfl : m' = ⟨some ⟨2⟩, none⟩ := h
    exact nofun
  | _ =>
    obtain rfl : m' = m := h
    exact hproper

theorem ScanMark.Proper.of_strands (h : c.Strands m m') : m'.Proper := by
  cases c with
  | readAt rid =>
    rcases h with rfl | rfl
    · exact hproper
    · exact nofun
  | next =>
    rcases h with rfl | ⟨page, rfl⟩
    · exact hproper
    · exact nofun
  | _ =>
    obtain rfl : m' = m := h
    exact hproper

end Proper

namespace Session

variable {capacity : Nat} {s s' t t' : Session MemoryFiles} {heaps : Set FileId} {c : Command}
variable {c' : HandleCommand} {reply : Reply} {name : String} {scan scan' : Scan} {rid : RecordId}
variable {place hand : Prop} {rest rest' : Multiset Pin}

/-- A scan stands on no record at the end, nor does its mark. -/
def Settled (name : String) (s : Session MemoryFiles) : Prop :=
  ∃ scan, s.handles.find? name = some (.scan scan) ∧ scan.heap.mark.Proper ∧
    ∀ m, scan.mark = some m → m.Proper

/-- Wherever a command leads a scan, it stands on no record at the end. -/
theorem settled_of_led (hproper : scan.heap.mark.Proper)
    (hmark : ∀ m, scan.mark = some m → m.Proper)
    (hled : LedTo name scan c' (c'.Leads scan.mark scan.heap.mark) s ∨
      (∃ e, reply = .failed e) ∧ LedTo name scan c' (c'.Strands scan.heap.mark) s) :
    Settled name s := by
  have hsettled {place : ScanMark → Prop} (hplace : ∀ m, place m → m.Proper)
      (hled : LedTo name scan c' place s) : Settled name s := by
    obtain ⟨scan', hfind, hled⟩ := hled
    refine ⟨scan', hfind, hplace _ hled.place, fun m hm => ?_⟩
    rcases hled.mark with hkept | ⟨-, hset⟩
    · exact hmark m (hkept.symm.trans hm)
    · cases hset.symm.trans hm
      exact hproper
  rcases hled with hled | ⟨-, hled⟩
  · exact hsettled (fun _ => hproper.of_leads hmark) hled
  · exact hsettled (fun _ => hproper.of_strands) hled

/-- The sessions in which a scan is open: it was opened, and was used together with other handles
since. -/
inductive Uses (capacity : Nat) (name : String) : Session MemoryFiles → Prop
  /-- The scan was just opened. -/
  | opened {s s' : Session MemoryFiles} {heaps : Set FileId} {title : String} :
      Run capacity s heaps →
      Session.step s (.openAs name (.heap .scan title)) = .ok (.done, s') → s'.Small →
      Uses capacity name s'
  /-- Commands follow that do not close it, whether they are answered or refused. -/
  | step {s s' : Session MemoryFiles} {c : Command} {reply : Reply} :
      Uses capacity name s → c.HeapLevel → (∀ c', c = .tell name c' → ¬c'.Closes) →
      Session.step s c = .ok (reply, s') → s'.Small → Uses capacity name s'

/-- Wherever a scan is used, it stands on no record at the end. -/
theorem Uses.settled (uses : Uses capacity name s) : s.Sound ∧ s.Small ∧ Settled name s := by
  induction uses with
  | @opened s s' heaps title run hopen hsmall' =>
    obtain ⟨hsound, hsmall, -⟩ := run.sound
    have hlevel : (Command.openAs name (.heap .scan title)).HeapLevel := trivial
    obtain ⟨heap, hhandles, -, -, hrecord⟩ := exists_of_openAs hsound hopen
    refine ⟨(follows_step hsound hsmall hlevel hopen).sound, hsmall', Scan.start heap, ?_,
      fun _ => hrecord, nofun⟩
    rw [hhandles]
    exact Table.find?_put_self ..
  | @step s s' c reply uses hlevel hopen hstep hsmall' ih =>
    obtain ⟨hsound, hsmall, scan, hfind, hproper, hmark⟩ := ih
    have hfollows := follows_step hsound hsmall hlevel hstep
    refine ⟨hfollows.sound, hsmall', ?_⟩
    rcases led_of_step hsound hsmall hfind hlevel hopen hstep with hfind' | ⟨c', rfl, hled⟩
    · exact ⟨scan, hfind', hproper, hmark⟩
    · exact settled_of_led hproper hmark hled

/-! ## The same commands in two sessions -/

/-- Two sessions have a scan of the same file, as far as it can be told from its replies. -/
def Matching (name : String) (place hand : Prop) (s t : Session MemoryFiles) : Prop :=
  ∃ scan scan' rest rest', s.handles.find? name = some (.scan scan) ∧
    t.handles.find? name = some (.scan scan') ∧ scan'.filter = scan.filter ∧
    scan'.mark = scan.mark ∧
    HeapFile.Paired rest rest' place hand ⟨s.db, scan.heap⟩ ⟨t.db, scan'.heap⟩

theorem Matching.mono {place' hand' : Prop} (h : Matching name place hand s t)
    (hplace : place' → place) (hhand : hand' → hand) : Matching name place' hand' s t := by
  obtain ⟨scan, scan', rest, rest', hfind, hfind', hfilter, hmark, hpaired⟩ := h
  exact ⟨scan, scan', rest, rest', hfind, hfind', hfilter, hmark, hpaired.mono hplace hhand⟩

/-- A scan carries out the commands that are sent to it. -/
theorem run_tell (hfind : s.handles.find? name = some (.scan scan)) :
    perform (.tell name c') s = onScan name scan c' s := by
  refine (bind_run_ok rfl _).trans ?_
  rw [hfind]

end Session

/-- What a scan must have in common with another one for a command to be answered alike: the place
from which it goes on, or the record that it has in hand. -/
def HandleCommand.Covered (place hand : Prop) : HandleCommand → Prop
  | .current | .reset => True
  | .next | .mark => place
  | .read | .modify .. | .delete => hand
  | _ => False

/-- Whether a reply says that a scan has come to a place, wherever it was before. -/
def HandleCommand.Arrives : HandleCommand → Reply → Prop
  | .next, .address _ => True
  | .reset, .done => True
  | _, _ => False

namespace Session

variable {capacity : Nat} {s s' t t' : Session MemoryFiles} {heaps : Set FileId} {c : Command}
variable {c' : HandleCommand} {reply : Reply} {name : String} {scan scan' : Scan} {rid : RecordId}
variable {place hand : Prop} {rest rest' : Multiset Pin}

/-- An operation on the heap files behind two scans. -/
theorem concurs_onHeap {α : Type} {x : HeapAction MemoryFiles α} {heap heap' : HeapFile}
    {filter : Option Filter} {mark : Option ScanMark} {place' hand' : Prop} (reply : α → Reply)
    (hx : Concurs x x ⟨s.db, heap⟩ ⟨t.db, heap'⟩
      (fun _ => HeapFile.Paired rest rest' place' hand')
      (fun _ => HeapFile.Paired rest rest' place hand))
    (hplace : ∀ a, place ∨ c'.Arrives (reply a) → place')
    (hhand : ∀ a, hand ∨ c'.Arrives (reply a) → hand') :
    Concurs (do return reply (← onHeap name heap (fun heap => .scan ⟨heap, filter, mark⟩) x))
      (do return reply (← onHeap name heap' (fun heap => .scan ⟨heap, filter, mark⟩) x))
      s t (fun reply => Matching name (place ∨ c'.Arrives reply) (hand ∨ c'.Arrives reply))
      (fun _ => Matching name place hand) := by
  refine concurs_bind (p := fun _ => Matching name place' hand') (concurs_onPart (hx.mono ?_ ?_))
    fun a _ _ hpost => concurs_pure (hpost.mono (hplace a) (hhand a))
  · intro a u v hpaired
    exact ⟨_, _, rest, rest', Table.find?_put_self _ _ _, Table.find?_put_self _ _ _, rfl, rfl,
      hpaired⟩
  · intro e u v hpaired
    exact ⟨_, _, rest, rest', Table.find?_put_self _ _ _, Table.find?_put_self _ _ _, rfl, rfl,
      hpaired⟩

/-- Two sound sessions have a scan of the same file, which stands on no record at the end. -/
structure Alongside (name : String) (place hand : Prop) (s t : Session MemoryFiles) : Prop where
  left : s.Sound ∧ Settled name s
  right : t.Sound ∧ Settled name t
  matching : Matching name place hand s t

/-- What depends on nothing but what two scans have in common is answered alike. -/
theorem Alongside.concurs (h : Alongside name place hand s t) (hc : c'.Covered place hand) :
    Concurs (perform (.tell name c')) (perform (.tell name c')) s t
      (fun reply => Matching name (place ∨ c'.Arrives reply) (hand ∨ c'.Arrives reply))
      (fun _ => Matching name place hand) := by
  obtain ⟨⟨heap, _, _⟩, ⟨heap', filter, mark⟩, rest, rest', hfind, hfind', rfl, rfl, hpaired⟩ :=
    h.matching
  obtain ⟨_, hfind₀, hproper, hmarked⟩ := h.left.2
  cases hfind₀.symm.trans hfind
  refine Concurs.of_run_eq ?_ (run_tell hfind) (run_tell hfind')
  have hkept (reply : Reply) (hno : ¬c'.Arrives reply) {p : Prop} (hp : p ∨ c'.Arrives reply) : p :=
    hp.resolve_right hno
  cases c' with
  | current =>
    have hself : Matching name place hand s t :=
      ⟨_, _, rest, rest', hfind, hfind', rfl, rfl, hpaired⟩
    change Concurs (pure (Reply.address heap.record)) (pure (Reply.address heap'.record)) s t _ _
    rw [hpaired.record]
    exact concurs_pure (hself.mono (hkept _ id) (hkept _ id))
  | next =>
    obtain ⟨header, hv⟩ := h.left.1.hasHeap hfind rfl
    have hx := HeapFile.concurs_scanNext (hpaired.mono (fun _ => hc) id) hv hproper filter
    exact concurs_onHeap .address (hx.mono (fun _ _ _ => id)
      fun _ _ _ hpost => hpost.mono (fun _ => trivial) fun _ => trivial)
      (fun _ _ => trivial) fun _ _ => trivial
  | read =>
    have hx := HeapFile.concurs_readCurrent (hpaired.mono id fun _ => hc)
    exact concurs_onHeap .record (hx.mono (fun _ _ _ => id)
      fun _ _ _ hpost => hpost.mono id fun _ => trivial) (fun _ => hkept _ id) fun _ _ => trivial
  | modify offset bytes =>
    have hx := HeapFile.concurs_modifyCurrent (hpaired.mono id fun _ => hc)
      (Edit.store offset bytes)
    exact concurs_onHeap (fun _ => .done) (hx.mono (fun _ _ _ => id)
      fun _ _ _ hpost => hpost.mono id fun _ => trivial) (fun _ => hkept _ id) fun _ _ => trivial
  | delete =>
    have hx := HeapFile.concurs_deleteCurrent (hpaired.mono id fun _ => hc)
    exact concurs_onHeap (fun _ => .done) (hx.mono (fun _ _ _ => id)
      fun _ _ _ hpost => hpost.mono id fun _ => trivial) (fun _ => hkept _ id) fun _ _ => trivial
  | mark =>
    have hsame : heap'.mark = heap.mark := by
      unfold HeapFile.mark
      rw [hpaired.position hc, hpaired.record]
    exact .answered rfl rfl ⟨_, _, rest, rest', Table.find?_put_self _ _ _,
      Table.find?_put_self _ _ _, rfl, congrArg some hsame,
      hpaired.mono (hkept .done id) (hkept .done id)⟩
  | reset =>
    exact concurs_onHeap (fun _ => .done) (HeapFile.concurs_resetTo hpaired mark hmarked)
      (fun _ _ => trivial) fun _ _ => trivial
  | _ => exact hc.elim

/-- A command that is covered leaves a scan open. -/
theorem usable_of_covered (name : String) (s : Session MemoryFiles)
    (hc : c'.Covered place hand) :
    (Command.tell name c').HeapLevel ∧ s.CanRun (.tell name c') ∧ ¬c'.Closes := by
  cases c' with
  | current | next | read | modify | delete | mark | reset => exact ⟨trivial, trivial, id⟩
  | _ => exact hc.elim

/-- A command that is covered is replied to, and the scan is in order afterwards. -/
theorem exists_reply (h : s.Sound ∧ Settled name s) (hc : c'.Covered place hand) :
    ∃ reply s', Session.step s (.tell name c') = .ok (reply, s') ∧ s'.Sound ∧ Settled name s' := by
  obtain ⟨hlevel, hcan, hopen⟩ := usable_of_covered name s hc
  obtain ⟨h, scan, hfind, hproper, hmark⟩ := h
  have hobeys := (ensures_tell hfind).2 (obeys_onScan h hfind hlevel hcan)
  have hsettled {reply : Reply} {s' : Session MemoryFiles}
      (hstep : Session.step s (.tell name c') = .ok (reply, s')) : Settled name s' :=
    settled_of_led hproper hmark (led_of_tell h hfind hopen hlevel hstep)
  cases hrun : perform (.tell name c') s with
  | ok reply s' =>
    exact ⟨reply, s', step_of_ok hrun, (hobeys.of_ok hrun).sound, hsettled (step_of_ok hrun)⟩
  | error f s' =>
    cases f with
    | error e =>
      exact ⟨.failed e, s', step_of_refused hrun, (hobeys.of_error hrun).sound,
        hsettled (step_of_refused hrun)⟩
    | trap c => exact (hobeys.not_trap hrun).elim

theorem not_arrives_failed (c' : HandleCommand) (e : StorageError) : ¬c'.Arrives (.failed e) := by
  cases c' <;> exact id

/-- What lacks a frame is refused for that. -/
theorem exhausted_of_lacks (hlacks : (perform c).Lacks s)
    (hstep : Session.step s c = .ok (reply, s')) : reply = .failed .bufferPoolExhausted := by
  rcases run_of_step hstep with hrun | ⟨e, rfl, hrun⟩
  · cases hlacks with
    | exhausted run => cases run.symm.trans hrun
    | stopped run => cases run.symm.trans hrun
  · cases hlacks with
    | exhausted run =>
      cases run.symm.trans hrun
      rfl
    | stopped run => cases run.symm.trans hrun

/-- A command that is covered gets the same reply in both sessions, if neither lacks a frame for it.
-/
theorem Alongside.step {reply' : Reply} (h : Alongside name place hand s t)
    (hc : c'.Covered place hand) (hs : Session.step s (.tell name c') = .ok (reply, s'))
    (ht : Session.step t (.tell name c') = .ok (reply', t'))
    (hframe : reply ≠ .failed .bufferPoolExhausted)
    (hframe' : reply' ≠ .failed .bufferPoolExhausted) :
    reply' = reply ∧ Alongside name (place ∨ c'.Arrives reply) (hand ∨ c'.Arrives reply) s' t' := by
  obtain ⟨_, _, hs', hleft⟩ := exists_reply h.left hc
  cases hs'.symm.trans hs
  obtain ⟨_, _, ht', hright⟩ := exists_reply h.right hc
  cases ht'.symm.trans ht
  have hsame : reply' = reply ∧
      Matching name (place ∨ c'.Arrives reply) (hand ∨ c'.Arrives reply) s' t' := by
    cases h.concurs hc with
    | left lacks => exact absurd (exhausted_of_lacks lacks hs) hframe
    | right lacks => exact absurd (exhausted_of_lacks lacks ht) hframe'
    | answered left right post =>
      cases (step_of_ok left).symm.trans hs
      cases (step_of_ok right).symm.trans ht
      exact ⟨rfl, post⟩
    | @refused e _ _ left right post =>
      cases (step_of_refused left).symm.trans hs
      cases (step_of_refused right).symm.trans ht
      have hnot := not_arrives_failed c' e
      exact ⟨rfl, post.mono (·.resolve_right hnot) (·.resolve_right hnot)⟩
  exact ⟨hsame.1, hleft, hright, hsame.2⟩

/-! ## Talking to a scan -/

/-- The commands that are told to a handle one after the other, with the replies to them. -/
inductive Talks (name : String) :
    Session MemoryFiles → List (HandleCommand × Reply) → Session MemoryFiles → Prop
  /-- Nothing is told. -/
  | nil {s : Session MemoryFiles} : Talks name s [] s
  /-- A command is told before others. -/
  | cons {s t u : Session MemoryFiles} {c : HandleCommand} {reply : Reply}
      {talk : List (HandleCommand × Reply)} :
      Session.step s (.tell name c) = .ok (reply, t) → Talks name t talk u →
      Talks name s ((c, reply) :: talk) u

/-- Every command depends only on what a scan has in common with another one at first, or since it
has come to a place. -/
def Covers (place hand : Prop) : List (HandleCommand × Reply) → Prop
  | [] => True
  | (c, reply) :: talk =>
    c.Covered place hand ∧ Covers (place ∨ c.Arrives reply) (hand ∨ c.Arrives reply) talk

/-- No command was refused for want of a frame. -/
def Framed (talk : List (HandleCommand × Reply)) : Prop :=
  ∀ said ∈ talk, said.2 ≠ .failed .bufferPoolExhausted

variable {talk talk' : List (HandleCommand × Reply)}

/-- All commands that can be covered are so if nothing is different. -/
theorem covers_of_forall (hplace : place) (hhand : hand)
    (h : ∀ said ∈ talk, said.1.Covered True True) : Covers place hand talk := by
  induction talk generalizing place hand with
  | nil => trivial
  | cons said talk ih =>
    obtain ⟨c, reply⟩ := said
    have hc := h _ (List.mem_cons_self ..)
    rw [eq_true hplace, eq_true hhand]
    exact ⟨hc, ih (.inl trivial) (.inl trivial) fun said hsaid =>
      h said (List.mem_cons_of_mem _ hsaid)⟩

/-- Whatever is told to a scan, there are replies. -/
theorem exists_talk (h : s.Sound ∧ Settled name s) (asked : List HandleCommand)
    (hasked : ∀ c ∈ asked, c.Covered True True) :
    ∃ talk s', Talks name s talk s' ∧ talk.map Prod.fst = asked := by
  induction asked generalizing s with
  | nil => exact ⟨[], s, .nil, rfl⟩
  | cons c asked ih =>
    obtain ⟨reply, t, hstep, h'⟩ := exists_reply h (hasked c (List.mem_cons_self ..))
    obtain ⟨talk, u, htalk, hmap⟩ := ih h' fun c hc => hasked c (List.mem_cons_of_mem _ hc)
    exact ⟨(c, reply) :: talk, u, .cons hstep htalk, congrArg (c :: ·) hmap⟩

/-- Two scans give the same replies to what is covered, if neither lacks a frame. -/
theorem Alongside.talk_eq (h : Alongside name place hand s t) (hs : Talks name s talk s')
    (ht : Talks name t talk' t') (hasked : talk'.map Prod.fst = talk.map Prod.fst)
    (hcovers : Covers place hand talk) (hframed : Framed talk) (hframed' : Framed talk') :
    talk' = talk := by
  induction hs generalizing t talk' place hand with
  | nil => exact List.map_eq_nil_iff.1 hasked
  | @cons s s₁ u c reply talk hstep _ ih =>
    cases ht with
    | nil => cases hasked
    | @cons _ t₁ _ c₁ reply₁ talk₁ hstep₁ htalk₁ =>
      obtain ⟨hsame, hbehind⟩ := List.cons_eq_cons.1 hasked
      obtain rfl : c₁ = c := hsame
      obtain ⟨hc, hcovers⟩ := hcovers
      obtain ⟨rfl, halong⟩ := h.step hc hstep hstep₁ (hframed _ (List.mem_cons_self ..))
        (hframed' _ (List.mem_cons_self ..))
      have hrest := ih halong htalk₁ hbehind hcovers
        (fun said hsaid => hframed said (List.mem_cons_of_mem _ hsaid))
        fun said hsaid => hframed' said (List.mem_cons_of_mem _ hsaid)
      rw [hrest]

/-! ## What a refused lookup leaves behind -/

/-- What a lookup that was refused leaves behind. -/
structure Missed (name : String) (rid : RecordId) (s t : Session MemoryFiles) (scan scan' : Scan) :
    Prop where
  /-- All pages of all files are as they were. -/
  volume : law.volume t.db = law.volume s.db
  /-- So are the other handles, -/
  others : ∀ other, other ≠ name → t.handles.find? other = s.handles.find? other
  /-- the filter and the mark of the scan -/
  filter : scan'.filter = scan.filter
  mark : scan'.mark = scan.mark
  /-- and the record on which it stands. -/
  record : scan'.heap.record = scan.heap.record
  /-- It goes on from where it would have gone on, unless there is no record at the address, but the
  page is there and was pinned. -/
  position : scan'.heap.position = scan.heap.position ∨
    (law.volume s.db scan.heap.file.id).Has rid.page ∧
      (law.volume s.db scan.heap.file.id).record? rid = none ∧
      scan'.heap.position = some rid.page
  /-- If the scan was on the page of the address, with this page pinned or without a record, it is
  where it was. -/
  here : scan.heap.position = some rid.page →
    scan.heap.currentPage? = some rid.page ∨ scan.heap.record = none →
    scan'.heap.position = scan.heap.position ∧ scan'.heap.inHand = scan.heap.inHand
  /-- Whatever is told to the scan afterwards, it replies as if it had not been asked, apart from a
  lack of frames: if the scan is where it was, and also if each command depends only on what the
  scan has kept or has come to since. -/
  replies : ∀ asked : List HandleCommand, (∀ c ∈ asked, c.Covered True True) →
    ∃ talk s' talk' t', Talks name s talk s' ∧ Talks name t talk' t' ∧
      talk.map Prod.fst = asked ∧ talk'.map Prod.fst = asked ∧
      (Framed talk → Framed talk' →
        (scan'.heap.position = scan.heap.position → scan'.heap.inHand = scan.heap.inHand →
          talk' = talk) ∧
        (Covers (scan'.heap.position = scan.heap.position)
          (scan'.heap.inHand = scan.heap.inHand) talk → talk' = talk))

/-- A scan whose current page is the page of an address stays there. -/
theorem ensures_switchTo_current {h : HeapState MemoryFiles} {page : PageId}
    (hcurrent : h.heap.currentPage? = some page) :
    (HeapFile.switchTo page).Ensures h (fun _ _ => True) Never := by
  unfold HeapFile.switchTo
  rw [ensures_bind, ensures_get]
  simp only [hcurrent, ne_eq, not_true_eq_false, if_false]
  trivial

/-- What a lookup leaves of a scan if it finds no record: the scan stands on its record, but its
page is not pinned, or the page of the address is the one from which it goes on. -/
def LeftBy (e : StorageError) (rid : RecordId) (s u : HeapState MemoryFiles) : Prop :=
  HeapFile.switchTo rid.page s = .error (.error e) u ∧
      u.heap.At s.heap.position s.heap.record none ∨
    (HeapFile.volume law s).Has rid.page ∧ (HeapFile.volume law s).record? rid = none ∧
      u.heap.At (some rid.page) s.heap.record (some rid.page)

section LeftBy

variable {e : StorageError} {h u : HeapState MemoryFiles} (hleft : LeftBy e rid h u)
include hleft

theorem LeftBy.record : u.heap.record = h.heap.record := by
  rcases hleft with ⟨-, hat⟩ | ⟨-, -, hat⟩
  · exact hat.record
  · exact hat.record

/-- A scan that was on the page of the address is where it was. -/
theorem LeftBy.here (hposition : h.heap.position = some rid.page)
    (hpinned : h.heap.currentPage? = some rid.page ∨ h.heap.record = none) :
    u.heap.position = h.heap.position ∧ u.heap.inHand = h.heap.inHand := by
  have hsame (hnone : h.heap.record = none) : u.heap.inHand = h.heap.inHand := by
    rw [HeapFile.inHand_of_record_eq_none hnone,
      HeapFile.inHand_of_record_eq_none (hleft.record.trans hnone)]
  rcases hleft with ⟨hrun, hat⟩ | ⟨-, -, hat⟩
  · refine ⟨hat.position, ?_⟩
    rcases hpinned with hcurrent | hnone
    · exact ((ensures_switchTo_current hcurrent).of_error hrun).elim
    · exact hsame hnone
  · refine ⟨hat.position.trans hposition.symm, ?_⟩
    rcases hpinned with hcurrent | hnone
    · exact HeapFile.inHand_congr hat.record (hat.page.trans hcurrent.symm)
    · exact hsame hnone

end LeftBy

/-- A lookup that is refused leaves a heap file with the same pages behind the scan. -/
theorem ensures_lookup (h : s.Sound) (hfind : s.handles.find? name = some (.scan scan))
    (rid : RecordId) :
    (perform (.tell name (.readAt rid))).Ensures s
      (fun reply _ => ∃ bytes, reply = .record bytes ∧
        (law.volume s.db scan.heap.file.id).record? rid = some bytes)
      (fun e t => ∃ u, t = ⟨u.db, s.handles.put name (.scan { scan with heap := u.heap })⟩ ∧
        StaysAt s name scan.heap u ∧ LeftBy e rid ⟨s.db, scan.heap⟩ u) := by
  have hattached := h.attached hfind rfl
  obtain ⟨header, hv⟩ := h.hasHeap hfind rfl
  rw [ensures_tell hfind]
  unfold onScan
  dsimp only
  rw [ensures_bind, ensures_onHeap]
  refine (HeapFile.ensures_getRecord hattached hv rid).mono ?_ ?_
  · rintro bytes u ⟨-, hbytes, -⟩
    exact ⟨bytes, rfl, hbytes⟩
  · rintro e u ⟨hstays, hleft⟩
    exact ⟨u, rfl, hstays, hleft.imp_left And.right⟩

/-- A lookup that is refused changes no page, and the scan behaves as if it had not been made, but
for the place and the record in hand that it may have cost. -/
theorem Uses.missed {e : StorageError} (uses : Uses capacity name s)
    (hstep : Session.step s (.tell name (.readAt rid)) = .ok (.failed e, t)) :
    ∃ scan scan', s.handles.find? name = some (.scan scan) ∧
      t.handles.find? name = some (.scan scan') ∧ Missed name rid s t scan scan' := by
  have hlevel : (Command.tell name (.readAt rid)).HeapLevel := trivial
  obtain ⟨hsound, hsmall, hsettled⟩ := uses.settled
  have ⟨scan, hfind, _⟩ := hsettled
  rcases of_step (ensures_lookup hsound hfind rid) hstep with ⟨_, hreply, -⟩ | ⟨_, he, hmissed⟩
  · cases hreply
  obtain rfl := Reply.failed.inj he
  obtain ⟨u, rfl, hstays, hleft⟩ := hmissed
  have hfind' : (s.handles.put name (.scan { scan with heap := u.heap })).find? name =
      some (.scan { scan with heap := u.heap }) := Table.find?_put_self ..
  have hvolume : law.volume u.db = law.volume s.db := PageStore.Reliable.volume_of_same hstays.same
  have hsmall' : Session.Small ⟨u.db, s.handles.put name (.scan { scan with heap := u.heap })⟩ := by
    intro file
    rw [hvolume]
    exact hsmall file
  have hopen (c' : HandleCommand) (hc' : Command.tell name (.readAt rid) = .tell name c') :
      ¬c'.Closes := by
    cases hc'
    exact id
  obtain ⟨hsound', -, hsettled'⟩ := (uses.step hlevel hopen hstep hsmall').settled
  -- The scans have in common what the lookup has kept.
  have halong : Alongside name (u.heap.position = scan.heap.position)
      (u.heap.inHand = scan.heap.inHand) s
      ⟨u.db, s.handles.put name (.scan { scan with heap := u.heap })⟩ :=
    ⟨⟨hsound, hsettled⟩, ⟨hsound', hsettled'⟩, scan, _, _, _, hfind, hfind', rfl, rfl,
      hsound.attached hfind rfl, hsound'.attached hfind' rfl, hstays.file, hstays.volume_eq,
      hleft.record, id, id⟩
  refine ⟨scan, _, hfind, hfind', hvolume, ?_, rfl, rfl, hleft.record, ?_, hleft.here, ?_⟩
  · intro other hother
    exact Table.find?_put_of_ne (Ne.symm hother) ..
  · rcases hleft with ⟨-, hat⟩ | ⟨hhas, hnone, hat⟩
    · exact .inl hat.position
    · exact .inr ⟨hhas, hnone, hat.position⟩
  · intro asked hasked
    obtain ⟨talk, s', htalk, hmap⟩ := exists_talk halong.left asked hasked
    obtain ⟨talk', t', htalk', hmap'⟩ := exists_talk halong.right asked hasked
    have hsame := hmap'.trans hmap.symm
    refine ⟨talk, s', talk', t', htalk, htalk', hmap, hmap', fun hframed hframed' => ⟨?_, ?_⟩⟩
    · intro hplace hhand
      have hcovers := covers_of_forall hplace hhand fun said hsaid =>
        hasked said.1 (hmap ▸ List.mem_map_of_mem hsaid)
      exact halong.talk_eq htalk htalk' hsame hcovers hframed hframed'
    · intro hcovers
      exact halong.talk_eq htalk htalk' hsame hcovers hframed hframed'

/-- A scan that was just opened is asked for a record of the page that callers cannot access. -/
theorem Uses.missed_opened : ∃ s t e scan scan', Uses 8 "h" s ∧
    Session.step s (.tell "h" (.readAt ⟨⟨0⟩, 0⟩)) = .ok (.failed e, t) ∧
    s.handles.find? "h" = some (.scan scan) ∧ t.handles.find? "h" = some (.scan scan') ∧
    Missed "h" ⟨⟨0⟩, 0⟩ s t scan scan' := by
  obtain ⟨_, _, s, heap, run, -, hopen, hsmall, hfind⟩ := run_open .scan
  have uses : Uses 8 "h" s := .opened run hopen hsmall
  have hlevel : (Command.tell "h" (.readAt ⟨⟨0⟩, 0⟩)).HeapLevel := trivial
  obtain ⟨hsound, -, -⟩ := uses.settled
  obtain ⟨header, hv⟩ := hsound.hasHeap hfind rfl
  obtain ⟨reply, t, hstep⟩ := exists_step hsound hsmall hlevel trivial
  -- No file has a record on that page.
  have hnone : (law.volume s.db heap.file.id).record? ⟨⟨0⟩, 0⟩ = none :=
    Volume.record?_of_not_isData fun hdata => by cases hdata.has.1
  rcases of_step (ensures_lookup hsound hfind ⟨⟨0⟩, 0⟩) hstep with
    ⟨bytes, -, hbytes⟩ | ⟨e, rfl, -⟩
  · cases hnone.symm.trans hbytes
  · obtain ⟨scan, scan', hscan, hscan', hmissed⟩ := Uses.missed uses hstep
    exact ⟨s, t, e, scan, scan', uses, hstep, hscan, hscan', hmissed⟩

end Session

end PagedHeap
