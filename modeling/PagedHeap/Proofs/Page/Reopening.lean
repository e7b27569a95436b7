import PagedHeap.Proofs.Page.Map

/-!
# Pages that are read again

Whoever works on the pages of a file keeps nothing but their bytes between two operations: for each
operation the bytes are read as a page, and the bytes of the page after it are stored
(`SlottedPage.runAfresh`).  A page that was laid out empty and then worked on is the page that its
bytes are read as, header and all, so that nothing is lost on the way through the bytes
(`SlottedPage.Reached.survives`).

The one header that does not survive is that of a page which was linked to the number of no page:
its link is read as the end of the chain.
-/

namespace PagedHeap

namespace PageCommand

/-- The operation does not link a page to the number of no page. -/
def LinksToPages : PageCommand → Prop
  | .setNext target => target ≠ some .invalid
  | _ => True

/-- The link of a page after an operation. -/
def linkAfter (link : Option PageId) : PageCommand → Option PageId
  | .setNext target => target
  | _ => link

theorem LinksToPages.linkAfter_ne {c : PageCommand} (hc : c.LinksToPages) {link : Option PageId}
    (hlink : link ≠ some .invalid) : c.linkAfter link ≠ some .invalid := by
  cases c with
  | setNext target => exact hc
  | _ => exact hlink

end PageCommand

namespace SlottedPage

/-- The pages that were laid out empty and then worked on, and linked to pages only.  A refused
operation is among them and changes nothing. -/
inductive Reached : SlottedPage → Prop
  | format {n : Nat} {b : Block n} {page : PageId} {p : SlottedPage} :
      format b page = .ok p → Reached p
  | step {p q : SlottedPage} {c : PageCommand} {reply : PageReply} :
      Reached p → c.OnPage → c.LinksToPages → p.step c = .ok (reply, q) → Reached q

/-- Carries out operations one after the other on the bytes of a page, which are read again for
each of them.  The answers come with the bytes after each; a failure ends the sequence. -/
def runAfresh (data : Page) : List PageCommand → List (PageReply × Page) × Option Failure
  | [] => ([], none)
  | c :: cs =>
    match read data with
    | .error e => ([], some e)
    | .ok p =>
      match p.step c with
      | .error t => ([], some (.trap t))
      | .ok (reply, q) =>
        let (rest, failure) := runAfresh q.data cs
        ((reply, q.data) :: rest, failure)

/-- What is seen of a sequence of operations from outside: the answers and the bytes of the page
after each. -/
def seen (outcome : List (PageReply × SlottedPage) × Option Trap) :
    List (PageReply × Page) × Option Failure :=
  (outcome.1.map fun (reply, q) => (reply, q.data), outcome.2.map .trap)

variable {p q : SlottedPage} {c : PageCommand} {reply : PageReply}

/-! ## The link of a page -/

/-- An operation that changes the page either does so or is refused and leaves it. -/
theorem settle_cases {α : Type} {result : Result (α × SlottedPage)} {answer : α → PageReply}
    (h : p.settle result answer = .ok (reply, q)) :
    (∃ a, result = .ok (a, q)) ∨ q = p := by
  unfold settle at h
  split at h
  · next a q' =>
    cases h
    exact .inl ⟨a, rfl⟩
  · cases h
    exact .inr rfl
  · cases h

/-- A change that has no answer of its own leads to the page after it. -/
theorem eq_ok_of_map {result : Result SlottedPage}
    (h : result.map (Prod.mk ()) = .ok ((), q)) : result = .ok q := by
  cases result with
  | error e => cases h
  | ok r =>
    cases h
    rfl

namespace WellFormed

variable (h : p.WellFormed)
include h

/-- An insert does not change the link. -/
theorem next_insert {record : Bytes} {slot : SlotId} (hq : p.insert record = .ok (slot, q)) :
    q.WellFormed ∧ q.next = p.next := by
  rcases h.insert_cases record with ⟨_, _, heq, hinserted⟩ | ⟨e, he⟩
  · cases hq.symm.trans heq
    exact ⟨hinserted.wellFormed, hinserted.next⟩
  · cases hq.symm.trans he

/-- Filling a page does not change its link. -/
theorem next_fill {record : Bytes} {count : Nat} {slots : List SlotId}
    {stopped : Option StorageError} (hq : p.fill record count = .ok (slots, stopped, q)) :
    q.next = p.next := by
  induction count generalizing p slots with
  | zero =>
    cases hq
    rfl
  | succ k ih =>
    rcases h.insert_cases record with ⟨slot, r, hr, hinserted⟩ | ⟨e, he⟩
    · simp only [fill, hr] at hq
      cases hrest : r.fill record k with
      | error t =>
        rw [hrest] at hq
        cases hq
      | ok rest =>
        rw [hrest] at hq
        cases hq
        exact (ih hinserted.wellFormed hrest).trans hinserted.next
    · simp only [fill, he] at hq
      cases hq
      rfl

/-- An operation changes the link only if that is what it does. -/
theorem next_step (hc : c.OnPage) (hstep : p.step c = .ok (reply, q)) :
    q.next = c.linkAfter p.next := by
  cases c with
  | insert record =>
    rcases settle_cases hstep with ⟨slot, hq⟩ | rfl
    · exact (h.next_insert hq).2
    · rfl
  | fill record count =>
    simp only [SlottedPage.step] at hstep
    cases hfill : p.fill record count with
    | error t =>
      rw [hfill] at hstep
      cases hstep
    | ok filled =>
      rw [hfill] at hstep
      cases hstep
      exact h.next_fill hfill
  | delete slot =>
    rcases settle_cases hstep with ⟨_, hq⟩ | rfl
    · cases hslot : p.record? slot with
      | none => cases (h.delete_of_none hslot).symm.trans (eq_ok_of_map hq)
      | some old =>
        obtain ⟨_, heq, -, -, hnext, -⟩ := h.delete_eq (by rw [hslot]; rfl)
        cases (eq_ok_of_map hq).symm.trans heq
        exact hnext
    · rfl
  | modify slot offset new =>
    rcases settle_cases hstep with ⟨_, hq⟩ | rfl
    · cases hslot : p.record? slot with
      | none => cases (h.modify_of_none hslot _).symm.trans (eq_ok_of_map hq)
      | some old =>
        obtain ⟨_, heq, -, -, hnext, -⟩ := h.modify_eq hslot (Edit.store offset new)
        cases (eq_ok_of_map hq).symm.trans heq
        exact hnext
    · rfl
  | compact =>
    rcases settle_cases hstep with ⟨_, hq⟩ | rfl
    · obtain ⟨_, heq, hcompacted⟩ := h.compact_eq
      cases (eq_ok_of_map hq).symm.trans heq
      have hnext : q.header.next = p.header.next := by rw [hcompacted.header]
      exact hnext
    · rfl
  | get slot =>
    rcases settle_cases hstep with ⟨_, hq⟩ | rfl
    · cases hget : p.get slot with
      | error e =>
        rw [hget] at hq
        cases hq
      | ok record =>
        rw [hget] at hq
        cases hq
        rfl
    · rfl
  | setNext next =>
    cases hstep
    exact (h.setNext next).2.2.1
  | first | next _ | records | header | bytes _ _ =>
    cases hstep
    rfl
  | reopen patches => exact hc.elim

end WellFormed

/-! ## Pages that were worked on -/

/-- A page that was worked on is well-formed and links to a page, if to anything. -/
theorem Reached.sound (h : Reached p) : p.WellFormed ∧ p.next ≠ some .invalid := by
  induction h with
  | format h =>
    rw [eq_empty_of_format h]
    exact ⟨wellFormed_empty _, nofun⟩
  | @step p q c reply _ hc hlinks hstep ih =>
    obtain ⟨hwf, hnext⟩ := ih
    obtain ⟨_, _, heq, hq, -⟩ := hwf.step c hc
    cases hstep.symm.trans heq
    exact ⟨hq, hwf.next_step hc hstep ▸ hlinks.linkAfter_ne hnext⟩

/-- Reading the bytes again for each operation makes no difference, and no operation fails. -/
theorem Reached.runAfresh_eq (h : Reached p) (cs : List PageCommand)
    (hcs : ∀ c ∈ cs, c.OnPage ∧ c.LinksToPages) :
    runAfresh p.data cs = seen (p.run cs) ∧ (p.run cs).2 = none := by
  induction cs generalizing p with
  | nil => exact ⟨rfl, rfl⟩
  | cons c cs ih =>
    obtain ⟨hc, hlinks⟩ := hcs c (List.mem_cons_self ..)
    obtain ⟨hwf, hnext⟩ := h.sound
    obtain ⟨reply, q, hstep, -⟩ := hwf.step c hc
    obtain ⟨hrest, hdone⟩ :=
      ih (h.step hc hlinks hstep) fun c hmem => hcs c (List.mem_cons_of_mem _ hmem)
    simp only [runAfresh, run, hwf.read hnext, hstep, hrest, hdone, seen, Option.map_none,
      List.map_cons, and_self]

/-- What the bytes of a page keep of it. -/
structure Survives (p : SlottedPage) : Prop where
  /-- The bytes are read as the page that they are the bytes of, with the same header.  From there
  on every operation does what it does on the page itself. -/
  read : SlottedPage.read p.data = .ok p
  /-- If the bytes are read again for each operation of a sequence, the answers and the bytes after
  each operation are those of the page that is read once, and no operation fails. -/
  runAfresh : ∀ cs : List PageCommand, (∀ c ∈ cs, c.OnPage ∧ c.LinksToPages) →
    runAfresh p.data cs = seen (p.run cs) ∧ (p.run cs).2 = none

/-- Nothing of a page is lost on the way through its bytes. -/
theorem Reached.survives (h : Reached p) : p.Survives where
  read := h.sound.1.read h.sound.2
  runAfresh := h.runAfresh_eq

set_option maxRecDepth 20000 in
/-- A page that was linked, and from which the first of two records was deleted. -/
theorem Reached.survives_linked : ∃ p, Reached p ∧ p.next = some ⟨9⟩ ∧ p.Survives := by
  obtain ⟨q, r, s, hq, hr, hs⟩ : ∃ q r s, (empty ⟨5⟩).step (.insert [7]) = .ok (.slot 0, q) ∧
      q.step (.insert []) = .ok (.slot 1, r) ∧ r.step (.delete 0) = .ok (.done, s) :=
    ⟨_, _, _, rfl, rfl, rfl⟩
  have hempty : Reached (empty ⟨5⟩) := .format (b := Block.zero pageSize) rfl
  have hfirst := hempty.step (c := .insert [7]) trivial trivial hq
  have hsecond := hfirst.step (c := .insert []) trivial trivial hr
  have hdeleted := hsecond.step (c := .delete 0) trivial trivial hs
  have hlinked : Reached (s.setNext (some ⟨9⟩)) :=
    hdeleted.step (c := .setNext (some ⟨9⟩)) trivial
      (show some (⟨9⟩ : PageId) ≠ some .invalid by decide) rfl
  exact ⟨_, hlinked, rfl, hlinked.survives⟩

end SlottedPage

end PagedHeap
