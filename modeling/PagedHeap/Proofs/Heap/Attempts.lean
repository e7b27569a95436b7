import PagedHeap.Proofs.Heap.Insert

/-!
# The pages that an insert tries

An insert tries the current page, goes on to the last page of the chain if there is no room, and
from there to a new page, until a record is stored.  Nothing counts these attempts.  That they come
to an end is seen from where the current page is (`HeapFile.Away`): it is some data page, the last
one, or an empty one, and each attempt without success leads further on (`HeapFile.Trying.retry`).

So there are at most two attempts without success and at most one new page
(`HeapFile.Trying.retries`), and it makes no difference how many more attempts are allowed
(`HeapFile.Trying.insertWithin_eq`).
-/

namespace PagedHeap

open PagedHeap.Action

namespace HeapFile

variable {σ : Type} [PageStore σ] {law : PageStore.Reliable σ} {rest : Multiset Pin}
variable {s t u : HeapState σ} {pin : Pin} {header : HeapHeader} {record : Bytes} {k m n : Nat}

/-- Makes the last page the current one if there is none. -/
def choosePage : HeapAction σ Unit := do
  if (← get).heap.current.isNone then switchTo (← HeapFile.header).lastPage

/-- A record that is not too long is inserted on the page that was chosen or on one that follows. -/
theorem insert_of_le (hlen : record.length ≤ maxRecordSize) :
    (HeapFile.insert record : HeapAction σ RecordId) =
      (do choosePage; insertWithin record 3) := by
  unfold HeapFile.insert choosePage
  rw [if_neg (Nat.not_lt.2 hlen), bind_assoc]
  refine bind_congr fun s => ?_
  cases s.heap.current with
  | none => exact (bind_assoc _ _ _).symm
  | some pin => rfl

/-- A record that is too long is refused at once. -/
theorem insert_of_long (hlong : maxRecordSize < record.length) :
    (HeapFile.insert record : HeapAction σ RecordId) =
      Action.refuse (.invalidRecordLength record.length maxRecordSize) := if_pos hlong

/-- From `s`, `k` pages were tried one after the other and had no room for the record. -/
inductive Retries (record : Bytes) (s : HeapState σ) : Nat → HeapState σ → Prop
  /-- No page was tried. -/
  | start : Retries record s 0 s
  /-- There is no room on the current page, and the next one becomes the current page. -/
  | retry {k : Nat} {t t' u : HeapState σ} : Retries record s k t →
      tryInsert record t = .ok none t' → advance t' = .ok () u → Retries record s (k + 1) u

/-- Where the current page is: a page with room is at most so many attempts away. -/
inductive Away (law : PageStore.Reliable σ) (s : HeapState σ) : Nat → Prop
  /-- The current page is empty. -/
  | empty : AtEmpty law s → Away law s 0
  /-- The current page is the last one, behind which a new page can be linked. -/
  | last {pin : Pin} : s.heap.current = some pin → (volume law s).IsLast pin.key.page → Away law s 1
  /-- The current page is any data page, from which the way leads to the last one. -/
  | data {pin : Pin} : s.heap.current = some pin → (volume law s).IsData pin.key.page → Away law s 2

/-- The current page is a data page in any case. -/
theorem Away.exists_current (h : Away law s n) (hv : (volume law s).IsHeap header) :
    ∃ pin, s.heap.current = some pin ∧ (volume law s).IsData pin.key.page := by
  have hdata {page : PageId} (hlast : (volume law s).IsLast page) : (volume law s).IsData page :=
    hv.eq_lastPage hlast ▸ hv.isData_last
  cases h with
  | empty hempty =>
    obtain ⟨pin, hcurrent, hlast, -⟩ := hempty
    exact ⟨pin, hcurrent, hdata hlast⟩
  | last hcurrent hlast => exact ⟨_, hcurrent, hdata hlast⟩
  | data hcurrent hpage => exact ⟨_, hcurrent, hpage⟩

/-- A page with records is at least one attempt away from one with room. -/
theorem Away.one_le_of_full (h : Away law s n) (hcurrent : s.heap.current = some pin)
    (hfull : (volume law s).data pin.key.page ≠ .empty pin.key.page) : 1 ≤ n := by
  cases h with
  | empty hempty =>
    obtain ⟨other, hother, -, hpage⟩ := hempty
    cases hcurrent.symm.trans hother
    exact absurd hpage hfull
  | last => exact Nat.le_refl 1
  | data => exact Nat.le_succ 1

/-- From another page than the last one, the way leads over the last one. -/
theorem Away.eq_two_of_ne (h : Away law s n) (hv : (volume law s).IsHeap header)
    (hcurrent : s.heap.current = some pin) (hne : pin.key.page ≠ header.lastPage) : n = 2 := by
  cases h with
  | empty hempty =>
    obtain ⟨other, hother, hlast, -⟩ := hempty
    cases hcurrent.symm.trans hother
    exact absurd (hv.eq_lastPage hlast) hne
  | last hother hlast =>
    cases hcurrent.symm.trans hother
    exact absurd (hv.eq_lastPage hlast) hne
  | data => rfl

/-- An insert whose current page is `n` attempts away from one with room.  There is a number for one
more record and, unless the current page is empty, for one more page. -/
structure Trying (law : PageStore.Reliable σ) (rest : Multiset Pin) (s : HeapState σ) (n : Nat) :
    Prop where
  attached : Attached law rest s
  heap : ∃ header, (volume law s).IsHeap header
  away : Away law s n
  records : (volume law s).recordCount + 1 < 2 ^ 32
  size : n ≠ 0 → (volume law s).size + 1 < 2 ^ 32

/-- What attempts without success change: a new page may be linked, and then the current page is
empty. -/
structure Passed (law : PageStore.Reliable σ) (rest : Multiset Pin) (s t : HeapState σ) (n : Nat) :
    Prop where
  trying : Trying law rest t n
  moves : Moves law rest s t
  record? : (volume law t).record? = (volume law s).record?
  size : (volume law t).size = (volume law s).size ∨
    n = 0 ∧ (volume law t).size = (volume law s).size + 1

theorem Passed.size_le (h : Passed law rest s t n) :
    (volume law t).size ≤ (volume law s).size + 1 := by
  rcases h.size with hsame | ⟨-, hgrown⟩
  · exact hsame.le.trans (Nat.le_succ _)
  · exact hgrown.le

/-- An attempt without success leads further on. -/
theorem Trying.retry (h : Trying law rest s n) (hlen : record.length ≤ maxRecordSize)
    (htry : tryInsert record s = .ok none t) (hadvance : advance t = .ok () u) :
    ∃ m < n, Passed law rest s u m := by
  obtain ⟨header, hv⟩ := h.heap
  obtain ⟨pin, hcurrent, hdata⟩ := h.away.exists_current hv
  rcases (ensures_tryInsert h.attached hv hcurrent hdata hlen h.records).of_ok htry with
    ⟨rid, heq, -⟩ | ⟨-, hstays, hheap, hfull⟩
  · cases heq
  have hpos := h.away.one_le_of_full hcurrent hfull
  have hmarked : t.heap.current = some pin.markDirty := by rw [hheap]
  have hvolume := hstays.volume_eq
  have hv₁ := hv
  rw [← hvolume] at hv₁
  by_cases hlast : pin.key.page = header.lastPage
  · -- a new page is linked
    have hsmall := h.size (Nat.ne_of_gt hpos)
    rw [← hvolume] at hsmall
    obtain ⟨hmoves, hempty, hrecord, hcount, hgrown⟩ :=
      (ensures_advance_of_last hstays.attached hv₁ hsmall hmarked hlast).of_ok hadvance
    rw [hvolume] at hrecord hcount hgrown
    have htrying : Trying law rest u 0 := by
      refine ⟨hmoves.attached, hmoves.heap, .empty hempty, ?_, fun hne => absurd rfl hne⟩
      rw [hcount]
      exact h.records
    exact ⟨0, hpos, htrying, (hstays.moves hv).trans hmoves, hrecord, .inr ⟨rfl, hgrown⟩⟩
  · -- the last page becomes the current one
    obtain rfl := h.away.eq_two_of_ne hv hcurrent hlast
    obtain ⟨hstays₂, pin₂, hcurrent₂, hpage₂⟩ :=
      (ensures_advance hstays.attached hv₁ hmarked hlast).of_ok hadvance
    have hstays' := hstays.trans hstays₂
    have hvolume' := hstays'.volume_eq
    have htrying : Trying law rest u 1 := by
      refine ⟨hstays'.attached, ⟨header, ?_⟩, .last hcurrent₂ ?_, ?_, fun _ => ?_⟩
      · rw [hvolume']
        exact hv
      · rw [hvolume', hpage₂]
        exact hv.isLast
      · rw [hvolume']
        exact h.records
      · rw [hvolume']
        exact h.size (Nat.succ_ne_zero 1)
    exact ⟨1, Nat.lt_succ_self 1, htrying, hstays'.moves hv, congrArg Volume.record? hvolume',
      .inl (congrArg Volume.size hvolume')⟩

/-- Attempts without success come to an end, and at most one page is linked on the way. -/
theorem Trying.retries (h : Trying law rest s n) (hlen : record.length ≤ maxRecordSize)
    (hretries : Retries record s k t) : ∃ m, m + k ≤ n ∧ Passed law rest s t m := by
  induction hretries with
  | start =>
    obtain ⟨header, hv⟩ := h.heap
    exact ⟨n, Nat.le_refl n, h, Stays.moves ⟨h.attached, .refl _, rfl⟩ hv, rfl, .inl rfl⟩
  | @retry k t t' u _ htry hadvance ih =>
    obtain ⟨m, hle, hpassed⟩ := ih
    obtain ⟨m', hlt, hnext⟩ := hpassed.trying.retry hlen htry hadvance
    have hsize : (volume law t).size = (volume law s).size :=
      hpassed.size.resolve_right fun hgrown => Nat.not_lt_zero m' (hgrown.1 ▸ hlt)
    refine ⟨m', ?_, hnext.trying, hpassed.moves.trans hnext.moves,
      hnext.record?.trans hpassed.record?, hsize ▸ hnext.size⟩
    calc m' + (k + 1) = m' + 1 + k := by rw [Nat.add_right_comm, Nat.add_assoc]
      _ ≤ m + k := Nat.add_le_add_right hlt k
      _ ≤ n := hle

/-- However many more attempts are allowed, the insert does the same. -/
theorem Trying.insertWithin_eq (h : Trying law rest s n) (hlen : record.length ≤ maxRecordSize)
    (k : Nat) : insertWithin record (k + (n + 1)) s = insertWithin record (n + 1) s := by
  induction n using Nat.strong_induction_on generalizing s k with
  | _ n ih =>
    rw [← Nat.add_assoc]
    unfold insertWithin
    cases htry : tryInsert record s with
    | error e t => rw [bind_run_error htry, bind_run_error htry]
    | ok answer t =>
      rw [bind_run_ok htry, bind_run_ok htry]
      cases answer with
      | some rid => rfl
      | none =>
        simp only
        cases hadvance : advance t with
        | error e u => rw [bind_run_error hadvance, bind_run_error hadvance]
        | ok _ u =>
          rw [bind_run_ok hadvance, bind_run_ok hadvance]
          obtain ⟨m, hlt, hpassed⟩ := h.retry hlen htry hadvance
          obtain ⟨d, rfl⟩ := Nat.exists_eq_add_of_lt hlt
          rw [Nat.add_right_comm m d 1, Nat.add_comm (m + 1) d, ← Nat.add_assoc k,
            ih m hlt hpassed.trying, ih m hlt hpassed.trying]

/-- An insert starts on a data page, or there is no frame for the last one. -/
theorem ensures_choosePage (h : Attached law rest s) (hv : (volume law s).IsHeap header)
    (hsmall : (volume law s).Small)
    (hdata : ∀ pin, s.heap.current = some pin → (volume law s).IsData pin.key.page) :
    choosePage.Ensures s
      (fun _ t => Stays law rest s t ∧ ∃ n ≤ 2, Trying law rest t n)
      (fun e t => Stays law rest s t ∧ e = .bufferPoolExhausted) := by
  have htrying {t : HeapState σ} {n : Nat} (hstays : Stays law rest s t) (haway : Away law t n) :
      Trying law rest t n := by
    have hvolume := hstays.volume_eq
    refine ⟨hstays.attached, ⟨header, ?_⟩, haway, ?_, fun _ => ?_⟩
    · rw [hvolume]
      exact hv
    · rw [hvolume]
      exact hsmall.records
    · rw [hvolume]
      exact hsmall.size
  unfold choosePage
  rw [ensures_bind, ensures_get]
  cases hcurrent : s.heap.current with
  | some pin =>
    have hstays : Stays law rest s s := ⟨h, .refl _, rfl⟩
    exact ⟨hstays, 2, Nat.le_refl 2, htrying hstays (.data hcurrent (hdata pin hcurrent))⟩
  | none =>
    simp only [Option.isNone_none, if_true]
    rw [ensures_bind]
    refine (ensures_header h hv.header).mono ?_ fun _ _ => False.elim
    rintro header s ⟨rfl, rfl⟩
    refine (ensures_switchTo h header.lastPage).mono ?_ ?_
    · rintro _ ⟨db₁, heap₁⟩ ⟨h₁, hsame₁, -, pin₁, hpage₁, rfl⟩
      have hstays : Stays law rest s _ := ⟨h₁, hsame₁, rfl⟩
      refine ⟨hstays, 1, Nat.le_succ 1, htrying hstays (.last rfl ?_)⟩
      rw [hstays.volume_eq, hpage₁]
      exact hv.isLast
    · rintro e ⟨db₁, heap₁⟩ ⟨h₁, hsame₁, hcause, rfl⟩
      exact ⟨⟨h₁, hsame₁, rfl⟩, hcause hv.isData_last.has⟩

end HeapFile

end PagedHeap
