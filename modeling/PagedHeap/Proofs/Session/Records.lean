import PagedHeap.Proofs.Session.Run

/-!
# Heap files are maps from addresses to bytes

Whatever is evicted, compacted or refused while commands are carried out, every heap file is a map
from addresses to bytes: each command changes it as its reply says, and reading a record at an
address gives what the map has there (`Session.Run.contents`).
-/

namespace PagedHeap

open PagedHeap.Action

open MemoryFiles (law)

namespace Session

variable {capacity : Nat} {s : Session MemoryFiles} {heaps : Set FileId} {c : Command}
variable {name : String} {heap : HeapFile}

/-- The handle stands for this open heap file, whose records can be read at their addresses. -/
def Reads (s : Session MemoryFiles) (name : String) (heap : HeapFile) : Prop :=
  s.handles.find? name = some (.heap heap) ∨
    ∃ scan, s.handles.find? name = some (.scan scan) ∧ scan.heap = heap

/-- The page of an address can be made the current one. -/
def CanPin (s : Session MemoryFiles) (heap : HeapFile) (page : PageId) : Prop :=
  ∃ t, HeapFile.switchTo page ⟨s.db, heap⟩ = .ok () t

/-- Reading a record at an address gives the record that is there. -/
theorem ensures_readAt (h : s.Sound) (hreads : s.Reads name heap) (rid : RecordId) :
    (perform (.tell name (.readAt rid))).Ensures s
      (fun reply _ => s.CanPin heap rid.page ∧
        ∃ bytes, reply = .record bytes ∧ s.records heap.file.id rid = some bytes)
      (fun e _ => s.records heap.file.id rid = none ∨
        e = .bufferPoolExhausted ∧ ¬s.CanPin heap rid.page) := by
  have hget {handle : Handle} (hfind : s.handles.find? name = some handle)
      (hheap : handle.heap? = some heap) (wrap : HeapFile → Handle) :
      (do return .record (← onHeap name heap wrap (HeapFile.getRecord rid)) :
        SessionAction MemoryFiles Reply).Ensures s
        (fun reply _ => s.CanPin heap rid.page ∧
          ∃ bytes, reply = .record bytes ∧ s.records heap.file.id rid = some bytes)
        (fun e _ => s.records heap.file.id rid = none ∨
          e = .bufferPoolExhausted ∧ ¬s.CanPin heap rid.page) := by
    obtain ⟨header, hv⟩ := h.hasHeap hfind hheap
    rw [ensures_bind, ensures_onHeap]
    refine (HeapFile.ensures_getRecord (h.attached hfind hheap) hv rid).mono ?_ ?_
    · rintro bytes t ⟨-, hrecord, hswitch, -⟩
      exact ⟨hswitch, bytes, rfl, hrecord⟩
    · rintro e t ⟨-, ⟨hcause, hswitch, -⟩ | ⟨-, hrecord, -⟩⟩
      · by_cases hdata : (HeapFile.volume law ⟨s.db, heap⟩).IsData rid.page
        · refine .inr ⟨hcause hdata, ?_⟩
          rintro ⟨t', hswitch'⟩
          rw [hswitch] at hswitch'
          cases hswitch'
        · exact .inl (Volume.record?_of_not_isData hdata)
      · exact .inl hrecord
  change (tellHandle name (.readAt rid)).Ensures s _ _
  unfold tellHandle
  rw [ensures_bind, ensures_get]
  rcases hreads with hfind | ⟨scan, hfind, rfl⟩
  · simp only [hfind]
    exact hget hfind rfl _
  · simp only [hfind]
    exact hget hfind rfl _

/-- Every command that can be carried out is replied to, and changes the records of all files as its
reply tells: an insert adds the record under an address that was free, the current record is changed
in place or taken out, and nothing else changes any record.  A record is read at an address exactly
if it is there, when its page can be pinned. -/
theorem Run.contents (run : Run capacity s heaps) (level : c.HeapLevel) :
    (s.CanRun c → ∃ reply s', Session.step s c = .ok (reply, s')) ∧
      ∀ reply s', Session.step s c = .ok (reply, s') →
        Effect s c reply s'.records ∧
        ∀ name heap rid, c = .tell name (.readAt rid) → s.Reads name heap →
          (s.CanPin heap rid.page →
            ∀ bytes, reply = .record bytes ↔ s.records heap.file.id rid = some bytes) ∧
          (¬s.CanPin heap rid.page → (s.records heap.file.id rid).isSome →
            reply = .failed .bufferPoolExhausted) := by
  obtain ⟨hsound, hsmall, -⟩ := run.sound
  refine ⟨exists_step hsound hsmall level, fun reply s' hstep => ?_⟩
  refine ⟨(follows_step hsound hsmall level hstep).effect, ?_⟩
  rintro name heap rid rfl hreads
  rcases of_step (ensures_readAt hsound hreads rid) hstep with
    ⟨hpin, bytes, rfl, hrecord⟩ | ⟨e, rfl, hnone | ⟨rfl, hpin⟩⟩
  · refine ⟨fun _ other => ?_, fun hnot => absurd hpin hnot⟩
    rw [hrecord, Reply.record.injEq, Option.some.injEq]
  · rw [hnone]
    exact ⟨fun _ _ => ⟨nofun, nofun⟩, fun _ => nofun⟩
  · exact ⟨fun hcan => absurd hcan hpin, fun _ _ => rfl⟩

/-- A record is inserted into a heap file that was made. -/
theorem Run.contents_inserted : ∃ s heaps, Run 8 s heaps ∧
    (∃ heap, s.handles.find? "h" = some (.inserter heap)) ∧
    ∃ reply s', Session.step s (.tell "h" (.insert [1, 2, 3])) = .ok (reply, s') ∧
      Effect s (.tell "h" (.insert [1, 2, 3])) reply s'.records := by
  obtain ⟨s, heaps, s', heap, run, -, hstep, hsmall, hfind⟩ := run_open .insert
  have hlevel : (Command.openAs "h" (.heap .insert "t")).HeapLevel := trivial
  have hrun := run.step hlevel hstep hsmall
  have hinsert : (Command.tell "h" (.insert [1, 2, 3])).HeapLevel := trivial
  obtain ⟨hreply, hcontents⟩ := Run.contents hrun hinsert
  obtain ⟨reply, s'', hstep'⟩ := hreply trivial
  exact ⟨s', _, hrun, ⟨heap, hfind⟩, reply, s'', hstep', (hcontents reply s'' hstep').1⟩

end Session

end PagedHeap
