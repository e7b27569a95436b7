import PagedHeap.CommandLine
import PagedHeap.Proofs.Session.Reopening
import PagedHeap.Proofs.Session.Visit

/-!
# The steps of a command

`step.Ensures p ok failed` says what holds of the answer of a step and of the process after it, or
of the message with which the command ends there.  A command begins on the files of a directory; if
all its steps were done and nothing is open, it leaves a directory of heap files that are shown as
they were in its database (`CommandLine.run_cases`).
-/

namespace PagedHeap

namespace CommandLine

variable {α β : Type} {p : Process}

/-- From `p` the step has an answer for which `ok` holds, or it fails with a message for which
`failed` holds. -/
def Step.Ensures (step : Step α) (p : Process) (ok : α → Process → Prop)
    (failed : String → Process → Prop) : Prop :=
  match step p with
  | .ok a p' => ok a p'
  | .error message p' => failed message p'

section Rules

variable {ok : α → Process → Prop} {failed : String → Process → Prop}

/-- Both postconditions can be weakened. -/
theorem Step.Ensures.mono {step : Step α} (h : step.Ensures p ok failed)
    {ok' : α → Process → Prop} {failed' : String → Process → Prop}
    (hok : ∀ a p', ok a p' → ok' a p')
    (hfailed : ∀ message p', failed message p' → failed' message p') :
    step.Ensures p ok' failed' := by
  unfold Step.Ensures at h ⊢
  cases hres : step p with
  | ok a p' =>
    rw [hres] at h
    exact hok a p' h
  | error message p' =>
    rw [hres] at h
    exact hfailed message p' h

theorem ensures_pure {a : α} : (pure a : Step α).Ensures p ok failed ↔ ok a p := Iff.rfl

theorem ensures_throw {message : String} :
    (throw message : Step α).Ensures p ok failed ↔ failed message p := Iff.rfl

theorem ensures_print {line : String} {ok : Unit → Process → Prop} :
    (print line).Ensures p ok failed ↔ ok () { p with lines := line :: p.lines } := Iff.rfl

theorem ensures_bind {step : Step β} {f : β → Step α} : (step >>= f : Step α).Ensures p ok failed ↔
    step.Ensures p (fun b p' => (f b).Ensures p' ok failed) failed := by
  unfold Step.Ensures
  change (match EStateM.bind step f p with | .ok a p' => _ | .error e p' => _) ↔ _
  unfold EStateM.bind
  cases step p <;> rfl

theorem ensures_ofResult_ok {r : Result α} {a : α} (hr : r = .ok a) :
    (ofResult r).Ensures p ok failed ↔ ok a p := by rw [hr]; rfl

theorem ensures_ofResult_error {r : Result α} {e : Failure} (hr : r = .error e) :
    (ofResult r).Ensures p ok failed ↔ failed (Failure.text e) p := by rw [hr]; rfl

/-- What an action on the database does is done to that of the process. -/
theorem ensures_onDatabase {action : Action (Database DiskFiles) α}
    (hok : ∀ a db, action p.db = .ok a db → ok a { p with db := db })
    (hfailed : ∀ e db, action p.db = .error e db → failed (Failure.text e) { p with db := db }) :
    (onDatabase action).Ensures p ok failed := by
  unfold Step.Ensures onDatabase
  cases hres : action p.db with
  | ok a db => exact hok a db hres
  | error e db => exact hfailed e db hres

theorem ensures_onDatabase_ok {action : Action (Database DiskFiles) α} {a : α}
    {db : Database DiskFiles} (hrun : action p.db = .ok a db) :
    (onDatabase action).Ensures p ok failed ↔ ok a { p with db := db } := by
  unfold Step.Ensures onDatabase
  rw [hrun]

theorem ensures_onDatabase_error {action : Action (Database DiskFiles) α} {e : Failure}
    {db : Database DiskFiles} (hrun : action p.db = .error e db) :
    (onDatabase action).Ensures p ok failed ↔ failed (Failure.text e) { p with db := db } := by
  unfold Step.Ensures onDatabase
  rw [hrun]

variable {heap : HeapFile} {action : HeapAction DiskFiles α}

/-- What an action on an open heap file does is done to the database of the process and to the
heap file, which is handed on. -/
theorem ensures_onHeap {ok : α × HeapFile → Process → Prop}
    (hok : ∀ a s, action ⟨p.db, heap⟩ = .ok a s → ok (a, s.heap) { p with db := s.db })
    (hfailed : ∀ e s, action ⟨p.db, heap⟩ = .error e s →
      failed (Failure.text e) { p with db := s.db }) :
    (onHeap heap action).Ensures p ok failed := by
  unfold Step.Ensures onHeap
  cases hres : action ⟨p.db, heap⟩ with
  | ok a s => exact hok a s hres
  | error e s => exact hfailed e s hres

theorem ensures_onHeap_ok {ok : α × HeapFile → Process → Prop} {a : α} {s : HeapState DiskFiles}
    (hrun : action ⟨p.db, heap⟩ = .ok a s) :
    (onHeap heap action).Ensures p ok failed ↔ ok (a, s.heap) { p with db := s.db } := by
  unfold Step.Ensures onHeap
  rw [hrun]

end Rules

/-! ## The message of a stop -/

/-- The message of a command that was stopped. -/
def stopped : String := "the command stopped"

/-- What fails without a stop was refused. -/
theorem exists_refusal_of_text {f : Failure} (h : Failure.text f ≠ stopped) :
    ∃ e, f = .error e := by
  cases f with
  | error e => exact ⟨e, rfl⟩
  | trap cause => exact absurd rfl h

/-! ## The whole command -/

/-- A command begins on the files of a directory. -/
def begin (files : Directory) : Process := ⟨⟨.ofDirectory files, .empty poolCapacity⟩, []⟩

/-- A database without handles leaves its files as it shows them. -/
theorem directory_of_inOrder {db : Database DiskFiles} (h : Session.InOrder ⟨db, []⟩) :
    db.files.directory.AllHeaps ∧ db.files.directory.shown = db.shown := by
  refine ⟨h.allHeaps_directory rfl, ?_⟩
  rw [← h.shown_reopened rfl poolCapacity]
  funext name
  exact (Session.shown_start db.files.directory poolCapacity name).symm

/-- At the end of a command without handles there is nothing to write back. -/
theorem finish_of_inOrder (h : Session.InOrder ⟨p.db, []⟩) :
    finish p = (⟨0, unlines p.lines.reverse, ""⟩, p.db.files.directory) := by
  have hflush : Database.flushAll p.db = .ok () p.db := h.flushAll_eq rfl
  unfold finish
  rw [hflush]

theorem run_cons (files : Directory) (command name : String) (args : List String) :
    run files (command :: name :: args) =
      match perform command name args (begin files) with
      | .ok () p => finish p
      | .error message p =>
        (⟨1, unlines p.lines.reverse, s!"ERROR: {message}\n"⟩, p.db.files.directory) := rfl

/-- A command ends with all of its steps done or at the first that failed. -/
theorem run_cases {files : Directory} {command name : String} {args : List String}
    {done : Process → Prop} {failed : String → Process → Prop}
    (h : (perform command name args).Ensures (begin files)
      (fun _ p => Session.InOrder ⟨p.db, []⟩ ∧ done p) failed) :
    (∃ p, done p ∧ p.db.files.directory.AllHeaps ∧ p.db.files.directory.shown = p.db.shown ∧
      run files (command :: name :: args) =
        (⟨0, unlines p.lines.reverse, ""⟩, p.db.files.directory)) ∨
    ∃ message p, failed message p ∧ run files (command :: name :: args) =
      (⟨1, unlines p.lines.reverse, s!"ERROR: {message}\n"⟩, p.db.files.directory) := by
  unfold Step.Ensures at h
  cases hperform : perform command name args (begin files) with
  | ok u p =>
    rw [hperform] at h
    obtain ⟨hinOrder, hdone⟩ := h
    obtain ⟨hheaps, hshown⟩ := directory_of_inOrder hinOrder
    refine .inl ⟨p, hdone, hheaps, hshown, ?_⟩
    rw [run_cons, hperform]
    exact finish_of_inOrder hinOrder
  | error message p =>
    rw [hperform] at h
    refine .inr ⟨message, p, h, ?_⟩
    rw [run_cons, hperform]

end CommandLine

end PagedHeap
