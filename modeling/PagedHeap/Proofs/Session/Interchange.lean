import PagedHeap.Proofs.File.DiskChronicle
import PagedHeap.Proofs.File.MemoryChronicle
import PagedHeap.Proofs.Session.Commands

/-!
# Files in a directory and files in memory

Files are made, opened, given back and removed by name, in a directory and in memory
(`Session.Told`).  What is replied follows from the history alone, but for the numbers of the files
(`Session.Told.expected`), so that both stores reply alike (`Session.Told.interchangeable`).

There is one exception.  A handle can outlive its file: it was closed since, and then opened again
(`History.Outlived`).  An opening that is given back through this handle is somebody else's.  It is
refused in a directory, where the file has got another number, and taken back in memory.
-/

namespace PagedHeap

open PagedHeap.Action

/-- The commands on files by name, and what gives an opening back. -/
def Command.OnFiles : Command → Prop
  | .createFile _ | .destroyFile _ | .hasFile _ | .openAs _ (.file _) | .tell _ .closeFile => True
  | _ => False

/-- The reply but for the number of a file. -/
def Reply.unnumbered : Reply → Reply
  | .file _ name pageCount => .file ⟨0⟩ name pageCount
  | reply => reply

theorem Reply.eq_done {reply : Reply} (h : reply.unnumbered = .done) : reply = .done := by
  cases reply with
  | done => rfl
  | _ => cases h

theorem Reply.eq_failed {reply : Reply} {e : StorageError} (h : reply.unnumbered = .failed e) :
    reply = .failed e := by
  cases reply with
  | failed cause => exact h
  | _ => cases h

/-- The reply to a command that is answered or refused. -/
def Reply.ofOutcome : Except StorageError Reply → Reply
  | .ok reply => reply
  | .error e => .failed e

/-! ## What the history tells -/

namespace History

variable {y : History} {goes : History → Handed → Bool} {c : Command} {reply : Reply}
variable {name h : String} {g : Handed}

/-- The history after one more command, with the reply to it. -/
def note (y : History) (call : Command × Reply) : History :=
  tick <| match call with
  | (.createFile name, .done) => y.made name
  | (.destroyFile name, .done) => y.removed name
  | (.openAs h (.file name), .file _ _ _) => y.handedOut h name
  | (.tell h .closeFile, .done) => ((y.handed h).map fun g => y.givenBack g.name).getD y
  | _ => y

/-- What becomes of a command, if openings are given back through handles that are good. -/
def outcome (goes : History → Handed → Bool) (y : History) : Command → Except StorageError Reply
  | .createFile name => (y.making name).map fun _ => .done
  | .destroyFile name => (y.removing name).map fun _ => .done
  | .hasFile name => .ok (.flag (y.present name))
  | .openAs h (.file name) =>
    if (y.handed h).isSome then .ok (.refused .handleInUse)
    else (y.opening name).map fun _ => .file ⟨0⟩ name 1
  | .tell h .closeFile =>
    match y.handed h with
    | none => .ok (.refused .noHandle)
    | some g => if goes y g then .ok .done else .error (notOpen g.name)
  | _ => .ok (.refused .unusable)

/-- The reply to a command. -/
def answer (goes : History → Handed → Bool) (y : History) (c : Command) : Reply :=
  .ofOutcome (y.outcome goes c)

/-- The replies to commands that follow one another. -/
def expected (goes : History → Handed → Bool) : History → List Command → List (Command × Reply)
  | _, [] => []
  | y, c :: calls => (c, y.answer goes c) :: expected goes (y.note (c, y.answer goes c)) calls

/-- The file behind the handle was closed since, and it is open again. -/
def Outlived (y : History) (h : String) (g : Handed) : Prop :=
  y.handed h = some g ∧ g.held = false ∧ g.kept = true ∧ 0 < y.openings g.name

/-- A command that is refused is just another call. -/
theorem note_failed (y : History) (c : Command) (e : StorageError) :
    y.note (c, .failed e) = y.tick := by
  unfold note
  cases c with
  | openAs h opening => cases opening <;> rfl
  | tell h c => cases c <;> rfl
  | _ => rfl

theorem calls_note (y : History) (call : Command × Reply) : (y.note call).calls = y.calls + 1 := by
  unfold note tick
  refine congrArg (· + 1) ?_
  split
  · rfl
  · rfl
  · rfl
  · next h =>
    cases y.handed h <;> rfl
  · rfl

/-- The history does not know the numbers of files. -/
theorem note_unnumbered (y : History) (c : Command) (reply : Reply) :
    y.note (c, reply.unnumbered) = y.note (c, reply) := by
  cases reply with
  | file id name count =>
    unfold note Reply.unnumbered
    cases c with
    | openAs h opening => cases opening <;> rfl
    | tell h c => cases c <;> rfl
    | _ => rfl
  | _ => rfl

theorem outcome_closeFile_none (hhanded : y.handed h = none) :
    y.outcome goes (.tell h .closeFile) = .ok (.refused .noHandle) := by
  simp only [outcome, hhanded]

theorem outcome_closeFile (hhanded : y.handed h = some g) : y.outcome goes (.tell h .closeFile) =
    if goes y g then .ok .done else .error (notOpen g.name) := by
  simp only [outcome, hhanded]

theorem note_closeFile (hhanded : y.handed h = some g) :
    y.note (.tell h .closeFile, .done) = (y.givenBack g.name).tick := by
  simp only [note, hhanded, Option.map_some, Option.getD_some]

theorem valid_of_making (h : y.making name = .ok ()) : FileName.isValid name = true := by
  unfold making at h
  split at h
  · assumption
  · cases h

theorem present_of_opening (h : y.opening name = .ok ()) : y.present name = true := by
  unfold opening at h
  split at h
  · split at h
    · assumption
    · cases h
  · cases h

theorem openings_of_removing (h : y.removing name = .ok ()) : y.openings name = 0 := by
  unfold removing at h
  split at h
  · split at h
    · cases h
    · next hopen => exact Nat.eq_zero_of_not_pos hopen
  · cases h

end History

namespace Session

variable {σ : Type} [FileStore σ] {books : FileStore.Chronicle σ} {y : History}
variable {s s' : Session σ} {c : Command} {reply : Reply} {name h : String}

/-! ## One command -/

/-- The history leads to this session, and all its handles are handles of files. -/
structure Fits (books : FileStore.Chronicle σ) (y : History) (s : Session σ) : Prop where
  regular : y.Regular
  given : ∃ given : String → Option FileHandle,
    (∀ h, s.handles.find? h = (given h).map Handle.file) ∧ books.fits y given s.db.files

theorem Fits.tick (hfits : Fits books y s) : Fits books y.tick s := by
  obtain ⟨given, hhandles, hstore⟩ := hfits.given
  exact ⟨hfits.regular.tick, given, hhandles, books.tick hstore⟩

/-- The command is answered by the history. -/
def Answered (books : FileStore.Chronicle σ) (y : History) (c : Command) (reply : Reply)
    (s' : Session σ) : Prop :=
  y.outcome books.goes c = .ok reply.unnumbered ∧ Fits books (y.note (c, reply)) s'

/-- The command is refused by the history. -/
def Refused (books : FileStore.Chronicle σ) (y : History) (c : Command) (e : StorageError)
    (s' : Session σ) : Prop :=
  y.outcome books.goes c = .error e ∧ Fits books y.tick s'

omit [FileStore σ] in
theorem ensures_onFiles {α : Type} {x : Action σ α} {ok : α → Session σ → Prop}
    {refused : StorageError → Session σ → Prop} : (onFiles x).Ensures s ok refused ↔
      x.Ensures s.db.files (fun a files => ok a ⟨⟨files, s.db.pool⟩, s.handles⟩)
        fun e files => refused e ⟨⟨files, s.db.pool⟩, s.handles⟩ := by
  unfold onFiles Database.onFiles
  rw [ensures_onDatabase, ensures_onPart]

section Commands

variable (hfits : Fits books y s)
include hfits

theorem Fits.createFile (hruns : (FileStore.create name).Runs s.db.files) :
    (perform (.createFile name)).Ensures s (Answered books y (.createFile name))
      (Refused books y (.createFile name)) := by
  obtain ⟨given, hhandles, hstore⟩ := hfits.given
  unfold perform
  rw [ensures_bind, ensures_onFiles]
  refine (books.create hstore hfits.regular hruns).mono ?_ ?_
  · rintro _ files ⟨hmaking, hstore'⟩
    refine ⟨congrArg (Except.map _) hmaking, ?_, given, hhandles, hstore'⟩
    exact (hfits.regular.made (History.valid_of_making hmaking)).tick
  · rintro e files ⟨hmaking, rfl⟩
    exact ⟨congrArg (Except.map _) hmaking, hfits.tick⟩

theorem Fits.destroyFile (name : String) :
    (perform (.destroyFile name)).Ensures s (Answered books y (.destroyFile name))
      (Refused books y (.destroyFile name)) := by
  obtain ⟨given, hhandles, hstore⟩ := hfits.given
  unfold perform
  rw [ensures_bind, ensures_onFiles]
  refine (books.destroy hstore hfits.regular name).mono ?_ ?_
  · rintro _ files ⟨hremoving, hstore'⟩
    refine ⟨congrArg (Except.map _) hremoving, ?_, given, hhandles, hstore'⟩
    exact (hfits.regular.removed (History.openings_of_removing hremoving)).tick
  · rintro e files ⟨hremoving, rfl⟩
    exact ⟨congrArg (Except.map _) hremoving, hfits.tick⟩

theorem Fits.hasFile (name : String) :
    (perform (.hasFile name)).Ensures s (Answered books y (.hasFile name))
      (Refused books y (.hasFile name)) := by
  obtain ⟨given, hhandles, hstore⟩ := hfits.given
  unfold perform
  rw [ensures_bind, ensures_onFiles]
  refine (books.hasFile hstore hfits.regular name).mono ?_ fun _ _ => False.elim
  rintro found files ⟨rfl, rfl⟩
  exact ⟨rfl, hfits.tick⟩

/-- A handle that is free gets the file, with the one page that files have in the beginning. -/
theorem Fits.openFile (h : String)
    (hruns : s.handles.has h = false → (FileStore.openFile name).Runs s.db.files) :
    (perform (.openAs h (.file name))).Ensures s (Answered books y (.openAs h (.file name)))
      (Refused books y (.openAs h (.file name))) := by
  obtain ⟨given, hhandles, hstore⟩ := hfits.given
  have hname := books.name_eq hstore h
  have hfind := hhandles h
  unfold perform
  rw [ensures_bind, ensures_get]
  cases hgiven : given h with
  | some file =>
    rw [hgiven] at hname hfind
    have hhanded : (y.handed h).isSome = true := by
      rw [← Option.isSome_map, ← hname]
      rfl
    rw [Table.has_of_find? hfind]
    exact ⟨if_pos hhanded, hfits.tick⟩
  | none =>
    rw [hgiven] at hname hfind
    have hfree := Table.has_of_find?_none hfind
    have hhanded : ¬(y.handed h).isSome = true := by
      rw [← Option.isSome_map, ← hname]
      exact Bool.false_ne_true
    simp only [hfree, Bool.false_eq_true, if_false]
    unfold openHandle
    rw [ensures_bind, ensures_onFiles]
    refine (books.openFile hstore hfits.regular (hruns hfree) h).mono ?_ ?_
    · rintro file files ⟨hopening, rfl, hstore'⟩
      have hself : Function.update given h (some file) h = some file := Function.update_self ..
      rw [ensures_bind, ensures_setHandle]
      unfold describeFile
      rw [ensures_bind, ensures_onFiles]
      refine (books.pageCount hstore' hself).mono ?_ fun _ _ => False.elim
      rintro count files ⟨rfl, rfl⟩
      have hregular := hfits.regular.handedOut (History.present_of_opening hopening) h
      refine ⟨(if_neg hhanded).trans (congrArg (Except.map _) hopening), hregular.tick, _,
        fun other => ?_, hstore'⟩
      rw [Function.update_apply]
      split
      · next heq =>
        subst heq
        exact Table.find?_put_self ..
      · next hne => exact (Table.find?_put_of_ne (Ne.symm hne) ..).trans (hhandles other)
    · rintro e files ⟨hopening, rfl⟩
      exact ⟨(if_neg hhanded).trans (congrArg (Except.map _) hopening), hfits.tick⟩

theorem Fits.closeFile (h : String) :
    (perform (.tell h .closeFile)).Ensures s (Answered books y (.tell h .closeFile))
      (Refused books y (.tell h .closeFile)) := by
  obtain ⟨given, hhandles, hstore⟩ := hfits.given
  have hname := books.name_eq hstore h
  have hfind := hhandles h
  unfold perform tellHandle
  rw [ensures_bind, ensures_get]
  cases hgiven : given h with
  | none =>
    rw [hgiven] at hname hfind
    have hhanded : y.handed h = none := Option.map_eq_none_iff.1 hname.symm
    rw [hfind]
    exact ⟨History.outcome_closeFile_none hhanded, hfits.tick⟩
  | some file =>
    rw [hgiven] at hname hfind
    obtain ⟨g, hhanded, -⟩ := Option.map_eq_some_iff.1 hname.symm
    rw [hfind]
    change (onFile h file .closeFile).Ensures s _ _
    unfold onFile
    rw [ensures_bind, ensures_onFiles]
    refine (books.close hstore hfits.regular hgiven hhanded).mono ?_ ?_
    · rintro _ files ⟨hgoes, hstore'⟩
      have hopen := books.goes_open hfits.regular hhanded hgoes
      refine ⟨(History.outcome_closeFile hhanded).trans (if_pos hgoes), ?_⟩
      rw [History.note_closeFile hhanded]
      exact ⟨(hfits.regular.givenBack hopen).tick, given, hhandles, hstore'⟩
    · rintro e files ⟨hgoes, rfl, rfl⟩
      have hbad : ¬books.goes y g = true := Bool.eq_false_iff.1 hgoes
      exact ⟨(History.outcome_closeFile hhanded).trans (if_neg hbad), hfits.tick⟩

end Commands

/-- A command that needs a number for a file gets one. -/
def Runs (s : Session σ) : Command → Prop
  | .createFile name => (FileStore.create name).Runs s.db.files
  | .openAs h (.file name) => s.handles.has h = false → (FileStore.openFile name).Runs s.db.files
  | _ => True

/-- A command on files is answered or refused as the history tells. -/
theorem Fits.step (hfits : Fits books y s) (hc : c.OnFiles) (hruns : s.Runs c) :
    ∃ reply s', Session.step s c = .ok (reply, s') ∧ y.answer books.goes c = reply.unnumbered ∧
      Fits books (y.note (c, reply)) s' := by
  have hsettles : (perform c).Ensures s (Answered books y c) (Refused books y c) := by
    cases c with
    | createFile name => exact hfits.createFile hruns
    | destroyFile name => exact hfits.destroyFile name
    | hasFile name => exact hfits.hasFile name
    | openAs h opening =>
      cases opening with
      | file name => exact hfits.openFile h hruns
      | _ => exact hc.elim
    | tell h c =>
      cases c with
      | closeFile => exact hfits.closeFile h
      | _ => exact hc.elim
    | _ => exact hc.elim
  unfold History.answer
  cases hrun : perform c s with
  | ok reply s' =>
    obtain ⟨houtcome, hfits'⟩ := hsettles.of_ok hrun
    exact ⟨reply, s', step_of_ok hrun, congrArg Reply.ofOutcome houtcome, hfits'⟩
  | error f s' =>
    cases f with
    | error e =>
      obtain ⟨houtcome, hfits'⟩ := hsettles.of_error hrun
      refine ⟨.failed e, s', step_of_refused hrun, congrArg Reply.ofOutcome houtcome, ?_⟩
      rw [History.note_failed]
      exact hfits'
    | trap t => exact (hsettles.not_trap hrun).elim

/-- A command that was replied to did not stop. -/
theorem runs_of_step (hc : c.OnFiles) (hstep : Session.step s c = .ok (reply, s')) : s.Runs c := by
  have hruns : (perform c).Runs s := by
    unfold Action.Runs Ensures
    rcases run_of_step hstep with hrun | ⟨e, -, hrun⟩
    · rw [hrun]
      trivial
    · rw [hrun]
      trivial
  cases c with
  | createFile name =>
    unfold perform Action.Runs at hruns
    rw [ensures_bind, ensures_onFiles] at hruns
    exact hruns.runs
  | openAs h opening =>
    cases opening with
    | file name =>
      intro hfree
      unfold perform Action.Runs at hruns
      rw [ensures_bind, ensures_get, hfree] at hruns
      simp only [Bool.false_eq_true, if_false] at hruns
      unfold openHandle at hruns
      rw [ensures_bind, ensures_onFiles] at hruns
      exact hruns.runs
    | _ => exact hc.elim
  | _ => trivial

/-- There are numbers for as many files as there were calls. -/
theorem Fits.runs (hfits : Fits books y s) (hcalls : y.calls + 2 < 2 ^ 32) (c : Command) :
    s.Runs c := by
  obtain ⟨given, -, hstore⟩ := hfits.given
  have hruns := books.runs hstore hfits.regular hcalls
  cases c with
  | createFile name => exact (hruns name).1
  | openAs h opening =>
    cases opening with
    | file name => exact fun _ => (hruns name).2
    | _ => trivial
  | _ => trivial

/-! ## Commands that follow one another -/

/-- Commands on files lead from one session to another, with their replies. -/
inductive Told : Session σ → List (Command × Reply) → Session σ → Prop
  /-- There was no command. -/
  | done {s : Session σ} : Told s [] s
  /-- A command is replied to, and then there are others. -/
  | call {s s' s'' : Session σ} {c : Command} {reply : Reply} {past : List (Command × Reply)} :
    c.OnFiles → Session.step s c = .ok (reply, s') → Told s' past s'' →
    Told s ((c, reply) :: past) s''

variable {past before : List (Command × Reply)}

/-- All replies but for the numbers of files. -/
def unnumbered (past : List (Command × Reply)) : List (Command × Reply) :=
  past.map fun call => (call.1, call.2.unnumbered)

/-- The replies are those that the history tells, and it leads to where the commands led. -/
theorem Told.expected (told : Told s past s') (hfits : Fits books y s) :
    unnumbered past = y.expected books.goes (past.map Prod.fst) ∧
      Fits books (past.foldl History.note y) s' := by
  induction told generalizing y with
  | done => exact ⟨rfl, hfits⟩
  | @call s t s' c reply past hc hstep _ ih =>
    obtain ⟨reply', t', hstep', hanswer, hfits'⟩ := hfits.step hc (runs_of_step hc hstep)
    cases hstep.symm.trans hstep'
    obtain ⟨hrest, hend⟩ := ih hfits'
    refine ⟨?_, hend⟩
    change (c, reply.unnumbered) :: unnumbered past = (c, y.answer books.goes c) ::
      (y.note (c, y.answer books.goes c)).expected books.goes (past.map Prod.fst)
    rw [hanswer, History.note_unnumbered, hrest]

/-- Whatever comes first was told alone, too. -/
theorem Told.of_prefix (told : Told s past s') (hbefore : before <+: past) :
    ∃ t, Told s before t := by
  induction told generalizing before with
  | done =>
    obtain rfl := List.prefix_nil.1 hbefore
    exact ⟨_, .done⟩
  | call hc hstep _ ih =>
    rcases List.prefix_cons_iff.1 hbefore with rfl | ⟨rest, rfl, hrest⟩
    · exact ⟨_, .done⟩
    · obtain ⟨t, hbefore⟩ := ih hrest
      exact ⟨t, .call hc hstep hbefore⟩

/-- A name is never given back more often than it was opened. -/
theorem Told.closes_le (told : Told s past s') (hfits : Fits books y s) (hbefore : before <+: past)
    (name : String) :
    (before.foldl History.note y).closes name ≤ (before.foldl History.note y).opens name := by
  obtain ⟨t, hbefore⟩ := told.of_prefix hbefore
  exact (hbefore.expected hfits).2.regular.closes_le name

/-- Commands are replied to as long as there are numbers for files. -/
theorem Fits.exists_told (hfits : Fits books y s) {calls : List Command}
    (hcalls : ∀ c ∈ calls, c.OnFiles) (hfew : y.calls + calls.length + 1 < 2 ^ 32) :
    ∃ past s', Told s past s' ∧ past.map Prod.fst = calls := by
  induction calls generalizing y s with
  | nil => exact ⟨[], s, .done, rfl⟩
  | cons c calls ih =>
    rw [List.length_cons] at hfew
    obtain ⟨hc, hrest⟩ := List.forall_mem_cons.1 hcalls
    obtain ⟨reply, t, hstep, -, hfits'⟩ := hfits.step hc (hfits.runs (by omega) c)
    obtain ⟨past, s', told, rfl⟩ := ih hfits' hrest (by rw [History.calls_note]; omega)
    exact ⟨(c, reply) :: past, s', .call hc hstep told, rfl⟩

/-! ## In a directory and in memory -/

theorem fits_directory (capacity : Nat) :
    Fits DiskFiles.chronicle .start (start (DiskFiles.ofDirectory []) capacity) :=
  ⟨History.regular_start, fun _ => none, fun _ => rfl, DiskFiles.fits_start⟩

theorem fits_memory (capacity : Nat) :
    Fits MemoryFiles.chronicle .start (start MemoryFiles.empty capacity) :=
  ⟨History.regular_start, fun _ => none, fun _ => rfl, MemoryFiles.fits_start⟩

/-- Somewhere an opening is given back through a handle that outlived its file. -/
inductive Outlives : History → List (Command × Reply) → Prop
  | here {y : History} {h : String} {g : Handed} {reply : Reply} {past : List (Command × Reply)} :
    y.Outlived h g → Outlives y ((.tell h .closeFile, reply) :: past)
  | later {y : History} {call : Command × Reply} {past : List (Command × Reply)} :
    Outlives (y.note call) past → Outlives y (call :: past)

/-- The replies are alike until an opening is given back through a handle that outlived its file.
This is refused on one side and done on the other. -/
inductive Parts : History → List (Command × Reply) → List (Command × Reply) → Prop
  | here {y : History} {h : String} {g : Handed} {past past' : List (Command × Reply)} :
    y.Outlived h g → Parts y ((.tell h .closeFile, .failed (History.notOpen g.name)) :: past)
      ((.tell h .closeFile, .done) :: past')
  | later {y : History} {c : Command} {reply reply' : Reply}
      {past past' : List (Command × Reply)} :
    reply.unnumbered = reply'.unnumbered → Parts (y.note (c, reply)) past past' →
    Parts y ((c, reply) :: past) ((c, reply') :: past')

theorem outlives_of_unnumbered (h : Outlives y (unnumbered past)) : Outlives y past := by
  induction past generalizing y with
  | nil => cases h
  | cons call past ih =>
    obtain ⟨c, reply⟩ := call
    cases h with
    | here hout => exact .here hout
    | later hlater =>
      rw [History.note_unnumbered] at hlater
      exact .later (ih hlater)

/-- An opening that is given back through a handle that outlived its file is refused in a directory
and taken back in memory. -/
theorem answer_outlived {g : Handed} (hout : y.Outlived h g) :
    y.answer DiskFiles.chronicle.goes (.tell h .closeFile) = .failed (History.notOpen g.name) ∧
      y.answer MemoryFiles.chronicle.goes (.tell h .closeFile) = .done := by
  obtain ⟨hhanded, hheld, hkept, hopen⟩ := hout
  unfold History.answer
  rw [History.outcome_closeFile hhanded, History.outcome_closeFile hhanded]
  constructor
  · rw [if_neg]
    · rfl
    · exact Bool.eq_false_iff.1 hheld
  · rw [if_pos]
    · rfl
    · exact Bool.and_eq_true_iff.2 ⟨hkept, decide_eq_true hopen⟩

/-- Every other command is answered alike. -/
theorem answer_eq (hy : y.Regular) (hnot : ∀ h g, c = .tell h .closeFile → ¬y.Outlived h g) :
    y.answer DiskFiles.chronicle.goes c = y.answer MemoryFiles.chronicle.goes c := by
  cases c with
  | openAs h opening => cases opening <;> rfl
  | tell h c =>
    cases c with
    | closeFile =>
      unfold History.answer
      cases hhanded : y.handed h with
      | none => rw [History.outcome_closeFile_none hhanded, History.outcome_closeFile_none hhanded]
      | some g =>
        have hgoes : DiskFiles.chronicle.goes y g = MemoryFiles.chronicle.goes y g := by
          change g.held = (g.kept && decide (0 < y.openings g.name))
          cases hheld : g.held with
          | true =>
            obtain ⟨hkept, hopen⟩ := hy.held hhanded hheld
            rw [hkept, decide_eq_true hopen]
            rfl
          | false =>
            refine (Bool.eq_false_iff.2 fun hgoes => ?_).symm
            obtain ⟨hkept, hopen⟩ := Bool.and_eq_true_iff.1 hgoes
            exact hnot h g rfl ⟨hhanded, hheld, hkept, of_decide_eq_true hopen⟩
        rw [History.outcome_closeFile hhanded, History.outcome_closeFile hhanded, hgoes]
    | _ => rfl
  | _ => rfl

variable {d d' : Session DiskFiles} {m m' : Session MemoryFiles} {past' : List (Command × Reply)}

/-- The same commands are replied to alike in a directory and in memory if they do not give an
opening back through a handle that outlived its file.  If they do, the replies part where they do so
first. -/
theorem Told.compare (hd : Fits DiskFiles.chronicle y d) (hm : Fits MemoryFiles.chronicle y m)
    (told : Told d past d') (told' : Told m past' m')
    (hsame : past.map Prod.fst = past'.map Prod.fst) :
    (¬Outlives y past → unnumbered past = unnumbered past') ∧
      (Outlives y past → Parts y past past') := by
  induction told generalizing y m past' with
  | done =>
    obtain rfl := List.map_eq_nil_iff.1 hsame.symm
    exact ⟨fun _ => rfl, nofun⟩
  | @call d t d' c reply past hc hstep _ ih =>
    cases told' with
    | done => cases hsame
    | @call _ t' _ c' reply' past' hc' hstep' rest' =>
      obtain ⟨rfl, hlater⟩ := List.cons_eq_cons.1 hsame
      obtain ⟨_, _, hrun, hanswer, hfits⟩ := hd.step hc (runs_of_step hc hstep)
      cases hstep.symm.trans hrun
      obtain ⟨_, _, hrun', hanswer', hfits'⟩ := hm.step hc (runs_of_step hc hstep')
      cases hstep'.symm.trans hrun'
      by_cases hout : ∃ h g, c = .tell h .closeFile ∧ y.Outlived h g
      · obtain ⟨h, g, rfl, hout⟩ := hout
        obtain ⟨hrefused, hdone⟩ := answer_outlived hout
        refine ⟨fun hno => absurd (.here hout) hno, fun _ => ?_⟩
        obtain rfl := Reply.eq_failed (hanswer.symm.trans hrefused)
        obtain rfl := Reply.eq_done (hanswer'.symm.trans hdone)
        exact .here hout
      · have hnot (h : String) (g : Handed) (heq : c = .tell h .closeFile) : ¬y.Outlived h g :=
          fun hh => hout ⟨h, g, heq, hh⟩
        have halike : reply.unnumbered = reply'.unnumbered :=
          hanswer.symm.trans ((answer_eq hd.regular hnot).trans hanswer')
        rw [← History.note_unnumbered, ← halike, History.note_unnumbered] at hfits'
        obtain ⟨hrest, hparts⟩ := ih hfits hfits' rest' hlater
        refine ⟨fun hno => ?_, fun h => ?_⟩
        · exact congrArg₂ List.cons (Prod.ext rfl halike) (hrest fun hlater => hno (.later hlater))
        · cases h with
          | here hh => exact absurd hh (hnot _ _ rfl)
          | later hlater => exact .later halike (hparts hlater)

/-- Commands on files are replied to in a directory and in memory, as long as there are numbers for
the files.  No name is ever given back more often than it was opened.  The replies are alike if no
opening is given back through a handle that outlived its file; if one is, they part where this
happens first. -/
theorem Told.interchangeable (capacity : Nat) :
    (∀ {past d}, Told (start (DiskFiles.ofDirectory []) capacity) past d →
      ∀ before, before <+: past → ∀ name,
        (before.foldl History.note .start).closes name ≤
          (before.foldl History.note .start).opens name) ∧
    (∀ {past m}, Told (start MemoryFiles.empty capacity) past m →
      ∀ before, before <+: past → ∀ name,
        (before.foldl History.note .start).closes name ≤
          (before.foldl History.note .start).opens name) ∧
    (∀ {past past' d m}, Told (start (DiskFiles.ofDirectory []) capacity) past d →
      Told (start MemoryFiles.empty capacity) past' m → past.map Prod.fst = past'.map Prod.fst →
        (¬Outlives .start past → unnumbered past = unnumbered past') ∧
          (Outlives .start past → Parts .start past past')) ∧
    ∀ calls : List Command, (∀ c ∈ calls, c.OnFiles) → calls.length + 1 < 2 ^ 32 →
      ∃ past d past' m, Told (start (DiskFiles.ofDirectory []) capacity) past d ∧
        Told (start MemoryFiles.empty capacity) past' m ∧
        past.map Prod.fst = calls ∧ past'.map Prod.fst = calls := by
  have hd := fits_directory capacity
  have hm := fits_memory capacity
  refine ⟨fun told _ hbefore => told.closes_le hd hbefore,
    fun told _ hbefore => told.closes_le hm hbefore,
    fun told told' => Told.compare hd hm told told', fun calls hcalls hfew => ?_⟩
  have hfew' : History.start.calls + calls.length + 1 < 2 ^ 32 := by
    rw [show History.start.calls = 0 from rfl, Nat.zero_add]
    exact hfew
  obtain ⟨past, d, told, hpast⟩ := hd.exists_told hcalls hfew'
  obtain ⟨past', m, told', hpast'⟩ := hm.exists_told hcalls hfew'
  exact ⟨past, d, past', m, told, told', hpast, hpast'⟩

/-- A file is opened again after it was closed, and given back through the first handle. -/
theorem Told.interchangeable_outlived : ∃ past d past' m,
    Told (start (DiskFiles.ofDirectory []) 8) past d ∧ Told (start MemoryFiles.empty 8) past' m ∧
    past.map Prod.fst = [.createFile "t", .openAs "a" (.file "t"), .tell "a" .closeFile,
      .openAs "b" (.file "t"), .tell "a" .closeFile] ∧
    past'.map Prod.fst = past.map Prod.fst ∧ Outlives .start past ∧ Parts .start past past' := by
  obtain ⟨-, -, hcompare, hreplied⟩ := Told.interchangeable 8
  obtain ⟨past, d, past', m, told, told', hpast, hpast'⟩ := hreplied [.createFile "t",
    .openAs "a" (.file "t"), .tell "a" .closeFile, .openAs "b" (.file "t"), .tell "a" .closeFile]
    (by simp [Command.OnFiles]) (by decide)
  have hsame := hpast.trans hpast'.symm
  have houtlives : Outlives .start past := by
    refine outlives_of_unnumbered ?_
    rw [(told.expected (fits_directory 8)).1, hpast]
    exact .later (.later (.later (.later (.here ⟨rfl, rfl, rfl, by decide⟩))))
  exact ⟨past, d, past', m, told, told', hpast, hsame.symm, houtlives,
    (hcompare told told' hsame).2 houtlives⟩

end Session

end PagedHeap
