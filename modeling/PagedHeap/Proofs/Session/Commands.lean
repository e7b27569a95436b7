import PagedHeap.Proofs.Session.Effect

/-!
# Commands keep sessions sound

Every command on heap files is answered, or refused, and then `Session.Follows` holds of its reply.
There is one lemma for each kind of handle, and the commands of a kind are taken one after the
other.
-/

namespace PagedHeap

open PagedHeap.Action

open MemoryFiles (law)

namespace Session

/-- The action answers the command, and what it leaves behind follows from its reply. -/
def Obeys (action : SessionAction MemoryFiles Reply) (s : Session MemoryFiles) (c : Command) :
    Prop :=
  action.Ensures s (Follows s c) fun e => Follows s c (.failed e)

/-- The heap file behind a handle is as before and so are all pages. -/
abbrev StaysAt (s : Session MemoryFiles) (name : String) (heap : HeapFile) :
    HeapState MemoryFiles → Prop :=
  HeapFile.Stays law (pinsOf (s.handles.erase name)) ⟨s.db, heap⟩

variable {s s' : Session MemoryFiles} {name : String} {handle : Handle} {heap : HeapFile}
variable {wrap : HeapFile → Handle} {c : Command} {c' : HandleCommand} {reply : Reply}

section Rules

variable {σ α : Type} {s : Session σ} {refused : StorageError → Session σ → Prop}

theorem ensures_onDatabase {x : Action (Database σ) α} {ok : α → Session σ → Prop} :
    (onDatabase x).Ensures s ok refused ↔
      x.Ensures s.db (fun a db => ok a ⟨db, s.handles⟩) (fun e db => refused e ⟨db, s.handles⟩) :=
  ensures_onPart

theorem ensures_onHeap {x : HeapAction σ α} {ok : α → Session σ → Prop} :
    (onHeap name heap wrap x).Ensures s ok refused ↔
      x.Ensures ⟨s.db, heap⟩ (fun a t => ok a ⟨t.db, s.handles.put name (wrap t.heap)⟩)
        (fun e t => refused e ⟨t.db, s.handles.put name (wrap t.heap)⟩) :=
  ensures_onPart

theorem ensures_setHandle {ok : Unit → Session σ → Prop} :
    (setHandle name handle).Ensures s ok refused ↔ ok () ⟨s.db, s.handles.put name handle⟩ :=
  Iff.rfl

theorem ensures_forgetHandle {ok : Unit → Session σ → Prop} :
    (forgetHandle name).Ensures s ok refused ↔ ok () ⟨s.db, s.handles.erase name⟩ := Iff.rfl

end Rules

/-- What cannot be understood changes nothing. -/
theorem obeys_unusable (h : s.Sound) (c : Command) : Obeys unusable s c :=
  Follows.refl h (not_changes_refused c _) (by simp)

section Handles

variable (h : s.Sound) (hfind : s.handles.find? name = some handle)
  (hheap : handle.heap? = some heap)
include h hfind hheap

/-- An operation on an open heap file that changes no page. -/
theorem obeys_stays {α : Type} {x : HeapAction MemoryFiles α} (reply : α → Reply)
    (hwrap : ∀ h, (wrap h).heap? = some h) (hc : ∀ a, ¬(Command.tell name c').Changes (reply a))
    (hx : x.Ensures ⟨s.db, heap⟩ (fun _ => StaysAt s name heap) (fun _ => StaysAt s name heap)) :
    Obeys (do return reply (← onHeap name heap wrap x)) s (.tell name c') := by
  unfold Obeys
  rw [ensures_bind, ensures_onHeap]
  exact hx.mono (fun a t hstays => .of_stays h hfind hheap hstays (hwrap _) (hc a))
    fun e t hstays => .of_stays h hfind hheap hstays (hwrap _) (not_changes_failed _ e)

/-- The questions that every handle of a heap file answers change nothing. -/
theorem obeys_onAnyHeap (hwrap : ∀ h, (wrap h).heap? = some h) (c' : HandleCommand) :
    Obeys (onAnyHeap name heap wrap c') s (.tell name c') := by
  have hattached := h.attached hfind hheap
  obtain ⟨header, hv⟩ := h.hasHeap hfind hheap
  have hheader : HeapFile.header.Ensures ⟨s.db, heap⟩ (fun _ => StaysAt s name heap)
      (fun _ => StaysAt s name heap) := by
    refine (HeapFile.ensures_header hattached hv.header).mono ?_ fun _ _ => False.elim
    rintro _ t ⟨-, rfl⟩
    exact ⟨hattached, .refl _, rfl⟩
  unfold onAnyHeap
  split
  · exact Follows.refl h (by simp [Command.Changes]) (by simp)
  · exact obeys_stays h hfind hheap _ hwrap (fun _ => by simp [Command.Changes]) hheader
  · exact obeys_stays h hfind hheap _ hwrap (fun _ => by simp [Command.Changes]) hheader
  · exact Follows.refl h (by simp [Command.Changes]) (by simp)
  · exact Follows.refl h (by simp [Command.Changes]) (by simp)
  · exact obeys_unusable h _

omit hfind hheap in
/-- A handle is closed, and its pins are given back. -/
theorem obeys_close {close : Action (Database MemoryFiles) Unit}
    (hc : ∀ reply, ¬(Command.tell name c').Changes reply)
    (hclose : close.Ensures s.db
      (fun _ db => Database.Steady (pinsOf (s.handles.erase name)) s.db db)
      (fun _ db => Database.Steady (pinsOf (s.handles.erase name)) s.db db)) :
    Obeys (do forgetHandle name; onDatabase close; return .done) s (.tell name c') := by
  unfold Obeys
  rw [ensures_bind, ensures_forgetHandle, ensures_bind, ensures_onDatabase]
  exact hclose.mono (fun _ db hsteady => .of_erase h hsteady (hc _))
    fun e db hsteady => .of_erase h hsteady (hc _)

end Handles

/-! ## Looking records up and inserting them -/

/-- Every file has room for one more page and one more record. -/
def Small (s : Session MemoryFiles) : Prop := ∀ file, (law.volume s.db file).Small

/-- Reading a record at an address changes no page. -/
theorem stays_getRecord (h : s.Sound) (hfind : s.handles.find? name = some handle)
    (hheap : handle.heap? = some heap) (rid : RecordId) :
    (HeapFile.getRecord rid).Ensures ⟨s.db, heap⟩ (fun _ => StaysAt s name heap)
      (fun _ => StaysAt s name heap) := by
  obtain ⟨header, hv⟩ := h.hasHeap hfind hheap
  exact (HeapFile.ensures_getRecord (h.attached hfind hheap) hv rid).mono
    (fun _ _ hpost => hpost.1) fun _ _ hpost => hpost.1

/-- The commands on a heap file that is open for reading. -/
theorem obeys_onLookup (h : s.Sound) (hfind : s.handles.find? name = some (.heap heap))
    (c' : HandleCommand) : Obeys (onLookup name heap c') s (.tell name c') := by
  have hclose := Database.ensures_closeHeap (h.attached hfind rfl).holds h.orderly
  unfold onLookup
  split
  · exact obeys_stays h hfind rfl _ (fun _ => rfl) (fun _ => by simp [Command.Changes])
      (stays_getRecord h hfind rfl _)
  · exact obeys_close h (fun _ => by simp [Command.Changes]) hclose
  · exact obeys_close h (fun _ => by simp [Command.Changes]) (ensures_quietly.2 hclose)
  · exact obeys_onAnyHeap h hfind rfl (fun _ => rfl) _

/-- The commands on a heap file that is open for inserting. -/
theorem obeys_onInserter (h : s.Sound) (hsmall : s.Small)
    (hfind : s.handles.find? name = some (.inserter heap))
    (hlevel : (Command.tell name c').HeapLevel) :
    Obeys (onInserter name heap c') s (.tell name c') := by
  have hattached := h.attached hfind rfl
  obtain ⟨header, hv⟩ := h.hasHeap hfind rfl
  have hclose := Database.ensures_closeInserter hattached h.orderly
  have hbehind : s.heapOf name = some heap := by
    unfold heapOf
    rw [hfind]
    rfl
  unfold onInserter
  split
  · unfold Obeys
    rw [ensures_bind, ensures_onHeap]
    refine (HeapFile.ensures_insert hattached hv (hsmall _) _).mono ?_ ?_
    · intro rid t hadded
      rw [ensures_pure]
      refine .of_moves h hfind rfl hadded.moves rfl ?_
      rw [records_of_moves hadded.moves hadded.record?]
      exact .insert hbehind hadded.fresh
    · rintro e t ⟨hstays, -⟩
      exact .of_stays h hfind rfl hstays rfl (not_changes_failed _ e)
  · exact hlevel.elim
  · exact obeys_close h (fun _ => by simp [Command.Changes]) hclose
  · exact obeys_close h (fun _ => by simp [Command.Changes]) (ensures_quietly.2 hclose)
  · exact obeys_onAnyHeap h hfind rfl (fun _ => rfl) _

/-! ## Scanning -/

/-- The words of a filter lead to a filter or to a refusal. -/
def CanRun (s : Session MemoryFiles) : Command → Prop
  | .create _ | .createFile _ => s.db.files.nextId.toNat + 1 < 2 ^ 32
  | .tell handle (.startScan request) => ∀ scan, s.handles.find? handle = some (.scan scan) →
      ∀ t, ScanRequest.resolve request ≠ .error (.trap t)
  | .tell handle (.setFilter request) => ∀ scan, s.handles.find? handle = some (.scan scan) →
      ∀ t, request.mapM FilterRequest.resolve ≠ .error (.trap t)
  | _ => True

/-- The filter of a scan is replaced, or the request is refused. -/
theorem obeys_filter {scan : Scan} {result : Result (Option Filter)} (h : s.Sound)
    (hfind : s.handles.find? name = some (.scan scan)) (hresult : ∀ t, result ≠ .error (.trap t))
    (hc : ∀ reply, ¬(Command.tell name c').Changes reply) :
    Obeys (do
      let filter ← Action.ofResult result
      setHandle name (.scan { scan with filter := filter })
      return .done) s (.tell name c') := by
  unfold Obeys
  rw [ensures_bind]
  cases result with
  | ok filter =>
    rw [ensures_ofResult_ok rfl, ensures_bind, ensures_setHandle, ensures_pure]
    exact .of_put h hfind rfl rfl (hc _)
  | error f =>
    cases f with
    | error e =>
      rw [ensures_ofResult_refuse rfl]
      exact .refl h (hc _) (by simp)
    | trap t => exact absurd rfl (hresult t)

/-- The commands on a scan. -/
theorem obeys_onScan {scan : Scan} (h : s.Sound)
    (hfind : s.handles.find? name = some (.scan scan))
    (hlevel : (Command.tell name c').HeapLevel) (hcan : s.CanRun (.tell name c')) :
    Obeys (onScan name scan c') s (.tell name c') := by
  have hattached := h.attached hfind rfl
  obtain ⟨header, hv⟩ := h.hasHeap hfind rfl
  have hbehind : s.heapOf name = some scan.heap := by
    unfold heapOf
    rw [hfind]
    rfl
  unfold onScan
  dsimp only
  split
  · exact obeys_stays h hfind rfl _ (fun _ => rfl) (fun _ => by simp [Command.Changes])
      (stays_getRecord h hfind rfl _)
  · exact obeys_filter h hfind (hcan scan hfind) fun _ => by simp [Command.Changes]
  · exact obeys_filter h hfind (hcan scan hfind) fun _ => by simp [Command.Changes]
  · exact Follows.refl h (by simp [Command.Changes]) (by simp)
  · refine obeys_stays h hfind rfl _ (fun _ => rfl) (fun _ => by simp [Command.Changes]) ?_
    exact (HeapFile.ensures_scanNext _ hattached hv).mono (fun _ _ hpost => hpost.1)
      fun _ _ => id
  · exact hlevel.elim
  · refine obeys_stays h hfind rfl _ (fun _ => rfl) (fun _ => by simp [Command.Changes]) ?_
    refine (HeapFile.ensures_readCurrent hattached hv).mono ?_ ?_
    · rintro _ _ ⟨rfl, -⟩
      exact ⟨hattached, .refl _, rfl⟩
    · rintro _ _ rfl
      exact ⟨hattached, .refl _, rfl⟩
  · next offset bytes =>
    unfold Obeys
    rw [ensures_bind, ensures_onHeap]
    refine (HeapFile.ensures_modifyCurrent hattached hv _).mono ?_ ?_
    · rintro _ t ⟨hmoves, -, rid, old, hcurrent, hlive, hrecord⟩
      refine .of_moves h hfind rfl hmoves rfl ?_
      rw [records_of_moves hmoves hrecord]
      exact .modify hbehind hcurrent hlive (Vector.length_toList ..) rfl
    · rintro e t ⟨hstays, -⟩
      exact .of_stays h hfind rfl hstays rfl (not_changes_failed _ e)
  · unfold Obeys
    rw [ensures_bind, ensures_onHeap]
    refine (HeapFile.ensures_deleteCurrent hattached hv).mono ?_ ?_
    · rintro _ t ⟨hmoves, -, rid, hcurrent, hlive, hrecord, -⟩
      refine .of_moves h hfind rfl hmoves rfl ?_
      rw [records_of_moves hmoves hrecord]
      exact .delete hbehind hcurrent hlive
    · rintro e t ⟨hstays, -⟩
      exact .of_stays h hfind rfl hstays rfl (not_changes_failed _ e)
  · exact Follows.of_put h hfind rfl rfl (by simp [Command.Changes])
  · refine obeys_stays h hfind rfl (fun _ => .done) (fun _ => rfl)
      (fun _ => by simp [Command.Changes]) ?_
    exact (HeapFile.ensures_resetTo hattached _).mono (fun _ _ => And.left) fun _ _ => And.left
  · refine obeys_stays h hfind rfl (fun _ => .done) (fun _ => rfl)
      (fun _ => by simp [Command.Changes]) ?_
    exact (HeapFile.ensures_endScan hattached).mono (fun _ _ hpost => hpost.1)
      fun _ _ => False.elim
  · refine obeys_stays h hfind rfl (fun _ => .done) (fun _ => rfl)
      (fun _ => by simp [Command.Changes]) ?_
    exact (HeapFile.ensures_markDirty hattached).mono (fun _ _ hpost => hpost.1)
      fun _ _ => False.elim
  · exact Follows.refl h (by simp [Command.Changes]) (by simp)
  · exact obeys_close h (fun _ => by simp [Command.Changes])
      (Database.ensures_closeScan hattached h.orderly)
  · exact obeys_close h (fun _ => by simp [Command.Changes])
      (ensures_quietly.2 (Database.ensures_closeHeap hattached.holds h.orderly))
  · exact obeys_onAnyHeap h hfind rfl (fun _ => rfl) _

/-! ## Files and the database -/

/-- A heap file is opened under a name that is free. -/
theorem Follows.of_opened (h : s.Sound) (hfree : s.handles.has name = false) {opening : Opening}
    {db : Database MemoryFiles} {new : Handle} (hnew : new.heap? = some heap)
    (hsteady : Database.Steady (heap.pins + pinsOf s.handles) s.db db)
    (hattached : HeapFile.Attached law (pinsOf s.handles) ⟨db, heap⟩)
    (hheap : s.db.HasHeap heap.file.id) :
    Follows s (.openAs name opening) .done ⟨db, s.handles.put name new⟩ where
  sound := by
    refine h.put hsteady.evolves hnew ?_ (hsteady.evolves.heaps _ hheap)
    rwa [Table.erase_of_has_eq_false hfree]
  heaps := hsteady.evolves.heaps
  made _ hcreate _ := by cases hcreate
  effect := by
    rw [records_eq fun file => by rw [hsteady.volume]]
    exact .none (by simp [Command.Changes])
  others other _ hfind _ := by
    have hne : name ≠ other := by
      rintro rfl
      unfold Table.has at hfree
      rw [hfind] at hfree
      cases hfree
    rw [Table.find?_put_of_ne hne]
    exact hfind

/-- Something is opened under a name that is free. -/
theorem obeys_openHandle (h : s.Sound) (hfree : s.handles.has name = false) (opening : Opening)
    (hlevel : (Command.openAs name opening).HeapLevel) :
    Obeys (openHandle name opening) s (.openAs name opening) := by
  unfold openHandle
  split
  · next use file =>
    unfold Obeys
    rw [ensures_bind, ensures_onDatabase]
    refine (Database.ensures_openHeap h.holds h.orderly h.usable file).mono ?_ ?_
    · rintro heap db ⟨hsteady, hattached, hheap, -, -⟩
      rw [ensures_bind, ensures_setHandle, ensures_pure]
      cases use with
      | lookup | scan | insert => exact .of_opened h hfree rfl hsteady hattached hheap
    · rintro e db ⟨hsteady, -⟩
      exact .of_steady h hsteady (not_changes_failed _ e) (by simp)
  · exact hlevel.elim
  · exact hlevel.elim
  · exact hlevel.elim
  · exact obeys_unusable h _

/-- A command is sent to a handle. -/
theorem obeys_tellHandle (h : s.Sound) (hsmall : s.Small)
    (hlevel : (Command.tell name c').HeapLevel) (hcan : s.CanRun (.tell name c')) :
    Obeys (tellHandle name c') s (.tell name c') := by
  unfold tellHandle Obeys
  rw [ensures_bind, ensures_get]
  cases hfind : s.handles.find? name with
  | none => exact .refl h (not_changes_refused _ _) (by simp)
  | some handle =>
    obtain ⟨heap, hheap, -⟩ := h.standing name handle hfind
    cases handle with
    | heap heap => exact obeys_onLookup h hfind c'
    | scan scan => exact obeys_onScan h hfind hlevel hcan
    | inserter heap => exact obeys_onInserter h hsmall hfind hlevel
    | file file => cases hheap
    | page pin => cases hheap

/-- An action on the database that changes no page. -/
theorem obeys_steady {α : Type} {x : Action (Database MemoryFiles) α} (reply : α → Reply)
    (h : s.Sound) (hc : ∀ a, ¬c.Changes (reply a)) (hcreate : ∀ name, c ≠ .create name)
    (hx : x.Ensures s.db (fun _ db => Database.Steady (pinsOf s.handles) s.db db)
      (fun _ db => Database.Steady (pinsOf s.handles) s.db db)) :
    Obeys (do return reply (← onDatabase x)) s c := by
  unfold Obeys
  rw [ensures_bind, ensures_onDatabase]
  exact hx.mono
    (fun a db hsteady => .of_steady h hsteady (hc a) fun name heq => absurd heq (hcreate name))
    fun e db hsteady =>
      .of_steady h hsteady (not_changes_failed c e) fun name heq => absurd heq (hcreate name)

/-- A file is made, or may have been. -/
theorem Follows.of_made (h : s.Sound) {db : Database MemoryFiles}
    (hmade : Database.Made (pinsOf s.handles) s.db db) (hc : ¬c.Changes reply)
    (hheap : ∀ name, c = .create name → reply = .done → db.HasHeap ⟨s.db.files.nextId⟩) :
    Follows s c reply ⟨db, s.handles⟩ where
  sound := h.of_evolves (hmade.evolves h.orderly) hmade.holds
  heaps := (hmade.evolves h.orderly).heaps
  made := hheap
  effect := by
    rw [records_eq fun file => ?_]
    · exact .none hc
    · by_cases hfile : file = ⟨s.db.files.nextId⟩
      · rw [hfile, hmade.records, h.orderly.blank_new.record?_eq]
      · rw [hmade.others file hfile]
  others _ _ hfind _ := hfind

/-- Removing a file changes no page. -/
theorem steady_destroy (h : s.Sound) (name : String) :
    (Database.onFiles (FileStore.destroy name)).Ensures s.db
      (fun _ db => Database.Steady (pinsOf s.handles) s.db db)
      (fun _ db => Database.Steady (pinsOf s.handles) s.db db) := by
  have hdestroy : (MemoryFiles.destroy name).Ensures s.db.files
      (fun _ t => s.db.files.SamePages t ∧ t.Booked ∧ True) (fun _ t => t = s.db.files) :=
    (MemoryFiles.ensures_destroy h.orderly.booked name).mono
      (fun _ _ hpost => ⟨hpost.1, hpost.2, trivial⟩) fun _ _ => id
  exact (Database.steady_onFiles (.refl h.holds h.orderly) hdestroy).mono
    (fun _ _ hpost => hpost.1) fun _ _ => id

/-- A command is carried out. -/
theorem obeys_perform (h : s.Sound) (hsmall : s.Small) (c : Command) (hlevel : c.HeapLevel)
    (hcan : s.CanRun c) : Obeys (perform c) s c := by
  unfold perform
  split
  · next name =>
    unfold Obeys
    rw [ensures_bind, ensures_onDatabase]
    refine (Database.ensures_createHeap h.holds h.orderly hcan name).mono ?_ ?_
    · rintro _ db ⟨hmade, hheap⟩
      exact .of_made h hmade (by simp [Command.Changes]) fun _ _ _ => hheap
    · intro e db hmade
      exact .of_made h hmade (not_changes_failed _ e) (by simp)
  · next name =>
    exact obeys_steady (fun _ => .done) h (fun _ => by simp [Command.Changes]) (by simp)
      (steady_destroy h name)
  · refine obeys_steady (fun _ => .done) h (fun _ => by simp [Command.Changes]) (by simp) ?_
    exact (Database.holds_flushAll h.holds).mono
      (fun _ _ hpost => .of_same hpost.1 h.orderly hpost.2)
      fun _ _ hpost => .of_same hpost.1 h.orderly hpost.2
  · exact Follows.refl h (by simp [Command.Changes]) (by simp)
  · next name =>
    unfold Obeys onFiles
    rw [ensures_bind, ensures_onDatabase]
    refine (Database.ensures_create h.holds h.orderly hcan name).mono ?_ ?_
    · rintro _ db ⟨hholds, ho, -, -, -, hsize, hothers⟩
      exact .of_made h (.of_blank hholds ho (.inl hsize.le) hothers) (by simp [Command.Changes])
        (by simp)
    · rintro e db ⟨rfl, -⟩
      exact .refl h (not_changes_failed _ e) (by simp)
  · next name =>
    exact obeys_steady (fun _ => .done) h (fun _ => by simp [Command.Changes]) (by simp)
      (steady_destroy h name)
  · next name =>
    exact obeys_steady .flag h (fun _ => by simp [Command.Changes]) (by simp)
      (show (Database.onFiles (MemoryFiles.hasFile name)).Ensures s.db _ _ from
        Database.Steady.refl h.holds h.orderly)
  · next handle opening =>
    unfold Obeys
    rw [ensures_bind, ensures_get]
    cases hhas : s.handles.has handle with
    | true => exact .refl h (not_changes_refused _ _) (by simp)
    | false => exact obeys_openHandle h hhas opening hlevel
  · exact obeys_tellHandle h hsmall hlevel hcan
  · exact obeys_unusable h _

/-- A scan to which a filter is given that cannot be made changes nothing. -/
theorem fails_tellHandle (hcan : ¬s.CanRun (.tell name c')) : (tellHandle name c').Fails s s := by
  cases c' with
  | startScan request =>
    simp only [CanRun, not_forall, not_not] at hcan
    obtain ⟨scan, hfind, t, ht⟩ := hcan
    refine .of_ok rfl ?_
    simp only [hfind]
    unfold onScan
    dsimp only
    rw [ht]
    exact (fails_ofResult _ s).bind
  | setFilter request =>
    simp only [CanRun, not_forall, not_not] at hcan
    obtain ⟨scan, hfind, t, ht⟩ := hcan
    refine .of_ok rfl ?_
    simp only [hfind]
    unfold onScan
    dsimp only
    rw [ht]
    exact (fails_ofResult _ s).bind
  | _ => exact absurd trivial hcan

/-- A command that cannot be carried out changes nothing. -/
theorem fails_perform (c : Command) (hcan : ¬s.CanRun c) : (perform c).Fails s s := by
  cases c with
  | create name =>
    have hfails : (onDatabase (Database.createHeap name)).Fails s s :=
      Fails.onPart (Database.fails_createHeap hcan name)
    exact hfails.bind
  | createFile name =>
    have hfails : (onFiles (FileStore.create name)).Fails s s :=
      Fails.onPart (Fails.onPart (MemoryFiles.fails_create s.db.files name hcan))
    exact hfails.bind
  | tell name c' => exact fails_tellHandle hcan
  | _ => exact absurd trivial hcan

section Steps

variable {σ : Type} [FileStore σ] {s s' : Session σ}

/-- A command that is answered replies its answer. -/
theorem step_of_ok (h : perform c s = .ok reply s') : step s c = .ok (reply, s') := by
  unfold step settle
  rw [h]

/-- A command that is refused replies the cause. -/
theorem step_of_refused {e : StorageError} (h : perform c s = .error (.error e) s') :
    step s c = .ok (.failed e, s') := by
  unfold step settle
  rw [h]

/-- A command that was replied to was answered or refused. -/
theorem run_of_step (h : step s c = .ok (reply, s')) :
    perform c s = .ok reply s' ∨ ∃ e, reply = .failed e ∧ perform c s = .error (.error e) s' := by
  unfold step settle at h
  split at h
  · next hrun =>
    cases h
    exact .inl hrun
  · next hrun =>
    cases h
    exact .inr ⟨_, rfl, hrun⟩
  · cases h

end Steps

/-- A step replies with the answer of its command, or with the cause of its refusal. -/
theorem of_step {ok : Reply → Session MemoryFiles → Prop}
    {refused : StorageError → Session MemoryFiles → Prop} (h : (perform c).Ensures s ok refused)
    (hstep : step s c = .ok (reply, s')) :
    ok reply s' ∨ ∃ e, reply = .failed e ∧ refused e s' := by
  rcases run_of_step hstep with hrun | ⟨e, he, hrun⟩
  · exact .inl (h.of_ok hrun)
  · exact .inr ⟨e, he, h.of_error hrun⟩

/-- A step with a command that cannot be carried out is refused. -/
theorem refused_of_not_canRun (hcan : ¬s.CanRun c) (hstep : step s c = .ok (reply, s')) :
    ∃ e, reply = .failed e ∧ s' = s := by
  obtain ⟨f, hf⟩ := fails_perform c hcan
  rcases run_of_step hstep with hrun | ⟨e, he, hrun⟩
  · cases hf.symm.trans hrun
  · cases hf.symm.trans hrun
    exact ⟨e, he, rfl⟩

/-- What is left behind by a command follows from its reply. -/
theorem follows_step (h : s.Sound) (hsmall : s.Small) (hlevel : c.HeapLevel)
    (hstep : step s c = .ok (reply, s')) : Follows s c reply s' := by
  by_cases hcan : s.CanRun c
  · rcases of_step (obeys_perform h hsmall c hlevel hcan) hstep with hok | ⟨e, rfl, hrefused⟩
    · exact hok
    · exact hrefused
  · obtain ⟨e, rfl, rfl⟩ := refused_of_not_canRun hcan hstep
    exact .refl h (not_changes_failed _ e) (by simp)

/-- Every command that can be carried out is replied to. -/
theorem exists_step (h : s.Sound) (hsmall : s.Small) (hlevel : c.HeapLevel) (hcan : s.CanRun c) :
    ∃ reply s', step s c = .ok (reply, s') := by
  have hobeys := obeys_perform h hsmall c hlevel hcan
  cases hrun : perform c s with
  | ok reply s' => exact ⟨reply, s', step_of_ok hrun⟩
  | error e s' =>
    cases e with
    | error e => exact ⟨.failed e, s', step_of_refused hrun⟩
    | trap t => exact (hobeys.not_trap hrun).elim

end Session

end PagedHeap
