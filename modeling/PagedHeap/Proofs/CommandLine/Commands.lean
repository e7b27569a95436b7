import PagedHeap.Proofs.CommandLine.Steps
import PagedHeap.Proofs.Heap.Untouched
import PagedHeap.Proofs.Session.Browsing

/-!
# What each command does

For every command there is one lemma that says what holds of the process when all steps of the
command were done, and what holds of it when a step failed.  An insert adds its records under
addresses that were free and prints these (`CommandLine.ensures_insert`).  A scan prints what is
there, and the reports read the header.

A command that fails leaves the files as they were: nothing was written when it failed to open its
file, and the first record that is refused leaves no page changed.  That is no longer so when some
records had been inserted before.
-/

namespace PagedHeap

open PagedHeap.Action

namespace CommandLine

open Session (InOrder Ready Browses Faces readRows)

variable {files : Directory} {p : Process} {name : String} {heap : HeapFile} {v : Volume}
variable {n : Nat}

/-! ## The start of a command -/

/-- A command shows the files of its directory. -/
theorem shown_begin (files : Directory) : (begin files).db.shown = files.shown :=
  funext (Session.shown_start files poolCapacity)

/-- A command on a directory of heap files is ready. -/
theorem ready_begin (hheaps : files.AllHeaps) (hroom : HaveRoom files.shown n) :
    Ready poolCapacity n ⟨(begin files).db, []⟩ :=
  Session.ready_start hheaps hroom (by decide)

/-- No page was changed yet. -/
theorem untouched_begin (files : Directory) :
    Database.Untouched (begin files).db.files.directory (begin files).db := ⟨rfl, nofun⟩

theorem nextId_begin (files : Directory) : (begin files).db.files.nextId.toNat + 2 < 2 ^ 32 :=
  show (1 : UInt32).toNat + 2 < 2 ^ 32 by decide

/-- The process has done nothing: it has printed nothing and left all files as they were. -/
structure Idle (files : Directory) (p : Process) : Prop where
  directory : p.db.files.directory = (begin files).db.files.directory
  lines : p.lines = []

theorem idle_begin (files : Directory) : Idle files (begin files) := ⟨rfl, rfl⟩

/-- What is not shown is not opened. -/
theorem exists_refusal_openHeap (hnone : files.shown name = none) :
    ∃ e, Database.openHeap name (begin files).db = .error (.error e) (begin files).db := by
  have hrefuses : (Database.openHeap name).Ensures (begin files).db (fun _ _ => False)
      fun _ db => db = (begin files).db :=
    Session.refuses_openHeap (s := ⟨(begin files).db, []⟩) rfl
      ((congrFun (shown_begin files) name).trans hnone)
  obtain ⟨e, db, hrun, rfl⟩ := hrefuses.exists_refusal
  exact ⟨e, hrun⟩

/-! ## Making and removing files -/

/-- A file that was made has no records. -/
theorem ensures_create (hready : Ready poolCapacity n ⟨(begin files).db, []⟩) (name : String)
    (args : List String) : (perform "create" name args).Ensures (begin files)
      (fun _ p => InOrder ⟨p.db, []⟩ ∧ HaveRoom p.db.shown 0 ∧
        recordAt p.db.shown = recordAt files.shown)
      fun message p => message ≠ stopped → Idle files p := by
  change (onDatabase (Database.createHeap name) >>= fun _ => print "OK" : Step Unit).Ensures _ _ _
  rw [ensures_bind]
  refine ensures_onDatabase ?_ ?_
  · intro _ db hrun
    obtain ⟨hinOrder, hothers, hnone, w, hw, hsize, hempty⟩ := hready.create_ok rfl hrun
    rw [ensures_print]
    refine ⟨hinOrder, fun other v hv => ?_, ?_⟩
    · by_cases hother : other = name
      · subst hother
        obtain rfl := Option.some.inj (hw.symm.trans hv)
        obtain ⟨header, hw⟩ := hinOrder.heaps other w hw
        exact hw.hasRoom (hsize.trans (by decide)) (Nat.zero_le _)
      · exact (hready.room other v (hothers other hother ▸ hv)).mono (Nat.zero_le n)
    funext other rid
    by_cases hother : other = name
    · subst hother
      rw [recordAt_of_shown hw, hempty]
      unfold recordAt
      rw [← shown_begin, hnone]
      rfl
    · unfold recordAt
      rw [hothers other hother, ← shown_begin]
  · intro f db hrun hstop
    obtain ⟨e, rfl⟩ := exists_refusal_of_text hstop
    obtain rfl := hready.create_refused rfl hrun
    exact idle_begin files

/-- A file that was removed is shown no more. -/
theorem ensures_destroy (hready : Ready poolCapacity n ⟨(begin files).db, []⟩) (name : String)
    (args : List String) : (perform "destroy" name args).Ensures (begin files)
      (fun _ p => InOrder ⟨p.db, []⟩ ∧ p.db.shown name = none ∧
        ∀ other, other ≠ name → p.db.shown other = files.shown other)
      fun message p => message ≠ stopped → Idle files p := by
  change (onDatabase (Database.destroyHeap name) >>= fun _ => print "OK" : Step Unit).Ensures _ _ _
  rw [ensures_bind]
  refine ensures_onDatabase ?_ ?_
  · intro _ db hrun
    obtain ⟨hinOrder, hothers, hnone⟩ := hready.destroy_ok rfl hrun
    rw [ensures_print]
    refine ⟨hinOrder, hnone, fun other hother => ?_⟩
    rw [← shown_begin]
    exact hothers other hother
  · intro f db hrun hstop
    obtain ⟨e, rfl⟩ := exists_refusal_of_text hstop
    obtain rfl := hready.destroy_refused hrun
    exact idle_begin files

/-! ## Inserting -/

/-- Records are inserted one after the other, and their addresses are printed.  If the first one is
refused the database is as it was. -/
theorem ensures_insertAll {capacity : Nat} (records : List Bytes) {n : Nat} {p : Process}
    {heap : HeapFile} (hready : Ready capacity n ⟨p.db, [("", .inserter heap)]⟩)
    (hroom : records.length ≤ n) : (insertAll heap records).Ensures p
      (fun heap' p' => Ready capacity 0 ⟨p'.db, [("", .inserter heap')]⟩ ∧
        ∃ rows, rows.map Prod.snd = records ∧
          p'.lines = (rows.map fun row => row.1.text).reverse ++ p.lines ∧
          Gains heap.file.name rows p.db.shown p'.db.shown)
      fun message p' => p.lines <:+ p'.lines ∧
        (message ≠ stopped → heap.currentPage? = some ⟨2⟩ → p'.lines = p.lines → p'.db = p.db) := by
  induction records generalizing n p heap with
  | nil =>
    unfold insertAll
    rw [ensures_pure]
    exact ⟨hready.mono (Nat.zero_le n), [], rfl, rfl, .nil _ _⟩
  | cons record records ih =>
    obtain ⟨k, rfl⟩ : ∃ k, n = k + 1 := Nat.exists_eq_succ_of_ne_zero (Nat.ne_zero_of_lt hroom)
    unfold insertAll
    rw [ensures_bind]
    refine ensures_onHeap ?_ ?_
    · intro rid u hrun
      obtain ⟨hfile, hready', hgains⟩ := hready.insert_ok rfl rfl hrun
      rw [ensures_bind, ensures_print]
      refine (ih hready' (Nat.le_of_succ_le_succ hroom)).mono ?_ ?_
      · rintro heap' p' ⟨hready'', rows, rfl, hlines, hgains'⟩
        rw [hfile] at hgains'
        refine ⟨hready'', (rid, record) :: rows, rfl, ?_, hgains.trans hgains'⟩
        rw [hlines, List.map_cons, List.reverse_cons, List.append_assoc]
        rfl
      · rintro message p' ⟨hlines, -⟩
        refine ⟨(List.suffix_cons _ _).trans hlines, fun _ _ heq => ?_⟩
        have hlength := hlines.length_le
        rw [heq, List.length_cons] at hlength
        exact absurd hlength (Nat.not_succ_le_self _)
    · intro f u hrun
      refine ⟨List.suffix_refl _, fun hstop hcurrent _ => ?_⟩
      obtain ⟨e, rfl⟩ := exists_refusal_of_text hstop
      obtain ⟨-, rfl⟩ := hready.insert_refused rfl hcurrent hrun
      rfl

/-- An insert adds its records to the file and prints the addresses under which they are there. -/
theorem ensures_insert {records : List Bytes}
    (hready : Ready poolCapacity n ⟨(begin files).db, []⟩) (hroom : records.length ≤ n)
    (name : String) : (insert name records).Ensures (begin files)
      (fun _ p => InOrder ⟨p.db, []⟩ ∧ HaveRoom p.db.shown 0 ∧
        ∃ rows, rows.map Prod.snd = records ∧
          p.lines.reverse = rows.map (fun row => row.1.text) ∧
          Gains name rows files.shown p.db.shown)
      fun message p => message ≠ stopped → p.lines = [] → Idle files p := by
  unfold insert
  rw [ensures_bind]
  cases hshown : files.shown name with
  | none =>
    obtain ⟨e, hrun⟩ := exists_refusal_openHeap hshown
    rw [ensures_onDatabase_error hrun]
    exact fun _ _ => idle_begin files
  | some v =>
    rw [← shown_begin] at hshown
    obtain ⟨⟨db, handles⟩, t, heap, hready', hhandles, hcurrent, hopens⟩ :=
      hready.exists_open rfl (nextId_begin files) hshown .insert
    obtain rfl : handles = [("", .inserter heap)] := hhandles
    obtain rfl := hopens.named
    rw [ensures_onDatabase_ok hopens.run, ensures_bind]
    refine (ensures_insertAll (p := ⟨db, []⟩) records hready' hroom).mono ?_ ?_
    · rintro heap' p ⟨hready'', rows, hrecords, hlines, hgains⟩
      obtain ⟨db', hclose, hinOrder, hshown'⟩ := hready''.exists_close rfl
      have hbefore : db.shown = files.shown := hopens.shown.trans (shown_begin files)
      unfold Session.closeInserter at hclose
      rw [ensures_onDatabase_ok hclose]
      refine ⟨hinOrder, hshown' ▸ hready''.room, rows, hrecords, ?_, ?_⟩
      · rw [hlines, List.append_nil, List.reverse_reverse]
      · rw [hshown', ← hbefore]
        exact hgains
    · rintro message p ⟨-, hfirst⟩ hstop hlines
      refine ⟨?_, hlines⟩
      rw [hfirst hstop hcurrent hlines]
      exact ((Database.allows_openHeap_untouched (untouched_begin files) _).of_ok
        hopens.run).directory

/-- One record that is not too long is inserted into a file without records. -/
theorem ensures_insert_first {record : Bytes}
    (hready : Ready poolCapacity (n + 1) ⟨(begin files).db, []⟩)
    (hshown : files.shown name = some v) (hempty : ∀ rid, v.record? rid = none)
    (hlen : record.length ≤ maxRecordSize) :
    (insert name [record]).Ensures (begin files) (fun _ p => InOrder ⟨p.db, []⟩)
      fun _ _ => False := by
  rw [← shown_begin] at hshown
  obtain ⟨⟨db, handles⟩, t, heap, hready', hhandles, hcurrent, hopens⟩ :=
    hready.exists_open rfl (nextId_begin files) hshown .insert
  obtain rfl : handles = [("", .inserter heap)] := hhandles
  obtain rfl := hopens.named
  have hshown' : db.shown heap.file.name = some v := (congrFun hopens.shown _).trans hshown
  obtain ⟨rid, u, hinsert⟩ := hready'.exists_insert rfl hcurrent hshown' (fun _ => hempty _) hlen
  obtain ⟨-, hready'', -⟩ := hready'.insert_ok rfl rfl hinsert
  obtain ⟨db', hclose, hinOrder, -⟩ := hready''.exists_close rfl
  unfold Session.closeInserter at hclose
  unfold insert insertAll insertAll
  rw [ensures_bind, ensures_onDatabase_ok hopens.run, ensures_bind, ensures_bind,
    ensures_onHeap_ok hinsert]
  dsimp only
  rw [ensures_bind, ensures_print, ensures_pure, ensures_onDatabase_ok hclose]
  exact hinOrder

/-- The record of a typed number, if it is one. -/
def numberRecord? (text : String) : Option Bytes :=
  (Decimal.int32? text).map fun number => littleEndian 4 number.toUInt32.toNat

/-- All typed numbers are taken, or one of them is none. -/
theorem ensures_mapM_numberRecord (texts : List String) :
    (texts.mapM numberRecord).Ensures p
      (fun records p' => p' = p ∧ texts.mapM numberRecord? = some records ∧
        records.length = texts.length)
      fun _ p' => p' = p ∧ texts.mapM numberRecord? = none := by
  induction texts with
  | nil => exact ⟨rfl, rfl, rfl⟩
  | cons text texts ih =>
    rw [List.mapM_cons, List.mapM_cons, ensures_bind]
    cases hnumber : Decimal.int32? text with
    | none =>
      have htext : numberRecord? text = none := congrArg (Option.map _) hnumber
      unfold numberRecord
      rw [hnumber, htext]
      exact ⟨rfl, rfl⟩
    | some number =>
      have htext : numberRecord? text = some (littleEndian 4 number.toUInt32.toNat) :=
        congrArg (Option.map _) hnumber
      unfold numberRecord
      rw [hnumber, htext, ensures_pure, ensures_bind]
      refine ih.mono ?_ ?_
      · rintro records p' ⟨rfl, hrecords, hlength⟩
        rw [ensures_pure, hrecords]
        exact ⟨rfl, rfl, congrArg (· + 1) hlength⟩
      · rintro message p' ⟨rfl, hnone⟩
        rw [hnone]
        exact ⟨rfl, rfl⟩

/-! ## Scanning -/

/-- The line that a scan prints for a record. -/
def rowLine (row : RecordId × Bytes) : String := s!"{row.1.text} -> {lossyText row.2}"

/-- A scan without arguments has no filter. -/
theorem ensures_scanFilter (args : List String) : (scanFilter args).Ensures p
    (fun filter p' => p' = p ∧ (args = [] → filter = none)) fun _ p' => p' = p ∧ args ≠ [] := by
  unfold scanFilter
  split
  · exact ⟨rfl, fun _ => rfl⟩
  · next datatype offset comparison value =>
    rw [ensures_bind]
    cases hparse : parseFilter datatype offset comparison value with
    | ok filter =>
      rw [ensures_ofResult_ok rfl]
      exact ⟨rfl, nofun⟩
    | error e =>
      rw [ensures_ofResult_error rfl]
      exact ⟨rfl, nofun⟩
  · next hargs _ => exact ⟨rfl, hargs⟩

/-- What a scan of the heap file reads is printed. -/
theorem ensures_printRecords {filter : Option Filter} (limit : Nat) {count : Nat} {p : Process}
    {heap : HeapFile} {rows : List (RecordId × Bytes)} {u : HeapState DiskFiles}
    (hrun : readRows filter limit ⟨p.db, heap⟩ = .ok (rows, .endOfFile) u) :
    (printRecords filter heap count limit).Ensures p
      (fun answer p' => answer = (count + rows.length, u.heap) ∧
        p' = ⟨u.db, (rows.map rowLine).reverse ++ p.lines⟩) fun _ _ => False := by
  induction limit generalizing count p heap rows with
  | zero => cases hrun
  | succ k ih =>
    obtain ⟨answer, s, hattempt, hrest⟩ := exists_of_bind_ok hrun
    unfold attempt at hattempt
    unfold printRecords
    rw [ensures_bind]
    cases hnext : HeapFile.scanNext filter ⟨p.db, heap⟩ with
    | error f s' =>
      rw [hnext] at hattempt
      cases f with
      | error e =>
        cases hattempt
        cases hrest
      | trap cause => cases hattempt
    | ok found s' =>
      rw [hnext] at hattempt
      cases hattempt
      rw [ensures_onHeap_ok hnext]
      cases found with
      | none =>
        cases hrest
        exact ⟨rfl, rfl⟩
      | some rid =>
        obtain ⟨record, s'', hread, hrest'⟩ := exists_of_bind_ok hrest
        obtain ⟨⟨rows', stop⟩, u', hrows, hpure⟩ := exists_of_bind_ok hrest'
        cases hpure
        dsimp only
        rw [ensures_bind, ensures_onHeap_ok hread]
        dsimp only
        rw [ensures_bind, ensures_print]
        refine (ih hrows).mono ?_ fun _ _ => id
        rintro _ _ ⟨rfl, rfl⟩
        refine ⟨congrArg (·, u.heap) (Nat.succ_add_eq_add_succ _ _), ?_⟩
        rw [List.map_cons, List.reverse_cons, List.append_assoc]
        rfl

/-- What a scan prints of some records. -/
def scanLines (rows : List (RecordId × Bytes)) : List String :=
  rows.map rowLine ++ [s!"COUNT: {rows.length}"]

/-- A heap file that is shown is opened for reading, and all files stay as they are. -/
theorem exists_opened (hready : Ready poolCapacity n ⟨(begin files).db, []⟩)
    (hshown : files.shown name = some v) :
    ∃ header db t heap, v.IsHeap header ∧ Database.openHeap name (begin files).db = .ok heap db ∧
      db.shown = files.shown ∧ Faces ⟨db, [("", .heap heap)]⟩ t heap v := by
  rw [← shown_begin] at hshown
  obtain ⟨header, hv⟩ := hready.inOrder.heaps _ _ hshown
  obtain ⟨db, t, heap, hopen, hsame, hfaces⟩ :=
    hready.exists_faces rfl (nextId_begin files) hshown
  exact ⟨header, db, t, heap, hv, hopen, hsame.trans (shown_begin files), hfaces⟩

/-- A scan of a file that is shown prints the records that pass its filter. -/
theorem ensures_scan (hready : Ready poolCapacity n ⟨(begin files).db, []⟩) (name : String)
    (args : List String) : (scan name args).Ensures (begin files)
      (fun _ p => InOrder ⟨p.db, []⟩ ∧ p.db.shown = files.shown ∧
        ∃ v header, files.shown name = some v ∧ v.IsHeap header ∧
          (args = [] → p.lines.reverse = scanLines v.rows))
      fun _ p => Idle files p ∧ (args = [] → files.shown name = none) := by
  unfold scan
  rw [ensures_bind]
  refine (ensures_scanFilter args).mono ?_ ?_
  · rintro filter p ⟨rfl, hfilter⟩
    rw [ensures_bind]
    cases hshown : files.shown name with
    | none =>
      obtain ⟨e, hrun⟩ := exists_refusal_openHeap hshown
      rw [ensures_onDatabase_error hrun]
      exact ⟨idle_begin files, fun _ => rfl⟩
    | some v =>
      obtain ⟨header, db, t, heap, hv, hopen, hshown₁, hfaces⟩ := exists_opened hready hshown
      rw [ensures_onDatabase_ok hopen, ensures_bind]
      obtain ⟨count, db₂, t₂, hcount, hsize, hshown₂, hfaces₂⟩ :=
        hfaces.exists_pageCount hv.size_lt
      rw [ensures_onDatabase_ok hcount, ensures_bind]
      have hbound : v.rows.length < recordBound count.toNat := by
        rw [hv.length_rows, hv.length_listing, hsize]
        exact Nat.lt_succ_of_le hv.recordCount_le
      obtain ⟨u, t₃, hrows, hshown₃, hbrowses⟩ := hfaces₂.exists_rows hv filter hbound
      refine (ensures_printRecords (p := ⟨db₂, []⟩) _ hrows).mono ?_ fun _ _ => False.elim
      rintro _ _ ⟨rfl, rfl⟩
      rw [ensures_bind, ensures_print, ensures_bind]
      obtain ⟨u', t₄, hend, hshown₄, hbrowses'⟩ := hbrowses.exists_endScan
      rw [ensures_onHeap_ok hend]
      obtain ⟨db₅, hclose, hinOrder, hshown₅⟩ := hbrowses'.exists_close
      rw [ensures_onDatabase_ok hclose]
      have hsame : db₅.shown = files.shown := by
        rw [hshown₅, ← hshown₁, ← hshown₂, ← hshown₃, ← hshown₄]
      refine ⟨hinOrder, hsame, v, header, rfl, hv, fun hargs => ?_⟩
      subst hargs
      have hall : v.rows.filter (fun row => passes none row.2) = v.rows :=
        List.filter_eq_self.2 fun _ _ => rfl
      rw [hfilter rfl, hall, List.reverse_cons, List.append_nil, List.reverse_reverse, Nat.zero_add]
      rfl
  · rintro message p ⟨rfl, hargs⟩
    exact ⟨idle_begin files, fun hnil => absurd hnil hargs⟩

/-- A report on a file that is shown is made of its header. -/
theorem ensures_report (hready : Ready poolCapacity n ⟨(begin files).db, []⟩) (name : String)
    (text : HeapHeader → String) : (report name text).Ensures (begin files)
      (fun _ p => InOrder ⟨p.db, []⟩ ∧ p.db.shown = files.shown ∧
        ∃ v header, files.shown name = some v ∧ v.IsHeap header ∧ p.lines = [text header])
      fun _ p => Idle files p ∧ files.shown name = none := by
  unfold report
  rw [ensures_bind]
  cases hshown : files.shown name with
  | none =>
    obtain ⟨e, hrun⟩ := exists_refusal_openHeap hshown
    rw [ensures_onDatabase_error hrun]
    exact ⟨idle_begin files, rfl⟩
  | some v =>
    obtain ⟨header, db, t, heap, hv, hopen, hshown₁, hfaces⟩ := exists_opened hready hshown
    rw [ensures_onDatabase_ok hopen, ensures_bind]
    obtain ⟨u, t₂, hheader, hshown₂, hbrowses⟩ := hfaces.exists_header hv
    rw [ensures_onHeap_ok hheader]
    obtain ⟨db₃, hclose, hinOrder, hshown₃⟩ := hbrowses.exists_close
    have hquietly : Action.quietly (Database.closeHeap u.heap) u.db = .ok () db₃ := by
      refine bind_run_ok (a := .ok ()) ?_ _
      unfold attempt
      rw [hclose]
    dsimp only
    rw [ensures_bind, ensures_print, ensures_onDatabase_ok hquietly]
    refine ⟨hinOrder, ?_, v, header, rfl, hv, rfl⟩
    rw [hshown₃, ← hshown₁, ← hshown₂]

end CommandLine

end PagedHeap
