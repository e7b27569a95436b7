import PagedHeap.Proofs.CommandLine.Commands
import PagedHeap.Proofs.CommandLine.Lines

/-!
# What was printed is stored

The program is run again and again on a directory that is empty at first.  An insert prints the
addresses of its records, and a record lives from then on until its file is destroyed
(`CommandLine.Lives`).  Whatever was run, the files store the records that live and no others: a
scan prints these, a count their number, and an address that is printed was not that of a record
that lives (`CommandLine.History.faithful`).

This leaves out the inserts that are refused after they have printed an address.  Such a run ends
without closing its file, and the record that it has printed is on no page of the file.
-/

namespace PagedHeap

namespace CommandLine

/-- One run of the program. -/
structure Invocation where
  /-- The arguments behind the directory. -/
  args : List String
  /-- What was printed, and how the run ended. -/
  outcome : Outcome

/-- The file and the records of an insert. -/
def insertion? : List String → Option (String × List Bytes)
  | "insert" :: name :: texts => some (name, texts.map textRecord)
  | "insert-int" :: name :: texts => (texts.mapM numberRecord?).map (Prod.mk name)
  | _ => none

namespace Invocation

/-- The run was an insert into the file, and printed these addresses for its first records. -/
def Prints (i : Invocation) (name : String) (rows : List (RecordId × Bytes)) : Prop :=
  ∃ records, insertion? i.args = some (name, records) ∧ rows.map Prod.snd <+: records ∧
    i.outcome.out = unlines (rows.map fun row => row.1.text)

/-- The run has removed the file. -/
def Destroys (i : Invocation) (name : String) : Prop :=
  i.outcome.code = 0 ∧ ∃ args, i.args = "destroy" :: name :: args

end Invocation

/-- A run has printed the address of a record in a file, and the file was not destroyed since. -/
def Lives (past : List Invocation) (name : String) (row : RecordId × Bytes) : Prop :=
  ∃ before i after rows, past = before ++ i :: after ∧ i.Prints name rows ∧ row ∈ rows ∧
    ∀ j ∈ after, ¬j.Destroys name

/-- The runs of the program on a directory that was empty at first, and its files after them.  There
was room for what was inserted, no run was stopped, and no insert was refused after it had printed
an address. -/
inductive History : List Invocation → Directory → Prop
  /-- At first there is no file. -/
  | start : History [] []
  /-- The program is run on the files that are there. -/
  | step {past : List Invocation} {files files' : Directory} {args : List String}
      {outcome : Outcome} : History past files → HaveRoom files.shown args.length →
      run files args = (outcome, files') → outcome.err ≠ s!"ERROR: {stopped}\n" →
      ((insertion? args).isSome → outcome.code ≠ 0 → outcome.out = "") →
      History (past ++ [⟨args, outcome⟩]) files'

variable {i : Invocation} {name : String} {rows rows' : List (RecordId × Bytes)}
variable {files files' : Directory} {past : List Invocation} {args : List String}
variable {row : RecordId × Bytes}

/-! ## What one run prints -/

/-- The addresses that an insert has printed are read from its output. -/
theorem Invocation.Prints.unique {name' : String} (h : i.Prints name rows)
    (h' : i.Prints name' rows') : name' = name ∧ rows' = rows := by
  obtain ⟨records, hinsertion, hfirst, hout⟩ := h
  obtain ⟨records', hinsertion', hfirst', hout'⟩ := h'
  cases hinsertion.symm.trans hinsertion'
  have hrids : rows'.map Prod.fst = rows.map Prod.fst := by
    refine eq_of_unlines_text ?_
    rw [List.map_map, List.map_map]
    exact hout'.symm.trans hout
  have hlength : rows'.length = rows.length := by
    rw [← List.length_map (f := Prod.fst), hrids, List.length_map]
  have hrecords : rows'.map Prod.snd = rows.map Prod.snd := by
    refine List.IsPrefix.eq_of_length (List.prefix_of_prefix_length_le hfirst' hfirst ?_) ?_
    · rw [List.length_map, List.length_map, hlength]
    · rw [List.length_map, List.length_map, hlength]
  exact ⟨rfl, (List.zip_of_prod hrids hrecords).trans (List.zip_of_prod rfl rfl).symm⟩

/-- Where nothing was printed there are no addresses. -/
theorem Invocation.Prints.eq_nil (h : i.Prints name rows) (hout : i.outcome.out = "") :
    rows = [] := by
  obtain ⟨-, -, -, hlines⟩ := h
  exact List.map_eq_nil_iff.1 (eq_nil_of_unlines (hlines.symm.trans hout))

/-! ## What one run changes -/

/-- A run that was done has printed the addresses of all its records.  A run has added the records
whose addresses it has printed, under addresses that were free, and has taken away those of the file
that it has destroyed. -/
structure Changes (i : Invocation) (files files' : Directory) : Prop where
  heaps : files'.AllHeaps
  room : HaveRoom files'.shown 0
  told : i.outcome.code = 0 → ∀ name records, insertion? i.args = some (name, records) →
    ∃ rows, rows.map Prod.snd = records ∧ i.Prints name rows
  records : ∀ name rid record, recordAt files'.shown name rid = some record ↔
    (∃ rows, i.Prints name rows ∧ (rid, record) ∈ rows) ∨
      recordAt files.shown name rid = some record ∧ ¬i.Destroys name
  free : ∀ name rows, i.Prints name rows → ∀ row ∈ rows, recordAt files.shown name row.1 = none
  distinct : ∀ name rows, i.Prints name rows → (rows.map Prod.fst).Nodup

/-- A run without an address and without a file destroyed keeps all records. -/
theorem changes_of_same (hheaps : files'.AllHeaps) (hroom : HaveRoom files'.shown 0)
    (hsame : recordAt files'.shown = recordAt files.shown)
    (hnone : ∀ name rows, i.Prints name rows → rows = [])
    (hsilent : i.outcome.code = 0 → insertion? i.args = none)
    (hkeeps : ∀ name, ¬i.Destroys name) : Changes i files files' where
  heaps := hheaps
  room := hroom
  told hcode name records hinsertion := by
    rw [hsilent hcode] at hinsertion
    cases hinsertion
  records name rid record := by
    rw [hsame]
    constructor
    · intro hold
      exact .inr ⟨hold, hkeeps name⟩
    · rintro (⟨rows, hprints, hrow⟩ | ⟨hold, -⟩)
      · rw [hnone name rows hprints] at hrow
        cases hrow
      · exact hold
  free name rows hprints row hrow := by
    rw [hnone name rows hprints] at hrow
    cases hrow
  distinct name rows hprints := by
    rw [hnone name rows hprints]
    exact List.nodup_nil

/-- A run that has failed without doing anything keeps all records. -/
theorem changes_of_idle (hheaps : files.AllHeaps) (hroom : HaveRoom files.shown 0) {p : Process}
    (hidle : Idle files p) {err : String} : Changes ⟨args, ⟨1, unlines p.lines.reverse, err⟩⟩ files
      p.db.files.directory := by
  obtain ⟨hheaps', hshown⟩ := directory_of_inOrder (Session.inOrder_start hheaps poolCapacity)
  have hshown' : p.db.files.directory.shown = files.shown := by
    rw [hidle.directory]
    exact hshown.trans (shown_begin files)
  refine changes_of_same (hidle.directory ▸ hheaps') (hshown' ▸ hroom)
    (congrArg recordAt hshown') ?_ nofun ?_
  · intro name rows hprints
    refine hprints.eq_nil ?_
    rw [hidle.lines]
    rfl
  · rintro name ⟨hcode, -⟩
    cases hcode

/-- An insert of which all records were added. -/
theorem changes_of_gains (hinsertion : insertion? args = some (name, rows.map Prod.snd))
    (hgains : Gains name rows files.shown files'.shown) (hheaps : files'.AllHeaps)
    (hroom : HaveRoom files'.shown 0) :
    Changes ⟨args, ⟨0, unlines (rows.map fun row => row.1.text), ""⟩⟩ files files' := by
  have hprints : Invocation.Prints ⟨args, ⟨0, unlines (rows.map fun row => row.1.text), ""⟩⟩
      name rows := ⟨_, hinsertion, List.prefix_refl _, rfl⟩
  have hkeeps (other : String) : ¬Invocation.Destroys
      ⟨args, ⟨0, unlines (rows.map fun row => row.1.text), ""⟩⟩ other := by
    rintro ⟨-, rest, rfl⟩
    cases hinsertion
  refine ⟨hheaps, hroom, fun _ other records hother => ?_, fun other rid record => ?_,
    fun other rows' hprints' => ?_, fun other rows' hprints' => ?_⟩
  · cases hinsertion.symm.trans hother
    exact ⟨rows, rfl, hprints⟩
  · by_cases hother : other = name
    · subst hother
      rw [hgains.records]
      refine or_congr ⟨fun hrow => ⟨rows, hprints, hrow⟩, ?_⟩ (and_iff_left (hkeeps other)).symm
      rintro ⟨rows', hprints', hrow⟩
      rwa [(hprints.unique hprints').2] at hrow
    · have hsame : recordAt files'.shown other rid = recordAt files.shown other rid := by
        unfold recordAt
        rw [hgains.others other hother]
      rw [hsame]
      refine ⟨fun hold => .inr ⟨hold, hkeeps other⟩, ?_⟩
      rintro (⟨rows', hprints', -⟩ | ⟨hold, -⟩)
      · exact absurd (hprints.unique hprints').1 hother
      · exact hold
  · obtain ⟨rfl, rfl⟩ := hprints.unique hprints'
    exact hgains.free
  · obtain ⟨-, rfl⟩ := hprints.unique hprints'
    exact hgains.distinct

/-- A file was destroyed. -/
theorem changes_of_destroyed {err out : String} (hnone : files'.shown name = none)
    (hothers : ∀ other, other ≠ name → files'.shown other = files.shown other)
    (hheaps : files'.AllHeaps) (hroom : HaveRoom files.shown 0) :
    Changes ⟨"destroy" :: name :: args, ⟨0, out, err⟩⟩ files files' := by
  have hsilent (other : String) (rows : List (RecordId × Bytes)) :
      ¬Invocation.Prints ⟨"destroy" :: name :: args, ⟨0, out, err⟩⟩ other rows := by
    rintro ⟨records, hinsertion, -⟩
    cases hinsertion
  refine ⟨hheaps, fun other v hv => ?_, fun _ other records hinsertion => ?_,
    fun other rid record => ?_, fun other rows hprints => ?_, fun other rows hprints => ?_⟩
  · by_cases hother : other = name
    · subst hother
      cases hnone.symm.trans hv
    · exact hroom other v (hothers other hother ▸ hv)
  · cases hinsertion
  · rw [or_iff_right fun hprinted => hsilent other _ hprinted.choose_spec.1]
    unfold recordAt
    by_cases hother : other = name
    · subst hother
      rw [hnone]
      refine ⟨nofun, fun hdestroyed => absurd ⟨rfl, args, rfl⟩ hdestroyed.2⟩
    · rw [hothers other hother]
      refine (and_iff_left ?_).symm
      rintro ⟨-, rest, heq⟩
      cases heq
      exact hother rfl
  · exact absurd hprints (hsilent other rows)
  · exact absurd hprints (hsilent other rows)

section Done

variable {command : String} {p : Process} (hinOrder : Session.InOrder ⟨p.db, []⟩)
variable (hroom : HaveRoom p.db.shown 0)
include hinOrder hroom

/-- A command that inserts nothing and destroys nothing was done. -/
theorem changes_of_kept (hsame : recordAt p.db.shown = recordAt files.shown)
    (hsilent : insertion? (command :: name :: args) = none) (hdestroy : command ≠ "destroy") :
    Changes ⟨command :: name :: args, ⟨0, unlines p.lines.reverse, ""⟩⟩ files
      p.db.files.directory := by
  obtain ⟨hheaps, hshown⟩ := directory_of_inOrder hinOrder
  refine changes_of_same hheaps (hshown ▸ hroom) ((congrArg recordAt hshown).trans hsame) ?_
    (fun _ => hsilent) ?_
  · rintro other rows ⟨records, hinsertion, -⟩
    cases hsilent.symm.trans hinsertion
  · rintro other ⟨-, rest, heq⟩
    exact hdestroy (List.cons.inj heq).1

/-- An insert was done. -/
theorem changes_of_inserted {records : List Bytes}
    (hinsertion : insertion? (command :: name :: args) = some (name, records))
    (hrows : ∃ rows, rows.map Prod.snd = records ∧
      p.lines.reverse = rows.map (fun row => row.1.text) ∧
      Gains name rows files.shown p.db.shown) :
    Changes ⟨command :: name :: args, ⟨0, unlines p.lines.reverse, ""⟩⟩ files
      p.db.files.directory := by
  obtain ⟨rows, rfl, hlines, hgains⟩ := hrows
  obtain ⟨hheaps, hshown⟩ := directory_of_inOrder hinOrder
  rw [hlines]
  exact changes_of_gains hinsertion (hshown ▸ hgains) hheaps (hshown ▸ hroom)

end Done

/-- What a command does to the files, and that one that fails leaves them as they were unless it
has printed addresses. -/
theorem ensures_perform (hready : Session.Ready poolCapacity args.length ⟨(begin files).db, []⟩)
    (command name : String) : (perform command name args).Ensures (begin files)
      (fun _ p => Session.InOrder ⟨p.db, []⟩ ∧
        Changes ⟨command :: name :: args, ⟨0, unlines p.lines.reverse, ""⟩⟩ files
          p.db.files.directory)
      fun message p => message ≠ stopped →
        ((insertion? (command :: name :: args)).isSome → p.lines = []) → Idle files p := by
  have hroom := hready.room.mono (Nat.zero_le _)
  rw [shown_begin] at hroom
  have hreads {p : Process} (hinOrder : Session.InOrder ⟨p.db, []⟩)
      (hshown : p.db.shown = files.shown)
      (hsilent : insertion? (command :: name :: args) = none) (hdestroy : command ≠ "destroy") :=
    changes_of_kept hinOrder (hshown ▸ hroom) (congrArg recordAt hshown) hsilent hdestroy
  unfold perform
  -- One case for each command, and one for a word that is none.
  split
  · refine (ensures_create hready name args).mono ?_ fun _ _ hidle hstop _ => hidle hstop
    rintro _ p ⟨hinOrder, hroom, hsame⟩
    exact ⟨hinOrder, changes_of_kept hinOrder hroom hsame rfl (by decide)⟩
  · refine (ensures_destroy hready name args).mono ?_ fun _ _ hidle hstop _ => hidle hstop
    rintro _ p ⟨hinOrder, hnone, hothers⟩
    obtain ⟨hheaps, hshown⟩ := directory_of_inOrder hinOrder
    rw [← hshown] at hnone hothers
    exact ⟨hinOrder, changes_of_destroyed hnone hothers hheaps hroom⟩
  · refine (ensures_insert hready (List.length_map _).le name).mono ?_ ?_
    · rintro _ p ⟨hinOrder, hroom, hrows⟩
      exact ⟨hinOrder, changes_of_inserted hinOrder hroom rfl hrows⟩
    · intro _ _ hidle hstop hlines
      exact hidle hstop (hlines rfl)
  · rw [ensures_bind]
    refine (ensures_mapM_numberRecord args).mono ?_ ?_
    · rintro records _ ⟨rfl, hrecords, hlength⟩
      have hinsertion : insertion? ("insert-int" :: name :: args) = some (name, records) :=
        congrArg (Option.map (Prod.mk name)) hrecords
      refine (ensures_insert hready hlength.le name).mono ?_ ?_
      · rintro _ p ⟨hinOrder, hroom, hrows⟩
        exact ⟨hinOrder, changes_of_inserted hinOrder hroom hinsertion hrows⟩
      · intro _ _ hidle hstop hlines
        exact hidle hstop (hlines (hinsertion ▸ rfl))
    · rintro message _ ⟨rfl, -⟩ - -
      exact idle_begin files
  · refine (ensures_scan hready name args).mono ?_ fun _ _ hidle _ _ => hidle.1
    rintro _ p ⟨hinOrder, hshown, -⟩
    exact ⟨hinOrder, hreads hinOrder hshown rfl (by decide)⟩
  · refine (ensures_report hready name _).mono ?_ fun _ _ hidle _ _ => hidle.1
    rintro _ p ⟨hinOrder, hshown, -⟩
    exact ⟨hinOrder, hreads hinOrder hshown rfl (by decide)⟩
  · refine (ensures_report hready name _).mono ?_ fun _ _ hidle _ _ => hidle.1
    rintro _ p ⟨hinOrder, hshown, -⟩
    exact ⟨hinOrder, hreads hinOrder hshown rfl (by decide)⟩
  · rw [ensures_throw]
    exact fun _ _ => idle_begin files

/-- Every run that is not stopped changes the files by what it says. -/
theorem changes_of_run {outcome : Outcome} (hheaps : files.AllHeaps)
    (hroom : HaveRoom files.shown args.length) (hrun : run files args = (outcome, files'))
    (hends : outcome.err ≠ s!"ERROR: {stopped}\n")
    (hrefused : (insertion? args).isSome → outcome.code ≠ 0 → outcome.out = "") :
    Changes ⟨args, outcome⟩ files files' := by
  have hleft := hroom.mono (Nat.zero_le _)
  match args with
  | [] | [_] =>
    cases hrun
    refine changes_of_same hheaps hleft rfl (fun _ _ hprints => hprints.eq_nil rfl) nofun ?_
    rintro name ⟨hcode, -⟩
    cases hcode
  | command :: name :: args =>
    have hready := ready_begin hheaps fun name v hv =>
      (hroom name v hv).mono (Nat.le_add_right args.length 2)
    rcases run_cases (ensures_perform hready command name) with
      ⟨p, hchanges, -, -, hdone⟩ | ⟨message, p, hidle, hfailed⟩
    · cases hdone.symm.trans hrun
      exact hchanges
    · cases hfailed.symm.trans hrun
      refine changes_of_idle hheaps hleft (hidle ?_ fun hinserts => ?_)
      · rintro rfl
        exact hends rfl
      · have hlines := eq_nil_of_unlines (hrefused hinserts Nat.one_ne_zero)
        exact List.reverse_eq_nil_iff.1 hlines

/-! ## What many runs leave -/

/-- Of many runs one is the last or comes before it. -/
theorem exists_of_append_eq {past before after : List Invocation} {i j : Invocation}
    (h : past ++ [i] = before ++ j :: after) :
    past = before ∧ i = j ∧ after = [] ∨
      ∃ later, past = before ++ j :: later ∧ after = later ++ [i] := by
  rcases List.eq_nil_or_concat after with rfl | ⟨later, k, rfl⟩
  · obtain ⟨hpast, hlast⟩ := List.append_inj' h rfl
    exact .inl ⟨hpast, List.singleton_inj.1 hlast, rfl⟩
  · rw [List.concat_eq_append, ← List.cons_append, ← List.append_assoc] at h
    obtain ⟨hpast, hlast⟩ := List.append_inj' h rfl
    obtain rfl := List.singleton_inj.1 hlast
    exact .inr ⟨later, hpast, List.concat_eq_append⟩

theorem not_lives_nil : ¬Lives [] name row := by
  rintro ⟨before, i, after, rows, hpast, -⟩
  exact absurd hpast.symm (List.append_ne_nil_of_right_ne_nil _ (List.cons_ne_nil _ _))

/-- After one more run the records live that it has printed, and those of before whose files it has
not destroyed. -/
theorem lives_append : Lives (past ++ [i]) name row ↔
    (∃ rows, i.Prints name rows ∧ row ∈ rows) ∨ Lives past name row ∧ ¬i.Destroys name := by
  constructor
  · rintro ⟨before, j, after, rows, hpast, hprints, hrow, hkept⟩
    rcases exists_of_append_eq hpast with ⟨-, rfl, -⟩ | ⟨later, rfl, rfl⟩
    · exact .inl ⟨rows, hprints, hrow⟩
    · refine .inr ⟨⟨before, j, later, rows, rfl, hprints, hrow, fun k hk => ?_⟩, ?_⟩
      · exact hkept k (List.mem_append_left _ hk)
      · exact hkept _ (List.mem_append_right _ (List.mem_singleton_self _))
  · rintro (⟨rows, hprints, hrow⟩ | ⟨⟨before, j, after, rows, rfl, hprints, hrow, hkept⟩, hkeeps⟩)
    · exact ⟨past, i, [], rows, rfl, hprints, hrow, nofun⟩
    · refine ⟨before, j, after ++ [i], rows, ?_, hprints, hrow, fun k hk => ?_⟩
      · rw [List.append_assoc, List.cons_append]
      · rcases List.mem_append.1 hk with hk | hk
        · exact hkept k hk
        · exact List.mem_singleton.1 hk ▸ hkeeps

/-- The records that live are those that are stored, and there is room for one more run. -/
theorem History.lives_iff (h : History past files) :
    files.AllHeaps ∧ HaveRoom files.shown 0 ∧ ∀ name rid record,
      Lives past name (rid, record) ↔ recordAt files.shown name rid = some record := by
  induction h with
  | start =>
    exact ⟨⟨nofun, nofun, nofun⟩, nofun, fun _ _ _ => ⟨fun h => absurd h not_lives_nil, nofun⟩⟩
  | step _ hroom hrun hends hrefused ih =>
    obtain ⟨hheaps, -, hlives⟩ := ih
    have hchanges := changes_of_run hheaps hroom hrun hends hrefused
    refine ⟨hchanges.heaps, hchanges.room, fun name rid record => ?_⟩
    rw [lives_append, hchanges.records, hlives]

/-- Every insert that was done has printed the addresses of all its records. -/
theorem History.prints_all (h : History past files) (hi : i ∈ past) (hdone : i.outcome.code = 0)
    {records : List Bytes} (hinsertion : insertion? i.args = some (name, records)) :
    ∃ rows, rows.map Prod.snd = records ∧ i.Prints name rows := by
  induction h with
  | start => cases hi
  | step hprevious hroom hrun hends hrefused ih =>
    rcases List.mem_append.1 hi with hearlier | hlast
    · exact ih hearlier
    · obtain rfl := List.mem_singleton.1 hlast
      obtain ⟨hheaps, -⟩ := hprevious.lives_iff
      exact (changes_of_run hheaps hroom hrun hends hrefused).told hdone name records hinsertion

/-- The addresses that are printed are different, and none of them is that of a record that lives.
-/
theorem History.prints_free (h : History past files) {before after : List Invocation}
    (hpast : past = before ++ i :: after) (hprints : i.Prints name rows) :
    (rows.map Prod.fst).Nodup ∧ ∀ row ∈ rows, ∀ old, Lives before name old → old.1 ≠ row.1 := by
  induction h generalizing after with
  | start =>
    exact absurd hpast.symm (List.append_ne_nil_of_right_ne_nil _ (List.cons_ne_nil _ _))
  | step hprevious hroom hrun hends hrefused ih =>
    rcases exists_of_append_eq hpast with ⟨rfl, rfl, -⟩ | ⟨later, hearlier, -⟩
    · obtain ⟨hheaps, -, hlives⟩ := hprevious.lives_iff
      have hchanges := changes_of_run hheaps hroom hrun hends hrefused
      refine ⟨hchanges.distinct name rows hprints, fun row hrow old hold heq => ?_⟩
      have hstored := (hlives name old.1 old.2).1 hold
      rw [heq] at hstored
      cases (hchanges.free name rows hprints row hrow).symm.trans hstored
    · exact ih hearlier

/-! ## What is printed later -/

/-- A scan without filter prints the records that are there, or there is no file. -/
theorem run_scan (hheaps : files.AllHeaps) (hroom : HaveRoom files.shown 0) (name : String) :
    (∃ v header, files.shown name = some v ∧ v.IsHeap header ∧
      (run files ["scan", name]).1 = ⟨0, unlines (scanLines v.rows), ""⟩) ∨
    files.shown name = none ∧ (run files ["scan", name]).1.code = 1 := by
  have hscan : (perform "scan" name []).Ensures _ _ _ :=
    ensures_scan (ready_begin hheaps hroom) name []
  rcases run_cases hscan with ⟨p, ⟨-, v, header, hshown, hv, hlines⟩, -, -, hrun⟩ |
    ⟨message, p, ⟨-, hnone⟩, hrun⟩
  · refine .inl ⟨v, header, hshown, hv, ?_⟩
    rw [hrun, hlines rfl]
  · refine .inr ⟨hnone rfl, ?_⟩
    rw [hrun]

/-- A count prints the number of records that are there, or there is no file. -/
theorem run_count (hheaps : files.AllHeaps) (hroom : HaveRoom files.shown 0) (name : String) :
    (∃ v header, files.shown name = some v ∧ v.IsHeap header ∧
      (run files ["count", name]).1 = ⟨0, unlines [toString v.rows.length], ""⟩) ∨
    files.shown name = none ∧ (run files ["count", name]).1.code = 1 := by
  have hcount : (perform "count" name []).Ensures _ _ _ :=
    ensures_report (ready_begin hheaps hroom) name fun h => toString h.recordCount.toNat
  rcases run_cases hcount with ⟨p, ⟨-, v, header, hshown, hv, hlines⟩, -, -, hrun⟩ |
    ⟨message, p, ⟨-, hnone⟩, hrun⟩
  · refine .inl ⟨v, header, hshown, hv, ?_⟩
    rw [hrun, hlines, hv.length_rows, hv.length_listing, hv.records]
    rfl
  · refine .inr ⟨hnone, ?_⟩
    rw [hrun]

/-- Whatever was run: an insert that was done has printed the addresses of all its records, and
addresses that are printed are new.  Every later scan prints the records that live and nothing else,
each with its bytes as a text, and a later count prints their number. -/
theorem History.faithful (h : History past files) :
    (∀ i ∈ past, ∀ name records, i.outcome.code = 0 → insertion? i.args = some (name, records) →
      ∃ rows, rows.map Prod.snd = records ∧ i.Prints name rows) ∧
    (∀ before i after name rows, past = before ++ i :: after → i.Prints name rows →
      (rows.map Prod.fst).Nodup ∧ ∀ row ∈ rows, ∀ old, Lives before name old → old.1 ≠ row.1) ∧
    ∀ name,
      (∃ rows, (rows.map Prod.fst).Nodup ∧ (∀ row, row ∈ rows ↔ Lives past name row) ∧
        (run files ["scan", name]).1 = ⟨0, unlines (scanLines rows), ""⟩ ∧
        (run files ["count", name]).1 = ⟨0, unlines [toString rows.length], ""⟩) ∨
      (∀ row, ¬Lives past name row) ∧ (run files ["scan", name]).1.code = 1 ∧
        (run files ["count", name]).1.code = 1 := by
  refine ⟨fun i hi name records hdone => h.prints_all hi hdone,
    fun before i after name rows => h.prints_free, fun name => ?_⟩
  obtain ⟨hheaps, hroom, hlives⟩ := h.lives_iff
  rcases run_scan hheaps hroom name with ⟨v, header, hshown, hv, hscan⟩ | ⟨hnone, hscan⟩ <;>
    rcases run_count hheaps hroom name with ⟨w, header', hshown', hw, hcount⟩ | ⟨hnone', hcount⟩
  · cases hshown.symm.trans hshown'
    refine .inl ⟨v.rows, hv.map_fst_rows ▸ hv.nodup_listing, fun row => ?_, hscan, hcount⟩
    rw [hv.mem_rows, hlives, recordAt_of_shown hshown]
  · cases hshown.symm.trans hnone'
  · cases hnone.symm.trans hshown'
  · refine .inr ⟨fun row hrow => ?_, hscan, hcount⟩
    have hstored := (hlives name row.1 row.2).1 hrow
    unfold recordAt at hstored
    rw [hnone] at hstored
    cases hstored

/-- A heap file is made in an empty directory. -/
theorem run_create : (run [] ["create", "t"]).1 = ⟨0, "OK\n", ""⟩ ∧
    (run [] ["create", "t"]).2.map (fun entry => (entry.1, entry.2.pageCount)) = [("t", 3)] := by
  decide +kernel

/-- A heap file is made, and a record is inserted into it. -/
theorem history_insert : ∃ outcome outcome' files, outcome'.code = 0 ∧
    History [⟨["create", "t"], outcome⟩, ⟨["insert", "t", "a"], outcome'⟩] files := by
  obtain ⟨hcreated, hpages⟩ := run_create
  obtain ⟨⟨name, f⟩, hfiles, hentry⟩ := List.map_eq_singleton_iff.1 hpages
  obtain ⟨rfl, hcount⟩ : name = "t" ∧ f.pageCount = 3 := Prod.mk.inj hentry
  have hrun : run [] ["create", "t"] = (⟨0, "OK\n", ""⟩, [("t", f)]) := Prod.ext hcreated hfiles
  have hends : "" ≠ s!"ERROR: {stopped}\n" := by decide
  have hmade : History [⟨["create", "t"], ⟨0, "OK\n", ""⟩⟩] [("t", f)] :=
    .step .start nofun hrun hends fun hinserts => by cases hinserts
  obtain ⟨hheaps, -, hlives⟩ := hmade.lives_iff
  have hroom : HaveRoom (Directory.shown [("t", f)]) 3 := by
    intro name v hshown
    obtain ⟨f', hfind, rfl⟩ := Option.map_eq_some_iff.1 hshown
    obtain ⟨header, hv⟩ := hheaps.heaps name f' hfind
    cases List.mem_singleton.1 (Table.mem_of_find? hfind)
    exact hv.hasRoom (hcount.le.trans (by decide)) (by decide)
  have hempty (rid : RecordId) : f.volume.record? rid = none := by
    refine Option.eq_none_iff_forall_ne_some.2 fun record hrecord => ?_
    have hstored : Lives ([] ++ [_]) "t" (rid, record) := (hlives "t" rid record).2 hrecord
    rcases lives_append.1 hstored with ⟨rows, ⟨records, hinsertion, -⟩, -⟩ | ⟨hold, -⟩
    · cases hinsertion
    · exact not_lives_nil hold
  have hshort : (textRecord "a").length ≤ maxRecordSize := by decide
  have hshown : Directory.shown [("t", f)] "t" = some f.volume := rfl
  have hinsert := ensures_insert_first (ready_begin hheaps hroom) hshown hempty hshort
  have hperform : (perform "insert" "t" ["a"]).Ensures (begin [("t", f)])
      (fun _ p => Session.InOrder ⟨p.db, []⟩ ∧ True) fun _ _ => False :=
    hinsert.mono (fun _ _ hinOrder => ⟨hinOrder, trivial⟩) fun _ _ => id
  rcases run_cases hperform with ⟨p, -, -, -, hdone⟩ | ⟨message, p, hfalse, -⟩
  · exact ⟨_, _, _, rfl, hmade.step hroom hdone hends fun _ hcode => absurd rfl hcode⟩
  · exact hfalse.elim

/-- The record that was inserted is printed by a scan and counted. -/
theorem History.faithful_inserted : ∃ past files i rows, History past files ∧ i ∈ past ∧
    rows.map Prod.snd = [[97]] ∧ i.Prints "t" rows ∧
    ∃ rows', (∀ row ∈ rows, row ∈ rows') ∧
      (run files ["scan", "t"]).1 = ⟨0, unlines (scanLines rows'), ""⟩ ∧
      (run files ["count", "t"]).1 = ⟨0, unlines [toString rows'.length], ""⟩ := by
  obtain ⟨outcome, outcome', files, hdone, h⟩ := history_insert
  obtain ⟨hall, -, hstored⟩ := History.faithful h
  have hrecords : [textRecord "a"] = [[97]] := by decide
  obtain ⟨rows, hrows, hprints⟩ := hall ⟨["insert", "t", "a"], outcome'⟩
    (List.mem_cons_of_mem _ (List.mem_singleton_self _)) "t" [textRecord "a"] hdone rfl
  have hlives (row : RecordId × Bytes) (hrow : row ∈ rows) : Lives _ "t" row :=
    ⟨[⟨["create", "t"], outcome⟩], ⟨["insert", "t", "a"], outcome'⟩, [], rows, rfl, hprints, hrow,
      nofun⟩
  refine ⟨_, files, _, rows, h, List.mem_cons_of_mem _ (List.mem_singleton_self _),
    hrows.trans hrecords, hprints, ?_⟩
  rcases hstored "t" with ⟨rows', -, hrows', hscan, hcount⟩ | ⟨hnone, -⟩
  · exact ⟨rows', fun row hrow => (hrows' row).2 (hlives row hrow), hscan, hcount⟩
  · cases rows with
    | nil => cases hrows
    | cons row rows => exact absurd (hlives row (List.mem_cons_self ..)) (hnone row)

end CommandLine

end PagedHeap
