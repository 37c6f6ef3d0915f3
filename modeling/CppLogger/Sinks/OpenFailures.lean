import CppLogger.Sinks.Batching

/-!
# A file that cannot be opened

A roll turns the members to the next file and then opens it. An opening that fails leaves
the stream and its size as they were, so nothing is lost of what came before; the members
stay turned to the file that is not there.
-/

namespace CppLogger

open Rotation Statement

/-- The same operating system, but for the files it refuses to open. -/
def Io.granting (io : Io) : Io := { io with opens := fun _ _ => true }

/-- The members describe the open file: the date and the index name it, and the size is its. -/
structure FileSink.Describes (s : FileSink) : Prop where
  path : s.out.path = some s.currentPath
  size : s.currentSize = (content s.files s.currentPath).length

/-! ## Where the code opens a file -/

section Openings

variable (io : Io)

/-- The loop of `rollIfNeeded` goes on. -/
def FileSink.Rolls (s : FileSink) (appendSize : ℕ) : Prop :=
  s.currentSize > 0 ∧
    (appendSize > s.maxFileSize ∨ s.currentSize > wordSub s.maxFileSize appendSize)

/-- The loop comes to `openNewLogFile` with the members as in the second sink. -/
inductive LoopOpens (appendSize : ℕ) : FileSink → FileSink → Prop
  | here {s s₁} : s.Rolls appendSize → flushPending io s = .ok ⟨⟩ s₁ →
      LoopOpens appendSize s { s₁ with fileIndex := s₁.fileIndex + 1 }
  | later {s s₁ s₂ s'} : s.Rolls appendSize → flushPending io s = .ok ⟨⟩ s₁ →
      openNewLogFile io { s₁ with fileIndex := s₁.fileIndex + 1 } = .ok ⟨⟩ s₂ →
      LoopOpens appendSize s₂ s' → LoopOpens appendSize s s'

/-- The roll check comes to `openNewLogFile`, for the date or for the size. -/
inductive CheckOpens (today : DateText) (record : Record) : FileSink → FileSink → Prop
  | date {s s₁} : today ≠ s.currentDate → flushPending io s = .ok ⟨⟩ s₁ →
      CheckOpens today record s { s₁ with currentDate := today, fileIndex := 0 }
  | size {s s'} : today = s.currentDate → LoopOpens io (word64 (record.text.length + 1)) s s' →
      CheckOpens today record s s'
  | dateSize {s s₁ s₂ s'} : today ≠ s.currentDate → flushPending io s = .ok ⟨⟩ s₁ →
      openNewLogFile io { s₁ with currentDate := today, fileIndex := 0 } = .ok ⟨⟩ s₂ →
      LoopOpens io (word64 (record.text.length + 1)) s₂ s' → CheckOpens today record s s'

/-- With the records `staged` of a batch behind it, the sink comes to open a file for `r`. -/
def BatchOpens (s : FileSink) (staged : List (Tm × Record)) (r : Tm × Record) (s' : FileSink) :
    Prop :=
  ∃ placements s₁, stageRecords io staged s = .ok placements s₁ ∧
    CheckOpens io (currentDate r.1) r.2 s₁ s'

end Openings

variable {io : Io} {basePath : Text} {maxFileSize : ℕ} {s s' s₁ s₂ : FileSink}

/-! ## An opening that succeeds -/

theorem openNewLogFile_refused (h : io.opens s.directory s.currentPath = false) :
    openNewLogFile io s = .error (.runtime_error ("unable to open log file: ".toList ++
      s.currentPath)) s := by
  unfold openNewLogFile
  unfold FileSink.currentPath at h
  rw [get_bind]
  simp only [h]
  rfl

theorem openNewLogFile_granted (h : io.opens s.directory s.currentPath = true) :
    openNewLogFile io s = openNewLogFile io.granting s := by
  unfold openNewLogFile
  unfold FileSink.currentPath at h
  rw [get_bind, get_bind]
  simp only [h]
  rfl

theorem openNewLogFile_within : Within (openNewLogFile io) (openNewLogFile io.granting) := by
  intro s a s' h
  cases hopens : io.opens s.directory s.currentPath with
  | true => rwa [← openNewLogFile_granted hopens]
  | false =>
    rw [openNewLogFile_refused hopens] at h
    cases h

theorem rollWhile_within (appendSize fuel : ℕ) :
    Within (rollWhile io appendSize fuel) (rollWhile io.granting appendSize fuel) := by
  induction fuel with
  | zero => exact .throw _ _
  | succ fuel ih =>
    unfold rollWhile
    refine .bind (.refl _) fun s => .ite ?_ (.refl _)
    exact .bind (.refl _) fun _ => .bind (.refl _) fun _ => .bind openNewLogFile_within fun _ => ih

theorem rollIfNeeded_within (today : DateText) (record : Record) :
    Within (rollIfNeeded io today record) (rollIfNeeded io.granting today record) := by
  unfold rollIfNeeded
  have hloop : ∀ _ : PUnit, Within
      (get >>= fun s : FileSink => rollWhile io (word64 (record.text.length + 1))
        (s.directory.keys.length + 1))
      (get >>= fun s : FileSink => rollWhile io.granting (word64 (record.text.length + 1))
        (s.directory.keys.length + 1)) :=
    fun _ => .bind (.refl _) fun _ => rollWhile_within _ _
  refine .bind (.refl _) fun s => .ite ?_ (hloop ⟨⟩)
  exact .bind (.refl _) fun _ => .bind (.refl _) fun _ => .bind openNewLogFile_within hloop

theorem stageRecords_within (rs : List (Tm × Record)) :
    Within (stageRecords io rs) (stageRecords io.granting rs) := by
  induction rs with
  | nil => exact .refl _
  | cons r rs ih =>
    unfold stageRecords
    refine .bind ?_ fun _ => .bind ih fun _ => .refl _
    unfold stageRecord
    exact .bind (rollIfNeeded_within _ _) fun _ => .refl _

/-! ## An opening that fails -/

/-- Nothing is staged, and the members are turned away from the open file. -/
def Turned (basePath : Text) (maxFileSize : ℕ) (files : Text → Option Text) (s' : FileSink) :
    Prop :=
  ∃ s₁ d i, Ready basePath maxFileSize s₁ ∧ s₁.pending = [] ∧ s₁.files = files ∧
    ¬(d = s₁.currentDate ∧ i = s₁.fileIndex) ∧ s' = { s₁ with currentDate := d, fileIndex := i }

theorem flushPending_same (hio : io.granting.Succeeds) (h : Ready basePath maxFileSize s)
    (hflush : flushPending io s = .ok ⟨⟩ s₁) :
    SameFile s s₁ ∧ Ready basePath maxFileSize s₁ ∧ s₁.pending = [] := by
  obtain ⟨s₁', hflush', hsame, hready, hnil⟩ := flushPending_spec hio h
  cases (show flushPending io s = _ from hflush').symm.trans hflush
  exact ⟨hsame, hready, hnil⟩

theorem openNewLogFile_ready (hio : io.granting.Succeeds) (h : Ready basePath maxFileSize s)
    (hnil : s.pending = []) {d : DateText} {i : ℕ} (hne : ¬(d = s.currentDate ∧ i = s.fileIndex))
    (hbelow : ∀ j < i, (s.files (makeLogFileName basePath d j)).isSome = true)
    (hopen : openNewLogFile io { s with currentDate := d, fileIndex := i } = .ok ⟨⟩ s₁) :
    Ready basePath maxFileSize s₁ ∧ s₁.currentDate = d ∧ s₁.fileIndex = i ∧
      s₁.files = touch s.files s₁.currentPath := by
  obtain ⟨s₁', hopen', hready, hdate, hindex, -, hfiles⟩ :=
    openNewLogFile_spec hio (h.opening hnil hne hbelow)
  cases (openNewLogFile_within _ _ _ hopen).symm.trans hopen'
  refine ⟨hready, hdate, hindex, ?_⟩
  rw [hfiles, FileSink.currentPath, FileSink.currentPath, hdate, hindex, hready.base, ← h.base]
  rfl

theorem Ready.rolls_iff (h : Ready basePath maxFileSize s) (record : Record) :
    s.Rolls (word64 (record.text.length + 1)) ↔
      ¬Room maxFileSize (content s.files s.currentPath) record.text := by
  unfold FileSink.Rolls
  rw [h.max, roll_iff s.currentSize h.limit record.small, h.size]
  rfl

theorem LoopOpens.rolls {appendSize : ℕ} (h : LoopOpens io appendSize s s') :
    s.Rolls appendSize := by
  cases h <;> assumption

/-- A file that the loop leaves behind was there before. -/
theorem LoopOpens.touch_current {record : Record}
    (hopens : LoopOpens io (word64 (record.text.length + 1)) s s')
    (h : Ready basePath maxFileSize s) {files : Text → Option Text}
    (hfiles : s.files = touch files s.currentPath) : s.files = files := by
  have hroom := (h.rolls_iff record).mp hopens.rolls
  rw [hfiles, content_touch] at hroom
  rw [hfiles, touch_of_isSome (isSome_of_content (content_ne_nil_of_not_room hroom))]

theorem rollWhile_turn {appendSize fuel : ℕ} (hrolls : s.Rolls appendSize)
    (hflush : flushPending io s = .ok ⟨⟩ s₁) :
    rollWhile io appendSize (fuel + 1) s =
      (do openNewLogFile io; rollWhile io appendSize fuel)
        { s₁ with fileIndex := s₁.fileIndex + 1 } := by
  unfold FileSink.Rolls at hrolls
  rw [rollWhile, get_bind, if_pos hrolls, bind_ok hflush, modify_bind]

/-- An opening that fails ends the loop. -/
theorem LoopOpens.fails (hio : io.granting.Succeeds) {record : Record}
    (hopens : LoopOpens io (word64 (record.text.length + 1)) s s')
    (h : Ready basePath maxFileSize s)
    (hrefused : io.opens s'.directory s'.currentPath = false) {fuel : ℕ}
    (hfuel : (logLayout basePath maxFileSize).target s.files s.currentDate s.fileIndex record.text -
      s.fileIndex < fuel) :
    rollWhile io (word64 (record.text.length + 1)) fuel s =
        .error (.runtime_error ("unable to open log file: ".toList ++ s'.currentPath)) s' ∧
      Turned basePath maxFileSize s.files s' := by
  induction hopens generalizing fuel with
  | @here s s₁ hrolls hflush =>
    obtain ⟨fuel, rfl⟩ := Nat.exists_eq_add_one_of_ne_zero (Nat.ne_zero_of_lt hfuel)
    obtain ⟨hsame, hready, hnil⟩ := flushPending_same hio h hflush
    refine ⟨?_, s₁, s₁.currentDate, s₁.fileIndex + 1, hready, hnil, hsame.files, by simp, rfl⟩
    rw [rollWhile_turn hrolls hflush, bind_error (openNewLogFile_refused hrefused)]
  | @later s s₁ s₂ s' hrolls hflush hopen hopens ih =>
    obtain ⟨fuel, rfl⟩ := Nat.exists_eq_add_one_of_ne_zero (Nat.ne_zero_of_lt hfuel)
    obtain ⟨hsame, hready₁, hnil⟩ := flushPending_same hio h hflush
    obtain ⟨hready, hdate, hindex, htouch⟩ := openNewLogFile_ready hio hready₁ hnil
      (d := s₁.currentDate) (i := s₁.fileIndex + 1) (by simp)
      (fun j hj => hready₁.upTo j (by omega)) hopen
    have hfiles : s₂.files = s.files := (hopens.touch_current hready htouch).trans hsame.files
    have hroom : ¬Room maxFileSize
        (content s.files (makeLogFileName basePath s.currentDate s.fileIndex)) record.text := by
      rw [← h.base]
      exact (h.rolls_iff record).mp hrolls
    have htarget : (logLayout basePath maxFileSize).target s.files s.currentDate s.fileIndex
        record.text = (logLayout basePath maxFileSize).target s₂.files s₂.currentDate s₂.fileIndex
          record.text := by
      rw [hfiles, hdate, hindex, hsame.date, hsame.index]
      exact Layout.target_succ hroom
    have hup := (Layout.target_spec (L := logLayout basePath maxFileSize)
      (fewFiles s₂) s₂.currentDate s₂.fileIndex record.text).1
    have hturn : s₂.fileIndex = s.fileIndex + 1 := by rw [hindex, hsame.index]
    have hfuel' : (logLayout basePath maxFileSize).target s₂.files s₂.currentDate s₂.fileIndex
        record.text - s₂.fileIndex < fuel := by omega
    obtain ⟨hthrows, hturned⟩ := ih hready hrefused hfuel'
    rw [hfiles] at hturned
    refine ⟨?_, hturned⟩
    rw [rollWhile_turn hrolls hflush, bind_ok hopen, hthrows]

/-- An opening that fails ends the roll check. -/
theorem CheckOpens.fails (hio : io.granting.Succeeds) {today : DateText} {record : Record}
    (hopens : CheckOpens io today record s s') (h : Ready basePath maxFileSize s)
    (hrefused : io.opens s'.directory s'.currentPath = false) :
    rollIfNeeded io today record s =
        .error (.runtime_error ("unable to open log file: ".toList ++ s'.currentPath)) s' ∧
      Turned basePath maxFileSize s.files s' := by
  unfold rollIfNeeded
  rw [get_bind]
  cases hopens with
  | @date s₁ hdate hflush =>
    obtain ⟨hsame, hready, hnil⟩ := flushPending_same hio h hflush
    have hne : ¬(today = s₁.currentDate ∧ 0 = s₁.fileIndex) := by
      rw [hsame.date]
      exact fun heq => hdate heq.1
    refine ⟨?_, s₁, today, 0, hready, hnil, hsame.files, hne, rfl⟩
    rw [if_pos hdate, bind_ok hflush, modify_bind, bind_error (openNewLogFile_refused hrefused)]
  | size hdate hloop =>
    rw [if_neg (not_not.mpr hdate)]
    exact hloop.fails hio h hrefused (target_lt_turns s s.currentDate s.fileIndex record.text)
  | @dateSize s₁ s₂ s' hdate hflush hopen hloop =>
    obtain ⟨hsame, hready₁, hnil⟩ := flushPending_same hio h hflush
    have hne : ¬(today = s₁.currentDate ∧ 0 = s₁.fileIndex) := by
      rw [hsame.date]
      exact fun heq => hdate heq.1
    obtain ⟨hready, -, -, htouch⟩ := openNewLogFile_ready hio hready₁ hnil hne
      (fun j hj => absurd hj (Nat.not_lt_zero j)) hopen
    have hfiles : s₂.files = s.files := (hloop.touch_current hready htouch).trans hsame.files
    obtain ⟨hthrows, hturned⟩ := hloop.fails hio hready hrefused
      (target_lt_turns s₂ s₂.currentDate s₂.fileIndex record.text)
    rw [hfiles] at hturned
    refine ⟨?_, hturned⟩
    rw [if_pos hdate, bind_ok hflush, modify_bind, bind_ok hopen]
    exact hthrows

/-! ## Batches -/

theorem Ready.describes (h : Ready basePath maxFileSize s) : s.Describes := ⟨h.path, h.size⟩

/-- A batch that returns leaves the members describing the open file. -/
theorem writeBatch_describes (hio : io.granting.Succeeds) (h : Ready basePath maxFileSize s)
    {rs : List (Tm × Record)} {placements : List (Placement Text Char)}
    (hbatch : FileSink.writeBatch io rs s = .ok placements s') :
    Ready basePath maxFileSize s' ∧ s'.Describes := by
  have hwithin : Within (FileSink.writeBatch io rs) (FileSink.writeBatch io.granting rs) :=
    .bind (stageRecords_within rs) fun _ => .refl _
  obtain ⟨s'', hbatch', hready, -⟩ := writeBatch_spec hio h rs
  cases (hwithin _ _ _ hbatch).symm.trans hbatch'
  exact ⟨hready, hready.describes⟩

/-- The records after the one that fails are not looked at. -/
theorem stageRecords_error {staged rs : List (Tm × Record)}
    {placements : List (Placement Text Char)} {e : SinkError}
    (hstaged : stageRecords io staged s = .ok placements s₁)
    (hrest : stageRecords io rs s₁ = .error e s') :
    stageRecords io (staged ++ rs) s = .error e s' := by
  induction staged generalizing s placements with
  | nil =>
    cases hstaged
    exact hrest
  | cons r staged ih =>
    obtain ⟨placement, s₂, hfirst, hstaged⟩ := of_bind_ok hstaged
    obtain ⟨placements', s₁', hstaged, hpure⟩ := of_bind_ok hstaged
    cases hpure
    rw [List.cons_append, stageRecords, bind_ok hfirst, bind_error (ih hstaged)]

/-- The open file, its size and what it holds are as they were before the members turned. -/
theorem Turned.stays {files : Text → Option Text} (h : Turned basePath maxFileSize files s') :
    s'.files = files ∧ s'.pending = [] ∧ ¬s'.Describes ∧
      ∃ path, s'.out.path = some path ∧ path ≠ s'.currentPath ∧
        s'.currentSize = (content files path).length := by
  obtain ⟨s₁, d, i, hready, hnil, rfl, hne, rfl⟩ := h
  have hother : s₁.currentPath ≠ makeLogFileName s₁.basePath d i := fun heq =>
    hne ((makeLogFileName_injective heq).imp Eq.symm Eq.symm)
  refine ⟨rfl, hnil, fun hdescribes => ?_, s₁.currentPath, hready.path, hother, hready.size⟩
  exact hother (Option.some.inj (hready.path.symm.trans hdescribes.path))

/-- What was written before is not lost. -/
theorem Turned.close (hio : io.granting.Succeeds) {files : Text → Option Text}
    (h : Turned basePath maxFileSize files s') : onDisk (s'.close io).directory = files := by
  obtain ⟨s₁, d, i, hready, hnil, rfl, -, rfl⟩ := h
  rw [← close_spec hio hready hnil]
  unfold FileSink.close
  split_ifs <;> rfl

/-- The records before the one that needs the file have been staged, and its roll check throws. -/
theorem BatchOpens.fails (hio : io.granting.Succeeds) (h : Ready basePath maxFileSize s)
    {staged : List (Tm × Record)} {r : Tm × Record} (hopens : BatchOpens io s staged r s')
    (hrefused : io.opens s'.directory s'.currentPath = false) :
    ∃ s₁, stageRecords io staged s =
        .ok ((logLayout basePath maxFileSize).placements s.writer (staged.map dated)) s₁ ∧
      s₁.writer = (logLayout basePath maxFileSize).writes s.writer (staged.map dated) ∧
      rollIfNeeded io (currentDate r.1) r.2 s₁ =
        .error (.runtime_error ("unable to open log file: ".toList ++ s'.currentPath)) s' ∧
      Turned basePath maxFileSize s₁.files s' := by
  obtain ⟨placements, s₁, hstaged, hcheck⟩ := hopens
  obtain ⟨s₁', hstaged', hready, hwriter⟩ := stageRecords_spec hio h staged
  cases (stageRecords_within _ _ _ _ hstaged).symm.trans hstaged'
  obtain ⟨hthrows, hturned⟩ := hcheck.fails hio hready hrefused
  exact ⟨s₁, hstaged, hwriter, hthrows, hturned⟩

/-- If a file cannot be opened, the batch throws. All records before the one that needs the
file have been written, and none after; the members do not describe the open file. -/
theorem failed_opening (hio : io.granting.Succeeds) (h : Ready basePath maxFileSize s)
    {staged : List (Tm × Record)} {r : Tm × Record} (rest : List (Tm × Record))
    (hopens : BatchOpens io s staged r s')
    (hrefused : io.opens s'.directory s'.currentPath = false) :
    FileSink.writeBatch io (staged ++ r :: rest) s =
        .error (.runtime_error ("unable to open log file: ".toList ++ s'.currentPath)) s' ∧
      (∃ placements,
        placements = (logLayout basePath maxFileSize).placements s.writer (staged.map dated) ∧
        placements.map Placement.record = staged.map (fun x => x.2.text) ∧ s'.pending = [] ∧
        ∀ p, content s'.files p =
            content s.files p ++ Framing.terminate '\n' (recordsAt p placements) ∧
          (s'.close io).directory.lookup p = s'.files p) ∧
      (∃ path, s'.out.path = some path ∧ path ≠ s'.currentPath ∧
        s'.currentSize = (content s'.files path).length) ∧
      ¬s'.Describes := by
  obtain ⟨s₁, hstaged, hwriter, hthrows, hturned⟩ := hopens.fails hio h hrefused
  obtain ⟨hfiles, hnil, hnot, path, hpath, hother, hsize⟩ := hturned.stays
  refine ⟨?_, ⟨_, rfl, ?_, hnil, fun p => ⟨?_, ?_⟩⟩, ⟨path, hpath, hother, by rwa [hfiles]⟩, hnot⟩
  · have hfirst : stageRecords io (r :: rest) s₁ =
        .error (.runtime_error ("unable to open log file: ".toList ++ s'.currentPath)) s' := by
      rw [stageRecords, bind_error]
      rw [stageRecord, bind_error hthrows]
    rw [FileSink.writeBatch, bind_error (stageRecords_error hstaged hfirst)]
  · rw [Layout.placements_records]
    simp [dated]
  · rw [hfiles, show s₁.files = s₁.writer.files from rfl, hwriter, Layout.content_writes, after_eq]
    rfl
  · rw [hfiles]
    exact congrFun (hturned.close hio) p

/-- The first file of the second day cannot be opened. -/
def closedDay : Io :=
  { calmIo with
    opens := fun _ path => path ≠ makeLogFileName "app".toList (currentDate (epochDay 2)) 0 }

theorem closedDay_succeeds : closedDay.granting.Succeeds := calmIo_succeeds

/-- Nothing is rolled for a date that is the same, into a file that is empty. -/
theorem rollIfNeeded_empty (io : Io) {today : DateText} (hdate : today = s.currentDate)
    (hsize : s.currentSize = 0) (record : Record) : rollIfNeeded io today record s = .ok ⟨⟩ s := by
  have hnone : ¬(s.currentSize > 0 ∧ (word64 (record.text.length + 1) > s.maxFileSize ∨
      s.currentSize > wordSub s.maxFileSize (word64 (record.text.length + 1)))) := by
    rw [hsize]
    exact fun h => absurd h.1 (lt_irrefl 0)
  unfold rollIfNeeded
  rw [get_bind, if_neg (not_not.mpr hdate)]
  change rollWhile io _ (s.directory.keys.length + 1) s = _
  rw [rollWhile, get_bind, if_neg hnone]
  rfl

theorem closedDay_first : ∃ s : FileSink,
    makeFileSink closedDay "app".toList 100 256 (epochDay 1) ∅ = .ok s ∧
      Ready "app".toList 100 s ∧ s.currentDate = currentDate (epochDay 1) ∧
      s.currentSize = 0 := by
  have hvalid : Valid "app".toList 100 := ⟨by decide, by decide, by decide⟩
  obtain ⟨s, hmake, hready, -, hwriter⟩ :=
    makeFileSink_spec calmIo_succeeds hvalid smallFiles_empty 256 (epochDay 1)
  have hopens : closedDay.opens ∅
      (makeLogFileName "app".toList (currentDate (epochDay 1)) 0) = true := by decide
  have hfiles : content s.files = content (onDisk ∅) := by
    rw [show s.files = _ from congrArg Writer.files hwriter]
    exact content_touch _ _
  refine ⟨s, ?_, hready, congrArg Writer.date hwriter, ?_⟩
  · rw [← hmake]
    unfold makeFileSink
    rw [openNewLogFile_granted hopens]
    rfl
  · rw [hready.size, hfiles]
    rfl

/-- The sink of the first day writes a record and turns to the second. -/
theorem closedDay_turned : ∃ s s' : FileSink,
    Ready "app".toList 100 s ∧
      BatchOpens closedDay s [(epochDay 1, shortRecord "ab")] (epochDay 2, shortRecord "cd") s' ∧
      closedDay.opens s'.directory s'.currentPath = false := by
  obtain ⟨s, -, hready, hdate, hsize⟩ := closedDay_first
  have hstage : stageRecords closedDay [(epochDay 1, shortRecord "ab")] s =
      stageRecords calmIo [(epochDay 1, shortRecord "ab")] s := by
    have hfirst : ∀ io, stageRecord io (epochDay 1, shortRecord "ab") s = _ := fun io =>
      bind_ok (rollIfNeeded_empty io hdate.symm hsize _) _
    simp only [stageRecords, bind, EStateM.bind, hfirst]
  obtain ⟨s₁, hstaged, hready₁, hwriter⟩ :=
    stageRecords_spec calmIo_succeeds hready [(epochDay 1, shortRecord "ab")]
  obtain ⟨s₂, hflush, hsame, hready₂, -⟩ := flushPending_spec calmIo_succeeds hready₁
  have hday : s₁.currentDate = currentDate (epochDay 1) :=
    congrArg Writer.date hwriter
  have hne : currentDate (epochDay 2) ≠ s₁.currentDate := by
    rw [hday]
    decide
  refine ⟨s, { s₂ with currentDate := currentDate (epochDay 2), fileIndex := 0 }, hready,
    ⟨_, s₁, hstage.trans hstaged, .date hne hflush⟩, ?_⟩
  rw [FileSink.currentPath, hready₂.base]
  simp [closedDay]

/-- The record of the first day is in its file, and the one behind the failure is not looked at. -/
theorem failed_opening_day : ∃ (s s' : FileSink) (placements : List (Placement Text Char)),
    FileSink.writeBatch closedDay [(epochDay 1, shortRecord "ab"), (epochDay 2, shortRecord "cd"),
        (epochDay 2, shortRecord "ef")] s =
      .error (.runtime_error ("unable to open log file: ".toList ++ s'.currentPath)) s' ∧
    placements.map Placement.record = ["ab".toList] ∧
    (∀ p, content s'.files p =
      content s.files p ++ Framing.terminate '\n' (recordsAt p placements)) ∧
    ¬s'.Describes := by
  obtain ⟨s, s', hready, hopens, hrefused⟩ := closedDay_turned
  obtain ⟨hthrows, ⟨placements, -, hrecords, -, hwritten⟩, -, hnot⟩ :=
    failed_opening closedDay_succeeds hready [(epochDay 2, shortRecord "ef")] hopens hrefused
  exact ⟨s, s', placements, hthrows, hrecords, fun p => (hwritten p).1, hnot⟩

/-- What becomes of a record of the second day that is written after the failure, when every
file can be opened. -/
def laterPlacements : Option (List (Placement Text Char)) :=
  match makeFileSink closedDay "app".toList 100 256 (epochDay 1) ∅ with
  | .error _ => none
  | .ok s =>
    match FileSink.writeBatch closedDay [(epochDay 2, shortRecord "gh")] s with
    | .ok _ _ => none
    | .error _ s' =>
      match FileSink.writeBatch closedDay.granting [(epochDay 2, shortRecord "ij")] s' with
      | .ok placements _ => some placements
      | .error _ _ => none

/-- The sink stays on the first day's file under the second day's name, and the record of
the second day goes to that file. -/
theorem misplaced_record :
    laterPlacements =
        some [⟨makeLogFileName "app".toList (currentDate (epochDay 1)) 0, 0, "ij".toList⟩] ∧
      ¬∀ (io : Io) (basePath : Text) (maxFileSize : ℕ) (s s' : FileSink)
        (staged : List (Tm × Record)) (r : Tm × Record), io.granting.Succeeds →
        Ready basePath maxFileSize s → BatchOpens io s staged r s' →
        io.opens s'.directory s'.currentPath = false → s'.Describes := by
  refine ⟨by decide +kernel, fun hclaim => ?_⟩
  obtain ⟨s, s', hready, hopens, hrefused⟩ := closedDay_turned
  obtain ⟨_, -, -, -, hturned⟩ := hopens.fails closedDay_succeeds hready hrefused
  exact hturned.stays.2.2.1
    (hclaim closedDay _ _ s s' _ _ closedDay_succeeds hready hopens hrefused)

end CppLogger
