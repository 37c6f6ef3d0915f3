import CppLogger.Sinks.Refinement

/-!
# Batches do not show

What a lifetime leaves in the files depends on its records and on what the clock shows at
each of them. Any grouping into batches gives the files that writing record by record
would give, and the size the sink keeps track of is the true one at every record.
-/

namespace CppLogger

open Rotation Statement

variable {io : Io} {basePath : Text} {maxFileSize : ℕ} {s s₀ : FileSink}

/-- The tracked size is that of the file, of what the stream holds and of what is staged,
taken together, and it fits a machine word. -/
def FileSink.Tracks (s : FileSink) : Prop :=
  ∃ path bytes, s.out.path = some path ∧ s.directory.lookup path = some bytes ∧
    s.currentSize = bytes.length + s.out.buffer.length + s.pending.length ∧
    s.currentSize < wordBound

theorem Ready.tracks (h : Ready basePath maxFileSize s) : s.Tracks := by
  obtain ⟨bytes, hbytes⟩ := Option.isSome_iff_exists.mp h.created
  have hcontent : content s.files s.currentPath = bytes ++ (s.out.buffer ++ s.pending) := by
    rw [h.files_eq, content_extend, Function.update_self, content, hbytes, Option.getD_some]
  refine ⟨s.currentPath, bytes, h.path, hbytes, ?_, h.size ▸ h.small s.currentPath⟩
  rw [h.size, hcontent]
  simp [Nat.add_assoc]

/-- The sink after some calls, in the middle of the batch that follows. -/
def Midway (io : Io) (s₀ : FileSink) (calls : List SinkCall) (staged : List (Tm × Record))
    (s : FileSink) (placements : List (Placement Text Char)) : Prop :=
  ∃ s₁ ps qs, FileSink.run io calls s₀ = .ok ps s₁ ∧ stageRecords io staged s₁ = .ok qs s ∧
    placements = ps ++ qs

/-- The records of some calls and of a part of the batch that follows. -/
def recordsUpTo (calls : List SinkCall) (staged : List (Tm × Record)) : List (DateText × Text) :=
  (calls.flatMap SinkCall.records ++ staged).map dated

theorem midway_spec (hio : io.Succeeds) (h : Ready basePath maxFileSize s₀) (hnil : s₀.pending = [])
    (calls : List SinkCall) (staged : List (Tm × Record)) :
    ∃ s, Midway io s₀ calls staged s
        ((logLayout basePath maxFileSize).placements s₀.writer (recordsUpTo calls staged)) ∧
      Ready basePath maxFileSize s ∧
      s.writer = (logLayout basePath maxFileSize).writes s₀.writer (recordsUpTo calls staged) := by
  obtain ⟨s₁, hrun, hready₁, -, hwriter₁⟩ := run_spec hio h hnil calls
  obtain ⟨s, hstage, hready, hwriter⟩ := stageRecords_spec hio hready₁ staged
  refine ⟨s, ⟨s₁, _, _, hrun, hstage, ?_⟩, hready, ?_⟩
  · rw [recordsUpTo, List.map_append, Layout.placements_append, hwriter₁]
  · rw [hwriter, hwriter₁, recordsUpTo, List.map_append, Layout.writes_append]

theorem Midway.ready (hio : io.Succeeds) (h : Ready basePath maxFileSize s₀)
    (hnil : s₀.pending = []) {calls : List SinkCall} {staged : List (Tm × Record)}
    {placements : List (Placement Text Char)} (hmid : Midway io s₀ calls staged s placements) :
    Ready basePath maxFileSize s := by
  obtain ⟨s₁, ps, qs, hrun, hstage, -⟩ := hmid
  obtain ⟨s₁', hrun', hready₁, -⟩ := run_spec hio h hnil calls
  rw [hrun] at hrun'
  cases hrun'
  obtain ⟨s', hstage', hready, -⟩ := stageRecords_spec hio hready₁ staged
  rw [hstage] at hstage'
  cases hstage'
  exact hready

/-- The record that comes next goes to the file that its roll check leaves open. -/
theorem midway_next (hio : io.Succeeds) (h : Ready basePath maxFileSize s) (r : Tm × Record) :
    ∃ s' path, rollIfNeeded io (CppLogger.currentDate r.1) r.2 s = .ok ⟨⟩ s' ∧ s'.Tracks ∧
      s'.out.path = some path ∧
      (logLayout basePath maxFileSize).placement s.writer (dated r) =
        ⟨path, s'.currentSize, r.2.text⟩ := by
  obtain ⟨s', hroll, hready, hdate, hindex, hfiles⟩ :=
    rollIfNeeded_spec hio h (CppLogger.currentDate r.1) r.2
  refine ⟨s', s'.currentPath, hroll, hready.tracks, hready.path, ?_⟩
  have hpath : s'.currentPath = makeLogFileName basePath (CppLogger.currentDate r.1) s'.fileIndex := by
    rw [FileSink.currentPath, hready.base, hdate]
  rw [hready.size, hfiles, content_touch, hpath, hindex]
  rfl

variable {directory : Directory} (writeBatchSize : ℕ)

/-- Batched writing equals writing record by record. -/
theorem batched_writing (hio : io.Succeeds) (hvalid : Valid basePath maxFileSize)
    (hsmall : SmallFiles directory) (life : Lifetime) :
    ∃ s₀ directory' placements,
      makeFileSink io basePath maxFileSize writeBatchSize life.localTime directory = .ok s₀ ∧
      life.run io basePath maxFileSize writeBatchSize directory = .ok (directory', placements) ∧
      (∀ p, content (onDisk directory') p =
        content (onDisk directory) p ++ Framing.terminate '\n' (recordsAt p placements)) ∧
      placements.map Placement.record =
        (life.calls.flatMap SinkCall.records).map (fun r => r.2.text) ∧
      (∀ calls staged, ∃ s ps, Midway io s₀ calls staged s ps ∧ s.Tracks) ∧
      (∀ calls staged r rest others,
        life.calls = calls ++ .writeBatch (staged ++ r :: rest) :: others →
        ∃ s ps s' path qs, Midway io s₀ calls staged s ps ∧
          rollIfNeeded io (CppLogger.currentDate r.1) r.2 s = .ok ⟨⟩ s' ∧ s'.Tracks ∧
          s'.out.path = some path ∧ placements = ps ++ ⟨path, s'.currentSize, r.2.text⟩ :: qs) ∧
      ∀ life' : Lifetime, life'.localTime = life.localTime →
        life'.calls.flatMap SinkCall.records = life.calls.flatMap SinkCall.records →
        ∃ directory'',
          life'.run io basePath maxFileSize writeBatchSize directory = .ok (directory'', placements) ∧
          ∀ p, directory''.lookup p = directory'.lookup p := by
  obtain ⟨s₀, hmake, hready₀, hnil₀, hwriter₀⟩ :=
    makeFileSink_spec hio hvalid hsmall writeBatchSize life.localTime
  obtain ⟨directory', hrun, hfiles, -⟩ := lifetime_spec hio hvalid hsmall writeBatchSize life
  refine ⟨s₀, directory', _, hmake, hrun, ?_, ?_, ?_, ?_, ?_⟩
  · intro p
    rw [hfiles]
    exact Layout.content_opened_writes _ _ _ p
  · rw [Layout.placements_records]
    simp [dated]
  · intro calls staged
    obtain ⟨s, hmid, hready, -⟩ := midway_spec hio hready₀ hnil₀ calls staged
    exact ⟨s, _, hmid, hready.tracks⟩
  · intro calls staged r rest others hcalls
    obtain ⟨s, hmid, hready, hwriter⟩ := midway_spec hio hready₀ hnil₀ calls staged
    obtain ⟨s', path, hroll, htracks, hpath, hplace⟩ := midway_next hio hready r
    have hrecords : (life.calls.flatMap SinkCall.records).map dated =
        recordsUpTo calls staged ++
          dated r :: (rest ++ others.flatMap SinkCall.records).map dated := by
      simp [hcalls, recordsUpTo, SinkCall.records]
    refine ⟨s, _, s', path, (logLayout basePath maxFileSize).placements
      ((logLayout basePath maxFileSize).write s.writer (dated r))
      ((rest ++ others.flatMap SinkCall.records).map dated), hmid, hroll, htracks, hpath, ?_⟩
    rw [hrecords, ← hwriter₀, Layout.placements_append, ← hwriter, Layout.placements, hplace]
  · intro life' htime hsame
    obtain ⟨directory'', hrun', hfiles', -⟩ := lifetime_spec hio hvalid hsmall writeBatchSize life'
    rw [htime, hsame] at hrun' hfiles'
    refine ⟨directory'', hrun', fun p => ?_⟩
    exact congrFun (hfiles'.trans hfiles.symm) p

/-- An operating system that does everything it is asked to; its streams hand over half of
what they hold. -/
def calmIo : Io where
  createDirectories _ := true
  reserve _ := true
  fileSize _ _ := true
  opens _ _ := true
  writes _ _ _ := true
  flushes _ _ _ := true
  spill buffer := buffer.length / 2
  message := []

theorem calmIo_succeeds : calmIo.Succeeds :=
  ⟨fun _ => rfl, fun _ => rfl, fun _ _ => rfl, fun _ _ => rfl, fun _ _ _ => rfl, fun _ _ _ => rfl⟩

theorem smallFiles_empty : SmallFiles ∅ := by
  intro p
  simp [content, onDisk, wordBound]

/-- The first of January 1970 and the day after. -/
def epochDay (day : ℤ) : Tm := ⟨70, 0, day, 0, 0, 0⟩

def shortRecord (text : String) (h : text.toList.length < 2 ^ 63 := by decide) : Record :=
  ⟨text.toList, h⟩

/-- Two batches; the clock goes back in the second one. -/
def twoBatches : Lifetime where
  localTime := epochDay 1
  calls := [.writeBatch [(epochDay 1, shortRecord "ab"), (epochDay 2, shortRecord "cd")], .flush,
    .writeBatch [(epochDay 1, shortRecord "ef")]]

theorem batched_writing_two :
    ∃ directory' placements,
      twoBatches.run calmIo "app".toList 10 256 ∅ = .ok (directory', placements) ∧
      placements.map Placement.record = ["ab".toList, "cd".toList, "ef".toList] := by
  obtain ⟨-, directory', placements, -, hrun, -, hrecords, -⟩ :=
    batched_writing 256 calmIo_succeeds
      (⟨by decide, by decide, by decide⟩ : Valid "app".toList 10) smallFiles_empty twoBatches
  exact ⟨directory', placements, hrun, hrecords⟩

/-! ## The rolling loop -/

/-- The numbers of the log files of a day. -/
def dayFiles (basePath : Text) (d : DateText) (s : FileSink) : Set ℕ :=
  {i | (s.directory.lookup (makeLogFileName basePath d i)).isSome = true}

theorem files_isSome (s : FileSink) (p : Text) :
    (s.files p).isSome = (s.directory.lookup p).isSome := by
  unfold FileSink.files
  split_ifs
  · simp
  · rfl

theorem dayFiles_finite (s : FileSink) (d : DateText) : (dayFiles basePath d s).Finite := by
  refine Set.Finite.preimage (f := makeLogFileName basePath d) ?_ (fewFiles s) |>.subset ?_
  · exact fun i _ j _ hij => (makeLogFileName_injective hij).2
  · intro i hi
    have hfile : (s.files (makeLogFileName basePath d i)).isSome = true := by
      rw [files_isSome]
      exact hi
    exact hfile

theorem le_dayFiles {n : ℕ} {d : DateText} (h : ∀ i < n, i ∈ dayFiles basePath d s) :
    n ≤ (dayFiles basePath d s).ncard :=
  calc n = (Set.Iio n).ncard := by
        rw [Set.ncard_eq_toFinset_card', Set.toFinset_Iio, Nat.card_Iio]
    _ ≤ (dayFiles basePath d s).ncard := Set.ncard_le_ncard h (dayFiles_finite s d)

/-- An `int` has room for the number of the next file while the day has fewer than `2 ^ 31`. -/
theorem Ready.index_fits (h : Ready basePath maxFileSize s)
    (hfew : (dayFiles basePath s.currentDate s).ncard < 2 ^ 31) : s.fileIndex + 1 < 2 ^ 31 := by
  apply (le_dayFiles fun i hi => ?_).trans_lt hfew
  have hfile := h.upTo i (Nat.lt_succ_iff.mp hi)
  rwa [files_isSome] at hfile

/-- The files below the one that the loop finds are all there. -/
theorem aim_le_dayFiles (h : Ready basePath maxFileSize s) (today : DateText) (record : Text) :
    (logLayout basePath maxFileSize).aim s.writer (today, record) ≤
      (dayFiles basePath today s).ncard := by
  obtain ⟨-, -, hfull⟩ := Layout.target_spec (L := logLayout basePath maxFileSize) (fewFiles s)
    today (s.writer.start today) record
  apply le_dayFiles
  intro i hi
  have hfile : (s.files (makeLogFileName basePath today i)).isSome = true := by
    by_cases hstart : s.writer.start today ≤ i
    · exact isSome_of_content (content_ne_nil_of_not_room (hfull i hstart hi))
    · by_cases htoday : today = s.currentDate
      · have hindex : s.writer.start today = s.fileIndex := if_pos htoday
        rw [htoday]
        exact h.upTo i (by omega)
      · have hindex : s.writer.start today = 0 := if_neg htoday
        omega
  rwa [files_isSome] at hfile

/-- The rolling loop ends at the right file. -/
theorem rolling_loop (hio : io.Succeeds) (hvalid : Valid basePath maxFileSize)
    (hsmall : SmallFiles directory) {localTime : Tm} {calls : List SinkCall}
    {staged : List (Tm × Record)} {placements : List (Placement Text Char)}
    (hmake : makeFileSink io basePath maxFileSize writeBatchSize localTime directory = .ok s₀)
    (hmid : Midway io s₀ calls staged s placements) (today : DateText) (record : Record) :
    ∃ s' path, rollIfNeeded io today record s = .ok ⟨⟩ s' ∧
      s'.currentDate = today ∧ s'.out.path = some path ∧
      path = makeLogFileName basePath today s'.fileIndex ∧
      IsLeast {i | (if today = s.currentDate then s.fileIndex else 0) ≤ i ∧
        Room maxFileSize (content s.files (makeLogFileName basePath today i)) record.text}
        s'.fileIndex ∧
      s'.fileIndex ≤ (dayFiles basePath today s).ncard ∧
      (∀ p ≠ path, s.out.path ≠ some p → s'.directory.lookup p = s.directory.lookup p) ∧
      (∀ p ≠ path, s.out.path = some p → s'.directory.lookup p =
        (s.directory.lookup p).map fun bytes => bytes ++ s.out.buffer ++ s.pending) ∧
      content s'.files path = content s.files path := by
  obtain ⟨s₀', hmake', hready₀, hnil₀, -⟩ :=
    makeFileSink_spec hio hvalid hsmall writeBatchSize localTime
  cases Except.ok.inj (hmake.symm.trans hmake')
  have hready := hmid.ready hio hready₀ hnil₀
  obtain ⟨s', hroll, hready', hdate, hindex, hfiles⟩ := rollIfNeeded_spec hio hready today record
  have hpath : s'.currentPath = makeLogFileName basePath today s'.fileIndex := by
    rw [FileSink.currentPath, hready'.base, hdate]
  rw [← hpath] at hfiles
  have hother : ∀ p ≠ s'.currentPath, s'.directory.lookup p = s.files p := by
    intro p hp
    have hclosed : s'.out.path ≠ some p := fun hsome =>
      hp (Option.some.inj (hsome.symm.trans hready'.path))
    have hsame : s'.files p = s.files p := by
      rw [hfiles, touch, extend, Function.update_of_ne hp]
    rw [← hsame, FileSink.files, if_neg hclosed]
  refine ⟨s', s'.currentPath, hroll, hdate, hready'.path, hpath, ?_, ?_, ?_, ?_, ?_⟩
  · rw [hindex]
    obtain ⟨hstart, hroom, hfull⟩ := Layout.target_spec (L := logLayout basePath maxFileSize)
      (fewFiles s) today (s.writer.start today) record.text
    exact ⟨⟨hstart, hroom⟩, fun i hi => not_lt.mp fun hlt => hfull i hi.1 hlt hi.2⟩
  · rw [hindex]
    exact aim_le_dayFiles hready today record.text
  · intro p hp hne
    rw [hother p hp, FileSink.files, if_neg hne]
  · intro p hp hsome
    rw [hother p hp, FileSink.files, if_pos hsome]
  · rw [hfiles, content_touch]

/-- In the middle of the first batch the day changes. -/
theorem rolling_loop_new_day :
    ∃ s s', rollIfNeeded calmIo (currentDate (epochDay 2)) (shortRecord "cd") s = .ok ⟨⟩ s' ∧
      s'.fileIndex ≤ (dayFiles "app".toList (currentDate (epochDay 2)) s).ncard := by
  have hvalid : Valid "app".toList 10 := ⟨by decide, by decide, by decide⟩
  obtain ⟨s₀, hmake, hready₀, hnil₀, -⟩ :=
    makeFileSink_spec calmIo_succeeds hvalid smallFiles_empty 256 (epochDay 1)
  obtain ⟨s, hmid, -⟩ :=
    midway_spec calmIo_succeeds hready₀ hnil₀ [] [(epochDay 1, shortRecord "ab")]
  obtain ⟨s', path, hroll, -, -, -, -, hindex, -⟩ :=
    rolling_loop 256 calmIo_succeeds hvalid smallFiles_empty hmake hmid (currentDate (epochDay 2))
      (shortRecord "cd")
  exact ⟨s, s', hroll, hindex⟩

end CppLogger
