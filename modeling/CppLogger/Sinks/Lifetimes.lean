import CppLogger.Sinks.Batching

/-!
# One lifetime after the other

A file sink that is opened again finds what earlier ones have left. The size limit holds
across lifetimes, since the size of a file that is opened again is read from the disk. The
order of the records does not: every lifetime starts at file 0 and fills what room there is.
-/

namespace CppLogger

open Rotation

variable {io : Io} {basePath : Text} {maxFileSize : ℕ} (writeBatchSize : ℕ)
variable {directory : Directory} {lives : List Lifetime}

/-- The records of some lifetimes, in the order in which they are written. -/
def writtenRecords (lives : List Lifetime) : List Text :=
  lives.flatMap fun life => (life.calls.flatMap SinkCall.records).map fun r => r.2.text

/-! ## The size limit -/

theorem lifetime_sound (hio : io.Succeeds) (hvalid : Valid basePath maxFileSize)
    (hsmall : SmallFiles directory) (life : Lifetime) :
    ∃ directory' placements,
      life.run io basePath maxFileSize writeBatchSize directory = .ok (directory', placements) ∧
      SmallFiles directory' ∧ Sound maxFileSize '\n' (content (onDisk directory)) placements ∧
      content (onDisk directory') = after '\n' (content (onDisk directory)) placements ∧
      placements.map Placement.record = writtenRecords [life] := by
  obtain ⟨directory', hrun, hfiles, hsmall'⟩ :=
    lifetime_spec hio hvalid hsmall writeBatchSize life
  have hopened : content ((logLayout basePath maxFileSize).opened (onDisk directory)
      (currentDate life.localTime)).files = content (onDisk directory) := content_touch _ _
  have hfew : FewFiles ((logLayout basePath maxFileSize).opened (onDisk directory)
      (currentDate life.localTime)).files := (fewFiles_onDisk directory).extend _ _
  refine ⟨directory', _, hrun, hsmall', ?_, ?_, ?_⟩
  · rw [← hopened]
    exact Layout.placements_sound (L := logLayout basePath maxFileSize) hfew _
  · rw [hfiles, Layout.content_writes, hopened]
    rfl
  · rw [Layout.placements_records]
    simp [writtenRecords, dated]

theorem lifetimes_sound (hio : io.Succeeds) (hvalid : Valid basePath maxFileSize)
    (hsmall : SmallFiles directory) (lives : List Lifetime) :
    ∃ directory' placements,
      runLifetimes io basePath maxFileSize writeBatchSize lives directory =
        .ok (directory', placements) ∧
      SmallFiles directory' ∧ Sound maxFileSize '\n' (content (onDisk directory)) placements ∧
      content (onDisk directory') = after '\n' (content (onDisk directory)) placements ∧
      placements.map Placement.record = writtenRecords lives := by
  induction lives generalizing directory with
  | nil => exact ⟨directory, [], rfl, hsmall, trivial, rfl, rfl⟩
  | cons life lives ih =>
    obtain ⟨directory₁, ps, hrun, hsmall₁, hsound, hafter, hrecords⟩ :=
      lifetime_sound writeBatchSize hio hvalid hsmall life
    obtain ⟨directory', qs, hrest, hsmall', hsound', hafter', hrecords'⟩ := ih hsmall₁
    refine ⟨directory', ps ++ qs, ?_, hsmall', hsound.append (hafter ▸ hsound'), ?_, ?_⟩
    · unfold runLifetimes
      rw [hrun]
      dsimp only
      rw [hrest]
      rfl
    · rw [hafter', hafter, after_append]
    · rw [List.map_append, hrecords, hrecords']
      simp [writtenRecords]

/-- No record takes a file over the limit, unless the file was empty. -/
theorem size_limit (hio : io.Succeeds) (hvalid : Valid basePath maxFileSize)
    (hsmall : SmallFiles directory) (lives : List Lifetime) :
    ∃ directory' placements,
      runLifetimes io basePath maxFileSize writeBatchSize lives directory =
        .ok (directory', placements) ∧
      placements.map Placement.record = writtenRecords lives ∧
      content (onDisk directory') = after '\n' (content (onDisk directory)) placements ∧
      (∀ pre x post, placements = pre ++ x :: post →
        x.size = (after '\n' (content (onDisk directory)) pre x.path).length ∧
          (x.size = 0 ∨ x.size + x.record.length + 1 ≤ maxFileSize)) ∧
      (∀ p, (content (onDisk directory) p).length ≤ maxFileSize →
        (content (onDisk directory') p).length ≤ maxFileSize ∨
          ∃ r, content (onDisk directory) p = [] ∧ recordsAt p placements = [r] ∧
            content (onDisk directory') p = r ++ ['\n'] ∧ maxFileSize < r.length + 1) ∧
      ∀ p, maxFileSize < (content (onDisk directory) p).length →
        recordsAt p placements = [] ∧ content (onDisk directory') p = content (onDisk directory) p := by
  obtain ⟨directory', placements, hrun, -, hsound, hafter, hrecords⟩ :=
    lifetimes_sound writeBatchSize hio hvalid hsmall lives
  refine ⟨directory', placements, hrun, hrecords, hafter, ?_, ?_, ?_⟩
  · intro pre x post hsplit
    exact hsound.room hsplit
  · intro p hwithin
    rcases hsound.within_limit hwithin with hle | ⟨r, hnil, hone, hover⟩
    · exact .inl (hafter ▸ hle)
    · refine .inr ⟨r, hnil, hone, ?_, hover⟩
      rw [hafter, after_eq, hnil, hone, Framing.terminate_singleton, List.nil_append]
  · intro p hover
    have hnone := hsound.over_limit hover
    refine ⟨hnone, ?_⟩
    rw [hafter, after_eq, hnone, Framing.terminate_nil, List.append_nil]

theorem size_limit_two :
    ∃ directory' placements,
      runLifetimes calmIo "app".toList 5 256 [twoBatches, twoBatches] ∅ =
        .ok (directory', placements) ∧
      ∀ pre x post, placements = pre ++ x :: post → x.size = 0 ∨ x.size + x.record.length + 1 ≤ 5 := by
  obtain ⟨directory', placements, hrun, -, -, hroom, -⟩ :=
    size_limit 256 calmIo_succeeds
      (⟨by decide, by decide, by decide⟩ : Valid "app".toList 5) smallFiles_empty
      [twoBatches, twoBatches]
  exact ⟨directory', placements, hrun, fun pre x post hsplit => (hroom pre x post hsplit).2⟩

/-! ## Write order -/

/-- The lifetimes and all their records are of one day. -/
def OneDay (d : DateText) (lives : List Lifetime) : Prop :=
  ∀ life ∈ lives, currentDate life.localTime = d ∧
    ∀ r ∈ life.calls.flatMap SinkCall.records, currentDate r.1 = d

/-- The first record of each lifetime has no room in any file of the day but the one with
the highest number. -/
def ResumesAtTop (io : Io) (basePath : Text) (maxFileSize writeBatchSize : ℕ) (d : DateText) :
    List Lifetime → Directory → Prop
  | [], _ => True
  | life :: lives, directory =>
    (∀ r ∈ (life.calls.flatMap SinkCall.records).head?,
      (logLayout basePath maxFileSize).Resumes (onDisk directory) d r.2.text) ∧
    ∀ directory' placements,
      life.run io basePath maxFileSize writeBatchSize directory = .ok (directory', placements) →
      ResumesAtTop io basePath maxFileSize writeBatchSize d lives directory'

variable {writeBatchSize}

theorem lifetimes_climb (hio : io.Succeeds) (hvalid : Valid basePath maxFileSize)
    (hsmall : SmallFiles directory) {d : DateText} (hday : OneDay d lives)
    (hresumes : ResumesAtTop io basePath maxFileSize writeBatchSize d lives directory)
    {directory' : Directory} {placements : List (Placement Text Char)}
    (hrun : runLifetimes io basePath maxFileSize writeBatchSize lives directory =
      .ok (directory', placements)) :
    Climbs (makeLogFileName basePath d) '\n' (content (onDisk directory)) placements := by
  induction lives generalizing directory placements with
  | nil =>
    cases hrun
    trivial
  | cons life lives ih =>
    obtain ⟨directory₁, hfirst, hfiles, hsmall₁⟩ :=
      lifetime_spec hio hvalid hsmall writeBatchSize life
    obtain ⟨directory₂, ps, hrest, -⟩ := lifetimes_sound writeBatchSize hio hvalid hsmall₁ lives
    obtain ⟨hlocal, hrecords⟩ := hday life (by simp)
    have hclimbs : Climbs (makeLogFileName basePath d) '\n' (content (onDisk directory))
        ((logLayout basePath maxFileSize).placements
          ((logLayout basePath maxFileSize).opened (onDisk directory) d)
          ((life.calls.flatMap SinkCall.records).map dated)) := by
      refine Layout.climbs_opened (L := logLayout basePath maxFileSize) (fewFiles_onDisk directory)
        ?_ ?_
      · intro r hr
        obtain ⟨r', hr', rfl⟩ := List.mem_map.mp hr
        exact hrecords r' hr'
      · intro r hr
        rw [List.head?_map] at hr
        obtain ⟨r', hr', rfl⟩ := Option.map_eq_some_iff.mp hr
        exact hresumes.1 r' hr'
    have hafter : content (onDisk directory₁) = after '\n' (content (onDisk directory))
        ((logLayout basePath maxFileSize).placements
          ((logLayout basePath maxFileSize).opened (onDisk directory) d)
          ((life.calls.flatMap SinkCall.records).map dated)) := by
      rw [hfiles, Layout.content_writes, hlocal, Layout.opened, content_touch]
      rfl
    rw [hlocal] at hfirst
    unfold runLifetimes at hrun
    rw [hfirst] at hrun
    dsimp only at hrun
    rw [hrest] at hrun
    cases hrun
    refine hclimbs.append ?_
    rw [← hafter]
    exact ih hsmall₁ (fun life' hlife' => hday life' (by simp [hlife'])) (hresumes.2 _ _ hfirst)
      hrest

/-- Some number is above those of all the files that were written to. -/
theorem exists_above (name : ℕ → Text) (hinj : Function.Injective name)
    (placements : List (Placement Text Char)) :
    ∃ n, ∀ x ∈ placements, ∀ i, x.path = name i → i < n := by
  induction placements with
  | nil => exact ⟨0, by simp⟩
  | cons x placements ih =>
    obtain ⟨n, hn⟩ := ih
    by_cases hx : ∃ i, x.path = name i
    · obtain ⟨i, hi⟩ := hx
      refine ⟨max n (i + 1), fun y hy j hj => ?_⟩
      rcases List.mem_cons.mp hy with rfl | hy
      · have hij := hinj (hi.symm.trans hj)
        omega
      · have hlt := hn y hy j hj
        omega
    · refine ⟨n, fun y hy j hj => ?_⟩
      rcases List.mem_cons.mp hy with rfl | hy
      · exact absurd ⟨j, hj⟩ hx
      · exact hn y hy j hj

/-- A first lifetime, and every later one whose first record goes on where the last one
ended, keep the order. -/
theorem index_order_is_write_order (hio : io.Succeeds) (hvalid : Valid basePath maxFileSize)
    (hsmall : SmallFiles directory) {d : DateText}
    (hnew : ∀ i, directory.lookup (makeLogFileName basePath d i) = none) {life : Lifetime}
    (hday : OneDay d (life :: lives))
    (hresumes : ∀ directory' placements,
      life.run io basePath maxFileSize writeBatchSize directory = .ok (directory', placements) →
      ResumesAtTop io basePath maxFileSize writeBatchSize d lives directory') :
    ∃ directory' placements,
      runLifetimes io basePath maxFileSize writeBatchSize (life :: lives) directory =
        .ok (directory', placements) ∧
      ∃ n, ∀ m, n ≤ m → series (makeLogFileName basePath d) (content (onDisk directory')) m =
        Framing.terminate '\n' (writtenRecords (life :: lives)) := by
  have hfirst : ResumesAtTop io basePath maxFileSize writeBatchSize d (life :: lives) directory := by
    refine ⟨fun r _ i j _ hj => ?_, hresumes⟩
    have hnone : onDisk directory (makeLogFileName basePath d j) = none := hnew j
    rw [show (logLayout basePath maxFileSize).name d j = makeLogFileName basePath d j from rfl,
      hnone] at hj
    cases hj
  obtain ⟨directory', placements, hrun, -, -, hafter, hrecords⟩ :=
    lifetimes_sound writeBatchSize hio hvalid hsmall (life :: lives)
  have hinj : Function.Injective (makeLogFileName basePath d) := fun _ _ hij =>
    (makeLogFileName_injective hij).2
  obtain ⟨n, hn⟩ := exists_above (makeLogFileName basePath d) hinj placements
  have hempty : ∀ m, series (makeLogFileName basePath d) (content (onDisk directory)) m = [] := by
    intro m
    refine List.flatMap_eq_nil_iff.mpr fun i _ => ?_
    rw [content, onDisk, hnew i]
    rfl
  refine ⟨directory', placements, hrun, n, fun m hm => ?_⟩
  rw [hafter, series_after hinj (lifetimes_climb hio hvalid hsmall hday hfirst hrun)
    (fun x hx i hi => lt_of_lt_of_le (hn x hx i hi) hm), hempty m, hrecords, List.nil_append]

/-- One batch of records on the first day. -/
def oneBatch (records : List Record) : Lifetime where
  localTime := epochDay 1
  calls := [.writeBatch (records.map fun r => (epochDay 1, r))]

theorem oneDay_oneBatch (batches : List (List Record)) :
    OneDay (currentDate (epochDay 1)) (batches.map oneBatch) := by
  intro life hlife
  obtain ⟨records, -, rfl⟩ := List.mem_map.mp hlife
  refine ⟨rfl, fun r hr => ?_⟩
  have hmem : r ∈ records.map fun r => (epochDay 1, r) := by
    simpa [oneBatch, SinkCall.records] using hr
  obtain ⟨_, -, rfl⟩ := List.mem_map.mp hmem
  rfl

/-- With a limit of ten bytes these two records go to the files 0 and 1. -/
def firstLife : Lifetime := oneBatch [shortRecord "aaaaa", shortRecord "bbbbb"]

theorem firstLife_files {directory' : Directory} {placements : List (Placement Text Char)}
    (hrun : firstLife.run calmIo "app".toList 10 256 ∅ = .ok (directory', placements)) :
    directory'.keys = [makeLogFileName "app".toList (currentDate (epochDay 1)) 1,
        makeLogFileName "app".toList (currentDate (epochDay 1)) 0] ∧
      content (onDisk directory') (makeLogFileName "app".toList (currentDate (epochDay 1)) 0) =
        "aaaaa\n".toList := by
  have hvalue : (firstLife.run calmIo "app".toList 10 256 ∅).toOption.map (fun r => (r.1.keys,
      content (onDisk r.1) (makeLogFileName "app".toList (currentDate (epochDay 1)) 0))) =
      some ([makeLogFileName "app".toList (currentDate (epochDay 1)) 1,
        makeLogFileName "app".toList (currentDate (epochDay 1)) 0], "aaaaa\n".toList) := by
    decide +kernel
  rw [hrun] at hvalue
  exact Prod.mk.inj (Option.some.inj hvalue)

/-- A record of six bytes does not fit into file 0. -/
theorem index_order_is_write_order_two :
    ∃ directory' placements,
      runLifetimes calmIo "app".toList 10 256 [firstLife, oneBatch [shortRecord "cccccc"]] ∅ =
        .ok (directory', placements) ∧
      ∃ n, ∀ m, n ≤ m → series (makeLogFileName "app".toList (currentDate (epochDay 1)))
        (content (onDisk directory')) m = "aaaaa\nbbbbb\ncccccc\n".toList := by
  have hvalid : Valid "app".toList 10 := ⟨by decide, by decide, by decide⟩
  refine index_order_is_write_order calmIo_succeeds hvalid smallFiles_empty
    (fun i => AList.lookup_empty _)
    (oneDay_oneBatch [[shortRecord "aaaaa", shortRecord "bbbbb"], [shortRecord "cccccc"]]) ?_
  intro directory' placements hrun
  obtain ⟨hkeys, hzero⟩ := firstLife_files hrun
  refine ⟨fun r hr i j hij hj => ?_, fun _ _ _ => trivial⟩
  have hrecord : shortRecord "cccccc" = r.2 := by
    cases Option.some.inj hr
    rfl
  have hname : makeLogFileName "app".toList (currentDate (epochDay 1)) j ∈ directory'.keys :=
    AList.mem_keys.mp (AList.lookup_isSome.mp hj)
  have hindex : j = 1 := by
    rw [hkeys, List.mem_cons, List.mem_singleton] at hname
    rcases hname with hone | hzero
    · exact (makeLogFileName_injective hone).2
    · have := (makeLogFileName_injective hzero).2
      omega
  obtain rfl : i = 0 := by omega
  rw [show (logLayout "app".toList 10).name = makeLogFileName "app".toList from rfl, hzero,
    ← hrecord]
  exact of_decide_eq_false rfl

/-- A record of two bytes does, and ends up in front of an earlier one. -/
theorem older_file_refilled :
    ¬∀ (io : Io) (basePath : Text) (maxFileSize writeBatchSize : ℕ) (lives : List Lifetime)
      (directory directory' : Directory) (d : DateText) (placements : List (Placement Text Char)),
      io.Succeeds → Valid basePath maxFileSize → OneDay d lives →
      (∀ i, directory.lookup (makeLogFileName basePath d i) = none) →
      runLifetimes io basePath maxFileSize writeBatchSize lives directory =
        .ok (directory', placements) →
      ∃ n, ∀ m, n ≤ m → series (makeLogFileName basePath d) (content (onDisk directory')) m =
        Framing.terminate '\n' (writtenRecords lives) := by
  intro hclaim
  have hvalid : Valid "app".toList 10 := ⟨by decide, by decide, by decide⟩
  obtain ⟨directory', placements, hrun, -⟩ := lifetimes_sound 256 calmIo_succeeds hvalid
    smallFiles_empty [firstLife, oneBatch [shortRecord "cc"]]
  obtain ⟨n, hn⟩ := hclaim calmIo "app".toList 10 256 [firstLife, oneBatch [shortRecord "cc"]] ∅
    directory' (currentDate (epochDay 1)) placements calmIo_succeeds hvalid
    (oneDay_oneBatch [[shortRecord "aaaaa", shortRecord "bbbbb"], [shortRecord "cc"]])
    (fun i => AList.lookup_empty _) hrun
  have hseries : (runLifetimes calmIo "app".toList 10 256
      [firstLife, oneBatch [shortRecord "cc"]] ∅).toOption.map (fun r =>
        series (makeLogFileName "app".toList (currentDate (epochDay 1))) (content (onDisk r.1)) 2) =
      some "aaaaa\ncc\nbbbbb\n".toList := by
    decide +kernel
  rw [hrun] at hseries
  have hvalue : series (makeLogFileName "app".toList (currentDate (epochDay 1)))
      (content (onDisk directory')) 2 = "aaaaa\ncc\nbbbbb\n".toList := Option.some.inj hseries
  have hprefix : series (makeLogFileName "app".toList (currentDate (epochDay 1)))
      (content (onDisk directory')) 2 <+: series (makeLogFileName "app".toList
        (currentDate (epochDay 1))) (content (onDisk directory')) (max n 2) :=
    series_prefix _ (le_max_right n 2)
  rw [hn (max n 2) (le_max_left n 2), hvalue] at hprefix
  revert hprefix
  decide +kernel

end CppLogger
