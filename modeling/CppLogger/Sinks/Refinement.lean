import CppLogger.Foundation.Statements
import CppLogger.Sinks.FileSink

/-!
# The file sink is a rotating writer

What is staged in `pending_` and what the stream still holds belongs to the current file
already. Seen in this way the sink writes each record to the first file of the day with
room, and batches, rolls and buffers do not show.
-/

namespace CppLogger

open Paths Rotation Statement

/-! ## File names -/

/-- The date and the number of a log file can be read off its name. -/
theorem makeLogFileName_injective {basePath : Text} {d e : DateText} {i j : ℕ}
    (h : makeLogFileName basePath d i = makeLogFileName basePath e j) : d = e ∧ i = j := by
  have hname := joinPath_injective (head_filename_append _ (by decide) _)
    (head_filename_append _ (by decide) _) h
  have htail := (List.cons.inj (List.append_cancel_left hname)).2
  have hplain : '_' ∉ decimal (i : ℤ) ++ ".log".toList := by
    have hdigits := not_mem_decimal (c := '_') (by decide) (by decide) i
    simpa using hdigits
  obtain ⟨hdate, -, hindex⟩ := (List.append_cons_inj_of_notMem d.plain hplain).mp htail
  refine ⟨?_, decimal_injective (List.append_cancel_right hindex)⟩
  cases d
  cases e
  congr

/-- How a file sink lays out its files. -/
def logLayout (basePath : Text) (maxFileSize : ℕ) : Layout DateText Text Char where
  name := makeLogFileName basePath
  limit := maxFileSize
  sep := '\n'
  distinct := makeLogFileName_injective

/-! ## Files and streams -/

/-- The files of a directory as a function of their paths. -/
def onDisk (directory : Directory) (path : Text) : Option Text := directory.lookup path

theorem onDisk_appendTo (directory : Directory) (path bytes : Text) :
    onDisk (appendTo directory path bytes) = extend (onDisk directory) path bytes := by
  funext q
  by_cases hq : q = path
  · subst hq
    simp [onDisk, appendTo, extend, content]
  · simp [onDisk, appendTo, extend, Function.update_of_ne hq, AList.lookup_insert_ne hq]

/-- Writes to two files may change places. -/
theorem extend_comm {files : Text → Option Text} {p q : Text} (h : p ≠ q) (bytes bytes' : Text) :
    extend (extend files p bytes) q bytes' = extend (extend files q bytes') p bytes := by
  unfold extend
  rw [Function.update_comm h.symm]
  congr 2 <;> simp [content, Function.update_of_ne, h, h.symm]

section Stream

variable {io : Io} {out : OutStream} {path : Text}

theorem OutStream.write_eq (hio : io.Succeeds) (directory : Directory) (hpath : out.path = some path)
    (hgood : out.good = true) (bytes : Text) :
    ∃ n, out.write io directory bytes =
      ({ out with buffer := (out.buffer ++ bytes).drop n },
        appendTo directory path ((out.buffer ++ bytes).take n)) := by
  refine ⟨io.spill (out.buffer ++ bytes), ?_⟩
  unfold OutStream.write
  simp [hpath, hgood, hio.writes]

theorem OutStream.flush_eq (hio : io.Succeeds) (directory : Directory) (hpath : out.path = some path)
    (hgood : out.good = true) :
    out.flush io directory = ({ out with buffer := [] }, appendTo directory path out.buffer) := by
  unfold OutStream.flush
  simp [hpath, hgood, hio.flushes]

theorem OutStream.close_eq (hio : io.Succeeds) (directory : Directory) (hpath : out.path = some path) :
    out.close io directory =
      ({ path := none, buffer := [], good := out.good }, appendTo directory path out.buffer) := by
  unfold OutStream.close
  simp [hpath, hio.flushes]

end Stream

/-! ## The invariant -/

/-- The path that the date and the number of the sink stand for. -/
def FileSink.currentPath (s : FileSink) : Text :=
  makeLogFileName s.basePath s.currentDate s.fileIndex

/-- The sink as a rotating writer. -/
def FileSink.writer (s : FileSink) : Writer DateText Text Char :=
  ⟨s.files, s.currentDate, s.fileIndex⟩

/-- Between two statements of `writeBatch` the stream is open on the current file, whose
size is tracked, and the files of the day are there up to the current one. -/
structure Ready (basePath : Text) (maxFileSize : ℕ) (s : FileSink) : Prop where
  base : s.basePath = basePath
  max : s.maxFileSize = maxFileSize
  limit : maxFileSize < wordBound
  path : s.out.path = some s.currentPath
  good : s.out.good = true
  created : (onDisk s.directory s.currentPath).isSome = true
  size : s.currentSize = (content s.files s.currentPath).length
  small : ∀ p, (content s.files p).length < wordBound
  upTo : ∀ i ≤ s.fileIndex, (s.files (makeLogFileName basePath s.currentDate i)).isSome = true

variable {io : Io} {basePath : Text} {maxFileSize : ℕ} {s : FileSink}

theorem FileSink.files_eq {path : Text} (hpath : s.out.path = some path)
    (hcreated : (onDisk s.directory path).isSome = true) :
    s.files = extend (onDisk s.directory) path (s.out.buffer ++ s.pending) := by
  obtain ⟨bytes, hbytes⟩ := Option.isSome_iff_exists.mp hcreated
  have hlookup : s.directory.lookup path = some bytes := hbytes
  funext q
  by_cases hq : q = path
  · subst hq
    simp [FileSink.files, extend, content, hpath, hlookup, onDisk]
  · have hq' : path ≠ q := Ne.symm hq
    simp [FileSink.files, extend, hpath, hq', Function.update_of_ne hq, onDisk]

theorem Ready.files_eq (h : Ready basePath maxFileSize s) :
    s.files = extend (onDisk s.directory) s.currentPath (s.out.buffer ++ s.pending) :=
  s.files_eq h.path h.created

/-- The members that a write to the stream does not touch. -/
structure SameFile (s s' : FileSink) : Prop where
  base : s'.basePath = s.basePath
  max : s'.maxFileSize = s.maxFileSize
  date : s'.currentDate = s.currentDate
  index : s'.fileIndex = s.fileIndex
  size : s'.currentSize = s.currentSize
  path : s'.out.path = s.out.path
  good : s'.out.good = s.out.good
  files : s'.files = s.files

theorem SameFile.refl (s : FileSink) : SameFile s s := ⟨rfl, rfl, rfl, rfl, rfl, rfl, rfl, rfl⟩

variable {s' : FileSink}

theorem SameFile.writer (h : SameFile s s') : s'.writer = s.writer := by
  rw [FileSink.writer, FileSink.writer, h.files, h.date, h.index]

theorem SameFile.currentPath (h : SameFile s s') : s'.currentPath = s.currentPath := by
  rw [FileSink.currentPath, FileSink.currentPath, h.base, h.date, h.index]

theorem SameFile.ready (hsame : SameFile s s') (h : Ready basePath maxFileSize s)
    (hcreated : (onDisk s'.directory s.currentPath).isSome = true) :
    Ready basePath maxFileSize s' where
  base := hsame.base.trans h.base
  max := hsame.max.trans h.max
  limit := h.limit
  path := by rw [hsame.path, hsame.currentPath, h.path]
  good := hsame.good.trans h.good
  created := by rwa [hsame.currentPath]
  size := by rw [hsame.size, hsame.files, hsame.currentPath, h.size]
  small := by rw [hsame.files]; exact h.small
  upTo := by rw [hsame.index, hsame.files, hsame.date]; exact h.upTo

/-- Bytes that go from the sink to its stream, or from the stream to the file, stay in the
current file. -/
theorem Ready.handOver (h : Ready basePath maxFileSize s) (bytes buffer pending : Text)
    (hbytes : bytes ++ (buffer ++ pending) = s.out.buffer ++ s.pending) :
    let s' := { s with
      out := { s.out with buffer := buffer }
      pending := pending
      directory := appendTo s.directory s.currentPath bytes }
    SameFile s s' ∧ Ready basePath maxFileSize s' := by
  intro s'
  have hcreated : (onDisk s'.directory s.currentPath).isSome = true := by
    rw [onDisk_appendTo]
    exact extend_isSome _ _ h.created
  have hfiles : s'.files = s.files := by
    have hpath : s'.out.path = some s.currentPath := h.path
    rw [s'.files_eq hpath hcreated, h.files_eq, onDisk_appendTo, extend_extend, hbytes]
  have hsame : SameFile s s' := ⟨rfl, rfl, rfl, rfl, rfl, rfl, rfl, hfiles⟩
  exact ⟨hsame, hsame.ready h hcreated⟩

/-! ## The functions of the sink -/

theorem flushPending_spec (hio : io.Succeeds) (h : Ready basePath maxFileSize s) :
    ∃ s', flushPending io s = .ok ⟨⟩ s' ∧ SameFile s s' ∧ Ready basePath maxFileSize s' ∧
      s'.pending = [] := by
  unfold flushPending
  rw [get_bind]
  by_cases hnil : s.pending = []
  · rw [if_pos hnil]
    exact ⟨s, rfl, .refl s, h, hnil⟩
  · obtain ⟨n, hwrite⟩ := OutStream.write_eq hio s.directory h.path h.good s.pending
    obtain ⟨hsame, hready⟩ := h.handOver ((s.out.buffer ++ s.pending).take n)
      ((s.out.buffer ++ s.pending).drop n) [] (by simp)
    refine ⟨_, ?_, hsame, hready, rfl⟩
    rw [if_neg hnil, hwrite]
    simp only [h.good]
    rfl

theorem flush_spec (hio : io.Succeeds) (h : Ready basePath maxFileSize s) :
    ∃ s', FileSink.flush io s = .ok ⟨⟩ s' ∧ SameFile s s' ∧ Ready basePath maxFileSize s' ∧
      s'.pending = s.pending := by
  obtain ⟨hsame, hready⟩ := h.handOver s.out.buffer [] s.pending (by simp)
  refine ⟨_, ?_, hsame, hready, rfl⟩
  unfold FileSink.flush
  rw [get_bind, if_pos (by simp [h.path]), OutStream.flush_eq hio s.directory h.path h.good]
  simp only [h.good]
  rfl

/-- The sink is about to open its current file: the stream is closed, or still open on
another file, and nothing is staged. -/
structure Opening (basePath : Text) (maxFileSize : ℕ) (s : FileSink) : Prop where
  base : s.basePath = basePath
  max : s.maxFileSize = maxFileSize
  limit : maxFileSize < wordBound
  unstaged : s.pending = []
  stream : s.out.path = none ∨ ∃ path, s.out.path = some path ∧ path ≠ s.currentPath ∧
    s.out.good = true ∧ (onDisk s.directory path).isSome = true
  small : ∀ p, (content s.files p).length < wordBound
  below : ∀ i < s.fileIndex, (s.files (makeLogFileName basePath s.currentDate i)).isSome = true

theorem fileSize_eq (hio : io.Succeeds) {directory : Directory} {path : Text}
    (h : (content (onDisk directory) path).length < wordBound) :
    fileSize io directory path = (content (onDisk directory) path).length := by
  unfold fileSize content onDisk at *
  cases hlookup : directory.lookup path with
  | none => rfl
  | some bytes =>
    rw [hlookup] at h
    simpa [hio.fileSize] using word64_of_lt h

/-- The stream that has just been opened has nothing in it. -/
theorem Opening.ready (h : Opening basePath maxFileSize s) {directory : Directory}
    (hdisk : onDisk directory = touch s.files s.currentPath) :
    let s' := { s with
      out := { path := some s.currentPath }
      directory := directory
      currentSize := (content s.files s.currentPath).length }
    Ready basePath maxFileSize s' ∧ s'.files = touch s.files s.currentPath := by
  intro s'
  have hcreated : (onDisk s'.directory s.currentPath).isSome = true := by
    rw [hdisk]
    simp [touch, extend]
  have hfiles : s'.files = touch s.files s.currentPath := by
    have hnil : s'.out.buffer ++ s'.pending = [] := by simp [s', h.unstaged]
    rw [s'.files_eq rfl hcreated, hnil, hdisk, touch, extend_extend]
    rfl
  refine ⟨⟨h.base, h.max, h.limit, rfl, rfl, hcreated, ?_, ?_, ?_⟩, hfiles⟩
  · rw [hfiles, content_touch]
    rfl
  · rw [hfiles, content_touch]
    exact h.small
  · intro i hi
    rw [hfiles]
    rcases Nat.lt_or_eq_of_le hi with hlt | heq
    · exact extend_isSome _ _ (h.below i hlt)
    · have hcurrent : makeLogFileName basePath s.currentDate i = s.currentPath := by
        rw [heq, ← h.base]
        rfl
      change (touch s.files s.currentPath (makeLogFileName basePath s.currentDate i)).isSome = true
      rw [hcurrent]
      simp [touch, extend]

theorem openNewLogFile_spec (hio : io.Succeeds) (h : Opening basePath maxFileSize s) :
    ∃ s', openNewLogFile io s = .ok ⟨⟩ s' ∧ Ready basePath maxFileSize s' ∧
      s'.currentDate = s.currentDate ∧ s'.fileIndex = s.fileIndex ∧ s'.pending = [] ∧
      s'.files = touch s.files s.currentPath := by
  unfold openNewLogFile
  rw [get_bind]
  rcases h.stream with hclosed | ⟨path, hpath, hne, hgood, hcreated⟩
  · have hfiles : s.files = onDisk s.directory := by
      funext q
      simp [FileSink.files, hclosed, onDisk]
    have hdisk : onDisk (appendTo s.directory s.currentPath []) = touch s.files s.currentPath := by
      rw [onDisk_appendTo, hfiles, touch]
    have hsize : fileSize io s.directory s.currentPath = (content s.files s.currentPath).length := by
      rw [hfiles]
      exact fileSize_eq hio (by rw [← hfiles]; exact h.small s.currentPath)
    obtain ⟨hready, hafter⟩ := h.ready hdisk
    refine ⟨_, ?_, hready, rfl, rfl, h.unstaged, hafter⟩
    rw [← hsize]
    simp [hio.opens, hclosed]
    rfl
  · have hfiles : s.files = extend (onDisk s.directory) path s.out.buffer := by
      rw [s.files_eq hpath hcreated, h.unstaged, List.append_nil]
    have hcontent : content s.files s.currentPath = content (onDisk s.directory) s.currentPath := by
      rw [hfiles, content_extend, Function.update_of_ne hne.symm]
    have hsize : fileSize io s.directory s.currentPath = (content s.files s.currentPath).length := by
      rw [hcontent]
      exact fileSize_eq hio (by rw [← hcontent]; exact h.small s.currentPath)
    have hdisk : onDisk (appendTo (appendTo (appendTo s.directory s.currentPath []) path
        s.out.buffer) path []) = touch s.files s.currentPath := by
      rw [onDisk_appendTo, onDisk_appendTo, onDisk_appendTo, extend_extend, List.append_nil, hfiles,
        touch, extend_comm hne.symm]
    obtain ⟨hready, hafter⟩ := h.ready hdisk
    refine ⟨_, ?_, hready, rfl, rfl, h.unstaged, hafter⟩
    have hopens : (!io.opens s.directory s.currentPath) = false := by rw [hio.opens]; rfl
    have hflush := OutStream.flush_eq hio (appendTo s.directory s.currentPath []) hpath hgood
    have hleft : { s.out with buffer := [] }.path = some path := hpath
    have hclose := OutStream.close_eq hio
      (appendTo (appendTo s.directory s.currentPath []) path s.out.buffer) hleft
    dsimp only [FileSink.currentPath] at hopens hflush hclose hsize ⊢
    simp only [hgood] at hflush hclose
    rw [if_neg (by simp [hopens]), if_pos (by simp [hpath]), hflush, hsize]
    simp only [hclose]
    rfl

/-! ## Rolling -/

/-- With nothing staged the sink may turn to any other file of its layout. -/
theorem Ready.opening (h : Ready basePath maxFileSize s) (hnil : s.pending = []) {d : DateText}
    {i : ℕ} (hne : ¬(d = s.currentDate ∧ i = s.fileIndex))
    (hbelow : ∀ j < i, (s.files (makeLogFileName basePath d j)).isSome = true) :
    Opening basePath maxFileSize { s with currentDate := d, fileIndex := i } where
  base := h.base
  max := h.max
  limit := h.limit
  unstaged := hnil
  stream := .inr ⟨s.currentPath, h.path,
    fun heq => hne ((makeLogFileName_injective heq).imp Eq.symm Eq.symm), h.good, h.created⟩
  small := h.small
  below := hbelow

/-- Hand over what is staged, turn to another file, open it. -/
theorem roll_spec {β : Type} (hio : io.Succeeds) (h : Ready basePath maxFileSize s) {d : DateText}
    {i : ℕ} (hne : ¬(d = s.currentDate ∧ i = s.fileIndex))
    (hbelow : ∀ j < i, (s.files (makeLogFileName basePath d j)).isSome = true)
    (turn : FileSink → FileSink)
    (hturn : ∀ s₁, SameFile s s₁ → turn s₁ = { s₁ with currentDate := d, fileIndex := i })
    (rest : SinkM β) :
    ∃ s', (do flushPending io; modify turn; openNewLogFile io; rest) s = rest s' ∧
      Ready basePath maxFileSize s' ∧ s'.currentDate = d ∧ s'.fileIndex = i ∧
      s'.files = touch s.files (makeLogFileName basePath d i) := by
  obtain ⟨s₁, hflush, hsame, hready, hnil⟩ := flushPending_spec hio h
  have hopening : Opening basePath maxFileSize (turn s₁) := by
    rw [hturn s₁ hsame]
    refine hready.opening hnil ?_ ?_
    · rwa [hsame.date, hsame.index]
    · rwa [hsame.files]
  obtain ⟨s', hopen, hready', hdate, hindex, -, hfiles⟩ := openNewLogFile_spec hio hopening
  have hpath : (turn s₁).currentPath = makeLogFileName basePath d i := by
    rw [FileSink.currentPath, hopening.base, hturn s₁ hsame]
  have hturned : (turn s₁).files = s.files := by
    rw [hturn s₁ hsame, ← hsame.files]
    rfl
  refine ⟨s', ?_, hready', ?_, ?_, ?_⟩
  · rw [bind_ok hflush, modify_bind, bind_ok hopen]
  · rw [hdate, hturn s₁ hsame]
  · rw [hindex, hturn s₁ hsame]
  · rw [hfiles, hturned, hpath]

/-- The condition of the loop in the arithmetic of machine words. -/
theorem roll_iff (size : ℕ) {max length : ℕ} (hmax : max < wordBound) (hlength : length < 2 ^ 63) :
    (size > 0 ∧ (word64 (length + 1) > max ∨ size > wordSub max (word64 (length + 1)))) ↔
      ¬(size = 0 ∨ size + length + 1 ≤ max) := by
  have hword : word64 (length + 1) = length + 1 :=
    word64_of_lt (lt_of_lt_of_le (by omega : length + 1 < 2 ^ 63 + 1) (by decide))
  rw [hword]
  by_cases hfits : length + 1 ≤ max
  · have hsub : wordSub max (length + 1) = max - (length + 1) := by
      unfold wordSub
      rw [show max + wordBound - (length + 1) = max - (length + 1) + wordBound by omega, word64,
        Nat.add_mod_right, Nat.mod_eq_of_lt (by omega)]
    rw [hsub]
    omega
  · omega

theorem rollWhile_done {record : Record} {fuel : ℕ} (h : Ready basePath maxFileSize s)
    (hroom : Room maxFileSize (content s.files s.currentPath) record.text) :
    rollWhile io (word64 (record.text.length + 1)) (fuel + 1) s = .ok ⟨⟩ s := by
  have hcond := mt (roll_iff s.currentSize h.limit record.small).mp
    (not_not.mpr (by rw [h.size]; exact hroom))
  unfold rollWhile
  rw [get_bind, h.max, if_neg hcond]
  rfl

/-- A file that exists is found in the directory. -/
theorem mem_keys_of_files {p : Text} (h : (s.files p).isSome = true) : p ∈ s.directory.keys := by
  have hlookup : (s.directory.lookup p).isSome = true := by
    unfold FileSink.files at h
    split_ifs at h
    · simpa using h
    · exact h
  exact AList.lookup_isSome.mp hlookup

theorem fewFiles (s : FileSink) : FewFiles s.files :=
  s.directory.keys.finite_toSet.subset fun _ hp => mem_keys_of_files hp

/-- The loop ends at the first file with room, which it opens. -/
theorem rollWhile_spec (hio : io.Succeeds) (record : Record) {fuel : ℕ}
    (h : Ready basePath maxFileSize s)
    (hfuel : (logLayout basePath maxFileSize).target s.files s.currentDate s.fileIndex record.text -
      s.fileIndex < fuel) :
    ∃ s', rollWhile io (word64 (record.text.length + 1)) fuel s = .ok ⟨⟩ s' ∧
      Ready basePath maxFileSize s' ∧ s'.currentDate = s.currentDate ∧
      s'.fileIndex =
        (logLayout basePath maxFileSize).target s.files s.currentDate s.fileIndex record.text ∧
      s'.files = touch s.files (makeLogFileName basePath s.currentDate s'.fileIndex) := by
  induction fuel generalizing s with
  | zero => omega
  | succ fuel ih =>
    have hpath : s.currentPath = makeLogFileName basePath s.currentDate s.fileIndex := by
      rw [FileSink.currentPath, h.base]
    by_cases hroom : Room maxFileSize
        (content s.files (makeLogFileName basePath s.currentDate s.fileIndex)) record.text
    · have htarget : (logLayout basePath maxFileSize).target s.files s.currentDate s.fileIndex
          record.text = s.fileIndex := Layout.target_of_room hroom
      have hcreated : (s.files (makeLogFileName basePath s.currentDate s.fileIndex)).isSome = true :=
        h.upTo s.fileIndex le_rfl
      refine ⟨s, rollWhile_done h (by rwa [hpath]), h, rfl, htarget.symm, ?_⟩
      rw [touch_of_isSome hcreated]
    · have htarget : (logLayout basePath maxFileSize).target s.files s.currentDate s.fileIndex
          record.text = (logLayout basePath maxFileSize).target s.files s.currentDate
            (s.fileIndex + 1) record.text := Layout.target_succ hroom
      have hcond := (roll_iff s.currentSize h.limit record.small).mpr
        (by rw [h.size, hpath]; exact hroom)
      obtain ⟨s₁, hrun, hready, hdate, hindex, hfiles⟩ := roll_spec hio h
        (d := s.currentDate) (i := s.fileIndex + 1) (by simp) (fun j hj => h.upTo j (by omega))
        (fun s => { s with fileIndex := s.fileIndex + 1 })
        (fun s₁ hsame => by rw [← hsame.date, ← hsame.index])
        (rollWhile io (word64 (record.text.length + 1)) fuel)
      have hsame : (logLayout basePath maxFileSize).target s₁.files s₁.currentDate s₁.fileIndex
          record.text =
          (logLayout basePath maxFileSize).target s.files s.currentDate s.fileIndex record.text := by
        rw [hfiles, hdate, hindex, htarget, Layout.target, Layout.target, content_touch]
      have hfuel' : (logLayout basePath maxFileSize).target s₁.files s₁.currentDate s₁.fileIndex
          record.text - s₁.fileIndex < fuel := by
        rw [hsame, hindex]
        have hup := (Layout.target_spec (L := logLayout basePath maxFileSize)
          (fewFiles s) s.currentDate (s.fileIndex + 1) record.text).1
        omega
      obtain ⟨s', hloop, hready', hdate', hindex', hfiles'⟩ := ih hready hfuel'
      obtain ⟨-, -, hfull⟩ := Layout.target_spec (L := logLayout basePath maxFileSize)
        (fewFiles s) s.currentDate (s.fileIndex + 1) record.text
      have hskipped : makeLogFileName basePath s.currentDate (s.fileIndex + 1) =
            makeLogFileName basePath s.currentDate s'.fileIndex ∨
          content s.files (makeLogFileName basePath s.currentDate (s.fileIndex + 1)) ≠ [] := by
        have hup := (Layout.target_spec (L := logLayout basePath maxFileSize)
          (fewFiles s) s.currentDate (s.fileIndex + 1) record.text).1
        rw [hindex', hsame, htarget]
        rcases Nat.eq_or_lt_of_le hup with heq | hlt
        · exact .inl (by rw [← heq])
        · exact .inr (content_ne_nil_of_not_room (hfull _ le_rfl hlt))
      refine ⟨s', ?_, hready', hdate'.trans hdate, hindex'.trans hsame, ?_⟩
      · rw [← hloop, ← hrun, rollWhile, get_bind, h.max, if_pos hcond]
      · rw [hfiles', hfiles, hdate, touch_touch hskipped]

/-- There are fewer files to pass than the loop may take turns. -/
theorem target_lt_turns (s : FileSink) (d : DateText) (k : ℕ) (record : Text) :
    (logLayout basePath maxFileSize).target s.files d k record - k < s.directory.keys.length + 1 :=
  Nat.lt_succ_of_le (Layout.target_sub_le (fewFiles s) (fun _ => mem_keys_of_files) d k record)

/-- The roll check leaves the sink at the first file of the day with room. -/
theorem rollIfNeeded_spec (hio : io.Succeeds) (h : Ready basePath maxFileSize s)
    (today : DateText) (record : Record) :
    ∃ s', rollIfNeeded io today record s = .ok ⟨⟩ s' ∧ Ready basePath maxFileSize s' ∧
      s'.currentDate = today ∧
      s'.fileIndex = (logLayout basePath maxFileSize).aim s.writer (today, record.text) ∧
      s'.files = touch s.files (makeLogFileName basePath today s'.fileIndex) := by
  unfold rollIfNeeded
  rw [get_bind]
  by_cases htoday : today = s.currentDate
  · have hstart : s.writer.start today = s.fileIndex := if_pos htoday
    obtain ⟨s', hrun, hready, hdate, hindex, hfiles⟩ := rollWhile_spec hio record h
      (target_lt_turns s s.currentDate s.fileIndex record.text)
    refine ⟨s', ?_, hready, hdate.trans htoday.symm, ?_, ?_⟩
    · rw [if_neg (not_not.mpr htoday)]
      exact hrun
    · rw [hindex, Layout.aim, hstart, htoday]
      rfl
    · rw [hfiles, htoday]
  · -- A new day: file 0 is opened first, and stays alone if it was absent.
    have hstart : s.writer.start today = 0 := if_neg htoday
    obtain ⟨s₁, hroll, hready₁, hdate₁, hindex₁, hfiles₁⟩ := roll_spec hio h
      (fun heq => htoday heq.1) (fun j hj => absurd hj (Nat.not_lt_zero j))
      (fun s => { s with currentDate := today, fileIndex := 0 }) (fun _ _ => rfl)
      (get >>= fun s => rollWhile io (word64 (record.text.length + 1)) (s.directory.keys.length + 1))
    obtain ⟨s', hrun, hready, hdate, hindex, hfiles⟩ := rollWhile_spec hio record hready₁
      (target_lt_turns s₁ s₁.currentDate s₁.fileIndex record.text)
    have htarget : s'.fileIndex =
        (logLayout basePath maxFileSize).target s.files today 0 record.text := by
      rw [hindex, hfiles₁, hdate₁, hindex₁, Layout.target, Layout.target, content_touch]
    have hfirst : makeLogFileName basePath today 0 = makeLogFileName basePath today s'.fileIndex ∨
        content s.files (makeLogFileName basePath today 0) ≠ [] := by
      obtain ⟨-, -, hfull⟩ := Layout.target_spec (L := logLayout basePath maxFileSize)
        (fewFiles s) today 0 record.text
      rcases Nat.eq_zero_or_pos s'.fileIndex with hzero | hpos
      · exact .inl (by rw [hzero])
      · exact .inr (content_ne_nil_of_not_room (hfull 0 le_rfl (htarget ▸ hpos)))
    refine ⟨s', ?_, hready, hdate.trans hdate₁, ?_, ?_⟩
    · rw [if_pos htoday, ← hrun]
      exact hroll
    · rw [htarget, Layout.aim, hstart]
      rfl
    · rw [hfiles, hfiles₁, hdate₁, touch_touch hfirst]

/-! ## Staging -/

/-- A record as the rotating writer takes it. -/
def dated (r : Tm × Record) : DateText × Text := (CppLogger.currentDate r.1, r.2.text)

/-- A record that fits is staged, and the tracked size does not wrap around. -/
theorem Ready.stage (h : Ready basePath maxFileSize s) (record : Record)
    (hroom : Room maxFileSize (content s.files s.currentPath) record.text) :
    let s' := { s with
      pending := s.pending ++ record.text ++ ['\n']
      currentSize := word64 (s.currentSize + (record.text.length + 1)) }
    Ready basePath maxFileSize s' ∧
      s'.files = extend s.files s.currentPath (record.text ++ ['\n']) := by
  intro s'
  have hfiles : s'.files = extend s.files s.currentPath (record.text ++ ['\n']) := by
    rw [s'.files_eq h.path h.created, h.files_eq, extend_extend]
    simp [s']
  have hcontent : content s'.files s.currentPath =
      content s.files s.currentPath ++ (record.text ++ ['\n']) := by
    rw [hfiles, content_extend, Function.update_self]
  have hlength : (content s'.files s.currentPath).length =
      s.currentSize + (record.text.length + 1) := by
    rw [hcontent, h.size]
    simp
  have hbound : s.currentSize + (record.text.length + 1) < wordBound := by
    have hlimit := h.limit
    have hsmall := record.small
    unfold Room at hroom
    rw [← h.size] at hroom
    unfold wordBound at *
    omega
  refine ⟨⟨h.base, h.max, h.limit, h.path, h.good, h.created, ?_, ?_, ?_⟩, hfiles⟩
  · rw [show s'.currentSize = _ from word64_of_lt hbound]
    exact hlength.symm
  · intro q
    by_cases hq : q = s.currentPath
    · rw [hq, hlength]
      exact hbound
    · rw [hfiles, content_extend, Function.update_of_ne hq]
      exact h.small q
  · intro i hi
    rw [hfiles]
    exact extend_isSome _ _ (h.upTo i hi)

/-- One turn of the loop of `writeBatch` is one step of the rotating writer. -/
theorem stageRecord_spec (hio : io.Succeeds) (h : Ready basePath maxFileSize s) (r : Tm × Record) :
    ∃ s', stageRecord io r s = .ok ((logLayout basePath maxFileSize).placement s.writer (dated r)) s' ∧
      Ready basePath maxFileSize s' ∧
      s'.writer = (logLayout basePath maxFileSize).write s.writer (dated r) := by
  obtain ⟨s₁, hroll, hready, hdate, hindex, hfiles⟩ :=
    rollIfNeeded_spec hio h (CppLogger.currentDate r.1) r.2
  have hpath : s₁.currentPath = makeLogFileName basePath (CppLogger.currentDate r.1) s₁.fileIndex := by
    rw [FileSink.currentPath, hready.base, hdate]
  have hcontent : content s₁.files = content s.files := by rw [hfiles, content_touch]
  have hroom : Room maxFileSize (content s₁.files s₁.currentPath) r.2.text := by
    have hspec := (Layout.target_spec (L := logLayout basePath maxFileSize) (fewFiles s)
      (CppLogger.currentDate r.1) (s.writer.start (CppLogger.currentDate r.1)) r.2.text).2.1
    rw [hcontent, hpath, hindex]
    exact hspec
  obtain ⟨hstaged, hfiles'⟩ := hready.stage r.2 hroom
  refine ⟨_, ?_, hstaged, ?_⟩
  · unfold stageRecord
    rw [bind_ok hroll, get_bind, set_bind, pure_run, hready.path]
    dsimp only [Option.getD_some]
    rw [hcontent, hpath, hindex]
    rfl
  · rw [FileSink.writer, hfiles', hpath, hfiles, touch, extend_extend, List.nil_append]
    dsimp only
    rw [hdate, hindex]
    rfl

/-- A batch is staged record by record. -/
theorem stageRecords_spec (hio : io.Succeeds) (h : Ready basePath maxFileSize s)
    (rs : List (Tm × Record)) :
    ∃ s', stageRecords io rs s =
        .ok ((logLayout basePath maxFileSize).placements s.writer (rs.map dated)) s' ∧
      Ready basePath maxFileSize s' ∧
      s'.writer = (logLayout basePath maxFileSize).writes s.writer (rs.map dated) := by
  induction rs generalizing s with
  | nil => exact ⟨s, rfl, h, rfl⟩
  | cons r rs ih =>
    obtain ⟨s₁, hstage, hready₁, hwriter₁⟩ := stageRecord_spec hio h r
    obtain ⟨s', hrest, hready', hwriter'⟩ := ih hready₁
    refine ⟨s', ?_, hready', ?_⟩
    · unfold stageRecords
      rw [bind_ok hstage, bind_ok hrest, hwriter₁]
      rfl
    · rw [hwriter', hwriter₁]
      rfl

theorem writeBatch_spec (hio : io.Succeeds) (h : Ready basePath maxFileSize s)
    (rs : List (Tm × Record)) :
    ∃ s', FileSink.writeBatch io rs s =
        .ok ((logLayout basePath maxFileSize).placements s.writer (rs.map dated)) s' ∧
      Ready basePath maxFileSize s' ∧
      s'.writer = (logLayout basePath maxFileSize).writes s.writer (rs.map dated) ∧
      s'.pending = [] := by
  obtain ⟨s₁, hstage, hready₁, hwriter₁⟩ := stageRecords_spec hio h rs
  obtain ⟨s', hflush, hsame, hready', hnil⟩ := flushPending_spec hio hready₁
  refine ⟨s', ?_, hready', hsame.writer.trans hwriter₁, hnil⟩
  unfold FileSink.writeBatch
  rw [bind_ok hstage, bind_ok hflush]
  rfl

/-- The calls of a lifetime write their records one after the other. -/
theorem run_spec (hio : io.Succeeds) (h : Ready basePath maxFileSize s) (hnil : s.pending = [])
    (calls : List SinkCall) :
    ∃ s', FileSink.run io calls s = .ok ((logLayout basePath maxFileSize).placements s.writer
        ((calls.flatMap SinkCall.records).map dated)) s' ∧
      Ready basePath maxFileSize s' ∧ s'.pending = [] ∧
      s'.writer = (logLayout basePath maxFileSize).writes s.writer
        ((calls.flatMap SinkCall.records).map dated) := by
  induction calls generalizing s with
  | nil => exact ⟨s, rfl, h, hnil, rfl⟩
  | cons call calls ih =>
    cases call with
    | writeBatch records =>
      obtain ⟨s₁, hbatch, hready₁, hwriter₁, hnil₁⟩ := writeBatch_spec hio h records
      obtain ⟨s', hrest, hready', hnil', hwriter'⟩ := ih hready₁ hnil₁
      refine ⟨s', ?_, hready', hnil', ?_⟩
      · unfold FileSink.run
        rw [bind_ok hbatch, bind_ok hrest, hwriter₁, ← Layout.placements_append, ← List.map_append]
        rfl
      · rw [hwriter', hwriter₁, ← Layout.writes_append, ← List.map_append]
        rfl
    | flush =>
      obtain ⟨s₁, hflush, hsame, hready₁, hnil₁⟩ := flush_spec hio h
      obtain ⟨s', hrest, hready', hnil', hwriter'⟩ := ih hready₁ (hnil₁.trans hnil)
      rw [hsame.writer] at hrest hwriter'
      refine ⟨s', ?_, hready', hnil', hwriter'⟩
      unfold FileSink.run
      rw [bind_ok hflush, hrest]
      rfl

/-! ## Construction and close -/

/-- No file is larger than `file_size` can tell. -/
def SmallFiles (directory : Directory) : Prop :=
  ∀ p, (content (onDisk directory) p).length < wordBound

theorem fewFiles_onDisk (directory : Directory) : FewFiles (onDisk directory) :=
  directory.keys.finite_toSet.subset fun _ hp => AList.lookup_isSome.mp hp

/-- What the constructor demands, the size being a machine word. -/
structure Valid (basePath : Text) (maxFileSize : ℕ) : Prop where
  basePath : basePath ≠ []
  positive : 0 < maxFileSize
  word : maxFileSize < wordBound

theorem makeFileSink_spec (hio : io.Succeeds) (hvalid : Valid basePath maxFileSize)
    {directory : Directory} (hsmall : SmallFiles directory) (writeBatchSize : ℕ) (localTime : Tm) :
    ∃ s, makeFileSink io basePath maxFileSize writeBatchSize localTime directory = .ok s ∧
      Ready basePath maxFileSize s ∧ s.pending = [] ∧
      s.writer = (logLayout basePath maxFileSize).opened (onDisk directory)
        (CppLogger.currentDate localTime) := by
  let s₀ : FileSink := { basePath, currentDate := CppLogger.currentDate localTime, maxFileSize
                         directory }
  have hfiles₀ : s₀.files = onDisk directory := rfl
  have hopening : Opening basePath maxFileSize s₀ :=
    ⟨rfl, rfl, hvalid.word, rfl, .inl rfl, hsmall, fun i hi => absurd hi (Nat.not_lt_zero i)⟩
  obtain ⟨s, hopen, hready, hdate, hindex, hnil, hfiles⟩ := openNewLogFile_spec hio hopening
  refine ⟨s, ?_, hready, hnil, ?_⟩
  · have harguments : ¬(basePath = [] ∨ maxFileSize = 0) :=
      not_or.mpr ⟨hvalid.basePath, hvalid.positive.ne'⟩
    have hreserve : reservePending io writeBatchSize = true := by simp [reservePending, hio.reserve]
    unfold makeFileSink
    rw [if_neg harguments, if_neg (by simp [hio.createDirectories]), if_neg (by simp [hreserve]),
      hopen]
  · rw [FileSink.writer, hfiles, hfiles₀, hdate, hindex]
    rfl

theorem close_spec (hio : io.Succeeds) (h : Ready basePath maxFileSize s) (hnil : s.pending = []) :
    onDisk (s.close io).directory = s.files := by
  have hleft : { s.out with buffer := [] }.path = some s.currentPath := h.path
  unfold FileSink.close
  rw [if_pos (by simp [h.path]), OutStream.flush_eq hio s.directory h.path h.good]
  dsimp only
  rw [OutStream.close_eq hio _ hleft]
  dsimp only
  rw [onDisk_appendTo, onDisk_appendTo, extend_extend, h.files_eq, hnil]

/-- A lifetime is a run of the rotating writer. -/
theorem lifetime_spec (hio : io.Succeeds) (hvalid : Valid basePath maxFileSize)
    {directory : Directory} (hsmall : SmallFiles directory) (writeBatchSize : ℕ) (life : Lifetime) :
    let opened := (logLayout basePath maxFileSize).opened (onDisk directory)
      (CppLogger.currentDate life.localTime)
    let records := (life.calls.flatMap SinkCall.records).map dated
    ∃ directory', life.run io basePath maxFileSize writeBatchSize directory =
        .ok (directory', (logLayout basePath maxFileSize).placements opened records) ∧
      onDisk directory' = ((logLayout basePath maxFileSize).writes opened records).files ∧
      SmallFiles directory' := by
  intro opened records
  obtain ⟨s₀, hmake, hready₀, hnil₀, hwriter₀⟩ :=
    makeFileSink_spec hio hvalid hsmall writeBatchSize life.localTime
  obtain ⟨s, hrun, hready, hnil, hwriter⟩ := run_spec hio hready₀ hnil₀ life.calls
  have hclose : onDisk (s.close io).directory = s.files := close_spec hio hready hnil
  refine ⟨(s.close io).directory, ?_, ?_, ?_⟩
  · unfold Lifetime.run
    rw [hmake]
    dsimp only
    rw [hrun, hwriter₀]
  · rw [hclose, show opened = s₀.writer from hwriter₀.symm, ← hwriter]
    rfl
  · intro p
    rw [hclose]
    exact hready.small p

end CppLogger
