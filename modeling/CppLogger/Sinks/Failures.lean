import CppLogger.Sinks.OpenFailures

/-!
# Output that fails

Whatever the operating system refuses, the text that reaches the files is a prefix of whole
lines in the order in which they were staged: the sink never writes a piece twice, and never
one after another that is missing. A stream that has failed once is not written to again, and
every later call with something to do throws. The loop over full files ends in any case.
-/

namespace CppLogger

open Rotation Statement

/-! ## What has been handed over -/

/-- The files are the first ones with `bytes` handed over since, in pieces, to some of them. -/
def Reached (files : Text → Option Text) (directory : Directory) (bytes : Text) : Prop :=
  ∃ pieces : List (Text × Text),
    onDisk directory = pieces.foldl (fun files piece => extend files piece.1 piece.2) files ∧
      pieces.flatMap Prod.snd = bytes

variable {files : Text → Option Text} {directory : Directory} {bytes : Text}

theorem Reached.refl (directory : Directory) : Reached (onDisk directory) directory [] :=
  ⟨[], rfl, rfl⟩

theorem Reached.append (h : Reached files directory bytes) (path piece : Text) :
    Reached files (appendTo directory path piece) (bytes ++ piece) := by
  obtain ⟨pieces, hfiles, hbytes⟩ := h
  refine ⟨pieces ++ [(path, piece)], ?_, by simp [hbytes]⟩
  rw [onDisk_appendTo, hfiles, List.foldl_append]
  rfl

/-- A call of the sink by a caller that catches exceptions. -/
def SinkCall.attempt (io : Io) (call : SinkCall) (s : FileSink) : Option SinkError × FileSink :=
  match call with
  | .writeBatch records => caught (FileSink.writeBatch io records s)
  | .flush => caught (FileSink.flush io s)

/-- Calls one after the other, whatever they throw. -/
def FileSink.endure (io : Io) : List SinkCall → FileSink → List (Option SinkError) × FileSink
  | [], s => ([], s)
  | call :: calls, s =>
    let r := call.attempt io s
    let rest := FileSink.endure io calls r.2
    (r.1 :: rest.1, rest.2)

/-! ## The invariant -/

/-- Of the records kept so far a prefix has been handed over or is with the stream, and all
the rest is staged while the stream is good. -/
structure Journal (basePath : Text) (files : Text → Option Text) (kept : List Text)
    (s : FileSink) : Prop where
  base : s.basePath = basePath
  opened : ∃ path, s.out.path = some path ∧ (onDisk s.directory path).isSome = true
  first : ∃ d, (onDisk s.directory (makeLogFileName basePath d 0)).isSome = true
  order : ∃ bytes, Reached files s.directory bytes ∧
    bytes ++ s.out.buffer <+: Framing.terminate '\n' kept ∧
    (s.out.good = true → bytes ++ s.out.buffer ++ s.pending = Framing.terminate '\n' kept)

variable {io : Io} {basePath : Text} {kept : List Text} {s s' : FileSink}

/-- Bytes move from the sink to its stream and from the stream to the file, in their order. -/
theorem Journal.hand (h : Journal basePath files kept s) {path : Text}
    (hpath : s.out.path = some path) (hgood : s.out.good = true) (piece buffer pending : Text)
    (hsame : piece ++ buffer ++ pending = s.out.buffer ++ s.pending) :
    Journal basePath files kept { s with
      out := { path := some path, buffer, good := true }
      pending
      directory := appendTo s.directory path piece } where
  base := h.base
  opened := ⟨path, rfl, by
    obtain ⟨path', hpath', hopened⟩ := h.opened
    cases hpath.symm.trans hpath'
    simp [onDisk_appendTo, hopened]⟩
  first := by
    obtain ⟨d, hd⟩ := h.first
    exact ⟨d, by simp [onDisk_appendTo, hd]⟩
  order := by
    obtain ⟨bytes, hreached, -, hwhole⟩ := h.order
    have hall : bytes ++ piece ++ buffer ++ pending = Framing.terminate '\n' kept :=
      calc bytes ++ piece ++ buffer ++ pending = bytes ++ (piece ++ buffer ++ pending) := by simp
        _ = bytes ++ s.out.buffer ++ s.pending := by rw [hsame, List.append_assoc]
        _ = Framing.terminate '\n' kept := hwhole hgood
    exact ⟨bytes ++ piece, hreached.append path piece, ⟨pending, hall⟩, fun _ => hall⟩

/-- A stream that fails keeps what it has. -/
theorem Journal.fail (h : Journal basePath files kept s) :
    Journal basePath files kept { s with out := { s.out with good := false } } where
  base := h.base
  opened := h.opened
  first := h.first
  order := by
    obtain ⟨bytes, hreached, horder, -⟩ := h.order
    exact ⟨bytes, hreached, horder, fun hgood => by cases hgood⟩

/-! ## The functions of the sink -/

/-- What a write to the stream does not touch: the names, the size, and which files exist. -/
structure Stays (s s' : FileSink) : Prop where
  date : s'.currentDate = s.currentDate
  index : s'.fileIndex = s.fileIndex
  exist : ∀ p, (onDisk s'.directory p).isSome = true ↔ (onDisk s.directory p).isSome = true
  good : s.out.good = true → s'.out.good = true

theorem isSome_appendTo (directory : Directory) (path piece p : Text) :
    (onDisk (appendTo directory path piece) p).isSome = true ↔
      (onDisk directory p).isSome = true ∨ p = path := by
  rw [onDisk_appendTo, extend]
  by_cases hp : p = path
  · subst hp
    simp
  · simp [hp]

theorem isSome_appendTo_of {path : Text} (h : (onDisk directory path).isSome = true)
    (piece p : Text) : (onDisk (appendTo directory path piece) p).isSome = true ↔
      (onDisk directory p).isSome = true := by
  rw [isSome_appendTo, or_iff_left_iff_imp]
  rintro rfl
  exact h

/-- A write fails, or the stream keeps some of its bytes and hands over those before. -/
theorem OutStream.write_cases (io : Io) (directory : Directory) {out : OutStream} {path : Text}
    (hpath : out.path = some path) (bytes : Text) :
    out.write io directory bytes = ({ out with good := false }, directory) ∨
      out.good = true ∧ ∃ kept handed, handed ++ kept = out.buffer ++ bytes ∧
        out.write io directory bytes =
          ({ path := some path, buffer := kept, good := true }, appendTo directory path handed) := by
  obtain ⟨outPath, buffer, good⟩ := out
  obtain rfl : outPath = some path := hpath
  by_cases hwrites : (good && io.writes directory path bytes) = true
  · obtain rfl : good = true := (Bool.and_eq_true _ _ ▸ hwrites).1
    exact .inr ⟨rfl, _, _, List.take_append_drop (io.spill (buffer ++ bytes)) _, if_pos hwrites⟩
  · exact .inl (if_neg hwrites)

/-- A flush fails, or hands over all that the stream has. -/
theorem OutStream.flush_cases (io : Io) (directory : Directory) {out : OutStream} {path : Text}
    (hpath : out.path = some path) :
    out.flush io directory = ({ out with good := false }, directory) ∨
      out.good = true ∧ out.flush io directory =
        ({ path := some path, buffer := [], good := true },
          appendTo directory path out.buffer) := by
  obtain ⟨outPath, buffer, good⟩ := out
  obtain rfl : outPath = some path := hpath
  cases good with
  | false => exact .inl rfl
  | true =>
    by_cases hflushes : io.flushes directory path buffer = true
    · exact .inr ⟨rfl, if_pos hflushes⟩
    · exact .inl (if_neg hflushes)

theorem flushPending_journal (h : Journal basePath files kept s) :
    Ends (fun _ s' => Journal basePath files kept s' ∧ s'.pending = [] ∧ Stays s s')
      (fun e s' => Journal basePath files kept s' ∧ e ≠ .outOfFuel) (flushPending io s) := by
  unfold flushPending
  rw [get_bind]
  by_cases hnil : s.pending = []
  · rw [if_pos hnil]
    exact .ok ⟨h, hnil, rfl, rfl, fun _ => .rfl, id⟩
  · obtain ⟨path, hpath, hopened⟩ := h.opened
    rw [if_neg hnil]
    rcases OutStream.write_cases io s.directory hpath s.pending with
      hwrite | ⟨hgood, buffer, piece, hpieces, hwrite⟩
    · rw [hwrite]
      exact .error ⟨h.fail, by simp⟩
    · rw [hwrite]
      exact .ok ⟨h.hand hpath hgood _ _ _ (by simpa using hpieces), rfl, rfl, rfl,
        isSome_appendTo_of hopened _, fun _ => rfl⟩

theorem flush_journal (h : Journal basePath files kept s) (io : Io) :
    Ends (fun _ s' => Journal basePath files kept s' ∧ s'.pending = s.pending ∧ Stays s s')
      (fun e s' => Journal basePath files kept s' ∧ e ≠ .outOfFuel) (FileSink.flush io s) := by
  obtain ⟨path, hpath, hopened⟩ := h.opened
  unfold FileSink.flush
  rw [get_bind, if_pos (by simp [hpath])]
  rcases OutStream.flush_cases io s.directory hpath with
    hflush | ⟨hgood, hflush⟩
  · rw [hflush]
    exact .error ⟨h.fail, by simp⟩
  · rw [hflush]
    exact .ok ⟨h.hand hpath hgood _ _ _ (by simp), rfl, rfl, rfl, isSome_appendTo_of hopened _,
      fun _ => rfl⟩

/-- A file is opened that was there, or is new and empty. -/
theorem Journal.touch (h : Journal basePath files kept s) (path : Text) :
    Journal basePath files kept { s with directory := appendTo s.directory path [] } where
  base := h.base
  opened := by
    obtain ⟨path', hpath', hopened⟩ := h.opened
    exact ⟨path', hpath', (isSome_appendTo _ _ _ _).mpr (.inl hopened)⟩
  first := by
    obtain ⟨d, hd⟩ := h.first
    exact ⟨d, (isSome_appendTo _ _ _ _).mpr (.inl hd)⟩
  order := by
    obtain ⟨bytes, hreached, horder⟩ := h.order
    exact ⟨bytes, by simpa using hreached.append path [], horder⟩

/-- A stream with nothing left in it is replaced by a new one. -/
theorem Journal.reopen (h : Journal basePath files kept s) (hgood : s.out.good = true)
    (hbuffer : s.out.buffer = []) {path : Text} (hopened : (onDisk s.directory path).isSome = true)
    (size : ℕ) :
    Journal basePath files kept { s with out := { path := some path }, currentSize := size } where
  base := h.base
  opened := ⟨path, rfl, hopened⟩
  first := h.first
  order := by
    obtain ⟨bytes, hreached, horder, hwhole⟩ := h.order
    rw [hbuffer] at horder hwhole
    exact ⟨bytes, hreached, horder, fun _ => hwhole hgood⟩

/-- Closing a stream with nothing left in it changes no file. -/
theorem Journal.closeEmpty (h : Journal basePath files kept s) (io : Io) {path : Text}
    (hopened : (onDisk s.directory path).isSome = true) :
    let directory := (OutStream.close io s.directory { path := some path }).2
    Journal basePath files kept { s with directory } ∧
      ∀ p, (onDisk directory p).isSome = true ↔ (onDisk s.directory p).isSome = true := by
  intro directory
  by_cases hflushes : io.flushes s.directory path [] = true
  · have hclosed : directory = appendTo s.directory path [] := by
      simp [directory, OutStream.close, hflushes]
    rw [hclosed]
    exact ⟨h.touch path, isSome_appendTo_of hopened []⟩
  · have hclosed : directory = s.directory := by
      simp [directory, OutStream.close, hflushes]
    rw [hclosed]
    exact ⟨h, fun _ => .rfl⟩

/-- The new file is the one of the members, and its size is what `fileSize` has told. -/
structure Opens (io : Io) (s s' : FileSink) : Prop where
  date : s'.currentDate = s.currentDate
  index : s'.fileIndex = s.fileIndex
  path : s'.currentPath = s.currentPath
  size : s'.currentSize = fileSize io s.directory s.currentPath
  exist : ∀ p, (onDisk s'.directory p).isSome = true ↔
    (onDisk s.directory p).isSome = true ∨ p = s.currentPath

theorem openNewLogFile_journal (h : Journal basePath files kept s) :
    Ends (fun _ s' => Journal basePath files kept s' ∧ s'.pending = s.pending ∧
        s'.out.good = true ∧ Opens io s s')
      (fun e s' => Journal basePath files kept s' ∧ e ≠ .outOfFuel) (openNewLogFile io s) := by
  obtain ⟨path, hpath, hopened⟩ := h.opened
  have htouched := h.touch s.currentPath
  cases hopens : io.opens s.directory s.currentPath with
  | false =>
    rw [openNewLogFile_refused hopens]
    exact .error ⟨h, by simp⟩
  | true =>
    have hthere : (onDisk (appendTo s.directory s.currentPath []) path).isSome = true :=
      (isSome_appendTo _ _ _ _).mpr (.inl hopened)
    unfold openNewLogFile
    rw [get_bind]
    dsimp only [FileSink.currentPath] at hopens ⊢
    rw [if_neg (by simp [hopens]), if_pos (by simp [hpath])]
    rcases OutStream.flush_cases io (appendTo s.directory s.currentPath []) hpath with
      hflush | ⟨hgood, hflush⟩
    · dsimp only [FileSink.currentPath] at hflush
      rw [hflush]
      exact .error ⟨htouched.fail, by simp⟩
    · have hflushed := htouched.hand hpath hgood s.out.buffer [] s.pending (by simp)
      have hexist : ∀ p, (onDisk (appendTo (appendTo s.directory s.currentPath []) path
          s.out.buffer) p).isSome = true ↔
            (onDisk s.directory p).isSome = true ∨ p = s.currentPath := fun p => by
        rw [isSome_appendTo_of hthere, isSome_appendTo]
      obtain ⟨hclosed, hsame⟩ := hflushed.closeEmpty io
        ((isSome_appendTo_of hthere _ _).mpr hthere)
      have hnew := (hsame s.currentPath).mpr ((hexist s.currentPath).mpr (.inr rfl))
      dsimp only [FileSink.currentPath] at hflush
      rw [hflush]
      exact .ok ⟨hclosed.reopen rfl rfl hnew _, rfl, rfl, rfl, rfl, rfl, rfl,
        fun p => (hsame p).trans (hexist p)⟩

/-! ## The loop over full files -/

/-- The numbers above the current one whose files exist. -/
def FileSink.numbersAhead (s : FileSink) : Set ℕ :=
  {j | s.fileIndex < j ∧
    (onDisk s.directory (makeLogFileName s.basePath s.currentDate j)).isSome = true}

theorem FileSink.finite_numbersAhead (s : FileSink) : s.numbersAhead.Finite := by
  refine ((fewFiles_onDisk s.directory).preimage (f := makeLogFileName s.basePath s.currentDate)
    fun i _ j _ h => (makeLogFileName_injective h).2).subset ?_
  exact fun j hj => hj.2

/-- The first file of a series is never ahead. -/
theorem Journal.ahead_lt (h : Journal basePath files kept s) :
    s.numbersAhead.ncard < s.directory.keys.length := by
  obtain ⟨d, hd⟩ := h.first
  have hinjective : Set.InjOn (makeLogFileName s.basePath s.currentDate) s.numbersAhead :=
    fun i _ j _ heq => (makeLogFileName_injective heq).2
  have hsub : makeLogFileName s.basePath s.currentDate '' s.numbersAhead ⊆
      (s.directory.keys.toFinset.erase (makeLogFileName basePath d 0) : Set Text) := by
    rintro _ ⟨j, ⟨hj, hexists⟩, rfl⟩
    have hkey : makeLogFileName s.basePath s.currentDate j ∈ s.directory.keys :=
      AList.lookup_isSome.mp hexists
    have hne : makeLogFileName s.basePath s.currentDate j ≠ makeLogFileName basePath d 0 := by
      rw [h.base]
      intro heq
      have hzero := (makeLogFileName_injective heq).2
      omega
    simpa using ⟨hkey, hne⟩
  have hkey : makeLogFileName basePath d 0 ∈ s.directory.keys.toFinset :=
    List.mem_toFinset.mpr (AList.lookup_isSome.mp hd)
  calc s.numbersAhead.ncard
      = (makeLogFileName s.basePath s.currentDate '' s.numbersAhead).ncard :=
        hinjective.ncard_image.symm
    _ ≤ (s.directory.keys.toFinset.erase (makeLogFileName basePath d 0)).card := by
        rw [← Set.ncard_coe_finset]
        exact Set.ncard_le_ncard hsub (Finset.finite_toSet _)
    _ < s.directory.keys.toFinset.card := Finset.card_erase_lt_of_mem hkey
    _ ≤ s.directory.keys.length := List.toFinset_card_le _

/-- A turn of the loop that comes to a file with bytes in it leaves one number less ahead. -/
theorem ahead_turn (hbase : s'.basePath = s.basePath) (hdate : s'.currentDate = s.currentDate)
    (hindex : s'.fileIndex = s.fileIndex + 1)
    (hthere : (onDisk s.directory s'.currentPath).isSome = true)
    (hexist : ∀ p, (onDisk s'.directory p).isSome = true ↔
      (onDisk s.directory p).isSome = true ∨ p = s'.currentPath) :
    s'.numbersAhead.ncard + 1 = s.numbersAhead.ncard := by
  have hpath : s'.currentPath = makeLogFileName s.basePath s.currentDate (s.fileIndex + 1) := by
    rw [FileSink.currentPath, hbase, hdate, hindex]
  have hnumbers : s.numbersAhead = insert (s.fileIndex + 1) s'.numbersAhead := by
    ext j
    simp only [FileSink.numbersAhead, Set.mem_ofPred_eq, Set.mem_insert_iff, hbase, hdate, hindex,
      hexist, hpath]
    constructor
    · rintro ⟨hj, hexists⟩
      by_cases hnext : j = s.fileIndex + 1
      · exact .inl hnext
      · exact .inr ⟨by omega, .inl hexists⟩
    · rintro (rfl | ⟨hj, hexists | heq⟩)
      · exact ⟨by omega, hpath ▸ hthere⟩
      · exact ⟨by omega, hexists⟩
      · have hsame := (makeLogFileName_injective heq).2
        omega
  have hnot : s.fileIndex + 1 ∉ s'.numbersAhead := by
    rintro ⟨hlt, -⟩
    omega
  rw [hnumbers, Set.ncard_insert_of_notMem hnot s'.finite_numbersAhead]

theorem isSome_of_fileSize {path : Text} (h : 0 < fileSize io directory path) :
    (onDisk directory path).isSome = true := by
  unfold fileSize at h
  unfold onDisk
  cases hlookup : directory.lookup path with
  | none => simp [hlookup] at h
  | some bytes => rfl

/-- The sink may turn to any other number and date. -/
theorem Journal.turn (h : Journal basePath files kept s) (currentDate : DateText)
    (fileIndex : ℕ) :
    Journal basePath files kept { s with currentDate, fileIndex } where
  base := h.base
  opened := h.opened
  first := h.first
  order := h.order

theorem rollWhile_journal (appendSize : ℕ) {fuel : ℕ} (h : Journal basePath files kept s)
    (hfuel : 0 < fuel) (hahead : 0 < s.currentSize → s.numbersAhead.ncard + 1 < fuel) :
    Ends (fun _ s' => Journal basePath files kept s' ∧ (s.out.good = true → s'.out.good = true))
      (fun e s' => Journal basePath files kept s' ∧ e ≠ .outOfFuel)
      (rollWhile io appendSize fuel s) := by
  induction fuel generalizing s with
  | zero => omega
  | succ fuel ih =>
    unfold rollWhile
    rw [get_bind]
    split_ifs with hroll
    · refine .bind (flushPending_journal h) ?_
      rintro ⟨⟩ s₁ ⟨h₁, -, hstays⟩
      rw [modify_bind]
      refine .bind (openNewLogFile_journal (h₁.turn s₁.currentDate (s₁.fileIndex + 1))) ?_
      rintro ⟨⟩ s₂ ⟨h₂, -, hgood, hopens⟩
      have hturns := hahead hroll.1
      refine (ih h₂ (by omega) fun hsize => ?_).mono ?_ fun _ _ => id
      · rw [hopens.size] at hsize
        have hturn := ahead_turn (h₂.base.trans h.base.symm)
          (hopens.date.trans hstays.date) (by rw [hopens.index, ← hstays.index])
          (by rw [hopens.path, ← hstays.exist]; exact isSome_of_fileSize hsize)
          (fun p => by rw [hopens.exist, hopens.path]; exact or_congr_left (hstays.exist p))
        omega
      · exact fun _ s' hs' => ⟨hs'.1, fun _ => hs'.2 hgood⟩
    · exact .ok ⟨h, id⟩

theorem rollIfNeeded_journal (h : Journal basePath files kept s) (today : DateText)
    (record : Record) :
    Ends (fun _ s' => Journal basePath files kept s' ∧ (s.out.good = true → s'.out.good = true))
      (fun e s' => Journal basePath files kept s' ∧ e ≠ .outOfFuel)
      (rollIfNeeded io today record s) := by
  have hloop : ∀ s₁ : FileSink, Journal basePath files kept s₁ →
      Ends (fun _ s' => Journal basePath files kept s' ∧
          (s₁.out.good = true → s'.out.good = true))
        (fun e s' => Journal basePath files kept s' ∧ e ≠ .outOfFuel)
        ((get >>= fun s : FileSink => rollWhile io (word64 (record.text.length + 1))
          (s.directory.keys.length + 1)) s₁) := by
    intro s₁ h₁
    rw [get_bind]
    exact rollWhile_journal _ h₁ (Nat.succ_pos _) fun _ => Nat.succ_lt_succ h₁.ahead_lt
  unfold rollIfNeeded
  rw [get_bind]
  split_ifs with htoday
  · refine .bind (flushPending_journal h) ?_
    rintro ⟨⟩ s₁ ⟨h₁, -, -⟩
    rw [modify_bind]
    refine .bind (openNewLogFile_journal (h₁.turn today 0)) ?_
    rintro ⟨⟩ s₂ ⟨h₂, -, hgood, -⟩
    exact (hloop s₂ h₂).mono (fun _ s' hs' => ⟨hs'.1, fun _ => hs'.2 hgood⟩) fun _ _ => id
  · exact hloop s h

/-! ## Batches -/

theorem Journal.stage (h : Journal basePath files kept s) (text : Text) (size : ℕ) :
    Journal basePath files (kept ++ [text])
      { s with pending := s.pending ++ text ++ ['\n'], currentSize := size } where
  base := h.base
  opened := h.opened
  first := h.first
  order := by
    obtain ⟨bytes, hreached, horder, hwhole⟩ := h.order
    refine ⟨bytes, hreached, ?_, fun hgood => ?_⟩
    · rw [Framing.terminate_append]
      exact horder.trans (List.prefix_append _ _)
    · rw [Framing.terminate_append, ← hwhole hgood, Framing.terminate_singleton]
      simp

theorem stageRecord_journal (h : Journal basePath files kept s) (r : Tm × Record) :
    Ends (fun _ s' => Journal basePath files (kept ++ [r.2.text]) s' ∧ s'.pending ≠ [] ∧
        (s.out.good = true → s'.out.good = true))
      (fun e s' => Journal basePath files kept s' ∧ e ≠ .outOfFuel) (stageRecord io r s) := by
  unfold stageRecord
  refine .bind (rollIfNeeded_journal h _ _) ?_
  rintro ⟨⟩ s₁ ⟨h₁, hgood⟩
  rw [get_bind, set_bind]
  exact .ok ⟨h₁.stage _ _, by simp, hgood⟩

/-- Of a batch whose staging throws the first records are kept. -/
theorem stageRecords_journal (h : Journal basePath files kept s) (rs : List (Tm × Record)) :
    Ends (fun _ s' => Journal basePath files (kept ++ rs.map (·.2.text)) s' ∧
        (s.pending ≠ [] ∨ rs ≠ [] → s'.pending ≠ []) ∧ (s.out.good = true → s'.out.good = true))
      (fun e s' => (∃ texts, texts <+: rs.map (·.2.text) ∧
        Journal basePath files (kept ++ texts) s') ∧ e ≠ .outOfFuel) (stageRecords io rs s) := by
  induction rs generalizing kept s with
  | nil => exact .ok ⟨by simpa using h, by simp, id⟩
  | cons r rs ih =>
    unfold stageRecords
    refine .bind (Q := fun _ s' => Journal basePath files (kept ++ [r.2.text]) s' ∧
      s'.pending ≠ [] ∧ (s.out.good = true → s'.out.good = true)) ?_ ?_
    · exact (stageRecord_journal h r).mono (fun _ _ => id) fun e s' hs' =>
        ⟨⟨[], List.nil_prefix, by simpa using hs'.1⟩, hs'.2⟩
    · rintro placement s₁ ⟨h₁, hstaged, hgood⟩
      refine .bind (Q := fun _ s' => Journal basePath files (kept ++ (r :: rs).map (·.2.text)) s' ∧
        s'.pending ≠ [] ∧ (s.out.good = true → s'.out.good = true)) ?_ ?_
      · refine (ih h₁).mono ?_ ?_
        · rintro _ s' ⟨hs', hstaged', hgood'⟩
          exact ⟨by simpa using hs', hstaged' (.inl hstaged), fun hs => hgood' (hgood hs)⟩
        · rintro e s' ⟨⟨texts, htexts, hs'⟩, he⟩
          exact ⟨⟨r.2.text :: texts, by simpa using htexts, by simpa using hs'⟩, he⟩
      · rintro placements s₂ ⟨h₂, hstaged₂, hgood₂⟩
        exact .ok ⟨h₂, fun _ => hstaged₂, hgood₂⟩

theorem writeBatch_journal (h : Journal basePath files kept s) (io : Io) (rs : List (Tm × Record)) :
    Ends (fun _ s' => Journal basePath files (kept ++ rs.map (·.2.text)) s' ∧ s'.pending = [] ∧
        (s.out.good = true → s'.out.good = true))
      (fun e s' => (∃ texts, texts <+: rs.map (·.2.text) ∧
        Journal basePath files (kept ++ texts) s') ∧ e ≠ .outOfFuel)
      (FileSink.writeBatch io rs s) := by
  unfold FileSink.writeBatch
  refine .bind (stageRecords_journal h rs) ?_
  rintro placements s₁ ⟨h₁, -, hgood⟩
  refine .bind (Q := fun _ s' => Journal basePath files (kept ++ rs.map (·.2.text)) s' ∧
    s'.pending = [] ∧ (s.out.good = true → s'.out.good = true)) ?_ ?_
  · refine (flushPending_journal h₁).mono ?_ ?_
    · rintro _ s' ⟨hs', hnil, hstays⟩
      exact ⟨hs', hnil, fun hs => hstays.good (hgood hs)⟩
    · rintro e s' ⟨hs', he⟩
      exact ⟨⟨_, List.prefix_rfl, hs'⟩, he⟩
  · rintro _ s' hs'
    exact .ok hs'

/-- What a call keeps of its records: all of them if it returns, the first ones if it throws. -/
theorem attempt_journal (h : Journal basePath files kept s) (io : Io) (call : SinkCall) :
    (∃ texts, texts <+: call.records.map (·.2.text) ∧
        Journal basePath files (kept ++ texts) (call.attempt io s).2) ∧
      (call.attempt io s).1 ≠ some .outOfFuel ∧
      ((call.attempt io s).1 = none → s.pending = [] → s.out.good = true →
        Journal basePath files (kept ++ call.records.map (·.2.text)) (call.attempt io s).2 ∧
          (call.attempt io s).2.pending = [] ∧ (call.attempt io s).2.out.good = true) := by
  cases call with
  | writeBatch rs =>
    simp only [SinkCall.attempt, SinkCall.records]
    rcases (writeBatch_journal h io rs).caught with
      ⟨_, hnone, hs', hnil, hgood⟩ | ⟨e, hsome, hs', he⟩
    · exact ⟨⟨_, List.prefix_rfl, hs'⟩, by simp [hnone], fun _ _ hs => ⟨hs', hnil, hgood hs⟩⟩
    · exact ⟨hs', by simpa [hsome] using he, by simp [hsome]⟩
  | flush =>
    simp only [SinkCall.attempt, SinkCall.records, List.map_nil, List.append_nil]
    rcases (flush_journal h io).caught with
      ⟨_, hnone, hs', hpending, hstays⟩ | ⟨e, hsome, hs', he⟩
    · exact ⟨⟨[], List.nil_prefix, by simpa using hs'⟩, by simp [hnone],
        fun _ hnil hs => ⟨hs', hpending.trans hnil, hstays.good hs⟩⟩
    · exact ⟨⟨[], List.nil_prefix, by simpa using hs'⟩, by simpa [hsome] using he, by simp [hsome]⟩

/-- A run of calls, each of which may throw. -/
theorem endure_journal (h : Journal basePath files kept s) (io : Io) (calls : List SinkCall) :
    (∃ texts : List Text, texts.Sublist ((calls.flatMap SinkCall.records).map (·.2.text)) ∧
        Journal basePath files (kept ++ texts) (FileSink.endure io calls s).2) ∧
      some .outOfFuel ∉ (FileSink.endure io calls s).1 ∧
      ((∀ outcome ∈ (FileSink.endure io calls s).1, outcome = none) →
        s.pending = [] → s.out.good = true →
        Journal basePath files (kept ++ (calls.flatMap SinkCall.records).map (·.2.text))
            (FileSink.endure io calls s).2 ∧
          (FileSink.endure io calls s).2.pending = [] ∧
          (FileSink.endure io calls s).2.out.good = true) := by
  induction calls generalizing kept s with
  | nil => exact ⟨⟨[], List.Sublist.slnil, by simpa [FileSink.endure] using h⟩,
      by simp [FileSink.endure],
      fun _ hnil hgood => ⟨by simpa [FileSink.endure] using h, hnil, hgood⟩⟩
  | cons call calls ih =>
    obtain ⟨⟨texts, htexts, hfirst⟩, hfuel, hall⟩ := attempt_journal h io call
    obtain ⟨⟨texts', htexts', hrest⟩, hfuel', -⟩ := ih hfirst
    simp only [FileSink.endure, List.flatMap_cons, List.map_append]
    refine ⟨⟨texts ++ texts', htexts.sublist.append htexts', by simpa using hrest⟩, ?_, ?_⟩
    · simpa [List.mem_cons] using ⟨Ne.symm hfuel, hfuel'⟩
    · intro hnone hnil hgood
      obtain ⟨hfirst', hnil', hgood'⟩ := hall (hnone _ (by simp)) hnil hgood
      obtain ⟨-, -, hlast⟩ := ih hfirst'
      simpa using hlast (fun outcome hmem => hnone outcome (by simp [hmem])) hnil' hgood'

/-! ## Construction and close -/

theorem makeFileSink_journal {maxFileSize writeBatchSize : ℕ} {localTime : Tm}
    (hmake : makeFileSink io basePath maxFileSize writeBatchSize localTime directory = .ok s) :
    Journal basePath (onDisk directory) [] s ∧ s.pending = [] ∧ s.out.good = true := by
  unfold makeFileSink at hmake
  split_ifs at hmake
  let s₀ : FileSink := { basePath, currentDate := CppLogger.currentDate localTime, maxFileSize
                         directory }
  cases hopens : io.opens s₀.directory s₀.currentPath with
  | false =>
    rw [openNewLogFile_refused hopens] at hmake
    cases hmake
  | true =>
    have hopen : openNewLogFile io s₀ = .ok ⟨⟩ { s₀ with
        out := { path := some s₀.currentPath }
        directory := appendTo directory s₀.currentPath []
        currentSize := fileSize io directory s₀.currentPath } := by
      unfold openNewLogFile
      rw [get_bind]
      dsimp only [FileSink.currentPath] at hopens ⊢
      rw [if_neg (by simp [hopens]), if_neg (by simp [s₀])]
      rfl
    rw [hopen] at hmake
    cases hmake
    have hexists := (isSome_appendTo directory s₀.currentPath [] s₀.currentPath).mpr (.inr rfl)
    exact ⟨⟨rfl, ⟨_, rfl, hexists⟩, ⟨_, hexists⟩,
      [], (Reached.refl directory).append s₀.currentPath [], List.nil_prefix, fun _ => rfl⟩, rfl, rfl⟩

/-- `close` hands over what is with the stream, or some of it. -/
theorem Journal.close (h : Journal basePath files kept s) (io : Io) :
    ∃ bytes, Reached files (s.close io).directory bytes ∧
      bytes <+: Framing.terminate '\n' kept := by
  obtain ⟨path, hpath, hopened⟩ := h.opened
  unfold FileSink.close
  rw [if_pos (by simp [hpath])]
  rcases OutStream.flush_cases io s.directory hpath with
    hflush | ⟨hgood, hflush⟩
  · obtain ⟨bytes, hreached, horder, -⟩ := h.order
    rw [hflush]
    by_cases hflushes : io.flushes s.directory path s.out.buffer = true
    · refine ⟨bytes ++ s.out.buffer, ?_, horder⟩
      simpa [OutStream.close, hpath, hflushes] using hreached.append path s.out.buffer
    · refine ⟨bytes, ?_, (List.prefix_append _ _).trans horder⟩
      simpa [OutStream.close, hpath, hflushes] using hreached
  · have hflushed := h.hand hpath hgood s.out.buffer [] s.pending (by simp)
    obtain ⟨hclosed, -⟩ := hflushed.closeEmpty io
      ((isSome_appendTo_of hopened s.out.buffer path).mpr hopened)
    obtain ⟨bytes, hreached, horder, -⟩ := hclosed.order
    rw [hflush]
    exact ⟨bytes, hreached, by simpa using horder⟩

/-! ## A stream that has failed -/

/-- The stream has failed, and the files hold what they held then. -/
structure Broken (contents : Text → Text) (s : FileSink) : Prop where
  failed : s.out.good = false
  opened : s.out.path.isSome = true
  contents : ∀ p, content (onDisk s.directory) p = contents p

variable {contents : Text → Text}

theorem flushPending_broken (h : Broken contents s) :
    Ends (fun _ s' => s' = s ∧ s.pending = []) (fun _ s' => Broken contents s')
      (flushPending io s) := by
  unfold flushPending
  rw [get_bind]
  by_cases hnil : s.pending = []
  · rw [if_pos hnil]
    exact .ok ⟨rfl, hnil⟩
  · obtain ⟨path, hpath⟩ := Option.isSome_iff_exists.mp h.opened
    rw [if_neg hnil]
    have hwrite : s.out.write io s.directory s.pending =
        ({ s.out with good := false }, s.directory) := by
      simp [OutStream.write, hpath, h.failed]
    rw [hwrite]
    exact .error ⟨rfl, h.opened, h.contents⟩

theorem flush_broken (h : Broken contents s) (io : Io) :
    Ends (fun _ _ => False) (fun _ s' => Broken contents s') (FileSink.flush io s) := by
  obtain ⟨path, hpath⟩ := Option.isSome_iff_exists.mp h.opened
  unfold FileSink.flush
  rw [get_bind, if_pos h.opened]
  have hflush : s.out.flush io s.directory = (s.out, s.directory) := by
    simp [OutStream.flush, hpath, h.failed]
  rw [hflush]
  simp only [h.failed]
  exact .error h

/-- No file is opened in the place of a stream that has failed. -/
theorem openNewLogFile_broken (h : Broken contents s) :
    Ends (fun _ _ => False) (fun _ s' => Broken contents s') (openNewLogFile io s) := by
  obtain ⟨path, hpath⟩ := Option.isSome_iff_exists.mp h.opened
  cases hopens : io.opens s.directory s.currentPath with
  | false =>
    rw [openNewLogFile_refused hopens]
    exact .error h
  | true =>
    have hflush : s.out.flush io (appendTo s.directory s.currentPath []) =
        (s.out, appendTo s.directory s.currentPath []) := by
      simp [OutStream.flush, hpath, h.failed]
    have hcontents : ∀ p, content (onDisk (appendTo s.directory s.currentPath [])) p = contents p := by
      intro p
      rw [onDisk_appendTo, ← h.contents]
      exact congrFun (content_touch (onDisk s.directory) s.currentPath) p
    unfold openNewLogFile
    rw [get_bind]
    dsimp only [FileSink.currentPath] at hopens hflush hcontents ⊢
    rw [if_neg (by simp [hopens]), if_pos h.opened, hflush]
    simp only [h.failed]
    exact .error ⟨h.failed, h.opened, hcontents⟩

/-- A check that returns has not had to roll. -/
theorem rollWhile_broken (h : Broken contents s) (appendSize fuel : ℕ) :
    Ends (fun _ s' => s' = s) (fun _ s' => Broken contents s')
      (rollWhile io appendSize fuel s) := by
  cases fuel with
  | zero => exact .error h
  | succ fuel =>
    unfold rollWhile
    rw [get_bind]
    split_ifs
    · refine .bind (flushPending_broken h) ?_
      rintro ⟨⟩ s₁ ⟨rfl, -⟩
      rw [modify_bind]
      refine .bind (openNewLogFile_broken ⟨h.failed, h.opened, h.contents⟩) ?_
      exact fun _ _ hfalse => hfalse.elim
    · exact .ok rfl

theorem rollIfNeeded_broken (h : Broken contents s) (today : DateText) (record : Record) :
    Ends (fun _ s' => s' = s) (fun _ s' => Broken contents s')
      (rollIfNeeded io today record s) := by
  unfold rollIfNeeded
  rw [get_bind]
  split_ifs
  · refine .bind (flushPending_broken h) ?_
    rintro ⟨⟩ s₁ ⟨rfl, -⟩
    rw [modify_bind]
    refine .bind (openNewLogFile_broken ⟨h.failed, h.opened, h.contents⟩) ?_
    exact fun _ _ hfalse => hfalse.elim
  · exact rollWhile_broken h _ _

/-- Staging may go on, but does not hide that something is staged. -/
theorem stageRecords_broken (h : Broken contents s) (rs : List (Tm × Record)) :
    Ends (fun _ s' => Broken contents s' ∧ (s.pending ≠ [] ∨ rs ≠ [] → s'.pending ≠ []))
      (fun _ s' => Broken contents s') (stageRecords io rs s) := by
  induction rs generalizing s with
  | nil => exact .ok ⟨h, by simp⟩
  | cons r rs ih =>
    unfold stageRecords stageRecord
    refine .bind (Q := fun _ s' => Broken contents s' ∧ s'.pending ≠ []) ?_ ?_
    · refine .bind (rollIfNeeded_broken h _ _) ?_
      rintro ⟨⟩ s₁ rfl
      rw [get_bind, set_bind]
      exact .ok ⟨⟨h.failed, h.opened, h.contents⟩, by simp⟩
    · rintro placement s₁ ⟨h₁, hstaged⟩
      refine .bind (ih h₁) ?_
      rintro placements s₂ ⟨h₂, hstaged₂⟩
      exact .ok ⟨h₂, fun _ => hstaged₂ (.inl hstaged)⟩

/-- Nothing is written to a stream that has failed, and nobody is told otherwise. -/
theorem attempt_broken (h : Broken contents s) (io : Io) (call : SinkCall) :
    Broken contents (call.attempt io s).2 ∧
      ((call.attempt io s).1 = none → call = .writeBatch [] ∧ s.pending = []) := by
  cases call with
  | writeBatch rs =>
    have hends : Ends (fun _ s' => Broken contents s' ∧ rs = [] ∧ s.pending = [])
        (fun _ s' => Broken contents s') (FileSink.writeBatch io rs s) := by
      unfold FileSink.writeBatch
      refine .bind (stageRecords_broken h rs) ?_
      rintro placements s₁ ⟨h₁, hstaged⟩
      refine .bind (flushPending_broken h₁) ?_
      rintro ⟨⟩ s₂ ⟨rfl, hnil⟩
      have hnothing : ¬(s.pending ≠ [] ∨ rs ≠ []) := fun hsome => hstaged hsome hnil
      push Not at hnothing
      exact .ok ⟨h₁, hnothing.2, hnothing.1⟩
    simp only [SinkCall.attempt]
    rcases hends.caught with ⟨_, -, hs', hrs, hnil⟩ | ⟨e, hsome, hs'⟩
    · exact ⟨hs', fun _ => ⟨by rw [hrs], hnil⟩⟩
    · exact ⟨hs', by simp [hsome]⟩
  | flush =>
    simp only [SinkCall.attempt]
    rcases (flush_broken h io).caught with ⟨_, -, hfalse⟩ | ⟨e, hsome, hs'⟩
    · exact hfalse.elim
    · exact ⟨hs', by simp [hsome]⟩

/-- Whatever the operating system refuses to a file sink and however long its caller goes on:
every call ends; what reaches the files is, in the order in which it gets there, a prefix of
whole lines of records in their order, and of all records if no call has thrown; and once the
stream has failed the files hold what they hold, and every call with something to do throws. -/
theorem failing_output {maxFileSize writeBatchSize : ℕ} {localTime : Tm} {calls : List SinkCall}
    {outcomes : List (Option SinkError)}
    (hmake : makeFileSink io basePath maxFileSize writeBatchSize localTime directory = .ok s)
    (hrun : FileSink.endure io calls s = (outcomes, s')) :
    some .outOfFuel ∉ outcomes ∧
      (∃ texts bytes, texts.Sublist ((calls.flatMap SinkCall.records).map (·.2.text)) ∧
        Reached (onDisk directory) (s'.close io).directory bytes ∧
        bytes <+: Framing.terminate '\n' texts) ∧
      ((∀ outcome ∈ outcomes, outcome = none) →
        ∃ bytes, Reached (onDisk directory) s'.directory bytes ∧ bytes ++ s'.out.buffer =
          Framing.terminate '\n' ((calls.flatMap SinkCall.records).map (·.2.text))) ∧
      (s'.out.good = false → ∀ call : SinkCall, (call.attempt io s').2.out.good = false ∧
        (∀ p, content (onDisk (call.attempt io s').2.directory) p =
          content (onDisk s'.directory) p) ∧
        ((call.attempt io s').1 = none → call = .writeBatch [])) := by
  obtain ⟨hjournal, hnil, hgood⟩ := makeFileSink_journal hmake
  obtain ⟨⟨texts, htexts, hend⟩, hfuel, hall⟩ := endure_journal hjournal io calls
  simp only [hrun] at hend hfuel hall
  refine ⟨hfuel, ?_, fun hnone => ?_, fun hbad call => ?_⟩
  · obtain ⟨bytes, hreached, hprefix⟩ := hend.close io
    exact ⟨texts, bytes, htexts, hreached, by simpa using hprefix⟩
  · obtain ⟨hend', hnil', hgood'⟩ := hall hnone hnil hgood
    obtain ⟨bytes, hreached, -, hwhole⟩ := hend'.order
    exact ⟨bytes, hreached, by simpa [hnil'] using hwhole hgood'⟩
  · obtain ⟨path, hpath, -⟩ := hend.opened
    have hbroken : Broken (content (onDisk s'.directory)) s' :=
      ⟨hbad, by simp [hpath], fun _ => rfl⟩
    obtain ⟨hafter, hnothing⟩ := attempt_broken hbroken io call
    exact ⟨hafter.failed, hafter.contents, fun hnone => (hnothing hnone).1⟩

/-- A disk with room for writes of three bytes. -/
def fullDisk : Io :=
  { calmIo with writes := fun _ _ bytes => decide (bytes.length ≤ 3), spill := List.length }

/-- The second batch cannot be written. -/
def fullDiskCalls : List SinkCall :=
  [.writeBatch [(epochDay 1, shortRecord "mn")],
    .writeBatch [(epochDay 1, shortRecord "op"), (epochDay 1, shortRecord "qr")], .flush]

theorem failing_output_full :
    ∃ s s' outcomes, makeFileSink fullDisk "app".toList 100 256 (epochDay 1) ∅ = .ok s ∧
      FileSink.endure fullDisk fullDiskCalls s = (outcomes, s') ∧
      (SinkCall.flush.attempt fullDisk s').1 ≠ none ∧
      ∃ texts bytes, texts.Sublist ["mn".toList, "op".toList, "qr".toList] ∧
        Reached (onDisk ∅) (s'.close fullDisk).directory bytes ∧
        bytes <+: Framing.terminate '\n' texts := by
  obtain ⟨s, hmake⟩ : ∃ s, makeFileSink fullDisk "app".toList 100 256 (epochDay 1) ∅ = .ok s :=
    ⟨_, rfl⟩
  have hbad : (makeFileSink fullDisk "app".toList 100 256 (epochDay 1) ∅).toOption.map
      (fun s => (FileSink.endure fullDisk fullDiskCalls s).2.out.good) = some false := by
    decide +kernel
  rw [hmake] at hbad
  obtain ⟨-, hreached, -, hbroken⟩ := failing_output hmake
    (rfl : FileSink.endure fullDisk fullDiskCalls s = _)
  refine ⟨s, _, _, hmake, rfl, fun hnone => ?_, hreached⟩
  cases (hbroken (Option.some.inj hbad) .flush).2.2 hnone

end CppLogger
