import CppLogger.Formatting.LogRecord
import CppLogger.Foundation.Paths
import CppLogger.Foundation.Rotation
import Mathlib.Data.List.AList
import Mathlib.Data.List.DropRight

/-!
# The file sink

Records are staged in `pending_` and handed to the output stream at every roll and at the
end of a batch; the stream has a buffer of its own in front of the file system. What the
operating system answers is in `Io`. A function of the sink that throws leaves the members
as they are at that moment, so the functions run in a state monad with exceptions. Besides
its result a batch yields the placement of each record, which only an observer sees.

The file index is an `int`; its overflow, after
`2 ^ 31` files of one day, is not modelled.
-/

namespace CppLogger

open Paths

/-- A `std::string` that is handed to a sink: no string is longer than `max_size()`. -/
structure Record where
  text : Text
  small : text.length < 2 ^ 63
  deriving DecidableEq

/-- The text of a date; it serves as a part of file names. -/
structure DateText where
  text : Text
  plain : '_' ∉ text
  deriving DecidableEq

/-- `currentDate()`, for what the clock shows. -/
def currentDate (localTime : Tm) : DateText :=
  ⟨strftimeDate localTime, not_mem_strftimeDate (by decide) (by decide) localTime⟩

/-- The files of a file system by their paths. -/
abbrev Directory := AList fun _ : Text => Text

/-- What the operating system answers: whether a request succeeds, the text of an error, and
how many bytes of its buffer a stream hands over when it is written to. -/
structure Io where
  createDirectories : Text → Bool
  reserve : ℕ → Bool
  fileSize : Directory → Text → Bool
  opens : Directory → Text → Bool
  writes : Directory → Text → Text → Bool
  flushes : Directory → Text → Text → Bool
  spill : Text → ℕ
  message : Text

/-- Every request succeeds. -/
structure Io.Succeeds (io : Io) : Prop where
  createDirectories : ∀ path, io.createDirectories path = true
  reserve : ∀ n, io.reserve n = true
  fileSize : ∀ directory path, io.fileSize directory path = true
  opens : ∀ directory path, io.opens directory path = true
  writes : ∀ directory path bytes, io.writes directory path bytes = true
  flushes : ∀ directory path bytes, io.flushes directory path bytes = true

/-- The exceptions of a sink. `outOfFuel` is none of them: it ends a loop of the model that
has not come to its end. -/
inductive SinkError
  | invalid_argument (what : Text)
  | runtime_error (what : Text)
  | bad_alloc
  | outOfFuel
  deriving DecidableEq, Repr

/-! ## Files -/

/-- Bytes at the end of a file, which is created if need be. -/
def appendTo (directory : Directory) (path bytes : Text) : Directory :=
  directory.insert path ((directory.lookup path).getD [] ++ bytes)

/-- `std::ofstream`: the file it has open, and what it has not yet handed over. -/
structure OutStream where
  path : Option Text := none
  buffer : Text := []
  good : Bool := true
  deriving DecidableEq, Repr

namespace OutStream

variable (io : Io) (directory : Directory) (out : OutStream)

def write (bytes : Text) : OutStream × Directory :=
  match out.path with
  | none => ({ out with good := false }, directory)
  | some path =>
    if out.good && io.writes directory path bytes then
      let buffer := out.buffer ++ bytes
      ({ out with buffer := buffer.drop (io.spill buffer) },
        appendTo directory path (buffer.take (io.spill buffer)))
    else ({ out with good := false }, directory)

def flush : OutStream × Directory :=
  match out.path with
  | none => (out, directory)
  | some path =>
    if out.good then
      if io.flushes directory path out.buffer then
        ({ out with buffer := [] }, appendTo directory path out.buffer)
      else ({ out with good := false }, directory)
    else (out, directory)

/-- `close` hands over what is left. -/
def close : OutStream × Directory :=
  match out.path with
  | none => (out, directory)
  | some path =>
    if io.flushes directory path out.buffer then
      ({ path := none, buffer := [], good := out.good }, appendTo directory path out.buffer)
    else ({ path := none, buffer := [], good := false }, directory)

end OutStream

/-! ## The sink -/

/-- The members of `FileSink`, and the file system it works on. `fileIndex` is an `int` in the
source (see `Ready.index_fits`). -/
structure FileSink where
  basePath : Text
  out : OutStream := {}
  currentDate : DateText
  pending : Text := []
  currentSize : ℕ := 0
  maxFileSize : ℕ
  fileIndex : ℕ := 0
  directory : Directory

/-- A function of the sink. -/
abbrev SinkM := EStateM SinkError FileSink

def makeLogFileName (basePath : Text) (currentDate : DateText) (fileIndex : ℕ) : Text :=
  joinPath (parentPath basePath)
    (filename basePath ++ '_' :: (currentDate.text ++ '_' :: (decimal fileIndex ++ ".log".toList)))

/-- `a - b` of unsigned integers. -/
def wordSub (a b : ℕ) : ℕ := word64 (a + wordBound - b)

variable (io : Io)

/-- The static `fileSize`: 0 for a file whose size cannot be had. -/
def fileSize (directory : Directory) (path : Text) : ℕ :=
  match directory.lookup path with
  | none => 0
  | some bytes => if io.fileSize directory path then word64 bytes.length else 0

def openNewLogFile : SinkM Unit := do
  let s ← get
  let filename := makeLogFileName s.basePath s.currentDate s.fileIndex
  let existingSize := fileSize io s.directory filename
  if !io.opens s.directory filename then
    throw (.runtime_error ("unable to open log file: ".toList ++ filename))
  -- The new stream is open from here on; the old one is still that of the sink.
  let s := { s with directory := appendTo s.directory filename [] }
  if s.out.path.isSome then
    let (out, directory) := s.out.flush io s.directory
    let s := { s with out, directory }
    if !out.good then
      set s
      throw (.runtime_error "unable to flush current log file".toList)
    let (_, directory) := s.out.close io s.directory
    set { s with out := { path := some filename }, directory, currentSize := existingSize }
  else
    set { s with out := { path := some filename }, currentSize := existingSize }

def flushPending : SinkM Unit := do
  let s ← get
  if s.pending = [] then
    return
  let (out, directory) := s.out.write io s.directory s.pending
  set { s with out, directory }
  if !out.good then
    throw (.runtime_error "failed to write log batch".toList)
  modify fun s => { s with pending := [] }

/-- The loop of `rollIfNeeded`. -/
def rollWhile (appendSize : ℕ) : ℕ → SinkM Unit
  | 0 => throw .outOfFuel
  | fuel + 1 => do
    let s ← get
    if s.currentSize > 0 ∧ (appendSize > s.maxFileSize ∨
        s.currentSize > wordSub s.maxFileSize appendSize) then
      flushPending io
      modify fun s => { s with fileIndex := s.fileIndex + 1 }
      openNewLogFile io
      rollWhile appendSize fuel

/-- `today` is what `currentDate()` returns. Every turn of the loop but the last leaves a
file behind that was there before, so their number bounds the turns. -/
def rollIfNeeded (today : DateText) (record : Record) : SinkM Unit := do
  let s ← get
  if today ≠ s.currentDate then
    flushPending io
    modify fun s => { s with currentDate := today, fileIndex := 0 }
    openNewLogFile io
  let s ← get
  rollWhile io (word64 (record.text.length + 1)) (s.directory.keys.length + 1)

/-- The files as they are once everything staged and buffered has been handed over. -/
def FileSink.files (s : FileSink) (path : Text) : Option Text :=
  if s.out.path = some path then
    (s.directory.lookup path).map fun bytes => bytes ++ s.out.buffer ++ s.pending
  else s.directory.lookup path

/-- One turn of the loop of `writeBatch`, with what the clock shows. -/
def stageRecord (r : Tm × Record) : SinkM (Rotation.Placement Text Char) := do
  rollIfNeeded io (CppLogger.currentDate r.1) r.2
  let s ← get
  set { s with
    pending := s.pending ++ r.2.text ++ ['\n']
    currentSize := word64 (s.currentSize + (r.2.text.length + 1)) }
  let path := s.out.path.getD []
  return ⟨path, (Rotation.content s.files path).length, r.2.text⟩

def stageRecords : List (Tm × Record) → SinkM (List (Rotation.Placement Text Char))
  | [] => return []
  | r :: rs => do
    let placement ← stageRecord io r
    let placements ← stageRecords rs
    return placement :: placements

def FileSink.writeBatch (records : List (Tm × Record)) :
    SinkM (List (Rotation.Placement Text Char)) := do
  let placements ← stageRecords io records
  flushPending io
  return placements

def FileSink.flush : SinkM Unit := do
  let s ← get
  if s.out.path.isSome then
    let (out, directory) := s.out.flush io s.directory
    set { s with out, directory }
    if !out.good then
      throw (.runtime_error "failed to flush log file".toList)

/-- `close` swallows every exception. -/
def FileSink.close (s : FileSink) : FileSink :=
  if s.out.path.isSome then
    let (out, directory) := s.out.flush io s.directory
    let (out, directory) := out.close io directory
    { s with out, directory }
  else s

def reservePending (writeBatchSize : ℕ) : Bool :=
  if writeBatchSize ≤ (wordBound - 1) / 256 then io.reserve (writeBatchSize * 256) else true

/-- The constructor. -/
def makeFileSink (basePath : Text) (maxFileSize writeBatchSize : ℕ) (localTime : Tm)
    (directory : Directory) : Except SinkError FileSink :=
  if basePath = [] ∨ maxFileSize = 0 then
    .error (.invalid_argument "file sink requires a non-empty path and positive file size".toList)
  else if parentPath basePath ≠ [] ∧ !io.createDirectories (parentPath basePath) then
    .error (.runtime_error ("unable to create log directory '".toList ++ parentPath basePath ++
      "': ".toList ++ io.message))
  else if !reservePending io writeBatchSize then .error .bad_alloc
  else
    match openNewLogFile io { basePath, currentDate := CppLogger.currentDate localTime, maxFileSize
                              directory } with
    | .ok _ s => .ok s
    | .error e _ => .error e

/-! ## Lifetimes -/

/-- What the worker asks of a sink. -/
inductive SinkCall
  | writeBatch (records : List (Tm × Record))
  | flush

/-- The records of some calls, in their order, each with what the clock shows. -/
def SinkCall.records : SinkCall → List (Tm × Record)
  | .writeBatch records => records
  | .flush => []

def FileSink.run : List SinkCall → SinkM (List (Rotation.Placement Text Char))
  | [] => return []
  | .writeBatch records :: calls => do
    let placements ← FileSink.writeBatch io records
    let rest ← FileSink.run calls
    return placements ++ rest
  | .flush :: calls => do
    FileSink.flush io
    FileSink.run calls

/-- A file sink from its construction to `close`. -/
structure Lifetime where
  localTime : Tm
  calls : List SinkCall

/-- The files that a lifetime leaves behind, and the placements of its records. -/
def Lifetime.run (basePath : Text) (maxFileSize writeBatchSize : ℕ) (life : Lifetime)
    (directory : Directory) : Except SinkError (Directory × List (Rotation.Placement Text Char)) :=
  match makeFileSink io basePath maxFileSize writeBatchSize life.localTime directory with
  | .error e => .error e
  | .ok s =>
    match FileSink.run io life.calls s with
    | .error e _ => .error e
    | .ok placements s => .ok ((s.close io).directory, placements)

/-- One lifetime after the other. -/
def runLifetimes (basePath : Text) (maxFileSize writeBatchSize : ℕ) :
    List Lifetime → Directory → Except SinkError (Directory × List (Rotation.Placement Text Char))
  | [], directory => .ok (directory, [])
  | life :: lives, directory =>
    match life.run io basePath maxFileSize writeBatchSize directory with
    | .error e => .error e
    | .ok (directory, placements) =>
      (runLifetimes basePath maxFileSize writeBatchSize lives directory).map fun r =>
        (r.1, placements ++ r.2)

end CppLogger
