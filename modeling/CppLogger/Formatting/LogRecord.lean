import CppLogger.Foundation.Bytes

/-!
# Log records and their text

The producer captures a record, the worker formats it. The host supplies what the
program asks the operating system for: the local time of a second, and a number for a
thread. Times are nanoseconds since the epoch.
-/

namespace CppLogger

/-- `other` is a value cast from an integer outside the enumerators. -/
inductive LogLevel
  | DEBUG
  | INFO
  | WARN
  | ERROR
  | FATAL
  | other (value : ℤ)
  deriving DecidableEq, Repr

/-- `static_cast<int>(level)`. -/
def LogLevel.toInt : LogLevel → ℤ
  | .DEBUG => 0
  | .INFO => 1
  | .WARN => 2
  | .ERROR => 3
  | .FATAL => 4
  | .other value => value

/-- What the worker needs to format a message. `staticFile` is empty for `log`, which
copies the file name; `Tid` is `std::thread::id`. -/
structure LogRecord (Tid : Type*) where
  timestamp : ℤ
  level : LogLevel
  threadId : Tid
  staticFile : Option Text
  ownedFile : Text
  line : ℤ
  message : Text
  deriving DecidableEq, Repr

/-- The fields of `std::tm` that are printed. -/
structure Tm where
  tm_year : ℤ
  tm_mon : ℤ
  tm_mday : ℤ
  tm_hour : ℤ
  tm_min : ℤ
  tm_sec : ℤ
  deriving DecidableEq, Repr

structure Host (Tid : Type*) where
  toLocalTime : ℤ → Tm
  hash : Tid → ℕ

/-- The second rendered last, and whether there is one. -/
structure TimestampCache where
  cachedTimestampSecond : ℤ := 0
  cachedTimestampPrefix : Text := []
  hasCachedTimestampPrefix : Bool := false
  deriving DecidableEq, Repr

variable {Tid : Type*}

/-- `std::to_chars` in base ten. -/
def decimal (value : ℤ) : Text := (toString value).toList

def appendInteger (destination : Text) (value : ℤ) : Text := destination ++ decimal value

/-- A field of two digits, as `strftime` prints it. -/
def twoDigits (value : ℤ) : Text :=
  if 0 ≤ value ∧ value < 10 then '0' :: decimal value else decimal value

/-- `strftime` with `%Y-%m-%d`. -/
def strftimeDate (localTime : Tm) : Text :=
  decimal (localTime.tm_year + 1900) ++ '-' :: twoDigits (localTime.tm_mon + 1) ++
    '-' :: twoDigits localTime.tm_mday

/-- `strftime` with `%Y-%m-%d %H:%M:%S`. -/
def strftimeSecond (localTime : Tm) : Text :=
  strftimeDate localTime ++ ' ' :: twoDigits localTime.tm_hour ++ ':' :: twoDigits localTime.tm_min ++
    ':' :: twoDigits localTime.tm_sec

def levelToString : LogLevel → Text
  | .DEBUG => "DEBUG".toList
  | .INFO => "INFO".toList
  | .WARN => "WARN".toList
  | .ERROR => "ERROR".toList
  | .FATAL => "FATAL".toList
  | .other _ => "UNKNOWN".toList

/-- `system_clock::to_time_t`, which truncates towards zero. -/
def toTimeT (timestamp : ℤ) : ℤ := timestamp.tdiv (10 ^ 9)

/-- The part of `formatTime` that follows the second. -/
def appendMilliseconds (formatted : Text) (timestamp : ℤ) : Text :=
  let milliseconds := (timestamp.tdiv (10 ^ 6)).tmod 1000
  let formatted := formatted ++ ['.']
  let formatted := if milliseconds < 100 then formatted ++ ['0'] else formatted
  let formatted := if milliseconds < 10 then formatted ++ ['0'] else formatted
  appendInteger formatted milliseconds

def formatTime (host : Host Tid) (cache : TimestampCache) (timestamp : ℤ) :
    Text × TimestampCache :=
  let time := toTimeT timestamp
  let cache :=
    if cache.hasCachedTimestampPrefix = false ∨ time ≠ cache.cachedTimestampSecond then
      { cachedTimestampPrefix := strftimeSecond (host.toLocalTime time)
        cachedTimestampSecond := time
        hasCachedTimestampPrefix := true }
    else cache
  (appendMilliseconds cache.cachedTimestampPrefix timestamp, cache)

/-- The file name of a record, wherever it is stored. -/
def LogRecord.file (record : LogRecord Tid) : Text := record.staticFile.getD record.ownedFile

/-- What `formatMessage` builds around a rendered timestamp. -/
def assembleLine (host : Host Tid) (timestamp : Text) (record : LogRecord Tid) : Text :=
  let formatted := ['['] ++ timestamp ++ "][".toList ++ levelToString record.level ++
    "][tid:".toList
  let formatted := appendInteger formatted (host.hash record.threadId)
  let formatted := formatted ++ "][".toList ++ record.file ++ [':']
  let formatted := appendInteger formatted record.line
  formatted ++ "] ".toList ++ record.message

def formatMessage (host : Host Tid) (cache : TimestampCache) (record : LogRecord Tid) :
    Text × TimestampCache :=
  let (timestamp, cache) := formatTime host cache record.timestamp
  (assembleLine host timestamp record, cache)

/-! ## What the printed fields contain -/

theorem decimal_natCast (n : ℕ) : decimal (n : ℤ) = Nat.toDigits 10 n := Nat.toList_repr

theorem decimal_negSucc (n : ℕ) : decimal (Int.negSucc n) = '-' :: Nat.toDigits 10 (n + 1) := by
  have htext : toString (Int.negSucc n) = "-" ++ Nat.repr (n + 1) := rfl
  rw [decimal, htext, String.toList_append, Nat.toList_repr]
  rfl

theorem decimal_injective {m n : ℕ} (h : decimal (m : ℤ) = decimal n) : m = n := by
  rw [decimal_natCast, decimal_natCast] at h
  rw [← Nat.ofDigitChars_ten_toDigits (n := m), h, Nat.ofDigitChars_ten_toDigits]

section Printed

variable {c : Char} (hdigit : c.isDigit = false) (hdash : c ≠ '-')
include hdigit hdash

/-- Numbers are printed with digits and a sign. -/
theorem not_mem_decimal (value : ℤ) : c ∉ decimal value := by
  have hdigits : ∀ n, c ∉ Nat.toDigits 10 n := fun n hc => by
    have := Nat.isDigit_of_mem_toDigits (by decide) (by decide) hc
    simp [hdigit] at this
  cases value with
  | ofNat n =>
    rw [Int.ofNat_eq_natCast, decimal_natCast]
    exact hdigits n
  | negSucc n =>
    rw [decimal_negSucc, List.mem_cons, not_or]
    exact ⟨hdash, hdigits (n + 1)⟩

theorem not_mem_twoDigits (value : ℤ) : c ∉ twoDigits value := by
  have hzero : c ≠ '0' := by
    rintro rfl
    cases hdigit
  unfold twoDigits
  split_ifs <;> simp [hzero, not_mem_decimal hdigit hdash]

theorem not_mem_strftimeDate (localTime : Tm) : c ∉ strftimeDate localTime := by
  simp [strftimeDate, hdash, not_mem_decimal hdigit hdash, not_mem_twoDigits hdigit hdash]

theorem not_mem_strftimeSecond (hblank : c ≠ ' ') (hcolon : c ≠ ':') (localTime : Tm) :
    c ∉ strftimeSecond localTime := by
  simp [strftimeSecond, hblank, hcolon, not_mem_strftimeDate hdigit hdash,
    not_mem_twoDigits hdigit hdash]

theorem not_mem_appendMilliseconds (hpoint : c ≠ '.') {formatted : Text} (h : c ∉ formatted)
    (timestamp : ℤ) : c ∉ appendMilliseconds formatted timestamp := by
  have hzero : c ≠ '0' := by
    rintro rfl
    cases hdigit
  unfold appendMilliseconds appendInteger
  dsimp only
  split_ifs <;> simp [h, hpoint, hzero, not_mem_decimal hdigit hdash]

end Printed

/-! ## The cache does not show -/

/-- The cached text is that of the cached second. -/
def TimestampCache.Valid (host : Host Tid) (cache : TimestampCache) : Prop :=
  cache.hasCachedTimestampPrefix = true →
    cache.cachedTimestampPrefix = strftimeSecond (host.toLocalTime cache.cachedTimestampSecond)

/-- The timestamp without a cache. -/
def renderTime (host : Host Tid) (timestamp : ℤ) : Text :=
  appendMilliseconds (strftimeSecond (host.toLocalTime (toTimeT timestamp))) timestamp

/-- The line of a record without a cache. -/
def formatLine (host : Host Tid) (record : LogRecord Tid) : Text :=
  assembleLine host (renderTime host record.timestamp) record

variable {host : Host Tid} {cache : TimestampCache}

theorem formatTime_valid (h : cache.Valid host) (timestamp : ℤ) :
    (formatTime host cache timestamp).1 = renderTime host timestamp ∧
      (formatTime host cache timestamp).2.Valid host := by
  unfold formatTime renderTime
  dsimp only
  split_ifs with hmiss
  · exact ⟨rfl, fun _ => rfl⟩
  · obtain ⟨hhas, hsecond⟩ : cache.hasCachedTimestampPrefix = true ∧
        toTimeT timestamp = cache.cachedTimestampSecond := by simpa using hmiss
    exact ⟨by rw [h hhas, hsecond], h⟩

/-- A message formatted with a valid cache is the one formatted without. -/
theorem formatMessage_valid (h : cache.Valid host) (record : LogRecord Tid) :
    (formatMessage host cache record).1 = formatLine host record ∧
      (formatMessage host cache record).2.Valid host := by
  obtain ⟨htext, hvalid⟩ := formatTime_valid h record.timestamp
  refine ⟨?_, hvalid⟩
  change assembleLine host (formatTime host cache record.timestamp).1 record = _
  rw [htext, formatLine]

/-- The texts of some records, formatted one after the other. -/
def formatRecords (host : Host Tid) : TimestampCache → List (LogRecord Tid) → List Text
  | _, [] => []
  | cache, record :: records =>
    (formatMessage host cache record).1 :: formatRecords host (formatMessage host cache record).2 records

theorem formatRecords_valid (h : cache.Valid host) (records : List (LogRecord Tid)) :
    formatRecords host cache records = records.map (formatLine host) := by
  induction records generalizing cache with
  | nil => rfl
  | cons record records ih =>
    obtain ⟨htext, hvalid⟩ := formatMessage_valid h record
    rw [formatRecords, ih hvalid, htext, List.map_cons]

/-! ## Where a newline can come from -/

theorem newline_renderTime (host : Host Tid) (timestamp : ℤ) : '\n' ∉ renderTime host timestamp :=
  not_mem_appendMilliseconds (by decide) (by decide) (by decide)
    (not_mem_strftimeSecond (by decide) (by decide) (by decide) (by decide) _) timestamp

theorem newline_levelToString (level : LogLevel) : '\n' ∉ levelToString level := by
  cases level with
  | other value => exact (by decide : '\n' ∉ "UNKNOWN".toList)
  | _ => decide

/-- Neither the message nor the file name of the record has a newline in it. -/
def LogRecord.SingleLine (record : LogRecord Tid) : Prop :=
  '\n' ∉ record.file ∧ '\n' ∉ record.message

/-- All other parts of a line are free of newlines. -/
theorem newline_formatLine (host : Host Tid) (record : LogRecord Tid) :
    '\n' ∉ formatLine host record ↔ record.SingleLine := by
  have hnumber : ∀ value : ℤ, '\n' ∉ decimal value := not_mem_decimal (by decide) (by decide)
  have hopen : '\n' ∉ "][".toList := by decide
  have htid : '\n' ∉ "][tid:".toList := by decide
  have hclose : '\n' ∉ "] ".toList := by decide
  unfold formatLine assembleLine appendInteger LogRecord.SingleLine
  simp only [List.mem_append, List.mem_singleton, hnumber, hopen, htid, hclose,
    newline_renderTime, newline_levelToString, not_or, Char.reduceEq, false_or, or_false]

end CppLogger
