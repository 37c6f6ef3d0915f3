import CppLogger.Foundation.Search
import CppLogger.Logger.Timestamps

/-!
# A line tells its record

The parts of a line are not quoted, so a line can be taken apart only because of what the
parts do not contain: no bracket in the timestamp, the level and the numbers, and no
bracket followed by a blank in the file name. The message comes last and may contain
anything.
-/

namespace CppLogger

/-- What a line says about its record. -/
structure Fields where
  timestamp : Text
  level : LogLevel
  hash : ℕ
  file : Text
  line : ℤ
  message : Text
  deriving DecidableEq, Repr

def readDigits (digits : Text) : ℕ := Nat.ofDigitChars 10 digits 0

def readInteger : Text → ℤ
  | '-' :: digits => -(readDigits digits : ℤ)
  | digits => readDigits digits

def readLevel (text : Text) : Option LogLevel :=
  [LogLevel.DEBUG, .INFO, .WARN, .ERROR, .FATAL].find? fun level =>
    decide (levelToString level = text)

/-- Take a line apart: three fields that end at their closing brackets, the place up to the
first bracket followed by a blank, and in it the line number behind the last colon. -/
def decode (text : Text) : Option Fields := do
  let rest ← text.dropPrefix? ['[']
  let timestamp := rest.takeWhile (· ≠ ']')
  let rest ← (rest.dropWhile (· ≠ ']')).dropPrefix? "][".toList
  let level ← readLevel (rest.takeWhile (· ≠ ']'))
  let rest ← (rest.dropWhile (· ≠ ']')).dropPrefix? "][tid:".toList
  let hash := readDigits (rest.takeWhile (· ≠ ']'))
  let rest ← (rest.dropWhile (· ≠ ']')).dropPrefix? "][".toList
  let (place, message) ← rest.dropInfix? "] ".toList
  let file := (place.rdropWhile (· ≠ ':')).dropLast
  let line := readInteger (place.rtakeWhile (· ≠ ':'))
  return { timestamp, level, hash, file, line, message }

theorem readDigits_decimal (n : ℕ) : readDigits (decimal n) = n := by
  rw [decimal_natCast, readDigits, Nat.ofDigitChars_ten_toDigits]

theorem readInteger_decimal (value : ℤ) : readInteger (decimal value) = value := by
  cases value with
  | ofNat n =>
    have hdash : '-' ∉ decimal n := by
      rw [decimal_natCast]
      intro hmem
      exact absurd (Nat.isDigit_of_mem_toDigits (by decide) (by decide) hmem) (by decide)
    have hread := readDigits_decimal n
    rw [Int.ofNat_eq_natCast]
    unfold readInteger
    split
    · next digits heq => simp [heq] at hdash
    · rw [hread]
  | negSucc n =>
    rw [decimal_negSucc]
    change -(readDigits (Nat.toDigits 10 (n + 1)) : ℤ) = _
    rw [readDigits, Nat.ofDigitChars_ten_toDigits]
    rfl

theorem readLevel_levelToString {level : LogLevel} (h : isValidLogLevel level = true) :
    readLevel (levelToString level) = some level := by
  cases level with
  | other value => cases h
  | _ => decide

/-- The place of a record ends at the first bracket that a blank follows. -/
theorem dropInfix_place {file message : Text} (hfile : ¬"] ".toList <:+: file) (line : ℤ) :
    (file ++ ':' :: decimal line ++ "] ".toList ++ message).dropInfix? "] ".toList =
      some (file ++ ':' :: decimal line, message) := by
  have hnumber : ']' ∉ ':' :: decimal line := by
    simp [not_mem_decimal (c := ']') (by decide) (by decide)]
  rw [List.dropInfix?_eq_some_iff]
  refine ⟨⟨_, rfl, by simp⟩, fun before word after h hword => ?_⟩
  obtain rfl : word = "] ".toList := by simpa using hword
  rw [List.append_assoc (file ++ _)] at h
  rcases Search.place h with ⟨rest, hplace⟩ | ⟨rest, hbefore, -⟩ | ⟨u, v, hu, hv, hw, -, hafter⟩
  · rcases Search.place hplace with ⟨rest', hin⟩ | ⟨rest', -, hin⟩ | ⟨u, v, hu, hv, hw, -, hin⟩
    · exact absurd ⟨before, rest', hin.symm⟩ hfile
    · exact absurd (hin ▸ by simp) hnumber
    · obtain ⟨-, rfl⟩ := Search.across_pair (x := ']') (y := ' ') hu hv hw
      simp at hin
  · simp [hbefore]
  · obtain ⟨-, rfl⟩ := Search.across_pair (x := ']') (y := ' ') hu hv hw
    simp at hafter

theorem dropPrefix_append (lead rest : Text) : (lead ++ rest).dropPrefix? lead = some rest :=
  List.dropPrefix?_append_of_beq rest (by simp)

theorem decode_assembleLine {Tid : Type*} (host : Host Tid) {timestamp : Text}
    (htimestamp : ']' ∉ timestamp) {record : LogRecord Tid}
    (hlevel : isValidLogLevel record.level = true) (hfile : ¬"] ".toList <:+: record.file) :
    decode (assembleLine host timestamp record) =
      some ⟨timestamp, record.level, host.hash record.threadId, record.file, record.line,
        record.message⟩ := by
  have hlevelText : ']' ∉ levelToString record.level := by
    cases hl : record.level with
    | other value => simp [hl, isValidLogLevel] at hlevel
    | _ => decide
  have hnumber : ∀ value : ℤ, ']' ∉ decimal value := not_mem_decimal (by decide) (by decide)
  have hcolon : ':' ∉ decimal record.line := not_mem_decimal (by decide) (by decide) _
  let place := record.file ++ ':' :: decimal record.line
  let afterHash := place ++ "] ".toList ++ record.message
  let afterLevel := decimal (host.hash record.threadId) ++ ']' :: ("[".toList ++ afterHash)
  let afterTime := levelToString record.level ++ ']' :: ("[tid:".toList ++ afterLevel)
  have hline : assembleLine host timestamp record =
      ['['] ++ (timestamp ++ ']' :: ("[".toList ++ afterTime)) := by
    simp [assembleLine, appendInteger, afterTime, afterLevel, afterHash, place]
  have hopen : ∀ rest, ']' :: ("[".toList ++ rest) = "][".toList ++ rest := fun _ => rfl
  have htid : ∀ rest, ']' :: ("[tid:".toList ++ rest) = "][tid:".toList ++ rest := fun _ => rfl
  have hplace : afterHash.dropInfix? "] ".toList = some (place, record.message) :=
    dropInfix_place hfile record.line
  unfold decode
  rw [hline, dropPrefix_append, Option.bind_eq_bind, Option.bind_some,
    Search.takeWhile_field htimestamp, Search.dropWhile_field htimestamp, hopen, dropPrefix_append]
  simp only [Option.bind_eq_bind, Option.bind_some]
  rw [Search.takeWhile_field hlevelText, Search.dropWhile_field hlevelText, htid, dropPrefix_append,
    readLevel_levelToString hlevel]
  simp only [Option.bind_some]
  rw [Search.takeWhile_field (hnumber _), Search.dropWhile_field (hnumber _), hopen,
    dropPrefix_append]
  simp only [Option.bind_some, hplace]
  rw [readDigits_decimal, Search.rtakeWhile_field hcolon, Search.rdropWhile_field hcolon,
    readInteger_decimal, List.dropLast_concat]
  rfl

theorem bracket_renderTime {Tid : Type*} (host : Host Tid) (timestamp : ℤ) :
    ']' ∉ renderTime host timestamp :=
  not_mem_appendMilliseconds (by decide) (by decide) (by decide)
    (not_mem_strftimeSecond (by decide) (by decide) (by decide) (by decide) _) timestamp

/-! ## The lines of the logger -/

variable {Tid : Type*}

/-- What the line of a call says: the timestamp as it is formatted, and the arguments. -/
def LogCall.fields (host : Host Tid) (cache : TimestampCache) (call : LogCall) (t : Tid)
    (now : ℤ) : Fields where
  timestamp := (formatTime host cache now).1
  level := call.level
  hash := host.hash t
  file := call.file.getD []
  line := call.line
  message := call.message

/-- The line of the record that a call captures. -/
def LogCall.text (host : Host Tid) (cache : TimestampCache) (call : LogCall) (t : Tid)
    (now : ℤ) : Text :=
  (formatMessage host cache (call.record t now)).1

theorem LogCall.record_file (call : LogCall) (t : Tid) (now : ℤ) :
    (call.record t now).file = call.file.getD [] := by
  unfold LogCall.record LogRecord.file
  cases call.fileHasStaticStorage <;> rfl

theorem LogCall.text_eq (host : Host Tid) (cache : TimestampCache) (call : LogCall) (t : Tid)
    (now : ℤ) : call.text host cache t now =
      assembleLine host (formatTime host cache now).1 (call.record t now) := rfl

/-- The line does not show where the file name is stored. -/
theorem LogCall.text_congr {host : Host Tid} {cache : TimestampCache} {call other : LogCall}
    {t : Tid} {now : ℤ} (h : call.fields host cache t now = other.fields host cache t now) :
    call.text host cache t now = other.text host cache t now := by
  have hfile := congrArg Fields.file h
  have hlevel := congrArg Fields.level h
  have hline := congrArg Fields.line h
  have hmessage := congrArg Fields.message h
  simp only [LogCall.fields] at hfile hlevel hline hmessage
  rw [text_eq, text_eq, assembleLine, assembleLine, record_file, record_file, hfile]
  simp only [LogCall.record, hlevel, hline, hmessage]

variable [Fintype Tid] [DecidableEq Tid] {hosts : ℕ → Host Tid} {s : LoggerState Tid}
variable {es : List (LoggerEvent Tid)}

/-- A line determines its record. Whatever the worker has formatted before, `decode` finds in
the line of a call by `log` or `logStatic` its fields, when the level is one of the five and
no blank follows a bracket in the file name. So calls with the same line have the same
fields, and calls with the same fields the same line, whichever way the file name is passed. -/
theorem line_determines_record (h : (restartedSystem hosts).Reaches .initial es s)
    (hworker : s.worker.isAbsent = false) :
    let host := s.hostOf hosts
    let determined := fun call : LogCall =>
      isValidLogLevel call.level = true ∧ ¬"] ".toList <:+: call.file.getD []
    (∀ call t now, determined call →
      decode (call.text host s.cache t now) = some (call.fields host s.cache t now)) ∧
    (∀ call other t u now later, determined call → determined other →
      call.text host s.cache t now = other.text host s.cache u later →
      call.fields host s.cache t now = other.fields host s.cache u later) ∧
    ∀ ticket ticket' level file file' line message t now, file.getD [] = file'.getD [] →
      LogCall.text host s.cache ⟨ticket, level, file, line, message, false⟩ t now =
        LogCall.text host s.cache ⟨ticket', level, file', line, message, true⟩ t now := by
  intro host determined
  have hdecode : ∀ call t now, determined call →
      decode (call.text host s.cache t now) = some (call.fields host s.cache t now) := by
    rintro call t now ⟨hlevel, hfile⟩
    have hbracket : ']' ∉ (formatTime host s.cache now).1 := by
      rw [(formatTime_valid ((reaches_cacheValid h).2 (.inl hworker)) now).1]
      exact bracket_renderTime _ _
    rw [LogCall.text_eq, decode_assembleLine host hbracket hlevel (by rwa [LogCall.record_file]),
      LogCall.record_file]
    rfl
  refine ⟨hdecode, fun call other t u now later hc ho heq => ?_, ?_⟩
  · have hsame := (hdecode call t now hc).symm.trans ((congrArg decode heq).trans
      (hdecode other u later ho))
    exact Option.some.inj hsame
  · intro ticket ticket' level file file' line message t now hfile
    exact LogCall.text_congr (by simp only [LogCall.fields, hfile])

/-- A file name and a message that look like parts of a line. -/
theorem line_determines_record_nested :
    ∃ es s, (restartedSystem movingHosts).Reaches .initial es s ∧
      let call : LogCall :=
        ⟨3, .WARN, some "a][b:7]".toList, -12, "] [INFO][c:1] d".toList, true⟩
      decode (call.text (s.hostOf movingHosts) s.cache .second (10 ^ 9)) =
        some (call.fields (s.hostOf movingHosts) s.cache .second (10 ^ 9)) := by
  have hrun : (restartedSystem movingHosts).Reaches .initial _ _ :=
    .of_schedule (initSchedule .first oneSink ++ formatSchedule) (by decide)
  exact ⟨_, _, hrun, (line_determines_record hrun (by decide)).1 _ .second (10 ^ 9)
    ⟨by decide, by decide⟩⟩

end CppLogger
