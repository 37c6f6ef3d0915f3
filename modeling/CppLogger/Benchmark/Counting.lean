import CppLogger.Benchmark.Harness
import CppLogger.Foundation.Search

/-!
# Counting markers counts records

A marker has one opening bracket, its first byte, and one closing bracket, its last. So a
marker cannot begin in the text before a payload and end in the payload, a payload contains
no marker but its own, and two markers that begin at the same byte are equal. Contexts of
one process differ in the sequence number at the end of their markers.
-/

namespace CppLogger

/-- The text is in brackets and has no others. -/
def Bracketed (word : Text) : Prop :=
  ∃ body, word = '[' :: body ++ [']'] ∧ '[' ∉ body ∧ ']' ∉ body

namespace Bracketed

variable {word other padding head before after : Text}

/-- An occurrence that begins in a payload begins with it, and is its marker. -/
theorem in_payload (hword : Bracketed word) (hother : Bracketed other) (hpadding : '[' ∉ padding)
    (h : other ++ padding = before ++ word ++ after) : before = [] ∧ word = other := by
  obtain ⟨body, rfl, -, hbody⟩ := hword
  obtain ⟨otherBody, rfl, hopen, hotherBody⟩ := hother
  cases before with
  | nil =>
    have hrest : otherBody ++ ']' :: padding = body ++ ']' :: after := by simpa using h
    have hsame := congrArg (List.takeWhile (· ≠ ']')) hrest
    rw [Search.takeWhile_field hbody, Search.takeWhile_field hotherBody] at hsame
    exact ⟨rfl, by rw [hsame]⟩
  | cons c before =>
    exfalso
    have hrest : otherBody ++ ([']'] ++ padding) = before ++ ('[' :: body ++ [']']) ++ after := by
      simpa using (List.cons.inj h).2
    have hmem : '[' ∈ otherBody ++ ([']'] ++ padding) := by
      rw [hrest]
      simp
    simp [hopen, hpadding] at hmem

/-- Behind a text without the word, the word occurs only at the beginning of a payload, and
only of its own. -/
theorem occurrence (hword : Bracketed word) (hother : Bracketed other) (hpadding : '[' ∉ padding)
    (hhead : ¬word <:+: head) (h : head ++ (other ++ padding) = before ++ word ++ after) :
    before = head ∧ word = other := by
  rcases Search.place h with ⟨rest, hin⟩ | ⟨rest, hbefore, hin⟩ | ⟨u, v, hu, hv, hsplit, -, hin⟩
  · exact absurd ⟨before, rest, hin.symm⟩ hhead
  · obtain ⟨rfl, hsame⟩ := hword.in_payload hother hpadding hin
    exact ⟨by simpa using hbefore, hsame⟩
  · exfalso
    obtain ⟨body, hbracketed, hopen, -⟩ := hword
    obtain ⟨otherBody, rfl, -, -⟩ := hother
    obtain ⟨c, v, rfl⟩ := List.exists_cons_of_ne_nil hv
    obtain ⟨d, u, rfl⟩ := List.exists_cons_of_ne_nil hu
    have hc : c = '[' := by simpa [eq_comm] using (List.cons.inj hin).1
    rw [hbracketed] at hsplit
    have htail : body ++ [']'] = u ++ c :: v := by simpa using (List.cons.inj hsplit).2
    have hmem : '[' ∈ body ++ [']'] := by
      rw [htail, hc]
      simp
    simp [hopen] at hmem

end Bracketed

/-! ## The search -/

section Find

variable {line needle : Text} {offset k : ℕ}

theorem findFrom_eq_none (h : ∀ j, offset ≤ j → ¬needle <+: line.drop j) :
    findFrom line needle offset = none := by
  rw [findFrom, List.find?_eq_none]
  intro j hj
  simpa using h j (List.mem_range'_1.mp hj).1

/-- The only occurrence is found. -/
theorem findFrom_eq_some (hk : offset ≤ k) (hlength : k ≤ line.length)
    (h : ∀ j, needle <+: line.drop j ↔ j = k) : findFrom line needle offset = some k := by
  have hfound : (findFrom line needle offset).isSome = true := by
    rw [findFrom, List.find?_isSome]
    exact ⟨k, List.mem_range'_1.mpr ⟨hk, by omega⟩, by simpa using (h k).mpr rfl⟩
  obtain ⟨j, hj⟩ := Option.isSome_iff_exists.mp hfound
  have hoccurs := List.find?_some hj
  rw [hj, (h j).mp (by simpa using hoccurs)]

/-- No occurrence adds nothing. -/
theorem countMarkers_none (h : ∀ j, ¬needle <+: line.drop j) (fuel offset delivered : ℕ) :
    countMarkers line needle fuel offset delivered = .ok delivered := by
  cases fuel with
  | zero => rfl
  | succ fuel => rw [countMarkers, findFrom_eq_none fun j _ => h j]

/-- One occurrence adds one. -/
theorem countMarkers_once (hlength : k ≤ line.length) (hpos : 0 < needle.length)
    (h : ∀ j, needle <+: line.drop j ↔ j = k) {delivered : ℕ} (hroom : delivered < wordBound - 1)
    (fuel : ℕ) : countMarkers line needle (fuel + 1) 0 delivered = .ok (delivered + 1) := by
  rw [countMarkers, findFrom_eq_some (Nat.zero_le _) hlength h]
  simp only [hroom.ne, if_false]
  cases fuel with
  | zero => rfl
  | succ fuel =>
    rw [countMarkers, findFrom_eq_none]
    intro j hj hoccurs
    have := (h j).mp hoccurs
    omega

end Find

/-! ## The contexts of a process -/

/-- A name without brackets. -/
def PlainName (name : Text) : Prop := '[' ∉ name ∧ ']' ∉ name

instance (name : Text) : Decidable (PlainName name) := inferInstanceAs (Decidable (_ ∧ _))

/-- The library and the profile of a call have plain names. -/
def ContextCall.Plain (call : ContextCall) : Prop := PlainName call.library ∧ PlainName call.profile

instance (call : ContextCall) : Decidable call.Plain := inferInstanceAs (Decidable (_ ∧ _))

section Calls

variable {call other : ContextCall} {c : Char}

theorem not_mem_suffix (hdigit : c.isDigit = false) (hdash : c ≠ '-') (hunderscore : c ≠ '_')
    (hphase : ∀ phase, c ∉ runPhaseName phase) (n : ℕ) : c ∉ call.suffix n := by
  simp [ContextCall.suffix, hunderscore, hphase, not_mem_decimal hdigit hdash]

theorem bracket_runPhaseName (phase : RunPhase) :
    '[' ∉ runPhaseName phase ∧ ']' ∉ runPhaseName phase := by
  cases phase with
  | other value =>
    exact ⟨(by decide : '[' ∉ "unknown".toList), (by decide : ']' ∉ "unknown".toList)⟩
  | _ => decide

theorem ContextCall.Plain.bracketed (h : call.Plain) (n : ℕ) : Bracketed (call.marker n) := by
  obtain ⟨⟨hlibrary, hlibrary'⟩, hprofile, hprofile'⟩ := h
  have hopen : "[benchmark:".toList = '[' :: "benchmark:".toList := by decide
  have hmarker : call.marker n = '[' :: ("benchmark:".toList ++ call.library ++ [':'] ++
      call.profile ++ [':'] ++ call.suffix n) ++ [']'] := by
    unfold ContextCall.marker
    rw [hopen]
    simp only [List.append_assoc, List.cons_append]
  refine ⟨_, hmarker, ?_, ?_⟩
  · have hsuffix : '[' ∉ call.suffix n := not_mem_suffix (by decide) (by decide) (by decide)
      (fun phase => (bracket_runPhaseName phase).1) n
    simp [hlibrary, hprofile, hsuffix]
  · have hsuffix : ']' ∉ call.suffix n := not_mem_suffix (by decide) (by decide) (by decide)
      (fun phase => (bracket_runPhaseName phase).2) n
    simp [hlibrary', hprofile', hsuffix]

theorem marker_ne_nil (call : ContextCall) (n : ℕ) : call.marker n ≠ [] := by
  unfold ContextCall.marker
  exact List.append_ne_nil_of_right_ne_nil _ (List.cons_ne_nil _ _)

/-- The sequence number is what follows the last underscore. -/
theorem marker_number {m n : ℕ} (h : call.marker m = other.marker n) : m = n := by
  have hnumber : ∀ k : ℕ, '_' ∉ decimal k := fun k => not_mem_decimal (by decide) (by decide) k
  have hread : ∀ (call : ContextCall) (k : ℕ),
      (call.marker k).dropLast.rtakeWhile (· ≠ '_') = decimal k := by
    intro call k
    have hmarker : call.marker k = ("[benchmark:".toList ++ call.library ++ [':'] ++
        call.profile ++ [':'] ++ runPhaseName call.phase ++ ['_'] ++ decimal call.runIndex ++
        ['_'] ++ decimal call.timestamp ++ '_' :: decimal k) ++ [']'] := by
      unfold ContextCall.marker ContextCall.suffix
      simp only [List.append_assoc, List.cons_append, List.nil_append]
    rw [hmarker, List.dropLast_concat]
    exact Search.rtakeWhile_field (hnumber k)
  apply decimal_injective
  rw [← hread call m, h, hread other n]

/-- What a call that returns has built. -/
theorem buildContext_ok {n : ℕ} {context : RunContext} (h : call.buildContext n = .ok context) :
    context.outputDirectory = call.directory n ∧ context.marker = call.marker n ∧
      context.payload = call.payload n ∧ context.attempted < wordBound := by
  unfold ContextCall.buildContext ContextCall.appendPayload checkedToUint64 at h
  simp only [bind, Except.bind, throw, throwThe, MonadExceptOf.throw, pure, Except.pure] at h
  have hbound : 0 < wordBound := by decide
  split_ifs at h
  cases hcreate : call.createError <;> rw [hcreate] at h <;> cases h
  exact ⟨rfl, rfl, rfl, by dsimp only; omega⟩

theorem makeRunContext_ok {sequence : ℕ} {context : RunContext}
    (h : (call.makeRunContext sequence).1 = .ok context) :
    (call.makeRunContext sequence).2 = sequence + 1 ∧
      context.marker = call.marker (sequence + 1) ∧
      context.payload = call.payload (sequence + 1) := by
  unfold ContextCall.makeRunContext at h ⊢
  split at h
  · cases h
  · obtain ⟨-, hmarker, hpayload, -⟩ := buildContext_ok h
    exact ⟨rfl, hmarker, hpayload⟩

theorem makeRunContext_sequence (call : ContextCall) (sequence : ℕ) :
    sequence ≤ (call.makeRunContext sequence).2 ∧
      (call.makeRunContext sequence).2 ≤ sequence + 1 := by
  unfold ContextCall.makeRunContext
  split <;> simp

end Calls

/-- A context of a process is built by one of its calls, with a number of its own. The numbers
do not run away from the calls, so a process that makes fewer than `2 ^ 64` of them does not
wrap the sequence counter around. -/
theorem makeRunContexts_numbered {calls : List ContextCall} {sequence i : ℕ} {context : RunContext}
    (h : (makeRunContexts sequence calls)[i]? = some (.ok context)) :
    ∃ call ∈ calls, ∃ n, (sequence < n ∧ n ≤ sequence + calls.length) ∧
      context.marker = call.marker n ∧ context.payload = call.payload n := by
  induction calls generalizing sequence i with
  | nil => simp [makeRunContexts] at h
  | cons call calls ih =>
    cases i with
    | zero =>
      obtain ⟨-, hmarker, hpayload⟩ := makeRunContext_ok (Option.some.inj h)
      refine ⟨call, List.mem_cons_self, sequence + 1, ⟨Nat.lt_succ_self _, ?_⟩, hmarker, hpayload⟩
      rw [List.length_cons]
      omega
    | succ i =>
      obtain ⟨other, hother, n, hn, hbuilt⟩ := ih h
      have hsequence := makeRunContext_sequence call sequence
      refine ⟨other, List.mem_cons_of_mem _ hother, n, ?_, hbuilt⟩
      rw [List.length_cons]
      omega

/-- Different calls build different markers. -/
theorem makeRunContexts_distinct {calls : List ContextCall} {sequence i j : ℕ}
    {context other : RunContext} (hij : i < j)
    (hi : (makeRunContexts sequence calls)[i]? = some (.ok context))
    (hj : (makeRunContexts sequence calls)[j]? = some (.ok other)) :
    context.marker ≠ other.marker := by
  induction calls generalizing sequence i j with
  | nil => simp [makeRunContexts] at hi
  | cons call calls ih =>
    obtain ⟨j, rfl⟩ : ∃ j', j = j' + 1 := ⟨j - 1, by omega⟩
    cases i with
    | zero =>
      obtain ⟨hsequence, hmarker, -⟩ := makeRunContext_ok (Option.some.inj hi)
      have htail : (makeRunContexts (call.makeRunContext sequence).2 calls)[j]? =
          some (.ok other) := hj
      obtain ⟨call', -, n, hn, hmarker', -⟩ := makeRunContexts_numbered htail
      rw [hmarker, hmarker']
      intro heq
      have := marker_number heq
      omega
    | succ i => exact ih (by omega) hi hj

/-! ## Lines and files -/

/-- The line ends with the payload of the context. -/
def carries (context : RunContext) (line : Text) : Bool := decide (context.payload <:+ line)

/-- The line is a record: some text without the marker of the context, and the payload of the
context or of another one of the process. -/
def FormattedLine (contexts : List (Except HarnessError RunContext)) (context : RunContext)
    (line : Text) : Prop :=
  ∃ head, ∃ other : RunContext, .ok other ∈ contexts ∧ ¬context.marker <:+: head ∧
    line = head ++ other.payload

/-- The file is one of those that are inspected. -/
def DirectoryEntry.isLog (entry : DirectoryEntry) : Bool :=
  match entry.regular with
  | .ok true => decide (entry.extension = ".log".toList)
  | _ => false

/-- The file system reports no error for the entry, and the size of its file. -/
structure DirectoryEntry.Readable (entry : DirectoryEntry) : Prop where
  incremented : entry.incrementError = none
  inspected : ∀ message, entry.regular ≠ .error message
  size : entry.fileSize = .ok entry.content.length
  opens : entry.opens = true
  readable : entry.readable = true

/-- How many records of the context there are in a file. -/
def DirectoryEntry.records (context : RunContext) (entry : DirectoryEntry) : ℕ :=
  (getlines entry.content).countP (carries context)

section Process

variable {calls : List ContextCall} {sequence i j : ℕ} {context other : RunContext}
variable {head before after line : Text}

/-- A marker never matches across the beginning of a payload, in the middle of one, or in the
payload of another context. -/
theorem marker_occurrence (hplain : ∀ call ∈ calls, call.Plain)
    (hi : (makeRunContexts sequence calls)[i]? = some (.ok context))
    (hj : (makeRunContexts sequence calls)[j]? = some (.ok other))
    (hhead : ¬context.marker <:+: head)
    (h : head ++ other.payload = before ++ context.marker ++ after) : before = head ∧ i = j := by
  obtain ⟨call, hcall, m, -, hmarker, -⟩ := makeRunContexts_numbered hi
  obtain ⟨call', hcall', n, -, hmarker', hpayload'⟩ := makeRunContexts_numbered hj
  have hbracketed : Bracketed context.marker := hmarker ▸ (hplain call hcall).bracketed m
  have hbracketed' : Bracketed other.marker := hmarker' ▸ (hplain call' hcall').bracketed n
  rw [hpayload', ContextCall.payload, ← hmarker'] at h
  have hpadding : '[' ∉ List.replicate (call'.options.payloadSize - other.marker.length) 'x' := by
    simp [List.mem_replicate]
  obtain ⟨hbefore, hsame⟩ := hbracketed.occurrence hbracketed' hpadding hhead h
  refine ⟨hbefore, ?_⟩
  rcases lt_trichotomy i j with hlt | heq | hgt
  · exact absurd hsame (makeRunContexts_distinct hlt hi hj)
  · exact heq
  · exact absurd hsame.symm (makeRunContexts_distinct hgt hj hi)

theorem payload_starts (hi : (makeRunContexts sequence calls)[i]? = some (.ok context)) :
    context.marker <+: context.payload ∧ 0 < context.marker.length := by
  obtain ⟨call, -, n, -, hmarker, hpayload⟩ := makeRunContexts_numbered hi
  constructor
  · rw [hpayload, ContextCall.payload, hmarker]
    exact List.prefix_append _ _
  · rw [hmarker]
    exact List.length_pos_of_ne_nil (marker_ne_nil call n)

/-- The positions of the marker in a line. -/
theorem marker_positions (hplain : ∀ call ∈ calls, call.Plain)
    (hi : (makeRunContexts sequence calls)[i]? = some (.ok context))
    (hj : (makeRunContexts sequence calls)[j]? = some (.ok other))
    (hhead : ¬context.marker <:+: head) (k : ℕ) :
    context.marker <+: (head ++ other.payload).drop k ↔ k = head.length ∧ i = j := by
  obtain ⟨hstarts, hpos⟩ := payload_starts hi
  constructor
  · rintro ⟨after, hafter⟩
    have hk : k ≤ (head ++ other.payload).length := by
      by_contra hlong
      have hlength := congrArg List.length hafter
      rw [List.length_append, List.length_drop] at hlength
      omega
    have hline : head ++ other.payload =
        (head ++ other.payload).take k ++ context.marker ++ after := by
      rw [List.append_assoc, hafter, List.take_append_drop]
    obtain ⟨htake, hsame⟩ := marker_occurrence hplain hi hj hhead hline
    have hlength := congrArg List.length htake
    rw [List.length_take, min_eq_left hk] at hlength
    exact ⟨hlength, hsame⟩
  · rintro ⟨rfl, rfl⟩
    obtain rfl : context = other := by
      rw [hi] at hj
      exact Except.ok.inj (Option.some.inj hj)
    rwa [List.drop_left]

/-- A line carries the payload exactly when it is the payload it was made with. -/
theorem carries_iff (hplain : ∀ call ∈ calls, call.Plain)
    (hi : (makeRunContexts sequence calls)[i]? = some (.ok context))
    (hj : (makeRunContexts sequence calls)[j]? = some (.ok other))
    (hhead : ¬context.marker <:+: head) :
    carries context (head ++ other.payload) = true ↔ i = j := by
  rw [carries, decide_eq_true_eq]
  constructor
  · rintro ⟨before, hbefore⟩
    obtain ⟨padding, hpadding⟩ := (payload_starts hi).1
    have hline : head ++ other.payload = before ++ context.marker ++ padding := by
      rw [← hbefore, ← hpadding, List.append_assoc]
    exact (marker_occurrence hplain hi hj hhead hline).2
  · rintro rfl
    obtain rfl : context = other := by
      rw [hi] at hj
      exact Except.ok.inj (Option.some.inj hj)
    exact List.suffix_append _ _

/-- The loop over a line counts it when it carries the payload. -/
theorem countMarkers_line (hplain : ∀ call ∈ calls, call.Plain)
    (hi : (makeRunContexts sequence calls)[i]? = some (.ok context))
    (hline : FormattedLine (makeRunContexts sequence calls) context line) {delivered : ℕ}
    (hroom : delivered + (if carries context line then 1 else 0) ≤ wordBound - 1) :
    countMarkers line context.marker (line.length + 1) 0 delivered =
      .ok (delivered + if carries context line then 1 else 0) := by
  obtain ⟨head, other, hother, hhead, rfl⟩ := hline
  obtain ⟨j, hj⟩ := List.mem_iff_getElem?.mp hother
  have hpositions := marker_positions hplain hi hj hhead
  by_cases hsame : i = j
  · have hcarries := (carries_iff hplain hi hj hhead).mpr hsame
    simp only [hcarries, if_true] at hroom ⊢
    refine countMarkers_once (k := head.length) (by simp) (payload_starts hi).2 (fun k => ?_)
      (by omega) _
    rw [hpositions k, and_iff_left hsame]
  · have hcarries : carries context (head ++ other.payload) = false := by
      rw [Bool.eq_false_iff, ne_eq, carries_iff hplain hi hj hhead]
      exact hsame
    simp only [hcarries]
    exact countMarkers_none (fun k hk => hsame ((hpositions k).mp hk).2) _ _ _

theorem countLines_eq (hplain : ∀ call ∈ calls, call.Plain)
    (hi : (makeRunContexts sequence calls)[i]? = some (.ok context)) {lines : List Text}
    (hlines : ∀ line ∈ lines, FormattedLine (makeRunContexts sequence calls) context line)
    {delivered : ℕ} (hroom : delivered + lines.countP (carries context) ≤ wordBound - 1) :
    countLines context.marker lines delivered =
      .ok (delivered + lines.countP (carries context)) := by
  induction lines generalizing delivered with
  | nil => rfl
  | cons line lines ih =>
    obtain ⟨hline, hrest⟩ := List.forall_mem_cons.mp hlines
    rw [List.countP_cons] at hroom ⊢
    have hfirst : delivered + (if carries context line then 1 else 0) ≤ wordBound - 1 := by omega
    rw [countLines, countMarkers_line hplain hi hline hfirst]
    change countLines context.marker lines _ = _
    rw [ih hrest (by omega)]
    congr 1
    omega

/-- A file has room for its lines. -/
theorem getlines_length (content : Text) :
    ((getlines content).map List.length).sum ≤ content.length := by
  have hjoin : ∀ pieces : List Text,
      (pieces.map List.length).sum ≤ (['\n'].intercalate pieces).length := by
    intro pieces
    induction pieces with
    | nil => simp
    | cons piece pieces ih =>
      cases pieces with
      | nil => simp
      | cons next pieces =>
        rw [List.intercalate_cons_cons, List.map_cons, List.sum_cons, List.length_append,
          List.length_append]
        omega
  have hpieces := hjoin (content.splitOn '\n')
  rw [List.intercalate_splitOn] at hpieces
  refine le_trans ?_ hpieces
  unfold getlines
  dsimp only
  split_ifs
  · exact List.Sublist.sum_le_sum ((List.dropLast_sublist _).map _) fun _ _ => Nat.zero_le _
  · exact le_rfl

/-- There are no more records of a context than bytes. -/
theorem records_le (hi : (makeRunContexts sequence calls)[i]? = some (.ok context))
    (entry : DirectoryEntry) : entry.records context ≤ entry.content.length := by
  obtain ⟨⟨padding, hpadding⟩, hpos⟩ := payload_starts hi
  have hcount : ∀ lines : List Text,
      lines.countP (carries context) ≤ (lines.map List.length).sum := by
    intro lines
    induction lines with
    | nil => simp
    | cons line lines ih =>
      rw [List.countP_cons, List.map_cons, List.sum_cons]
      have hline : (if carries context line then 1 else 0) ≤ line.length := by
        split_ifs with hcarries
        · have hsuffix : context.payload <:+ line := by simpa [carries] using hcarries
          have hlength := hsuffix.length_le
          rw [← hpadding, List.length_append] at hlength
          omega
        · exact Nat.zero_le _
      omega
  exact (hcount _).trans (getlines_length _)

/-- What one entry adds. -/
theorem inspectEntry_eq (hplain : ∀ call ∈ calls, call.Plain)
    (hi : (makeRunContexts sequence calls)[i]? = some (.ok context)) {entry : DirectoryEntry}
    (hentry : entry.Readable)
    (hlines : entry.isLog = true → ∀ line ∈ getlines entry.content,
      FormattedLine (makeRunContexts sequence calls) context line) {stats : OutputStats}
    (hstats : stats.deliveredRecords ≤ stats.bytes) (hbytes : stats.bytes < wordBound) :
    inspectEntry context stats entry =
      if entry.isLog = true then
        if stats.bytes + entry.content.length < wordBound then
          .ok ⟨stats.deliveredRecords + entry.records context,
            stats.bytes + entry.content.length, stats.fileCount + 1⟩
        else .error (.runtime_error "benchmark output is too large to measure".toList)
      else .ok stats := by
  obtain ⟨hincrement, hinspect, hsize, hopens, hreadable⟩ := hentry
  unfold inspectEntry
  rw [hincrement]
  cases hregular : entry.regular with
  | error message => exact absurd hregular (hinspect message)
  | ok regular =>
    cases regular with
    | false => simp [DirectoryEntry.isLog, hregular]
    | true =>
      have hisLog : entry.isLog = decide (entry.extension = ".log".toList) := by
        rw [DirectoryEntry.isLog, hregular]
      by_cases hlog : entry.extension = ".log".toList
      · rw [decide_eq_true hlog] at hisLog
        simp only [hlog, ne_eq, not_true_eq_false, if_false, hsize, hisLog, if_true]
        by_cases hroom : stats.bytes + entry.content.length < wordBound
        · have hfew := records_le hi entry
          rw [if_neg (by omega), if_neg (by simp [hopens]), if_pos hroom,
            countLines_eq hplain hi (hlines hisLog) (by
              unfold DirectoryEntry.records at hfew
              omega)]
          simp [hreadable, bind, Except.bind, pure, Except.pure, DirectoryEntry.records]
        · rw [if_pos (by omega), if_neg hroom]
      · rw [decide_eq_false hlog] at hisLog
        simp only [hisLog, ne_eq, hlog, not_false_eq_true, if_true, Bool.false_eq_true, if_false]

/-- The loop over the directory adds up the files, and stops when their size does not fit in
its counter. -/
theorem inspectEntries_eq (hplain : ∀ call ∈ calls, call.Plain)
    (hi : (makeRunContexts sequence calls)[i]? = some (.ok context))
    {entries : List DirectoryEntry} (hentries : ∀ entry ∈ entries, entry.Readable)
    (hlines : ∀ entry ∈ entries, entry.isLog = true → ∀ line ∈ getlines entry.content,
      FormattedLine (makeRunContexts sequence calls) context line) {stats : OutputStats}
    (hstats : stats.deliveredRecords ≤ stats.bytes) (hbytes : stats.bytes < wordBound) :
    let logs := entries.filter DirectoryEntry.isLog
    let bytes := stats.bytes + (logs.map fun entry => entry.content.length).sum
    entries.foldlM (inspectEntry context) stats =
      if bytes < wordBound then
        .ok ⟨stats.deliveredRecords + (logs.map (DirectoryEntry.records context)).sum, bytes,
          stats.fileCount + logs.length⟩
      else .error (.runtime_error "benchmark output is too large to measure".toList) := by
  induction entries generalizing stats with
  | nil => simp [hbytes, pure, Except.pure]
  | cons entry entries ih =>
    obtain ⟨hentry, hrest⟩ := List.forall_mem_cons.mp hentries
    obtain ⟨hline, hlinesRest⟩ := List.forall_mem_cons.mp hlines
    have hfirst := inspectEntry_eq hplain hi hentry hline hstats hbytes
    dsimp only
    rw [List.foldlM_cons, hfirst]
    by_cases hlog : entry.isLog = true
    · rw [if_pos hlog, List.filter_cons_of_pos hlog]
      simp only [List.map_cons, List.sum_cons, List.length_cons]
      by_cases hroom : stats.bytes + entry.content.length < wordBound
      · have hfew := records_le hi entry
        let next : OutputStats := ⟨stats.deliveredRecords + entry.records context,
          stats.bytes + entry.content.length, stats.fileCount + 1⟩
        have hnext : next.deliveredRecords ≤ next.bytes := by
          dsimp only [next]
          omega
        have htail := ih hrest hlinesRest hnext hroom
        rw [if_pos hroom]
        change entries.foldlM (inspectEntry context) _ = _
        rw [htail]
        simp only [next, Nat.add_assoc, Nat.add_comm 1]
      · rw [if_neg hroom, if_neg (by omega)]
        rfl
    · rw [if_neg hlog, List.filter_cons_of_neg hlog]
      exact ih hrest hlinesRest hstats hbytes

end Process

section Deliveries

variable {calls : List ContextCall} {sequence i : ℕ} {context : RunContext}

/-- Marker counting counts records. Let the names of a process be free of brackets, and every
line of its log files be a record with the payload of one of its contexts. Then the output
of a context has as many delivered records as lines that carry its payload, unless the files
are too large for the byte counter. Behind a text without the marker, the marker occurs in
no payload but its own, and there only at the beginning. -/
theorem delivered_exact (hplain : ∀ call ∈ calls, call.Plain)
    (hi : (makeRunContexts sequence calls)[i]? = some (.ok context)) :
    (∀ entries : List DirectoryEntry, (∀ entry ∈ entries, entry.Readable) →
      (∀ entry ∈ entries, entry.isLog = true → ∀ line ∈ getlines entry.content,
        FormattedLine (makeRunContexts sequence calls) context line) →
      let logs := entries.filter DirectoryEntry.isLog
      let bytes := (logs.map fun entry => entry.content.length).sum
      inspectLogOutput context (.ok entries) =
        if bytes < wordBound then
          .ok { deliveredRecords := (logs.map (DirectoryEntry.records context)).sum
                bytes
                fileCount := logs.length }
        else .error (.runtime_error "benchmark output is too large to measure".toList)) ∧
    ∀ j other head, (makeRunContexts sequence calls)[j]? = some (.ok other) →
      ¬context.marker <:+: head →
      (∀ before after, head ++ other.payload = before ++ context.marker ++ after →
        before = head ∧ i = j) ∧
      (carries context (head ++ other.payload) = true ↔ i = j) := by
  refine ⟨fun entries hentries hlines => ?_, fun j other head hj hhead => ⟨?_, ?_⟩⟩
  · have hstats : ({} : OutputStats).deliveredRecords ≤ ({} : OutputStats).bytes := le_rfl
    have hbytes : ({} : OutputStats).bytes < wordBound := by decide
    have hfold := inspectEntries_eq hplain hi hentries hlines hstats hbytes
    simp only [Nat.zero_add] at hfold
    exact hfold
  · exact fun before after => marker_occurrence hplain hi hj hhead
  · exact carries_iff hplain hi hj hhead

end Deliveries

/-- A run is accepted only when delivered and dropped records add up to those attempted, and
the logger, if it counts them, has counted the same drops. -/
theorem finalizeRun_accounts {D : Type} {d : FloatingPoint D} {context : RunContext}
    {timing : ProducerTiming} {finished : ℤ} {expectedDropped : Option ℕ}
    {listing : Except Text (List DirectoryEntry)} {metrics : RunMetrics D}
    (h : finalizeRun d context timing finished expectedDropped listing = .ok metrics) :
    inspectLogOutput context listing = .ok metrics.output ∧
      metrics.delivered = metrics.output.deliveredRecords ∧
      metrics.delivered + metrics.dropped = context.attempted ∧
      ∀ expected ∈ expectedDropped, expected = metrics.dropped := by
  unfold finalizeRun at h
  cases houtput : inspectLogOutput context listing with
  | error e => simp [houtput, bind, Except.bind] at h
  | ok output =>
    simp only [houtput, bind, Except.bind, pure, Except.pure, throw, throwThe,
      MonadExceptOf.throw] at h
    split_ifs at h with hmore hdrops htimes
    cases h
    refine ⟨rfl, rfl, by dsimp only; omega, fun expected hexpected => ?_⟩
    simpa [Option.mem_def.mp hexpected] using hdrops

/-- A call with the shortest names. -/
def shortCall (runIndex : ℕ) : ContextCall where
  options := { payloadSize := 30 }
  library := ['l']
  profile := ['p']
  phase := .Measured
  runIndex := runIndex
  timestamp := 5

/-- A file with a record of each of two runs, and one that is not inspected. -/
theorem delivered_exact_two :
    let first := (shortCall 1).payload 1
    let second := (shortCall 2).payload 2
    let log : DirectoryEntry :=
      { path := "a.log".toList
        extension := ".log".toList
        fileSize := .ok 67
        content := ['['] ++ first ++ ['\n'] ++ "[t] ".toList ++ second ++ ['\n'] }
    let other : DirectoryEntry :=
      { path := "a.txt".toList, extension := ".txt".toList, fileSize := .ok 30, content := first }
    ∃ context : RunContext, context.payload = first ∧
      inspectLogOutput context (.ok [log, other]) = .ok ⟨1, 67, 1⟩ := by
  intro first second log other
  obtain ⟨context, contextOfSecond, hcontexts, hpayload, hmarker, hsecond⟩ :
      ∃ context other : RunContext,
        makeRunContexts 0 [shortCall 1, shortCall 2] = [.ok context, .ok other] ∧
          context.payload = first ∧ context.marker = (shortCall 1).marker 1 ∧
          other.payload = second := ⟨_, _, rfl, rfl, rfl, rfl⟩
  have hlines : getlines log.content = [['['] ++ first, "[t] ".toList ++ second] := by rfl
  have hplain : ∀ call ∈ [shortCall 1, shortCall 2], call.Plain := by decide
  have hi : (makeRunContexts 0 [shortCall 1, shortCall 2])[0]? = some (.ok context) := by
    rw [hcontexts]
    rfl
  have hreadable : ∀ entry ∈ [log, other], entry.Readable := by
    intro entry hentry
    rcases List.mem_pair.mp hentry with rfl | rfl <;> exact ⟨rfl, nofun, rfl, rfl, rfl⟩
  have hformatted : ∀ entry ∈ [log, other], entry.isLog = true → ∀ line ∈ getlines entry.content,
      FormattedLine (makeRunContexts 0 [shortCall 1, shortCall 2]) context line := by
    intro entry hentry hlog line hline
    rcases List.mem_pair.mp hentry with rfl | rfl
    · rw [hlines] at hline
      rw [hcontexts]
      rcases List.mem_pair.mp hline with rfl | rfl
      · exact ⟨['['], context, by simp, by rw [hmarker]; decide, by rw [hpayload]⟩
      · exact ⟨"[t] ".toList, contextOfSecond, by simp, by rw [hmarker]; decide, by rw [hsecond]⟩
    · exact absurd hlog (by decide)
  refine ⟨context, hpayload, ?_⟩
  rw [(delivered_exact hplain hi).1 [log, other] hreadable hformatted]
  have hcarries : carries context = fun line => decide (first <:+ line) := by
    funext line
    rw [carries, hpayload]
  unfold DirectoryEntry.records
  rw [hcarries]
  rfl

end CppLogger
