import CppLogger.Foundation.Bytes

/-!
# Comma-separated values

A reader of RFC 4180: fields are separated by commas, records end with a line feed that a
carriage return may precede; a field in quotes may contain separators and line ends, and a
quote in it is written twice. The reader goes through the bytes once. A field followed by
one of its delimiters is read as soon as the delimiter is seen, so fields are studied one
at a time.
-/

namespace Csv

/-- Where the reader stands: before the first byte of a field, in a field without quotes,
between two quotes, or right after a quote that ends the field or is the first of two. -/
inductive Mode
  | start
  | plain
  | quoted
  | quote
  deriving DecidableEq, Repr

/-- Read one record, given what has been read of its current field and its fields before;
the result is the record and what follows it. -/
def readFrom (mode : Mode) (field : Text) (fields : List Text) :
    Text → Option (List Text × Text)
  | [] => if mode = .quoted then none else some (fields ++ [field], [])
  | c :: rest =>
    if mode = .quoted then
      if c = '"' then readFrom .quote field fields rest
      else readFrom .quoted (field ++ [c]) fields rest
    else if c = ',' then readFrom .start [] (fields ++ [field]) rest
    else if c = '\n' then some (fields ++ [field], rest)
    else if c = '\r' then
      -- A carriage return outside quotes is the first half of a line end.
      if rest.head? = some '\n' then some (fields ++ [field], rest.tail) else none
    else
      match mode with
      | .start =>
        if c = '"' then readFrom .quoted [] fields rest else readFrom .plain [c] fields rest
      | .plain => if c = '"' then none else readFrom .plain (field ++ [c]) fields rest
      | _ => if c = '"' then readFrom .quoted (field ++ ['"']) fields rest else none

def readRecord (text : Text) : Option (List Text × Text) := readFrom .start [] [] text

/-- The byte is no delimiter and no quote. -/
def Ordinary (c : Char) : Prop := c ≠ ',' ∧ c ≠ '"' ∧ c ≠ '\r' ∧ c ≠ '\n'

instance (c : Char) : Decidable (Ordinary c) := inferInstanceAs (Decidable (_ ∧ _))

/-- The text is read as itself. -/
def Plain (text : Text) : Prop := ∀ c ∈ text, Ordinary c

instance (text : Text) : Decidable (Plain text) := List.decidableBAll Ordinary text

/-- Every quote written twice. -/
def doubleQuotes (text : Text) : Text :=
  text.flatMap fun c => if c = '"' then ['"', '"'] else [c]

variable {c : Char} {field : Text} {fields : List Text} {rest : Text}

theorem Plain.append {a b : Text} (ha : Plain a) (hb : Plain b) : Plain (a ++ b) := by
  intro c hc
  rcases List.mem_append.mp hc with hc | hc
  · exact ha c hc
  · exact hb c hc

/-! ## One byte -/

theorem read_comma {mode : Mode} (hmode : mode ≠ .quoted) :
    readFrom mode field fields (',' :: rest) = readFrom .start [] (fields ++ [field]) rest := by
  simp [readFrom, hmode]

theorem read_newline {mode : Mode} (hmode : mode ≠ .quoted) :
    readFrom mode field fields ('\n' :: rest) = some (fields ++ [field], rest) := by
  simp [readFrom, hmode]

theorem read_start (hc : Ordinary c) :
    readFrom .start [] fields (c :: rest) = readFrom .plain [c] fields rest := by
  obtain ⟨hcomma, hquote, hreturn, hline⟩ := hc
  simp [readFrom, hcomma, hquote, hreturn, hline]

theorem read_plain (hc : Ordinary c) :
    readFrom .plain field fields (c :: rest) = readFrom .plain (field ++ [c]) fields rest := by
  obtain ⟨hcomma, hquote, hreturn, hline⟩ := hc
  simp [readFrom, hcomma, hquote, hreturn, hline]

theorem read_open : readFrom .start [] fields ('"' :: rest) = readFrom .quoted [] fields rest := by
  simp [readFrom]

theorem read_close :
    readFrom .quoted field fields ('"' :: rest) = readFrom .quote field fields rest := by
  simp [readFrom]

/-- A byte between quotes is written as `doubleQuotes` writes it. -/
theorem read_quoted (c : Char) :
    readFrom .quoted field fields (doubleQuotes [c] ++ rest) =
      readFrom .quoted (field ++ [c]) fields rest := by
  by_cases hc : c = '"'
  · subst hc
    simp [doubleQuotes, readFrom]
  · simp [doubleQuotes, readFrom, hc]

/-! ## One field -/

theorem read_plain_text {text : Text} (h : Plain text) :
    readFrom .plain field fields (text ++ rest) = readFrom .plain (field ++ text) fields rest := by
  induction text generalizing field with
  | nil => simp
  | cons c text ih =>
    obtain ⟨hc, htext⟩ := List.forall_mem_cons.mp h
    rw [List.cons_append, read_plain hc, ih htext]
    simp

theorem read_quoted_text (text : Text) :
    readFrom .quoted field fields (doubleQuotes text ++ rest) =
      readFrom .quoted (field ++ text) fields rest := by
  induction text generalizing field with
  | nil => simp [doubleQuotes]
  | cons c text ih =>
    have hsplit : doubleQuotes (c :: text) = doubleQuotes [c] ++ doubleQuotes text := by
      simp [doubleQuotes]
    rw [hsplit, List.append_assoc, read_quoted, ih]
    simp

/-- The text is read as the field, outside quotes at its end, whatever precedes it. -/
def Reads (text field : Text) : Prop :=
  ∀ fields, ∃ mode, mode ≠ .quoted ∧ ∀ rest,
    readFrom .start [] fields (text ++ rest) = readFrom mode field fields rest

theorem Plain.reads {text : Text} (h : Plain text) : Reads text text := by
  intro fields
  cases text with
  | nil => exact ⟨.start, by decide, fun _ => rfl⟩
  | cons c text =>
    obtain ⟨hc, htext⟩ := List.forall_mem_cons.mp h
    refine ⟨.plain, by decide, fun rest => ?_⟩
    rw [List.cons_append, read_start hc, read_plain_text htext]
    rfl

theorem quoted_reads (field : Text) : Reads ('"' :: doubleQuotes field ++ ['"']) field := by
  intro fields
  refine ⟨.quote, by decide, fun rest => ?_⟩
  rw [List.append_assoc, List.cons_append, read_open, read_quoted_text, List.singleton_append,
    read_close, List.nil_append]

/-! ## One record -/

/-- The fields of a record with a comma after each but the last. -/
def separate (texts : List Text) : Text := [','].intercalate texts

@[simp] theorem separate_singleton (text : Text) : separate [text] = text :=
  List.intercalate_singleton

@[simp] theorem separate_cons_cons (text next : Text) (texts : List Text) :
    separate (text :: next :: texts) = text ++ ',' :: separate (next :: texts) := by
  simp [separate, List.intercalate_cons_cons]

/-- The round trip: a line of fields is read as these fields. -/
theorem readFrom_separate {texts values : List Text} (h : List.Forall₂ Reads texts values)
    (hne : texts ≠ []) (rest : Text) :
    readFrom .start [] fields (separate texts ++ '\n' :: rest) = some (fields ++ values, rest) := by
  induction h generalizing fields with
  | nil => exact absurd rfl hne
  | @cons text value texts values htext htexts ih =>
    obtain ⟨mode, hmode, hread⟩ := htext fields
    cases htexts with
    | nil => rw [separate_singleton, hread, read_newline hmode]
    | @cons next value' texts values hnext htexts =>
      rw [separate_cons_cons, List.append_assoc, List.cons_append, hread, read_comma hmode,
        ih (by simp)]
      simp

theorem readRecord_separate {texts values : List Text} (h : List.Forall₂ Reads texts values)
    (hne : texts ≠ []) (rest : Text) :
    readRecord (separate texts ++ '\n' :: rest) = some (values, rest) :=
  readFrom_separate h hne rest

/-! ## Several records -/

/-- Read as many records. -/
def readRecords : ℕ → Text → Option (List (List Text) × Text)
  | 0, text => some ([], text)
  | count + 1, text => do
    let (record, rest) ← readRecord text
    let (records, rest) ← readRecords count rest
    return (record :: records, rest)

theorem readRecords_succ {count : ℕ} {text after : Text} {record : List Text}
    {records : List (List Text)} (h : readRecord text = some (record, rest))
    (hrest : readRecords count rest = some (records, after)) :
    readRecords (count + 1) text = some (record :: records, after) := by
  simp [readRecords, h, hrest]

/-- Lines that are read one by one are read together. -/
theorem readRecords_lines {lines : List Text} {records : List (List Text)}
    (h : List.Forall₂ (fun line record => ∀ rest, readRecord (line ++ rest) = some (record, rest))
      lines records) : readRecords records.length lines.flatten = some (records, []) := by
  induction h with
  | nil => rfl
  | cons hline _ ih =>
    rw [List.flatten_cons, List.length_cons]
    exact readRecords_succ (hline _) ih

/-- The value of a record in the column of that name. -/
def column (names values : List Text) (name : Text) : Option Text := values[names.idxOf name]?

end Csv
