import CppLogger.Foundation.Bytes
import Mathlib.Data.Set.Finite.Basic
import Mathlib.Data.Finset.Interval
import Mathlib.Order.Interval.Finset.Nat

/-!
# Rotating append-only files

A writer appends records to numbered files, a series of files for each date. Before each
record it walks up the series of the day, from where it stands, to the first file with
room: one that is empty, or that the record does not take over the limit. The placements of
a run, the file and the size it had for each record, determine what becomes of the files.
-/

namespace Rotation

variable {δ α β : Type*}

/-- How files are named, how large they may get, and what ends a record. -/
structure Layout (δ α β : Type*) where
  name : δ → ℕ → α
  limit : ℕ
  sep : β
  distinct : ∀ {d e : δ} {i j : ℕ}, name d i = name e j → d = e ∧ i = j

/-- The bytes of a file; a file that does not exist has none. -/
def content (files : α → Option (List β)) (p : α) : List β := (files p).getD []

/-- A file that the record may be appended to. -/
def Room (limit : ℕ) (bytes record : List β) : Prop :=
  bytes.length = 0 ∨ bytes.length + record.length + 1 ≤ limit

instance (limit : ℕ) (bytes record : List β) : Decidable (Room limit bytes record) :=
  inferInstanceAs (Decidable (_ ∨ _))

/-- A record, the file it went to, and the size of the file before. -/
structure Placement (α β : Type*) where
  path : α
  size : ℕ
  record : List β
  deriving DecidableEq, Repr

/-- The records that went to a file. -/
def recordsAt [DecidableEq α] (p : α) (ps : List (Placement α β)) : List (List β) :=
  (ps.filter fun x => x.path = p).map Placement.record

variable [DecidableEq α]

/-- Bytes at the end of a file, which is created if need be. -/
def extend (files : α → Option (List β)) (p : α) (bytes : List β) : α → Option (List β) :=
  Function.update files p (some (content files p ++ bytes))

/-- Open a file for appending. -/
def touch (files : α → Option (List β)) (p : α) : α → Option (List β) := extend files p []

section Files

variable (files : α → Option (List β)) (p q : α) (bytes bytes' : List β)

theorem content_extend :
    content (extend files p bytes) = Function.update (content files) p (content files p ++ bytes) := by
  funext q
  by_cases hq : q = p
  · subst hq
    simp [content, extend]
  · simp [content, extend, Function.update_of_ne hq]

@[simp] theorem content_touch : content (touch files p) = content files := by
  simp [touch, content_extend]

variable {files p}

theorem touch_of_isSome (h : (files p).isSome = true) : touch files p = files := by
  obtain ⟨bytes, hbytes⟩ := Option.isSome_iff_exists.mp h
  have hsame : some (content files p ++ []) = files p := by simp [content, hbytes]
  rw [touch, extend, hsame, Function.update_eq_self]

@[simp] theorem extend_isSome (h : (files q).isSome = true) :
    (extend files p bytes q).isSome = true := by
  by_cases hq : q = p
  · subst hq
    simp [extend]
  · rwa [extend, Function.update_of_ne hq]

@[simp] theorem extend_extend :
    extend (extend files p bytes) p bytes' = extend files p (bytes ++ bytes') := by
  simp [extend, content]

omit [DecidableEq α] in
theorem isSome_of_content (h : content files p ≠ []) : (files p).isSome = true := by
  cases hf : files p with
  | none => simp [content, hf] at h
  | some bytes => rfl

omit [DecidableEq α] in
theorem content_ne_nil_of_not_room {limit : ℕ} {record : List β}
    (h : ¬ Room limit (content files p) record) : content files p ≠ [] := by
  intro hnil
  exact h (.inl (by simp [hnil]))

/-- Of the files opened on the way to `q` only `q` is new. -/
theorem touch_touch {q : α} (h : p = q ∨ content files p ≠ []) :
    touch (touch files p) q = touch files q := by
  rcases h with rfl | hne
  · exact extend_extend _ _
  · rw [touch_of_isSome (isSome_of_content hne)]

end Files

/-! ## What placements do to the files -/

section Placements

variable (limit : ℕ) (sep : β)

/-- The contents after one placement. -/
def place (c : α → List β) (x : Placement α β) : α → List β :=
  Function.update c x.path (c x.path ++ (x.record ++ [sep]))

/-- The contents after a run. -/
def after (c : α → List β) (ps : List (Placement α β)) : α → List β := ps.foldl (place sep) c

/-- Every record went to a file with room, whose size was taken down. -/
def Sound : (α → List β) → List (Placement α β) → Prop
  | _, [] => True
  | c, x :: ps => x.size = (c x.path).length ∧ Room limit (c x.path) x.record ∧
      Sound (place sep c x) ps

variable {limit sep} {c : α → List β} {ps qs : List (Placement α β)} {p : α}

@[simp] theorem after_nil (c : α → List β) : after sep c [] = c := rfl

@[simp] theorem after_cons (c : α → List β) (x : Placement α β) (ps : List (Placement α β)) :
    after sep c (x :: ps) = after sep (place sep c x) ps := rfl

theorem after_append : after sep c (ps ++ qs) = after sep (after sep c ps) qs := List.foldl_append

theorem Sound.append (h : Sound limit sep c ps) (h' : Sound limit sep (after sep c ps) qs) :
    Sound limit sep c (ps ++ qs) := by
  induction ps generalizing c with
  | nil => exact h'
  | cons x ps ih => exact ⟨h.1, h.2.1, ih h.2.2 h'⟩

theorem recordsAt_cons_self {x : Placement α β} (h : x.path = p) :
    recordsAt p (x :: ps) = x.record :: recordsAt p ps := by
  simp [recordsAt, h]

theorem recordsAt_cons_of_ne {x : Placement α β} (h : x.path ≠ p) :
    recordsAt p (x :: ps) = recordsAt p ps := by
  simp [recordsAt, h]

/-- Over files that hold all placements, the records are summed up once each. -/
theorem sum_recordsAt {paths : List α} (weight : List β → ℕ) (hnodup : paths.Nodup)
    (hall : ∀ x ∈ ps, x.path ∈ paths) :
    (paths.map fun p => ((recordsAt p ps).map weight).sum).sum =
      (ps.map fun x => weight x.record).sum := by
  induction ps with
  | nil => simp [recordsAt]
  | cons x ps ih =>
    obtain ⟨hx, hrest⟩ := List.forall_mem_cons.mp hall
    have hfirst : (paths.map fun p => if p = x.path then weight x.record else 0).sum =
        weight x.record := by
      rw [List.sum_map_eq_nsmul_single x.path _ fun p hp _ => if_neg hp,
        List.count_eq_one_of_mem hnodup hx, if_pos rfl, one_nsmul]
    have hsplit : ∀ p, ((recordsAt p (x :: ps)).map weight).sum =
        (if p = x.path then weight x.record else 0) + ((recordsAt p ps).map weight).sum := by
      intro p
      by_cases hp : x.path = p
      · rw [recordsAt_cons_self hp, if_pos hp.symm, List.map_cons, List.sum_cons]
      · rw [recordsAt_cons_of_ne hp, if_neg (Ne.symm hp), Nat.zero_add]
    simp only [hsplit, List.sum_map_add, hfirst, ih hrest, List.map_cons,
      List.sum_cons]

theorem place_self {x : Placement α β} (h : x.path = p) :
    place sep c x p = c p ++ (x.record ++ [sep]) := by
  subst h
  simp [place]

theorem place_of_ne {x : Placement α β} (h : x.path ≠ p) : place sep c x p = c p := by
  rw [place, Function.update_of_ne (Ne.symm h)]

/-- A file ends as its initial bytes followed by whole records, each with its separator. -/
theorem after_eq (c : α → List β) (ps : List (Placement α β)) (p : α) :
    after sep c ps p = c p ++ Framing.terminate sep (recordsAt p ps) := by
  induction ps generalizing c with
  | nil => simp [recordsAt]
  | cons x ps ih =>
    rw [after_cons, ih]
    by_cases hx : x.path = p
    · rw [place_self hx, recordsAt_cons_self hx]
      simp [Framing.terminate]
    · rw [place_of_ne hx, recordsAt_cons_of_ne hx]

/-- In the middle of a run every record finds a file with room. -/
theorem Sound.room (h : Sound limit sep c ps) {pre post : List (Placement α β)} {x : Placement α β}
    (hps : ps = pre ++ x :: post) :
    x.size = (after sep c pre x.path).length ∧
      (x.size = 0 ∨ x.size + x.record.length + 1 ≤ limit) := by
  induction pre generalizing c ps with
  | nil =>
    subst hps
    obtain ⟨hsize, hroom, -⟩ := h
    exact ⟨hsize, hsize ▸ hroom⟩
  | cons y pre ih =>
    subst hps
    exact ih h.2.2 rfl

/-- A file over the limit is left alone. -/
theorem Sound.over_limit (h : Sound limit sep c ps) (hover : limit < (c p).length) :
    recordsAt p ps = [] := by
  induction ps generalizing c with
  | nil => rfl
  | cons x ps ih =>
    obtain ⟨-, hroom, hrest⟩ := h
    have hx : x.path ≠ p := by
      rintro rfl
      unfold Room at hroom
      omega
    rw [recordsAt_cons_of_ne hx]
    exact ih hrest (by rwa [place_of_ne hx])

/-- A file within the limit stays within it, or gets a single record that is too large. -/
theorem Sound.within_limit (h : Sound limit sep c ps) (hwithin : (c p).length ≤ limit) :
    (after sep c ps p).length ≤ limit ∨
      ∃ r, c p = [] ∧ recordsAt p ps = [r] ∧ limit < r.length + 1 := by
  induction ps generalizing c with
  | nil => exact .inl hwithin
  | cons x ps ih =>
    obtain ⟨-, hroom, hrest⟩ := h
    by_cases hx : x.path = p
    · by_cases hfits : (place sep c x p).length ≤ limit
      · rcases ih hrest hfits with hle | ⟨r, hnil, -⟩
        · exact .inl hle
        · rw [place_self hx] at hnil
          simp at hnil
      · have hnone := hrest.over_limit (not_le.mp hfits)
        rw [place_self hx] at hfits
        simp only [List.length_append, List.length_singleton] at hfits
        have hempty : (c p).length = 0 := by
          rcases hx ▸ hroom with hzero | hle <;> omega
        refine .inr ⟨x.record, List.length_eq_zero_iff.mp hempty, ?_, by omega⟩
        rw [recordsAt_cons_self hx, hnone]
    · rw [after_cons, recordsAt_cons_of_ne hx]
      have hsame : place sep c x p = c p := place_of_ne hx
      have hrec := ih hrest (by rwa [hsame])
      rwa [hsame] at hrec

end Placements

/-! ## The writer -/

/-- Where a writer stands. -/
structure Writer (δ α β : Type*) where
  files : α → Option (List β)
  date : δ
  index : ℕ

/-- A new day begins with file 0. -/
def Writer.start [DecidableEq δ] (w : Writer δ α β) (d : δ) : ℕ := if d = w.date then w.index else 0

/-- Only finitely many files exist. -/
def FewFiles (files : α → Option (List β)) : Prop := {p | (files p).isSome = true}.Finite

theorem FewFiles.extend {files : α → Option (List β)} (h : FewFiles files) (p : α)
    (bytes : List β) : FewFiles (extend files p bytes) := by
  refine (h.insert p).subset fun q hq => ?_
  by_cases hqp : q = p
  · exact .inl hqp
  · have hsame : Rotation.extend files p bytes q = files q := Function.update_of_ne hqp _ _
    exact .inr (by simpa [hsame] using hq)

namespace Layout

variable [DecidableEq δ] (L : Layout δ α β)

/-- The first file of a series with room, from `start` on. -/
noncomputable def target (files : α → Option (List β)) (d : δ) (start : ℕ) (record : List β) : ℕ :=
  sInf {i | start ≤ i ∧ Room L.limit (content files (L.name d i)) record}

noncomputable def aim (w : Writer δ α β) (r : δ × List β) : ℕ :=
  L.target w.files r.1 (w.start r.1) r.2

noncomputable def placement (w : Writer δ α β) (r : δ × List β) : Placement α β :=
  ⟨L.name r.1 (L.aim w r), (content w.files (L.name r.1 (L.aim w r))).length, r.2⟩

noncomputable def write (w : Writer δ α β) (r : δ × List β) : Writer δ α β where
  files := extend w.files (L.name r.1 (L.aim w r)) (r.2 ++ [L.sep])
  date := r.1
  index := L.aim w r

/-- A new writer opens file 0 of its day. -/
def opened (files : α → Option (List β)) (d : δ) : Writer δ α β := ⟨touch files (L.name d 0), d, 0⟩

noncomputable def writes (w : Writer δ α β) (rs : List (δ × List β)) : Writer δ α β :=
  rs.foldl L.write w

noncomputable def placements : Writer δ α β → List (δ × List β) → List (Placement α β)
  | _, [] => []
  | w, r :: rs => L.placement w r :: placements (L.write w r) rs

variable {L} {files : α → Option (List β)} {d : δ} {k : ℕ} {record : List β} {w : Writer δ α β}

omit [DecidableEq α] [DecidableEq δ] in
/-- With finitely many files there is always one with room. -/
theorem exists_room (hfew : FewFiles files) (d : δ) (k : ℕ)
    (record : List β) : ∃ i, k ≤ i ∧ Room L.limit (content files (L.name d i)) record := by
  by_contra hnone
  push Not at hnone
  have hinj : Function.Injective fun i => L.name d (k + i) := by
    intro i j hij
    have := (L.distinct hij).2
    omega
  refine Set.infinite_range_of_injective hinj (hfew.subset ?_)
  rintro _ ⟨i, rfl⟩
  exact isSome_of_content (content_ne_nil_of_not_room (hnone (k + i) (Nat.le_add_right k i)))

omit [DecidableEq α] [DecidableEq δ] in
theorem target_spec (hfew : FewFiles files) (d : δ) (k : ℕ)
    (record : List β) :
    k ≤ L.target files d k record ∧
      Room L.limit (content files (L.name d (L.target files d k record))) record ∧
      ∀ i, k ≤ i → i < L.target files d k record →
        ¬ Room L.limit (content files (L.name d i)) record := by
  have hmem := Nat.sInf_mem (exists_room (L := L) hfew d k record)
  exact ⟨hmem.1, hmem.2, fun i hi hlt hroom => Nat.notMem_of_lt_sInf hlt ⟨hi, hroom⟩⟩

omit [DecidableEq α] [DecidableEq δ] in
theorem target_of_room (h : Room L.limit (content files (L.name d k)) record) :
    L.target files d k record = k :=
  have hk : k ∈ {i | k ≤ i ∧ Room L.limit (content files (L.name d i)) record} := ⟨le_rfl, h⟩
  le_antisymm (Nat.sInf_le hk) (Nat.sInf_mem ⟨k, hk⟩).1

omit [DecidableEq α] [DecidableEq δ] in
theorem target_succ (h : ¬ Room L.limit (content files (L.name d k)) record) :
    L.target files d k record = L.target files d (k + 1) record := by
  refine congrArg sInf (Set.ext fun i => ⟨?_, ?_⟩)
  · rintro ⟨hki, hroom⟩
    have hne : i ≠ k := by
      rintro rfl
      exact h hroom
    exact ⟨by omega, hroom⟩
  · rintro ⟨hki, hroom⟩
    exact ⟨by omega, hroom⟩

omit [DecidableEq δ] in
/-- The walk to the target passes existing files only. -/
theorem target_sub_le (hfew : FewFiles files) {keys : List α}
    (hkeys : ∀ p, (files p).isSome = true → p ∈ keys) (d : δ) (k : ℕ) (record : List β) :
    L.target files d k record - k ≤ keys.length := by
  obtain ⟨-, -, hfull⟩ := target_spec (L := L) hfew d k record
  have hsub : (Finset.Ico k (L.target files d k record)).image (L.name d) ⊆ keys.toFinset := by
    intro p hp
    obtain ⟨i, hi, rfl⟩ := Finset.mem_image.mp hp
    obtain ⟨hki, hit⟩ := Finset.mem_Ico.mp hi
    exact List.mem_toFinset.mpr
      (hkeys _ (isSome_of_content (content_ne_nil_of_not_room (hfull i hki hit))))
  calc L.target files d k record - k
      = (Finset.Ico k (L.target files d k record)).card := (Nat.card_Ico _ _).symm
    _ = ((Finset.Ico k (L.target files d k record)).image (L.name d)).card :=
      (Finset.card_image_of_injective _ fun i j hij => (L.distinct hij).2).symm
    _ ≤ keys.toFinset.card := Finset.card_le_card hsub
    _ ≤ keys.length := keys.toFinset_card_le

variable {rs ss : List (δ × List β)}

@[simp] theorem writes_nil (w : Writer δ α β) : L.writes w [] = w := rfl

@[simp] theorem writes_cons (w : Writer δ α β) (r : δ × List β) (rs : List (δ × List β)) :
    L.writes w (r :: rs) = L.writes (L.write w r) rs := rfl

theorem writes_append : L.writes w (rs ++ ss) = L.writes (L.writes w rs) ss := List.foldl_append

theorem placements_append :
    L.placements w (rs ++ ss) = L.placements w rs ++ L.placements (L.writes w rs) ss := by
  induction rs generalizing w with
  | nil => rfl
  | cons r rs ih => simp [placements, ih]

/-- Every record is placed once, in the order of the run. -/
theorem placements_records (w : Writer δ α β) (rs : List (δ × List β)) :
    (L.placements w rs).map Placement.record = rs.map Prod.snd := by
  induction rs generalizing w with
  | nil => rfl
  | cons r rs ih => simp [placements, placement, ih]

/-- A record goes to a file of its series. -/
theorem mem_placements {x : Placement α β} (h : x ∈ L.placements w rs) :
    ∃ r ∈ rs, ∃ i, x.path = L.name r.1 i := by
  induction rs generalizing w with
  | nil => simp [placements] at h
  | cons r rs ih =>
    rcases List.mem_cons.mp h with rfl | hrest
    · exact ⟨r, List.mem_cons_self, _, rfl⟩
    · obtain ⟨s, hs, hpath⟩ := ih hrest
      exact ⟨s, List.mem_cons_of_mem _ hs, hpath⟩

theorem fewFiles_write (h : FewFiles w.files) (r : δ × List β) : FewFiles (L.write w r).files :=
  h.extend _ _

theorem content_write (w : Writer δ α β) (r : δ × List β) :
    content (L.write w r).files = place L.sep (content w.files) (L.placement w r) :=
  content_extend _ _ _

/-- The files of a run are what its placements make of them. -/
theorem content_writes (w : Writer δ α β) (rs : List (δ × List β)) :
    content (L.writes w rs).files = after L.sep (content w.files) (L.placements w rs) := by
  induction rs generalizing w with
  | nil => rfl
  | cons r rs ih => rw [writes_cons, ih, content_write, placements, after_cons]

/-- A run of a new writer adds whole records to every file. -/
theorem content_opened_writes (files : α → Option (List β)) (d : δ) (rs : List (δ × List β)) (p : α) :
    content (L.writes (L.opened files d) rs).files p = content files p ++
      Framing.terminate L.sep (recordsAt p (L.placements (L.opened files d) rs)) := by
  rw [content_writes, after_eq, opened, content_touch]

theorem placements_sound (h : FewFiles w.files) (rs : List (δ × List β)) :
    Sound L.limit L.sep (content w.files) (L.placements w rs) := by
  induction rs generalizing w with
  | nil => trivial
  | cons r rs ih =>
    refine ⟨rfl, (target_spec h r.1 (w.start r.1) r.2).2.1, ?_⟩
    rw [← content_write]
    exact ih (fewFiles_write h r)

end Layout

/-! ## Write order -/

section Order

variable {name : ℕ → α} {sep : β} {c : α → List β} {ps qs : List (Placement α β)} {n : ℕ}

/-- The first `n` files of a series, one after the other. -/
def series (name : ℕ → α) (c : α → List β) (n : ℕ) : List β :=
  (List.range n).flatMap fun i => c (name i)

/-- Every record goes to a file with nothing in the files above it. -/
def Climbs (name : ℕ → α) (sep : β) : (α → List β) → List (Placement α β) → Prop
  | _, [] => True
  | c, x :: ps =>
    (∃ i, x.path = name i ∧ ∀ j, i < j → c (name j) = []) ∧ Climbs name sep (place sep c x) ps

theorem Climbs.append (h : Climbs name sep c ps) (h' : Climbs name sep (after sep c ps) qs) :
    Climbs name sep c (ps ++ qs) := by
  induction ps generalizing c with
  | nil => exact h'
  | cons x ps ih => exact ⟨h.1, ih h.2 h'⟩

omit [DecidableEq α] in
theorem series_succ (c : α → List β) (n : ℕ) :
    series name c (n + 1) = series name c n ++ c (name n) := by
  simp [series, List.range_succ]

omit [DecidableEq α] in
theorem series_prefix (c : α → List β) {m : ℕ} (h : n ≤ m) : series name c n <+: series name c m := by
  induction m, h using Nat.le_induction with
  | base => exact List.prefix_refl _
  | succ m _ ih =>
    rw [series_succ]
    exact ih.trans (List.prefix_append _ _)

/-- A record that goes to the end of the topmost file goes to the end of the series. -/
theorem series_place (hinj : Function.Injective name) {x : Placement α β} {i : ℕ}
    (hx : x.path = name i) (hin : i < n) (htop : ∀ j, i < j → c (name j) = []) :
    series name (place sep c x) n = series name c n ++ (x.record ++ [sep]) := by
  induction n with
  | zero => omega
  | succ n ih =>
    rw [series_succ, series_succ]
    by_cases hn : i = n
    · subst hn
      have hbelow : series name (place sep c x) i = series name c i := by
        refine List.flatMap_congr fun j hj => place_of_ne fun hxj => ?_
        have hij := hinj (hx.symm.trans hxj)
        simp [hij] at hj
      rw [hbelow, place_self hx, List.append_assoc]
    · have hne : x.path ≠ name n := fun hxn => hn (hinj (hx.symm.trans hxn))
      rw [ih (by omega), place_of_ne hne, htop n (by omega), List.append_nil, List.append_nil]

/-- A climbing run appends its records to the series, in the order of the run. -/
theorem series_after (hinj : Function.Injective name) (h : Climbs name sep c ps)
    (hn : ∀ x ∈ ps, ∀ i, x.path = name i → i < n) :
    series name (after sep c ps) n =
      series name c n ++ Framing.terminate sep (ps.map Placement.record) := by
  induction ps generalizing c with
  | nil => simp
  | cons x ps ih =>
    obtain ⟨⟨i, hx, htop⟩, hrest⟩ := h
    rw [after_cons, ih hrest fun y hy => hn y (by simp [hy]),
      series_place hinj hx (hn x (by simp) i hx) htop]
    simp [Framing.terminate]

end Order

namespace Layout

variable [DecidableEq δ] {L : Layout δ α β} {files : α → Option (List β)} {d : δ}
variable {w : Writer δ α β} {rs : List (δ × List β)}

/-- The writer stands at the topmost file of the day. -/
def Topped (L : Layout δ α β) (w : Writer δ α β) : Prop :=
  ∀ j, w.index < j → content w.files (L.name w.date j) = []

/-- A record that goes above everything leaves the writer at the top. -/
theorem topped_write {r : δ × List β}
    (htop : ∀ j, L.aim w r < j → content w.files (L.name r.1 j) = []) : L.Topped (L.write w r) := by
  intro j hj
  have hne : (L.placement w r).path ≠ L.name r.1 j := fun heq => by
    have hidx : L.aim w r = j := (L.distinct heq).2
    exact absurd hidx (Nat.ne_of_lt hj)
  rw [content_write, show L.name (L.write w r).date j = L.name r.1 j from rfl, place_of_ne hne]
  exact htop j hj

/-- From the top a writer only goes up. -/
theorem climbs_writes (hfew : FewFiles w.files) (h : L.Topped w)
    (hday : ∀ r ∈ rs, r.1 = w.date) :
    Climbs (L.name w.date) L.sep (content w.files) (L.placements w rs) := by
  induction rs generalizing w with
  | nil => trivial
  | cons r rs ih =>
    have hd : r.1 = w.date := hday r (by simp)
    have hstart : w.start r.1 = w.index := if_pos hd
    have hup : w.index ≤ L.aim w r := hstart ▸ (target_spec hfew r.1 (w.start r.1) r.2).1
    have htop : ∀ j, L.aim w r < j → content w.files (L.name r.1 j) = [] :=
      fun j hj => hd ▸ h j (lt_of_le_of_lt hup hj)
    refine ⟨⟨L.aim w r, by rw [← hd]; rfl, fun j hj => hd ▸ htop j hj⟩, ?_⟩
    have hrec := ih (fewFiles_write hfew r) (topped_write htop) fun s hs =>
      (hday s (by simp [hs])).trans hd.symm
    rw [content_write] at hrec
    exact hd ▸ hrec

/-- The first record of a new writer has no room below the topmost file. -/
def Resumes (L : Layout δ α β) (files : α → Option (List β)) (d : δ) (record : List β) : Prop :=
  ∀ i j, i < j → (files (L.name d j)).isSome = true →
    ¬ Room L.limit (content files (L.name d i)) record

theorem climbs_opened (hfew : FewFiles files) (hday : ∀ r ∈ rs, r.1 = d)
    (hres : ∀ r ∈ rs.head?, L.Resumes files d r.2) :
    Climbs (L.name d) L.sep (content files) (L.placements (L.opened files d) rs) := by
  cases rs with
  | nil => trivial
  | cons r rs =>
    have hd : r.1 = d := hday r (by simp)
    have hfew' : FewFiles (L.opened files d).files := hfew.extend _ _
    have hcontent : content (L.opened files d).files = content files := content_touch _ _
    have htop : ∀ j, L.aim (L.opened files d) r < j →
        content (L.opened files d).files (L.name r.1 j) = [] := by
      intro j hj
      by_contra hne
      rw [hcontent] at hne
      have hroom := (target_spec (L := L) hfew' r.1 ((L.opened files d).start r.1) r.2).2.1
      rw [hcontent] at hroom
      exact hres r rfl _ j hj (hd ▸ isSome_of_content hne) (hd ▸ hroom)
    have hrest : ∀ s ∈ rs, s.1 = (L.write (L.opened files d) r).date :=
      fun s hs => (hday s (by simp [hs])).trans hd.symm
    have hrec := climbs_writes (fewFiles_write hfew' r) (topped_write htop) hrest
    rw [content_write, hcontent] at hrec
    rw [hcontent] at htop
    exact ⟨⟨_, by rw [← hd]; rfl, fun j hj => hd ▸ htop j hj⟩, hd ▸ hrec⟩

end Layout

end Rotation
