import CppLogger.Foundation.Bytes
import CppLogger.Foundation.Search

/-!
# Paths

The operations of `std::filesystem::path` on a system whose only separator is `/`, as
functions of the texts, and how they undo one another.
-/

namespace Paths

/-- `path.filename()`. -/
def filename (path : Text) : Text := path.rtakeWhile (· ≠ '/')

/-- `path.parent_path()`: a file of the root directory keeps one separator, a root directory
all of them. -/
def parentPath (path : Text) : Text :=
  let directory := path.rdropWhile (· ≠ '/')
  let stripped := directory.rdropWhile (· = '/')
  if stripped ≠ [] then stripped
  else if filename path = [] then directory
  else directory.take 1

/-- `directory / name`. -/
def joinPath (directory name : Text) : Text :=
  if name.head? = some '/' then name
  else if directory = [] ∨ directory.getLast? = some '/' then directory ++ name
  else directory ++ '/' :: name

/-- `path.extension()`. -/
def extension (path : Text) : Text :=
  let name := filename path
  if name = ['.', '.'] ∨ '.' ∉ name.drop 1 then [] else '.' :: name.rtakeWhile (· ≠ '.')

/-- A directory as `operator/` builds it: not empty, and without a separator at its end. -/
structure PlainDirectory (root : Text) : Prop where
  nonempty : root ≠ []
  unterminated : root.getLast? ≠ some '/'

/-- The path lies below the directory. -/
def Below (root path : Text) : Prop := root ++ ['/'] <+: path

instance (root path : Text) : Decidable (Below root path) :=
  inferInstanceAs (Decidable (_ <+: _))

variable {root name name' directory path : Text}

/-- A name does not begin with a separator. -/
theorem head_ne_slash (h : '/' ∉ name) : name.head? ≠ some '/' :=
  fun hhead => h (List.mem_of_mem_head? hhead)

theorem not_mem_filename (path : Text) : '/' ∉ filename path := by
  intro hmem
  simpa using List.mem_rtakeWhile_imp hmem

theorem head_filename_append (path : Text) {c : Char} (hc : c ≠ '/') (rest : Text) :
    (filename path ++ c :: rest).head? ≠ some '/' := by
  cases hname : filename path with
  | nil => simpa using hc
  | cons x name =>
    have hx : '/' ∉ x :: name := hname ▸ not_mem_filename path
    exact fun hhead => hx (by simp at hhead; simp [hhead])

/-- What is joined to a directory is the end of the path. -/
theorem suffix_joinPath (directory name : Text) : name <:+ joinPath directory name := by
  unfold joinPath
  split_ifs
  · exact List.suffix_refl name
  · exact List.suffix_append directory name
  · exact ⟨directory ++ ['/'], by rw [List.append_assoc]; rfl⟩

theorem joinPath_injective (h : name.head? ≠ some '/') (h' : name'.head? ≠ some '/')
    (heq : joinPath directory name = joinPath directory name') : name = name' := by
  rw [joinPath, joinPath, if_neg h, if_neg h'] at heq
  split_ifs at heq
  · exact List.append_cancel_left heq
  · exact (List.cons.inj (List.append_cancel_left heq)).2

theorem filename_joinPath (directory : Text) (h : '/' ∉ name) :
    filename (joinPath directory name) = name := by
  rw [joinPath, if_neg (head_ne_slash h)]
  unfold filename
  split_ifs with hbare
  · rcases hbare with rfl | hlast
    · rw [List.nil_append, List.rtakeWhile_eq_self_iff]
      intro c hc
      simpa using fun heq : c = '/' => h (heq ▸ hc)
    · obtain ⟨front, rfl⟩ := List.getLast?_eq_some_iff.mp hlast
      rw [List.append_assoc]
      exact Search.rtakeWhile_field h
  · exact Search.rtakeWhile_field h

theorem plainDirectory_joinPath (directory : Text) (h : '/' ∉ name) (hne : name ≠ []) :
    PlainDirectory (joinPath directory name) := by
  obtain ⟨front, hfront⟩ := suffix_joinPath directory name
  rw [← hfront]
  refine ⟨List.append_ne_nil_of_right_ne_nil _ hne, ?_⟩
  rw [List.getLast?_append_of_ne_nil _ hne]
  exact fun hlast => h (List.mem_of_getLast? hlast)

theorem PlainDirectory.joinPath_eq (h : PlainDirectory root) (hname : name.head? ≠ some '/') :
    joinPath root name = root ++ '/' :: name := by
  rw [joinPath, if_neg hname, if_neg (not_or.mpr ⟨h.nonempty, h.unterminated⟩)]

theorem PlainDirectory.parentPath_joinPath (h : PlainDirectory root) (hname : '/' ∉ name) :
    parentPath (joinPath root name) = root := by
  have hfront : (root ++ ['/']).rdropWhile (fun c => decide (c = '/')) = root := by
    rw [List.rdropWhile_concat_pos _ _ _ (by simp), List.rdropWhile_eq_self_iff]
    intro hne
    simpa using fun hlast : root.getLast hne = '/' =>
      h.unterminated (by rw [List.getLast?_eq_some_getLast hne, hlast])
  rw [h.joinPath_eq (head_ne_slash hname), parentPath, Search.rdropWhile_field hname, hfront,
    if_pos h.nonempty]

example : parentPath "//a".toList = "/".toList := by decide

example : joinPath (joinPath "out/".toList "logs".toList) "a".toList = "out/logs/a".toList := by
  decide

end Paths
