import Mathlib.Logic.Basic
import Mathlib.Data.Int.Notation
import EdgeProxy.Base.Error

/-! # Files

`pal_get_real_path` of `pal_file_posix.c`, for a name that `realpath` does or does not resolve. Memory allocation does
not fail.
-/
namespace EdgeProxy.Pal
open Base List

/-- A path, and the size of the memory in which it is. -/
structure RealPath where
  alloc : ℕ
  path : List Char

/-- The directory fits in `pathMax` bytes with its terminator, or `getcwd` fails with `ERANGE`. -/
def appendToCwd (cwd fileName : List Char) (pathMax : ℕ) (hpos : 0 < pathMax) : Except PrxError RealPath :=
  if _hrange : pathMax < cwd.length + 1 then
    if _hmax : 2 * pathMax ≥ 0x4000 then .error .invalidFormat
    else appendToCwd cwd fileName (2 * pathMax) (by omega)
  else if _hfits : pathMax < cwd.length + fileName.length + 1 then
    appendToCwd cwd fileName (cwd.length + fileName.length + 1) (by omega)
  else .ok { alloc := pathMax + 1, path := cwd ++ '/' :: fileName }
termination_by (0x4000 - pathMax) + (cwd.length + fileName.length + 1 - pathMax)

def trimDot : List Char → List Char
  | '.' :: fileName => fileName.dropWhile (· = '/')
  | fileName => fileName

/-- `pathconf` is not positive if it fails; `getcwd` may fail for another reason than the size of its buffer. -/
def palGetRealPath (pathconf : ℤ) (realpath : Option RealPath) (getcwd : Except PrxError (List Char))
    (fileName : List Char) : Except PrxError RealPath :=
  let pathMax := if pathconf > 0 then pathconf.toNat else 1024
  match realpath with
  | some real => .ok real
  | none =>
    if fileName.head? = some '/' then .ok {
      alloc := if pathconf ≤ 0 ∨ fileName.length > pathMax then fileName.length + 1 else pathMax + 1
      path := fileName }
    else do
      let cwd ← getcwd
      appendToCwd cwd (trimDot fileName) pathMax (by dsimp only [pathMax]; split_ifs <;> omega)

def trimDotSlash : List Char → List Char
  | '.' :: '/' :: fileName => fileName
  | fileName => fileName
lemma appendToCwd_eq {cwd} (hcwd : cwd.length < 0x2000) (fileName : List Char) (pathMax : ℕ) (hpos : 0 < pathMax) :
    ∃ real, appendToCwd cwd fileName pathMax hpos = .ok real ∧ real.path = cwd ++ '/' :: fileName ∧
      real.path.length < real.alloc := by
  fun_induction appendToCwd cwd fileName pathMax hpos with
  | case1 => omega
  | case2 _ _ _ _ ih => exact ih
  | case3 _ _ _ _ ih => exact ih
  | case4 pathMax _ _ hfits =>
    refine ⟨_,rfl,rfl,?_⟩
    simp only [length_append,length_cons]
    omega

/-- A name that starts with a dot goes on with one slash. -/
def OneSlash : List Char → Prop
  | '.' :: '/' :: fileName => fileName.head? ≠ some '/'
  | fileName => fileName.head? ≠ some '.'

lemma dropWhile_ne_cons (c : Char) (s : List Char) : s.dropWhile (· = '/') ≠ c :: s := by
  intro h
  have hle := (dropWhile_suffix (l := s) (· = '/')).length_le
  rw [h,length_cons] at hle
  omega

lemma trimDot_eq_iff (fileName : List Char) : trimDot fileName = trimDotSlash fileName ↔ OneSlash fileName := by
  unfold trimDotSlash OneSlash
  split
  · next name => 
    rw [trimDot]
    cases name with
    | nil => exact iff_of_true rfl nofun
    | cons c name =>
      by_cases hc : c = '/'
      · simp [hc,dropWhile_ne_cons]
      · simp [hc]
  · unfold trimDot
    split
    · exact iff_of_false (dropWhile_ne_cons _ _) fun h => h rfl
    · next hdot =>
      refine iff_of_true rfl fun h => ?_
      obtain ⟨rest,rfl⟩ := head?_eq_some_iff.1 h
      exact hdot rest rfl

lemma palGetRealPath_relative {cwd fileName} (hcwd : cwd.length < 0x2000)
    (hrelative : fileName.head? ≠ some '/') (pathconf : ℤ) :
    ∃ real, palGetRealPath pathconf none (.ok cwd) fileName = .ok real ∧
      real.path = cwd ++ '/' :: trimDot fileName ∧ real.path.length < real.alloc := by
  rw [palGetRealPath,if_neg hrelative]
  exact appendToCwd_eq hcwd ..

/-- The path of a name that does not exist is in its memory, and right exactly if one slash follows a leading dot. -/
theorem realPath_right_iff {cwd fileName : List Char} (hcwd : cwd.length < 0x2000)
    (hrelative : fileName.head? ≠ some '/') (pathconf : ℤ) :
    ∃ real, palGetRealPath pathconf none (.ok cwd) fileName = .ok real ∧ real.path.length < real.alloc ∧
      (real.path = cwd ++ '/' :: trimDotSlash fileName ↔ OneSlash fileName) := by
  obtain ⟨real,hreal,hpath,hfits⟩ := palGetRealPath_relative hcwd hrelative pathconf
  refine ⟨real,hreal,hfits,?_⟩
  rw [hpath,append_cancel_left_eq,cons_inj_right,trimDot_eq_iff]

theorem realPath_dotSlash :
    ∃ real, palGetRealPath 4096 none (.ok ['/','d']) ['.','/','f'] = .ok real ∧ real.path.length < real.alloc ∧
      (real.path = ['/','d','/','f'] ↔ OneSlash ['.','/','f']) :=
  realPath_right_iff (by decide) (by decide) 4096

/-- The parent directory becomes the directory. -/
theorem parent_not_right : ∃ real, palGetRealPath 4096 none (.ok ['/','d']) ['.','.','/','f'] = .ok real ∧
    real.path = ['/','d','/','.','/','f'] :=
  (palGetRealPath_relative (by decide) (by decide) 4096).imp fun _ h => ⟨h.1,h.2.1⟩

end EdgeProxy.Pal
