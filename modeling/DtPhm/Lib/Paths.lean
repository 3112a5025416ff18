import DtPhm.Lib.Text

/-!
# Paths — file names under POSIX, as `pathlib` reads them

A path is its root and its parts; empty parts and single dots are dropped.

* `parsePath`, `joinPath` — `Path(name)` and `dir / name`;
* `stem` — where a name goes that a suffix is still to be written behind;
* `joinPath_append_inj` — two names with a suffix of one length are the same path just when their
  stems are, and their suffixes.
-/

namespace DtPhm
namespace Lib

/-- A path; the root of a relative one is empty. -/
structure PosixPath where
  root : Text
  parts : List Text
  deriving DecidableEq

/-- The root of a name: two slashes stay, any other number of them is one. -/
def rootOf (name : Text) : Text :=
  match (name.takeWhile (· = '/')).length with
  | 0 => []
  | 2 => ['/', '/']
  | _ => ['/']

/-- Empty parts and single dots are dropped. -/
def isPart (part : Text) : Bool := part != [] && part != ['.']

def parsePath (name : Text) : PosixPath where
  root := rootOf name
  parts := (name.splitOn '/').filter isPart

/-- `dir / name`: a name with a root of its own replaces the directory. -/
def joinPath (dir : PosixPath) (name : Text) : PosixPath :=
  if rootOf name = [] then ⟨dir.root, dir.parts ++ (parsePath name).parts⟩ else parsePath name

/-- What stands behind the last slash. -/
def lastSegment (name : Text) : Text := (name.splitOn '/').getLast (List.splitOn_ne_nil _ _)

/-- The parts before the last slash. -/
def dirSegments (name : Text) : List Text := (name.splitOn '/').dropLast.filter isPart

/-- The path of a name, with its last segment as it stands. -/
def stem (dir : PosixPath) (name : Text) : PosixPath :=
  if rootOf name = [] then ⟨dir.root, dir.parts ++ dirSegments name ++ [lastSegment name]⟩
  else ⟨rootOf name, dirSegments name ++ [lastSegment name]⟩

section Suffix

variable {dir : PosixPath} {name name' suffix suffix' : Text}

theorem modifyHead_append_last {c : Char} (segments : List Text) (hne : segments ≠ [])
    (hne' : segments.modifyHead (List.cons c) ≠ []) :
    (segments.dropLast ++ [segments.getLast hne ++ suffix]).modifyHead (List.cons c) =
      (segments.modifyHead (List.cons c)).dropLast ++
        [(segments.modifyHead (List.cons c)).getLast hne' ++ suffix] := by
  cases segments with
  | nil => exact absurd rfl hne
  | cons s segments =>
      cases segments with
      | nil => simp
      | cons s' segments => simp [List.dropLast]

/-- A text without a slash is written behind the last segment. -/
theorem splitOn_append_of_not_mem (name : Text) (h : '/' ∉ suffix) :
    (name ++ suffix).splitOn '/' = (name.splitOn '/').dropLast ++ [lastSegment name ++ suffix] := by
  induction name with
  | nil =>
      rw [List.nil_append, List.splitOn_eq_singleton h]
      rfl
  | cons c name ih =>
      have hne := List.splitOn_ne_nil '/' name
      unfold lastSegment at ih ⊢
      simp only [List.cons_append, List.splitOn_cons_eq_if_modifyHead]
      split
      · rw [ih]
        simp only [List.dropLast_cons_of_ne_nil hne, List.getLast_cons hne, List.cons_append]
      · rw [ih]
        exact modifyHead_append_last _ hne _

theorem rootOf_append (h : ∀ c ∈ suffix.head?, c ≠ '/') :
    rootOf (name ++ suffix) = rootOf name := by
  have htake : (name ++ suffix).takeWhile (· = '/') = name.takeWhile (· = '/') := by
    induction name with
    | nil =>
        cases suffix with
        | nil => rfl
        | cons c suffix => simpa using h c rfl
    | cons c name ih => by_cases hc : c = '/' <;> simp [hc, ih]
  rw [rootOf, htake, rootOf]

/-- A suffix as it is written behind a name: without slashes, and of two characters at least. -/
structure IsSuffix (suffix : Text) : Prop where
  no_slash : '/' ∉ suffix
  length : 2 ≤ suffix.length

theorem joinPath_append (dir : PosixPath) (name : Text) (h : IsSuffix suffix) :
    joinPath dir (name ++ suffix) =
      ⟨(stem dir name).root, (stem dir name).parts.dropLast ++ [lastSegment name ++ suffix]⟩ := by
  have hhead : ∀ c ∈ suffix.head?, c ≠ '/' := by
    rintro c hc rfl
    exact h.no_slash (List.mem_of_mem_head? hc)
  have hlen : 2 ≤ (lastSegment name ++ suffix).length := by
    rw [List.length_append]
    exact Nat.le_add_left_of_le h.length
  have hpart : isPart (lastSegment name ++ suffix) = true := by
    rw [isPart, Bool.and_eq_true, bne_iff_ne, bne_iff_ne]
    constructor <;> intro heq <;> rw [heq] at hlen <;> exact absurd hlen (by decide)
  have hparts : (parsePath (name ++ suffix)).parts =
      dirSegments name ++ [lastSegment name ++ suffix] := by
    rw [parsePath, splitOn_append_of_not_mem name h.no_slash, List.filter_append, dirSegments,
      List.filter_singleton, hpart]
    rfl
  have hroot : (parsePath (name ++ suffix)).root = rootOf name := rootOf_append hhead
  rw [joinPath, rootOf_append hhead, stem, hparts]
  split
  · simp
  · change PosixPath.mk (parsePath (name ++ suffix)).root (parsePath (name ++ suffix)).parts = _
    rw [hroot, hparts]
    simp

theorem stem_parts_ne_nil (dir : PosixPath) (name : Text) : (stem dir name).parts ≠ [] := by
  unfold stem
  split <;> simp

theorem getLast_stem (dir : PosixPath) (name : Text) :
    (stem dir name).parts.getLast (stem_parts_ne_nil dir name) = lastSegment name := by
  unfold stem
  split <;> simp

/-- With suffixes of one length, two names are the same path just when their stems are the same, and
the suffixes. -/
theorem joinPath_append_inj (h : IsSuffix suffix) (h' : IsSuffix suffix')
    (hlen : suffix.length = suffix'.length) :
    joinPath dir (name ++ suffix) = joinPath dir (name' ++ suffix') ↔
      stem dir name = stem dir name' ∧ suffix = suffix' := by
  rw [joinPath_append dir name h, joinPath_append dir name' h']
  constructor
  · intro heq
    obtain ⟨hroot, hparts⟩ := PosixPath.mk.inj heq
    obtain ⟨hdrop, hlast⟩ := List.append_inj' hparts rfl
    obtain ⟨hseg, hsuffix⟩ := List.append_inj' (List.singleton_inj.1 hlast) hlen
    refine ⟨?_, hsuffix⟩
    have hstem : (stem dir name).parts = (stem dir name').parts := by
      rw [← List.dropLast_append_getLast (stem_parts_ne_nil dir name),
        ← List.dropLast_append_getLast (stem_parts_ne_nil dir name'), hdrop, getLast_stem,
        getLast_stem, hseg]
    cases hs : stem dir name
    cases hs' : stem dir name'
    simp_all
  · rintro ⟨hstem, rfl⟩
    have hseg : lastSegment name = lastSegment name' := by
      rw [← getLast_stem dir name, ← getLast_stem dir name']
      simp only [hstem]
    rw [hstem, hseg]

end Suffix

end Lib
end DtPhm
