import Mathlib.Data.Char
import Mathlib.Data.List.Dedup
import Mathlib.Data.List.Lex
import Mathlib.Data.List.Sort
import UdpAnalyzer.Lib.Text
import UdpAnalyzer.Lib.Utf8

/-! Paths, shell patterns and the files of a machine, as far as a program reads them. A
path is kept in its parsed form; the machine decides which files and directories there
are and what is in them. -/

namespace UdpAnalyzer

/-- A parsed path: what it starts with (nothing, one or two slashes), and its parts. -/
structure PosixPath where
  root : List Char
  parts : List (List Char)
  deriving DecidableEq, Repr

namespace PosixPath

/-- Two slashes at the front are kept, more are one. -/
def rootOf : List Char → List Char
  | '/' :: '/' :: '/' :: _ => ['/']
  | '/' :: '/' :: _ => ['/', '/']
  | '/' :: _ => ['/']
  | _ => []

/-- `Path(text)`. -/
def parse (text : List Char) : PosixPath where
  root := rootOf text
  parts := (text.splitOn '/').filter fun part => part ≠ [] ∧ part ≠ ['.']

def name (p : PosixPath) : List Char := p.parts.getLast?.getD []

def parent (p : PosixPath) : PosixPath := { p with parts := p.parts.dropLast }

def child (p : PosixPath) (name : List Char) : PosixPath := { p with parts := p.parts ++ [name] }

/-- `str(path)`. -/
def toText (p : PosixPath) : List Char :=
  if p.root = [] ∧ p.parts = [] then ['.'] else p.root ++ List.intercalate ['/'] p.parts

/-- Paths are compared part by part. -/
def key (p : PosixPath) : List (List Char) := p.toText.splitOn '/'

@[simp] theorem name_child (p : PosixPath) (name : List Char) : (p.child name).name = name := by
  simp [PosixPath.name, child]

@[simp] theorem parent_child (p : PosixPath) (name : List Char) : (p.child name).parent = p := by
  simp [parent, child]

end PosixPath

/-- `sorted(paths)`. -/
def sortedPaths (paths : List PosixPath) : List PosixPath :=
  paths.insertionSort fun p q => p.key ≤ q.key

/-- `sorted(set(texts))`. -/
def sortedSet (texts : List (List Char)) : List (List Char) :=
  texts.dedup.insertionSort (· ≤ ·)

theorem mem_sortedPaths {paths : List PosixPath} {p : PosixPath} :
    p ∈ sortedPaths paths ↔ p ∈ paths := by
  unfold sortedPaths
  exact List.mem_insertionSort _

theorem sortedPaths_pairwise (paths : List PosixPath) :
    (sortedPaths paths).Pairwise fun p q => p.key ≤ q.key := by
  have htotal : Std.Total fun p q : PosixPath => p.key ≤ q.key :=
    ⟨fun p q => le_total p.key q.key⟩
  have htrans : IsTrans PosixPath fun p q => p.key ≤ q.key :=
    ⟨fun p q r hpq hqr => le_trans hpq hqr⟩
  exact List.pairwise_insertionSort _ paths

theorem mem_sortedSet {texts : List (List Char)} {text : List Char} :
    text ∈ sortedSet texts ↔ text ∈ texts := by
  unfold sortedSet
  rw [List.mem_insertionSort, List.mem_dedup]

theorem nodup_sortedSet (texts : List (List Char)) : (sortedSet texts).Nodup :=
  (List.perm_insertionSort _ _).nodup_iff.mpr (List.nodup_dedup texts)

/-- Texts that are the same as a set are sorted to the same list. -/
theorem sortedSet_congr {texts texts' : List (List Char)}
    (h : ∀ text, text ∈ texts ↔ text ∈ texts') : sortedSet texts = sortedSet texts' := by
  have hperm : (sortedSet texts).Perm (sortedSet texts') := by
    apply (List.perm_ext_iff_of_nodup (nodup_sortedSet texts) (nodup_sortedSet texts')).mpr
    intro text
    rw [mem_sortedSet, mem_sortedSet]
    exact h text
  exact hperm.eq_of_sortedLE List.sortedLE_insertionSort List.sortedLE_insertionSort

/-! ### Patterns -/

/-- A piece of a shell pattern; a set has the characters between the bounds of one of its
items, or those that are in none. -/
inductive Glob where
  | star
  | any
  | literal (c : Char)
  | set (negated : Bool) (items : List (Char × Char))
  deriving DecidableEq, Repr

namespace Glob

/-- The items of a set: single characters and ranges. -/
def items : List Char → List (Char × Char)
  | a :: '-' :: b :: rest => (a, b) :: items rest
  | a :: rest => (a, a) :: items rest
  | [] => []

/-- What stands in a set that starts after `[`, and what follows its `]`; a `]` in front
does not end it. -/
def setBody (text : List Char) : Option (List Char × List Char) :=
  match text with
  | ']' :: rest => (splitAtFirst [']'] rest).map fun (body, after) => (']' :: body, after)
  | _ => splitAtFirst [']'] text

/-- A set that starts after `[`, and what follows it. -/
def parseSet (text : List Char) : Option (Glob × List Char) :=
  match text with
  | '!' :: rest => (setBody rest).map fun (body, after) => (.set true (items body), after)
  | _ => (setBody text).map fun (body, after) => (.set false (items body), after)

/-- The pieces of a pattern, from where `skip` characters are passed over. -/
def parseFrom : ℕ → List Char → List Glob
  | _, [] => []
  | skip + 1, _ :: rest => parseFrom skip rest
  | 0, '*' :: rest => star :: parseFrom 0 rest
  | 0, '?' :: rest => any :: parseFrom 0 rest
  | 0, '[' :: rest =>
    match parseSet rest with
    | none => literal '[' :: parseFrom 0 rest
    | some (piece, after) => piece :: parseFrom (rest.length - after.length) rest
  | 0, c :: rest => literal c :: parseFrom 0 rest

def parse (pattern : List Char) : List Glob := parseFrom 0 pattern

/-- A piece that stands for one character. -/
def accepts : Glob → Char → Bool
  | star, _ => false
  | any, _ => true
  | literal d, c => c = d
  | set negated items, c => (items.any fun (a, b) => a ≤ c && c ≤ b) != negated

/-- `fnmatch.fnmatchcase`, for a parsed pattern. -/
def fnmatch : List Glob → List Char → Bool
  | [], text => text = []
  | star :: rest, text => text.tails.any (fnmatch rest)
  | piece :: rest, text =>
    match text with
    | [] => false
    | c :: text => piece.accepts c && fnmatch rest text

end Glob

/-! ### Files -/

/-- What a program can learn of the files of a machine. -/
structure FileSystem where
  /-- The bytes of a file that can be read. -/
  bytes : PosixPath → Option (List UInt8) := fun _ => none
  /-- Whether there is a directory; nothing where finding out fails with an error that
  `is_dir` passes on. -/
  isDir : PosixPath → Option Bool := fun _ => some false
  /-- The names in a directory that can be listed, in any order. -/
  names : PosixPath → Option (List (List Char)) := fun _ => none
  /-- A directory and the directories below it. -/
  directoriesBelow : PosixPath → List PosixPath := fun p => [p]
  /-- `Path.home()`. -/
  home : PosixPath := ⟨['/'], [['r', 'o', 'o', 't']]⟩

namespace FileSystem

/-- Why a file cannot be read. -/
inductive ReadError where
  | os | unicode | nul
  deriving DecidableEq, Repr

/-- `path.read_text(encoding="utf-8")`. -/
def readText (fs : FileSystem) (p : PosixPath) : Except ReadError (List Char) :=
  if '\x00' ∈ p.toText then .error .nul
  else
    match fs.bytes p with
    | none => .error .os
    | some bytes =>
      match decodeUtf8 bytes with
      | none => .error .unicode
      | some text => .ok (universalNewlines text)

/-- Why a pattern cannot be expanded. -/
inductive GlobError where
  | pattern | os
  deriving DecidableEq, Repr

/-- `directory.glob(pattern)`, for a pattern of one part. -/
def glob (fs : FileSystem) (directory : PosixPath) (pattern : List Char) :
    Except GlobError (List PosixPath) :=
  if pattern ≠ ['*', '*'] ∧ ['*', '*'] <:+: pattern then .error .pattern
  else
    match if '\x00' ∈ directory.toText then some false else fs.isDir directory with
    | none => .error .os
    | some false => .ok []
    | some true =>
      if pattern = ['*', '*'] then .ok (fs.directoriesBelow directory)
      else
        let names := (fs.names directory).getD []
        .ok ((names.filter (Glob.fnmatch (Glob.parse pattern))).map directory.child)

end FileSystem

end UdpAnalyzer
