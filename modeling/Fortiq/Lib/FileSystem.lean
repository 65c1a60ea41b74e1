/-
A file system as a map from paths to contents, with the steps by which a file is written: create or truncate, append,
rename and remove. Each changes the paths it names and no other.
-/
import Mathlib.Logic.Function.Basic
import Mathlib.Tactic

structure FileSystem (P β : Type) where
  read : P → Option (List β)

namespace FileSystem

variable {P β : Type} [DecidableEq P]

def empty : FileSystem P β := ⟨fun _ => none⟩

/-- An empty file at the path, in place of what was there. -/
def create (fs : FileSystem P β) (p : P) : FileSystem P β := ⟨Function.update fs.read p (some [])⟩

/-- More at the end of the file that is at the path; where there is none, what is written is lost. -/
def append (fs : FileSystem P β) (p : P) (content : List β) : FileSystem P β :=
  ⟨Function.update fs.read p ((fs.read p).map (· ++ content))⟩

def remove (fs : FileSystem P β) (p : P) : FileSystem P β := ⟨Function.update fs.read p none⟩

/-- The file moves over what is at its new path. -/
def rename (fs : FileSystem P β) (p q : P) : FileSystem P β :=
  match fs.read p with
  | none => fs
  | some content => ⟨Function.update (Function.update fs.read p none) q (some content)⟩

variable {fs : FileSystem P β} {p q r : P} {content : List β}

@[simp] theorem read_create_self : (fs.create p).read p = some [] := by simp [create]

theorem read_create_of_ne (h : r ≠ p) : (fs.create p).read r = fs.read r := by simp [create, h]

@[simp] theorem read_append_self : (fs.append p content).read p = (fs.read p).map (· ++ content) := by simp [append]

theorem read_append_of_ne (h : r ≠ p) : (fs.append p content).read r = fs.read r := by simp [append, h]

theorem read_remove_of_ne (h : r ≠ p) : (fs.remove p).read r = fs.read r := by simp [remove, h]

theorem read_rename_to (h : fs.read p = some content) : (fs.rename p q).read q = some content := by
  simp [rename, h]

theorem read_rename_of_ne (hp : r ≠ p) (hq : r ≠ q) : (fs.rename p q).read r = fs.read r := by
  unfold rename
  cases fs.read p with
  | none => rfl
  | some content => simp [hp, hq]

end FileSystem
