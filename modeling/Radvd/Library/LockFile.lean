import Mathlib.Logic.Function.Basic
import Radvd.Library.Runs

/-!
# Lock files

A name in a directory, the files that have been created under it, and advisory
locks on them. A lock belongs to the file and not to the name: where the name is
removed, another file may get it, and then each of the two files has a lock of its
own.

An owner of the file that has the name is the only one (`Owns.unique`), and stays
so as long as nothing removes the name and the owner does not give its lock back.
-/

namespace LockFile

universe u v

variable {α : Type u} {ι : Type v}

/-- Files are numbered in the order of their creation. -/
structure Files (α : Type u) (ι : Type v) where
  named : Option Nat
  created : Nat
  content : Nat → List α
  holder : Nat → Option ι

namespace Files

variable (files : Files α ι)

/-- The file that has the name, which is created if there is none. -/
def openCreate : Nat × Files α ι :=
  match files.named with
  | some file => (file, files)
  | none =>
      (files.created, { files with
        named := some files.created
        created := files.created + 1
        content := Function.update files.content files.created [] })

/-- An exclusive lock without waiting, which nobody gets while another has it. -/
def tryLock (file : Nat) (owner : ι) : Option (Files α ι) :=
  match files.holder file with
  | none => some { files with holder := Function.update files.holder file (some owner) }
  | some _ => none

/-- The owner has closed every descriptor. -/
def release [DecidableEq ι] (owner : ι) : Files α ι :=
  { files with
    holder := fun file => if files.holder file = some owner then none else files.holder file }

def unlink : Files α ι :=
  { files with named := none }

/-- The items take the place of those at the offset, and the rest stays. -/
def write (file offset : Nat) (items : List α) : Files α ι :=
  { files with
    content := Function.update files.content file
      ((files.content file).take offset ++ items ++
        (files.content file).drop (offset + items.length)) }

end Files

/-- The owner has the lock of the file that has the name. -/
structure Owns (files : Files α ι) (owner : ι) (file : Nat) : Prop where
  named : files.named = some file
  holder : files.holder file = some owner

section

variable {files locked : Files α ι} {owner other : ι} {file target offset : Nat} {items : List α}

theorem Owns.unique {otherFile : Nat} (owns : Owns files owner file)
    (ownsOther : Owns files other otherFile) : owner = other := by
  have sameFile := owns.named.symm.trans ownsOther.named
  cases sameFile
  have sameHolder := owns.holder.symm.trans ownsOther.holder
  cases sameHolder
  rfl

theorem openCreate_of_named (named : files.named = some file) : files.openCreate = (file, files) := by
  rw [Files.openCreate, named]

theorem Owns.openCreate (owns : Owns files owner file) : Owns files.openCreate.2 owner file := by
  rw [openCreate_of_named owns.named]
  exact owns

/-- Whoever locks the file that has the name owns it. -/
theorem owns_of_tryLock (named : files.named = some file)
    (done : files.tryLock file owner = some locked) : Owns locked owner file := by
  unfold Files.tryLock at done
  split at done
  · cases done
    exact ⟨named, Function.update_self ..⟩
  · cases done

theorem Owns.tryLock (owns : Owns files owner file)
    (done : files.tryLock target other = some locked) : Owns locked owner file := by
  unfold Files.tryLock at done
  split at done
  · rename_i free
    cases done
    have differ : file ≠ target := by
      rintro rfl
      rw [owns.holder] at free
      cases free
    exact ⟨owns.named, (Function.update_of_ne differ ..).trans owns.holder⟩
  · cases done

theorem Owns.release [DecidableEq ι] (owns : Owns files owner file) (differ : other ≠ owner) :
    Owns (files.release other) owner file := by
  have kept : files.holder file ≠ some other := by
    rw [owns.holder]
    rintro ⟨⟩
    exact differ rfl
  exact ⟨owns.named, (if_neg kept).trans owns.holder⟩

theorem Owns.write (owns : Owns files owner file) :
    Owns (files.write target offset items) owner file :=
  ⟨owns.named, owns.holder⟩

theorem content_tryLock (done : files.tryLock target owner = some locked) :
    locked.content = files.content := by
  unfold Files.tryLock at done
  split at done
  · cases done
    rfl
  · cases done

theorem content_write :
    (files.write file offset items).content file =
      (files.content file).take offset ++ items ++
        (files.content file).drop (offset + items.length) :=
  Function.update_self ..

/-- What is written behind the beginning of a file makes the beginning longer. -/
theorem prefix_write {before : List α} (begins : before <+: files.content file) :
    before ++ items <+: (files.write file before.length items).content file := by
  rcases begins with ⟨rest, shape⟩
  rw [content_write, ← shape, List.take_left]
  exact List.prefix_append ..

end

end LockFile
