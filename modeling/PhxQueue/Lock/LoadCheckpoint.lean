import PhxQueue.Comm.ClearTree
import PhxQueue.Comm.CopyTree

/-!
# Loading a checkpoint

`LockSM::LoadCheckpointState` clears the mirror directory and copies the checkpoint into it.

* `Mirror`                a directory tree as it is on the file system;
* `loadCheckpointState`   the function;
* `loadCheckpoint_complete_iff`
                          **when a copy that is reported as made is complete**, of `RecursiveCopyDir` and of
                          the checkpoint;
* `lostByte_reported_as_made`
                          a byte that cannot be written.
-/

set_option linter.unusedSectionVars false

namespace PhxQueue.Lock
open Lib Comm.FileUtil

variable {B : Type}

/-- A directory tree, and the file system it is read from. -/
structure Mirror (B : Type) where
  tree : Tree String B
  fs : Fs String B
  find_eq : ∀ q, fs.find q = tree.root.find q

section
variable (errno : Op → ℤ) (checkpointTmpFileDirPath : String) (fileList : List String)

/-- `LockSM::LoadCheckpointState`, from the tree in `checkpoint_tmp_file_dir_path` and the mirror
directory. -/
def loadCheckpointState (source : Tree String B) (mirror : Mirror B) : ℤ × Fs String B :=
  if checkpointTmpFileDirPath.isEmpty || fileList.length ≤ 0 then (-1, mirror.fs)
  else
    -- 2. clear mirror
    let cleared := recursiveRemoveDir errno mirror.tree.root true false mirror.fs
    if cleared.1 ≠ 0 then (-1, cleared.2)
    else
      -- 3. copy files from tmp to mirror
      let loaded := recursiveCopyDir errno source.root true false cleared.2
      if loaded.1 ≠ 0 then (-1, loaded.2) else loaded

/-- `LoadCheckpointState` meets an error that it returns: nothing to load from, or a directory of the mirror
or of the checkpoint that cannot be opened or closed. -/
def LoadReports (source : Tree String B) (mirror : Mirror B) : Prop :=
  (checkpointTmpFileDirPath.isEmpty || fileList.length ≤ 0) = true ∨
    ¬ (OpensAll (removeTravel errno true : Travel B) errno mirror.tree.root ∧
      OpensAll (copyTravel errno true : Travel B) errno source.root)

variable {errno checkpointTmpFileDirPath fileList}

lemma reports_iff (source : Tree String B) (fs : Fs String B) :
    Reports errno true false source.root fs ↔
      ¬ OpensAll (copyTravel errno true : Travel B) errno source.root :=
  not_congr (and_iff_right fun h => absurd h Bool.false_ne_true)

lemma loadCheckpointState_of_args {source : Tree String B} {mirror : Mirror B}
    (hargs : (checkpointTmpFileDirPath.isEmpty || fileList.length ≤ 0) = true) :
    (loadCheckpointState errno checkpointTmpFileDirPath fileList source mirror).1 = -1 := by
  unfold loadCheckpointState
  rw [if_pos hargs]

lemma loadCheckpointState_of_not_cleared {source : Tree String B} {mirror : Mirror B}
    (hargs : ¬ (checkpointTmpFileDirPath.isEmpty || fileList.length ≤ 0) = true)
    (hcleared : (recursiveRemoveDir errno mirror.tree.root true false mirror.fs).1 ≠ 0) :
    (loadCheckpointState errno checkpointTmpFileDirPath fileList source mirror).1 = -1 := by
  unfold loadCheckpointState
  dsimp only
  rw [if_neg hargs, if_pos hcleared]

/-- Past the checks, what the copy into the cleared mirror comes to. -/
lemma loadCheckpointState_complete {source : Tree String B} {mirror : Mirror B}
    (hargs : ¬ (checkpointTmpFileDirPath.isEmpty || fileList.length ≤ 0) = true)
    (hcleared : (recursiveRemoveDir errno mirror.tree.root true false mirror.fs).1 = 0) :
    ((loadCheckpointState errno checkpointTmpFileDirPath fileList source mirror).1 = 0 →
        Complete source.root
          (loadCheckpointState errno checkpointTmpFileDirPath fileList source mirror).2) ↔
      ((recursiveCopyDir errno source.root true false
          (recursiveRemoveDir errno mirror.tree.root true false mirror.fs).2).1 = 0 →
        Complete source.root (recursiveCopyDir errno source.root true false
          (recursiveRemoveDir errno mirror.tree.root true false mirror.fs).2).2) := by
  unfold loadCheckpointState
  rw [if_neg hargs]
  dsimp only
  rw [if_neg (not_not.mpr hcleared)]
  split
  next hfailed => exact iff_of_true (fun h => absurd h (show (-1 : ℤ) ≠ 0 by decide)) fun h => absurd h hfailed
  next => rfl

/-- **When a checkpoint that is reported as loaded is complete**: every file and subdirectory of it is in
place, over what the clearing leaves of the mirror. -/
theorem loadCheckpointState_complete_iff (source : Tree String B) (mirror : Mirror B) :
    ((loadCheckpointState errno checkpointTmpFileDirPath fileList source mirror).1 = 0 →
        Complete source.root
          (loadCheckpointState errno checkpointTmpFileDirPath fileList source mirror).2) ↔
      LoadReports errno checkpointTmpFileDirPath fileList source mirror ∨
        InPlace errno true source.root (remainder errno [] 0 mirror.tree.root) := by
  by_cases hargs : (checkpointTmpFileDirPath.isEmpty || fileList.length ≤ 0) = true
  · refine iff_of_true (fun h => ?_) (Or.inl (Or.inl hargs))
    rw [loadCheckpointState_of_args hargs] at h
    exact absurd h (show (-1 : ℤ) ≠ 0 by decide)
  · by_cases hcleared : (recursiveRemoveDir errno mirror.tree.root true false mirror.fs).1 = 0
    · have hopen := (recursiveRemoveDir_eq_zero_iff mirror.tree.nodup mirror.fs).mp hcleared
      have hfind := find_recursiveRemoveDir mirror.tree.nodup mirror.find_eq hcleared
      have hroot := hfind []
      rw [if_pos rfl] at hroot
      rw [loadCheckpointState_complete hargs hcleared,
        recursiveCopyDir_complete_iff source.nodup, reports_iff]
      refine or_congr ?_ ?_
      · unfold LoadReports
        rw [or_iff_right hargs, and_iff_right hopen]
      · rw [and_iff_right (Or.inr (Or.inl hroot))]
        exact inPlace_congr fun m q => (hfind (m :: q)).trans (if_neg (List.cons_ne_nil m q))
    · refine iff_of_true (fun h => ?_) (Or.inl (Or.inr fun hopen => ?_))
      · rw [loadCheckpointState_of_not_cleared hargs hcleared] at h
        exact absurd h (show (-1 : ℤ) ≠ 0 by decide)
      · exact hcleared ((recursiveRemoveDir_eq_zero_iff mirror.tree.nodup mirror.fs).mpr hopen.1)

end

/-- **When a copy that is reported as made is complete.**  Whatever operations fail, one or many:
`RecursiveCopyDir` returns zero for an incomplete copy exactly when no directory that it opens or closes
fails, and some file or subdirectory is neither copied without an error nor there before.
`LoadCheckpointState` does so of a checkpoint over what the clearing has left. -/
theorem loadCheckpoint_complete_iff (errno : Op → ℤ) (source : Tree String B) :
    (∀ (recursive copyRoot : Bool) (fs : Fs String B),
      ((recursiveCopyDir errno source.root recursive copyRoot fs).1 = 0 →
          Complete source.root (recursiveCopyDir errno source.root recursive copyRoot fs).2) ↔
        Reports errno recursive copyRoot source.root fs ∨
          (copyRoot = true ∨ fs.find [] = some .dir ∨ NothingToCopy source.root) ∧
            InPlace errno recursive source.root fs.find) ∧
    (∀ (checkpointTmpFileDirPath : String) (fileList : List String) (mirror : Mirror B),
      ((loadCheckpointState errno checkpointTmpFileDirPath fileList source mirror).1 = 0 →
          Complete source.root
            (loadCheckpointState errno checkpointTmpFileDirPath fileList source mirror).2) ↔
        LoadReports errno checkpointTmpFileDirPath fileList source mirror ∨
          InPlace errno true source.root (remainder errno [] 0 mirror.tree.root)) :=
  ⟨fun _ _ fs => recursiveCopyDir_complete_iff source.nodup fs,
    fun _ _ mirror => loadCheckpointState_complete_iff source mirror⟩

/-! ## A full disk -/

def emptyMirror : Mirror ℕ where
  tree := { root := .nil, nodup := trivial }
  fs :=
    { entries := AList.singleton [] .dir
      parent := fun p n h => by
        rw [AList.lookup_isSome, AList.mem_keys, AList.keys_singleton, List.mem_singleton] at h
        exact absurd h (List.append_ne_nil_of_right_ne_nil _ (List.cons_ne_nil _ _)) }
  find_eq q := by
    cases q with
    | nil => rfl
    | cons m q =>
      refine AList.lookup_eq_none.mpr fun h => ?_
      rw [AList.mem_keys, AList.keys_singleton, List.mem_singleton] at h
      exact absurd h (List.cons_ne_nil m q)

def oneFile : Tree String ℕ where
  root := .dot (.dot (.file "CURRENT" true [77, 10] .nil))
  nodup := ⟨List.not_mem_nil, trivial⟩

/-- The second byte does not fit: one operation fails, and both functions return zero over a file that is cut
off. -/
theorem lostByte_reported_as_made :
    ¬ ((recursiveCopyDir (fun op => if op = .write ["CURRENT"] 1 then 28 else 0) oneFile.root true false
          emptyMirror.fs).1 = 0 →
        Complete oneFile.root (recursiveCopyDir
          (fun op => if op = .write ["CURRENT"] 1 then 28 else 0) oneFile.root true false
          emptyMirror.fs).2) ∧
    ¬ ((loadCheckpointState (fun op => if op = .write ["CURRENT"] 1 then 28 else 0) "/tmp/cp" ["CURRENT"]
          oneFile emptyMirror).1 = 0 →
        Complete oneFile.root (loadCheckpointState
          (fun op => if op = .write ["CURRENT"] 1 then 28 else 0) "/tmp/cp" ["CURRENT"] oneFile
          emptyMirror).2) := by
  constructor
  · intro h
    have hfile := h (by decide) "CURRENT" [] (.file [77, 10]) (by decide) (by decide)
    revert hfile
    decide
  · intro h
    have hfile := h (by decide) "CURRENT" [] (.file [77, 10]) (by decide) (by decide)
    revert hfile
    decide

end PhxQueue.Lock
