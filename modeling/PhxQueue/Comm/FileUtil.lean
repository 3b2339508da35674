import PhxQueue.Lib.DirTree

/-!
# Walking a directory tree

`DoTravelDir` with its callbacks, and the two functions built on it, with every operation on the file
system one that may fail.

* `Op`, `syscall`         the operations, and one of them that may fail;
* `Travel`, `travelLoop`, `doTravelDir`
                          the walk;
* `removeFile`, `removeDir`, `copyFile`, `copyDir`
                          the callbacks;
* `recursiveRemoveDir`, `recursiveCopyDir`
                          the walks with them;
* `find_removeFile`, `find_removeDir`, `find_copyFile`, `find_copyDir`
                          what each callback changes.
-/

set_option linter.unusedSectionVars false

namespace PhxQueue.Comm.FileUtil
open Lib

variable {B : Type}

/-- A path below the root of a walk, the `relative_..._path` of the source. -/
abbrev Path := List String

/-- The tree that is read, or the one that is changed. -/
inductive Side
  | src
  | dst
  deriving DecidableEq

/-- An operation on the file system: the `i`-th `readdir` of a directory, the `i`-th byte of a file. -/
inductive Op
  | opendir (side : Side) (p : Path)
  | readdir (side : Side) (p : Path) (i : ℕ)
  | closedir (side : Side) (p : Path)
  | unlink (p : Path)
  | rmdir (p : Path)
  | stat (p : Path)
  | mkdir (p : Path)
  | openSrc (p : Path)
  | openDst (p : Path)
  | read (p : Path) (i : ℕ)
  | write (p : Path) (i : ℕ)
  deriving DecidableEq

/-- The `errno` of a refused operation. -/
def refusalErrno : Refusal → ℤ
  | .noEntry => 2
  | .special => 6
  | .taken => 17
  | .notDir => 20
  | .isDir => 21
  | .notEmpty => 39

lemma refusalErrno_ne_zero (r : Refusal) : refusalErrno r ≠ 0 := by
  cases r <;> decide

section
variable (errno : Op → ℤ)

/-- An operation on the tree that is changed.  It fails by itself where `errno` is not zero, and else it
does what the file system makes of it. -/
def syscall (op : Op) (result : Except Refusal (Fs String B)) (fs : Fs String B) : ℤ × Fs String B :=
  if errno op ≠ 0 then (errno op, fs)
  else
    match result with
    | .ok fs' => (0, fs')
    | .error r => (refusalErrno r, fs)

def removeFile (p : Path) (fs : Fs String B) : ℤ × Fs String B :=
  syscall errno (.unlink p) (fs.unlink p) fs

def removeDir (p : Path) (fs : Fs String B) : ℤ × Fs String B :=
  syscall errno (.rmdir p) (fs.rmdir p) fs

def copyDir (p : Path) (fs : Fs String B) : ℤ × Fs String B :=
  if errno (.stat p) ≠ 0 then (errno (.stat p), fs) else syscall errno (.mkdir p) (fs.mkdir p) fs

/-- The bytes before the first one whose reading or writing fails. -/
def copied (p : Path) : ℕ → List B → List B
  | _, [] => []
  | i, b :: bs =>
    if errno (.read p i) ≠ 0 ∨ errno (.write p i) ≠ 0 then [] else b :: copied p (i + 1) bs

/-- What `CopyFile` asks of a stream. -/
structure Stream where
  isOpen : Bool
  failbit : Bool
  badbit : Bool

def Stream.good (s : Stream) : Bool := !s.failbit && !s.badbit

def Stream.opened (ok : Bool) : Stream := { isOpen := ok, failbit := !ok, badbit := false }

/-- `dst << src.rdbuf()`.  A byte that cannot be read or written ends it; when not one came over `failbit`
is set.  `badbit` would be for a null buffer, which `src` does not have. -/
def insertBuf (p : Path) (content : List B) (dst : Stream) (fs : Fs String B) :
    Stream × Fs String B :=
  ({ dst with failbit := dst.failbit || (copied errno p 0 content).isEmpty },
    fs.after (fs.write p (copied errno p 0 content)))

/-- `CopyFile`.  The output file is emptied when it is opened, whether the input can be read or not. -/
def copyFile (p : Path) (content : List B) (fs : Fs String B) : ℤ × Fs String B :=
  let src := Stream.opened (errno (.openSrc p) = 0)
  let opening := syscall errno (.openDst p) (fs.write p []) fs
  let dst := Stream.opened (opening.1 = 0)
  let written :=
    if src.isOpen && dst.isOpen && src.good && dst.good then insertBuf errno p content dst opening.2
    else (dst, opening.2)
  (if written.1.badbit then -1 else 0, written.2)

/-! ## What the callbacks change -/

lemma syscall_eq_zero_iff (op : Op) (result : Except Refusal (Fs String B)) (fs : Fs String B) :
    (syscall errno op result fs).1 = 0 ↔ errno op = 0 ∧ ∃ fs', result = .ok fs' := by
  unfold syscall
  by_cases hop : errno op = 0
  · rw [if_neg (not_not.mpr hop)]
    cases result with
    | ok fs' => exact iff_of_true rfl ⟨hop, fs', rfl⟩
    | error r =>
      refine iff_of_false (refusalErrno_ne_zero r) ?_
      rintro ⟨-, fs', h⟩
      cases h
  · rw [if_pos hop]
    exact iff_of_false hop fun h => hop h.1

lemma syscall_state (op : Op) (result : Except Refusal (Fs String B)) (fs : Fs String B) :
    (syscall errno op result fs).2 = if errno op = 0 then fs.after result else fs := by
  unfold syscall
  by_cases hop : errno op = 0
  · rw [if_neg (not_not.mpr hop), if_pos hop]
    cases result <;> rfl
  · rw [if_pos hop, if_neg hop]

lemma find_removeFile (p : Path) (fs : Fs String B) (q : Path) :
    (removeFile errno p fs).2.find q =
      if q = p ∧ errno (.unlink p) = 0 ∧ fs.find p ≠ some .dir then none else fs.find q := by
  unfold removeFile
  rw [syscall_state]
  by_cases hop : errno (.unlink p) = 0
  · rw [if_pos hop, Fs.find_unlink]
    simp only [hop, true_and]
  · rw [if_neg hop, if_neg fun h => hop h.2.1]

lemma find_removeDir (p : Path) (fs : Fs String B) (q : Path) :
    (removeDir errno p fs).2.find q =
      if q = p ∧ errno (.rmdir p) = 0 ∧ fs.find p = some .dir ∧ fs.Empty p then none
      else fs.find q := by
  unfold removeDir
  rw [syscall_state]
  by_cases hop : errno (.rmdir p) = 0
  · rw [if_pos hop, Fs.find_rmdir]
    simp only [hop, true_and]
  · rw [if_neg hop, if_neg fun h => hop h.2.1]

lemma copyDir_eq_zero_iff (p : Path) (fs : Fs String B) :
    (copyDir errno p fs).1 = 0 ↔
      errno (.stat p) = 0 ∧ errno (.mkdir p) = 0 ∧ fs.find p = none ∧ fs.HasParent p := by
  unfold copyDir
  by_cases hstat : errno (.stat p) = 0
  · rw [if_neg (not_not.mpr hstat), syscall_eq_zero_iff, Fs.mkdir_isOk]
    exact (and_iff_right hstat).symm
  · rw [if_pos hstat]
    exact iff_of_false hstat fun h => hstat h.1

lemma find_copyDir (p : Path) (fs : Fs String B) (q : Path) :
    (copyDir errno p fs).2.find q =
      if q = p ∧ (errno (.stat p) = 0 ∧ errno (.mkdir p) = 0) ∧ fs.find p = none ∧ fs.HasParent p
      then some .dir else fs.find q := by
  unfold copyDir
  by_cases hstat : errno (.stat p) = 0
  · rw [if_neg (not_not.mpr hstat), syscall_state]
    by_cases hop : errno (.mkdir p) = 0
    · rw [if_pos hop, Fs.find_mkdir]
      simp only [hstat, hop, true_and]
    · rw [if_neg hop, if_neg fun h => hop h.2.1.2]
  · rw [if_pos hstat, if_neg fun h => hstat h.2.1.1]

/-- With both files open the bytes that come over are written, and else only the opening is done. -/
lemma copyFile_state (p : Path) (content : List B) (fs : Fs String B) :
    (copyFile errno p content fs).2 =
      let opening := syscall errno (.openDst p) (fs.write p []) fs
      if errno (.openSrc p) = 0 ∧ opening.1 = 0 then
        opening.2.after (opening.2.write p (copied errno p 0 content))
      else opening.2 := by
  unfold copyFile insertBuf Stream.good Stream.opened
  by_cases hsrc : errno (.openSrc p) = 0
  · by_cases hdst : (syscall errno (.openDst p) (fs.write p []) fs).1 = 0
    · simp [hsrc, hdst]
    · simp [hsrc, hdst]
  · simp [hsrc]

lemma find_copyFile (p : Path) (content : List B) (fs : Fs String B) (q : Path) :
    (copyFile errno p content fs).2.find q =
      if q = p ∧ errno (.openDst p) = 0 ∧ fs.Writable p then
        some (.file (if errno (.openSrc p) = 0 then copied errno p 0 content else []))
      else fs.find q := by
  have hzero : (syscall errno (.openDst p) (fs.write p []) fs).1 = 0 ↔
      errno (.openDst p) = 0 ∧ fs.Writable p := by
    rw [syscall_eq_zero_iff, Fs.write_isOk]
  have hopened (r : Path) : (syscall errno (.openDst p) (fs.write p []) fs).2.find r =
      if r = p ∧ errno (.openDst p) = 0 ∧ fs.Writable p then some (.file []) else fs.find r := by
    rw [syscall_state]
    by_cases hop : errno (.openDst p) = 0
    · rw [if_pos hop, Fs.find_write]
      simp only [hop, true_and]
    · rw [if_neg hop, if_neg fun h => hop h.2.1]
  rw [copyFile_state]
  dsimp only
  by_cases hdst : errno (.openDst p) = 0 ∧ fs.Writable p
  · by_cases hsrc : errno (.openSrc p) = 0
    · have hw : (syscall errno (.openDst p) (fs.write p []) fs).2.Writable p := by
        have hfile := hopened p
        rw [if_pos ⟨rfl, hdst⟩] at hfile
        refine ⟨Fs.hasParent_of_find hfile, ?_, ?_⟩
        · rw [hfile]
          exact Entry.some_file_ne_dir _
        · rw [hfile]
          exact Entry.some_file_ne_other _
      rw [if_pos ⟨hsrc, hzero.mpr hdst⟩, Fs.find_write, if_pos hsrc, hopened]
      by_cases hq : q = p
      · rw [if_pos ⟨hq, hw⟩, if_pos ⟨hq, hdst⟩]
      · rw [if_neg fun h => hq h.1, if_neg fun h => hq h.1, if_neg fun h => hq h.1]
    · rw [if_neg fun h => hsrc h.1, if_neg hsrc, hopened]
  · rw [if_neg fun h => hdst (hzero.mp h.2), hopened, if_neg fun h => hdst h.2,
      if_neg fun h => hdst h.2]

lemma copied_eq_iff (p : Path) (i : ℕ) (content : List B) :
    copied errno p i content = content ↔
      ∀ j < content.length, errno (.read p (i + j)) = 0 ∧ errno (.write p (i + j)) = 0 := by
  induction content generalizing i with
  | nil => exact iff_of_true rfl fun j hj => absurd hj (Nat.not_lt_zero j)
  | cons b bs ih =>
    rw [copied, List.length_cons, Nat.forall_lt_succ_left]
    by_cases hfail : errno (.read p i) ≠ 0 ∨ errno (.write p i) ≠ 0
    · rw [if_pos hfail]
      refine iff_of_false (List.cons_ne_nil b bs).symm fun h => ?_
      rcases hfail with hread | hwrite
      · exact hread h.1.1
      · exact hwrite h.1.2
    · obtain ⟨hread, hwrite⟩ := not_or.mp hfail
      rw [if_neg hfail, List.cons_inj_right, ih]
      simp only [add_zero, not_not.mp hread, not_not.mp hwrite, and_self, true_and]
      refine forall₂_congr fun j _ => ?_
      rw [show i + 1 + j = i + (j + 1) by omega]

end

/-! ## The walk -/

/-- The arguments of `DoTravelDir` that stay the same on every level. -/
structure Travel (B : Type) where
  side : Side
  recursive : Bool
  fileBeforeCallback : Option (Path → List B → Fs String B → ℤ × Fs String B)
  fileAfterCallback : Option (Path → List B → Fs String B → ℤ × Fs String B)
  subDirBeforeCallback : Option (Path → Fs String B → ℤ × Fs String B)
  subDirAfterCallback : Option (Path → Fs String B → ℤ × Fs String B)

/-- A callback that is given is called.  What it returns goes into `call_back_ret`, which nothing reads. -/
def callback (f : Option (Fs String B → ℤ × Fs String B)) (fs : Fs String B) : Fs String B :=
  match f with
  | none => fs
  | some f => (f fs).2

namespace Travel

variable (t : Travel B) (errno : Op → ℤ)

def onFile (p : Path) (content : List B) (fs : Fs String B) : Fs String B :=
  callback (t.fileAfterCallback.map (· p content))
    (callback (t.fileBeforeCallback.map (· p content)) fs)

def onSubDirBefore (p : Path) (fs : Fs String B) : Fs String B :=
  callback (t.subDirBeforeCallback.map (· p)) fs

def onSubDirAfter (p : Path) (fs : Fs String B) : Fs String B :=
  callback (t.subDirAfterCallback.map (· p)) fs

/-- One `readdir`.  The loop ends when it fails as it does at the end of the directory. -/
def reading (p : Path) (i : ℕ) (fs : Fs String B) (next : ℤ × Fs String B) : ℤ × Fs String B :=
  if errno (.readdir t.side p i) ≠ 0 then (errno (.closedir t.side p), fs) else next

/-- `opendir`, and what comes after it. -/
def opening (p : Path) (fs : Fs String B) (next : ℤ × Fs String B) : ℤ × Fs String B :=
  if errno (.opendir t.side p) ≠ 0 then (errno (.opendir t.side p), fs) else next

def descend (p : Path) (fs : Fs String B) (next : ℤ × Fs String B) : ℤ × Fs String B :=
  if t.recursive then t.opening errno p fs next else (0, fs)

end Travel

variable (t : Travel B) (errno : Op → ℤ)

/-- The loop of `DoTravelDir` in the directory at `p`, with what `readdir` still has to give of it, and the
`closedir` at its end. -/
def travelLoop : Path → ℕ → Dir String B → Fs String B → ℤ × Fs String B
  | p, _, .nil, fs => (errno (.closedir t.side p), fs)
  | p, i, .dot rest, fs => t.reading errno p i fs (travelLoop p (i + 1) rest fs)
  | p, i, .file n typed content rest, fs =>
    t.reading errno p i fs
      (travelLoop p (i + 1) rest (if typed then t.onFile (p ++ [n]) content fs else fs))
  | p, i, .sub n typed d rest, fs =>
    t.reading errno p i fs
      (if typed then
        let made := t.onSubDirBefore (p ++ [n]) fs
        let nested := t.descend errno (p ++ [n]) made (travelLoop (p ++ [n]) 0 d made)
        let left := t.onSubDirAfter (p ++ [n]) nested.2
        if nested.1 ≠ 0 then (nested.1, left) else travelLoop p (i + 1) rest left
      else travelLoop p (i + 1) rest fs)
  | p, i, .other _ rest, fs => t.reading errno p i fs (travelLoop p (i + 1) rest fs)

def doTravelDir (d : Dir String B) (fs : Fs String B) : ℤ × Fs String B :=
  t.opening errno [] fs (travelLoop t errno [] 0 d fs)

/-- The walk of `RecursiveRemoveDir`. -/
def removeTravel (recursive : Bool) : Travel B where
  side := .dst
  recursive := recursive
  fileBeforeCallback := some fun p _ => removeFile errno p
  fileAfterCallback := none
  subDirBeforeCallback := none
  subDirAfterCallback := some (removeDir errno)

def recursiveRemoveDir (d : Dir String B) (recursive removeRoot : Bool) (fs : Fs String B) :
    ℤ × Fs String B :=
  let walked := doTravelDir (removeTravel errno recursive) errno d fs
  if walked.1 ≠ 0 then walked else if removeRoot then removeDir errno [] walked.2 else (0, walked.2)

/-- The walk of `RecursiveCopyDir`. -/
def copyTravel (recursive : Bool) : Travel B where
  side := .src
  recursive := recursive
  fileBeforeCallback := none
  fileAfterCallback := some (copyFile errno)
  subDirBeforeCallback := some (copyDir errno)
  subDirAfterCallback := none

def recursiveCopyDir (d : Dir String B) (recursive copyRoot : Bool) (fs : Fs String B) :
    ℤ × Fs String B :=
  let rooted := if copyRoot then copyDir errno [] fs else (0, fs)
  if rooted.1 ≠ 0 then rooted else doTravelDir (copyTravel errno recursive) errno d rooted.2

end PhxQueue.Comm.FileUtil
