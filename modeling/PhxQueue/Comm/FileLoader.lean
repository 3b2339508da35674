import PhxQueue.Comm
import PhxQueue.Lib.Run

/-!
# FileLoader

`LoadIfModified` of `phxqueue_phxrpc/comm/fileloader.cpp` loads a file again when its modification time,
in whole seconds, is another one than at the last load, and has been for some time.

* `FileLoader`, `loadIfModified`   the code;
* `FileWorld`, `reloading`   the clock, the file and what has been loaded, while the file is written and
                             replaced;
* `Fresh`                    a check of a file that has been left alone gives its content;
* `TellsChange`              a change that leaves inode and time as recorded leaves the content loaded;
* `fresh_run`                **no change is missed in runs of such changes**;
* `sameSecond_not_fresh`     a write in the second of the last load.
-/

set_option linter.unusedSectionVars false

namespace PhxQueue.Comm
open Lib

/-! ## The code -/

/-- `FileLoaderImpl`; `ino` is not initialised. -/
structure FileLoader where
  file : String
  checkIntervalS : ℤ := 60
  refreshDelayS : ℤ := 60
  lastCheckTime : ℕ := 0
  lastModTime : ℕ := 0
  ino : ℕ
deriving DecidableEq

/-- What `stat` gives of a file. -/
structure FileStat where
  mtime : ℕ
  ino : ℕ
deriving DecidableEq

/-- `int(std::abs(int64_t(a - b)))`. -/
def absDiff (a b : ℕ) : ℤ := Int.bmod |Int.bmod ((a : ℤ) - b) (2 ^ 64)| (2 ^ 32)

namespace FileLoader

section
variable (impl : FileLoader) (nowTime : ℕ)

def clampTimes : FileLoader :=
  let impl := if impl.lastCheckTime > wrap64 (nowTime + 30) then
    { impl with lastCheckTime := nowTime } else impl
  if impl.lastModTime > wrap64 (nowTime + 30) then { impl with lastModTime := 0 } else impl

def resetTimeByInode (ino : ℕ) : FileLoader :=
  if impl.ino ≠ ino then { impl with ino := ino, lastModTime := 0 } else impl

def CheckDue : Prop := (nowTime : ℤ) > (impl.lastCheckTime + impl.checkIntervalS) % 2 ^ 64

/-- What makes a file that has been checked be loaded. -/
def NeedsLoad (fileStat : FileStat) : Prop :=
  impl.lastModTime = 0 ∨
    (absDiff fileStat.mtime impl.lastModTime > 0 ∧ absDiff nowTime fileStat.mtime > impl.refreshDelayS)

instance : Decidable (impl.CheckDue nowTime) := inferInstanceAs (Decidable (_ < _))

instance (fileStat : FileStat) : Decidable (impl.NeedsLoad nowTime fileStat) :=
  inferInstanceAs (Decidable (_ ∨ _))

/-- `LoadIfModified`: `fileStat` is what `stat` gives, and `loadOk` what `LoadFile` returns when it is
called.  The loader, `is_modified`, which says that it has been called, and what is returned. -/
def loadIfModified (fileStat : Option FileStat) (loadOk : Bool) : FileLoader × Bool × Bool :=
  if impl.file = "" then (impl, false, false) else
  let impl := impl.clampTimes nowTime
  if impl.CheckDue nowTime then
    match fileStat with
    | some fileStat =>
      let impl := impl.resetTimeByInode fileStat.ino
      if impl.NeedsLoad nowTime fileStat then
        -- double check
        if impl.CheckDue nowTime then
          let impl := if loadOk then
            { impl with lastCheckTime := nowTime, lastModTime := fileStat.mtime } else impl
          ({ impl with lastCheckTime := nowTime }, true, true)
        else ({ impl with lastCheckTime := nowTime }, false, true)
      else ({ impl with lastCheckTime := nowTime }, false, true)
    | none => ({ impl with lastCheckTime := nowTime }, false, false)
  else (impl, false, true)

/-- The call goes on to `stat`. -/
def Checks : Prop := impl.file ≠ "" ∧ (impl.clampTimes nowTime).CheckDue nowTime

instance : Decidable (impl.Checks nowTime) := inferInstanceAs (Decidable (_ ∧ _))

end

end FileLoader

/-! ## The file -/

structure ConfFile (C : Type) where
  content : C
  mtime : ℕ
  ino : ℕ
deriving DecidableEq

def ConfFile.stat {C : Type} (f : ConfFile C) : FileStat := ⟨f.mtime, f.ino⟩

/-- The loader, the clock in seconds, the file at its path, and the content loaded last. -/
structure FileWorld (C : Type) where
  loader : FileLoader
  clock : ℕ
  file : Option (ConfFile C) := none
  loaded : Option C := none

/-- What happens apart from the loader.  A replacement brings its own inode and time. -/
inductive FileChange (C : Type)
  | wait (seconds : ℕ)
  | write (content : C)
  | replace (f : ConfFile C)
  | remove

/-- A call of `LoadIfModified`: if it calls `LoadFile`, this fails, or reads the file after the given
changes have come between it and `stat`. -/
inductive FileEvent (C : Type)
  | change (c : FileChange C)
  | loadIfModified (loadFile : Option (List (FileChange C)))

namespace FileWorld

section
variable {C : Type} (w : FileWorld C)

def change : FileChange C → FileWorld C
  | .wait seconds => { w with clock := w.clock + seconds }
  | .write content => { w with file := w.file.map fun f => ⟨content, w.clock, f.ino⟩ }
  | .replace f => { w with file := some f }
  | .remove => { w with file := none }

/-- When `LoadFile` reads. -/
def atLoadFile (loadFile : Option (List (FileChange C))) : FileWorld C :=
  (loadFile.getD []).foldl change w

/-- `LoadFile` succeeds if it is called. -/
def loadOk (loadFile : Option (List (FileChange C))) : Bool :=
  loadFile.isSome && (w.atLoadFile loadFile).file.isSome

/-- The loader after a call, with `is_modified`. -/
def callLoader (loadFile : Option (List (FileChange C))) : FileLoader × Bool × Bool :=
  w.loader.loadIfModified w.clock (w.file.map ConfFile.stat) (w.loadOk loadFile)

def call (loadFile : Option (List (FileChange C))) : FileWorld C :=
  if (w.callLoader loadFile).2.1 then
    { w.atLoadFile loadFile with
      loader := (w.callLoader loadFile).1
      loaded :=
        if w.loadOk loadFile then (w.atLoadFile loadFile).file.map ConfFile.content else w.loaded }
  else { w with loader := (w.callLoader loadFile).1 }

def step : FileEvent C → FileWorld C
  | .change c => w.change c
  | .loadIfModified loadFile => w.call loadFile

/-- **A check that finds the file unmodified for longer than the delay leaves its content loaded**,
unless it calls `LoadFile` and this fails.  The modification time is then not ahead of the clock, although
the code compares how far the two are apart. -/
def Fresh : FileEvent C → Prop
  | .change _ => True
  | .loadIfModified loadFile => ∀ f ∈ w.file, w.loader.Checks w.clock →
    w.loader.refreshDelayS < (w.clock : ℤ) - f.mtime →
    ((w.callLoader loadFile).2.1 = true → w.loadOk loadFile = true) →
      (w.call loadFile).loaded = (w.call loadFile).file.map ConfFile.content

/-- The file that is there has the inode and the time recorded at the last load. -/
def LooksLoaded (f : ConfFile C) : Prop :=
  w.loader.lastModTime ≠ 0 ∧ f.ino = w.loader.ino ∧ f.mtime = w.loader.lastModTime

/-- The two differences of times are too large for an `int` and keep the file from being loaded. -/
def TimesOverflow (f : ConfFile C) : Prop :=
  (w.loader.clampTimes w.clock).lastModTime ≠ 0 ∧ f.ino = w.loader.ino ∧
    f.mtime ≠ w.loader.lastModTime ∧
    ¬ (absDiff f.mtime w.loader.lastModTime > 0 ∧ absDiff w.clock f.mtime > w.loader.refreshDelayS)

/-- A write or a replacement that leaves inode and time as they are recorded leaves the content loaded;
and a check that finds another content does not find times that overflow. -/
def TellsChange : FileEvent C → Prop
  | .change (.wait _) => True
  | .change (.write content) => ∀ f ∈ w.file,
    w.LooksLoaded ⟨content, w.clock, f.ino⟩ → w.loaded = some content
  | .change (.replace f) => w.LooksLoaded f → w.loaded = some f.content
  | .change .remove => True
  | .loadIfModified _ => ∀ f ∈ w.file, w.loader.Checks w.clock →
    w.loader.refreshDelayS < (w.clock : ℤ) - f.mtime → w.TimesOverflow f →
      w.loaded = some f.content

end

end FileWorld

instance FileWorld.decidableTellsChange {C : Type} [DecidableEq C] (w : FileWorld C) :
    (event : FileEvent C) → Decidable (w.TellsChange event)
  | .change (.wait _) => isTrue trivial
  | .change (.write content) => inferInstanceAs (Decidable (∀ f ∈ w.file,
      (w.loader.lastModTime ≠ 0 ∧ f.ino = w.loader.ino ∧ w.clock = w.loader.lastModTime) →
        w.loaded = some content))
  | .change (.replace f) => inferInstanceAs (Decidable
      ((w.loader.lastModTime ≠ 0 ∧ f.ino = w.loader.ino ∧ f.mtime = w.loader.lastModTime) →
        w.loaded = some f.content))
  | .change .remove => isTrue trivial
  | .loadIfModified _ => inferInstanceAs (Decidable (∀ f ∈ w.file, w.loader.Checks w.clock →
      w.loader.refreshDelayS < (w.clock : ℤ) - f.mtime →
      ((w.loader.clampTimes w.clock).lastModTime ≠ 0 ∧ f.ino = w.loader.ino ∧
        f.mtime ≠ w.loader.lastModTime ∧ ¬ (absDiff f.mtime w.loader.lastModTime > 0 ∧
          absDiff w.clock f.mtime > w.loader.refreshDelayS)) → w.loaded = some f.content))

/-- What a `FileLoader` is constructed with; `ino` is what the memory holds. -/
structure NewLoader where
  file : String
  checkIntervalS : ℤ := 60
  refreshDelayS : ℤ := 60
  ino : ℕ

/-- A loader that has been constructed, and a file that may be there. -/
def reloading {C : Type} (loader : NewLoader) (clock : ℕ) (file : Option (ConfFile C)) :
    Machine (FileWorld C) (FileEvent C) where
  init :=
    { loader :=
        { file := loader.file
          checkIntervalS := loader.checkIntervalS
          refreshDelayS := loader.refreshDelayS
          ino := loader.ino }
      clock := clock
      file := file }
  step := FileWorld.step

/-! ## One call -/

namespace FileLoader

section
variable {impl : FileLoader} {nowTime : ℕ} {fileStat : FileStat} {ino : ℕ} {ok : Bool}

lemma clampTimes_ino : (impl.clampTimes nowTime).ino = impl.ino := by
  unfold clampTimes
  dsimp only
  split <;> split <;> rfl

lemma clampTimes_refreshDelayS : (impl.clampTimes nowTime).refreshDelayS = impl.refreshDelayS := by
  unfold clampTimes
  dsimp only
  split <;> split <;> rfl

lemma clampTimes_lastModTime_eq : (impl.clampTimes nowTime).lastModTime =
    if impl.lastModTime > wrap64 (nowTime + 30) then 0 else impl.lastModTime := by
  unfold clampTimes
  by_cases hcheck : impl.lastCheckTime > wrap64 (nowTime + 30)
  · simp only [if_pos hcheck]
    split <;> rfl
  · simp only [if_neg hcheck]
    split <;> rfl

lemma clampTimes_lastModTime (h : (impl.clampTimes nowTime).lastModTime ≠ 0) :
    (impl.clampTimes nowTime).lastModTime = impl.lastModTime := by
  rw [clampTimes_lastModTime_eq] at h ⊢
  by_cases hmod : impl.lastModTime > wrap64 (nowTime + 30)
  · rw [if_pos hmod] at h
    exact absurd rfl h
  · rw [if_neg hmod]

lemma resetTimeByInode_checkDue :
    (impl.resetTimeByInode ino).CheckDue nowTime ↔ impl.CheckDue nowTime := by
  unfold resetTimeByInode
  split <;> exact Iff.rfl

lemma resetTimeByInode_ino : (impl.resetTimeByInode ino).ino = ino := by
  unfold resetTimeByInode
  split
  · rfl
  · rename_i heq
    exact not_not.mp heq

lemma resetTimeByInode_lastModTime (h : (impl.resetTimeByInode ino).lastModTime ≠ 0) :
    impl.ino = ino ∧ impl.resetTimeByInode ino = impl := by
  unfold resetTimeByInode at h ⊢
  split
  · rename_i hne
    rw [if_pos hne] at h
    exact absurd rfl h
  · rename_i heq
    exact ⟨not_not.mp heq, rfl⟩

def atDecision (impl : FileLoader) (nowTime : ℕ) (fileStat : FileStat) : FileLoader :=
  (impl.clampTimes nowTime).resetTimeByInode fileStat.ino

lemma atDecision_refreshDelayS :
    (impl.atDecision nowTime fileStat).refreshDelayS = impl.refreshDelayS := by
  unfold atDecision resetTimeByInode
  split <;> exact clampTimes_refreshDelayS

lemma atDecision_lastModTime (h : (impl.atDecision nowTime fileStat).lastModTime ≠ 0) :
    impl.ino = fileStat.ino ∧
      (impl.atDecision nowTime fileStat).lastModTime = impl.lastModTime ∧
      (impl.clampTimes nowTime).lastModTime = impl.lastModTime := by
  obtain ⟨hino, heq⟩ := resetTimeByInode_lastModTime h
  have hclamp : (impl.clampTimes nowTime).lastModTime ≠ 0 := by
    rw [← heq]
    exact h
  rw [clampTimes_ino] at hino
  have hmod := clampTimes_lastModTime hclamp
  unfold atDecision
  rw [heq]
  exact ⟨hino, hmod, hmod⟩

/-- **A call that checks**, and finds the file. -/
lemma loadIfModified_of_checks (h : impl.Checks nowTime) :
    impl.loadIfModified nowTime (some fileStat) ok =
      if (impl.atDecision nowTime fileStat).NeedsLoad nowTime fileStat then
        ({ impl.atDecision nowTime fileStat with
            lastCheckTime := nowTime
            lastModTime :=
              if ok then fileStat.mtime else (impl.atDecision nowTime fileStat).lastModTime },
          true, true)
      else ({ impl.atDecision nowTime fileStat with lastCheckTime := nowTime }, false, true) := by
  have hdue : (impl.atDecision nowTime fileStat).CheckDue nowTime :=
    resetTimeByInode_checkDue.mpr h.2
  unfold loadIfModified
  rw [if_neg h.1]
  dsimp only
  rw [if_pos h.2]
  show (if (impl.atDecision nowTime fileStat).NeedsLoad nowTime fileStat then
    (if (impl.atDecision nowTime fileStat).CheckDue nowTime then _ else _) else _) = _
  rw [if_pos hdue]
  cases ok <;> rfl

lemma loadIfModified_of_not_checks {stat : Option FileStat} (h : ¬ impl.Checks nowTime ∨ stat = none) :
    (impl.loadIfModified nowTime stat ok).2.1 = false ∧
      (impl.loadIfModified nowTime stat ok).1.ino = impl.ino ∧
      ((impl.loadIfModified nowTime stat ok).1.lastModTime ≠ 0 →
        (impl.loadIfModified nowTime stat ok).1.lastModTime = impl.lastModTime) := by
  unfold loadIfModified
  by_cases hfile : impl.file = ""
  · rw [if_pos hfile]
    exact ⟨rfl, rfl, fun _ => rfl⟩
  rw [if_neg hfile]
  dsimp only
  by_cases hdue : (impl.clampTimes nowTime).CheckDue nowTime
  · rw [if_pos hdue]
    rcases h with h | h
    · exact absurd ⟨hfile, hdue⟩ h
    · rw [h]
      exact ⟨rfl, clampTimes_ino, clampTimes_lastModTime⟩
  · rw [if_neg hdue]
    exact ⟨rfl, clampTimes_ino, clampTimes_lastModTime⟩

/-- **What is recorded after a call** that has not loaded has been before. -/
lemma loadIfModified_recorded {stat : Option FileStat}
    (hnot : (impl.loadIfModified nowTime stat ok).2.1 = true → ok = false)
    (hmod : (impl.loadIfModified nowTime stat ok).1.lastModTime ≠ 0) :
    (impl.loadIfModified nowTime stat ok).1.ino = impl.ino ∧
      (impl.loadIfModified nowTime stat ok).1.lastModTime = impl.lastModTime := by
  by_cases h : ¬ impl.Checks nowTime ∨ stat = none
  · obtain ⟨-, hino, hkept⟩ := loadIfModified_of_not_checks h
    exact ⟨hino, hkept hmod⟩
  · obtain ⟨hchecks, hstat⟩ := not_or.mp h
    obtain ⟨fileStat, rfl⟩ := Option.ne_none_iff_exists'.mp hstat
    rw [loadIfModified_of_checks (not_not.mp hchecks)] at hnot hmod ⊢
    by_cases hneeds : (impl.atDecision nowTime fileStat).NeedsLoad nowTime fileStat
    · rw [if_pos hneeds] at hnot hmod ⊢
      rw [hnot rfl] at hmod ⊢
      obtain ⟨hino, heq, -⟩ := atDecision_lastModTime hmod
      exact ⟨resetTimeByInode_ino.trans hino.symm, heq⟩
    · rw [if_neg hneeds] at hmod ⊢
      obtain ⟨hino, heq, -⟩ := atDecision_lastModTime hmod
      exact ⟨resetTimeByInode_ino.trans hino.symm, heq⟩

end

end FileLoader

/-! ## Runs -/

namespace FileWorld

section
variable {C : Type} {w : FileWorld C} {loadFile : Option (List (FileChange C))} {f : ConfFile C}

/-- A file that looks as it did at the last load has the content loaded. -/
def Recorded (w : FileWorld C) : Prop :=
  ∀ f ∈ w.file, w.LooksLoaded f → w.loaded = some f.content

/-- A call without a load leaves the file, and what has been loaded. -/
lemma call_of_not_loaded (h : (w.callLoader loadFile).2.1 = true → w.loadOk loadFile = false) :
    (w.call loadFile).loaded = w.loaded ∧
      ((w.call loadFile).file = none ∨ (w.call loadFile).file = w.file) := by
  unfold call
  by_cases hcalled : (w.callLoader loadFile).2.1 = true
  · rw [if_pos hcalled]
    have hno := h hcalled
    refine ⟨if_neg (by rw [hno]; exact Bool.false_ne_true), ?_⟩
    cases loadFile with
    | none => exact Or.inr rfl
    | some changes =>
      left
      unfold loadOk at hno
      rw [Option.isSome_some, Bool.true_and] at hno
      exact Option.not_isSome_iff_eq_none.mp (Bool.eq_false_iff.mp hno)
  · rw [if_neg hcalled]
    exact ⟨rfl, Or.inr rfl⟩

/-- A call with one has loaded the file that is there. -/
lemma call_of_loaded (hcalled : (w.callLoader loadFile).2.1 = true)
    (hok : w.loadOk loadFile = true) :
    (w.call loadFile).loaded = (w.call loadFile).file.map ConfFile.content := by
  unfold call
  rw [if_pos hcalled]
  exact if_pos hok

lemma call_loader : (w.call loadFile).loader = (w.callLoader loadFile).1 := by
  unfold call
  split <;> rfl

lemma Recorded.change (h : w.Recorded) {c : FileChange C} (htells : w.TellsChange (.change c)) :
    (w.change c).Recorded := by
  cases c with
  | wait seconds => exact h
  | write content =>
    intro f' hf'
    obtain ⟨f, hf, rfl⟩ := Option.mem_map.mp hf'
    exact htells f hf
  | replace f =>
    intro f' hf'
    cases hf'
    exact htells
  | remove =>
    intro f' hf'
    cases hf'

lemma Recorded.call (h : w.Recorded) (loadFile : Option (List (FileChange C))) :
    (w.call loadFile).Recorded := by
  intro f hf hlooks
  by_cases hnot : (w.callLoader loadFile).2.1 = true → w.loadOk loadFile = false
  · obtain ⟨hloaded, hfile⟩ := call_of_not_loaded hnot
    rcases hfile with hfile | hfile
    · rw [hfile] at hf
      cases hf
    · rw [hfile] at hf
      obtain ⟨hmod, hino, htime⟩ := hlooks
      rw [call_loader] at hmod hino htime
      obtain ⟨hino', hmod'⟩ := FileLoader.loadIfModified_recorded hnot hmod
      have hino' : (w.callLoader loadFile).1.ino = w.loader.ino := hino'
      have hmod' : (w.callLoader loadFile).1.lastModTime = w.loader.lastModTime := hmod'
      rw [hloaded]
      refine h f hf ⟨?_, hino.trans hino', htime.trans hmod'⟩
      rw [← hmod']
      exact hmod
  · push Not at hnot
    have hok : w.loadOk loadFile = true := by simpa using hnot.2
    rw [call_of_loaded hnot.1 hok, Option.mem_def.mp hf]
    rfl

/-- **What a check leaves loaded**: without a load, it is what has been loaded before. -/
lemma call_of_checks (hf : f ∈ w.file) (hchecks : w.loader.Checks w.clock)
    (hok : (w.callLoader loadFile).2.1 = true → w.loadOk loadFile = true) :
    (w.call loadFile).loaded = (w.call loadFile).file.map ConfFile.content ↔
      ((w.loader.atDecision w.clock f.stat).NeedsLoad w.clock f.stat ∨
        w.loaded = some f.content) := by
  have hcall : w.callLoader loadFile =
      w.loader.loadIfModified w.clock (some f.stat) (w.loadOk loadFile) := by
    unfold callLoader
    rw [Option.mem_def.mp hf]
    rfl
  by_cases hneeds : (w.loader.atDecision w.clock f.stat).NeedsLoad w.clock f.stat
  · have hcalled : (w.callLoader loadFile).2.1 = true := by
      rw [hcall, FileLoader.loadIfModified_of_checks hchecks, if_pos hneeds]
    exact iff_of_true (call_of_loaded hcalled (hok hcalled)) (Or.inl hneeds)
  · have hnot : (w.callLoader loadFile).2.1 = false := by
      rw [hcall, FileLoader.loadIfModified_of_checks hchecks, if_neg hneeds]
    have heq : w.call loadFile = { w with loader := (w.callLoader loadFile).1 } := by
      unfold FileWorld.call
      rw [hnot]
      rfl
    rw [heq, or_iff_right hneeds, Option.mem_def.mp hf]
    exact Iff.rfl

/-- Without a load, the file looks as at the last one, or the times overflow. -/
lemma not_needsLoad (h : ¬ (w.loader.atDecision w.clock f.stat).NeedsLoad w.clock f.stat) :
    w.LooksLoaded f ∨ w.TimesOverflow f := by
  unfold FileLoader.NeedsLoad at h
  obtain ⟨hmod, htimes⟩ := not_or.mp h
  obtain ⟨hino, heq, hclamp⟩ := FileLoader.atDecision_lastModTime hmod
  rw [heq, FileLoader.atDecision_refreshDelayS] at htimes
  rw [heq] at hmod
  by_cases htime : f.mtime = w.loader.lastModTime
  · exact Or.inl ⟨hmod, hino.symm, htime⟩
  · refine Or.inr ⟨?_, hino.symm, htime, htimes⟩
    rw [hclamp]
    exact hmod

lemma absDiff_self (a : ℕ) : absDiff a a = 0 := by
  unfold absDiff
  rw [sub_self]
  rfl

/-- A file that looks as at the last load is not loaded. -/
lemma not_needsLoad_of_looksLoaded (hlooks : w.LooksLoaded f)
    (hclock : w.loader.lastModTime ≤ wrap64 (w.clock + 30)) :
    ¬ (w.loader.atDecision w.clock f.stat).NeedsLoad w.clock f.stat := by
  obtain ⟨hmod, hino, htime⟩ := hlooks
  have hclamp : (w.loader.clampTimes w.clock).lastModTime = w.loader.lastModTime := by
    rw [FileLoader.clampTimes_lastModTime_eq, if_neg (not_lt.mpr hclock)]
  have hreset : w.loader.atDecision w.clock f.stat = w.loader.clampTimes w.clock := by
    refine if_neg (not_not_intro ?_)
    rw [FileLoader.clampTimes_ino]
    exact hino.symm
  rw [hreset]
  unfold FileLoader.NeedsLoad
  rw [hclamp, show f.stat.mtime = w.loader.lastModTime from htime, absDiff_self]
  exact not_or.mpr ⟨hmod, fun hboth => lt_irrefl _ hboth.1⟩

/-- A refused change leaves a file that looks as at the last load, with another content. -/
lemma looksLoaded_of_refused {c : FileChange C} (hrefused : ¬ w.TellsChange (.change c)) :
    ∃ f ∈ (w.change c).file, (w.change c).LooksLoaded f ∧ (w.change c).loaded ≠ some f.content := by
  cases c with
  | wait seconds => exact absurd trivial hrefused
  | remove => exact absurd trivial hrefused
  | write content =>
    unfold TellsChange at hrefused
    push Not at hrefused
    obtain ⟨f, hf, hlooks, hother⟩ := hrefused
    exact ⟨⟨content, w.clock, f.ino⟩, Option.mem_map.mpr ⟨f, hf, rfl⟩, hlooks, hother⟩
  | replace f =>
    unfold TellsChange at hrefused
    push Not at hrefused
    exact ⟨f, rfl, hrefused.1, hrefused.2⟩

/-- **A refused change is missed** by a check after any time, when the file is not changed again. -/
theorem missed_of_refused {c : FileChange C} (hrefused : ¬ w.TellsChange (.change c)) (seconds : ℕ)
    (hclock : w.loader.lastModTime ≤ wrap64 (((w.change c).change (.wait seconds)).clock + 30))
    (hchecks : ((w.change c).change (.wait seconds)).loader.Checks
      ((w.change c).change (.wait seconds)).clock)
    (hok : (((w.change c).change (.wait seconds)).callLoader loadFile).2.1 = true →
      ((w.change c).change (.wait seconds)).loadOk loadFile = true) :
    (((w.change c).change (.wait seconds)).call loadFile).loaded ≠
      (((w.change c).change (.wait seconds)).call loadFile).file.map ConfFile.content := by
  obtain ⟨f, hf, hlooks, hother⟩ := looksLoaded_of_refused hrefused
  have hloader : (w.change c).loader = w.loader := by
    cases c <;> rfl
  rw [← hloader] at hclock
  have hf' : f ∈ ((w.change c).change (.wait seconds)).file := hf
  have hlooks' : ((w.change c).change (.wait seconds)).LooksLoaded f := hlooks
  rw [Ne, call_of_checks hf' hchecks hok]
  exact not_or.mpr ⟨not_needsLoad_of_looksLoaded hlooks' hclock, hother⟩

lemma Recorded.step (h : w.Recorded) (event : FileEvent C) (htells : w.TellsChange event) :
    (w.step event).Recorded := by
  cases event with
  | change c => exact h.change htells
  | loadIfModified loadFile => exact h.call loadFile

lemma Recorded.fresh (h : w.Recorded) (event : FileEvent C) (htells : w.TellsChange event) :
    w.Fresh event := by
  cases event with
  | change c => trivial
  | loadIfModified loadFile =>
    intro f hf hchecks hdelay hok
    rw [call_of_checks hf hchecks hok]
    by_cases hneeds : (w.loader.atDecision w.clock f.stat).NeedsLoad w.clock f.stat
    · exact Or.inl hneeds
    · right
      rcases not_needsLoad hneeds with hlooks | hover
      · exact h f hf hlooks
      · exact htells f hf hchecks hdelay hover

end

end FileWorld

/-- **A change is never missed** in the runs of a loader in which no change leaves another content under
the inode and the time recorded, and no times overflow. -/
theorem fresh_run {C : Type} (loader : NewLoader) (clock : ℕ) (file : Option (ConfFile C))
    (events : List (FileEvent C))
    (htells : (reloading loader clock file).Along FileWorld.TellsChange
      (reloading loader clock file).init events) :
    (reloading loader clock file).Along FileWorld.Fresh (reloading loader clock file).init events := by
  have hinit : (reloading loader clock file).init.Recorded :=
    fun _ _ hlooks => absurd rfl hlooks.1
  have hrecorded : (reloading loader clock file).Always FileWorld.Recorded
      (reloading loader clock file).init events :=
    Machine.Always.of_inv (fun _ event h hok => h.step event hok) hinit htells
  have hinv : (reloading loader clock file).Along (fun w _ => w.Recorded)
      (reloading loader clock file).init events := hrecorded.along fun _ _ h => h
  exact (hinv.and htells).mono fun _ event h => h.1.fresh event h.2

/-- The file is written a second after it has been loaded, and loaded again. -/
def nextSecond : List (FileEvent ℕ) :=
  [.loadIfModified (some []), .change (.wait 1), .change (.write 2), .change (.wait 100),
    .loadIfModified (some [])]

def confLoader : NewLoader := { file := "topic.conf", ino := 0 }

def confFile : ConfFile ℕ := ⟨1, 1000, 7⟩

theorem nextSecond_fresh :
    (reloading confLoader 1000 (some confFile)).Along FileWorld.Fresh
      (reloading confLoader 1000 (some confFile)).init nextSecond :=
  fresh_run confLoader 1000 (some confFile) nextSecond (by decide)

/-- The file is written again in the second of its last load. -/
def sameSecond : List (FileEvent ℕ) :=
  [.loadIfModified (some []), .change (.write 2), .change (.wait 100), .loadIfModified (some [])]

/-- The second content is not loaded. -/
theorem sameSecond_not_fresh :
    ¬ (reloading confLoader 1000 (some confFile)).Along FileWorld.Fresh
      (reloading confLoader 1000 (some confFile)).init sameSecond := by
  intro h
  have hcheck := h.at (n := 3) rfl ⟨2, 1000, 7⟩ (by decide) (by decide) (by decide) (by decide)
  exact absurd hcheck (by decide)

end PhxQueue.Comm
