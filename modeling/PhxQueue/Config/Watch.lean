import PhxQueue.Config.Load

/-!
# A configuration and its file over time

`BaseConfig` of `phxqueue_phxrpc/config/baseconfig.h` checks its file when a minute has gone by since the
last check, and loads it when it is another one and has been for a minute.  The thread that uses it looks
at the clock and at the files at moments of its own; between two of them anything may happen.

* `History`                the clock and the files at these moments, and calls at them;
* `History.Orderly`        the clock does not go back, and no file comes under the inode and the time that
                           another content has had;
* `History.Settled`        from a moment on the file stays as it is;
* `Watched`                what loader and message say about the file;
* `Watched.loadIfModified` **a call keeps it**;
* `Watched.proto_eq`       **two minutes after its last change the content of the file is in the message**;
* `load_cases`             what a `Load` does to the maps.
-/

set_option linter.unusedSectionVars false

namespace PhxQueue.Config
open Comm Lib

/-! ## Moments -/

/-- What a thread finds at its moments: the clock, the files by their paths, and what the memory of a new
object holds. -/
structure History (C : Type) where
  clockMs : ℕ → ℕ
  file : ℕ → String → Option (ConfFile C)
  memory : ℕ → ℕ

namespace History

section
variable {C P E I : Type} (h : History C) (parse : C → Option P) (kind : ConfigKind P E I) (env : E)
  (config : BaseConfig P I) (m : ℕ)

def clock : ℕ := h.clockMs m / 1000

def stat (path : String) : Option FileStat := (h.file m path).map ConfFile.stat

/-- What `LoadFile` reads and parses, a moment after `stat`. -/
def read (path : String) : Option P := (h.file (m + 1) path).bind fun f => parse f.content

/-- `LoadIfModified` at a moment, and the next one. -/
def loadIfModified : BaseConfig P I × Bool :=
  config.loadIfModified (h.clockMs m) (h.stat m config.loader.file) (h.read parse m config.loader.file)

/-- `Load` at a moment, and the next one. -/
def load : BaseConfig P I × Bool :=
  config.load kind env (h.clockMs m) (h.stat m config.loader.file) (h.read parse m config.loader.file)

/-- An object with its file, before the factory calls `LoadIfModified`. -/
def unloaded (path : String) : BaseConfig P I where
  loader := { file := path, ino := h.memory m }
  proto := kind.proto
  maps := kind.maps

/-- `NewTopicConfig` and the like. -/
def newConfig (path : String) : BaseConfig P I :=
  (h.loadIfModified parse (h.unloaded kind m path) m).1

/-- From a moment on the file is the same one, which holds the message and is not from the future. -/
def Settled (path : String) (proto : P) : Prop :=
  ∃ f, (∀ j, m ≤ j → h.file j path = some f) ∧ parse f.content = some proto ∧ f.mtime ≤ h.clock m

end

/-- The clock does not go back and stays below 2^31 s, as the times of files do; there is no file without
a name; and no file is written or put back under an inode and a time that another content has had. -/
structure Orderly {C : Type} (h : History C) : Prop where
  mono : Monotone h.clockMs
  clock_lt : ∀ m, h.clock m < 2 ^ 31
  mtime_lt : ∀ m path, ∀ f ∈ h.file m path, f.mtime < 2 ^ 31
  noname : ∀ m, h.file m "" = none
  stamped : ∀ path i j k, ∀ f ∈ h.file i path, ∀ g ∈ h.file k path, i ≤ j → j ≤ k → f.stat = g.stat →
    h.file j path = some f

section
variable {C : Type} {h : History C} {m m' : ℕ}

lemma Orderly.clock_mono (hh : h.Orderly) (hle : m ≤ m') : h.clock m ≤ h.clock m' :=
  Nat.div_le_div_right (hh.mono hle)

lemma Orderly.lt_of_clock_lt (hh : h.Orderly) (hlt : h.clock m < h.clock m') : m < m' := by
  by_contra hle
  exact absurd (hh.clock_mono (not_lt.mp hle)) (not_le.mpr hlt)

end

end History

/-! ## One call of the loader -/

section
variable {impl : FileLoader} {nowTime : ℕ} {stat : Option FileStat} {fileStat : FileStat} {ok : Bool}

/-- What a call leaves as it is. -/
structure SameFile (impl' impl : FileLoader) : Prop where
  file : impl'.file = impl.file
  checkIntervalS : impl'.checkIntervalS = impl.checkIntervalS
  refreshDelayS : impl'.refreshDelayS = impl.refreshDelayS

/-- A check that is not from the future stays as the time of the last one. -/
lemma clampTimes_eq (hle : impl.lastCheckTime ≤ nowTime) (hnow : nowTime < 2 ^ 31) :
    impl.clampTimes nowTime =
      { impl with lastModTime := (impl.clampTimes nowTime).lastModTime } := by
  have hcheck : ¬ impl.lastCheckTime > wrap64 (nowTime + 30) := by
    unfold wrap64
    omega
  unfold FileLoader.clampTimes
  dsimp only
  rw [if_neg hcheck]
  split <;> rfl

lemma sameFile_atDecision (fileStat : FileStat) (hle : impl.lastCheckTime ≤ nowTime)
    (hnow : nowTime < 2 ^ 31) :
    SameFile (impl.atDecision nowTime fileStat) impl := by
  unfold FileLoader.atDecision FileLoader.resetTimeByInode
  rw [clampTimes_eq hle hnow]
  split <;> exact ⟨rfl, rfl, rfl⟩

lemma loadIfModified_idle (hle : impl.lastCheckTime ≤ nowTime) (hnow : nowTime < 2 ^ 31)
    (hidle : ¬ impl.Checks nowTime) :
    SameFile (impl.loadIfModified nowTime stat ok).1 impl ∧
      (impl.loadIfModified nowTime stat ok).1.lastCheckTime = impl.lastCheckTime := by
  unfold FileLoader.loadIfModified
  by_cases hfile : impl.file = ""
  · rw [if_pos hfile]
    exact ⟨⟨rfl, rfl, rfl⟩, rfl⟩
  · rw [if_neg hfile]
    dsimp only
    rw [if_neg fun hdue => hidle ⟨hfile, hdue⟩, clampTimes_eq hle hnow]
    exact ⟨⟨rfl, rfl, rfl⟩, rfl⟩

lemma loadIfModified_check (hle : impl.lastCheckTime ≤ nowTime) (hnow : nowTime < 2 ^ 31)
    (hchecks : impl.Checks nowTime) :
    SameFile (impl.loadIfModified nowTime stat ok).1 impl ∧
      (impl.loadIfModified nowTime stat ok).1.lastCheckTime = nowTime := by
  cases stat with
  | none =>
    unfold FileLoader.loadIfModified
    rw [if_neg hchecks.1]
    dsimp only
    rw [if_pos hchecks.2, clampTimes_eq hle hnow]
    exact ⟨⟨rfl, rfl, rfl⟩, rfl⟩
  | some fileStat =>
    obtain ⟨hfile, hinterval, hdelay⟩ := sameFile_atDecision fileStat hle hnow
    rw [FileLoader.loadIfModified_of_checks hchecks]
    split <;> exact ⟨⟨hfile, hinterval, hdelay⟩, rfl⟩

lemma checks_iff (hle : impl.lastCheckTime ≤ nowTime) (hnow : nowTime < 2 ^ 31)
    (hinterval : impl.checkIntervalS = 60) :
    impl.Checks nowTime ↔ impl.file ≠ "" ∧ impl.lastCheckTime + 60 < nowTime := by
  unfold FileLoader.Checks FileLoader.CheckDue
  rw [clampTimes_eq hle hnow, hinterval]
  refine and_congr_right fun _ => ?_
  dsimp only
  omega

lemma absDiff_of_lt {a b : ℕ} (ha : a < 2 ^ 31) (hb : b < 2 ^ 31) : absDiff a b = |(a : ℤ) - b| := by
  unfold absDiff
  have habs : |(a : ℤ) - b| < 2 ^ 31 := by
    rw [abs_lt]
    omega
  have hnonneg := abs_nonneg ((a : ℤ) - b)
  rw [Int.bmod_eq_of_le (n := (a : ℤ) - b) (by omega) (by omega),
    Int.bmod_eq_of_le (by omega) (by omega)]

lemma loadIfModified_loaded (hcalled : (impl.loadIfModified nowTime stat ok).2.1 = true) :
    ∃ fileStat ∈ stat, impl.Checks nowTime ∧ (impl.loadIfModified nowTime stat ok).1.ino = fileStat.ino ∧
      (ok = true → (impl.loadIfModified nowTime stat ok).1.lastModTime = fileStat.mtime) := by
  by_cases hnot : ¬ impl.Checks nowTime ∨ stat = none
  · rw [(FileLoader.loadIfModified_of_not_checks hnot).1] at hcalled
    exact absurd hcalled Bool.false_ne_true
  · obtain ⟨hchecks, hstat⟩ := not_or.mp hnot
    obtain ⟨fileStat, rfl⟩ := Option.ne_none_iff_exists'.mp hstat
    refine ⟨fileStat, rfl, not_not.mp hchecks, ?_⟩
    rw [FileLoader.loadIfModified_of_checks (not_not.mp hchecks)] at hcalled ⊢
    split
    · exact ⟨FileLoader.resetTimeByInode_ino, fun hok => if_pos hok⟩
    · rename_i hneeds
      rw [if_neg hneeds] at hcalled
      exact absurd hcalled Bool.false_ne_true

end

/-! ## What is known of the file -/

/-- **What loader and message say about the file.**  The time and the inode recorded are those that the
file had when it was loaded; and a file that had been there for more than a minute at the last check is
the one loaded. -/
structure Watched {C P I : Type} (h : History C) (parse : C → Option P) (config : BaseConfig P I)
    (m : ℕ) : Prop where
  checkIntervalS : config.loader.checkIntervalS = 60
  refreshDelayS : config.loader.refreshDelayS = 60
  checked : config.loader.lastCheckTime ≤ h.clock m
  recorded : config.loader.lastModTime ≠ 0 → ∃ k < m, ∃ f ∈ h.file k config.loader.file,
    f.stat = ⟨config.loader.lastModTime, config.loader.ino⟩ ∧
      ∃ f' ∈ h.file (k + 1) config.loader.file, parse f'.content = some config.proto
  current : ∀ m₀ proto, h.Settled parse m₀ config.loader.file proto →
    h.clock m₀ + 60 < config.loader.lastCheckTime → config.proto = proto

section
variable {C P E I : Type} {h : History C} {parse : C → Option P} {kind : ConfigKind P E I} {env : E}
  {config : BaseConfig P I} {m : ℕ}

lemma Watched.of_eq {config' : BaseConfig P I} (hw : Watched h parse config m)
    (hloader : config'.loader = config.loader) (hproto : config'.proto = config.proto) :
    Watched h parse config' m := by
  obtain ⟨hinterval, hdelay, hchecked, hrecorded, hcurrent⟩ := hw
  constructor <;> rw [hloader]
  · exact hinterval
  · exact hdelay
  · exact hchecked
  · rw [hproto]
    exact hrecorded
  · rw [hproto]
    exact hcurrent

lemma Watched.later (hh : h.Orderly) (hw : Watched h parse config m) {m' : ℕ} (hle : m ≤ m') :
    Watched h parse config m' where
  checkIntervalS := hw.checkIntervalS
  refreshDelayS := hw.refreshDelayS
  checked := hw.checked.trans (hh.clock_mono hle)
  recorded hmod := by
    obtain ⟨k, hk, hrest⟩ := hw.recorded hmod
    exact ⟨k, hk.trans_le hle, hrest⟩
  current := hw.current

lemma watched_unloaded (path : String) : Watched h parse (h.unloaded kind m path) m where
  checkIntervalS := rfl
  refreshDelayS := rfl
  checked := Nat.zero_le _
  recorded hmod := absurd rfl hmod
  current _ _ _ hlt := absurd hlt (Nat.not_lt_zero _)

lemma loadIfModified_loader : (h.loadIfModified parse config m).1.loader =
    (config.loader.loadIfModified (h.clock m) (h.stat m config.loader.file)
      (h.read parse m config.loader.file).isSome).1 := by
  unfold History.loadIfModified
  rw [BaseConfig.loadIfModified_eq]
  rfl

/-- `is_modified`. -/
lemma loadIfModified_called : (h.loadIfModified parse config m).2 =
    (config.loader.loadIfModified (h.clock m) (h.stat m config.loader.file)
      (h.read parse m config.loader.file).isSome).2.1 := by
  unfold History.loadIfModified BaseConfig.loadIfModified
  rw [BaseConfig.loadFile_ok]
  rfl

lemma loadIfModified_proto : (h.loadIfModified parse config m).1.proto =
    if (h.loadIfModified parse config m).2 = true then
      (h.read parse m config.loader.file).getD config.proto else config.proto :=
  BaseConfig.loadIfModified_proto

/-- **A file that looks as at the last load is the one loaded.** -/
lemma Watched.loaded (hh : h.Orderly) (hw : Watched h parse config m) {f : ConfFile C}
    (hf : f ∈ h.file m config.loader.file) (hmod : config.loader.lastModTime ≠ 0)
    (hino : f.ino = config.loader.ino) (htime : f.mtime = config.loader.lastModTime) :
    parse f.content = some config.proto := by
  obtain ⟨k, hk, f₀, hf₀, hstat, f', hf', hparse⟩ := hw.recorded hmod
  have hsame : f₀.stat = f.stat := by
    rw [hstat, ← htime, ← hino]
    rfl
  have hmid := hh.stamped _ k (k + 1) m f₀ hf₀ f hf (Nat.le_succ k) hk hsame
  have hend := hh.stamped _ k m m f₀ hf₀ f hf hk.le le_rfl hsame
  rw [Option.mem_def] at hf hf'
  rw [hmid] at hf'
  rw [hend] at hf
  cases hf
  cases hf'
  exact hparse

/-- **Without a load** an old file is the one loaded. -/
lemma Watched.loaded_of_not_needsLoad (hh : h.Orderly) (hw : Watched h parse config m) {f : ConfFile C}
    (hf : f ∈ h.file m config.loader.file) (hold : f.mtime + 60 < h.clock m)
    (hneeds : ¬ (config.loader.atDecision (h.clock m) f.stat).NeedsLoad (h.clock m) f.stat) :
    parse f.content = some config.proto := by
  let w : FileWorld C := { loader := config.loader, clock := h.clock m }
  rcases FileWorld.not_needsLoad (w := w) hneeds with ⟨hmod, hino, htime⟩ | ⟨hclamp, hino, htime, hover⟩
  · exact hw.loaded hh hf hmod hino htime
  · -- the times do not overflow
    exfalso
    have hmod : config.loader.lastModTime ≠ 0 := by
      rw [← FileLoader.clampTimes_lastModTime hclamp]
      exact hclamp
    obtain ⟨k, -, f₀, hf₀, hstat, -⟩ := hw.recorded hmod
    have hlast : config.loader.lastModTime < 2 ^ 31 := by
      have hmtime := hh.mtime_lt k _ f₀ hf₀
      rw [show f₀.mtime = config.loader.lastModTime from congrArg FileStat.mtime hstat] at hmtime
      exact hmtime
    have hmtime := hh.mtime_lt m _ f hf
    have hclock := hh.clock_lt m
    have hdelay : w.loader.refreshDelayS = 60 := hw.refreshDelayS
    have hne : f.mtime ≠ config.loader.lastModTime := htime
    apply hover
    rw [hdelay, absDiff_of_lt hmtime hlast, absDiff_of_lt hclock hmtime]
    refine ⟨abs_pos.mpr (by omega), ?_⟩
    rw [abs_of_pos (by omega)]
    omega

/-- The file stays, and the time of the last check is now if the check has been due. -/
lemma Watched.loadIfModified_check (hh : h.Orderly) (hw : Watched h parse config m) :
    SameFile (h.loadIfModified parse config m).1.loader config.loader ∧
      (h.loadIfModified parse config m).1.loader.lastCheckTime =
        if config.loader.Checks (h.clock m) then h.clock m else config.loader.lastCheckTime := by
  rw [loadIfModified_loader]
  split
  · rename_i hchecks
    exact Config.loadIfModified_check hw.checked (hh.clock_lt m) hchecks
  · rename_i hidle
    exact loadIfModified_idle hw.checked (hh.clock_lt m) hidle

lemma Watched.recorded_loadIfModified (hw : Watched h parse config m)
    (hmod : (h.loadIfModified parse config m).1.loader.lastModTime ≠ 0) :
    ∃ k ≤ m, ∃ f ∈ h.file k config.loader.file,
      f.stat = ⟨(h.loadIfModified parse config m).1.loader.lastModTime,
        (h.loadIfModified parse config m).1.loader.ino⟩ ∧
      ∃ f' ∈ h.file (k + 1) config.loader.file,
        parse f'.content = some (h.loadIfModified parse config m).1.proto := by
  rw [loadIfModified_loader] at hmod ⊢
  by_cases hloaded : (h.loadIfModified parse config m).2 = true ∧
      (h.read parse m config.loader.file).isSome = true
  · -- the file that `stat` has found
    obtain ⟨hcalled, hread⟩ := hloaded
    obtain ⟨proto, hproto⟩ := Option.isSome_iff_exists.mp hread
    obtain ⟨f', hf', hparse⟩ := Option.bind_eq_some_iff.mp hproto
    obtain ⟨st, hst, -, hino, htime⟩ := loadIfModified_loaded (loadIfModified_called ▸ hcalled)
    obtain ⟨f, hf, rfl⟩ := Option.map_eq_some_iff.mp hst
    refine ⟨m, le_rfl, f, hf, ?_, f', hf', ?_⟩
    · rw [hino, htime hread]
    · rw [loadIfModified_proto, if_pos hcalled, hproto]
      exact hparse
  · -- what has been recorded before
    have hsame : (h.loadIfModified parse config m).1.proto = config.proto := by
      rw [loadIfModified_proto]
      split
      · rename_i hcalled
        rw [Option.not_isSome_iff_eq_none.mp fun hread => hloaded ⟨hcalled, hread⟩]
        rfl
      · rfl
    obtain ⟨hino, htime⟩ := FileLoader.loadIfModified_recorded (fun hcalled =>
      Bool.eq_false_iff.mpr fun hread =>
        hloaded ⟨loadIfModified_called.trans hcalled, hread⟩) hmod
    rw [hino, htime, hsame]
    rw [htime] at hmod
    obtain ⟨k, hk, hrest⟩ := hw.recorded hmod
    exact ⟨k, hk.le, hrest⟩

/-- **A check finds a file that has been there for a minute.** -/
lemma Watched.proto_of_checks (hh : h.Orderly) (hw : Watched h parse config m) {m₀ : ℕ} {proto : P}
    (hsettled : h.Settled parse m₀ config.loader.file proto) (hold : h.clock m₀ + 60 < h.clock m)
    (hchecks : config.loader.Checks (h.clock m)) :
    (h.loadIfModified parse config m).1.proto = proto := by
  obtain ⟨f, hf, hparse, hmtime⟩ := hsettled
  have hlt : m₀ < m := hh.lt_of_clock_lt (by omega)
  have hfm := hf m hlt.le
  have hread : h.read parse m config.loader.file = some proto := by
    unfold History.read
    rw [hf (m + 1) (by omega)]
    exact hparse
  have hcalled : (h.loadIfModified parse config m).2 = _ := loadIfModified_called
  rw [hread, History.stat, hfm, Option.isSome_some, Option.map_some,
    FileLoader.loadIfModified_of_checks hchecks] at hcalled
  by_cases hneeds : (config.loader.atDecision (h.clock m) f.stat).NeedsLoad (h.clock m) f.stat
  · rw [if_pos hneeds] at hcalled
    rw [loadIfModified_proto, if_pos hcalled, hread]
    rfl
  · rw [if_neg hneeds] at hcalled
    rw [loadIfModified_proto, hcalled, if_neg Bool.false_ne_true]
    have hthere := hw.loaded_of_not_needsLoad hh hfm (by omega) hneeds
    rw [hparse] at hthere
    exact (Option.some_injective _ hthere).symm

lemma loadIfModified_proto_of_idle (hidle : ¬ config.loader.Checks (h.clock m)) :
    (h.loadIfModified parse config m).1.proto = config.proto := by
  have hcalled : (h.loadIfModified parse config m).2 = false := by
    rw [loadIfModified_called]
    exact (FileLoader.loadIfModified_of_not_checks (Or.inl hidle)).1
  rw [loadIfModified_proto, hcalled, if_neg Bool.false_ne_true]

theorem Watched.loadIfModified (hh : h.Orderly) (hw : Watched h parse config m) :
    Watched h parse (h.loadIfModified parse config m).1 (m + 2) := by
  have hlater : h.clock m ≤ h.clock (m + 2) := hh.clock_mono (Nat.le_add_right m 2)
  obtain ⟨⟨hfile, hinterval, hdelay⟩, hcheck⟩ := hw.loadIfModified_check hh
  refine ⟨hinterval.trans hw.checkIntervalS, hdelay.trans hw.refreshDelayS, ?_, ?_, ?_⟩
  · rw [hcheck]
    split
    · exact hlater
    · exact hw.checked.trans hlater
  · intro hmod
    rw [hfile]
    obtain ⟨k, hk, hrest⟩ := hw.recorded_loadIfModified hmod
    exact ⟨k, by omega, hrest⟩
  · intro m₀ proto hsettled hold
    rw [hfile] at hsettled
    rw [hcheck] at hold
    by_cases hchecks : config.loader.Checks (h.clock m)
    · rw [if_pos hchecks] at hold
      exact hw.proto_of_checks hh hsettled hold hchecks
    · rw [if_neg hchecks] at hold
      rw [loadIfModified_proto_of_idle hchecks]
      exact hw.current m₀ proto hsettled hold

/-- **Two minutes after its last change the content of the file is in the message**, however often or
rarely calls are made. -/
theorem Watched.proto_eq (hh : h.Orderly) (hw : Watched h parse config m) {m₀ : ℕ} {proto : P}
    (hsettled : h.Settled parse m₀ config.loader.file proto) (hold : h.clock m₀ + 120 < h.clock m) :
    (h.loadIfModified parse config m).1.proto = proto := by
  by_cases hchecks : config.loader.Checks (h.clock m)
  · exact hw.proto_of_checks hh hsettled (by omega) hchecks
  · -- the last check has been made within a minute
    rw [loadIfModified_proto_of_idle hchecks]
    have hname : config.loader.file ≠ "" := by
      intro hname
      obtain ⟨f, hf, -⟩ := hsettled
      have hthere := hf m₀ le_rfl
      rw [hname, hh.noname] at hthere
      cases hthere
    rw [checks_iff hw.checked (hh.clock_lt m) hw.checkIntervalS] at hchecks
    have hlately : ¬ config.loader.lastCheckTime + 60 < h.clock m := fun hlt => hchecks ⟨hname, hlt⟩
    exact hw.current m₀ proto hsettled (by omega)

/-- The message is the one before, or the content of the file. -/
lemma loadIfModified_proto_cases (h : History C) (parse : C → Option P) (config : BaseConfig P I)
    (m : ℕ) : (h.loadIfModified parse config m).1.proto = config.proto ∨
    ∃ f ∈ h.file (m + 1) config.loader.file,
      parse f.content = some (h.loadIfModified parse config m).1.proto := by
  rw [loadIfModified_proto]
  split
  · cases hread : h.read parse m config.loader.file with
    | none => exact Or.inl rfl
    | some proto => exact Or.inr (Option.bind_eq_some_iff.mp hread)
  · exact Or.inl rfl

lemma watched_newConfig (hh : h.Orderly) (parse : C → Option P) (kind : ConfigKind P E I) (m : ℕ)
    (path : String) :
    Watched h parse (h.newConfig parse kind m path) (m + 2) ∧
      (h.newConfig parse kind m path).loader.file = path ∧
      (h.newConfig parse kind m path).build = false ∧
      (h.newConfig parse kind m path).maps = kind.maps := by
  have hw : Watched h parse (h.unloaded kind m path) m := watched_unloaded path
  refine ⟨hw.loadIfModified hh, (hw.loadIfModified_check hh).1.file, ?_⟩
  unfold History.newConfig History.loadIfModified
  rw [BaseConfig.loadIfModified_eq]
  exact ⟨rfl, rfl⟩

/-! ## Loads -/

/-- What `IsModified` leaves. -/
lemma isModified_fst {nowMs : ℕ} {stat : Option FileStat} {content : Option P} :
    (config.isModified nowMs stat content).1 =
      { (config.loadIfModified nowMs stat content).1 with build := true } := by
  unfold BaseConfig.isModified
  dsimp only
  split
  · rename_i hbuild
    rw [← hbuild]
  · rfl

/-- **What a `Load` does**: it makes the maps from the message, or the check is all that happens. -/
lemma load_eq : h.load parse kind env config m =
    if (h.loadIfModified parse config m).2 = true ∨ config.build = false then
      ({ (h.loadIfModified parse config m).1 with
          build := true
          maps := (kind.rebuild env (h.loadIfModified parse config m).1.proto).1
          lastModTime := if (kind.rebuild env (h.loadIfModified parse config m).1.proto).2 = true then
            h.clockMs m else config.lastModTime },
        (kind.rebuild env (h.loadIfModified parse config m).1.proto).2)
    else ({ (h.loadIfModified parse config m).1 with build := true }, true) := by
  have hmodified : (config.isModified (h.clockMs m) (h.stat m config.loader.file)
      (h.read parse m config.loader.file)).2 = true ↔ _ := BaseConfig.isModified_iff
  have hlast : (h.loadIfModified parse config m).1.lastModTime = config.lastModTime := by
    unfold History.loadIfModified
    rw [BaseConfig.loadIfModified_eq]
  rw [← hlast]
  unfold History.loadIfModified at hmodified ⊢
  unfold History.load BaseConfig.load
  dsimp only
  rw [isModified_fst]
  by_cases hdo : (config.isModified (h.clockMs m) (h.stat m config.loader.file)
      (h.read parse m config.loader.file)).2 = true
  · rw [if_pos hdo, if_pos (hmodified.mp hdo)]
    dsimp only
    split
    · rename_i hok
      rw [hok]
    · rename_i hok
      rw [Bool.eq_false_iff.mpr hok]
  · rw [if_neg hdo, if_neg fun h => hdo (hmodified.mpr h)]

lemma load_check :
    (h.load parse kind env config m).1.loader = (h.loadIfModified parse config m).1.loader ∧
    (h.load parse kind env config m).1.proto = (h.loadIfModified parse config m).1.proto := by
  rw [load_eq]
  split <;> exact ⟨rfl, rfl⟩

lemma Watched.load (hh : h.Orderly) (hw : Watched h parse config m) :
    Watched h parse (h.load parse kind env config m).1 (m + 2) :=
  (hw.loadIfModified hh).of_eq load_check.1 load_check.2

lemma load_file (hh : h.Orderly) (hw : Watched h parse config m) :
    (h.load parse kind env config m).1.loader.file = config.loader.file := by
  rw [load_check.1]
  exact (hw.loadIfModified_check hh).1.file

/-- After a `Load` the object has been built. -/
lemma load_build : (h.load parse kind env config m).1.build = true := by
  rw [load_eq]
  split <;> rfl

lemma load_lastClearBuildTime :
    (h.load parse kind env config m).1.lastClearBuildTime = config.lastClearBuildTime := by
  have hcheck : (h.loadIfModified parse config m).1.lastClearBuildTime = config.lastClearBuildTime := by
    unfold History.loadIfModified
    rw [BaseConfig.loadIfModified_eq]
  rw [load_eq, ← hcheck]
  split <;> rfl

/-- A `Load` that rebuilds, or one that leaves message and maps. -/
lemma load_cases (h : History C) (parse : C → Option P) (kind : ConfigKind P E I) (env : E)
    (config : BaseConfig P I) (m : ℕ) :
    ((h.load parse kind env config m).1.maps =
        (kind.rebuild env (h.load parse kind env config m).1.proto).1 ∧
      (h.load parse kind env config m).2 =
        (kind.rebuild env (h.load parse kind env config m).1.proto).2 ∧
      ((h.load parse kind env config m).2 = true →
        (h.load parse kind env config m).1.lastModTime = h.clockMs m)) ∨
    (config.build = true ∧ (h.load parse kind env config m).1.maps = config.maps ∧
      (h.load parse kind env config m).1.proto = config.proto ∧
      (h.load parse kind env config m).2 = true ∧
      (h.load parse kind env config m).1.lastModTime = config.lastModTime) := by
  rw [load_eq]
  split
  · exact Or.inl ⟨rfl, rfl, fun hok => if_pos hok⟩
  · rename_i hnot
    obtain ⟨hcalled, hbuild⟩ := not_or.mp hnot
    have hproto : (h.loadIfModified parse config m).1.proto = config.proto := by
      rw [loadIfModified_proto, if_neg hcalled]
    have hrest : (h.loadIfModified parse config m).1.maps = config.maps ∧
        (h.loadIfModified parse config m).1.lastModTime = config.lastModTime := by
      unfold History.loadIfModified
      rw [BaseConfig.loadIfModified_eq]
      exact ⟨rfl, rfl⟩
    exact Or.inr ⟨Bool.eq_true_of_not_eq_false hbuild, hrest.1, hproto, rfl, hrest.2⟩

end

end PhxQueue.Config
