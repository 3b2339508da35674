import PhxQueue.Config.Rebuild
import PhxQueue.Comm.FileLoader

/-!
# Loading a configuration

`Load` of `config/baseconfig.h`, with `LoadFile` and `IsModified` of `phxqueue_phxrpc/config/baseconfig.h`.
A message that has been parsed takes the place of the one that is there; then `Rebuild` clears the maps
and makes them from it, and may throw.

* `ConfigKind`, `BaseConfig`, `load`   the code, over any message, maps and `Rebuild`;
* `ConfigWorld`, `loading`   the clock, the file, what has been built last and what has been tried last;
* `Atomic`                   what has been built last answers, and what has failed is tried again;
* `Rebuildable`              the message that a `Load` rebuilds from can be;
* `atomic_run`               **such loads are atomic**;
* `not_atomic_of_refused`    and no other one is that changes what lookups answer from;
* `badRange_not_atomic`      a range that is not a number.
-/

set_option linter.unusedSectionVars false

namespace PhxQueue.Config
open Comm Lib

/-! ## The code -/

/-- A configuration: its message and its maps when it is constructed, and `Rebuild`, which gives the maps
it leaves and says whether it returns `RET_OK`; otherwise it returns an error or throws.  An `E` is what
it reads besides the message: the other configurations, in `GlobalConfig`. -/
structure ConfigKind (P E I : Type) where
  proto : P
  maps : I
  rebuild : E → P → I × Bool

/-- `BaseConfig`, with the maps of the derived class. -/
structure BaseConfig (P I : Type) where
  loader : FileLoader
  build : Bool := false
  lastClearBuildTime : ℕ := 0
  lastModTime : ℕ := 0
  proto : P
  maps : I

namespace BaseConfig

section
variable {P E I : Type} (kind : ConfigKind P E I) (env : E) (config : BaseConfig P I) (nowMs : ℕ)
  (fileStat : Option FileStat) (content : Option P)

/-- `LoadFile`; the content is there when the file can be read and parsed. -/
def loadFile : BaseConfig P I × Bool :=
  match content with
  | none => (config, false)
  -- `FillConfig`
  | some proto => ({ config with proto := proto }, true)

/-- `FileLoader::LoadIfModified`, with `is_modified`. -/
def loadIfModified : BaseConfig P I × Bool :=
  let (loader, isModified, _) :=
    config.loader.loadIfModified (nowMs / 1000) fileStat (config.loadFile content).2
  let config := if isModified then (config.loadFile content).1 else config
  ({ config with loader := loader }, isModified)

/-- `IsModified`, of both layers. -/
def isModified : BaseConfig P I × Bool :=
  let (config, modified) := config.loadIfModified nowMs fileStat content
  if config.build then (config, modified) else ({ config with build := true }, true)

/-- `Load`, and whether it returns `RET_OK`.  Its `ReadConfig` does nothing. -/
def load : BaseConfig P I × Bool :=
  let (config, modified) := config.isModified nowMs fileStat content
  if modified then
    let (maps, ok) := kind.rebuild env config.proto
    let config := { config with maps := maps }
    -- `UpdateModTime`
    if ok then ({ config with lastModTime := nowMs }, true) else (config, false)
  else (config, true)

def needRebuild : BaseConfig P I :=
  if nowMs > wrap64 (config.lastClearBuildTime + 10000) then
    { config with lastClearBuildTime := nowMs, build := false } else config

end

end BaseConfig

/-! ## Loads and contents -/

/-- What lookups answer from, and the file.  `built` is what the last `Load` that made the maps without a
failure has left, and `attempt` the file `LoadFile` has been called for last, with whether its content
has come to be used. -/
structure ConfigWorld (P I : Type) where
  config : BaseConfig P I
  clockMs : ℕ
  file : Option (ConfFile (Option P)) := none
  built : Option (P × I) := none
  attempt : Option (FileStat × Bool) := none

/-- Another file may take its place at any time, also between `stat` and `LoadFile`. -/
inductive ConfigEvent (P E : Type)
  | wait (ms : ℕ)
  | setFile (file : Option (ConfFile (Option P)))
  | load (env : E) (replaced : Option (Option (ConfFile (Option P))))
  | needRebuild

namespace ConfigWorld

section
variable {P E I : Type} (kind : ConfigKind P E I) (env : E) (w : ConfigWorld P I)
  (replaced : Option (Option (ConfFile (Option P))))

def visible : P × I := (w.config.proto, w.config.maps)

def fileStat : Option FileStat := w.file.map ConfFile.stat

/-- What `LoadFile` reads, if it is called. -/
def content : Option P := (replaced.getD w.file).bind ConfFile.content

/-- `LoadFile` is called. -/
def called : Bool := (w.config.loadIfModified w.clockMs w.fileStat (w.content replaced)).2

/-- The last attempt after a call, in which everything after `LoadFile` succeeds or not. -/
def attempted (ok : Bool) : Option (FileStat × Bool) :=
  if w.called replaced then w.fileStat.map fun st => (st, (w.content replaced).isSome && ok)
  else w.attempt.map fun a => (a.1, a.2 && ok)

/-- The call of `LoadIfModified` by the factory. -/
def create : ConfigWorld P I :=
  { w with
    config := (w.config.loadIfModified w.clockMs w.fileStat (w.content replaced)).1
    file := replaced.getD w.file
    attempt := w.attempted replaced true }

def callLoad : BaseConfig P I × Bool :=
  w.config.load kind env w.clockMs w.fileStat (w.content replaced)

/-- `Rebuild` is called. -/
def rebuilds : Bool := (w.config.isModified w.clockMs w.fileStat (w.content replaced)).2

def load : ConfigWorld P I :=
  let (config, ok) := w.callLoad kind env replaced
  { w with
    config := config
    file := replaced.getD w.file
    built := if w.rebuilds replaced && ok then some (config.proto, config.maps) else w.built
    attempt := w.attempted replaced ok }

def step : ConfigEvent P E → ConfigWorld P I
  | .wait ms => { w with clockMs := w.clockMs + ms }
  | .setFile file => { w with file := file }
  | .load env replaced => w.load kind env replaced
  | .needRebuild => { w with config := w.config.needRebuild w.clockMs }

/-- Lookups answer from the last maps that have been built and the message these have been made from. -/
def Answers : Prop := ∀ b ∈ w.built, w.visible = b

/-- **After a `Load` that succeeds, the maps are those of the message.** -/
def Agrees : Prop :=
  (w.callLoad kind env replaced).2 = true → ∃ env',
    kind.rebuild env' (w.load kind env replaced).config.proto =
      ((w.load kind env replaced).config.maps, true)

/-- **What has failed is tried again** by a check of the file it has failed for, when the time of the
file is farther from now than the refresh delay. -/
def Retries : Prop :=
  ∀ st, w.attempt = some (st, false) → w.fileStat = some st →
    w.config.loader.Checks (w.clockMs / 1000) →
    w.config.loader.refreshDelayS < absDiff (w.clockMs / 1000) st.mtime → w.called replaced = true

/-- **Loads are atomic and retried.** -/
structure Atomic (event : ConfigEvent P E) : Prop where
  answers : (w.step kind event).Answers
  agrees : ∀ env replaced, event = .load env replaced → w.Agrees kind env replaced
  retries : ∀ env replaced, event = .load env replaced → w.Retries replaced

/-- The check is due, and finds a file that needs to be loaded. -/
def Reads : Prop :=
  w.config.loader.Checks (w.clockMs / 1000) ∧
    ∃ st ∈ w.fileStat,
      (w.config.loader.atDecision (w.clockMs / 1000) st).NeedsLoad (w.clockMs / 1000) st

instance : Decidable w.Reads := inferInstanceAs (Decidable (_ ∧ _))

/-- The message that has been read and parsed, or else the one that is there. -/
def nextProto : P := if w.Reads then (w.content replaced).getD w.config.proto else w.config.proto

/-- **The message that a `Load` rebuilds from can be.** -/
def Rebuildable : Prop :=
  w.Reads ∨ w.config.build = false → (kind.rebuild env (w.nextProto replaced)).2 = true

instance : Decidable (w.Rebuildable kind env replaced) := inferInstanceAs (Decidable (_ → _))

def LoadsRebuildable : ConfigEvent P E → Prop
  | .load env replaced => w.Rebuildable kind env replaced
  | _ => True

instance (event : ConfigEvent P E) : Decidable (w.LoadsRebuildable kind event) :=
  match event with
  | .load env replaced => inferInstanceAs (Decidable (w.Rebuildable kind env replaced))
  | .wait _ | .setFile _ | .needRebuild => isTrue trivial

end

end ConfigWorld

section
variable {P E I : Type} (kind : ConfigKind P E I)

def constructed (loader : NewLoader) (clockMs : ℕ) (file : Option (ConfFile (Option P))) :
    ConfigWorld P I where
  config :=
    { loader :=
        { file := loader.file
          checkIntervalS := loader.checkIntervalS
          refreshDelayS := loader.refreshDelayS
          ino := loader.ino }
      proto := kind.proto
      maps := kind.maps }
  clockMs := clockMs
  file := file

/-- The loads of a configuration, after the factory has called `LoadIfModified`. -/
def loading (loader : NewLoader) (clockMs : ℕ) (file : Option (ConfFile (Option P)))
    (replaced : Option (Option (ConfFile (Option P)))) :
    Machine (ConfigWorld P I) (ConfigEvent P E) where
  init := (constructed kind loader clockMs file).create replaced
  step := fun w event => w.step kind event

end

/-! ## One load -/

namespace BaseConfig

section
variable {P E I : Type} {kind : ConfigKind P E I} {env : E} {config : BaseConfig P I} {nowMs : ℕ}
  {fileStat : Option FileStat} {content : Option P}

lemma loadFile_ok (config : BaseConfig P I) (content : Option P) :
    (config.loadFile content).2 = content.isSome := by
  cases content <;> rfl

lemma loadIfModified_proto : (config.loadIfModified nowMs fileStat content).1.proto =
    if (config.loadIfModified nowMs fileStat content).2 = true then content.getD config.proto
    else config.proto := by
  unfold loadIfModified loadFile
  cases content with
  | none =>
    dsimp only
    split <;> rfl
  | some proto =>
    dsimp only
    split <;> rfl

lemma loadIfModified_eq : (config.loadIfModified nowMs fileStat content).1 =
    { config with
      proto := (config.loadIfModified nowMs fileStat content).1.proto
      loader := (config.loader.loadIfModified (nowMs / 1000) fileStat content.isSome).1 } := by
  unfold loadIfModified loadFile
  cases content with
  | none =>
    dsimp only
    split <;> rfl
  | some proto =>
    dsimp only
    split <;> rfl

/-- A `Load` that calls `Rebuild`. -/
lemma load_of_rebuilds (h : (config.isModified nowMs fileStat content).2 = true) :
    (config.load kind env nowMs fileStat content).2 =
        (kind.rebuild env (config.loadIfModified nowMs fileStat content).1.proto).2 ∧
      (config.load kind env nowMs fileStat content).1.proto =
        (config.loadIfModified nowMs fileStat content).1.proto ∧
      (config.load kind env nowMs fileStat content).1.maps =
        (kind.rebuild env (config.loadIfModified nowMs fileStat content).1.proto).1 := by
  have hproto : (config.isModified nowMs fileStat content).1.proto =
      (config.loadIfModified nowMs fileStat content).1.proto := by
    unfold isModified
    dsimp only
    split <;> rfl
  rw [← hproto]
  unfold load
  dsimp only
  rw [if_pos h]
  split
  · rename_i hok
    exact ⟨hok.symm, rfl, rfl⟩
  · rename_i hok
    exact ⟨(Bool.eq_false_iff.mpr hok).symm, rfl, rfl⟩

lemma isModified_iff : (config.isModified nowMs fileStat content).2 = true ↔
    (config.loadIfModified nowMs fileStat content).2 = true ∨ config.build = false := by
  have hbuild : (config.loadIfModified nowMs fileStat content).1.build = config.build := by
    rw [loadIfModified_eq]
  rw [← hbuild]
  unfold isModified
  dsimp only
  split
  · rename_i hb
    rw [hb, or_iff_left (by decide)]
  · rename_i hb
    exact iff_of_true rfl (Or.inr (Bool.eq_false_iff.mpr hb))

lemma isModified_of_not (h : (config.isModified nowMs fileStat content).2 = false) :
    config.isModified nowMs fileStat content =
      ((config.loadIfModified nowMs fileStat content).1, false) := by
  unfold isModified at h ⊢
  dsimp only at h ⊢
  split
  · rename_i hb
    rw [if_pos hb] at h
    exact Prod.ext rfl h
  · rename_i hb
    rw [if_neg hb] at h
    cases h

/-- Any other `Load` succeeds. -/
lemma load_of_not_rebuilds (h : (config.isModified nowMs fileStat content).2 = false) :
    config.load kind env nowMs fileStat content =
      ((config.loadIfModified nowMs fileStat content).1, true) := by
  unfold load
  rw [isModified_of_not h]
  rfl

lemma load_loader : (config.load kind env nowMs fileStat content).1.loader =
    (config.loader.loadIfModified (nowMs / 1000) fileStat content.isSome).1 := by
  have hloader : (config.isModified nowMs fileStat content).1.loader =
      (config.loader.loadIfModified (nowMs / 1000) fileStat content.isSome).1 := by
    unfold isModified
    dsimp only
    split
    · rw [loadIfModified_eq]
    · show (config.loadIfModified nowMs fileStat content).1.loader = _
      rw [loadIfModified_eq]
  rw [← hloader]
  unfold load
  dsimp only
  split
  · split <;> rfl
  · rfl

end

end BaseConfig

/-! ## Runs -/

/-- What makes a file that a load has failed for be loaded. -/
def Pending (impl : FileLoader) (st : FileStat) : Prop :=
  impl.lastModTime = 0 ∨ absDiff st.mtime impl.lastModTime > 0

section
variable {impl : FileLoader} {nowTime : ℕ} {st : FileStat} {stat : Option FileStat} {ok : Bool}

/-- A call without a load leaves it so, or forgets the time. -/
lemma Pending.loadIfModified (h : Pending impl st)
    (hnot : (impl.loadIfModified nowTime stat ok).2.1 = true → ok = false) :
    Pending (impl.loadIfModified nowTime stat ok).1 st := by
  by_cases hmod : (impl.loadIfModified nowTime stat ok).1.lastModTime = 0
  · exact Or.inl hmod
  · obtain ⟨-, heq⟩ := FileLoader.loadIfModified_recorded hnot hmod
    unfold Pending
    rw [heq]
    exact h

/-- **A load that fails is pending.** -/
lemma pending_of_needsLoad (hchecks : impl.Checks nowTime)
    (hneeds : (impl.atDecision nowTime st).NeedsLoad nowTime st) :
    Pending (impl.loadIfModified nowTime (some st) false).1 st := by
  rw [FileLoader.loadIfModified_of_checks hchecks, if_pos hneeds]
  exact hneeds.imp id And.left

/-- It is loaded by a check when it is old enough. -/
lemma Pending.needsLoad (h : Pending impl st) (hdelay : impl.refreshDelayS < absDiff nowTime st.mtime) :
    (impl.atDecision nowTime st).NeedsLoad nowTime st := by
  by_cases hmod : (impl.atDecision nowTime st).lastModTime = 0
  · exact Or.inl hmod
  · obtain ⟨-, heq, -⟩ := FileLoader.atDecision_lastModTime hmod
    unfold FileLoader.NeedsLoad
    rw [heq, FileLoader.atDecision_refreshDelayS]
    exact h.imp id fun hdiff => ⟨hdiff, hdelay⟩

end

namespace ConfigWorld

section
variable {P E I : Type} {kind : ConfigKind P E I} {env : E} {w : ConfigWorld P I}
  {replaced : Option (Option (ConfFile (Option P)))}

lemma called_eq : w.called replaced = (w.config.loader.loadIfModified (w.clockMs / 1000) w.fileStat
    (w.content replaced).isSome).2.1 := by
  rw [← BaseConfig.loadFile_ok w.config]
  rfl

/-- `LoadFile` is called by the checks that find a file that needs it. -/
lemma called_iff : w.called replaced = true ↔ w.Reads := by
  rw [called_eq]
  unfold Reads
  by_cases h : ¬ w.config.loader.Checks (w.clockMs / 1000) ∨ w.fileStat = none
  · rw [(FileLoader.loadIfModified_of_not_checks h).1]
    refine iff_of_false Bool.false_ne_true ?_
    rintro ⟨hchecks, st, hst, -⟩
    rcases h with h | h
    · exact h hchecks
    · rw [h] at hst
      cases hst
  · obtain ⟨hchecks, hstat⟩ := not_or.mp h
    have hchecks := not_not.mp hchecks
    obtain ⟨st, hst⟩ := Option.ne_none_iff_exists'.mp hstat
    rw [hst, FileLoader.loadIfModified_of_checks hchecks]
    split
    · rename_i hneeds
      exact iff_of_true rfl ⟨hchecks, st, rfl, hneeds⟩
    · rename_i hneeds
      refine iff_of_false Bool.false_ne_true ?_
      rintro ⟨-, st', hst', hneeds'⟩
      cases hst'
      exact hneeds hneeds'

lemma loadIfModified_proto :
    (w.config.loadIfModified w.clockMs w.fileStat (w.content replaced)).1.proto =
      w.nextProto replaced := by
  rw [BaseConfig.loadIfModified_proto]
  exact ite_congr (propext called_iff) (fun _ => rfl) fun _ => rfl

lemma rebuilds_iff : w.rebuilds replaced = true ↔ w.Reads ∨ w.config.build = false := by
  have hcalled : w.called replaced = true ↔ w.Reads := called_iff
  rw [← hcalled]
  exact BaseConfig.isModified_iff

/-- A `Load` that calls `Rebuild`. -/
lemma callLoad_of_rebuilds (kind : ConfigKind P E I) (env : E) (h : w.rebuilds replaced = true) :
    (w.callLoad kind env replaced).2 = (kind.rebuild env (w.nextProto replaced)).2 ∧
      (w.callLoad kind env replaced).1.proto = w.nextProto replaced ∧
      (w.callLoad kind env replaced).1.maps = (kind.rebuild env (w.nextProto replaced)).1 := by
  rw [← loadIfModified_proto]
  exact BaseConfig.load_of_rebuilds h

/-- Any other `Load` leaves what is visible. -/
lemma callLoad_of_not_rebuilds (kind : ConfigKind P E I) (env : E) (h : w.rebuilds replaced = false) :
    (w.callLoad kind env replaced).2 = true ∧
      ((w.callLoad kind env replaced).1.proto, (w.callLoad kind env replaced).1.maps) = w.visible := by
  have hload : w.callLoad kind env replaced = ((w.config.loadIfModified w.clockMs w.fileStat
    (w.content replaced)).1, true) := BaseConfig.load_of_not_rebuilds h
  have hreads : ¬ w.Reads := fun hreads =>
    Bool.eq_false_iff.mp h (rebuilds_iff.mpr (Or.inl hreads))
  have hproto : (w.config.loadIfModified w.clockMs w.fileStat (w.content replaced)).1.proto =
      w.config.proto := loadIfModified_proto.trans (if_neg hreads)
  have hmaps : (w.config.loadIfModified w.clockMs w.fileStat (w.content replaced)).1.maps =
      w.config.maps := by
    rw [BaseConfig.loadIfModified_eq]
  rw [hload]
  exact ⟨rfl, Prod.ext hproto hmaps⟩

/-- What has been built after a `Load`. -/
lemma load_built : (w.load kind env replaced).built =
    if (w.rebuilds replaced && (w.callLoad kind env replaced).2) = true then
      some ((w.callLoad kind env replaced).1.proto, (w.callLoad kind env replaced).1.maps)
    else w.built := rfl

/-- **What holds between the events** of a run in which every rebuilding succeeds. -/
structure Inv (kind : ConfigKind P E I) (w : ConfigWorld P I) : Prop where
  built : ∀ b ∈ w.built,
    w.visible = b ∧ ∃ env, kind.rebuild env w.config.proto = (w.config.maps, true)
  isSome : w.config.build = true → w.built.isSome = true
  pending : ∀ st, w.attempt = some (st, false) → Pending w.config.loader st

lemma pending_attempted (h : ∀ st, w.attempt = some (st, false) → Pending w.config.loader st)
    {st : FileStat} (hattempt : w.attempted replaced true = some (st, false)) :
    Pending (w.config.loader.loadIfModified (w.clockMs / 1000) w.fileStat
      (w.content replaced).isSome).1 st := by
  unfold attempted at hattempt
  split at hattempt
  · -- `LoadFile` has failed
    rename_i hcalled
    obtain ⟨st', hst, heq⟩ := Option.map_eq_some_iff.mp hattempt
    rw [Bool.and_true] at heq
    obtain ⟨rfl, hnone⟩ := Prod.mk.inj heq
    obtain ⟨hchecks, st', hst', hneeds⟩ := called_iff.mp hcalled
    rw [hst] at hst'
    cases hst'
    rw [hst, hnone]
    exact pending_of_needsLoad hchecks hneeds
  · -- nothing is attempted
    rename_i hcalled
    obtain ⟨⟨st', a⟩, ha, heq⟩ := Option.map_eq_some_iff.mp hattempt
    rw [Bool.and_true] at heq
    rw [heq] at ha
    rw [called_eq] at hcalled
    exact (h st ha).loadIfModified fun hmod => absurd hmod hcalled

/-- **A `Load` of what can be rebuilt succeeds**, and leaves what has been built last. -/
lemma Inv.load_ok (h : w.Inv kind) (hok : w.Rebuildable kind env replaced) :
    (w.callLoad kind env replaced).2 = true ∧
      ∃ b, (w.load kind env replaced).built = some b ∧ (w.load kind env replaced).visible = b ∧
        ∃ env', kind.rebuild env' (w.load kind env replaced).config.proto =
          ((w.load kind env replaced).config.maps, true) := by
  cases hrebuilds : w.rebuilds replaced with
  | true =>
    obtain ⟨hret, hproto, hmaps⟩ := callLoad_of_rebuilds kind env hrebuilds
    rw [hok (rebuilds_iff.mp hrebuilds)] at hret
    refine ⟨hret, _, ?_, rfl, env, ?_⟩
    · rw [load_built, hrebuilds, hret]
      rfl
    · show kind.rebuild env (w.callLoad kind env replaced).1.proto =
        ((w.callLoad kind env replaced).1.maps, true)
      rw [hproto, hmaps]
      exact Prod.ext rfl (hok (rebuilds_iff.mp hrebuilds))
  | false =>
    obtain ⟨hret, hvisible⟩ := callLoad_of_not_rebuilds kind env hrebuilds
    have hbuild : w.config.build = true := by
      by_contra hnot
      exact Bool.eq_false_iff.mp hrebuilds (rebuilds_iff.mpr (Or.inr (Bool.eq_false_iff.mpr hnot)))
    obtain ⟨b, hb⟩ := Option.isSome_iff_exists.mp (h.isSome hbuild)
    obtain ⟨hanswers, env', hagrees⟩ := h.built b hb
    refine ⟨hret, b, ?_, hvisible.trans hanswers, env', ?_⟩
    · rw [load_built, hrebuilds]
      exact hb
    · show kind.rebuild env' (w.callLoad kind env replaced).1.proto =
        ((w.callLoad kind env replaced).1.maps, true)
      rw [(Prod.mk.inj hvisible).1, (Prod.mk.inj hvisible).2]
      exact hagrees

lemma Inv.load (h : w.Inv kind) (hok : w.Rebuildable kind env replaced) :
    (w.load kind env replaced).Inv kind := by
  obtain ⟨hret, b, hbuilt, hanswers, hagrees⟩ := h.load_ok hok
  refine ⟨fun b' hb' => ?_, fun _ => ?_, fun st hst => ?_⟩
  · rw [hbuilt] at hb'
    cases hb'
    exact ⟨hanswers, hagrees⟩
  · rw [hbuilt]
    rfl
  · have hst : w.attempted replaced (w.callLoad kind env replaced).2 = some (st, false) := hst
    rw [hret] at hst
    have hloader : (w.load kind env replaced).config.loader = (w.config.loader.loadIfModified
      (w.clockMs / 1000) w.fileStat (w.content replaced).isSome).1 := BaseConfig.load_loader
    rw [hloader]
    exact pending_attempted h.pending hst

lemma Inv.step (h : w.Inv kind) (event : ConfigEvent P E) (hok : w.LoadsRebuildable kind event) :
    (w.step kind event).Inv kind := by
  cases event with
  | wait ms => exact ⟨h.built, h.isSome, h.pending⟩
  | setFile file => exact ⟨h.built, h.isSome, h.pending⟩
  | load env replaced => exact h.load hok
  | needRebuild =>
    show ConfigWorld.Inv kind { w with config := w.config.needRebuild w.clockMs }
    unfold BaseConfig.needRebuild
    split
    · exact ⟨h.built, fun hbuild => absurd hbuild Bool.false_ne_true, h.pending⟩
    · exact h

lemma Inv.atomic (h : w.Inv kind) (event : ConfigEvent P E) (hok : w.LoadsRebuildable kind event) :
    w.Atomic kind event where
  answers b hb := ((h.step event hok).built b hb).1
  agrees := by
    rintro env replaced rfl -
    obtain ⟨-, b, -, -, hagrees⟩ := h.load_ok hok
    exact hagrees
  retries := by
    rintro env replaced rfl st hattempt hst hchecks hdelay
    exact called_iff.mpr ⟨hchecks, st, hst, (h.pending st hattempt).needsLoad hdelay⟩

theorem Inv.not_atomic_of_refused (h : w.Inv kind) {b : P × I} (hb : w.built = some b)
    (hrefused : ¬ w.Rebuildable kind env replaced)
    (hother : (w.nextProto replaced, (kind.rebuild env (w.nextProto replaced)).1) ≠ w.visible) :
    ¬ w.Atomic kind (.load env replaced) := by
  unfold Rebuildable at hrefused
  push Not at hrefused
  obtain ⟨hneeds, hfails⟩ := hrefused
  have hrebuilds : w.rebuilds replaced = true := rebuilds_iff.mpr hneeds
  obtain ⟨hret, hproto, hmaps⟩ := callLoad_of_rebuilds kind env hrebuilds
  have hbuilt : (w.load kind env replaced).built = some b := by
    rw [load_built, hret, Bool.eq_false_iff.mpr hfails, Bool.and_false, if_neg Bool.false_ne_true]
    exact hb
  intro hatomic
  have hvisible : (w.load kind env replaced).visible = w.visible :=
    (hatomic.answers b hbuilt).trans (h.built b hb).1.symm
  apply hother
  rw [← hvisible]
  exact (Prod.ext hproto hmaps).symm

lemma inv_create {loader : NewLoader} {clockMs : ℕ} {file : Option (ConfFile (Option P))} :
    ((constructed kind loader clockMs file).create replaced).Inv kind := by
  refine ⟨?_, ?_, fun st hst => ?_⟩
  · intro b hb
    cases hb
  · intro hbuild
    have hnot : ((constructed kind loader clockMs file).create replaced).config.build = false := by
      show (BaseConfig.loadIfModified _ _ _ _).1.build = false
      rw [BaseConfig.loadIfModified_eq]
      rfl
    rw [hnot] at hbuild
    cases hbuild
  · have hloader : ((constructed kind loader clockMs file).create replaced).config.loader =
        ((constructed kind loader clockMs file).config.loader.loadIfModified
          ((constructed kind loader clockMs file).clockMs / 1000)
          (constructed kind loader clockMs file).fileStat
          ((constructed kind loader clockMs file).content replaced).isSome).1 := by
      show (BaseConfig.loadIfModified _ _ _ _).1.loader = _
      rw [BaseConfig.loadIfModified_eq]
    rw [hloader]
    refine pending_attempted (fun st hnone => ?_) hst
    cases hnone

end

end ConfigWorld

/-- **Loads are atomic and retried** in the runs of a configuration in which every message that a `Load`
rebuilds from, which it has read or which is there, can be rebuilt. -/
theorem atomic_run {P E I : Type} (kind : ConfigKind P E I) (loader : NewLoader) (clockMs : ℕ)
    (file : Option (ConfFile (Option P))) (replaced : Option (Option (ConfFile (Option P))))
    (events : List (ConfigEvent P E))
    (hloads : (loading kind loader clockMs file replaced).Along
      (fun w event => w.LoadsRebuildable kind event)
      (loading kind loader clockMs file replaced).init events) :
    (loading kind loader clockMs file replaced).Along (fun w event => w.Atomic kind event)
      (loading kind loader clockMs file replaced).init events := by
  have hinit : (loading kind loader clockMs file replaced).init.Inv kind := ConfigWorld.inv_create
  have hinv : (loading kind loader clockMs file replaced).Along (fun w _ => w.Inv kind)
      (loading kind loader clockMs file replaced).init events :=
    (Machine.Always.of_inv (fun _ event h hok => h.step event hok) hinit hloads).along fun _ _ h => h
  exact (hinv.and hloads).mono fun _ event h => h.1.atomic event h.2

/-! ## The topic configuration -/

/-- The ranges read before `stoi` throws. -/
def rangesBefore : List String → List (ℤ × ℤ)
  | [] => []
  | text :: texts =>
    match readRange text with
    | some range => range.toList ++ rangesBefore texts
    | none => []

/-- What the loop body over `queue_infos` has done when it throws. -/
def rebuildThrown (impl : TopicConfigImpl) (queueInfo : ProtoQueueInfo) : TopicConfigImpl :=
  let id := queueInfo.queueInfoId
  { impl with
    queueInfoId2queueInfo := impl.queueInfoId2queueInfo.insertIfNew id queueInfo
    queueInfoId2ranges := impl.queueInfoId2ranges.insert id
      ((impl.queueInfoId2ranges[id]?.getD []) ++ rangesBefore queueInfo.ranges) }

/-- The loop over `queue_infos`, with the maps it leaves when it throws. -/
def rebuildUntil (impl : TopicConfigImpl) : List ProtoQueueInfo → TopicConfigImpl × Bool
  | [] => (impl, true)
  | queueInfo :: queueInfos =>
    if queueInfo.queueInfoId = 0 then rebuildUntil impl queueInfos else
    match readRanges queueInfo.ranges with
    | none => (rebuildThrown impl queueInfo, false)
    | some read => rebuildUntil (rebuildQueueInfo impl queueInfo read) queueInfos

/-- `TopicConfig`. -/
def topicConfigKind : ConfigKind ProtoTopicConfig Unit TopicConfigImpl where
  proto := ⟨[], []⟩
  maps := {}
  rebuild _ proto := rebuildUntil (proto.pubs.foldl rebuildPub {}) proto.queueInfos

lemma rebuildUntil_eq {impl impl' : TopicConfigImpl} {queueInfos : List ProtoQueueInfo} :
    rebuildUntil impl queueInfos = (impl', true) ↔ rebuildQueueInfos impl queueInfos = some impl' := by
  induction queueInfos generalizing impl with
  | nil =>
    unfold rebuildUntil rebuildQueueInfos
    rw [Prod.mk.injEq, Option.some.injEq]
    exact and_iff_left rfl
  | cons queueInfo queueInfos ih =>
    unfold rebuildUntil rebuildQueueInfos
    split
    · exact ih
    · cases readRanges queueInfo.ranges with
      | none =>
        rw [Prod.mk.injEq]
        exact iff_of_false (fun h => Bool.false_ne_true h.2) (by simp)
      | some read => exact ih

theorem topicConfigKind_rebuild {proto : ProtoTopicConfig} {impl : TopicConfigImpl} :
    topicConfigKind.rebuild () proto = (impl, true) ↔ rebuild proto = some impl :=
  rebuildUntil_eq

/-- A file with one queue info, which has the given range. -/
def oneRange (range : String) (mtime : ℕ) : ConfFile (Option ProtoTopicConfig) where
  content := some { pubs := [], queueInfos := [{ queueInfoId := 1, ranges := [range] }] }
  mtime := mtime
  ino := 7

def unparsed (mtime : ℕ) : ConfFile (Option ProtoTopicConfig) := ⟨none, mtime, 7⟩

def topicLoader : NewLoader := { file := "topic.conf", ino := 0 }

/-- A configuration made from the range `0-9` at 1000 s. -/
def zeroToNine :
    Machine (ConfigWorld ProtoTopicConfig TopicConfigImpl) (ConfigEvent ProtoTopicConfig Unit) :=
  loading topicConfigKind topicLoader 1000000 (some (oneRange "0-9" 900)) none

/-- A file that cannot be parsed is followed by one with another range. -/
def nextRange : List (ConfigEvent ProtoTopicConfig Unit) :=
  [.load () none, .setFile (some (unparsed 1100)), .wait 200000, .load () none, .wait 100000, .load () none,
    .setFile (some (oneRange "5-20" 1400)), .wait 200000, .load () none]

theorem nextRange_atomic :
    zeroToNine.Along (fun w event => w.Atomic topicConfigKind event) zeroToNine.init nextRange :=
  atomic_run topicConfigKind topicLoader 1000000 (some (oneRange "0-9" 900)) none nextRange (by decide)

/-- It is followed by one whose range is no number; `FreqMan::Run` catches what is thrown, and goes on. -/
def badRange : List (ConfigEvent ProtoTopicConfig Unit) :=
  [.load () none, .setFile (some (oneRange "x" 1100)), .wait 200000, .load () none, .wait 200000, .load () none]

def badRangeAfter (n : ℕ) : ConfigWorld ProtoTopicConfig TopicConfigImpl :=
  zeroToNine.exec zeroToNine.init (badRange.take n)

/-- **Counterexample.**  The `Load` that throws leaves the message that it has read; the next one
succeeds with maps of another message, and does not read the file. -/
theorem badRange_not_atomic :
    ¬ zeroToNine.Along (fun w event => w.Atomic topicConfigKind event) zeroToNine.init badRange ∧
      ¬ (badRangeAfter 4).Answers ∧ ¬ (badRangeAfter 5).Agrees topicConfigKind () none ∧
      ¬ (badRangeAfter 5).Retries none := by
  have hanswers : ¬ (badRangeAfter 4).Answers := by
    intro h
    obtain ⟨b, hb⟩ := Option.isSome_iff_exists.mp
      (show (badRangeAfter 4).built.isSome = true by decide)
    have hranges : ∀ b ∈ (badRangeAfter 4).built,
        (b.1.queueInfos.map ProtoQueueInfo.ranges) = [["0-9"]] := by decide
    have hsame := hranges b hb
    rw [← h b hb] at hsame
    revert hsame
    decide
  refine ⟨fun h => hanswers (h.at (n := 3) rfl).answers, hanswers, fun h => ?_, fun h => ?_⟩
  · obtain ⟨⟨⟩, hmaps⟩ := h (by decide)
    have hsucceeds := congrArg Prod.snd hmaps
    revert hsucceeds
    decide
  · have hcalled := h ⟨1100, 7⟩ (by decide) (by decide) (by decide) (by decide)
    revert hcalled
    decide

end PhxQueue.Config
