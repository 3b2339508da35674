import PhxQueue.Config.GlobalConfig

/-!
# Lookups of configurations

What the calls of a thread on its `GlobalConfig` find, whatever has become of the files before: topics
that have come and gone, contents that could not be read, and a `Rebuild` that has thrown.

* `GlobalThread.Inv`         what the calls keep;
* `lookup_current`           **what a lookup finds is what the files have held for two minutes**;
* `Mended`, `Ready`          how a topic comes back that a `Rebuild` that has thrown has left out;
* `lookup_found`             **of two lookups of a configuration the second finds it**.
-/

set_option linter.unusedSectionVars false

namespace PhxQueue.Config
open Comm Lib

section
variable {C : Type} {P I : TopicPart → Type} {c : ConfigClasses C P I} {h : History C}

/-! ## What the calls keep -/

namespace GlobalThread

variable {w : GlobalThread P I}

/-- The object knows the global file, and its maps the files of the topics that its message lists. -/
structure Inv (c : ConfigClasses C P I) (h : History C) (w : GlobalThread P I) : Prop where
  file : w.config.loader.file = c.globalConfigPath
  watched : Watched h c.parseGlobal w.config w.moment
  cleared : w.config.lastClearBuildTime ≤ h.clockMs w.moment
  lists : w.config.maps.Lists c h w.config.proto w.moment

lemma getThreadInstance_config : (w.getThreadInstance c h).1.config =
    (h.load c.parseGlobal (globalKind c h) (w.moment + 2) w.config w.moment).1 := rfl

lemma getThreadInstance_ok : (w.getThreadInstance c h).2 =
    (h.load c.parseGlobal (globalKind c h) (w.moment + 2) w.config w.moment).2 := rfl

lemma getThreadInstance_moment : (w.getThreadInstance c h).1.moment =
    w.moment + 2 + 20 * (w.getThreadInstance c h).1.config.proto.length := rfl

/-- **What `GetThreadInstance` does**: its message is the one of a check; and `Rebuild` makes the maps,
or all is left as it is. -/
lemma getThreadInstance_cases (hh : h.Orderly) :
    (w.getThreadInstance c h).1.config.proto =
      (h.loadIfModified c.parseGlobal w.config w.moment).1.proto ∧
    (w.getThreadInstance c h).1.config.build = true ∧
    (w.getThreadInstance c h).1.config.lastClearBuildTime = w.config.lastClearBuildTime ∧
    (((w.getThreadInstance c h).2 = ((globalKind c h).rebuild (w.moment + 2)
          (w.getThreadInstance c h).1.config.proto).2 ∧
        ((w.getThreadInstance c h).2 = true →
          (w.getThreadInstance c h).1.config.maps.Fills (w.getThreadInstance c h).1.config.proto)) ∨
      ((w.getThreadInstance c h).2 = true ∧ w.config.build = true ∧
        (w.getThreadInstance c h).1.config.maps = w.config.maps ∧
        (w.getThreadInstance c h).1.config.proto = w.config.proto)) := by
  rw [getThreadInstance_config, getThreadInstance_ok]
  refine ⟨load_check.2, load_build, load_lastClearBuildTime, ?_⟩
  rcases load_cases h c.parseGlobal (globalKind c h) (w.moment + 2) w.config w.moment
    with ⟨hmaps, hok, -⟩ | ⟨hbuild, hmaps, hsame, hok, -⟩
  · refine Or.inl ⟨hok, fun htrue => ?_⟩
    rw [hmaps]
    exact (globalKind_lists hh).2 (hok.symm.trans htrue)
  · exact Or.inr ⟨hok, hbuild, hmaps, hsame⟩

lemma Inv.getThreadInstance (hh : h.Orderly) (hinv : w.Inv c h) :
    (w.getThreadInstance c h).1.Inv c h := by
  have hmoment := getThreadInstance_moment (c := c) (h := h) (w := w)
  have hle : w.moment + 2 ≤ (w.getThreadInstance c h).1.moment := by omega
  constructor
  · rw [getThreadInstance_config]
    exact (load_file hh hinv.watched).trans hinv.file
  · rw [getThreadInstance_config]
    exact (hinv.watched.load hh).later hh hle
  · rw [(getThreadInstance_cases hh).2.2.1]
    exact hinv.cleared.trans (hh.mono (by omega))
  · rcases load_cases h c.parseGlobal (globalKind c h) (w.moment + 2) w.config w.moment
      with ⟨hmaps, -⟩ | ⟨-, hmaps, hproto, -⟩
    · rw [hmoment, getThreadInstance_config, hmaps]
      exact (globalKind_lists hh).1
    · rw [getThreadInstance_config, hmaps, hproto]
      exact fun part => (hinv.lists part).later hh (by omega)

/-- `NeedRebuild` sets no more than the time and `build`. -/
lemma needRebuild_eq (config : BaseConfig (List TopicInfo) (GlobalConfigImpl P I)) (nowMs : ℕ) :
    (config.needRebuild nowMs).loader = config.loader ∧
      (config.needRebuild nowMs).proto = config.proto ∧
      (config.needRebuild nowMs).maps = config.maps ∧
      (((config.needRebuild nowMs).build = false ∧
          (config.needRebuild nowMs).lastClearBuildTime = nowMs) ∨
        (config.needRebuild nowMs = config ∧
          ¬ nowMs > wrap64 (config.lastClearBuildTime + 10000))) := by
  unfold BaseConfig.needRebuild
  split
  · exact ⟨rfl, rfl, rfl, Or.inl ⟨rfl, rfl⟩⟩
  · rename_i hlately
    exact ⟨rfl, rfl, rfl, Or.inr ⟨rfl, hlately⟩⟩

/-- **What a lookup does**: it asks for a rebuilding, or loads the configuration that it finds. -/
lemma getConfig_cases (part : TopicPart) (topicId : ℤ) :
    ((w.config.maps.topicId2config part)[topicId]? = none ∧
      w.getConfig c h part topicId =
        ({ config := w.config.needRebuild (h.clockMs w.moment), moment := w.moment + 1 },
          some (.error .errRangeTopic))) ∨
    ∃ config, (w.config.maps.topicId2config part)[topicId]? = some config ∧
      w.getConfig c h part topicId =
        ({ config := { w.config with
            maps := w.config.maps.setMap part ((w.config.maps.topicId2config part).insert topicId
              (h.load (c.parse part) (c.kind part) () config w.moment).1) }
           moment := w.moment + 2 },
          if (h.load (c.parse part) (c.kind part) () config w.moment).2 = true then
            some (.ok (h.load (c.parse part) (c.kind part) () config w.moment).1) else none) := by
  unfold getConfig
  cases hget : (w.config.maps.topicId2config part)[topicId]? with
  | none => exact Or.inl ⟨rfl, rfl⟩
  | some config => exact Or.inr ⟨config, rfl, rfl⟩

lemma moment_le_getThreadInstance : w.moment ≤ (w.getThreadInstance c h).1.moment := by
  rw [getThreadInstance_moment]
  omega

lemma Inv.getConfig (hh : h.Orderly) (hinv : w.Inv c h) (part : TopicPart) (topicId : ℤ) :
    (w.getConfig c h part topicId).1.Inv c h := by
  rcases getConfig_cases (c := c) (h := h) (w := w) part topicId
    with ⟨-, heq⟩ | ⟨config, hget, heq⟩
  · rw [heq]
    obtain ⟨hloader, hproto, hmaps, hclear⟩ := needRebuild_eq w.config (h.clockMs w.moment)
    have hle : w.moment ≤ w.moment + 1 := Nat.le_succ _
    refine ⟨?_, (hinv.watched.of_eq hloader hproto).later hh hle, ?_, ?_⟩
    · show (w.config.needRebuild _).loader.file = _
      rw [hloader]
      exact hinv.file
    · show (w.config.needRebuild _).lastClearBuildTime ≤ h.clockMs (w.moment + 1)
      rcases hclear with ⟨-, htime⟩ | ⟨hsame, -⟩
      · rw [htime]
        exact hh.mono hle
      · rw [hsame]
        exact hinv.cleared.trans (hh.mono hle)
    · show GlobalConfigImpl.Lists c h (w.config.needRebuild _).proto (w.config.needRebuild _).maps _
      rw [hproto, hmaps]
      exact fun part => (hinv.lists part).later hh hle
  · rw [heq]
    have hle : w.moment ≤ w.moment + 2 := Nat.le_add_right _ 2
    refine ⟨hinv.file, (hinv.watched.later hh hle).of_eq rfl rfl, hinv.cleared.trans (hh.mono hle),
      fun part' => ?_⟩
    show Listed c h w.config.proto part' ((w.config.maps.setMap part _).topicId2config part') _
    rw [topicId2config_setMap]
    by_cases hpart : part' = part
    · subst hpart
      rw [Function.update_self]
      intro id config' hconfig'
      rw [getElem?_insert_int] at hconfig'
      split at hconfig'
      · rename_i hid
        cases hconfig'
        obtain ⟨info, hinfo, hk⟩ := hinv.lists part' topicId config hget
        exact ⟨info, hid ▸ hinfo, hk.load hh⟩
      · exact (hinv.lists part').later hh hle id config' hconfig'
    · rw [Function.update_of_ne hpart]
      exact (hinv.lists part').later hh hle

lemma lookup_of_ok {part : TopicPart} {topicId : ℤ} (hok : (w.getThreadInstance c h).2 = true) :
    w.lookup c h part topicId = (w.getThreadInstance c h).1.getConfig c h part topicId :=
  if_pos hok

lemma lookup_of_thrown {part : TopicPart} {topicId : ℤ}
    (hthrown : ¬ (w.getThreadInstance c h).2 = true) :
    w.lookup c h part topicId = ((w.getThreadInstance c h).1, none) :=
  if_neg hthrown

end GlobalThread

open GlobalThread

lemma inv_newGlobalConfig (hh : h.Orderly) : (newGlobalConfig c h).Inv c h := by
  obtain ⟨hw, hfile, -, hmaps⟩ :=
    watched_newConfig hh c.parseGlobal (globalKind c h) 0 c.globalConfigPath
  refine ⟨hfile, hw, ?_, fun part id config hconfig => ?_⟩
  · show (h.newConfig c.parseGlobal (globalKind c h) 0 c.globalConfigPath).lastClearBuildTime ≤ _
    unfold History.newConfig History.loadIfModified
    rw [BaseConfig.loadIfModified_eq]
    exact Nat.zero_le _
  · have hempty : (newGlobalConfig c h).config.maps = {} := hmaps
    rw [hempty, Std.ExtTreeMap.getElem?_empty] at hconfig
    cases hconfig

lemma inv_step (hh : h.Orderly) (w : GlobalThread P I) (call : ConfigCall) (hinv : w.Inv c h) :
    ((configCalls c h).step w call).Inv c h := by
  cases call with
  | getThreadInstance => exact hinv.getThreadInstance hh
  | getConfig part topicId => exact hinv.getConfig hh part topicId
  | lookup part topicId =>
    show (w.lookup c h part topicId).1.Inv c h
    by_cases hok : (w.getThreadInstance c h).2 = true
    · rw [lookup_of_ok hok]
      exact (hinv.getThreadInstance hh).getConfig hh part topicId
    · rw [lookup_of_thrown hok]
      exact hinv.getThreadInstance hh

lemma inv_exec (hh : h.Orderly) {w : GlobalThread P I} (hinv : w.Inv c h) (calls : List ConfigCall) :
    ((configCalls c h).exec w calls).Inv c h :=
  (Machine.Always.of_step (fun w call => inv_step hh w call) hinv calls).last

/-! ## What a lookup finds -/

/-- **Two minutes after its last change the global file is in the message.** -/
lemma GlobalThread.Inv.proto_eq (hh : h.Orderly) {w : GlobalThread P I} (hinv : w.Inv c h) {m₀ : ℕ}
    {infos : List TopicInfo} (hglobal : h.Settled c.parseGlobal m₀ c.globalConfigPath infos)
    (hold : h.clock m₀ + 120 < h.clock w.moment) :
    (w.getThreadInstance c h).1.config.proto = infos := by
  rw [(getThreadInstance_cases hh).1]
  rw [← hinv.file] at hglobal
  exact hinv.watched.proto_eq hh hglobal hold

lemma getConfig_ok {w : GlobalThread P I} {part : TopicPart} {topicId : ℤ}
    {config : BaseConfig (P part) (I part)}
    (hfound : (w.getConfig c h part topicId).2 = some (.ok config)) :
    ∃ old, (w.config.maps.topicId2config part)[topicId]? = some old ∧
      config = (h.load (c.parse part) (c.kind part) () old w.moment).1 := by
  rcases getConfig_cases (c := c) (h := h) (w := w) part topicId with ⟨-, heq⟩ | ⟨old, hget, heq⟩
  · rw [heq] at hfound
    cases hfound
  · rw [heq] at hfound
    refine ⟨old, hget, ?_⟩
    split at hfound
    · cases hfound
      rfl
    · cases hfound

/-- **What a lookup finds is what the files have held for two minutes**, in every run of calls, whatever
the files have been before, and if what has been read made `Rebuild` throw: the topic is in the global
file, and the message of the configuration is the content of the file that the global one names for it;
the maps are made from it. -/
theorem lookup_current (hh : h.Orderly) (calls : List ConfigCall) {m₀ : ℕ} {infos : List TopicInfo}
    (hglobal : h.Settled c.parseGlobal m₀ c.globalConfigPath infos) {part : TopicPart} {topicId : ℤ}
    {config : BaseConfig (P part) (I part)}
    (hold : h.clock m₀ + 120 < h.clock ((configCalls c h).exec (configCalls c h).init calls).moment)
    (hfound : (((configCalls c h).exec (configCalls c h).init calls).lookup c h part topicId).2 =
      some (.ok config)) :
    ∃ info, infos.find? (fun info => info.topicId = topicId) = some info ∧
      config.maps = ((c.kind part).rebuild () config.proto).1 ∧
      ∀ m₁ proto, h.Settled (c.parse part) m₁ (info.path part) proto →
        h.clock m₁ + 120 < h.clock ((configCalls c h).exec (configCalls c h).init calls).moment →
        config.proto = proto := by
  have hinit : (configCalls c h).init.Inv c h := inv_newGlobalConfig hh
  have hinv := inv_exec hh hinit calls
  generalize (configCalls c h).exec (configCalls c h).init calls = w at hold hfound hinv ⊢
  have hproto := hinv.proto_eq hh hglobal hold
  have hinv' := hinv.getThreadInstance hh
  have hfound' : ((w.getThreadInstance c h).1.getConfig c h part topicId).2 = some (.ok config) := by
    by_cases hok : (w.getThreadInstance c h).2 = true
    · rw [lookup_of_ok hok] at hfound
      exact hfound
    · rw [lookup_of_thrown hok] at hfound
      cases hfound
  obtain ⟨old, hget, rfl⟩ := getConfig_ok hfound'
  obtain ⟨info, hinfo, hk⟩ := hinv'.lists part topicId old hget
  rw [hproto] at hinfo
  refine ⟨info, hinfo, (hk.load hh).maps, fun m₁ proto hsettled hold' => ?_⟩
  rw [← hk.file] at hsettled
  rw [load_check.2]
  exact hk.watched.proto_eq hh hsettled
    (hold'.trans_le (hh.clock_mono moment_le_getThreadInstance))

theorem mem_getAllTopicID {w : GlobalThread P I} (hinv : w.Inv c h)
    (hfills : w.config.maps.Fills w.config.proto) (topicId : ℤ) :
    topicId ∈ w.getAllTopicID ↔ ∃ info ∈ w.config.proto, info.topicId = topicId := by
  unfold getAllTopicID
  rw [Std.ExtTreeMap.mem_keys, Std.ExtTreeMap.mem_iff_isSome_getElem?]
  constructor
  · intro hsome
    obtain ⟨config, hconfig⟩ := Option.isSome_iff_exists.mp hsome
    obtain ⟨info, hinfo, -⟩ := hinv.lists .topic topicId config hconfig
    exact ⟨info, List.mem_of_find?_eq_some hinfo, by simpa using List.find?_some hinfo⟩
  · rintro ⟨info, hinfo, rfl⟩
    exact hfills .topic info hinfo

/-! ## Topics that have been left out -/

section
variable {w : GlobalThread P I} {m₀ : ℕ} {infos : List TopicInfo} {part : TopicPart} {topicId : ℤ}

/-- A `GetThreadInstance` that reads a list whose files do not make `Rebuild` throw. -/
lemma getThreadInstance_fills (hh : h.Orderly) (hbuilds : ∀ info ∈ infos, Builds c h info m₀)
    (hle : m₀ ≤ w.moment) (hproto : (w.getThreadInstance c h).1.config.proto = infos) :
    (w.getThreadInstance c h).2 = true ∧
      ((w.getThreadInstance c h).1.config.maps.Fills infos ∨
        (w.config.build = true ∧ (w.getThreadInstance c h).1.config.maps = w.config.maps ∧
          w.config.proto = infos)) := by
  obtain ⟨-, -, -, ⟨hok, hfills⟩ | ⟨hok, hbuild, hmaps, hsame⟩⟩ :=
    getThreadInstance_cases (c := c) (w := w) hh
  · rw [hproto] at hok hfills
    rw [globalKind_ok hh hbuilds (by omega)] at hok
    exact ⟨hok, Or.inl (hfills hok)⟩
  · exact ⟨hok, Or.inr ⟨hbuild, hmaps, hsame.symm.trans hproto⟩⟩

/-- What is in a map stays when a configuration is loaded. -/
lemma isSome_setMap_insert {impl : GlobalConfigImpl P I} {part' : TopicPart} {id : ℤ}
    (config : BaseConfig (P part') (I part'))
    (hsome : ((impl.topicId2config part)[topicId]?).isSome = true) :
    (((impl.setMap part' ((impl.topicId2config part').insert id config)).topicId2config
      part)[topicId]?).isSome = true := by
  rw [topicId2config_setMap]
  by_cases hpart : part = part'
  · subst hpart
    rw [Function.update_self, getElem?_insert_int]
    split
    · rfl
    · exact hsome
  · rw [Function.update_of_ne hpart]
    exact hsome

/-- **A rebuilding that has been asked for brings the whole list**, once it is made: no `Rebuild` throws
from the moment on. -/
def Mended (h : History C) (m₀ : ℕ) (infos : List TopicInfo) (w : GlobalThread P I) : Prop :=
  h.clockMs m₀ < w.config.lastClearBuildTime → w.config.build = true → w.config.proto = infos →
    w.config.maps.Fills infos

lemma Mended.getThreadInstance (hh : h.Orderly) (hbuilds : ∀ info ∈ infos, Builds c h info m₀)
    (hinv : w.Inv c h) (hm : Mended h m₀ infos w) :
    Mended h m₀ infos (w.getThreadInstance c h).1 := by
  intro hclear _ hproto
  rw [(getThreadInstance_cases hh).2.2.1] at hclear
  have hle : m₀ ≤ w.moment := by
    by_contra hlt
    have hback := hh.mono (not_le.mp hlt).le
    have hcleared := hinv.cleared
    omega
  rcases (getThreadInstance_fills hh hbuilds hle hproto).2 with hfills | ⟨hbuild, hmaps, hsame⟩
  · exact hfills
  · rw [hmaps]
    exact hm hclear hbuild hsame

lemma Mended.getConfig (hm : Mended h m₀ infos w) :
    Mended h m₀ infos (w.getConfig c h part topicId).1 := by
  intro hclear hbuild hproto
  rcases getConfig_cases (c := c) (h := h) (w := w) part topicId with ⟨-, heq⟩ | ⟨old, -, heq⟩
  · rw [heq] at hclear hbuild hproto ⊢
    rcases (needRebuild_eq w.config (h.clockMs w.moment)).2.2.2
      with ⟨hnot, -⟩ | ⟨hsame, -⟩
    · have hbuild : (w.config.needRebuild (h.clockMs w.moment)).build = true := hbuild
      rw [hnot] at hbuild
      cases hbuild
    · dsimp only at hclear hbuild hproto ⊢
      rw [hsame] at hclear hbuild hproto ⊢
      exact hm hclear hbuild hproto
  · rw [heq] at hclear hbuild hproto ⊢
    intro part' info hinfo
    exact isSome_setMap_insert _ (hm hclear hbuild hproto part' info hinfo)

/-- A configuration that is in the maps when they have been built. -/
def Ready (part : TopicPart) (topicId : ℤ) (w : GlobalThread P I) : Prop :=
  w.config.build = true → ((w.config.maps.topicId2config part)[topicId]?).isSome = true

lemma Ready.getConfig {part' : TopicPart} {id : ℤ} (hr : Ready part topicId w) :
    Ready part topicId (w.getConfig c h part' id).1 := by
  intro hbuild
  rcases getConfig_cases (c := c) (h := h) (w := w) part' id with ⟨-, heq⟩ | ⟨old, -, heq⟩
  · rw [heq] at hbuild ⊢
    obtain ⟨-, -, hmaps, ⟨hnot, -⟩ | ⟨hsame, -⟩⟩ :=
      needRebuild_eq w.config (h.clockMs w.moment)
    · have hbuild : (w.config.needRebuild (h.clockMs w.moment)).build = true := hbuild
      rw [hnot] at hbuild
      cases hbuild
    · dsimp only at hbuild ⊢
      rw [hsame] at hbuild ⊢
      exact hr hbuild
  · rw [heq] at hbuild ⊢
    exact isSome_setMap_insert _ (hr hbuild)

lemma moment_le_getConfig : w.moment ≤ (w.getConfig c h part topicId).1.moment := by
  rcases getConfig_cases (c := c) (h := h) (w := w) part topicId with ⟨-, heq⟩ | ⟨old, -, heq⟩
  · rw [heq]
    exact Nat.le_succ _
  · rw [heq]
    exact Nat.le_add_right _ 2

/-- A step that the two calls keep is kept by a lookup. -/
lemma lookup_induction {motive : GlobalThread P I → Prop}
    (hthread : motive (w.getThreadInstance c h).1)
    (hget : motive (w.getThreadInstance c h).1 →
      motive ((w.getThreadInstance c h).1.getConfig c h part topicId).1) :
    motive (w.lookup c h part topicId).1 := by
  by_cases hok : (w.getThreadInstance c h).2 = true
  · rw [lookup_of_ok hok]
    exact hget hthread
  · rw [lookup_of_thrown hok]
    exact hthread

/-- **Step lemma** of what is mended. -/
lemma mended_step (hh : h.Orderly) (hbuilds : ∀ info ∈ infos, Builds c h info m₀) (call : ConfigCall)
    (hinv : w.Inv c h) (hm : Mended h m₀ infos w) :
    Mended h m₀ infos ((configCalls c h).step w call) := by
  cases call with
  | getThreadInstance => exact hm.getThreadInstance hh hbuilds hinv
  | getConfig part topicId => exact hm.getConfig
  | lookup part topicId =>
    exact lookup_induction (motive := Mended h m₀ infos) (hm.getThreadInstance hh hbuilds hinv)
      Mended.getConfig

/-- The topic is there after a `GetThreadInstance` that is late enough. -/
lemma Ready.getThreadInstance (hh : h.Orderly) (hbuilds : ∀ info ∈ infos, Builds c h info m₀)
    (hglobal : h.Settled c.parseGlobal m₀ c.globalConfigPath infos) (hinv : w.Inv c h)
    (hold : h.clock m₀ + 120 < h.clock w.moment) {info : TopicInfo} (hinfo : info ∈ infos)
    (hr : Ready part info.topicId w) :
    (w.getThreadInstance c h).2 = true ∧
      (((w.getThreadInstance c h).1.config.maps.topicId2config part)[info.topicId]?).isSome = true := by
  have hle : m₀ ≤ w.moment := (hh.lt_of_clock_lt (by omega)).le
  obtain ⟨hok, hfills | ⟨hbuild, hmaps, -⟩⟩ :=
    getThreadInstance_fills hh hbuilds hle (hinv.proto_eq hh hglobal hold)
  · exact ⟨hok, hfills part info hinfo⟩
  · rw [hmaps]
    exact ⟨hok, hr hbuild⟩

/-- **Step lemma** of what is there. -/
lemma ready_step (hh : h.Orderly) (hbuilds : ∀ info ∈ infos, Builds c h info m₀)
    (hglobal : h.Settled c.parseGlobal m₀ c.globalConfigPath infos) (call : ConfigCall)
    (hinv : w.Inv c h) (hold : h.clock m₀ + 120 < h.clock w.moment) {info : TopicInfo}
    (hinfo : info ∈ infos) (hr : Ready part info.topicId w) :
    Ready part info.topicId ((configCalls c h).step w call) := by
  have hthread : Ready part info.topicId (w.getThreadInstance c h).1 :=
    fun _ => (hr.getThreadInstance hh hbuilds hglobal hinv hold hinfo).2
  cases call with
  | getThreadInstance => exact hthread
  | getConfig part' topicId => exact hr.getConfig
  | lookup part' topicId =>
    exact lookup_induction (motive := Ready part info.topicId) hthread Ready.getConfig

lemma moment_le_step (call : ConfigCall) : w.moment ≤ ((configCalls c h).step w call).moment := by
  cases call with
  | getThreadInstance => exact moment_le_getThreadInstance
  | getConfig part topicId => exact moment_le_getConfig
  | lookup part topicId =>
    exact lookup_induction (motive := fun w' => w.moment ≤ w'.moment) moment_le_getThreadInstance
      fun hle => hle.trans moment_le_getConfig

/-- **A lookup that misses a topic of the list asks for a rebuilding**, unless one has been made. -/
lemma ready_lookup (hh : h.Orderly) (hbuilds : ∀ info ∈ infos, Builds c h info m₀)
    (hglobal : h.Settled c.parseGlobal m₀ c.globalConfigPath infos) (hinv : w.Inv c h)
    (hm : Mended h m₀ infos w) (hold : h.clock m₀ + 120 < h.clock w.moment) {info : TopicInfo}
    (hinfo : info ∈ infos) : Ready part info.topicId (w.lookup c h part info.topicId).1 := by
  have hproto := hinv.proto_eq hh hglobal hold
  have hle : m₀ ≤ w.moment := (hh.lt_of_clock_lt (by omega)).le
  have hinv' := hinv.getThreadInstance hh
  have hm' := hm.getThreadInstance hh hbuilds hinv
  have hold' := hold.trans_le (hh.clock_mono (moment_le_getThreadInstance (c := c) (h := h)))
  rw [lookup_of_ok (getThreadInstance_fills hh hbuilds hle hproto).1]
  generalize (w.getThreadInstance c h).1 = w₁ at hproto hinv' hm' hold' ⊢
  intro hbuild
  rcases getConfig_cases (c := c) (h := h) (w := w₁) part info.topicId
    with ⟨hnone, heq⟩ | ⟨old, hsome, heq⟩
  · rw [heq] at hbuild ⊢
    rcases (needRebuild_eq w₁.config (h.clockMs w₁.moment)).2.2.2
      with ⟨hnot, -⟩ | ⟨hsame, hlately⟩
    · have hbuild : (w₁.config.needRebuild (h.clockMs w₁.moment)).build = true := hbuild
      rw [hnot] at hbuild
      cases hbuild
    · -- a rebuilding has been asked for within ten seconds
      exfalso
      have hclock := hh.clock_lt w₁.moment
      have hcleared := hinv'.cleared
      unfold History.clock at hold' hclock
      unfold wrap64 at hlately
      dsimp only at hbuild
      rw [hsame] at hbuild
      have hfull := hm' (by omega) hbuild hproto part info hinfo
      rw [hnone] at hfull
      cases hfull
  · rw [heq]
    exact isSome_setMap_insert _ (by rw [hsome]; rfl)

lemma getConfig_found (hh : h.Orderly) (hinv : w.Inv c h) {info : TopicInfo}
    (hinfo : w.config.proto.find? (fun x => x.topicId = info.topicId) = some info)
    (hsome : ((w.config.maps.topicId2config part)[info.topicId]?).isSome = true) {m₁ : ℕ}
    {proto : P part} (hpart : h.Settled (c.parse part) m₁ (info.path part) proto)
    (hbuild : ((c.kind part).rebuild () proto).2 = true)
    (hold : h.clock m₁ + 120 < h.clock w.moment) :
    ∃ config, (w.getConfig c h part info.topicId).2 = some (.ok config) ∧ config.proto = proto ∧
      config.maps = ((c.kind part).rebuild () proto).1 := by
  obtain ⟨old, hget⟩ := Option.isSome_iff_exists.mp hsome
  obtain ⟨info', hinfo', hk⟩ := hinv.lists part info.topicId old hget
  rw [hinfo] at hinfo'
  cases hinfo'
  have hproto : (h.load (c.parse part) (c.kind part) () old w.moment).1.proto = proto := by
    rw [← hk.file] at hpart
    rw [load_check.2]
    exact hk.watched.proto_eq hh hpart hold
  have hloaded : (h.load (c.parse part) (c.kind part) () old w.moment).2 = true := by
    rcases load_cases h (c.parse part) (c.kind part) () old w.moment
      with ⟨-, hret, -⟩ | ⟨-, -, -, hret, -⟩
    · rw [hret, hproto]
      exact hbuild
    · exact hret
  rcases getConfig_cases (c := c) (h := h) (w := w) part info.topicId
    with ⟨hnone, -⟩ | ⟨old', hget', heq⟩
  · rw [hget] at hnone
    cases hnone
  · rw [hget] at hget'
    cases hget'
    have hmaps := (hk.load hh).maps
    rw [hproto] at hmaps
    rw [heq]
    exact ⟨_, if_pos hloaded, hproto, hmaps⟩

end

/-- **Of two lookups of a configuration the second finds it**, in every run of calls, whatever has gone
wrong before: the global file lists the topic and has stood for two minutes, what has been read since
from the files of its topics does not make `Rebuild` throw, and the file of the configuration has stood
for two minutes at the second one.  In between, and before, the thread makes any calls. -/
theorem lookup_found (hh : h.Orderly) (calls calls' : List ConfigCall) {m₀ m₁ : ℕ}
    {infos : List TopicInfo} (hglobal : h.Settled c.parseGlobal m₀ c.globalConfigPath infos)
    (hbuilds : ∀ info ∈ infos, Builds c h info m₀) {part : TopicPart} {topicId : ℤ} {info : TopicInfo}
    (hinfo : infos.find? (fun info => info.topicId = topicId) = some info) {proto : P part}
    (hpart : h.Settled (c.parse part) m₁ (info.path part) proto)
    (hold : h.clock m₀ + 120 < h.clock ((configCalls c h).exec (configCalls c h).init calls).moment)
    (hold' : h.clock m₁ + 120 < h.clock ((configCalls c h).exec (configCalls c h).init
      (calls ++ .lookup part topicId :: calls')).moment) :
    ∃ config, (((configCalls c h).exec (configCalls c h).init
        (calls ++ .lookup part topicId :: calls')).lookup c h part topicId).2 = some (.ok config) ∧
      config.proto = proto ∧ config.maps = ((c.kind part).rebuild () proto).1 := by
  have hmem : info ∈ infos := List.mem_of_find?_eq_some hinfo
  have hid : info.topicId = topicId := by simpa using List.find?_some hinfo
  subst hid
  -- up to the first lookup
  have hfirst : ((configCalls c h).exec (configCalls c h).init calls).Inv c h ∧
      Mended h m₀ infos ((configCalls c h).exec (configCalls c h).init calls) := by
    refine (Machine.Always.of_step (I := fun w => w.Inv c h ∧ Mended h m₀ infos w)
      (fun w call hw => ⟨inv_step hh w call hw.1, mended_step hh hbuilds call hw.1 hw.2⟩)
      ⟨inv_newGlobalConfig hh, fun hclear => ?_⟩ calls).last
    have hzero : (newGlobalConfig c h).config.lastClearBuildTime = 0 := by
      show (h.newConfig c.parseGlobal (globalKind c h) 0 c.globalConfigPath).lastClearBuildTime = 0
      unfold History.newConfig History.loadIfModified
      rw [BaseConfig.loadIfModified_eq]
      rfl
    have hclear : h.clockMs m₀ < (newGlobalConfig c h).config.lastClearBuildTime := hclear
    rw [hzero] at hclear
    exact absurd hclear (Nat.not_lt_zero _)
  rw [Machine.exec_append, Machine.exec_cons] at hold' ⊢
  generalize (configCalls c h).exec (configCalls c h).init calls = w at hfirst hold hold' ⊢
  obtain ⟨hinv, hm⟩ := hfirst
  -- up to the second one
  have hsecond := (Machine.Always.of_step (M := configCalls c h)
    (I := fun w => w.Inv c h ∧ h.clock m₀ + 120 < h.clock w.moment ∧ Ready part info.topicId w)
    (fun w call hw => ⟨inv_step hh w call hw.1, hw.2.1.trans_le (hh.clock_mono (moment_le_step call)),
      ready_step hh hbuilds hglobal call hw.1 hw.2.1 hmem hw.2.2⟩)
    ⟨inv_step hh w (.lookup part info.topicId) hinv,
      hold.trans_le (hh.clock_mono (moment_le_step (.lookup part info.topicId))),
      ready_lookup hh hbuilds hglobal hinv hm hold hmem⟩ calls').last
  generalize (configCalls c h).exec _ calls' = w' at hsecond hold' ⊢
  obtain ⟨hinv', hold₂, hr⟩ := hsecond
  obtain ⟨hok, hsome⟩ := hr.getThreadInstance hh hbuilds hglobal hinv' hold₂ hmem
  rw [lookup_of_ok hok]
  refine getConfig_found hh (hinv'.getThreadInstance hh) ?_ hsome hpart ?_
    (hold'.trans_le (hh.clock_mono moment_le_getThreadInstance))
  · rw [hinv'.proto_eq hh hglobal hold₂]
    exact hinfo
  · obtain ⟨f, hf, hparse, -⟩ := hpart
    exact (hbuilds info hmem part).2 (max m₀ m₁) (le_max_left _ _) f (hf _ (le_max_right _ _)) proto
      hparse

end

/-! ## A topic whose range has been no number -/

abbrev OnlyTopic (T : Type) : TopicPart → Type
  | .topic => T
  | .consumer | .store | .scheduler | .lock => Unit

def onlyTopic : ConfigClasses (List TopicInfo ⊕ ProtoTopicConfig) (OnlyTopic ProtoTopicConfig)
    (OnlyTopic TopicConfigImpl) where
  globalConfigPath := "global.conf"
  parseGlobal := Sum.getLeft?
  parse
    | .topic => Sum.getRight?
    | .consumer | .store | .scheduler | .lock => fun _ => some ()
  kind
    | .topic => topicConfigKind
    | .consumer | .store | .scheduler | .lock => ⟨(), (), fun _ _ => ((), true)⟩

def testTopic : TopicInfo where
  topicId := 1000
  topicName := "test"
  topicConfigPath := "topic.conf"
  consumerConfigPath := ""
  storeConfigPath := ""
  schedulerConfigPath := ""
  lockConfigPath := ""

def withRange (range : String) : ProtoTopicConfig where
  pubs := []
  queueInfos := [{ queueInfoId := 1, ranges := [range] }]

/-- The first `Rebuild` of the thread throws; then the file of the topic is mended. -/
def mendedFile : History (List TopicInfo ⊕ ProtoTopicConfig) where
  clockMs j := if j < 10 then 1000000 else if j < 20 then 1200000 else 2000000
  file j path :=
    if path = "global.conf" then some ⟨.inl [testTopic], 900, 7⟩
    else if path = "topic.conf" then
      if j < 10 then some ⟨.inr (withRange "x"), 900, 8⟩ else some ⟨.inr (withRange "0-9"), 1200, 8⟩
    else none
  memory _ := 0

lemma orderly_mendedFile : mendedFile.Orderly where
  mono i j hle := by
    unfold mendedFile
    dsimp only
    split_ifs <;> omega
  clock_lt j := by
    unfold History.clock mendedFile
    dsimp only
    split_ifs <;> decide
  mtime_lt j path f hf := by
    unfold mendedFile at hf
    dsimp only at hf
    split_ifs at hf <;> cases hf <;> decide
  noname j := rfl
  stamped path i j k f hf g hg hij hjk hstat := by
    unfold mendedFile at hf hg ⊢
    dsimp only at hf hg ⊢
    split_ifs at hf hg ⊢
    all_goals first | exact hf | omega | (cases hf <;> cases hg <;> cases hstat)

lemma settled_global : mendedFile.Settled onlyTopic.parseGlobal 10 "global.conf" [testTopic] :=
  ⟨⟨.inl [testTopic], 900, 7⟩, fun _ _ => rfl, rfl, by decide⟩

lemma mendedFile_topic {j : ℕ} (hj : 10 ≤ j) :
    mendedFile.file j "topic.conf" = some ⟨.inr (withRange "0-9"), 1200, 8⟩ :=
  if_neg (not_lt.mpr hj)

lemma settled_topic :
    mendedFile.Settled (onlyTopic.parse .topic) 10 "topic.conf" (withRange "0-9") :=
  ⟨⟨.inr (withRange "0-9"), 1200, 8⟩, fun _ hj => mendedFile_topic hj, rfl, by decide⟩

lemma builds_testTopic : ∀ info ∈ [testTopic], Builds onlyTopic mendedFile info 10 := by
  intro info hinfo part
  rw [List.mem_singleton] at hinfo
  subst hinfo
  cases part with
  | topic =>
    refine ⟨rfl, fun j hj f hf proto hproto => ?_⟩
    have hf' := mendedFile_topic hj
    rw [show mendedFile.file j "topic.conf" = some f from hf] at hf'
    cases hf'
    cases hproto
    decide
  | consumer | store | scheduler | lock => exact ⟨rfl, fun _ _ _ _ _ _ => rfl⟩

/-- The thread after it has asked for a rebuilding. -/
def missedOnce : List ConfigCall := [.getThreadInstance, .lookup .topic 1000]

theorem mended_current : ∃ config,
    (((configCalls onlyTopic mendedFile).exec (configCalls onlyTopic mendedFile).init missedOnce).lookup
        onlyTopic mendedFile .topic 1000).2 = some (.ok config) ∧
      config.proto = withRange "0-9" := by
  have hsome : ((((configCalls onlyTopic mendedFile).exec (configCalls onlyTopic mendedFile).init
      missedOnce).lookup onlyTopic mendedFile .topic 1000).2.bind Except.toOption).isSome = true := by
    decide
  obtain ⟨config, hconfig⟩ := Option.isSome_iff_exists.mp hsome
  obtain ⟨answer, hanswer, hok⟩ := Option.bind_eq_some_iff.mp hconfig
  cases answer with
  | error ret => cases hok
  | ok config' =>
    cases hok
    obtain ⟨info, hinfo, -, hcurrent⟩ :=
      lookup_current orderly_mendedFile missedOnce settled_global (by decide) hanswer
    cases hinfo
    exact ⟨config, hanswer, hcurrent 10 (withRange "0-9") settled_topic (by decide)⟩

theorem mended_found : ∃ config,
    (((configCalls onlyTopic mendedFile).exec (configCalls onlyTopic mendedFile).init missedOnce).lookup
        onlyTopic mendedFile .topic 1000).2 = some (.ok config) ∧
      config.proto = withRange "0-9" ∧
      config.maps = (topicConfigKind.rebuild () (withRange "0-9")).1 :=
  lookup_found orderly_mendedFile [.getThreadInstance] [] settled_global
    builds_testTopic (show [testTopic].find? (fun info => info.topicId = 1000) = some testTopic from rfl)
    settled_topic (by decide) (by decide)

end PhxQueue.Config
