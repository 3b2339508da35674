import PhxQueue.Config.Watch

/-!
# The global configuration

`GlobalConfig` of `config/globalconfig.cpp`, with the objects that `plugin/configfactory.cpp` makes.  The
global file lists the topics, each with the files of its five configurations; every thread has an object
of its own for the global file, and in its maps one for each of the others.

* `makeConfig`, `rebuildTopics`  `Rebuild`, which makes all objects anew;
* `GlobalThread`, `getThreadInstance`, `getConfig`  the calls of a thread;
* `Kept`, `Listed`, `Full`       what the maps say of a list of topics;
* `globalKind_lists`             **`Rebuild` makes the maps of its list**, up to where it throws.
-/

set_option linter.unusedSectionVars false

namespace PhxQueue.Config
open Comm Lib

/-! ## The code -/

inductive TopicPart
  | topic | consumer | store | scheduler | lock
deriving DecidableEq

def topicParts : List TopicPart := [.topic, .consumer, .store, .scheduler, .lock]

/-- `proto::TopicInfo`. -/
structure TopicInfo where
  topicId : ℤ
  topicName : String
  topicConfigPath : String
  consumerConfigPath : String
  storeConfigPath : String
  schedulerConfigPath : String
  lockConfigPath : String
deriving DecidableEq

def TopicInfo.path (info : TopicInfo) : TopicPart → String
  | .topic => info.topicConfigPath
  | .consumer => info.consumerConfigPath
  | .store => info.storeConfigPath
  | .scheduler => info.schedulerConfigPath
  | .lock => info.lockConfigPath

/-- The classes of the configurations, with `JsonStringToMessage` for each; a message of `GlobalConfig`
is its `topic_infos`. -/
structure ConfigClasses (C : Type) (P I : TopicPart → Type) where
  globalConfigPath : String
  parseGlobal : C → Option (List TopicInfo)
  parse : ∀ part, C → Option (P part)
  kind : ∀ part, ConfigKind (P part) Unit (I part)

/-- `GlobalConfigImpl_t`; the map of a part is `topic_id2topic_config`, `topic_id2consumer_config`, ...
(`handle_id2topic_id` is read by nobody). -/
structure GlobalConfigImpl (P I : TopicPart → Type) where
  topicName2topicId : Std.ExtTreeMap String ℤ := ∅
  topicId2config : ∀ part, Std.ExtTreeMap ℤ (BaseConfig (P part) (I part)) := fun _ => ∅

/-- What is in the map of a part after an `emplace` or an assignment. -/
def GlobalConfigImpl.setMap {P I : TopicPart → Type} (impl : GlobalConfigImpl P I) (part : TopicPart)
    (map : Std.ExtTreeMap ℤ (BaseConfig (P part) (I part))) : GlobalConfigImpl P I :=
  { impl with topicId2config := Function.update impl.topicId2config part map }

section
variable {C : Type} {P I : TopicPart → Type} (c : ConfigClasses C P I) (h : History C)

/-- `NewTopicConfig` and `Load`, or those of another part; `Load` may throw. -/
def makeConfig (info : TopicInfo) (part : TopicPart) (m : ℕ) : BaseConfig (P part) (I part) × Bool :=
  h.load (c.parse part) (c.kind part) ()
    (h.newConfig (c.parse part) (c.kind part) m (info.path part)) (m + 2)

/-- One configuration of a topic in the loop body of `Rebuild`. -/
def addConfig (info : TopicInfo) (impl : GlobalConfigImpl P I) (part : TopicPart) (m : ℕ) :
    GlobalConfigImpl P I × Bool :=
  let (config, ok) := makeConfig c h info part m
  if ok then
    (impl.setMap part ((impl.topicId2config part).insertIfNew info.topicId config), true)
  else (impl, false)

def addConfigs (info : TopicInfo) (impl : GlobalConfigImpl P I) :
    List TopicPart → ℕ → GlobalConfigImpl P I × Bool
  | [], _ => (impl, true)
  | part :: parts, m =>
    let (impl, ok) := addConfig c h info impl part m
    if ok then addConfigs info impl parts (m + 4) else (impl, false)

/-- The loop body of `Rebuild`. -/
def rebuildTopic (impl : GlobalConfigImpl P I) (info : TopicInfo) (m : ℕ) :
    GlobalConfigImpl P I × Bool :=
  addConfigs c h info
    { impl with topicName2topicId := impl.topicName2topicId.insertIfNew info.topicName info.topicId }
    topicParts m

/-- The loop of `Rebuild`. -/
def rebuildTopics (impl : GlobalConfigImpl P I) : List TopicInfo → ℕ → GlobalConfigImpl P I × Bool
  | [], _ => (impl, true)
  | info :: infos, m =>
    let (impl, ok) := rebuildTopic c h impl info m
    if ok then rebuildTopics impl infos (m + 20) else (impl, false)

/-- `GlobalConfig`; its `Rebuild` begins at a moment. -/
def globalKind : ConfigKind (List TopicInfo) ℕ (GlobalConfigImpl P I) where
  proto := []
  maps := {}
  rebuild m proto := rebuildTopics c h {} proto m

/-- The `global_config` of a thread, and the next moment. -/
structure GlobalThread (P I : TopicPart → Type) where
  config : BaseConfig (List TopicInfo) (GlobalConfigImpl P I)
  moment : ℕ

/-- `NewGlobalConfig`, in the first `GetThreadInstance`. -/
def newGlobalConfig : GlobalThread P I where
  config := h.newConfig c.parseGlobal (globalKind c h) 0 c.globalConfigPath
  moment := 2

namespace GlobalThread

variable (w : GlobalThread P I)

/-- `GetThreadInstance`, which may throw. -/
def getThreadInstance : GlobalThread P I × Bool :=
  let (config, ok) := h.load c.parseGlobal (globalKind c h) (w.moment + 2) w.config w.moment
  ({ config := config, moment := w.moment + 2 + 20 * config.proto.length }, ok)

/-- The lookup of a configuration by the id of its topic; `none` is an exception. -/
def getConfig (part : TopicPart) (topicId : ℤ) :
    GlobalThread P I × Option (Except RetCode (BaseConfig (P part) (I part))) :=
  match (w.config.maps.topicId2config part)[topicId]? with
  | none =>
    ({ config := w.config.needRebuild (h.clockMs w.moment), moment := w.moment + 1 },
      some (.error .errRangeTopic))
  | some config =>
    let (config, ok) := h.load (c.parse part) (c.kind part) () config w.moment
    ({ config :=
        { w.config with
          maps := w.config.maps.setMap part ((w.config.maps.topicId2config part).insert topicId config) }
       moment := w.moment + 2 },
      if ok then some (.ok config) else none)

def getTopicConfigByTopicID := getConfig c h w .topic

def getConsumerConfig := getConfig c h w .consumer

def getStoreConfig := getConfig c h w .store

def getSchedulerConfig := getConfig c h w .scheduler

def getLockConfig := getConfig c h w .lock

def getTopicIDByTopicName (topicName : String) : Except RetCode ℤ :=
  match w.config.maps.topicName2topicId[topicName]? with
  | none => .error .errRangeTopic
  | some topicId => .ok topicId

def getAllTopicID : List ℤ := (w.config.maps.topicId2config .topic).keys

/-- `GetThreadInstance()->` and a lookup. -/
def lookup (part : TopicPart) (topicId : ℤ) :
    GlobalThread P I × Option (Except RetCode (BaseConfig (P part) (I part))) :=
  let (w, ok) := w.getThreadInstance c h
  if ok then w.getConfig c h part topicId else (w, none)

end GlobalThread

/-- A call of a thread, which may keep the object for the next one. -/
inductive ConfigCall
  | getThreadInstance
  | getConfig (part : TopicPart) (topicId : ℤ)
  | lookup (part : TopicPart) (topicId : ℤ)
deriving DecidableEq

/-- The calls of a thread, from its first one. -/
def configCalls : Machine (GlobalThread P I) ConfigCall where
  init := newGlobalConfig c h
  step w
    | .getThreadInstance => (w.getThreadInstance c h).1
    | .getConfig part topicId => (w.getConfig c h part topicId).1
    | .lookup part topicId => (w.lookup c h part topicId).1

end

/-! ## One configuration of a topic -/

section
variable {C : Type} {P I : TopicPart → Type} {c : ConfigClasses C P I} {h : History C}
  {info : TopicInfo} {part : TopicPart} {m : ℕ}

/-- A configuration in the maps: it is about the file of its topic, and its maps are made from its
message. -/
structure Kept (c : ConfigClasses C P I) (h : History C) (info : TopicInfo) (part : TopicPart)
    (config : BaseConfig (P part) (I part)) (m : ℕ) : Prop where
  file : config.loader.file = info.path part
  watched : Watched h (c.parse part) config m
  maps : config.maps = ((c.kind part).rebuild () config.proto).1

lemma Kept.later (hh : h.Orderly) {config : BaseConfig (P part) (I part)}
    (hk : Kept c h info part config m) {m' : ℕ} (hle : m ≤ m') : Kept c h info part config m' :=
  ⟨hk.file, hk.watched.later hh hle, hk.maps⟩

lemma Kept.load (hh : h.Orderly) {config : BaseConfig (P part) (I part)}
    (hk : Kept c h info part config m) :
    Kept c h info part (h.load (c.parse part) (c.kind part) () config m).1 (m + 2) := by
  refine ⟨(load_file hh hk.watched).trans hk.file, hk.watched.load hh, ?_⟩
  rcases load_cases h (c.parse part) (c.kind part) () config m with ⟨hmaps, -⟩ | ⟨-, hmaps, hproto, -⟩
  · exact hmaps
  · rw [hmaps, hproto]
    exact hk.maps

lemma kept_makeConfig (hh : h.Orderly) :
    Kept c h info part (makeConfig c h info part m).1 (m + 4) := by
  obtain ⟨hw, hfile, hbuild, -⟩ := watched_newConfig hh (c.parse part) (c.kind part) m (info.path part)
  refine ⟨(load_file hh hw).trans hfile, hw.load hh, ?_⟩
  rcases load_cases h (c.parse part) (c.kind part) ()
    (h.newConfig (c.parse part) (c.kind part) m (info.path part)) (m + 2)
    with ⟨hmaps, -⟩ | ⟨hbuilt, -⟩
  · exact hmaps
  · rw [hbuild] at hbuilt
    cases hbuilt

/-- From a moment on, nothing that is read from the files of a topic makes `Rebuild` throw. -/
def Builds (c : ConfigClasses C P I) (h : History C) (info : TopicInfo) (m₀ : ℕ) : Prop :=
  ∀ part, ((c.kind part).rebuild () (c.kind part).proto).2 = true ∧
    ∀ j, m₀ ≤ j → ∀ f ∈ h.file j (info.path part), ∀ proto, c.parse part f.content = some proto →
      ((c.kind part).rebuild () proto).2 = true

lemma makeConfig_ok (hh : h.Orderly) {m₀ : ℕ} (hbuilds : Builds c h info m₀) (hle : m₀ ≤ m) :
    (makeConfig c h info part m).2 = true := by
  obtain ⟨hdefault, hread⟩ := hbuilds part
  have hw : Watched h (c.parse part) (h.unloaded (c.kind part) m (info.path part)) m :=
    watched_unloaded (info.path part)
  -- the message that the factory has read, and the one of `Load`
  have hnew : ((c.kind part).rebuild ()
      (h.newConfig (c.parse part) (c.kind part) m (info.path part)).proto).2 = true := by
    rcases loadIfModified_proto_cases h (c.parse part)
      (h.unloaded (c.kind part) m (info.path part)) m with hsame | ⟨f, hf, hparse⟩
    · unfold History.newConfig
      rw [hsame]
      exact hdefault
    · exact hread (m + 1) (by omega) f hf _ hparse
  have hfile := (watched_newConfig hh (c.parse part) (c.kind part) m (info.path part)).2.1
  have hload : ((c.kind part).rebuild () (makeConfig c h info part m).1.proto).2 = true := by
    unfold makeConfig
    rw [load_check.2]
    rcases loadIfModified_proto_cases h (c.parse part)
      (h.newConfig (c.parse part) (c.kind part) m (info.path part)) (m + 2)
      with hsame | ⟨f, hf, hparse⟩
    · rw [hsame]
      exact hnew
    · rw [hfile] at hf
      exact hread (m + 2 + 1) (by omega) f hf _ hparse
  rcases load_cases h (c.parse part) (c.kind part) ()
    (h.newConfig (c.parse part) (c.kind part) m (info.path part)) (m + 2)
    with ⟨-, hok, -⟩ | ⟨-, -, -, hok, -⟩
  · exact hok.trans hload
  · exact hok

/-! ## The maps of a list of topics -/

/-- Each object of the map of a part is about the first topic with its id. -/
def Listed (c : ConfigClasses C P I) (h : History C) (infos : List TopicInfo) (part : TopicPart)
    (map : Std.ExtTreeMap ℤ (BaseConfig (P part) (I part))) (m : ℕ) : Prop :=
  ∀ id config, map[id]? = some config → ∃ info,
    infos.find? (fun info => info.topicId = id) = some info ∧ Kept c h info part config m

/-- Each topic is in the map of a part. -/
def Full (infos : List TopicInfo) {part : TopicPart}
    (map : Std.ExtTreeMap ℤ (BaseConfig (P part) (I part))) : Prop :=
  ∀ info ∈ infos, (map[info.topicId]?).isSome = true

variable {infos infos' : List TopicInfo} {map : Std.ExtTreeMap ℤ (BaseConfig (P part) (I part))}

lemma Listed.later (hh : h.Orderly) (hl : Listed c h infos part map m) {m' : ℕ} (hle : m ≤ m') :
    Listed c h infos part map m' := by
  intro id config hconfig
  obtain ⟨info, hinfo, hk⟩ := hl id config hconfig
  exact ⟨info, hinfo, hk.later hh hle⟩

lemma Listed.append (hl : Listed c h infos part map m) : Listed c h (infos ++ infos') part map m := by
  intro id config hconfig
  obtain ⟨info, hinfo, hk⟩ := hl id config hconfig
  refine ⟨info, ?_, hk⟩
  rw [List.find?_append, hinfo]
  rfl

/-- A new topic: if its id is there, an earlier topic has brought it. -/
lemma Listed.insertIfNew (hl : Listed c h infos part map m) (hfull : Full infos map)
    {config : BaseConfig (P part) (I part)} (hk : Kept c h info part config m) :
    Listed c h (infos ++ [info]) part (map.insertIfNew info.topicId config) m := by
  intro id config' hconfig'
  rw [getElem?_insertIfNew_int] at hconfig'
  split at hconfig'
  · rename_i hid
    cases hold : map[id]? with
    | some old =>
      rw [hold, Option.some_or] at hconfig'
      cases hconfig'
      exact hl.append id _ hold
    | none =>
      rw [hold, Option.none_or] at hconfig'
      cases hconfig'
      refine ⟨info, ?_, hk⟩
      have hnone : infos.find? (fun info => info.topicId = id) = none := by
        rw [List.find?_eq_none]
        intro x hx hxid
        have hsome := hfull x hx
        rw [of_decide_eq_true hxid, hold] at hsome
        cases hsome
      rw [List.find?_append, hnone, Option.none_or]
      exact List.find?_cons_of_pos (decide_eq_true hid)
  · exact hl.append id _ hconfig'

lemma Full.insertIfNew (hfull : Full infos map) (config : BaseConfig (P part) (I part)) :
    Full (infos ++ [info]) (map.insertIfNew info.topicId config) := by
  intro x hx
  rw [getElem?_insertIfNew_int]
  split
  · cases map[x.topicId]? <;> rfl
  · rename_i hid
    rcases List.mem_append.mp hx with hx | hx
    · exact hfull x hx
    · rw [List.mem_singleton] at hx
      exact absurd (congrArg TopicInfo.topicId hx).symm hid

/-! ## Rebuild -/

variable {impl : GlobalConfigImpl P I}

lemma topicId2config_setMap (part' : TopicPart) :
    (impl.setMap part map).topicId2config part' =
      Function.update impl.topicId2config part map part' := rfl

/-- The maps hold what a list of topics says of each part. -/
def GlobalConfigImpl.Lists (c : ConfigClasses C P I) (h : History C) (infos : List TopicInfo)
    (impl : GlobalConfigImpl P I) (m : ℕ) : Prop :=
  ∀ part, Listed c h infos part (impl.topicId2config part) m

def GlobalConfigImpl.Fills (infos : List TopicInfo) (impl : GlobalConfigImpl P I) : Prop :=
  ∀ part, Full infos (impl.topicId2config part)

/-- **One topic**, when the list has come to some of its parts: each part is made once. -/
lemma addConfigs_listed (hh : h.Orderly) (info : TopicInfo) (impl : GlobalConfigImpl P I)
    {parts : List TopicPart} (hnodup : parts.Nodup)
    (hto : ∀ part ∈ parts, Listed c h infos part (impl.topicId2config part) m ∧
      Full infos (impl.topicId2config part))
    (hdone : ∀ part ∉ parts, Listed c h (infos ++ [info]) part (impl.topicId2config part) m ∧
      Full (infos ++ [info]) (impl.topicId2config part)) :
    (addConfigs c h info impl parts m).1.Lists c h (infos ++ [info]) (m + 4 * parts.length) ∧
      ((addConfigs c h info impl parts m).2 = true →
        (addConfigs c h info impl parts m).1.Fills (infos ++ [info])) := by
  induction parts generalizing impl m with
  | nil => exact ⟨fun part => (hdone part List.not_mem_nil).1,
      fun _ part => (hdone part List.not_mem_nil).2⟩
  | cons part parts ih =>
    obtain ⟨hnew, hnodup⟩ := List.nodup_cons.mp hnodup
    have hlater : m ≤ m + 4 := Nat.le_add_right m 4
    unfold addConfigs addConfig
    by_cases hok : (makeConfig c h info part m).2 = true
    · dsimp only
      rw [if_pos hok]
      have hlength : m + 4 * (part :: parts).length = m + 4 + 4 * parts.length := by
        rw [List.length_cons]
        omega
      rw [hlength]
      obtain ⟨hl, hfull⟩ := hto part List.mem_cons_self
      refine ih _ hnodup (fun part' hpart' => ?_) fun part' hpart' => ?_
      · have hne : part' ≠ part := fun heq => hnew (heq ▸ hpart')
        rw [topicId2config_setMap, Function.update_of_ne hne]
        obtain ⟨hl', hfull'⟩ := hto part' (List.mem_cons_of_mem _ hpart')
        exact ⟨hl'.later hh hlater, hfull'⟩
      · by_cases heq : part' = part
        · subst heq
          rw [topicId2config_setMap, Function.update_self]
          exact ⟨(hl.later hh hlater).insertIfNew hfull (kept_makeConfig hh), hfull.insertIfNew _⟩
        · rw [topicId2config_setMap, Function.update_of_ne heq]
          obtain ⟨hl', hfull'⟩ := hdone part' (by simp [heq, hpart'])
          exact ⟨hl'.later hh hlater, hfull'⟩
    · -- `Load` has thrown
      dsimp only
      rw [if_neg hok]
      refine ⟨fun part' => ?_, fun hthrown => absurd hthrown Bool.false_ne_true⟩
      by_cases hpart' : part' ∈ part :: parts
      · exact ((hto part' hpart').1.later hh (Nat.le_add_right m _)).append
      · exact (hdone part' hpart').1.later hh (Nat.le_add_right m _)

/-- **The loop of `Rebuild`**, when it has come to some of the topics. -/
lemma rebuildTopics_lists (hh : h.Orderly) (infos : List TopicInfo) (hl : impl.Lists c h infos m)
    (hfull : impl.Fills infos) :
    (rebuildTopics c h impl infos' m).1.Lists c h (infos ++ infos') (m + 20 * infos'.length) ∧
      ((rebuildTopics c h impl infos' m).2 = true →
        (rebuildTopics c h impl infos' m).1.Fills (infos ++ infos')) := by
  induction infos' generalizing infos impl m with
  | nil =>
    rw [List.append_nil]
    exact ⟨hl, fun _ => hfull⟩
  | cons info infos' ih =>
    have hparts : topicParts.Nodup := by decide
    obtain ⟨hl', hfull'⟩ := addConfigs_listed hh info
      { impl with
        topicName2topicId := impl.topicName2topicId.insertIfNew info.topicName info.topicId }
      hparts (fun part _ => ⟨hl part, hfull part⟩)
      (fun part hpart => absurd (by cases part <;> decide) hpart)
    unfold rebuildTopics rebuildTopic
    dsimp only
    rw [List.append_cons infos info infos']
    split
    · rename_i hok
      have hlength : m + 20 * (info :: infos').length = m + 20 + 20 * infos'.length := by
        rw [List.length_cons]
        omega
      rw [hlength]
      exact ih _ hl' (hfull' hok)
    · refine ⟨fun part => ?_, fun hthrown => absurd hthrown Bool.false_ne_true⟩
      refine ((hl' part).later hh ?_).append
      rw [List.length_cons]
      show m + 4 * 5 ≤ m + 20 * (infos'.length + 1)
      omega

theorem globalKind_lists (hh : h.Orderly) :
    ((globalKind c h).rebuild m infos).1.Lists c h infos (m + 20 * infos.length) ∧
      (((globalKind c h).rebuild m infos).2 = true →
        ((globalKind c h).rebuild m infos).1.Fills infos) := by
  refine rebuildTopics_lists hh [] (fun part id config hconfig => ?_) fun part info hinfo => ?_
  · rw [Std.ExtTreeMap.getElem?_empty] at hconfig
    cases hconfig
  · exact absurd hinfo List.not_mem_nil

lemma addConfigs_names (parts : List TopicPart) :
    (addConfigs c h info impl parts m).1.topicName2topicId = impl.topicName2topicId := by
  induction parts generalizing impl m with
  | nil => rfl
  | cons part parts ih =>
    unfold addConfigs addConfig
    dsimp only
    split
    · split
      · exact ih
      · rfl
    · rfl

theorem rebuildTopics_names (hok : (rebuildTopics c h impl infos m).2 = true) (name : String) :
    (rebuildTopics c h impl infos m).1.topicName2topicId[name]? =
      impl.topicName2topicId[name]?.or
        ((infos.find? fun info => info.topicName = name).map TopicInfo.topicId) := by
  induction infos generalizing impl m with
  | nil => exact Option.or_none.symm
  | cons info infos ih =>
    unfold rebuildTopics rebuildTopic at hok ⊢
    dsimp only at hok ⊢
    split at hok
    · rename_i hone
      rw [if_pos hone, ih hok, addConfigs_names, Std.ExtTreeMap.getElem?_insertIfNew]
      by_cases hname : info.topicName = name
      · subst hname
        rw [List.find?_cons_of_pos (by simp)]
        by_cases hmem : info.topicName ∈ impl.topicName2topicId
        · simp [hmem]
        · simp [hmem]
      · rw [List.find?_cons_of_neg (by simpa using hname),
          if_neg fun hnew => hname (Std.LawfulEqCmp.compare_eq_iff_eq.mp hnew.1)]
    · cases hok

lemma addConfigs_ok (hh : h.Orderly) {m₀ : ℕ} (hbuilds : Builds c h info m₀) (hle : m₀ ≤ m)
    (parts : List TopicPart) : (addConfigs c h info impl parts m).2 = true := by
  induction parts generalizing impl m with
  | nil => rfl
  | cons part parts ih =>
    unfold addConfigs addConfig
    dsimp only
    rw [if_pos (makeConfig_ok hh hbuilds hle)]
    exact ih (by omega)

/-- `Rebuild` does not throw when nothing is read that makes it. -/
lemma globalKind_ok (hh : h.Orderly) {m₀ : ℕ} (hbuilds : ∀ info ∈ infos, Builds c h info m₀)
    (hle : m₀ ≤ m) : ((globalKind c h).rebuild m infos).2 = true := by
  show (rebuildTopics c h {} infos m).2 = true
  generalize ({} : GlobalConfigImpl P I) = impl
  induction infos generalizing impl m with
  | nil => rfl
  | cons info infos ih =>
    unfold rebuildTopics rebuildTopic
    dsimp only
    rw [if_pos (addConfigs_ok hh (hbuilds info List.mem_cons_self) hle _)]
    exact ih (fun info' hinfo' => hbuilds info' (List.mem_cons_of_mem _ hinfo')) (by omega) _

end

end PhxQueue.Config
