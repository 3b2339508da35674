import PhxQueue.Comm
import PhxQueue.Lib.MappedCell
import PhxQueue.Lib.Project

/-!
# The files of the checkpoints

`store/checkpointstat.cpp`: for each paxos group a mapped file, `data_dir_path + "/cp/"` and the number of
the group, with the checkpoint.  `DumpCheckPoint` of the keep-sync thread and
`StoreSM::LoadCheckpointState` update it; both write it to disk before they return.

* `CheckPointStatItem`, `CheckPoints`, `checkPoints`   the files, who updates them, and what happens;
* `getCheckPoint`      the reader;
* `cellOf`, `cell_of_group`   a file is a cell;
* `flushed_kept`       **once it has been flushed a checkpoint is never undercut**.
-/

set_option linter.unusedSectionVars false

namespace PhxQueue.Store.CheckPointStat
open Comm Lib Lib.Machine

def magic : ℕ := 9970256

/-- `CheckPointStatItem_t`. -/
structure CheckPointStatItem where
  magic : ℕ := 0
  cp : ℕ := 0
deriving DecidableEq

def CheckPointStatItem.slot (item : CheckPointStatItem) : Slot ℕ :=
  ⟨item.magic = CheckPointStat.magic, item.cp⟩

/-- How far `UpdateCheckPointAndFlush` is; it holds the lock. -/
inductive Update
  /-- The magic is set. -/
  | magic (cp : ℕ)
  /-- The checkpoint is stored, and `msync` comes next. -/
  | stored (cp : ℕ)
deriving DecidableEq

/-- The files of the paxos groups in memory and on disk, the updates, and the checkpoint that
`DumpCheckPoint` has decided on. -/
structure CheckPoints where
  nstat : ℕ
  buf : ℕ → CheckPointStatItem := fun _ => {}
  disk : ℕ → CheckPointStatItem := fun _ => {}
  update : ℕ → Option Update := fun _ => none
  dumping : Option (ℕ × ℕ) := none

inductive CheckPointEvent
  /-- `DumpCheckPoint` compares with what `GetCheckPoint` returns. -/
  | dump (paxosGroupId cp : ℕ)
  /-- Its update begins. -/
  | beginDump
  /-- `LoadCheckpointState` begins an update. -/
  | load (paxosGroupId cp : ℕ)
  /-- An update stores the checkpoint. -/
  | store (paxosGroupId : ℕ)
  /-- `msync`, and the update returns. -/
  | flush (paxosGroupId : ℕ)
  /-- `msync` fails, and the update returns `RET_ERR_SYS`. -/
  | flushFails (paxosGroupId : ℕ)
  /-- The system writes a file to disk. -/
  | writeBack (paxosGroupId : ℕ)
  /-- The process dies, and is started again. -/
  | kill (nstat : ℕ)
  /-- So does the system. -/
  | powerLoss (nstat : ℕ)

namespace CheckPoints

variable (s : CheckPoints)

/-- `GetCheckPoint` of `GetCheckPointStat`, when the lock is free; there is none for a group that is
not one of the store. -/
def getCheckPoint (paxosGroupId : ℕ) : Option ℕ :=
  if paxosGroupId ≥ s.nstat then none else
  let item := s.buf paxosGroupId
  some (if item.magic = CheckPointStat.magic then item.cp else uint64Max)

/-- `UpdateCheckPointAndFlush` takes the lock and sets the magic. -/
def beginUpdate (paxosGroupId cp : ℕ) : CheckPoints :=
  { s with
    buf := Function.update s.buf paxosGroupId
      { s.buf paxosGroupId with magic := CheckPointStat.magic }
    update := Function.update s.update paxosGroupId (some (.magic cp)) }

def step : CheckPointEvent → CheckPoints
  | .dump g cp =>
    if s.dumping ≠ none ∨ cp = uint64Max ∨ s.update g ≠ none then s else
    match s.getCheckPoint g with
    | none => s
    | some tmpCp =>
      if uint64Max ≠ tmpCp ∧ tmpCp > cp then s else { s with dumping := some (g, cp) }
  | .beginDump =>
    match s.dumping with
    | none => s
    | some (g, cp) =>
      if s.update g = none then { s.beginUpdate g cp with dumping := none } else s
  | .load g cp =>
    if cp = uint64Max ∨ g ≥ s.nstat then s else
    if s.update g = none then s.beginUpdate g cp else s
  | .store g =>
    match s.update g with
    | some (.magic cp) =>
      { s with
        buf := Function.update s.buf g { s.buf g with cp := cp }
        update := Function.update s.update g (some (.stored cp)) }
    | _ => s
  | .flush g =>
    match s.update g with
    | some (.stored _) =>
      { s with
        disk := Function.update s.disk g (s.buf g)
        update := Function.update s.update g none }
    | _ => s
  | .flushFails g =>
    match s.update g with
    | some (.stored _) => { s with update := Function.update s.update g none }
    | _ => s
  | .writeBack g => { s with disk := Function.update s.disk g (s.buf g) }
  | .kill nstat => { nstat, buf := s.buf, disk := s.disk }
  | .powerLoss nstat => { nstat, buf := s.disk, disk := s.disk }

end CheckPoints

/-- The machine of a store with so many paxos groups. -/
def checkPoints (nstat : ℕ) : Machine CheckPoints CheckPointEvent where
  init := { nstat }
  step := CheckPoints.step

/-! ## Cells -/

def Update.pending : Option Update → Option ℕ
  | some (.magic cp) => some cp
  | _ => none

def cellOf (g : ℕ) (s : CheckPoints) : MappedCell ℕ where
  mem := (s.buf g).slot
  disk := (s.disk g).slot
  pending := Update.pending (s.update g)

def cellEvent (g : ℕ) (s : CheckPoints) : CheckPointEvent → Option (CellEvent ℕ)
  | .dump _ _ => none
  | .beginDump =>
    match s.dumping with
    | none => none
    | some (g', cp) => if g' = g ∧ s.update g' = none then some (.begin cp) else none
  | .load g' cp =>
    if cp = uint64Max ∨ g' ≥ s.nstat then none else
    if g' = g ∧ s.update g' = none then some (.begin cp) else none
  | .store g' => if g' = g ∧ (Update.pending (s.update g')).isSome then some .finish else none
  | .flush g' =>
    match s.update g' with
    | some (.stored _) => if g' = g then some .writeBack else none
    | _ => none
  | .flushFails _ => none
  | .writeBack g' => if g' = g then some .writeBack else none
  | .kill _ => some .kill
  | .powerLoss _ => some .powerLoss

section
variable {g g' : ℕ} {s : CheckPoints}

lemma cellOf_beginUpdate (hfree : s.update g' = none) (cp : ℕ) :
    cellOf g (s.beginUpdate g' cp) =
      cell.stepOption (cellOf g s) (if g' = g then some (.begin cp) else none) := by
  by_cases heq : g' = g
  · subst heq
    rw [if_pos rfl, stepOption_some]
    show _ = (cellOf g' s).step (.begin cp)
    simp [cellOf, CheckPoints.beginUpdate, MappedCell.step, hfree, Update.pending,
      CheckPointStatItem.slot]
    rfl
  · rw [if_neg heq, stepOption_none]
    simp [cellOf, CheckPoints.beginUpdate, Ne.symm heq]

theorem cell_of_group (nstat g : ℕ) :
    Projects (checkPoints nstat) cell (cellOf g) (cellEvent g) := by
  intro s e
  show cellOf g (s.step e) = _
  cases e with
  | dump g' cp =>
    unfold CheckPoints.step
    dsimp only
    split_ifs
    · rfl
    · cases s.getCheckPoint g' with
      | none => rfl
      | some tmpCp =>
        dsimp only
        split_ifs <;> rfl
  | beginDump =>
    unfold CheckPoints.step cellEvent
    cases s.dumping with
    | none => rfl
    | some d =>
      obtain ⟨g', cp⟩ := d
      dsimp only
      by_cases hfree : s.update g' = none
      · rw [if_pos hfree]
        have hcell := cellOf_beginUpdate (g := g) hfree cp
        simp only [hfree, and_true]
        exact hcell
      · rw [if_neg hfree, if_neg fun h => hfree h.2]
        rfl
  | load g' cp =>
    unfold CheckPoints.step cellEvent
    dsimp only
    split_ifs with hbad hfree h h
    · rfl
    · rw [cellOf_beginUpdate hfree, if_pos h.1]
    · rw [cellOf_beginUpdate hfree, if_neg fun heq => h ⟨heq, hfree⟩]
    · exact absurd h.2 hfree
    · rfl
  | store g' =>
    unfold CheckPoints.step cellEvent
    dsimp only
    by_cases heq : g' = g
    · subst heq
      rcases hup : s.update g' with _ | (cp | cp)
      · simp [Update.pending]
      · simp [cellOf, cell, MappedCell.step, Update.pending, CheckPointStatItem.slot, hup]
      · simp [Update.pending]
    · rw [if_neg fun h => heq h.1, stepOption_none]
      rcases s.update g' with _ | (cp | cp)
      · rfl
      · simp [cellOf, Ne.symm heq]
      · rfl
  | flush g' =>
    unfold CheckPoints.step cellEvent
    dsimp only
    rcases hup : s.update g' with _ | (cp | cp)
    · rfl
    · rfl
    · by_cases heq : g' = g
      · subst heq
        simp [cellOf, cell, MappedCell.step, Update.pending, hup]
      · simp [cellOf, heq, Ne.symm heq]
  | flushFails g' =>
    unfold CheckPoints.step cellEvent
    dsimp only
    rcases hup : s.update g' with _ | (cp | cp)
    · rfl
    · rfl
    · -- the file stays, and nothing is left to be stored in it
      by_cases heq : g' = g
      · subst heq
        simp [cellOf, Update.pending, hup]
      · simp [cellOf, Ne.symm heq]
  | writeBack g' =>
    unfold CheckPoints.step cellEvent
    dsimp only
    by_cases heq : g' = g
    · subst heq
      simp [cellOf, cell, MappedCell.step]
    · simp [cellOf, heq, Ne.symm heq]
  | kill nstat => rfl
  | powerLoss nstat => rfl

end

/-! ## Updates -/

/-- What an update that is under way has done to its file; no update is about -1. -/
structure Inv (s : CheckPoints) : Prop where
  magic : ∀ g cp, s.update g = some (.magic cp) → (s.buf g).magic = CheckPointStat.magic ∧
    cp ≠ uint64Max
  stored : ∀ g cp, s.update g = some (.stored cp) → s.buf g = ⟨CheckPointStat.magic, cp⟩ ∧
    cp ≠ uint64Max
  dumping : ∀ g cp, s.dumping = some (g, cp) → cp ≠ uint64Max

section
variable {nstat g cp : ℕ} {s : CheckPoints} {e : CheckPointEvent}

lemma Inv.init : Inv (checkPoints nstat).init :=
  ⟨fun _ _ h => (by cases h), fun _ _ h => (by cases h), fun _ _ h => (by cases h)⟩

lemma Inv.beginUpdate (h : Inv s) (hcp : cp ≠ uint64Max) : Inv (s.beginUpdate g cp) := by
  refine ⟨fun g' cp' hup => ?_, fun g' cp' hup => ?_, h.dumping⟩
  · unfold CheckPoints.beginUpdate at hup ⊢
    dsimp only at hup ⊢
    by_cases heq : g' = g
    · subst heq
      rw [Function.update_self] at hup ⊢
      cases hup
      exact ⟨rfl, hcp⟩
    · rw [Function.update_of_ne heq] at hup ⊢
      exact h.magic g' cp' hup
  · unfold CheckPoints.beginUpdate at hup ⊢
    dsimp only at hup ⊢
    by_cases heq : g' = g
    · subst heq
      rw [Function.update_self] at hup
      cases hup
    · rw [Function.update_of_ne heq] at hup ⊢
      exact h.stored g' cp' hup

lemma Inv.store (h : Inv s) (hup : s.update g = some (.magic cp)) :
    Inv { s with
      buf := Function.update s.buf g { s.buf g with cp := cp }
      update := Function.update s.update g (some (.stored cp)) } := by
  obtain ⟨hmagic, hcp⟩ := h.magic g cp hup
  refine ⟨fun g' cp' hup' => ?_, fun g' cp' hup' => ?_, h.dumping⟩
  · dsimp only at hup' ⊢
    by_cases heq : g' = g
    · subst heq
      rw [Function.update_self] at hup'
      cases hup'
    · rw [Function.update_of_ne heq] at hup' ⊢
      exact h.magic g' cp' hup'
  · dsimp only at hup' ⊢
    by_cases heq : g' = g
    · subst heq
      rw [Function.update_self] at hup' ⊢
      cases hup'
      rw [hmagic]
      exact ⟨rfl, hcp⟩
    · rw [Function.update_of_ne heq] at hup' ⊢
      exact h.stored g' cp' hup'

lemma Inv.release (h : Inv s) (disk : ℕ → CheckPointStatItem) :
    Inv { s with disk := disk, update := Function.update s.update g none } := by
  refine ⟨fun g' cp' hup => h.magic g' cp' ?_, fun g' cp' hup => h.stored g' cp' ?_, h.dumping⟩
  all_goals
    dsimp only at hup
    by_cases heq : g' = g
    · subst heq
      rw [Function.update_self] at hup
      cases hup
    · rw [Function.update_of_ne heq] at hup
      exact hup

lemma Inv.step (h : Inv s) (e : CheckPointEvent) : Inv (s.step e) := by
  have hidle (nstat : ℕ) (buf disk : ℕ → CheckPointStatItem) :
      Inv { nstat, buf, disk } :=
    ⟨fun _ _ h => (by cases h), fun _ _ h => (by cases h), fun _ _ h => (by cases h)⟩
  cases e with
  | dump g cp =>
    unfold CheckPoints.step
    dsimp only
    split_ifs with hbad
    · exact h
    · cases s.getCheckPoint g with
      | none => exact h
      | some tmpCp =>
        dsimp only
        split_ifs
        · exact h
        · refine ⟨h.magic, h.stored, fun g' cp' hd => ?_⟩
          cases hd
          exact fun hmax => hbad (.inr (.inl hmax))
  | beginDump =>
    unfold CheckPoints.step
    dsimp only
    rcases hd : s.dumping with _ | ⟨g, cp⟩
    · exact h
    · dsimp only
      split_ifs
      · have hup := h.beginUpdate (g := g) (h.dumping g cp hd)
        exact ⟨hup.magic, hup.stored, fun _ _ h => (by cases h)⟩
      · exact h
  | load g cp =>
    unfold CheckPoints.step
    dsimp only
    split_ifs with hbad
    · exact h
    · exact h.beginUpdate fun hmax => hbad (.inl hmax)
    · exact h
  | store g =>
    unfold CheckPoints.step
    dsimp only
    split
    · rename_i cp hup
      exact h.store hup
    · exact h
  | flush g =>
    unfold CheckPoints.step
    dsimp only
    split
    · exact h.release _
    · exact h
  | flushFails g =>
    unfold CheckPoints.step
    dsimp only
    split
    · exact h.release s.disk
    · exact h
  | writeBack g => exact ⟨h.magic, h.stored, h.dumping⟩
  | kill nstat => exact hidle _ _ _
  | powerLoss nstat => exact hidle _ _ _

/-! ## Flushed checkpoints -/

/-- The checkpoints that are not below `cp`. -/
def NotBelow (cp : ℕ) : Set ℕ := {v | cp ≤ v ∧ v ≠ uint64Max}

/-- The file of a group has such a checkpoint in memory and on disk, and `DumpCheckPoint` has decided on
no other. -/
structure Holds (g cp : ℕ) (s : CheckPoints) : Prop where
  cell : (cellOf g s).Durable (NotBelow cp)
  dumping : ∀ v, s.dumping = some (g, v) → v ∈ NotBelow cp

/-- A checkpoint that is loaded for the group is not below `cp`. -/
def LoadsNotBelow (g cp : ℕ) : CheckPointEvent → Prop
  | .load g' v => g' = g → cp ≤ v
  | _ => True

/-- What `DumpCheckPoint` decides on is not below what it has read. -/
lemma Holds.dumping_step (h : Holds g cp s) {v : ℕ} (hv : (s.step e).dumping = some (g, v)) :
    v ∈ NotBelow cp := by
  cases e with
  | dump g' cp' =>
    unfold CheckPoints.step at hv
    dsimp only at hv
    split_ifs at hv with hbad
    · exact h.dumping v hv
    · unfold CheckPoints.getCheckPoint at hv
      split_ifs at hv with hgroup
      · exact h.dumping v hv
      · dsimp only at hv
        split_ifs at hv with hmagic hless
        · exact h.dumping v hv
        · cases hv
          obtain ⟨hle, hmax⟩ := h.cell.val
          have hle : cp ≤ (s.buf g).cp := hle
          have hmax : (s.buf g).cp ≠ uint64Max := hmax
          refine ⟨?_, fun hv => hbad (.inr (.inl hv))⟩
          by_contra hlt
          exact hless ⟨hmax.symm, by omega⟩
        · exact h.dumping v hv
        · cases hv
          exact absurd (of_decide_eq_true h.cell.mark) hmagic
  | beginDump =>
    unfold CheckPoints.step at hv
    dsimp only at hv
    rcases hd : s.dumping with _ | ⟨g', cp'⟩
    · rw [hd] at hv
      exact h.dumping v hv
    · rw [hd] at hv
      dsimp only at hv
      split_ifs at hv
      exact h.dumping v hv
  | load g' cp' =>
    unfold CheckPoints.step at hv
    dsimp only at hv
    split_ifs at hv
    all_goals exact h.dumping v hv
  | store g' =>
    unfold CheckPoints.step at hv
    dsimp only at hv
    split at hv <;> exact h.dumping v hv
  | flush g' | flushFails g' =>
    unfold CheckPoints.step at hv
    dsimp only at hv
    split at hv <;> exact h.dumping v hv
  | writeBack g' => exact h.dumping v hv
  | kill nstat => cases hv
  | powerLoss nstat => cases hv

/-- A file is not cleared, and is written by `DumpCheckPoint` and by `LoadCheckpointState`. -/
lemma cellEvent_eq_some {l : CellEvent ℕ} (h : cellEvent g s e = some l) :
    MappedCell.Keeps l ∧ ∀ v, l = .begin v →
      s.dumping = some (g, v) ∨ (e = .load g v ∧ v ≠ uint64Max) := by
  cases e with
  | dump g' v => cases h
  | beginDump =>
    unfold cellEvent at h
    rcases hd : s.dumping with _ | ⟨g', v⟩
    · rw [hd] at h
      cases h
    · rw [hd] at h
      dsimp only at h
      split_ifs at h with hfree
      cases h
      obtain ⟨rfl, _⟩ := hfree
      refine ⟨trivial, fun w hw => ?_⟩
      cases hw
      exact .inl rfl
  | load g' v =>
    simp only [cellEvent] at h
    split_ifs at h with hbad hfree
    cases h
    obtain ⟨rfl, _⟩ := hfree
    refine ⟨trivial, fun w hw => ?_⟩
    cases hw
    exact .inr ⟨rfl, fun hmax => hbad (.inl hmax)⟩
  | store g' =>
    simp only [cellEvent] at h
    split_ifs at h
    cases h
    exact ⟨trivial, fun w hw => by cases hw⟩
  | flush g' =>
    simp only [cellEvent] at h
    split at h
    · split_ifs at h
      cases h
      exact ⟨trivial, fun w hw => by cases hw⟩
    · cases h
  | flushFails g' => cases h
  | writeBack g' =>
    simp only [cellEvent] at h
    split_ifs at h
    cases h
    exact ⟨trivial, fun w hw => by cases hw⟩
  | kill nstat =>
    cases h
    exact ⟨trivial, fun w hw => by cases hw⟩
  | powerLoss nstat =>
    cases h
    exact ⟨trivial, fun w hw => by cases hw⟩

lemma Holds.step (h : Holds g cp s) (he : LoadsNotBelow g cp e) : Holds g cp (s.step e) := by
  refine ⟨?_, fun v hv => h.dumping_step hv⟩
  have hcell : cellOf g (s.step e) = Lib.cell.stepOption (cellOf g s) (cellEvent g s e) :=
    cell_of_group s.nstat g s e
  rw [hcell]
  cases hl : cellEvent g s e with
  | none => exact h.cell
  | some l =>
    obtain ⟨hkeeps, hbegin⟩ := cellEvent_eq_some hl
    refine h.cell.step (fun v hv => ?_) hkeeps
    rcases hbegin v hv with hd | ⟨rfl, hmax⟩
    · exact h.dumping v hd
    · exact ⟨he rfl, hmax⟩

/-- An update that is at its `msync` makes its checkpoint durable. -/
lemma holds_flush (hs : Inv s) (hup : s.update g = some (.stored cp))
    (hdump : ∀ v, s.dumping = some (g, v) → cp ≤ v) : Holds g cp (s.step (.flush g)) := by
  obtain ⟨hbuf, hcp⟩ := hs.stored g cp hup
  have hstep : s.step (.flush g) = { s with
      disk := Function.update s.disk g (s.buf g)
      update := Function.update s.update g none } := by
    simp only [CheckPoints.step, hup]
  rw [hstep]
  have hmem : cp ∈ NotBelow cp := ⟨le_rfl, hcp⟩
  refine ⟨⟨⟨?_, ?_, ?_⟩, ?_, ?_⟩, fun v hv => ⟨hdump v hv, hs.dumping g v hv⟩⟩
  · show ((s.buf g).slot).mark = true
    rw [hbuf]
    rfl
  · show ((s.buf g).slot).val ∈ NotBelow cp
    rw [hbuf]
    exact hmem
  · intro v hv
    simp [cellOf, Update.pending] at hv
  · show ((Function.update s.disk g (s.buf g) g).slot).mark = true
    rw [Function.update_self, hbuf]
    rfl
  · show ((Function.update s.disk g (s.buf g) g).slot).val ∈ NotBelow cp
    rw [Function.update_self, hbuf]
    exact hmem

end

/-- **Once it has been flushed a checkpoint is never undercut.**  Let an update of a group return, with
nothing below its checkpoint decided on by `DumpCheckPoint` at that time, and nothing below it loaded
later.  Then in every run, with kills and power losses at any time, `GetCheckPoint` of the group
returns this checkpoint or a greater one. -/
theorem flushed_kept (nstat g cp : ℕ) (before after : List CheckPointEvent)
    (hup : ((checkPoints nstat).exec (checkPoints nstat).init before).update g = some (.stored cp))
    (hdump : ∀ v, ((checkPoints nstat).exec (checkPoints nstat).init before).dumping = some (g, v) →
      cp ≤ v)
    (hloads : ∀ v, .load g v ∈ after → cp ≤ v) (v : ℕ)
    (hv : ((checkPoints nstat).exec (checkPoints nstat).init
      (before ++ .flush g :: after)).getCheckPoint g = some v) :
    cp ≤ v ∧ v ≠ uint64Max := by
  have hinv (s : CheckPoints) (e : CheckPointEvent) (h : Inv s) :
      Inv ((checkPoints nstat).step s e) := h.step e
  have hinit : Inv (checkPoints nstat).init := Inv.init
  have hstart := holds_flush (Always.of_step hinv hinit before).last hup hdump
  have hstep (s : CheckPoints) (e : CheckPointEvent) (h : Holds g cp s)
      (he : LoadsNotBelow g cp e ∧ True) : Holds g cp ((checkPoints nstat).step s e) := h.step he.1
  rw [exec_append, exec_cons] at hv
  have hholds := (Always.of_inv hstep hstart
    ((along_of_forall (fun _ _ => trivial) _ after).and_labels fun e he => by
      cases e with
      | load g' w =>
        rintro rfl
        exact hloads w he
      | dump _ _ | beginDump | store _ | flush _ | flushFails _ | writeBack _ | kill _ | powerLoss _ => trivial)).last
  unfold CheckPoints.getCheckPoint at hv
  split_ifs at hv with hgroup
  · dsimp only at hv
    split_ifs at hv with hmagic
    · cases hv
      exact hholds.cell.val
    · exact absurd (of_decide_eq_true hholds.cell.mark) hmagic

/-- The checkpoint 5 is flushed, 7 is not, and the system goes down before 8 is. -/
def dumped : List CheckPointEvent := [.dump 0 5, .beginDump, .store 0]

def lost : List CheckPointEvent :=
  [.dump 0 7, .beginDump, .store 0, .flushFails 0, .dump 0 8, .beginDump, .store 0, .powerLoss 1]

theorem dumped_kept : 5 ≤ 5 ∧ 5 ≠ uint64Max :=
  flushed_kept 1 0 5 dumped lost rfl (fun v hv => by cases hv) (fun v hv => by simp [lost] at hv) 5 rfl

end PhxQueue.Store.CheckPointStat
