import PhxQueue.Lib.Run

/-!
# Cells of a mapped file

A value in a file that is mapped into memory, under a mark that says that there is one.  A write sets
the mark, and then the value.  The process may be killed between the two; the system may go down,
and leaves what has last been written back.  A file that grows is filled with zeros.

* `Slot`, `MappedCell`, `cell`   the two copies of a cell and what may happen to it;
* `step_cases`                   what an event does;
* `cell_came`                    **no value is made up**: what is read is zero, or that of a write;
* `cell_kept`                    **without a power loss a value is not lost**;
* `Durable.step`                 **what has been flushed survives a power loss as well**.
-/

set_option linter.unusedSectionVars false

namespace PhxQueue.Lib

structure Slot (α : Type*) where
  mark : Bool
  val : α
deriving DecidableEq

namespace Slot
variable {α : Type*}

def read (s : Slot α) : Option α := if s.mark then some s.val else none

def fresh [Zero α] : Slot α := ⟨false, 0⟩

lemma read_eq_some {s : Slot α} {v : α} : s.read = some v ↔ s.mark = true ∧ s.val = v := by
  unfold read
  cases s.mark <;> simp

end Slot

/-- A cell in memory and on disk, with the value of a write that has set the mark. -/
structure MappedCell (α : Type*) where
  mem : Slot α
  disk : Slot α
  pending : Option α := none
deriving DecidableEq

inductive CellEvent (α : Type*)
  /-- A write sets the mark. -/
  | begin (v : α)
  /-- It sets the value. -/
  | finish
  /-- The cell is filled with zeros. -/
  | clear
  /-- The file no longer reaches to the cell, or is extended to it. -/
  | truncate
  /-- The cell is written back, by a flush or by the system. -/
  | writeBack
  /-- The process dies. -/
  | kill
  /-- The system goes down. -/
  | powerLoss

namespace MappedCell

section
variable {α : Type*} [Zero α]

def fresh : MappedCell α := ⟨Slot.fresh, Slot.fresh, none⟩

/-- Writing and clearing wait for a write that has begun. -/
def step (c : MappedCell α) : CellEvent α → MappedCell α
  | .begin v =>
    match c.pending with
    | none => { c with mem := { c.mem with mark := true }, pending := some v }
    | some _ => c
  | .finish =>
    match c.pending with
    | none => c
    | some v => { c with mem := { c.mem with val := v }, pending := none }
  | .clear =>
    match c.pending with
    | none => { c with mem := Slot.fresh }
    | some _ => c
  | .truncate => fresh
  | .writeBack => { c with disk := c.mem }
  | .kill => { c with pending := none }
  | .powerLoss => { c with mem := c.disk, pending := none }

/-- **What an event does.** -/
lemma step_cases (c : MappedCell α) (e : CellEvent α) :
    c.step e = c ∨
    (∃ v, e = .begin v ∧
      c.step e = { c with mem := { c.mem with mark := true }, pending := some v }) ∨
    (∃ v, e = .finish ∧ c.pending = some v ∧
      c.step e = { c with mem := { c.mem with val := v }, pending := none }) ∨
    (e = .clear ∧ c.step e = { c with mem := Slot.fresh }) ∨
    (e = .truncate ∧ c.step e = fresh) ∨
    c.step e = { c with disk := c.mem } ∨
    c.step e = { c with pending := none } ∨
    (e = .powerLoss ∧ c.step e = { c with mem := c.disk, pending := none }) := by
  cases e with
  | begin v => cases hp : c.pending <;> simp [step, hp]
  | finish => cases hp : c.pending <;> simp [step, hp]
  | clear => cases hp : c.pending <;> simp [step, hp]
  | truncate => simp [step]
  | writeBack => simp [step]
  | kill => simp [step]
  | powerLoss => simp [step]

end

end MappedCell

def cell {α : Type*} [Zero α] : Machine (MappedCell α) (CellEvent α) where
  init := MappedCell.fresh
  step := MappedCell.step

namespace MappedCell

section
variable {α : Type*} [Zero α] {vs : Set α} {c : MappedCell α} {e : CellEvent α}
  {es : List (CellEvent α)}

/-! ## Where values come from -/

/-- A value that may be found in a cell. -/
def Came (vs : Set α) (v : α) : Prop := v = 0 ∨ v ∈ vs

structure From (vs : Set α) (c : MappedCell α) : Prop where
  mem : Came vs c.mem.val
  disk : Came vs c.disk.val
  pending : ∀ v, c.pending = some v → v ∈ vs

lemma from_fresh (vs : Set α) : (fresh : MappedCell α).From vs :=
  ⟨.inl rfl, .inl rfl, fun v hv => by cases hv⟩

lemma From.step (h : c.From vs) (he : ∀ v, e = .begin v → v ∈ vs) : (c.step e).From vs := by
  have hnone : ∀ v, (none : Option α) = some v → v ∈ vs := fun v hv => by cases hv
  rcases c.step_cases e with heq | ⟨v, hb, heq⟩ | ⟨v, _, hp, heq⟩ | ⟨_, heq⟩ | ⟨_, heq⟩ | heq | heq |
    ⟨_, heq⟩
  · rw [heq]
    exact h
  · rw [heq]
    refine ⟨h.mem, h.disk, fun w hw => ?_⟩
    cases hw
    exact he v hb
  · rw [heq]
    exact ⟨.inr (h.pending v hp), h.disk, hnone⟩
  · rw [heq]
    exact ⟨.inl rfl, h.disk, h.pending⟩
  · rw [heq]
    exact from_fresh vs
  · rw [heq]
    exact ⟨h.mem, h.mem, h.pending⟩
  · rw [heq]
    exact ⟨h.mem, h.disk, hnone⟩
  · rw [heq]
    exact ⟨h.disk, h.disk, hnone⟩

/-- **No value is made up**: what is read is zero, or the value of a write. -/
theorem cell_came (hc : c.From vs) (hes : ∀ v, .begin v ∈ es → v ∈ vs) {v : α}
    (hv : (cell.exec c es).mem.read = some v) : Came vs v := by
  have hrun : (cell.exec c es).From vs := by
    induction es generalizing c with
    | nil => exact hc
    | cons e es ih =>
      refine ih (hc.step fun w hw => hes w ?_) (fun w hw => hes w (List.mem_cons_of_mem _ hw)) hv
      rw [hw]
      exact List.mem_cons_self
  rw [← (Slot.read_eq_some.mp hv).2]
  exact hrun.mem

/-! ## What is kept -/

/-- The cell has a value, one of `vs`. -/
structure Holding (vs : Set α) (c : MappedCell α) : Prop where
  mark : c.mem.mark = true
  val : c.mem.val ∈ vs
  pending : ∀ v, c.pending = some v → v ∈ vs

structure Durable (vs : Set α) (c : MappedCell α) : Prop extends Holding vs c where
  diskMark : c.disk.mark = true
  diskVal : c.disk.val ∈ vs

/-- The events that leave a value where there is one; a power loss does for what has been flushed. -/
def Keeps : CellEvent α → Prop
  | .clear | .truncate => False
  | _ => True

lemma Holding.step (h : c.Holding vs) (he : ∀ v, e = .begin v → v ∈ vs) (hk : Keeps e)
    (hpower : e ≠ .powerLoss) : (c.step e).Holding vs := by
  rcases c.step_cases e with heq | ⟨v, hb, heq⟩ | ⟨v, _, hp, heq⟩ | ⟨hclear, _⟩ | ⟨htrunc, _⟩ | heq |
    heq | ⟨hloss, _⟩
  · rw [heq]
    exact h
  · rw [heq]
    refine ⟨rfl, h.val, fun w hw => ?_⟩
    cases hw
    exact he v hb
  · rw [heq]
    exact ⟨h.mark, h.pending v hp, fun w hw => by cases hw⟩
  · rw [hclear] at hk
    exact hk.elim
  · rw [htrunc] at hk
    exact hk.elim
  · rw [heq]
    exact ⟨h.mark, h.val, h.pending⟩
  · rw [heq]
    exact ⟨h.mark, h.val, fun w hw => by cases hw⟩
  · exact absurd hloss hpower

lemma disk_step (c : MappedCell α) (he : e ≠ .truncate) :
    (c.step e).disk = c.disk ∨ (c.step e).disk = c.mem := by
  rcases c.step_cases e with heq | ⟨v, _, heq⟩ | ⟨v, _, _, heq⟩ | ⟨_, heq⟩ | ⟨htrunc, _⟩ | heq | heq |
    ⟨_, heq⟩
  · exact .inl (by rw [heq])
  · exact .inl (by rw [heq])
  · exact .inl (by rw [heq])
  · exact .inl (by rw [heq])
  · exact absurd htrunc he
  · exact .inr (by rw [heq])
  · exact .inl (by rw [heq])
  · exact .inl (by rw [heq])

/-- **What has been flushed survives a power loss as well.** -/
theorem Durable.step (h : c.Durable vs) (he : ∀ v, e = .begin v → v ∈ vs) (hk : Keeps e) :
    (c.step e).Durable vs := by
  by_cases hpower : e = .powerLoss
  · rw [hpower]
    exact ⟨⟨h.diskMark, h.diskVal, fun w hw => by cases hw⟩, h.diskMark, h.diskVal⟩
  · have htrunc : e ≠ .truncate := by
      intro htrunc
      rw [htrunc] at hk
      exact hk
    have hhold := h.toHolding.step he hk hpower
    rcases c.disk_step htrunc with hdisk | hdisk
    · exact ⟨hhold, by rw [hdisk, h.diskMark], by rw [hdisk]; exact h.diskVal⟩
    · exact ⟨hhold, by rw [hdisk, h.mark], by rw [hdisk]; exact h.val⟩

/-- A cell whose reader finds a value while nothing is being written. -/
lemma holding_of_read {v : α} (hv : c.mem.read = some v) (hp : c.pending = none)
    (hmem : v ∈ vs) : c.Holding vs := by
  obtain ⟨hmark, rfl⟩ := Slot.read_eq_some.mp hv
  exact ⟨hmark, hmem, fun w hw => by rw [hp] at hw; cases hw⟩

lemma Holding.read (h : c.Holding vs) : ∃ v ∈ vs, c.mem.read = some v :=
  ⟨c.mem.val, h.val, Slot.read_eq_some.mpr ⟨h.mark, rfl⟩⟩

/-- **Without a power loss a value is not lost**: it is read, or that of a later write. -/
theorem cell_kept {v : α} (hv : c.mem.read = some v) (hp : c.pending = none) (hmem : v ∈ vs)
    (hes : ∀ w, .begin w ∈ es → w ∈ vs) (hkeep : ∀ e ∈ es, Keeps e ∧ e ≠ .powerLoss) :
    ∃ w ∈ vs, (cell.exec c es).mem.read = some w := by
  have hstart : c.Holding vs := holding_of_read hv hp hmem
  clear hv hp
  induction es generalizing c with
  | nil => exact hstart.read
  | cons e es ih =>
    have he := hkeep e List.mem_cons_self
    have hbegin : ∀ w, e = .begin w → w ∈ vs := by
      rintro w rfl
      exact hes w List.mem_cons_self
    exact ih (fun w hw => hes w (List.mem_cons_of_mem _ hw))
      (fun e' he' => hkeep e' (List.mem_cons_of_mem _ he')) (hstart.step hbegin he.1 he.2)

end

end MappedCell

end PhxQueue.Lib
