import Mathlib.Tactic

/-!
# A key-value store as its list of writes

The store of an embedded log-structured database, seen as the list of the writes it accepted,
newest first.  A write carries a value or a deletion; a crash keeps a prefix of the history
that reaches at least to the last write made durable.

* `WriteLog.get`         the last write of a key decides;
* `WriteLog.contents`    the same as an ordered map, for iteration in key order;
* `WriteLog.crash`       the histories a crash can leave;
* `WriteLog.All`         a property of every write, kept by appending and by a crash;
* `WriteLog.Surviving`   a property of every history a crash can leave.
-/

set_option linter.unusedSectionVars false

namespace PhxQueue.Lib

/-- The writes accepted so far, newest first, and how many of the oldest are durable. -/
structure WriteLog (κ ν : Type*) where
  writes : List (κ × Option ν) := []
  durable : Nat := 0
deriving DecidableEq

namespace WriteLog

section
variable {κ ν : Type*} [DecidableEq κ]

def size (w : WriteLog κ ν) : Nat := w.writes.length

def lookup (k : κ) : List (κ × Option ν) → Option ν
  | [] => none
  | (k', v) :: ws => if k' = k then v else lookup k ws

def get (w : WriteLog κ ν) (k : κ) : Option ν := lookup k w.writes

/-- Append a write; a synchronous write makes the whole history durable. -/
def write (w : WriteLog κ ν) (k : κ) (v : Option ν) (sync : Bool) : WriteLog κ ν :=
  ⟨(k, v) :: w.writes, if sync then w.size + 1 else w.durable⟩

/-- The history after a crash that happens to keep `keep` writes beyond what is durable. -/
def crash (w : WriteLog κ ν) (keep : Nat) : WriteLog κ ν :=
  ⟨w.writes.drop (w.size - max w.durable keep), min w.size (max w.durable keep)⟩

@[simp] lemma lookup_nil (k : κ) : lookup k ([] : List (κ × Option ν)) = none := rfl

lemma lookup_cons (k k' : κ) (v : Option ν) (ws : List (κ × Option ν)) :
    lookup k ((k', v) :: ws) = if k' = k then v else lookup k ws := rfl

@[simp] lemma get_empty (k : κ) : (({} : WriteLog κ ν)).get k = none := rfl

lemma get_write (w : WriteLog κ ν) (k k' : κ) (v : Option ν) (sync : Bool) :
    (w.write k v sync).get k' = if k = k' then v else w.get k' := rfl

@[simp] lemma get_write_self (w : WriteLog κ ν) (k : κ) (v : Option ν) (sync : Bool) :
    (w.write k v sync).get k = v := by
  rw [get_write, if_pos rfl]

lemma get_write_ne {w : WriteLog κ ν} {k k' : κ} {v : Option ν} {sync : Bool} (h : k ≠ k') :
    (w.write k v sync).get k' = w.get k' := by
  rw [get_write, if_neg h]

@[simp] lemma writes_write (w : WriteLog κ ν) (k : κ) (v : Option ν) (sync : Bool) :
    (w.write k v sync).writes = (k, v) :: w.writes := rfl

@[simp] lemma size_write (w : WriteLog κ ν) (k : κ) (v : Option ν) (sync : Bool) :
    (w.write k v sync).size = w.size + 1 := rfl

/-- What a crash keeps is an older part of the history. -/
lemma crash_writes_suffix (w : WriteLog κ ν) (keep : Nat) :
    (w.crash keep).writes <:+ w.writes := List.drop_suffix _ _

/-- A key whose writes all pass a filter reads as without the others. -/
lemma lookup_filter {q : κ × Option ν → Bool} {k : κ} {ws : List (κ × Option ν)}
    (h : ∀ e ∈ ws, e.1 = k → q e = true) : lookup k (ws.filter q) = lookup k ws := by
  induction ws with
  | nil => rfl
  | cons e ws ih =>
    have hrest := ih fun e he => h e (List.mem_cons_of_mem _ he)
    obtain ⟨k', v⟩ := e
    rw [lookup_cons, List.filter_cons]
    by_cases hk : k' = k
    · rw [if_pos (h (k', v) List.mem_cons_self hk), lookup_cons, if_pos hk, if_pos hk]
    · rw [if_neg hk]
      by_cases hq : q (k', v) = true
      · rw [if_pos hq, lookup_cons, if_neg hk, hrest]
      · rw [if_neg hq, hrest]

/-- Every write in the history has the property `p`. -/
def All (p : κ → Option ν → Prop) (w : WriteLog κ ν) : Prop := ∀ e ∈ w.writes, p e.1 e.2

variable {p : κ → Option ν → Prop}

lemma all_empty : All p ({} : WriteLog κ ν) := by
  intro e he
  cases he

lemma All.write {w : WriteLog κ ν} (h : All p w) {k : κ} {v : Option ν} (hv : p k v)
    (sync : Bool) : All p (w.write k v sync) := by
  intro e he
  rcases List.mem_cons.mp he with rfl | he
  · exact hv
  · exact h e he

lemma All.crash {w : WriteLog κ ν} (h : All p w) (keep : Nat) : All p (w.crash keep) :=
  fun e he => h e ((w.crash_writes_suffix keep).subset he)

lemma mem_of_lookup {k : κ} {v : ν} {ws : List (κ × Option ν)} (h : lookup k ws = some v) :
    (k, some v) ∈ ws := by
  induction ws with
  | nil => cases h
  | cons e ws ih =>
    obtain ⟨k', v'⟩ := e
    rw [lookup_cons] at h
    split at h
    · subst_vars
      exact List.mem_cons_self
    · exact List.mem_cons_of_mem _ (ih h)

lemma All.get {w : WriteLog κ ν} (h : All p w) {k : κ} {v : ν} (hv : w.get k = some v) :
    p k (some v) := h _ (mem_of_lookup hv)

/-! ## Histories a crash can leave -/

/-- Every history that a crash can leave has the property `p`. -/
def Surviving (p : List (κ × Option ν) → Prop) (w : WriteLog κ ν) : Prop :=
  ∀ keep, p (w.crash keep).writes

variable {p p' : List (κ × Option ν) → Prop} {w : WriteLog κ ν}

lemma surviving_empty (h : p []) : Surviving p ({} : WriteLog κ ν) := by
  intro keep
  show p (List.drop _ [])
  rwa [List.drop_nil]

lemma Surviving.mono (h : Surviving p w) (hp : ∀ ws, p ws → p' ws) : Surviving p' w :=
  fun keep => hp _ (h keep)

/-- A crash keeps the new write with all before it, or what it could have kept before. -/
lemma Surviving.write (h : Surviving p w) {k : κ} {v : Option ν} (hv : p ((k, v) :: w.writes))
    (sync : Bool) : Surviving p (w.write k v sync) := by
  intro keep
  show p (List.drop (w.size + 1 - max (if sync then w.size + 1 else w.durable) keep)
    ((k, v) :: w.writes))
  by_cases hall : w.size + 1 ≤ max (if sync then w.size + 1 else w.durable) keep
  · rw [Nat.sub_eq_zero_of_le hall]
    exact hv
  · have hsync : sync = false := by
      by_contra hs
      rw [if_pos (Bool.not_eq_false _ ▸ hs)] at hall
      exact hall (le_max_left _ _)
    subst hsync
    have hsub : w.size + 1 - max w.durable keep = w.size - max w.durable keep + 1 := by
      have hlt : max w.durable keep < w.size + 1 := Nat.lt_of_not_le hall
      omega
    show p (List.drop (w.size + 1 - max w.durable keep) ((k, v) :: w.writes))
    rw [hsub, List.drop_succ_cons]
    exact h keep

lemma surviving_crash (w : WriteLog κ ν) {keep : ℕ} (h : p (w.crash keep).writes) :
    Surviving p (w.crash keep) := by
  intro keep'
  have hsize : (w.crash keep).writes.length = (w.crash keep).durable := by
    show (List.drop _ w.writes).length = min w.writes.length _
    rw [List.length_drop]
    show w.writes.length - (w.writes.length - _) = _
    omega
  have hdrop : (w.crash keep).size - max (w.crash keep).durable keep' = 0 := by
    show (w.crash keep).writes.length - _ = 0
    rw [hsize]
    omega
  show p (List.drop ((w.crash keep).size - max (w.crash keep).durable keep') (w.crash keep).writes)
  rw [hdrop]
  exact h

end

/-! ## Iteration in key order -/

section
variable {κ ν : Type} [DecidableEq κ] [Ord κ] [Std.TransOrd κ] [Std.LawfulEqOrd κ]

def contentsOf : List (κ × Option ν) → Std.ExtTreeMap κ ν
  | [] => ∅
  | (k, some v) :: ws => (contentsOf ws).insert k v
  | (k, none) :: ws => (contentsOf ws).erase k

def contents (w : WriteLog κ ν) : Std.ExtTreeMap κ ν := contentsOf w.writes

lemma contentsOf_getElem? (k : κ) (ws : List (κ × Option ν)) :
    (contentsOf ws)[k]? = lookup k ws := by
  induction ws with
  | nil => simp [contentsOf]
  | cons e ws ih =>
    obtain ⟨k', v⟩ := e
    cases v with
    | none => simp [contentsOf, lookup_cons, Std.ExtTreeMap.getElem?_erase, ih]
    | some v => simp [contentsOf, lookup_cons, Std.ExtTreeMap.getElem?_insert, ih]

theorem contents_getElem? (w : WriteLog κ ν) (k : κ) : w.contents[k]? = w.get k :=
  contentsOf_getElem? k w.writes

end

end WriteLog

end PhxQueue.Lib
