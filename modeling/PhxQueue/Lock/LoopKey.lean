import PhxQueue.Lock.Cleaning
import PhxQueue.Lib.RoundRobin
import Mathlib.Data.String.Basic

/-!
# The cleaner's walk around the keys

`ForwardLoopKey` of `lock/lockdb.cpp` keeps the key it gave last and gives the one after it.  Between two
calls keys are set and deleted, by the cleaner itself also.

* `LoopState`, `loop`           the map, the key before, and what happens to them;
* `visits`                      the keys given, each with the keys of the map at that call;
* `isNext_forwardLoopKey_iff`   when the key given is the next one;
* `KeepsPlace`                  the key before is still there, or nothing is lost by its absence;
* `walk_visits_iff`             **the walk goes on in order exactly where the place is kept**;
* `starved`                     a key that stays and is not visited any more.
-/

set_option linter.unusedSectionVars false

namespace PhxQueue.Lock
open Comm Lib

/-! ## The keys of a map -/

section
variable {m : LockMap} {p k : String}

def keySet (m : LockMap) : Set String := {k | k ∈ m}

lemma mem_keys_iff : k ∈ m.keys ↔ k ∈ keySet m := Std.ExtTreeMap.mem_keys

lemma keys_pairwise (m : LockMap) : m.keys.Pairwise (· < ·) :=
  Std.ExtTreeMap.ordered_keys.imp fun h => compare_lt_iff_lt.mp h

lemma le_of_head_keys (h : m.keys.head? = some k) {x : String} (hx : x ∈ keySet m) : k ≤ x := by
  have hsorted := keys_pairwise m
  have hmem := mem_keys_iff.mpr hx
  cases hkeys : m.keys with
  | nil =>
    rw [hkeys] at h
    cases h
  | cons y ys =>
    rw [hkeys] at h hsorted hmem
    cases h
    rcases List.mem_cons.mp hmem with rfl | hys
    · exact le_rfl
    · exact (List.rel_of_pairwise_cons hsorted hys).le

/-- `upper_bound` finds the least key above. -/
lemma le_of_find_keys (h : (m.keys.find? fun k => p < k) = some k) {x : String}
    (hx : x ∈ keySet m) (hp : p < x) : k ≤ x := by
  obtain ⟨-, pre, post, hkeys, hpre⟩ := List.find?_eq_some_iff_append.mp h
  have hsorted := keys_pairwise m
  have hmem := mem_keys_iff.mpr hx
  rw [hkeys] at hsorted hmem
  rcases List.mem_append.mp hmem with hx' | hx'
  · have hnot := hpre x hx'
    rw [Bool.not_eq_true', decide_eq_false_iff_not] at hnot
    exact absurd hp hnot
  · rcases List.mem_cons.mp hx' with rfl | hx'
    · exact le_rfl
    · exact (List.rel_of_pairwise_cons (List.pairwise_append.mp hsorted).2.1 hx').le

/-! ## One call -/

/-- The key before is in the map, or none of the keys is below it, or none is above it. -/
def KeepsPlace (m : LockMap) (p : String) : Prop :=
  p ∈ keySet m ∨ (∀ x ∈ keySet m, p ≤ x) ∨ (∀ x ∈ keySet m, x ≤ p)

lemma forwardLoopKey_eq_none_iff : forwardLoopKey m p = none ↔ m = ∅ := by
  have hhead : m.keys.head? = none ↔ m = ∅ := by
    rw [List.head?_eq_none_iff, Std.ExtTreeMap.keys_eq_nil_iff]
  unfold forwardLoopKey
  cases hp : m[p]? with
  | none => exact hhead
  | some r =>
    cases hfind : m.keys.find? fun k => p < k with
    | none => exact hhead
    | some k =>
      refine iff_of_false (Option.some_ne_none k) ?_
      rintro rfl
      simp at hp

/-- A call that finds its place goes to the next key. -/
lemma isNext_of_mem (hp : p ∈ keySet m) (h : forwardLoopKey m p = some k) :
    IsNext (keySet m) p k := by
  have hsome : m[p]?.isSome := Std.ExtTreeMap.mem_iff_isSome_getElem?.mp hp
  unfold forwardLoopKey at h
  cases hget : m[p]? with
  | none =>
    rw [hget] at hsome
    cases hsome
  | some r =>
    rw [hget] at h
    cases hfind : m.keys.find? fun k => p < k with
    | none =>
      have hnone : ∀ x ∈ keySet m, x ≤ p := by
        intro x hx
        have hnot := List.find?_eq_none.mp hfind x (mem_keys_iff.mpr hx)
        rw [decide_eq_true_eq] at hnot
        exact not_lt.mp hnot
      simp only [hfind] at h
      exact ⟨mem_keys_iff.mp (List.mem_of_mem_head? h),
        Or.inr ⟨hnone, fun x hx => le_of_head_keys h hx⟩⟩
    | some k' =>
      simp only [hfind] at h
      cases h
      have hdec := List.find?_some hfind
      have hpk : p < k := of_decide_eq_true hdec
      exact ⟨mem_keys_iff.mp (List.mem_of_find?_eq_some hfind),
        Or.inl ⟨hpk, fun x hx => le_of_find_keys hfind hx⟩⟩

lemma head_of_not_mem (hp : p ∉ keySet m) (h : forwardLoopKey m p = some k) :
    m.keys.head? = some k := by
  have hnone : m[p]? = none := Std.ExtTreeMap.getElem?_eq_none hp
  unfold forwardLoopKey at h
  rw [hnone] at h
  exact h

/-- **The key given is the next one exactly where the place is kept.** -/
theorem isNext_forwardLoopKey_iff (h : forwardLoopKey m p = some k) :
    IsNext (keySet m) p k ↔ KeepsPlace m p := by
  by_cases hp : p ∈ keySet m
  · exact iff_of_true (isNext_of_mem hp h) (Or.inl hp)
  have hhead := head_of_not_mem hp h
  have hk : k ∈ keySet m := mem_keys_iff.mp (List.mem_of_mem_head? hhead)
  have hne : ∀ x ∈ keySet m, x ≠ p := by
    rintro x hx rfl
    exact hp hx
  constructor
  · rintro ⟨-, ⟨hpk, -⟩ | ⟨hnone, -⟩⟩
    · exact Or.inr (Or.inl fun x hx => hpk.le.trans (le_of_head_keys hhead hx))
    · exact Or.inr (Or.inr hnone)
  · rintro (hmem | hbelow | habove)
    · exact absurd hmem hp
    · have hpk : p < k := lt_of_le_of_ne (hbelow k hk) (hne k hk).symm
      exact ⟨hk, Or.inl ⟨hpk, fun x hx _ => le_of_head_keys hhead hx⟩⟩
    · exact ⟨hk, Or.inr ⟨habove, fun x hx => le_of_head_keys hhead hx⟩⟩

end

theorem isNext_cleanRecord_iff (s : CleanedReplica) (hmap : s.replica.g.map ≠ ∅) :
    IsNext (keySet s.replica.g.map) s.prevLoopKey s.cleanRecord.prevLoopKey ↔
      KeepsPlace s.replica.g.map s.prevLoopKey := by
  unfold CleanedReplica.cleanRecord
  cases h : forwardLoopKey s.replica.g.map s.prevLoopKey with
  | none => exact absurd (forwardLoopKey_eq_none_iff.mp h) hmap
  | some key =>
    rw [← isNext_forwardLoopKey_iff h]
    cases hexpired : expiredRecord s.replica.g.map s.now key <;> simp only [hexpired]

/-! ## Runs -/

/-- The storage of a `LockDb` and its `prev_loop_key_`. -/
structure LoopState where
  map : LockMap := ∅
  prevLoopKey : String := ""

inductive LoopEvent
  | setRecord (key : String) (r : LocalRecordInfo)
  | deleteRecord (key : String)
  | forwardLoopKey

namespace LoopState

def step (s : LoopState) : LoopEvent → LoopState
  | .setRecord key r => { s with map := (Lock.setRecord s.map {} key r false).2 }
  | .deleteRecord key => { s with map := (Lock.deleteRecord s.map {} key false).2 }
  | .forwardLoopKey =>
    match Lock.forwardLoopKey s.map s.prevLoopKey with
    | none => s
    | some key => { s with prevLoopKey := key }

/-- The key given by an event, with the keys it is chosen from. -/
def visit (s : LoopState) : LoopEvent → List (Set String × String)
  | .forwardLoopKey =>
    match Lock.forwardLoopKey s.map s.prevLoopKey with
    | none => []
    | some key => [(keySet s.map, key)]
  | _ => []

/-- What the calls need in order to go on from their place. -/
def CallKeepsPlace (s : LoopState) : LoopEvent → Prop
  | .forwardLoopKey => KeepsPlace s.map s.prevLoopKey
  | _ => True

end LoopState

def loop : Machine LoopState LoopEvent where
  init := {}
  step := LoopState.step

def visits (s : LoopState) : List LoopEvent → List (Set String × String)
  | [] => []
  | e :: es => s.visit e ++ visits (s.step e) es

/-- **A key that stays in the map is given in every round**, that is before the walk begins again
twice. -/
def VisitsStaying (p : String) (vs : List (Set String × String)) : Prop :=
  ∀ pre mid post, vs = pre ++ mid ++ post → ∀ key, (∀ v ∈ mid, key ∈ v.1) →
    2 ≤ wraps (lastVisit p pre) mid → ∃ v ∈ mid, v.2 = key

lemma Walk.visitsStaying {p : String} {vs : List (Set String × String)} (h : Walk p vs) :
    VisitsStaying p vs := by
  rintro pre mid post rfl key hstays hwraps
  have hmid := (walk_append.mp (walk_append.mp h).1).2
  exact hmid.visited hstays hwraps

lemma lastVisit_visit (s : LoopState) (e : LoopEvent) :
    lastVisit s.prevLoopKey (s.visit e) = (s.step e).prevLoopKey := by
  cases e with
  | forwardLoopKey =>
    show lastVisit s.prevLoopKey (match forwardLoopKey s.map s.prevLoopKey with
      | none => []
      | some key => [(keySet s.map, key)]) =
        (match forwardLoopKey s.map s.prevLoopKey with
        | none => s
        | some key => { s with prevLoopKey := key }).prevLoopKey
    cases forwardLoopKey s.map s.prevLoopKey <;> rfl
  | _ => rfl

lemma walk_visit_iff (s : LoopState) (e : LoopEvent) :
    Walk s.prevLoopKey (s.visit e) ↔ s.CallKeepsPlace e := by
  cases e with
  | forwardLoopKey =>
    show Walk s.prevLoopKey (match forwardLoopKey s.map s.prevLoopKey with
      | none => []
      | some key => [(keySet s.map, key)]) ↔ KeepsPlace s.map s.prevLoopKey
    cases h : forwardLoopKey s.map s.prevLoopKey with
    | none =>
      refine iff_of_true trivial (Or.inr (Or.inl ?_))
      rw [forwardLoopKey_eq_none_iff.mp h]
      intro x hx
      exact absurd hx Std.ExtTreeMap.not_mem_empty
    | some key =>
      rw [← isNext_forwardLoopKey_iff h]
      exact (and_true _).to_iff
  | _ => exact Iff.rfl

/-- **Every key that stays is visited in every round, and each key given is the next one, exactly
in the runs whose calls keep their place.** -/
theorem walk_visits_iff (s : LoopState) (es : List LoopEvent) :
    (Walk s.prevLoopKey (visits s es) ∧ VisitsStaying s.prevLoopKey (visits s es)) ↔
      loop.Along LoopState.CallKeepsPlace s es := by
  have hwalk : Walk s.prevLoopKey (visits s es) ↔ loop.Along LoopState.CallKeepsPlace s es := by
    induction es generalizing s with
    | nil => exact Iff.rfl
    | cons e es ih =>
      show Walk s.prevLoopKey (s.visit e ++ visits (s.step e) es) ↔ _
      rw [walk_append, walk_visit_iff, lastVisit_visit, ih]
      exact Iff.rfl
  rw [← hwalk]
  exact ⟨And.left, fun h => ⟨h, Walk.visitsStaying h⟩⟩

/-! ## A key that is not visited any more -/

def setAbc : List LoopEvent :=
  [.setRecord "a" {}, .setRecord "b" {}, .setRecord "c" {}, .forwardLoopKey]

def abc : LoopState := loop.exec {} setAbc

/-- The key just visited is deleted before each second call, and set again. -/
def deleteVisited : List LoopEvent :=
  [.forwardLoopKey, .deleteRecord "b", .forwardLoopKey, .setRecord "b" {}]

lemma map_abc : abc.map = ((((∅ : LockMap).insert "a" {}).insert "b" {}).insert "c" {}) := rfl

lemma visits_deleteVisited : visits abc deleteVisited =
    [(keySet abc.map, "b"), (keySet (abc.map.erase "b"), "a")] := rfl

lemma exec_deleteVisited : loop.exec abc deleteVisited = abc := by
  have hmap : (abc.map.erase "b").insert "b" {} = abc.map := by
    refine Std.ExtTreeMap.ext_getElem? fun k => ?_
    rw [map_abc]
    simp only [Std.ExtTreeMap.getElem?_insert, Std.ExtTreeMap.getElem?_erase]
    grind
  show LoopState.mk ((abc.map.erase "b").insert "b" {}) "a" = abc
  rw [hmap]
  rfl

lemma visits_append (s : LoopState) (es es' : List LoopEvent) :
    visits s (es ++ es') = visits s es ++ visits (loop.exec s es) es' := by
  induction es generalizing s with
  | nil => rfl
  | cons e es ih =>
    show s.visit e ++ visits (s.step e) (es ++ es') = s.visit e ++ visits (s.step e) es ++ _
    rw [ih, List.append_assoc]
    rfl

def starving : ℕ → List LoopEvent
  | 0 => []
  | n + 1 => deleteVisited ++ starving n

/-- **The last key stays in the map and is never given**, however often the walk begins again. -/
theorem starved (n : ℕ) : (∀ v ∈ visits abc (starving n), "c" ∈ v.1 ∧ v.2 ≠ "c") ∧
    wraps "a" (visits abc (starving n)) = n := by
  induction n with
  | zero => exact ⟨fun v hv => absurd hv List.not_mem_nil, rfl⟩
  | succ n ih =>
    have hvisits : visits abc (starving (n + 1)) = (keySet abc.map, "b") ::
        (keySet (abc.map.erase "b"), "a") :: visits abc (starving n) := by
      show visits abc (deleteVisited ++ starving n) = _
      rw [visits_append, visits_deleteVisited, exec_deleteVisited]
      rfl
    have hstays : "c" ∈ keySet abc.map ∧ "c" ∈ keySet (abc.map.erase "b") := by
      show "c" ∈ abc.map ∧ "c" ∈ abc.map.erase "b"
      decide
    rw [hvisits]
    constructor
    · intro v hv
      rcases List.mem_cons.mp hv with rfl | hv
      · exact ⟨hstays.1, by decide⟩
      rcases List.mem_cons.mp hv with rfl | hv
      · exact ⟨hstays.2, by decide⟩
      · exact ih.1 v hv
    · show (if "b" ≤ "a" then 1 else 0) + ((if "a" ≤ "b" then 1 else 0) +
        wraps "a" (visits abc (starving n))) = n + 1
      rw [ih.2, if_neg (by decide), if_pos (by decide), Nat.zero_add, Nat.add_comm]

/-- So two rounds pass without a visit of it. -/
theorem deleteVisited_not_visitsStaying :
    ¬ (Walk "" (visits {} (setAbc ++ starving 2)) ∧
      VisitsStaying "" (visits {} (setAbc ++ starving 2))) := by
  rintro ⟨-, h⟩
  rw [visits_append] at h
  obtain ⟨hstarved, hwraps⟩ := starved 2
  obtain ⟨v, hv, hkey⟩ := h (visits {} setAbc) (visits abc (starving 2)) [] (List.append_nil _).symm
    "c" (fun v hv => (hstarved v hv).1) hwraps.ge
  exact (hstarved v hv).2 hkey

end PhxQueue.Lock
