import Mathlib.Tactic

/-!
# Ordered maps

Entries with a key and a value, in the order of the keys, as `std::map` and `std::set` keep them.

* `insertPoint`, `mem_insertPoint`   an entry goes to its place, unless its key is there;
* `OrderedMap`, `emplace`, `search`, `eraseBefore`   maps that are in order, and what is done with
  them;
* `search_spec`        a search by key finds the least one it may;
* `build`, `mem_build` a map built from a list has the first entry of every key;
* `emplace_last`       an entry above all others becomes the last one.
-/

set_option linter.unusedSectionVars false

namespace PhxQueue.Lib

section
variable {κ ν : Type} [LinearOrder κ]

/-! ## Entries -/

/-- An entry goes to its place; one that has the key is left. -/
def insertPoint (k : κ) (v : ν) : List (κ × ν) → List (κ × ν)
  | [] => [(k, v)]
  | x :: xs =>
    if k < x.1 then (k, v) :: x :: xs
    else if x.1 < k then x :: insertPoint k v xs
    else x :: xs

/-- The entries are in the order of their keys. -/
def Sorted (l : List (κ × ν)) : Prop := l.Pairwise fun x y => x.1 < y.1

variable {k : κ} {v w : ν} {l : List (κ × ν)}

lemma fst_mem_insertPoint {x : κ × ν} (hx : x ∈ insertPoint k v l) : x.1 = k ∨ x ∈ l := by
  induction l with
  | nil =>
    rw [List.mem_singleton.mp hx]
    exact Or.inl rfl
  | cons y ys ih =>
    unfold insertPoint at hx
    split at hx
    · rcases List.mem_cons.mp hx with rfl | hx
      · exact Or.inl rfl
      · exact Or.inr hx
    · split at hx
      · rcases List.mem_cons.mp hx with rfl | hx
        · exact Or.inr List.mem_cons_self
        · exact (ih hx).imp id (List.mem_cons_of_mem y)
      · exact Or.inr hx

lemma Sorted.insertPoint (hl : Sorted l) (k : κ) (v : ν) : Sorted (insertPoint k v l) := by
  induction l with
  | nil => exact List.pairwise_singleton _ _
  | cons x xs ih =>
    obtain ⟨hx, hxs⟩ := List.pairwise_cons.mp hl
    unfold Lib.insertPoint
    split
    · rename_i hk
      refine List.pairwise_cons.mpr ⟨?_, hl⟩
      intro y hy
      rcases List.mem_cons.mp hy with rfl | hy
      · exact hk
      · exact hk.trans (hx y hy)
    split
    · rename_i hk
      refine List.pairwise_cons.mpr ⟨?_, ih hxs⟩
      intro y hy
      rcases fst_mem_insertPoint hy with hy | hy
      · rw [hy]
        exact hk
      · exact hx y hy
    · exact hl

lemma Sorted.value_unique (hl : Sorted l) (hv : (k, v) ∈ l) (hw : (k, w) ∈ l) : v = w := by
  induction l with
  | nil => exact absurd hv List.not_mem_nil
  | cons x xs ih =>
    obtain ⟨hx, hxs⟩ := List.pairwise_cons.mp hl
    rcases List.mem_cons.mp hv with rfl | hv'
    · rcases List.mem_cons.mp hw with hw | hw
      · exact (congrArg Prod.snd hw).symm
      · exact absurd (hx _ hw) (lt_irrefl k)
    · rcases List.mem_cons.mp hw with rfl | hw
      · exact absurd (hx _ hv') (lt_irrefl k)
      · exact ih hxs hv' hw

lemma mem_insertPoint (hl : Sorted l) {k' : κ} {v' : ν} :
    (k', v') ∈ insertPoint k v l ↔
      (k', v') ∈ l ∨ (k' = k ∧ v' = v ∧ ∀ w, (k, w) ∉ l) := by
  induction l with
  | nil =>
    unfold insertPoint
    simp
  | cons x xs ih =>
    obtain ⟨hx, hxs⟩ := List.pairwise_cons.mp hl
    unfold insertPoint
    split
    · rename_i hk
      have hnew : ∀ w, (k, w) ∉ x :: xs := by
        intro w hw
        rcases List.mem_cons.mp hw with rfl | hw
        · exact lt_irrefl _ hk
        · exact lt_irrefl _ (hk.trans (hx _ hw))
      rw [List.mem_cons, Prod.mk.injEq]
      tauto
    split
    · rename_i hk
      have hne : ∀ w, (k, w) ≠ x := by
        rintro w rfl
        exact lt_irrefl _ hk
      rw [List.mem_cons, ih hxs, List.mem_cons]
      simp only [List.mem_cons, hne, false_or, or_assoc]
    · rename_i hlt hgt
      have hk : k = x.1 := le_antisymm (not_lt.mp hgt) (not_lt.mp hlt)
      constructor
      · exact Or.inl
      · rintro (hmem | ⟨_, _, hno⟩)
        · exact hmem
        · have hx := hno x.2
          rw [hk] at hx
          exact absurd List.mem_cons_self hx

lemma insertPoint_last (hk : ∀ x ∈ l, x.1 < k) : insertPoint k v l = l ++ [(k, v)] := by
  induction l with
  | nil => rfl
  | cons x xs ih =>
    have hx := hk x List.mem_cons_self
    unfold insertPoint
    rw [if_neg hx.asymm, if_pos hx, ih fun y hy => hk y (List.mem_cons_of_mem x hy)]
    rfl

/-- What is dropped from the front, up to a key, is what does not reach it. -/
lemma Sorted.dropWhile_eq_filter (hl : Sorted l) {p : κ → Bool}
    (hp : ∀ k k', k ≤ k' → p k = true → p k' = true) :
    (l.dropWhile fun x => !p x.1) = l.filter fun x => p x.1 := by
  induction l with
  | nil => rfl
  | cons x xs ih =>
    obtain ⟨hx, hxs⟩ := List.pairwise_cons.mp hl
    rw [List.dropWhile_cons, List.filter_cons]
    cases hpx : p x.1 with
    | false => exact ih hxs
    | true =>
      refine congrArg (x :: ·) (List.filter_eq_self.mpr ?_).symm
      intro y hy
      exact hp x.1 y.1 (hx y hy).le hpx

/-! ## Maps -/

structure OrderedMap (κ ν : Type) [LinearOrder κ] where
  entries : List (κ × ν)
  sorted : Sorted entries

namespace OrderedMap

def empty : OrderedMap κ ν := ⟨[], List.Pairwise.nil⟩

def emplace (m : OrderedMap κ ν) (k : κ) (v : ν) : OrderedMap κ ν :=
  ⟨insertPoint k v m.entries, m.sorted.insertPoint k v⟩

def search (m : OrderedMap κ ν) (p : κ → Bool) : Option (κ × ν) := m.entries.find? fun x => p x.1

/-- The entries from the first one on whose key may be found. -/
def eraseBefore (m : OrderedMap κ ν) (p : κ → Bool) : OrderedMap κ ν :=
  ⟨m.entries.dropWhile fun x => !p x.1, m.sorted.sublist (List.dropWhile_sublist _)⟩

def lowerBound (m : OrderedMap κ ν) (h : κ) : Option (κ × ν) := m.search fun k => h ≤ k

def upperBound (m : OrderedMap κ ν) (h : κ) : Option (κ × ν) := m.search fun k => h < k

def keys (m : OrderedMap κ ν) : Set κ := { k | ∃ v, (k, v) ∈ m.entries }

variable {m : OrderedMap κ ν} {p : κ → Bool} {x : κ × ν}

lemma fst_mem_keys (hx : x ∈ m.entries) : x.1 ∈ m.keys := ⟨x.2, hx⟩

lemma search_eq_none : m.search p = none ↔ ∀ k ∈ m.keys, p k = false := by
  unfold search keys
  rw [List.find?_eq_none]
  constructor
  · rintro hno k ⟨v, hv⟩
    exact Bool.eq_false_of_not_eq_true (hno (k, v) hv)
  · intro hno x hx
    rw [hno x.1 ⟨x.2, hx⟩]
    exact Bool.false_ne_true

lemma search_split (hx : m.search p = some x) :
    ∃ before after, m.entries = before ++ x :: after ∧ p x.1 = true ∧
      (∀ y ∈ before, p y.1 = false) ∧ ∀ y ∈ after, x.1 < y.1 := by
  unfold search at hx
  obtain ⟨hp, before, after, hsplit, hbefore⟩ := List.find?_eq_some_iff_append.mp hx
  have hsorted := m.sorted
  rw [hsplit] at hsorted
  obtain ⟨_, hafter, _⟩ := List.pairwise_append.mp hsorted
  refine ⟨before, after, hsplit, hp, ?_, (List.pairwise_cons.mp hafter).1⟩
  intro y hy
  have hno := hbefore y hy
  rwa [Bool.not_eq_true'] at hno

theorem search_spec (hx : m.search p = some x) :
    x ∈ m.entries ∧ p x.1 = true ∧ ∀ k ∈ m.keys, p k = true → x.1 ≤ k := by
  obtain ⟨before, after, hsplit, hp, hbefore, hafter⟩ := search_split hx
  refine ⟨List.mem_of_find?_eq_some hx, hp, ?_⟩
  rintro k ⟨w, hw⟩ hk
  rw [hsplit] at hw
  rcases List.mem_append.mp hw with hw | hw
  · have hno := hbefore _ hw
    rw [hk] at hno
    cases hno
  · rcases List.mem_cons.mp hw with hw | hw
    · exact (congrArg Prod.fst hw).ge
    · exact (hafter _ hw).le

lemma head_le (hx : m.entries.head? = some x) : ∀ k ∈ m.keys, x.1 ≤ k := by
  obtain ⟨entries, hsorted⟩ := m
  rintro k ⟨w, hw⟩
  cases entries with
  | nil => cases hx
  | cons y ys =>
    cases hx
    rcases List.mem_cons.mp hw with hw | hw
    · rw [← hw]
    · exact ((List.pairwise_cons.mp hsorted).1 _ hw).le

lemma le_last (hx : m.entries.getLast? = some x) : ∀ k ∈ m.keys, k ≤ x.1 := by
  rintro k ⟨w, hw⟩
  obtain ⟨before, hsplit⟩ := List.getLast?_eq_some_iff.mp hx
  have hsorted := m.sorted
  rw [hsplit] at hsorted hw
  obtain ⟨_, _, hlast⟩ := List.pairwise_append.mp hsorted
  rcases List.mem_append.mp hw with hw | hw
  · exact (hlast _ hw x (List.mem_singleton.mpr rfl)).le
  · exact (congrArg Prod.fst (List.mem_singleton.mp hw)).le

/-- **An entry above all others becomes the last one.** -/
lemma emplace_last (hk : ∀ k' ∈ m.keys, k' < k) :
    (m.emplace k v).entries = m.entries ++ [(k, v)] :=
  insertPoint_last fun x hx => hk x.1 (fst_mem_keys hx)

lemma entries_eraseBefore (hp : ∀ k k', k ≤ k' → p k = true → p k' = true) :
    (m.eraseBefore p).entries = m.entries.filter fun x => p x.1 :=
  m.sorted.dropWhile_eq_filter hp

/-! ## Building a map -/

/-- The map of a list of entries, inserted one after another. -/
def build (l : List (κ × ν)) : OrderedMap κ ν := l.foldl (fun m x => m.emplace x.1 x.2) empty

lemma build_append (l l' : List (κ × ν)) :
    build (l ++ l') = l'.foldl (fun m x => m.emplace x.1 x.2) (build l) :=
  List.foldl_append

theorem mem_build : (k, v) ∈ (build l).entries ↔ (l.find? fun x => x.1 = k) = some (k, v) := by
  induction l using List.reverseRecOn generalizing k v with
  | nil => exact iff_of_false List.not_mem_nil (fun h => nomatch h)
  | append_singleton l x ih =>
    rw [build_append]
    show (k, v) ∈ insertPoint x.1 x.2 (build l).entries ↔ _
    rw [mem_insertPoint (build l).sorted, ih, List.find?_append]
    cases hfind : l.find? fun y => y.1 = k with
    | some y =>
      have hy := List.find?_some hfind
      have hy : y.1 = k := of_decide_eq_true hy
      rw [Option.some_or]
      refine or_iff_left ?_
      rintro ⟨hk, _, hno⟩
      refine hno y.2 (ih.mpr ?_)
      rw [← hk, hfind, ← hy]
    | none =>
      have hno : ∀ w, (k, w) ∉ (build l).entries := by
        intro w hw
        rw [ih, hfind] at hw
        cases hw
      rw [Option.none_or]
      by_cases hk : x.1 = k
      · subst hk
        simp [hno, Prod.ext_iff, eq_comm]
      · simp [hk, Ne.symm hk]

lemma mem_keys_build : k ∈ (build l).keys ↔ ∃ x ∈ l, x.1 = k := by
  constructor
  · rintro ⟨v, hv⟩
    exact ⟨(k, v), List.mem_of_find?_eq_some (mem_build.mp hv), rfl⟩
  · rintro ⟨x, hx, rfl⟩
    have hsome : (l.find? fun y => y.1 = x.1).isSome :=
      List.find?_isSome.mpr ⟨x, hx, decide_eq_true (Eq.refl x.1)⟩
    obtain ⟨y, hy⟩ := Option.isSome_iff_exists.mp hsome
    have hkey := List.find?_some hy
    have hkey : y.1 = x.1 := of_decide_eq_true hkey
    refine ⟨y.2, mem_build.mpr ?_⟩
    rw [hy, ← hkey]

lemma build_entries_ne_nil (hl : l ≠ []) : (build l).entries ≠ [] := by
  obtain ⟨x, xs, rfl⟩ := List.exists_cons_of_ne_nil hl
  obtain ⟨v, hv⟩ := mem_keys_build.mpr ⟨x, List.mem_cons_self, rfl⟩
  exact List.ne_nil_of_mem hv

end OrderedMap

end

end PhxQueue.Lib
