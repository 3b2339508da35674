import Mathlib.Data.List.DropRight
import Mathlib.Tactic

/-!
# Scanning a text by positions

A text is read by positions, up to a position where a character stops the scan or up to an end; past its
last character it has a terminator.

* `charAt`, `slice`, `scan`    the character at a position, the characters between two, and where a
                               scan stops;
* `scan_eq`                    a scan passes the longest prefix that does not stop it;
* `charAt_takeWhile_length`, `slice_takeWhile_length`   what is there, and what has been passed;
* `mem_of_mem_splitOnP`        what the pieces between separators have;
* `trimBoth`                   a text without certain characters at both ends.
-/

set_option linter.unusedSectionVars false

namespace PhxQueue.Lib

section
variable {α : Type*}

/-! ## Positions -/

def charAt (nul : α) (src : List α) (i : ℕ) : α := src.getD i nul

/-- The characters from `st` up to `ed`. -/
def slice (src : List α) (st ed : ℕ) : List α := (src.drop st).take (ed - st)

/-- Where a scan of at most `n` characters from `i` stops. -/
def scan (nul : α) (stop : α → Bool) (src : List α) : (n i : ℕ) → ℕ
  | 0, i => i
  | n + 1, i => if stop (charAt nul src i) then i else scan nul stop src n (i + 1)

variable {nul : α} {stop p : α → Bool} {src seg after : List α} {i : ℕ}

lemma charAt_add (k : ℕ) : charAt nul src (i + k) = charAt nul (src.drop i) k := by
  unfold charAt
  rw [List.getD_eq_getElem?_getD, List.getD_eq_getElem?_getD, List.getElem?_drop]

lemma scan_add (n k : ℕ) : scan nul stop src n (i + k) = i + scan nul stop (src.drop i) n k := by
  induction n generalizing k with
  | zero => rfl
  | succ n ih =>
    unfold scan
    rw [charAt_add, Nat.add_assoc, ih]
    split <;> rfl

lemma scan_zero : scan nul stop (seg ++ after) seg.length 0 =
    (seg.takeWhile fun c => !stop c).length := by
  induction seg with
  | nil => rfl
  | cons c seg ih =>
    have hshift : scan nul stop (c :: seg ++ after) seg.length (1 + 0) =
        1 + scan nul stop (seg ++ after) seg.length 0 := scan_add seg.length 0
    show (if stop c then 0 else scan nul stop (c :: seg ++ after) seg.length (1 + 0)) = _
    rw [hshift, List.takeWhile_cons]
    cases hc : stop c with
    | true => rfl
    | false =>
      show 1 + scan nul stop (seg ++ after) seg.length 0 = _
      rw [ih, Nat.add_comm]
      rfl

/-- **A scan passes the longest prefix that does not stop it.** -/
lemma scan_eq (h : src.drop i = seg ++ after) : scan nul stop src seg.length i =
    i + (seg.takeWhile fun c => !stop c).length := by
  have hshift : scan nul stop src seg.length (i + 0) =
      i + scan nul stop (src.drop i) seg.length 0 := scan_add seg.length 0
  rwa [Nat.add_zero, h, scan_zero] at hshift

lemma append_eq : seg ++ after = seg.takeWhile p ++ (seg.dropWhile p ++ after) := by
  rw [← List.append_assoc, List.takeWhile_append_dropWhile]

lemma drop_takeWhile_length (h : src.drop i = seg ++ after) :
    src.drop (i + (seg.takeWhile p).length) = seg.dropWhile p ++ after := by
  rw [← List.drop_drop, h, append_eq (p := p), List.drop_left]

lemma charAt_takeWhile_length (h : src.drop i = seg ++ after) :
    charAt nul src (i + (seg.takeWhile p).length) = (seg.dropWhile p ++ after).headD nul := by
  have hshift : charAt nul src (i + (seg.takeWhile p).length + 0) =
      charAt nul (src.drop (i + (seg.takeWhile p).length)) 0 := charAt_add 0
  rw [Nat.add_zero, drop_takeWhile_length h] at hshift
  rw [hshift]
  unfold charAt
  cases seg.dropWhile p ++ after <;> rfl

lemma slice_takeWhile_length (h : src.drop i = seg ++ after) :
    slice src i (i + (seg.takeWhile p).length) = seg.takeWhile p := by
  unfold slice
  rw [h, Nat.add_sub_cancel_left, append_eq (p := p), List.take_left]

/-- A search for what `p` does not hold of stops there too. -/
lemma findIdx?_not_eq (s : List α) : (s.findIdx? fun c => !p c) =
    if ∀ c ∈ s, p c = true then none else some (s.takeWhile p).length := by
  induction s with
  | nil => rfl
  | cons c s ih =>
    rw [List.findIdx?_cons, ih, List.takeWhile_cons]
    cases hc : p c with
    | false =>
      have hnot : ¬ ∀ c' ∈ c :: s, p c' = true := by
        intro hall
        have hpc := hall c List.mem_cons_self
        rw [hc] at hpc
        cases hpc
      rw [if_neg hnot]
      rfl
    | true =>
      have hiff : (∀ c' ∈ c :: s, p c' = true) ↔ ∀ c' ∈ s, p c' = true := by
        rw [List.forall_mem_cons]
        exact and_iff_right hc
      by_cases hall : ∀ c ∈ s, p c = true
      · rw [if_pos hall, if_pos (hiff.mpr hall)]
        rfl
      · rw [if_neg hall, if_neg (mt hiff.mp hall)]
        rfl

lemma takeWhile_congr {q : α → Bool} {s : List α} (h : ∀ c ∈ s, p c = q c) :
    s.takeWhile p = s.takeWhile q := by
  induction s with
  | nil => rfl
  | cons c s ih =>
    obtain ⟨hc, hs⟩ := List.forall_mem_cons.mp h
    rw [List.takeWhile_cons, List.takeWhile_cons, hc, ih hs]

lemma drop_takeWhile (s : List α) : s.drop (s.takeWhile p).length = s.dropWhile p := by
  have hdrop := drop_takeWhile_length (i := 0) (p := p) (List.append_nil s).symm
  rwa [Nat.zero_add, List.append_nil] at hdrop

/-! ## Pieces between separators -/

lemma mem_of_mem_splitOnP {s part : List α} (hpart : part ∈ s.splitOnP p) {c : α} (hc : c ∈ part) :
    p c = false ∧ c ∈ s := by
  induction s generalizing part c with
  | nil =>
    rw [List.splitOnP_nil, List.mem_singleton] at hpart
    rw [hpart] at hc
    exact absurd hc List.not_mem_nil
  | cons x xs ih =>
    rw [List.splitOnP_cons_eq_if_modifyHead] at hpart
    split at hpart
    · rcases List.mem_cons.mp hpart with rfl | hpart
      · exact absurd hc List.not_mem_nil
      · exact (ih hpart hc).imp_right (List.mem_cons_of_mem x)
    · rename_i hx
      obtain ⟨part', parts, hparts⟩ := List.exists_cons_of_ne_nil (List.splitOnP_ne_nil p xs)
      rw [hparts, List.modifyHead_cons] at hpart
      rw [hparts] at ih
      rcases List.mem_cons.mp hpart with rfl | hpart
      · rcases List.mem_cons.mp hc with rfl | hc
        · exact ⟨Bool.eq_false_iff.mpr hx, List.mem_cons_self⟩
        · exact (ih List.mem_cons_self hc).imp_right (List.mem_cons_of_mem x)
      · exact (ih (List.mem_cons_of_mem _ hpart) hc).imp_right (List.mem_cons_of_mem x)

lemma length_splitOnP_le (s : List α) : (s.splitOnP p).length ≤ s.length + 1 := by
  induction s with
  | nil => exact le_rfl
  | cons x xs ih =>
    rw [List.splitOnP_cons_eq_if_modifyHead]
    split
    · exact Nat.succ_le_succ ih
    · rw [List.length_modifyHead]
      exact ih.trans (Nat.le_succ _)

/-! ## Both ends -/

/-- Without the characters at both ends that `p` holds of. -/
def trimBoth (p : α → Bool) (s : List α) : List α := (s.dropWhile p).rdropWhile p

lemma trimBoth_eq_nil {s : List α} (h : ∀ c ∈ s, p c = true) : trimBoth p s = [] := by
  unfold trimBoth
  rw [List.dropWhile_eq_nil_iff.mpr h]
  rfl

lemma trimBoth_ne_nil {s : List α} (h : ¬ ∀ c ∈ s, p c = true) : trimBoth p s ≠ [] := by
  unfold trimBoth
  intro hnil
  have hall := List.dropWhile_eq_nil_iff.mpr (List.rdropWhile_eq_nil_iff.mp hnil)
  rw [List.dropWhile_idempotent] at hall
  exact h (List.dropWhile_eq_nil_iff.mp hall)

lemma trimBoth_trimBoth (s : List α) : trimBoth p (trimBoth p s) = trimBoth p s := by
  have hdrop : (trimBoth p s).dropWhile p = trimBoth p s := by
    unfold trimBoth
    have hprefix := List.rdropWhile_prefix p (s.dropWhile p)
    cases hr : (s.dropWhile p).rdropWhile p with
    | nil => rfl
    | cons c t =>
      rw [hr] at hprefix
      obtain ⟨rest, hrest⟩ := hprefix
      have hc : p c = false := by
        have hhead := List.head?_dropWhile_not p s
        rw [← hrest] at hhead
        simpa using hhead
      rw [List.dropWhile_cons_of_neg (by simp [hc])]
  show ((trimBoth p s).dropWhile p).rdropWhile p = _
  rw [hdrop]
  unfold trimBoth
  exact List.rdropWhile_idempotent p _

end

end PhxQueue.Lib
