import Mathlib.Tactic

/-!
# Running checksums and what lies between

Every key of a growing sequence carries a checksum over the keys before it, made from the checksum of
the key before and the key.  Comparing it with the one made from an earlier key says whether something
lies between the two.

* `checksum`, `Collides`        the checksum of a list, and two lists that it does not tell apart;
* `Linked S la a lb b`          the keys of `b` are those of `a`, what `S` has between, and `b`;
* `Linked.checksum_eq_iff`      **the two checksums agree exactly where nothing lies between**, unless
                                they collide.
-/

set_option linter.unusedSectionVars false

namespace PhxQueue.Lib

section
variable {κ γ : Type*} [LinearOrder κ]

def checksum (crc : γ → κ → γ) (init : γ) (l : List κ) : γ := l.foldl crc init

/-- Two lists that the checksum does not tell apart. -/
def Collides (crc : γ → κ → γ) (init : γ) (l l' : List κ) : Prop :=
  l ≠ l' ∧ checksum crc init l = checksum crc init l'

/-- The list `lb` of `b` goes on from the list `la` of `a` with the members of `S` between them. -/
def Linked (S : Set κ) (la : List κ) (a : κ) (lb : List κ) (b : κ) : Prop :=
  ∃ mid, lb = la ++ mid ++ [b] ∧ ∀ x, x ∈ mid ↔ x ∈ S ∧ a < x ∧ x < b

variable {crc : γ → κ → γ} {init : γ} {S S' : Set κ} {l la lb lc : List κ} {a b c : κ}

@[simp] lemma checksum_nil : checksum crc init [] = init := rfl

@[simp] lemma checksum_append_singleton :
    checksum crc init (l ++ [a]) = crc (checksum crc init l) a := by
  unfold checksum
  rw [List.foldl_append]
  rfl

lemma Linked.next (hno : ∀ x ∈ S, a < x → b ≤ x) : Linked S la a (la ++ [b]) b := by
  refine ⟨[], by rw [List.append_nil], fun x => ?_⟩
  refine iff_of_false List.not_mem_nil ?_
  rintro ⟨hx, hax, hxb⟩
  exact absurd hxb (not_lt.mpr (hno x hx hax))

/-- A key after the greatest one goes on from where that is. -/
lemma Linked.snoc (h : Linked S la a lb b) (hb : b ∈ S) (hab : a < b) (hmax : ∀ x ∈ S, x ≤ b)
    (hbc : b < c) : Linked S la a (lb ++ [c]) c := by
  obtain ⟨mid, rfl, hmid⟩ := h
  refine ⟨mid ++ [b], by simp, fun x => ?_⟩
  rw [List.mem_append, List.mem_singleton, hmid]
  constructor
  · rintro (⟨hx, hax, hxb⟩ | rfl)
    · exact ⟨hx, hax, hxb.trans hbc⟩
    · exact ⟨hb, hab, hbc⟩
  · rintro ⟨hx, hax, -⟩
    rcases (hmax x hx).lt_or_eq with hlt | heq
    · exact Or.inl ⟨hx, hax, hlt⟩
    · exact Or.inr heq

lemma Linked.congr (h : Linked S la a lb b) (hS : ∀ x, a < x → x < b → (x ∈ S ↔ x ∈ S')) :
    Linked S' la a lb b := by
  obtain ⟨mid, heq, hmid⟩ := h
  refine ⟨mid, heq, fun x => ?_⟩
  rw [hmid]
  constructor
  · rintro ⟨hx, hax, hxb⟩
    exact ⟨(hS x hax hxb).mp hx, hax, hxb⟩
  · rintro ⟨hx, hax, hxb⟩
    exact ⟨(hS x hax hxb).mpr hx, hax, hxb⟩

lemma Linked.eq_iff (h : Linked S la a lb b) :
    lb = la ++ [b] ↔ ∀ x ∈ S, ¬ (a < x ∧ x < b) := by
  obtain ⟨mid, rfl, hmid⟩ := h
  constructor
  · intro heq x hx hbetween
    have hnil : mid = [] := by simpa using heq
    have hmem : x ∈ mid := (hmid x).mpr ⟨hx, hbetween⟩
    rw [hnil] at hmem
    exact absurd hmem List.not_mem_nil
  · intro hno
    have hnil : mid = [] := by
      refine List.eq_nil_iff_forall_not_mem.mpr fun x hx => ?_
      obtain ⟨hxS, hbetween⟩ := (hmid x).mp hx
      exact hno x hxS hbetween
    rw [hnil, List.append_nil]

/-- **The checksum of a key is that made from an earlier one exactly where nothing lies between
them**, unless the checksums of two lists collide. -/
theorem Linked.checksum_eq_iff (h : Linked S la a lb b) :
    (checksum crc init lb = crc (checksum crc init la) b ↔ ∀ x ∈ S, ¬ (a < x ∧ x < b)) ∨
      Collides crc init lb (la ++ [b]) := by
  have hlast : checksum crc init (la ++ [b]) = crc (checksum crc init la) b :=
    checksum_append_singleton
  rw [← h.eq_iff, ← hlast]
  by_cases heq : lb = la ++ [b]
  · exact Or.inl (iff_of_true (congrArg _ heq) heq)
  by_cases hsum : checksum crc init lb = checksum crc init (la ++ [b])
  · exact Or.inr ⟨heq, hsum⟩
  · exact Or.inl (iff_of_false hsum heq)

end

end PhxQueue.Lib
