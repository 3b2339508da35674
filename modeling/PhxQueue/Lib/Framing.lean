import Mathlib.Tactic

/-!
# Messages of one length

Messages are written one after another, each as `n` bytes, into a stream that is read in pieces.

* `prefix_of_stream`   what has been read whole is what was written, in order;
* `rest_of_stream`     and what is still to be read are the messages after it;
* `length_rest`        so that there is something to read while a message is missing.
-/

set_option linter.unusedSectionVars false

namespace PhxQueue.Lib.Framing

section
variable {α β : Type*} {encode : α → List β} {n : ℕ} (hlen : ∀ a, (encode a).length = n)
include hlen

lemma length_flatMap (as : List α) : (as.flatMap encode).length = as.length * n := by
  induction as with
  | nil => exact (Nat.zero_mul n).symm
  | cons a as ih =>
    rw [List.flatMap_cons, List.length_append, hlen, ih, List.length_cons, Nat.succ_mul, Nat.add_comm]

variable (hinj : Function.Injective encode)
include hinj

/-- One stream, with `as` written whole and `bs` read whole, and less than a message after `as`. -/
theorem prefix_of_stream {as bs : List α} {p q : List β}
    (h : as.flatMap encode ++ p = bs.flatMap encode ++ q) (hp : p.length < n) : bs <+: as := by
  induction bs generalizing as with
  | nil => exact List.nil_prefix
  | cons b bs ih =>
    rw [List.flatMap_cons, List.append_assoc] at h
    cases as with
    | nil =>
      have hlong := congrArg List.length h
      rw [List.length_append, List.length_append, hlen] at hlong
      simp only [List.flatMap_nil, List.length_nil] at hlong
      omega
    | cons a as =>
      rw [List.flatMap_cons, List.append_assoc] at h
      obtain ⟨hab, hrest⟩ := List.append_inj h ((hlen a).trans (hlen b).symm)
      rw [hinj hab]
      exact (List.prefix_cons_inj b).mpr (ih hrest)

theorem rest_of_stream {as bs : List α} {p q : List β}
    (h : as.flatMap encode ++ p = bs.flatMap encode ++ q) (hp : p.length < n) :
    q = (as.drop bs.length).flatMap encode ++ p := by
  obtain ⟨cs, rfl⟩ := prefix_of_stream hlen hinj h hp
  rw [List.flatMap_append, List.append_assoc] at h
  rw [List.drop_left]
  exact (List.append_cancel_left h).symm

theorem length_rest {as bs : List α} {p q : List β}
    (h : as.flatMap encode ++ p = bs.flatMap encode ++ q) (hp : p.length < n) :
    q.length = (as.length - bs.length) * n + p.length := by
  rw [rest_of_stream hlen hinj h hp, List.length_append, length_flatMap hlen, List.length_drop]

end

end PhxQueue.Lib.Framing
