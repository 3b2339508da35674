import PhxQueue.Lib.OrderedMap

/-!
# Hash rings

A ring of consistent hashing: points, each with a key and an owner, in the order of the keys.  A
hash belongs to the owner of the next point, and after the last point the first one is next.  Of
two points with one key the ring has the one that came first.

* `owner`             the owner of a hash, in a map of points;
* `Next`              the next key of a set of keys, in its own terms;
* `owner_eq_some_iff` the owner of a hash is at the next key;
* `owner_build_of_insert`   **points of one owner put anywhere into the list take hashes over, and
  move none between the others**;
* `FirstLeast`        of owners with a ring each, the first one whose next key is least;
* `FirstLeast.owner_of_unmixed`, `FirstLeast.ne_of_mixed`   **it is the owner on the common ring
  exactly when all of them have a key from the hash on, or none has**.
-/

set_option linter.unusedSectionVars false

namespace PhxQueue.Lib

section
variable {κ ν : Type} [LinearOrder κ]

/-! ## Next keys -/

/-- `k` is the next key from `h` on, around the ring. -/
def Next (K : Set κ) (h k : κ) : Prop :=
  k ∈ K ∧ ((h ≤ k ∧ ∀ k' ∈ K, h ≤ k' → k ≤ k') ∨ ((∀ k' ∈ K, k' < h) ∧ ∀ k' ∈ K, k ≤ k'))

variable {K K' : Set κ} {h k k' : κ}

lemma Next.unique (hk : Next K h k) (hk' : Next K h k') : k = k' := by
  obtain ⟨hmem, hk⟩ := hk
  obtain ⟨hmem', hk'⟩ := hk'
  rcases hk with ⟨hle, hmin⟩ | ⟨hlt, hmin⟩
  · rcases hk' with ⟨hle', hmin'⟩ | ⟨hlt', _⟩
    · exact le_antisymm (hmin k' hmem' hle') (hmin' k hmem hle)
    · exact absurd (hlt' k hmem) (not_lt.mpr hle)
  · rcases hk' with ⟨hle', _⟩ | ⟨_, hmin'⟩
    · exact absurd (hlt k' hmem') (not_lt.mpr hle')
    · exact le_antisymm (hmin k' hmem') (hmin' k hmem)

lemma Next.anti (hsub : K' ⊆ K) (hk : Next K h k) (hmem : k ∈ K') : Next K' h k := by
  refine ⟨hmem, ?_⟩
  rcases hk.2 with ⟨hle, hmin⟩ | ⟨hlt, hmin⟩
  · exact Or.inl ⟨hle, fun k' hk' => hmin k' (hsub hk')⟩
  · exact Or.inr ⟨fun k' hk' => hlt k' (hsub hk'), fun k' hk' => hmin k' (hsub hk')⟩

/-! ## The ring -/

namespace OrderedMap

/-- The point whose owner has `h`, in a ring of points with their owners. -/
def owner (r : OrderedMap κ ν) (h : κ) : Option (κ × ν) := (r.lowerBound h).or r.entries.head?

variable {r : OrderedMap κ ν} {v : ν} {l : List (κ × ν)}

theorem owner_eq_some_iff : r.owner h = some (k, v) ↔ (k, v) ∈ r.entries ∧ Next r.keys h k := by
  have hspec : ∀ {k v}, r.owner h = some (k, v) → (k, v) ∈ r.entries ∧ Next r.keys h k := by
    intro k v hown
    unfold owner at hown
    cases hlow : r.lowerBound h with
    | some x =>
      rw [hlow, Option.some_or, Option.some.injEq] at hown
      subst hown
      obtain ⟨hmem, hle, hmin⟩ := search_spec hlow
      refine ⟨hmem, ⟨v, hmem⟩, Or.inl ⟨of_decide_eq_true hle, ?_⟩⟩
      intro k' hk' hle'
      exact hmin k' hk' (decide_eq_true hle')
    | none =>
      rw [hlow, Option.none_or] at hown
      have hmem := List.mem_of_mem_head? hown
      refine ⟨hmem, ⟨v, hmem⟩, Or.inr ⟨?_, head_le hown⟩⟩
      intro k' hk'
      exact not_le.mp (of_decide_eq_false (search_eq_none.mp hlow k' hk'))
  refine ⟨hspec, ?_⟩
  rintro ⟨hmem, hnext⟩
  cases hown : r.owner h with
  | none =>
    unfold owner at hown
    rw [Option.or_eq_none_iff, List.head?_eq_none_iff] at hown
    rw [hown.2] at hmem
    exact absurd hmem List.not_mem_nil
  | some x =>
    obtain ⟨hmem', hnext'⟩ := hspec hown
    obtain rfl : x.1 = k := hnext'.unique hnext
    rw [← r.sorted.value_unique hmem' hmem]

lemma exists_owner (hne : r.entries ≠ []) (h : κ) : ∃ x, r.owner h = some x := by
  obtain ⟨x, xs, hentries⟩ := List.exists_cons_of_ne_nil hne
  unfold owner
  rw [hentries, List.head?_cons]
  cases r.lowerBound h with
  | none => exact ⟨x, rfl⟩
  | some y => exact ⟨y, rfl⟩

lemma owner_eq_none (hr : r.entries = []) (h : κ) : r.owner h = none := by
  unfold owner lowerBound search
  rw [hr]
  rfl

/-- The owner of a hash has a point in the list. -/
lemma mem_of_owner_build (hown : (build l).owner h = some (k, v)) : (k, v) ∈ l :=
  List.mem_of_find?_eq_some (mem_build.mp (owner_eq_some_iff.mp hown).1)

/-- **New points of one owner leave a hash where it is, or take it.** -/
theorem owner_build_of_insert {before new after : List (κ × ν)} {a : ν}
    (hnew : ∀ x ∈ new, x.2 = a) (hown : (build (before ++ new ++ after)).owner h = some (k, v))
    (hv : v ≠ a) : (build (before ++ after)).owner h = some (k, v) := by
  obtain ⟨hmem, hnext⟩ := owner_eq_some_iff.mp hown
  rw [mem_build] at hmem
  -- the first point of the key is not a new one, so it is the first one without them
  have hfirst : ((before ++ after).find? fun x => x.1 = k) = some (k, v) := by
    rw [List.find?_append, List.find?_append] at hmem
    rw [List.find?_append]
    cases hbefore : before.find? fun x => x.1 = k with
    | some x => rwa [hbefore, Option.some_or, Option.some_or] at hmem
    | none =>
      rw [hbefore, Option.none_or] at hmem
      cases hnone : new.find? fun x => x.1 = k with
      | some x =>
        rw [hnone, Option.some_or, Option.some.injEq] at hmem
        have hx := hnew x (List.mem_of_find?_eq_some hnone)
        rw [hmem] at hx
        exact absurd hx hv
      | none => rwa [hnone, Option.none_or] at hmem
  have hmem' := mem_build.mpr hfirst
  refine owner_eq_some_iff.mpr ⟨hmem', hnext.anti ?_ ⟨v, hmem'⟩⟩
  intro k' hk'
  obtain ⟨x, hx, rfl⟩ := mem_keys_build.mp hk'
  refine mem_keys_build.mpr ⟨x, ?_, rfl⟩
  rcases List.mem_append.mp hx with hx | hx
  · exact List.mem_append_left _ (List.mem_append_left _ hx)
  · exact List.mem_append_right _ hx

/-! ## Owners with a ring each -/

/-- The first of some owners whose next key, on a ring of its own, is least. -/
structure FirstLeast (owners : List ν) (points : ν → List (κ × ν)) (h : κ) (a : ν) (k : κ) :
    Prop where
  owner : (build (points a)).owner h = some (k, a)
  split : ∃ before after, owners = before ++ a :: after ∧
    (∀ b ∈ before, ∀ x, (build (points b)).owner h = some x → k < x.1) ∧
    ∀ b ∈ after, ∀ x, (build (points b)).owner h = some x → k ≤ x.1

/-- All owners with points have one from `h` on, or none has. -/
def Unmixed (owners : List ν) (points : ν → List (κ × ν)) (h : κ) : Prop :=
  (∀ a ∈ owners, points a ≠ [] → ∃ x ∈ points a, h ≤ x.1) ∨
    ∀ a ∈ owners, ∀ x ∈ points a, x.1 < h

section
variable {owners : List ν} {points : ν → List (κ × ν)} {a : ν}

lemma FirstLeast.mem (hl : FirstLeast owners points h a k) : a ∈ owners := by
  obtain ⟨before, after, rfl, _⟩ := hl.split
  simp

lemma FirstLeast.le (hl : FirstLeast owners points h a k) {b : ν} (hb : b ∈ owners) {x : κ × ν}
    (hx : (build (points b)).owner h = some x) : k ≤ x.1 := by
  obtain ⟨before, after, rfl, hbefore, hafter⟩ := hl.split
  rcases List.mem_append.mp hb with hb | hb
  · exact (hbefore b hb x hx).le
  · rcases List.mem_cons.mp hb with rfl | hb
    · rw [hl.owner] at hx
      cases hx
      exact le_rfl
    · exact hafter b hb x hx

/-- An owner with points has a next key, which is at most each key on the same side of `h`. -/
lemma exists_next_le {x : κ × ν} (hx : x ∈ points a)
    (hside : h ≤ x.1 ∨ ∀ y ∈ points a, y.1 < h) :
    ∃ y, (build (points a)).owner h = some y ∧ y.1 ≤ x.1 := by
  obtain ⟨y, hy⟩ := exists_owner (build_entries_ne_nil (List.ne_nil_of_mem hx)) h
  refine ⟨y, hy, ?_⟩
  obtain ⟨hmem, hnext⟩ := owner_eq_some_iff.mp hy
  have hkey : x.1 ∈ (build (points a)).keys := mem_keys_build.mpr ⟨x, hx, rfl⟩
  rcases hnext.2 with ⟨hle, hmin⟩ | ⟨_, hmin⟩
  · rcases hside with hge | hlt
    · exact hmin x.1 hkey hge
    · obtain ⟨z, hz, hzk⟩ := mem_keys_build.mp hnext.1
      exact absurd (hlt z hz) (not_lt.mpr (hzk ▸ hle))
  · exact hmin x.1 hkey

/-- The next keys of the owners, on the side of the hash where theirs are. -/
lemma FirstLeast.le_of_side (hl : FirstLeast owners points h a k) {b : ν} (hb : b ∈ owners)
    {x : κ × ν} (hx : x ∈ points b) (hside : h ≤ x.1 ∨ ∀ y ∈ points b, y.1 < h) : k ≤ x.1 := by
  obtain ⟨y, hy, hle⟩ := exists_next_le hx hside
  exact (hl.le hb hy).trans hle

/-- The key is next on the common ring when the owners are not mixed. -/
lemma FirstLeast.next_of_unmixed (hl : FirstLeast owners points h a k)
    (hmix : Unmixed owners points h) : Next (build (owners.flatMap points)).keys h k := by
  obtain ⟨hmem, hnext⟩ := owner_eq_some_iff.mp hl.owner
  obtain ⟨z, hz, rfl⟩ := mem_keys_build.mp hnext.1
  refine ⟨mem_keys_build.mpr ⟨z, List.mem_flatMap.mpr ⟨a, hl.mem, hz⟩, rfl⟩, ?_⟩
  rcases hmix with hall | hnone
  · left
    obtain ⟨w, hw, hle⟩ := hall a hl.mem (List.ne_nil_of_mem hz)
    rcases hnext.2 with ⟨hge, _⟩ | ⟨hno, _⟩
    · refine ⟨hge, fun k' hk' hle' => ?_⟩
      obtain ⟨x, hx, rfl⟩ := mem_keys_build.mp hk'
      obtain ⟨b, hb, hx⟩ := List.mem_flatMap.mp hx
      exact hl.le_of_side hb hx (.inl hle')
    · exact absurd (hno w.1 (mem_keys_build.mpr ⟨w, hw, rfl⟩)) (not_lt.mpr hle)
  · right
    constructor
    · intro k' hk'
      obtain ⟨x, hx, rfl⟩ := mem_keys_build.mp hk'
      obtain ⟨b, hb, hx⟩ := List.mem_flatMap.mp hx
      exact hnone b hb x hx
    · intro k' hk'
      obtain ⟨x, hx, rfl⟩ := mem_keys_build.mp hk'
      obtain ⟨b, hb, hx⟩ := List.mem_flatMap.mp hx
      exact hl.le_of_side hb hx (.inr (hnone b hb))

/-- **It is the owner on the common ring** when the owners are not mixed. -/
theorem FirstLeast.owner_of_unmixed (hl : FirstLeast owners points h a k)
    (hmix : Unmixed owners points h) :
    (build (owners.flatMap points)).owner h = some (k, a) := by
  have hnext := hl.next_of_unmixed hmix
  refine owner_eq_some_iff.mpr ⟨mem_build.mpr ?_, hnext⟩
  obtain ⟨before, after, rfl, hbefore, _⟩ := hl.split
  -- the owners before it do not have the key
  have hno : ((before.flatMap points).find? fun x => x.1 = k) = none := by
    rw [List.find?_eq_none]
    intro x hx heq
    obtain ⟨b, hb, hx⟩ := List.mem_flatMap.mp hx
    have heq : x.1 = k := of_decide_eq_true heq
    have hside : h ≤ x.1 ∨ ∀ y ∈ points b, y.1 < h := by
      rcases hnext.2 with ⟨hge, _⟩ | ⟨hlt, _⟩
      · exact .inl (heq ▸ hge)
      · right
        intro y hy
        apply hlt
        rw [mem_keys_build]
        exact ⟨y, List.mem_flatMap.mpr ⟨b, List.mem_append_left _ hb, hy⟩, rfl⟩
    obtain ⟨y, hy, hle⟩ := exists_next_le hx hside
    exact absurd (hbefore b hb y hy) (not_lt.mpr (heq ▸ hle))
  rw [List.flatMap_append, List.find?_append, hno, Option.none_or, List.flatMap_cons,
    List.find?_append, mem_build.mp (owner_eq_some_iff.mp hl.owner).1, Option.some_or]

/-- **It is another one** when the owners are mixed. -/
theorem FirstLeast.ne_of_mixed (hl : FirstLeast owners points h a k)
    (hpoints : ∀ b ∈ owners, ∀ x ∈ points b, x.2 = b) (hmix : ¬ Unmixed owners points h)
    (hown : (build (owners.flatMap points)).owner h = some (k', v)) : v ≠ a := by
  rintro rfl
  unfold Unmixed at hmix
  push Not at hmix
  obtain ⟨⟨b, hb, hne, hlt⟩, c, hc, x, hx, hge⟩ := hmix
  -- the owner on the common ring has a key from `h` on
  obtain ⟨hmem, hnext⟩ := owner_eq_some_iff.mp hown
  have hk' : h ≤ k' := by
    rcases hnext.2 with ⟨hle, _⟩ | ⟨hno, _⟩
    · exact hle
    · exact absurd (hno x.1 (mem_keys_build.mpr ⟨x, List.mem_flatMap.mpr ⟨c, hc, hx⟩, rfl⟩))
        (not_lt.mpr hge)
  obtain ⟨d, hd, hpoint⟩ := List.mem_flatMap.mp (mem_of_owner_build hown)
  obtain rfl : v = d := hpoints d hd _ hpoint
  -- so its least key is one from `h` on, and `b` has a smaller one
  have hk : h ≤ k := by
    rcases (owner_eq_some_iff.mp hl.owner).2.2 with ⟨hle, _⟩ | ⟨hno, _⟩
    · exact hle
    · exact absurd (hno k' (mem_keys_build.mpr ⟨_, hpoint, rfl⟩)) (not_lt.mpr hk')
  obtain ⟨y, hy⟩ := List.exists_mem_of_ne_nil _ hne
  have hle := hl.le_of_side hb hy (.inr hlt)
  exact absurd (hlt y hy) (not_lt.mpr (hk.trans hle))

end

end OrderedMap

end

end PhxQueue.Lib
