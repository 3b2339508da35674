import PhxQueue.Comm.FileUtil

/-!
# What a walk comes to

* `reached`               the entries the walk comes to;
* `travel_induction`      the induction on the entries that are read, for what holds of a walk;
* `OpensAll`, `doTravelDir_eq_zero_iff`
                          **the walk returns zero exactly when each directory it enters opens and closes**,
                          whatever the callbacks return;
* `Travel.Local`, `find_travelLoop_of_not_prefix`
                          the walk of a directory changes nothing outside of it.
-/

set_option linter.unusedSectionVars false

namespace PhxQueue.Comm.FileUtil
open Lib

variable {B : Type}

section
variable (t : Travel B) (errno : Op → ℤ)

/-- The walk comes to the entry at the path: up to it `readdir` works, in its directory and in those above,
its type is known, and so is theirs. -/
def reached : Path → ℕ → Dir String B → Path → Bool
  | _, _, _, [] => true
  | _, _, .nil, _ :: _ => false
  | p, i, .dot rest, m :: q => errno (.readdir t.side p i) = 0 && reached p (i + 1) rest (m :: q)
  | p, i, .file n typed _ rest, m :: q =>
    errno (.readdir t.side p i) = 0 && if m = n then typed else reached p (i + 1) rest (m :: q)
  | p, i, .sub n typed d rest, m :: q =>
    errno (.readdir t.side p i) = 0 &&
      if m = n then typed && (q.isEmpty || (t.recursive && reached (p ++ [n]) 0 d q))
      else reached p (i + 1) rest (m :: q)
  | p, i, .other n rest, m :: q =>
    errno (.readdir t.side p i) = 0 && if m = n then false else reached p (i + 1) rest (m :: q)

/-- The loop is at its end: the directory is, or `readdir` fails. -/
def Ended (p : Path) (i : ℕ) (d : Dir String B) : Prop := d = .nil ∨ errno (.readdir t.side p i) ≠ 0

/-- The induction on the entries that are read, in a directory and in those below it. -/
@[elab_as_elim]
theorem travel_induction {motive : Path → ℕ → Dir String B → Prop}
    (ended : ∀ p i d, Ended t errno p i d → motive p i d)
    (dot : ∀ p i rest, errno (.readdir t.side p i) = 0 → motive p (i + 1) rest →
      motive p i (.dot rest))
    (file : ∀ p i n typed c rest, errno (.readdir t.side p i) = 0 → motive p (i + 1) rest →
      motive p i (.file n typed c rest))
    (sub : ∀ p i n typed d rest, errno (.readdir t.side p i) = 0 → motive (p ++ [n]) 0 d →
      motive p (i + 1) rest → motive p i (.sub n typed d rest))
    (other : ∀ p i n rest, errno (.readdir t.side p i) = 0 → motive p (i + 1) rest →
      motive p i (.other n rest))
    (p : Path) (i : ℕ) (d : Dir String B) : motive p i d := by
  induction d generalizing p i with
  | nil => exact ended p i _ (Or.inl rfl)
  | dot rest ih =>
    by_cases h : errno (.readdir t.side p i) = 0
    · exact dot p i rest h (ih p (i + 1))
    · exact ended p i _ (Or.inr h)
  | file n typed c rest ih =>
    by_cases h : errno (.readdir t.side p i) = 0
    · exact file p i n typed c rest h (ih p (i + 1))
    · exact ended p i _ (Or.inr h)
  | sub n typed d rest ihd ih =>
    by_cases h : errno (.readdir t.side p i) = 0
    · exact sub p i n typed d rest h (ihd (p ++ [n]) 0) (ih p (i + 1))
    · exact ended p i _ (Or.inr h)
  | other n rest ih =>
    by_cases h : errno (.readdir t.side p i) = 0
    · exact other p i n rest h (ih p (i + 1))
    · exact ended p i _ (Or.inr h)

variable {t errno} {p : Path} {i : ℕ} {n m : String} {q : Path} {d rest : Dir String B} {typed : Bool}
variable {c : List B}

-- The lemmas below all rewrite with the equations of these two; they are made here, once.
section
attribute [local simp] travelLoop reached
end

/-! ## One entry of the loop -/

lemma travelLoop_ended (h : Ended t errno p i d) (fs : Fs String B) :
    travelLoop t errno p i d fs = (errno (.closedir t.side p), fs) := by
  rcases h with rfl | h
  · rfl
  · cases d <;> simp [travelLoop, Travel.reading, h]

section
variable (h : errno (.readdir t.side p i) = 0) (fs : Fs String B)
include h

lemma travelLoop_dot : travelLoop t errno p i (.dot rest) fs = travelLoop t errno p (i + 1) rest fs := by
  rw [travelLoop, Travel.reading, if_neg (not_not.mpr h)]

lemma travelLoop_file :
    travelLoop t errno p i (.file n typed c rest) fs =
      travelLoop t errno p (i + 1) rest (if typed then t.onFile (p ++ [n]) c fs else fs) := by
  rw [travelLoop, Travel.reading, if_neg (not_not.mpr h)]

lemma travelLoop_other :
    travelLoop t errno p i (.other n rest) fs = travelLoop t errno p (i + 1) rest fs := by
  rw [travelLoop, Travel.reading, if_neg (not_not.mpr h)]

lemma travelLoop_untyped :
    travelLoop t errno p i (.sub n false d rest) fs = travelLoop t errno p (i + 1) rest fs := by
  rw [travelLoop, Travel.reading, if_neg (not_not.mpr h), if_neg Bool.false_ne_true]

end

variable (t errno) in
def subDir (q : Path) (d : Dir String B) (fs : Fs String B) : ℤ × Fs String B :=
  t.descend errno q (t.onSubDirBefore q fs) (travelLoop t errno q 0 d (t.onSubDirBefore q fs))

lemma travelLoop_sub (h : errno (.readdir t.side p i) = 0) (fs : Fs String B) :
    travelLoop t errno p i (.sub n true d rest) fs =
      if (subDir t errno (p ++ [n]) d fs).1 ≠ 0 then
        ((subDir t errno (p ++ [n]) d fs).1,
          t.onSubDirAfter (p ++ [n]) (subDir t errno (p ++ [n]) d fs).2)
      else
        travelLoop t errno p (i + 1) rest
          (t.onSubDirAfter (p ++ [n]) (subDir t errno (p ++ [n]) d fs).2) := by
  rw [travelLoop, Travel.reading, if_neg (not_not.mpr h), if_pos rfl]
  rfl

/-! ## What is reached -/

lemma reached_ended (h : Ended t errno p i d) : reached t errno p i d (m :: q) = false := by
  rcases h with rfl | h
  · rfl
  · cases d <;> simp [reached, h]

section
variable (h : errno (.readdir t.side p i) = 0)
include h

lemma reached_dot :
    reached t errno p i (.dot rest) (m :: q) = reached t errno p (i + 1) rest (m :: q) := by
  rw [reached, decide_eq_true h, Bool.true_and]

lemma reached_file :
    reached t errno p i (.file n typed c rest) (m :: q) =
      if m = n then typed else reached t errno p (i + 1) rest (m :: q) := by
  rw [reached, decide_eq_true h, Bool.true_and]

lemma reached_sub :
    reached t errno p i (.sub n typed d rest) (m :: q) =
      if m = n then typed && (q.isEmpty || (t.recursive && reached t errno (p ++ [n]) 0 d q))
      else reached t errno p (i + 1) rest (m :: q) := by
  rw [reached, decide_eq_true h, Bool.true_and]

lemma reached_other :
    reached t errno p i (.other n rest) (m :: q) =
      if m = n then false else reached t errno p (i + 1) rest (m :: q) := by
  rw [reached, decide_eq_true h, Bool.true_and]

end

variable (t errno p i n d rest) in
/-- The first entry of the directory has the name, and `rest` is behind it. -/
structure Behind : Prop where
  fresh : n ∉ rest.names
  find_eq : ∀ m q, m ≠ n → d.find (m :: q) = rest.find (m :: q)
  reached_eq : ∀ m q, m ≠ n →
    reached t errno p i d (m :: q) = reached t errno p (i + 1) rest (m :: q)

lemma behind_file (h : errno (.readdir t.side p i) = 0) (hn : n ∉ rest.names) :
    Behind t errno p i n (.file n typed c rest) rest where
  fresh := hn
  find_eq m q hm := by rw [Dir.find, if_neg hm]
  reached_eq m q hm := by rw [reached_file h, if_neg hm]

lemma behind_sub (h : errno (.readdir t.side p i) = 0) (hn : n ∉ rest.names) :
    Behind t errno p i n (.sub n typed d rest) rest where
  fresh := hn
  find_eq m q hm := by rw [Dir.find, if_neg hm]
  reached_eq m q hm := by rw [reached_sub h, if_neg hm]

lemma behind_other (h : errno (.readdir t.side p i) = 0) (hn : n ∉ rest.names) :
    Behind t errno p i n (.other n rest) rest where
  fresh := hn
  find_eq m q hm := by rw [Dir.find, if_neg hm]
  reached_eq m q hm := by rw [reached_other h, if_neg hm]

lemma Behind.ne (hb : Behind t errno p i n d rest) (hm : m ∈ rest.names) : m ≠ n := fun h =>
  hb.fresh (h ▸ hm)

/-- Where `readdir` works and gives the types, every file and subdirectory is reached. -/
lemma reached_of_typed (hrec : t.recursive = true) (hread : ∀ p i, errno (.readdir t.side p i) = 0)
    (hd : d.Typed) {e : Entry B} (he : e ≠ .other) (hfind : d.find (m :: q) = some e) :
    reached t errno p i d (m :: q) = true := by
  induction p, i, d using travel_induction t errno generalizing m q with
  | ended p i d h =>
    obtain rfl := h.resolve_right (not_not.mpr (hread p i))
    cases hfind
  | dot p i rest h ih =>
    rw [reached_dot h]
    exact ih hd hfind
  | file p i n typed c rest h ih =>
    rw [reached_file h]
    rw [Dir.find] at hfind
    by_cases hm : m = n
    · rw [if_pos hm]
      exact hd.1
    · rw [if_neg hm] at hfind ⊢
      exact ih hd.2 hfind
  | sub p i n typed d rest h ihd ih =>
    rw [reached_sub h, hd.1, hrec]
    rw [Dir.find] at hfind
    by_cases hm : m = n
    · rw [if_pos hm] at hfind ⊢
      cases q with
      | nil => rfl
      | cons k q => exact ihd hd.2.1 hfind
    · rw [if_neg hm] at hfind ⊢
      exact ih hd.2.2 hfind
  | other p i n rest h ih =>
    rw [reached_other h]
    rw [Dir.find] at hfind
    by_cases hm : m = n
    · rw [if_pos hm] at hfind
      split at hfind
      · exact absurd (Option.some.inj hfind).symm he
      · cases hfind
    · rw [if_neg hm] at hfind ⊢
      exact ih hd hfind

/-! ## What the walk returns -/

variable (t errno) in
/-- Every directory below that the walk comes to can be opened and closed. -/
def Opens (p : Path) (i : ℕ) (d : Dir String B) : Prop :=
  ∀ m q, d.find (m :: q) = some .dir → reached t errno p i d (m :: q) = true →
    errno (.opendir t.side (p ++ m :: q)) = 0 ∧ errno (.closedir t.side (p ++ m :: q)) = 0

lemma opens_ended (h : Ended t errno p i d) : Opens t errno p i d := by
  intro m q _ hr
  rw [reached_ended h] at hr
  exact absurd hr Bool.false_ne_true

lemma opens_dot (h : errno (.readdir t.side p i) = 0) :
    Opens t errno p i (.dot rest) ↔ Opens t errno p (i + 1) rest := by
  refine forall₂_congr fun m q => ?_
  rw [Dir.find, reached_dot h]

lemma Behind.opens_iff (hb : Behind t errno p i n d rest) :
    Opens t errno p i d ↔
      (∀ q, d.find (n :: q) = some .dir → reached t errno p i d (n :: q) = true →
        errno (.opendir t.side (p ++ n :: q)) = 0 ∧ errno (.closedir t.side (p ++ n :: q)) = 0) ∧
      Opens t errno p (i + 1) rest := by
  constructor
  · intro h
    refine ⟨fun q => h n q, fun m q hdir hr => ?_⟩
    have hm := hb.ne (Dir.mem_names_of_find hdir)
    exact h m q ((hb.find_eq m q hm).trans hdir) ((hb.reached_eq m q hm).trans hr)
  · intro h m q hdir hr
    by_cases hm : m = n
    · subst hm
      exact h.1 q hdir hr
    · exact h.2 m q ((hb.find_eq m q hm).symm.trans hdir) ((hb.reached_eq m q hm).symm.trans hr)

lemma opens_file (h : errno (.readdir t.side p i) = 0) (hn : n ∉ rest.names) :
    Opens t errno p i (.file n typed c rest) ↔ Opens t errno p (i + 1) rest := by
  rw [(behind_file h hn).opens_iff]
  refine and_iff_right fun q hdir => ?_
  rw [Dir.find, if_pos rfl] at hdir
  split at hdir <;> cases hdir

lemma opens_other (h : errno (.readdir t.side p i) = 0) (hn : n ∉ rest.names) :
    Opens t errno p i (.other n rest) ↔ Opens t errno p (i + 1) rest := by
  rw [(behind_other h hn).opens_iff]
  refine and_iff_right fun q hdir => ?_
  rw [Dir.find, if_pos rfl] at hdir
  split at hdir <;> cases hdir

lemma opens_sub (hrec : t.recursive = true) (h : errno (.readdir t.side p i) = 0)
    (hn : n ∉ rest.names) :
    Opens t errno p i (.sub n typed d rest) ↔
      (typed = true →
        (errno (.opendir t.side (p ++ [n])) = 0 ∧ errno (.closedir t.side (p ++ [n])) = 0) ∧
        Opens t errno (p ++ [n]) 0 d) ∧
      Opens t errno p (i + 1) rest := by
  rw [(behind_sub h hn).opens_iff]
  refine and_congr_left fun _ => ?_
  simp only [Dir.find, reached_sub h, hrec, if_true, Bool.true_and, Bool.and_eq_true,
    Bool.or_eq_true, List.isEmpty_iff]
  constructor
  · intro hall htyped
    refine ⟨hall [] (Dir.find_root d) ⟨htyped, Or.inl rfl⟩, fun m q hdir hr => ?_⟩
    rw [List.append_assoc]
    exact hall (m :: q) hdir ⟨htyped, Or.inr hr⟩
  · intro hall q hdir hr
    cases q with
    | nil => exact (hall hr.1).1
    | cons m q =>
      have hopen := (hall hr.1).2 m q hdir (hr.2.resolve_left (List.cons_ne_nil m q))
      rwa [List.append_assoc] at hopen

lemma subDir_eq_zero_iff (hloop : ∀ fs, (travelLoop t errno q 0 d fs).1 = 0 ↔
      errno (.closedir t.side q) = 0 ∧ (t.recursive = true → Opens t errno q 0 d))
    (fs : Fs String B) :
    (subDir t errno q d fs).1 = 0 ↔
      (t.recursive = true →
        (errno (.opendir t.side q) = 0 ∧ errno (.closedir t.side q) = 0) ∧ Opens t errno q 0 d) := by
  rw [subDir, Travel.descend]
  by_cases hrec : t.recursive = true
  · rw [if_pos hrec, Travel.opening]
    by_cases hopen : errno (.opendir t.side q) = 0
    · rw [if_neg (not_not.mpr hopen), hloop]
      simp only [hrec, hopen, true_and, forall_const]
    · rw [if_pos hopen]
      exact iff_of_false hopen fun h => hopen (h hrec).1.1
  · rw [if_neg hrec]
    exact iff_of_true rfl fun h => absurd h hrec

lemma travelLoop_eq_zero_iff (hd : d.Nodup) (fs : Fs String B) :
    (travelLoop t errno p i d fs).1 = 0 ↔
      errno (.closedir t.side p) = 0 ∧ (t.recursive = true → Opens t errno p i d) := by
  induction p, i, d using travel_induction t errno generalizing fs with
  | ended p i d h =>
    rw [travelLoop_ended h]
    exact (and_iff_left fun _ => opens_ended h).symm
  | dot p i rest h ih => rw [travelLoop_dot h, ih hd, opens_dot h]
  | file p i n typed c rest h ih => rw [travelLoop_file h, ih hd.2, opens_file h hd.1]
  | other p i n rest h ih => rw [travelLoop_other h, ih hd.2, opens_other h hd.1]
  | sub p i n typed d rest h ihd ih =>
    rw [forall_congr' fun hrec => opens_sub hrec h hd.1]
    cases typed with
    | false =>
      rw [travelLoop_untyped h, ih hd.2.2]
      exact and_congr_right fun _ => forall_congr' fun _ =>
        (and_iff_right fun htyped => absurd htyped Bool.false_ne_true).symm
    | true =>
      have hsub := subDir_eq_zero_iff (ihd hd.2.1) fs
      rw [travelLoop_sub h]
      by_cases hz : (subDir t errno (p ++ [n]) d fs).1 = 0
      · rw [if_neg (not_not.mpr hz), ih hd.2.2]
        exact and_congr_right fun _ => forall_congr' fun hrec =>
          (and_iff_right fun _ => hsub.mp hz hrec).symm
      · rw [if_pos hz]
        refine iff_of_false hz fun hall => hz (hsub.mpr fun hrec => ?_)
        exact (hall.2 hrec).1 rfl

variable (t errno) in
/-- Every directory that the walk enters can be opened and closed. -/
def OpensAll (d : Dir String B) : Prop :=
  (errno (.opendir t.side []) = 0 ∧ errno (.closedir t.side []) = 0) ∧
    (t.recursive = true → Opens t errno [] 0 d)

lemma doTravelDir_eq (h : errno (.opendir t.side []) = 0) (fs : Fs String B) :
    doTravelDir t errno d fs = travelLoop t errno [] 0 d fs :=
  if_neg (not_not.mpr h)

theorem doTravelDir_eq_zero_iff (hd : d.Nodup) (fs : Fs String B) :
    (doTravelDir t errno d fs).1 = 0 ↔ OpensAll t errno d := by
  unfold OpensAll
  by_cases hopen : errno (.opendir t.side []) = 0
  · rw [doTravelDir_eq hopen, travelLoop_eq_zero_iff hd]
    simp only [hopen, true_and]
  · unfold doTravelDir Travel.opening
    rw [if_pos hopen]
    exact iff_of_false hopen fun h => hopen h.1.1

lemma subDir_eq (hrec : t.recursive = true) {fs : Fs String B} (h : (subDir t errno q d fs).1 = 0) :
    subDir t errno q d fs = travelLoop t errno q 0 d (t.onSubDirBefore q fs) := by
  unfold subDir Travel.descend Travel.opening at h ⊢
  rw [if_pos hrec] at h ⊢
  by_cases hopen : errno (.opendir t.side q) = 0
  · rw [if_neg (not_not.mpr hopen)]
  · rw [if_pos hopen] at h
    exact absurd h hopen

/-! ## What the walk changes -/

end

/-- A callback changes the entry it is called for and no other. -/
structure Travel.Local (t : Travel B) : Prop where
  file : ∀ p c fs q, q ≠ p → (t.onFile p c fs).find q = fs.find q
  before : ∀ p fs q, q ≠ p → (t.onSubDirBefore p fs).find q = fs.find q
  after : ∀ p fs q, q ≠ p → (t.onSubDirAfter p fs).find q = fs.find q

section
variable {t : Travel B} {errno : Op → ℤ} {p q : Path} {i : ℕ} {n m : String} {d : Dir String B}

lemma append_prefix_iff : p ++ [n] <+: p ++ m :: q ↔ n = m := by
  rw [List.prefix_append_right_inj, List.cons_prefix_cons]
  exact and_iff_left List.nil_prefix

lemma append_ne (hm : m ≠ n) (q : Path) : p ++ m :: q ≠ p ++ [n] := fun h =>
  hm (List.cons.inj (List.append_cancel_left h)).1

lemma append_cons_cons_ne (m k : String) (q : Path) : p ++ m :: k :: q ≠ p ++ [m] := fun h =>
  List.cons_ne_nil k q (List.cons.inj (List.append_cancel_left h)).2

lemma self_ne_append (n : String) : p ≠ p ++ [n] := by simp

lemma not_append_prefix_self (n : String) : ¬ p ++ [n] <+: p := fun h => by
  have hle := h.length_le
  rw [List.length_append, List.length_singleton] at hle
  omega

/-- What the nested loop leaves as it is, the whole subdirectory does, its own entry apart. -/
lemma find_subDir (ht : t.Local) {r : Path} (hr : r ≠ q)
    (hloop : ∀ fs, (travelLoop t errno q 0 d fs).2.find r = fs.find r) (fs : Fs String B) :
    (subDir t errno q d fs).2.find r = fs.find r := by
  rw [← ht.before q fs r hr]
  unfold subDir Travel.descend Travel.opening
  split
  · split
    · rfl
    · exact hloop _
  · rfl

/-- **The walk of a directory changes nothing outside of it**, nor the directory's own entry. -/
lemma find_travelLoop_of_not_prefix (ht : t.Local) (h : ∀ m ∈ d.names, ¬ p ++ [m] <+: q)
    (fs : Fs String B) : (travelLoop t errno p i d fs).2.find q = fs.find q := by
  induction p, i, d using travel_induction t errno generalizing fs with
  | ended p i d hend => rw [travelLoop_ended hend]
  | dot p i rest hread ih => rw [travelLoop_dot hread, ih h]
  | file p i n typed c rest hread ih =>
    have hq : q ≠ p ++ [n] := fun hq => h n List.mem_cons_self (hq ▸ List.prefix_rfl)
    rw [travelLoop_file hread, ih fun m hm => h m (List.mem_cons_of_mem _ hm)]
    split
    · exact ht.file _ _ _ _ hq
    · rfl
  | other p i n rest hread ih =>
    rw [travelLoop_other hread, ih fun m hm => h m (List.mem_cons_of_mem _ hm)]
  | sub p i n typed d rest hread ihd ih =>
    have hn := h n List.mem_cons_self
    have hq : q ≠ p ++ [n] := fun hq => hn (hq ▸ List.prefix_rfl)
    have hrest := ih fun m hm => h m (List.mem_cons_of_mem _ hm)
    cases typed with
    | false => rw [travelLoop_untyped hread, hrest]
    | true =>
      have hsub : (t.onSubDirAfter (p ++ [n]) (subDir t errno (p ++ [n]) d fs).2).find q =
          fs.find q := by
        rw [ht.after _ _ _ hq,
          find_subDir ht hq (ihd fun m _ hm => hn ((List.prefix_append _ _).trans hm))]
      rw [travelLoop_sub hread]
      split
      · exact hsub
      · rw [hrest, hsub]

lemma find_travelLoop_self (ht : t.Local) (d : Dir String B) (fs : Fs String B) :
    (travelLoop t errno p i d fs).2.find p = fs.find p :=
  find_travelLoop_of_not_prefix ht (fun m _ => not_append_prefix_self m) fs

lemma find_travelLoop_of_not_mem (ht : t.Local) (hm : m ∉ d.names) (q : Path) (fs : Fs String B) :
    (travelLoop t errno p i d fs).2.find (p ++ m :: q) = fs.find (p ++ m :: q) := by
  refine find_travelLoop_of_not_prefix ht (fun k hk h => ?_) fs
  have hkm : k = m := append_prefix_iff.mp h
  exact hm (hkm ▸ hk)

lemma hasParent_travelLoop_of_not_mem (ht : t.Local) (hm : m ∉ d.names) (q : Path)
    (fs : Fs String B) :
    (travelLoop t errno p i d fs).2.HasParent (p ++ m :: q) ↔ fs.HasParent (p ++ m :: q) := by
  unfold Fs.HasParent
  rw [List.dropLast_append_of_ne_nil (List.cons_ne_nil m q)]
  cases q with
  | nil =>
    show _ ∨ Fs.find _ (p ++ []) = _ ↔ _ ∨ Fs.find _ (p ++ []) = _
    rw [List.append_nil, find_travelLoop_self ht]
  | cons k q => rw [List.dropLast_cons_cons, find_travelLoop_of_not_mem ht hm]

lemma find_subDir_self (ht : t.Local) (d : Dir String B) (fs : Fs String B) :
    (subDir t errno q d fs).2.find q = (t.onSubDirBefore q fs).find q := by
  unfold subDir Travel.descend Travel.opening
  split
  · split
    · rfl
    · exact find_travelLoop_self ht d _
  · rfl

lemma find_subDir_above (ht : t.Local) (n : String) (d : Dir String B) (fs : Fs String B) :
    (subDir t errno (p ++ [n]) d fs).2.find p = fs.find p := by
  refine find_subDir ht (self_ne_append n) (fun fs => ?_) fs
  exact find_travelLoop_of_not_prefix ht
    (fun k _ h => not_append_prefix_self n ((List.prefix_append _ _).trans h)) fs

lemma find_subDir_of_ne (ht : t.Local) (hm : m ≠ n) (d : Dir String B) (q : Path) (fs : Fs String B) :
    (t.onSubDirAfter (p ++ [n]) (subDir t errno (p ++ [n]) d fs).2).find (p ++ m :: q) =
      fs.find (p ++ m :: q) := by
  have hprefix : ¬ p ++ [n] <+: p ++ m :: q := fun h => hm (append_prefix_iff.mp h).symm
  rw [ht.after _ _ _ (append_ne hm q)]
  refine find_subDir ht (append_ne hm q) (fun fs => ?_) fs
  exact find_travelLoop_of_not_prefix ht
    (fun k _ h => hprefix ((List.prefix_append _ _).trans h)) fs

end

section
variable (errno : Op → ℤ) (recursive : Bool)

lemma copyTravel_local : (copyTravel errno recursive : Travel B).Local where
  file p c fs q hq := by
    show (copyFile errno p c fs).2.find q = _
    rw [find_copyFile, if_neg fun h => hq h.1]
  before p fs q hq := by
    show (copyDir errno p fs).2.find q = _
    rw [find_copyDir, if_neg fun h => hq h.1]
  after p fs q _ := rfl

lemma removeTravel_local : (removeTravel errno recursive : Travel B).Local where
  file p c fs q hq := by
    show (removeFile errno p fs).2.find q = _
    rw [find_removeFile, if_neg fun h => hq h.1]
  before p fs q _ := rfl
  after p fs q hq := by
    show (removeDir errno p fs).2.find q = _
    rw [find_removeDir, if_neg fun h => hq h.1]

end

end PhxQueue.Comm.FileUtil
