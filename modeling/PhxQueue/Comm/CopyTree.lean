import PhxQueue.Comm.TravelDir

/-!
# Copying a directory tree

What `RecursiveCopyDir` leaves at each path of the tree it copies, and when that is the whole tree.

* `landed`                what the copy of one entry leaves at its path;
* `find_copyLoop`         of the walk, path by path;
* `Complete`              every file and subdirectory is there, with its bytes;
* `Arrives`, `InPlace`    the copy of one entry succeeds, or is not needed;
* `recursiveCopyDir_complete_iff`
                          **a copy that returns zero is complete exactly when every entry is in place**;
* `recursiveCopyDir_of_no_error`
                          as every one is when nothing fails.
-/

set_option linter.unusedSectionVars false

namespace PhxQueue.Comm.FileUtil
open Lib

variable {B : Type}

section
variable (errno : Op → ℤ)

/-- What the copy of an entry leaves at its path, from what was there. -/
def landed (p : Path) (hasParent : Prop) [Decidable hasParent] (before : Option (Entry B)) :
    Entry B → Option (Entry B)
  | .dir =>
    if (errno (.stat p) = 0 ∧ errno (.mkdir p) = 0) ∧ before = none ∧ hasParent then some .dir
    else before
  | .file c =>
    if errno (.openDst p) = 0 ∧ hasParent ∧ before ≠ some .dir ∧ before ≠ some .other then
      some (.file (if errno (.openSrc p) = 0 then copied errno p 0 c else []))
    else before
  | .other => before

variable {errno}

lemma landed_congr {p : Path} {h h' : Prop} [Decidable h] [Decidable h'] (hh : h ↔ h')
    {before before' : Option (Entry B)} (hbefore : before = before') (e : Entry B) :
    landed errno p h before e = landed errno p h' before' e := by
  subst hbefore
  cases e <;> simp only [landed, hh]

lemma find_copyDir_self (p : Path) (fs : Fs String B) :
    (copyDir errno p fs).2.find p = landed errno p (fs.HasParent p) (fs.find p) .dir := by
  rw [find_copyDir, landed]
  simp only [true_and]

lemma find_copyFile_self (p : Path) (c : List B) (fs : Fs String B) :
    (copyFile errno p c fs).2.find p = landed errno p (fs.HasParent p) (fs.find p) (.file c) := by
  rw [find_copyFile, landed]
  simp only [true_and]
  rfl

variable (errno) in
/-- A walk that returns zero leaves at each path of the tree what the copy of the entry there does. -/
def Lands (recursive : Bool) (p : Path) (i : ℕ) (d : Dir String B) : Prop :=
  ∀ fs, (travelLoop (copyTravel errno recursive) errno p i d fs).1 = 0 →
    ∀ m q e, d.find (m :: q) = some e →
      (travelLoop (copyTravel errno recursive) errno p i d fs).2.find (p ++ m :: q) =
        if reached (copyTravel errno recursive : Travel B) errno p i d (m :: q) = true then
          landed errno (p ++ m :: q)
            ((travelLoop (copyTravel errno recursive) errno p i d fs).2.HasParent (p ++ m :: q))
            (fs.find (p ++ m :: q)) e
        else fs.find (p ++ m :: q)

variable {recursive : Bool} {p : Path} {i : ℕ}

lemma find_copySubDir {d : Dir String B} {m : String} (hd : Lands errno recursive (p ++ [m]) 0 d)
    {fs : Fs String B}
    (hret : (subDir (copyTravel errno recursive) errno (p ++ [m]) d fs).1 = 0) {q : Path} {e : Entry B}
    (hfind : d.find q = some e) :
    (subDir (copyTravel errno recursive) errno (p ++ [m]) d fs).2.find (p ++ m :: q) =
      if (q.isEmpty || (recursive &&
          reached (copyTravel errno recursive : Travel B) errno (p ++ [m]) 0 d q)) = true then
        landed errno (p ++ m :: q)
          ((subDir (copyTravel errno recursive) errno (p ++ [m]) d fs).2.HasParent (p ++ m :: q))
          (fs.find (p ++ m :: q)) e
      else fs.find (p ++ m :: q) := by
  have ht : (copyTravel errno recursive : Travel B).Local := copyTravel_local errno recursive
  cases q with
  | nil =>
    rw [Dir.find_root] at hfind
    have he : e = .dir := (Option.some.inj hfind).symm
    subst he
    rw [find_subDir_self ht]
    show (copyDir errno (p ++ [m]) fs).2.find (p ++ [m]) = _
    rw [find_copyDir_self]
    refine landed_congr ?_ rfl _
    rw [Fs.hasParent_append, Fs.hasParent_append, find_subDir_above ht]
  | cons k q =>
    have hpath : p ++ m :: k :: q = p ++ [m] ++ k :: q := List.append_cons p m (k :: q)
    have hmade : ((copyTravel errno recursive).onSubDirBefore (p ++ [m]) fs).find (p ++ m :: k :: q) =
        fs.find (p ++ m :: k :: q) :=
      ht.before _ _ _ (append_cons_cons_ne m k q)
    cases recursive with
    | false =>
      show ((copyTravel errno false).onSubDirBefore (p ++ [m]) fs).find (p ++ m :: k :: q) = _
      rw [hmade]
      rfl
    | true =>
      have heq := subDir_eq (t := copyTravel errno true) rfl hret
      rw [heq] at hret ⊢
      rw [← hmade, hpath]
      exact hd _ hret k q e hfind

lemma find_copyFileEntry {n : String} {typed : Bool} {c : List B} {rest : Dir String B}
    (hn : n ∉ rest.names) (fs : Fs String B) :
    (travelLoop (copyTravel errno recursive) errno p (i + 1) rest
        (if typed then (copyTravel errno recursive).onFile (p ++ [n]) c fs else fs)).2.find (p ++ [n]) =
      if typed = true then
        landed errno (p ++ [n])
          ((travelLoop (copyTravel errno recursive) errno p (i + 1) rest
            (if typed then (copyTravel errno recursive).onFile (p ++ [n]) c fs else fs)).2.HasParent
              (p ++ [n]))
          (fs.find (p ++ [n])) (.file c)
      else fs.find (p ++ [n]) := by
  have ht : (copyTravel errno recursive : Travel B).Local := copyTravel_local errno recursive
  rw [find_travelLoop_of_not_mem ht hn]
  cases typed with
  | false => rfl
  | true =>
    have hparent : (travelLoop (copyTravel errno recursive) errno p (i + 1) rest
        (copyFile errno (p ++ [n]) c fs).2).2.HasParent (p ++ [n]) ↔ fs.HasParent (p ++ [n]) := by
      rw [hasParent_travelLoop_of_not_mem ht hn, Fs.hasParent_append, Fs.hasParent_append,
        find_copyFile, if_neg fun h => self_ne_append n h.1]
    show (copyFile errno (p ++ [n]) c fs).2.find (p ++ [n]) = _
    rw [find_copyFile_self]
    exact landed_congr hparent.symm rfl _

/-- **What the walk leaves at a path of the tree.** -/
lemma lands {d : Dir String B} (hd : d.Nodup) : Lands errno recursive p i d := by
  have ht : (copyTravel errno recursive : Travel B).Local := copyTravel_local errno recursive
  induction p, i, d using travel_induction (copyTravel errno recursive) errno with
  | ended p i d h =>
    intro fs _ m q e _
    rw [travelLoop_ended h, reached_ended h, if_neg Bool.false_ne_true]
  | dot p i rest h ih =>
    intro fs hret m q e hfind
    rw [travelLoop_dot h] at hret ⊢
    rw [reached_dot h]
    exact ih hd fs hret m q e hfind
  | other p i n rest h ih =>
    intro fs hret m q e hfind
    rw [travelLoop_other h] at hret ⊢
    by_cases hm : m = n
    · subst hm
      rw [reached_other h, if_pos rfl, if_neg Bool.false_ne_true]
      exact find_travelLoop_of_not_mem ht hd.1 q fs
    · have hb := behind_other h hd.1
      rw [hb.find_eq m q hm] at hfind
      rw [hb.reached_eq m q hm]
      exact ih hd.2 fs hret m q e hfind
  | file p i n typed c rest h ih =>
    intro fs hret m q e hfind
    rw [travelLoop_file h] at hret ⊢
    by_cases hm : m = n
    · subst hm
      rw [Dir.find, if_pos rfl] at hfind
      rw [reached_file h, if_pos rfl]
      by_cases hq : q = []
      · subst hq
        rw [if_pos rfl] at hfind
        have he : e = .file c := (Option.some.inj hfind).symm
        subst he
        exact find_copyFileEntry hd.1 fs
      · rw [if_neg hq] at hfind
        cases hfind
    · have hb : Behind _ errno p i n (.file n typed c rest) rest := behind_file h hd.1
      have hbefore : (if typed = true then (copyTravel errno recursive).onFile (p ++ [n]) c fs
          else fs).find (p ++ m :: q) = fs.find (p ++ m :: q) := by
        split
        · exact ht.file _ _ _ _ (append_ne hm q)
        · rfl
      rw [hb.find_eq m q hm] at hfind
      rw [hb.reached_eq m q hm, ih hd.2 _ hret m q e hfind, hbefore]
  | sub p i n typed d rest h ihd ih =>
    intro fs hret m q e hfind
    cases typed with
    | false =>
      rw [travelLoop_untyped h] at hret ⊢
      by_cases hm : m = n
      · subst hm
        rw [reached_sub h, if_pos rfl, Bool.false_and, if_neg Bool.false_ne_true]
        exact find_travelLoop_of_not_mem ht hd.1 q fs
      · have hb : Behind _ errno p i n (.sub n false d rest) rest := behind_sub h hd.1
        rw [hb.find_eq m q hm] at hfind
        rw [hb.reached_eq m q hm]
        exact ih hd.2.2 fs hret m q e hfind
    | true =>
      rw [travelLoop_sub h] at hret ⊢
      by_cases hz : (subDir (copyTravel errno recursive) errno (p ++ [n]) d fs).1 = 0
      · rw [if_neg (not_not.mpr hz)] at hret ⊢
        by_cases hm : m = n
        · subst hm
          rw [Dir.find, if_pos rfl] at hfind
          rw [reached_sub h, if_pos rfl, find_travelLoop_of_not_mem ht hd.1, Bool.true_and]
          refine (find_copySubDir (ihd hd.2.1) hz hfind).trans (if_congr Iff.rfl ?_ rfl)
          exact landed_congr (hasParent_travelLoop_of_not_mem ht hd.1 q _).symm rfl _
        · have hb : Behind _ errno p i n (.sub n true d rest) rest := behind_sub h hd.1
          rw [hb.find_eq m q hm] at hfind
          rw [hb.reached_eq m q hm, ih hd.2.2 _ hret m q e hfind, find_subDir_of_ne ht hm]
      · rw [if_pos hz] at hret
        exact absurd hret hz

/-! ## Complete copies -/

/-- Every regular file and every subdirectory of the tree is there, with the same bytes. -/
def Complete (d : Dir String B) (fs : Fs String B) : Prop :=
  ∀ m q e, d.find (m :: q) = some e → e ≠ .other → fs.find (m :: q) = some e

variable (errno) in
/-- The copy of the entry, onto what is at its path before, leaves the entry there. -/
def Arrives (p : Path) (before : Option (Entry B)) : Entry B → Prop
  | .dir => before = some .dir ∨ (before = none ∧ errno (.stat p) = 0 ∧ errno (.mkdir p) = 0)
  | .file c =>
    if errno (.openDst p) = 0 ∧ before ≠ some .dir ∧ before ≠ some .other then
      c = [] ∨ (errno (.openSrc p) = 0 ∧
        ∀ j < c.length, errno (.read p j) = 0 ∧ errno (.write p j) = 0)
    else before = some (.file c)
  | .other => True

variable (errno) in
/-- Of every file and subdirectory that the walk comes to the copy arrives, and those that it does not
come to are there before. -/
def InPlace (recursive : Bool) (d : Dir String B) (before : Path → Option (Entry B)) : Prop :=
  ∀ m q e, d.find (m :: q) = some e → e ≠ .other →
    if reached (copyTravel errno recursive : Travel B) errno [] 0 d (m :: q) = true then
      Arrives errno (m :: q) (before (m :: q)) e
    else before (m :: q) = some e

lemma inPlace_congr {d : Dir String B} {before before' : Path → Option (Entry B)}
    (h : ∀ m q, before (m :: q) = before' (m :: q)) :
    InPlace errno recursive d before ↔ InPlace errno recursive d before' := by
  refine forall₂_congr fun m q => ?_
  rw [h]

lemma landed_eq_some_iff {hasParent : Prop} [Decidable hasParent] (h : hasParent)
    {before : Option (Entry B)} {e : Entry B} (he : e ≠ .other) :
    landed errno p hasParent before e = some e ↔ Arrives errno p before e := by
  cases e with
  | other => exact absurd rfl he
  | dir =>
    rw [landed, Arrives]
    by_cases hmade : (errno (.stat p) = 0 ∧ errno (.mkdir p) = 0) ∧ before = none ∧ hasParent
    · rw [if_pos hmade]
      exact iff_of_true rfl (Or.inr ⟨hmade.2.1, hmade.1⟩)
    · rw [if_neg hmade]
      exact (or_iff_left fun hmake => hmade ⟨hmake.2, hmake.1, h⟩).symm
  | file c =>
    rw [landed, Arrives]
    simp only [h, true_and]
    by_cases hopen : errno (.openDst p) = 0 ∧ before ≠ some .dir ∧ before ≠ some .other
    · rw [if_pos hopen, if_pos hopen, Option.some.injEq, Entry.file.injEq]
      by_cases hsrc : errno (.openSrc p) = 0
      · rw [if_pos hsrc, copied_eq_iff]
        simp only [zero_add, hsrc, true_and]
        refine (or_iff_right_of_imp ?_).symm
        rintro rfl j hj
        exact absurd hj (Nat.not_lt_zero j)
      · rw [if_neg hsrc]
        simp only [hsrc, false_and, or_false]
        exact eq_comm
    · rw [if_neg hopen, if_neg hopen]

/-- A walk that returns zero, in a root that is a directory. -/
lemma complete_iff_inPlace {d : Dir String B} (hd : d.Nodup) {fs : Fs String B}
    (hroot : fs.find [] = some .dir)
    (hret : (travelLoop (copyTravel errno recursive) errno [] 0 d fs).1 = 0) :
    Complete d (travelLoop (copyTravel errno recursive) errno [] 0 d fs).2 ↔
      InPlace errno recursive d fs.find := by
  have hlands := lands (i := 0) hd fs hret
  have hself : (travelLoop (copyTravel errno recursive) errno [] 0 d fs).2.find [] = some .dir := by
    rw [find_travelLoop_self (copyTravel_local errno recursive), hroot]
  generalize (travelLoop (copyTravel errno recursive) errno [] 0 d fs).2 = fs' at hlands hself ⊢
  have hentry (m q e) (hfind : d.find (m :: q) = some e) (he : e ≠ .other)
      (hparent : fs'.HasParent (m :: q)) :
      fs'.find (m :: q) = some e ↔
        if reached (copyTravel errno recursive : Travel B) errno [] 0 d (m :: q) = true then
          Arrives errno (m :: q) (fs.find (m :: q)) e
        else fs.find (m :: q) = some e := by
    rw [show fs'.find (m :: q) = _ from hlands m q e hfind]
    split
    · exact landed_eq_some_iff hparent he
    · rfl
  constructor
  · intro hc m q e hfind he
    have hthere := hc m q e hfind he
    exact (hentry m q e hfind he (Fs.hasParent_of_find hthere)).mp hthere
  · intro hin m q e hfind he
    refine (hentry m q e hfind he ?_).mpr (hin m q e hfind he)
    -- the directories above, from the root down
    induction q using List.reverseRecOn generalizing e with
    | nil => exact (Fs.hasParent_append (p := [])).mpr hself
    | append_singleton q k ih =>
      have hdir := Dir.find_parent (q := m :: q) hfind
      refine (Fs.hasParent_append (p := m :: q)).mpr ?_
      exact (hentry m q .dir hdir Entry.dir_ne_other (ih .dir hdir Entry.dir_ne_other)).mpr
        (hin m q .dir hdir Entry.dir_ne_other)

def NothingToCopy (d : Dir String B) : Prop := ∀ m q e, d.find (m :: q) = some e → e = .other

lemma complete_iff {d : Dir String B} (hd : d.Nodup) {fs : Fs String B}
    (hret : (travelLoop (copyTravel errno recursive) errno [] 0 d fs).1 = 0) :
    Complete d (travelLoop (copyTravel errno recursive) errno [] 0 d fs).2 ↔
      (fs.find [] = some .dir ∨ NothingToCopy d) ∧ InPlace errno recursive d fs.find := by
  by_cases hroot : fs.find [] = some .dir
  · rw [complete_iff_inPlace hd hroot hret]
    exact (and_iff_right (Or.inl hroot)).symm
  · constructor
    · intro hc
      have hnothing : NothingToCopy d := by
        intro m q e hfind
        by_contra he
        have hthere := Fs.find_root (hc m q e hfind he)
        rw [find_travelLoop_self (copyTravel_local errno recursive)] at hthere
        exact hroot hthere
      exact ⟨Or.inr hnothing, fun m q e hfind he => absurd (hnothing m q e hfind) he⟩
    · intro h m q e hfind he
      exact absurd (h.1.resolve_left hroot m q e hfind) he

end

section
variable (errno : Op → ℤ) (recursive copyRoot : Bool)

/-- The root of the copy can be made, where it is to be. -/
def RootMade (fs : Fs String B) : Prop :=
  copyRoot = true → errno (.stat []) = 0 ∧ errno (.mkdir []) = 0 ∧ fs.find [] = none

/-- `RecursiveCopyDir` meets an error that it returns: at the root of the copy, or at opening or closing a
directory of the tree. -/
def Reports (d : Dir String B) (fs : Fs String B) : Prop :=
  ¬ (RootMade errno copyRoot fs ∧ OpensAll (copyTravel errno recursive : Travel B) errno d)

variable {errno recursive copyRoot}

lemma rooted_eq_zero_iff (fs : Fs String B) :
    (if copyRoot then copyDir errno [] fs else (0, fs)).1 = 0 ↔ RootMade errno copyRoot fs := by
  unfold RootMade
  cases copyRoot with
  | false => exact iff_of_true rfl fun h => absurd h Bool.false_ne_true
  | true =>
    rw [if_pos rfl, copyDir_eq_zero_iff]
    simp only [Fs.HasParent, true_or, and_true, forall_const]

/-- The copy of the root makes the root and nothing else. -/
lemma find_rooted {fs : Fs String B} (h : RootMade errno copyRoot fs) (q : Path) :
    (if copyRoot then copyDir errno [] fs else (0, fs)).2.find q =
      if copyRoot = true ∧ q = [] then some .dir else fs.find q := by
  cases copyRoot with
  | false => rw [if_neg Bool.false_ne_true, if_neg fun h => Bool.false_ne_true h.1]
  | true =>
    obtain ⟨hstat, hmkdir, hnone⟩ := h rfl
    rw [if_pos rfl, find_copyDir]
    simp only [hstat, hmkdir, hnone, Fs.HasParent, true_or, and_true, true_and]

lemma recursiveCopyDir_eq_zero_iff {d : Dir String B} (hd : d.Nodup) (fs : Fs String B) :
    (recursiveCopyDir errno d recursive copyRoot fs).1 = 0 ↔
      ¬ Reports errno recursive copyRoot d fs := by
  unfold Reports recursiveCopyDir
  dsimp only
  rw [not_not, ← rooted_eq_zero_iff]
  by_cases hroot : (if copyRoot then copyDir errno [] fs else (0, fs)).1 = 0
  · rw [if_neg (not_not.mpr hroot), doTravelDir_eq_zero_iff hd]
    exact (and_iff_right hroot).symm
  · rw [if_pos hroot]
    exact iff_of_false hroot fun h => hroot h.1

theorem recursiveCopyDir_complete_iff {d : Dir String B} (hd : d.Nodup) (fs : Fs String B) :
    ((recursiveCopyDir errno d recursive copyRoot fs).1 = 0 →
        Complete d (recursiveCopyDir errno d recursive copyRoot fs).2) ↔
      Reports errno recursive copyRoot d fs ∨
        (copyRoot = true ∨ fs.find [] = some .dir ∨ NothingToCopy d) ∧
          InPlace errno recursive d fs.find := by
  by_cases hrep : Reports errno recursive copyRoot d fs
  · refine iff_of_true (fun hz => ?_) (Or.inl hrep)
    exact absurd hrep ((recursiveCopyDir_eq_zero_iff hd fs).mp hz)
  · have hz := (recursiveCopyDir_eq_zero_iff hd fs).mpr hrep
    obtain ⟨hmade, hopen⟩ := not_not.mp hrep
    have hfind := find_rooted hmade
    have hstate : recursiveCopyDir errno d recursive copyRoot fs =
        travelLoop (copyTravel errno recursive) errno [] 0 d
          (if copyRoot then copyDir errno [] fs else (0, fs)).2 := by
      unfold recursiveCopyDir
      dsimp only
      rw [if_neg (not_not.mpr ((rooted_eq_zero_iff fs).mpr hmade)), doTravelDir_eq hopen.1.1]
    rw [imp_iff_right hz, or_iff_right hrep]
    rw [hstate] at hz ⊢
    rw [complete_iff hd hz]
    refine and_congr ?_ ?_
    · rw [hfind, ← or_assoc]
      refine or_congr_left ?_
      cases copyRoot with
      | false => simp
      | true => simp
    · refine inPlace_congr fun m q => ?_
      rw [hfind, if_neg fun h => List.cons_ne_nil m q h.2]

/-- **A copy into an empty directory, no operation of which fails, is complete** and reported as made. -/
theorem recursiveCopyDir_of_no_error (herrno : ∀ op, errno op = 0) (source : Tree String B)
    (htyped : source.root.Typed) {fs : Fs String B} (hroot : fs.find [] = some .dir)
    (hfree : ∀ m q, fs.find (m :: q) = none) :
    (recursiveCopyDir errno source.root true false fs).1 = 0 ∧
      Complete source.root (recursiveCopyDir errno source.root true false fs).2 := by
  have hrep : ¬ Reports errno true false source.root fs := not_not.mpr
    ⟨fun h => absurd h Bool.false_ne_true, ⟨herrno _, herrno _⟩, fun _ m q _ _ => ⟨herrno _, herrno _⟩⟩
  have hz := (recursiveCopyDir_eq_zero_iff source.nodup fs).mpr hrep
  refine ⟨hz, (recursiveCopyDir_complete_iff source.nodup fs).mpr (Or.inr ⟨?_, ?_⟩) hz⟩
  · exact Or.inr (Or.inl hroot)
  · intro m q e hfind he
    rw [if_pos (reached_of_typed rfl (fun _ _ => herrno _) htyped he hfind), hfree]
    cases e with
    | dir => exact Or.inr ⟨rfl, herrno _, herrno _⟩
    | file c =>
      rw [Arrives, if_pos ⟨herrno _, (Option.some_ne_none _).symm, (Option.some_ne_none _).symm⟩]
      exact Or.inr ⟨herrno _, fun j _ => ⟨herrno _, herrno _⟩⟩
    | other => trivial

end

end PhxQueue.Comm.FileUtil
