import PhxQueue.Comm.TravelDir

/-!
# Clearing a directory tree

What `RecursiveRemoveDir` leaves of the tree below a root, which it returns no error for.

* `Stuck`                 an entry that is passed over, or cannot be removed;
* `Remains`               an entry that is stuck, or has a stuck one below it;
* `remainder`             what is left at a path;
* `clears`, `find_recursiveRemoveDir`
                          **the walk leaves exactly what remains**.
-/

set_option linter.unusedSectionVars false

namespace PhxQueue.Comm.FileUtil
open Lib

variable {B : Type}

def removal (p : Path) : Entry B → Op
  | .dir => .rmdir p
  | _ => .unlink p

section
variable (errno : Op → ℤ) (p : Path) (i : ℕ) (d : Dir String B)

/-- There is an entry at the path which the walk does not come to, or cannot remove. -/
def Stuck (q : Path) : Prop :=
  ∃ e, d.find q = some e ∧
    ¬ (reached (removeTravel errno true : Travel B) errno p i d q = true ∧
      errno (removal (p ++ q) e) = 0)

/-- The entry at the path is stuck, or one below it is. -/
def Remains (q : Path) : Prop := ∃ s, Stuck errno p i d (q ++ s)

open Classical in
noncomputable def remainder (q : Path) : Option (Entry B) :=
  if Remains errno p i d q then d.find q else none

end

section
variable {errno : Op → ℤ} {p : Path} {i : ℕ} {d : Dir String B} {m : String} {q : Path}

lemma remainder_of_remains (h : Remains errno p i d q) : remainder errno p i d q = d.find q :=
  if_pos h

lemma remainder_of_not_remains (h : ¬ Remains errno p i d q) : remainder errno p i d q = none :=
  if_neg h

lemma remainder_eq_none_iff : remainder errno p i d q = none ↔ ¬ Remains errno p i d q := by
  by_cases h : Remains errno p i d q
  · rw [remainder_of_remains h]
    obtain ⟨s, e, hfind, _⟩ := h
    have hsome := Dir.find_isSome_of_append hfind
    exact iff_of_false (Option.isSome_iff_ne_none.mp hsome) (not_not.mpr ⟨s, e, hfind, ‹_›⟩)
  · exact iff_of_true (remainder_of_not_remains h) h

lemma remainder_eq_none (h : d.find q = none) : remainder errno p i d q = none := by
  by_cases hremains : Remains errno p i d q
  · rw [remainder_of_remains hremains, h]
  · exact remainder_of_not_remains hremains

lemma remainder_of_not_reached
    (h : reached (removeTravel errno true : Travel B) errno p i d q = false) :
    remainder errno p i d q = d.find q := by
  cases hfind : d.find q with
  | none => exact remainder_eq_none hfind
  | some e =>
    have hstuck : Stuck errno p i d (q ++ []) := by
      rw [List.append_nil]
      exact ⟨e, hfind, fun hr => Bool.false_ne_true (h.symm.trans hr.1)⟩
    rw [remainder_of_remains ⟨[], hstuck⟩, hfind]

lemma remainder_congr {p' : Path} {i' : ℕ} {d' : Dir String B} {q' : Path}
    (hfind : ∀ s, d.find (q ++ s) = d'.find (q' ++ s))
    (hreached : ∀ s, reached (removeTravel errno true : Travel B) errno p i d (q ++ s) =
      reached (removeTravel errno true : Travel B) errno p' i' d' (q' ++ s))
    (hpath : p ++ q = p' ++ q') :
    remainder errno p i d q = remainder errno p' i' d' q' := by
  have hremains : Remains errno p i d q ↔ Remains errno p' i' d' q' := by
    refine exists_congr fun s => exists_congr fun e => ?_
    rw [hfind, hreached, ← List.append_assoc, ← List.append_assoc, hpath]
  have hhere := hfind []
  rw [List.append_nil, List.append_nil] at hhere
  by_cases h : Remains errno p i d q
  · rw [remainder_of_remains h, remainder_of_remains (hremains.mp h), hhere]
  · rw [remainder_of_not_remains h, remainder_of_not_remains (mt hremains.mpr h)]

variable (errno p i d) in
/-- A walk that returns zero, over a directory that is as it is listed, leaves what remains of it. -/
def Clears : Prop :=
  ∀ fs, (travelLoop (removeTravel errno true) errno p i d fs).1 = 0 →
    (∀ m ∈ d.names, ∀ q, fs.find (p ++ m :: q) = d.find (m :: q)) →
    ∀ m ∈ d.names, ∀ q,
      (travelLoop (removeTravel errno true) errno p i d fs).2.find (p ++ m :: q) =
        remainder errno p i d (m :: q)

variable {n : String} {rest : Dir String B}

lemma clears_of_ne (hb : Behind (removeTravel errno true) errno p i n d rest)
    (hrest : Clears errno p (i + 1) rest) {fs fs' : Fs String B}
    (hfs : ∀ m ∈ rest.names, ∀ q, fs.find (p ++ m :: q) = d.find (m :: q))
    (hfs' : ∀ m q, m ≠ n → fs'.find (p ++ m :: q) = fs.find (p ++ m :: q))
    (hret : (travelLoop (removeTravel errno true) errno p (i + 1) rest fs').1 = 0)
    (hm : m ∈ rest.names) :
    (travelLoop (removeTravel errno true) errno p (i + 1) rest fs').2.find (p ++ m :: q) =
      remainder errno p i d (m :: q) := by
  have hagree : ∀ k ∈ rest.names, ∀ s, fs'.find (p ++ k :: s) = rest.find (k :: s) := by
    intro k hk s
    rw [hfs' k s (hb.ne hk), hfs k hk s, hb.find_eq k s (hb.ne hk)]
  rw [hrest fs' hret hagree m hm q]
  exact (remainder_congr (fun s => hb.find_eq m (q ++ s) (hb.ne hm))
    (fun s => hb.reached_eq m (q ++ s) (hb.ne hm)) rfl).symm

/-- A file remains that is passed over or cannot be removed. -/
lemma remains_file {typed : Bool} {c : List B} (h : errno (.readdir .dst p i) = 0) :
    Remains errno p i (.file n typed c rest) [n] ↔
      ¬ (typed = true ∧ errno (.unlink (p ++ [n])) = 0) := by
  have hreached : reached (removeTravel errno true : Travel B) errno p i (.file n typed c rest) [n] =
      typed := by rw [reached_file h, if_pos rfl]
  constructor
  · rintro ⟨s, e, hfind, hstuck⟩ hremoved
    rw [List.singleton_append] at hfind hstuck
    rw [Dir.find, if_pos rfl] at hfind
    by_cases hs : s = []
    · subst hs
      rw [if_pos rfl] at hfind
      obtain rfl := Option.some.inj hfind
      exact hstuck ⟨hreached.trans hremoved.1, hremoved.2⟩
    · rw [if_neg hs] at hfind
      cases hfind
  · intro hremoved
    refine ⟨[], .file c, ?_, fun hr => hremoved ⟨hreached.symm.trans hr.1, hr.2⟩⟩
    rw [List.append_nil, Dir.find, if_pos rfl, if_pos rfl]

section
variable {sub : Dir String B} (h : errno (.readdir .dst p i) = 0)
include h

lemma reached_sub_cons (k : String) :
    reached (removeTravel errno true : Travel B) errno p i (.sub n true sub rest) (n :: k :: q) =
      reached (removeTravel errno true : Travel B) errno (p ++ [n]) 0 sub (k :: q) := by
  rw [reached_sub h, if_pos rfl]
  rfl

lemma remainder_sub_cons (k : String) :
    remainder errno p i (.sub n true sub rest) (n :: k :: q) =
      remainder errno (p ++ [n]) 0 sub (k :: q) := by
  refine remainder_congr (fun s => ?_) (fun s => reached_sub_cons h k) (List.append_cons p n (k :: q))
  show Dir.find _ (n :: k :: (q ++ s)) = _
  rw [Dir.find, if_pos rfl]
  rfl

/-- A subdirectory remains that cannot be removed, or that something remains in. -/
lemma remains_sub :
    Remains errno p i (.sub n true sub rest) [n] ↔
      ¬ (errno (.rmdir (p ++ [n])) = 0 ∧ ∀ k, remainder errno (p ++ [n]) 0 sub [k] = none) := by
  have hreached : reached (removeTravel errno true : Travel B) errno p i (.sub n true sub rest) [n] =
      true := by
    rw [reached_sub h, if_pos rfl]
    rfl
  constructor
  · rintro ⟨s, e, hfind, hstuck⟩ ⟨hrmdir, hempty⟩
    rw [List.singleton_append] at hfind hstuck
    cases s with
    | nil =>
      rw [Dir.find, if_pos rfl, Dir.find_root] at hfind
      obtain rfl := Option.some.inj hfind
      exact hstuck ⟨hreached, hrmdir⟩
    | cons k s =>
      rw [Dir.find, if_pos rfl] at hfind
      rw [reached_sub_cons h, List.append_cons p n (k :: s)] at hstuck
      exact remainder_eq_none_iff.mp (hempty k) ⟨s, e, hfind, hstuck⟩
  · intro hstays
    by_cases hrmdir : errno (.rmdir (p ++ [n])) = 0
    · obtain ⟨k, hk⟩ := not_forall.mp fun hall => hstays ⟨hrmdir, hall⟩
      obtain ⟨s, e, hfind, hstuck⟩ := not_not.mp (mt remainder_eq_none_iff.mpr hk)
      refine ⟨k :: s, e, ?_, ?_⟩
      · rw [List.singleton_append, Dir.find, if_pos rfl]
        exact hfind
      · rw [List.singleton_append, reached_sub_cons h, List.append_cons p n (k :: s)]
        exact hstuck
    · refine ⟨[], .dir, ?_, fun hr => hrmdir hr.2⟩
      rw [List.append_nil, Dir.find, if_pos rfl, Dir.find_root]

end

/-- A file as it is listed, removed if it can be. -/
lemma find_removeFileEntry {typed : Bool} {c : List B} (h : errno (.readdir .dst p i) = 0)
    {fs : Fs String B}
    (hfs : ∀ q, fs.find (p ++ n :: q) = (Dir.file n typed c rest).find (n :: q)) :
    (if typed then (removeTravel errno true).onFile (p ++ [n]) c fs else fs).find (p ++ n :: q) =
      remainder errno p i (.file n typed c rest) (n :: q) := by
  have ht : (removeTravel errno true : Travel B).Local := removeTravel_local errno true
  have hentry := hfs q
  rw [Dir.find, if_pos rfl] at hentry
  cases q with
  | cons k q =>
    have hbefore : (if typed = true then (removeTravel errno true).onFile (p ++ [n]) c fs
        else fs).find (p ++ n :: k :: q) = fs.find (p ++ n :: k :: q) := by
      split
      · exact ht.file _ _ _ _ (append_cons_cons_ne n k q)
      · rfl
    rw [if_neg (List.cons_ne_nil k q)] at hentry
    rw [hbefore, hentry, remainder_eq_none]
    rw [Dir.find, if_pos rfl, if_neg (List.cons_ne_nil k q)]
  | nil =>
    rw [if_pos rfl] at hentry
    by_cases hremoved : typed = true ∧ errno (.unlink (p ++ [n])) = 0
    · rw [remainder_of_not_remains fun hr => (remains_file h).mp hr hremoved, if_pos hremoved.1]
      have hfile : fs.find (p ++ [n]) ≠ some .dir := by
        rw [hentry]
        exact Entry.some_file_ne_dir c
      show (removeFile errno (p ++ [n]) fs).2.find (p ++ [n]) = none
      rw [find_removeFile, if_pos ⟨rfl, hremoved.2, hfile⟩]
    · rw [remainder_of_remains ((remains_file h).mpr hremoved), ← hfs]
      split
      next htyped =>
        show (removeFile errno (p ++ [n]) fs).2.find (p ++ [n]) = _
        rw [find_removeFile, if_neg fun hr => hremoved ⟨htyped, hr.2.1⟩]
      next => rfl

/-- A subdirectory as it is listed, cleared and then removed if it can be. -/
lemma find_removeSubDir {sub : Dir String B} (hsub : Clears errno (p ++ [n]) 0 sub)
    (h : errno (.readdir .dst p i) = 0) {fs : Fs String B}
    (hret : (subDir (removeTravel errno true) errno (p ++ [n]) sub fs).1 = 0)
    (hfs : ∀ q, fs.find (p ++ n :: q) = sub.find q) :
    ((removeTravel errno true).onSubDirAfter (p ++ [n])
        (subDir (removeTravel errno true) errno (p ++ [n]) sub fs).2).find (p ++ n :: q) =
      remainder errno p i (.sub n true sub rest) (n :: q) := by
  have ht : (removeTravel errno true : Travel B).Local := removeTravel_local errno true
  have hfs' (k : String) (s : Path) : fs.find (p ++ [n] ++ k :: s) = sub.find (k :: s) := by
    rw [← List.append_cons]
    exact hfs (k :: s)
  have heq := subDir_eq (t := removeTravel errno true) rfl hret
  have hbelow (k : String) (s : Path) :
      (subDir (removeTravel errno true) errno (p ++ [n]) sub fs).2.find (p ++ [n] ++ k :: s) =
        remainder errno (p ++ [n]) 0 sub (k :: s) := by
    rw [heq] at hret ⊢
    by_cases hk : k ∈ sub.names
    · exact hsub fs hret (fun m _ q => hfs' m q) k hk s
    · rw [find_travelLoop_of_not_mem ht hk, remainder_eq_none (Dir.find_eq_none hk s)]
      exact (hfs' k s).trans (Dir.find_eq_none hk s)
  cases q with
  | cons k q =>
    rw [ht.after _ _ _ (append_cons_cons_ne n k q), remainder_sub_cons h, List.append_cons p n (k :: q)]
    exact hbelow k q
  | nil =>
    have hdir : (subDir (removeTravel errno true) errno (p ++ [n]) sub fs).2.find (p ++ [n]) =
        some .dir := by
      rw [find_subDir_self ht]
      exact (hfs []).trans (Dir.find_root sub)
    have hempty : (subDir (removeTravel errno true) errno (p ++ [n]) sub fs).2.Empty (p ++ [n]) ↔
        ∀ k, remainder errno (p ++ [n]) 0 sub [k] = none := by
      rw [Fs.empty_iff]
      exact forall_congr' fun k => by rw [hbelow]
    show (removeDir errno (p ++ [n]) _).2.find (p ++ [n]) = _
    rw [find_removeDir]
    by_cases hgone : errno (.rmdir (p ++ [n])) = 0 ∧
        ∀ k, remainder errno (p ++ [n]) 0 sub [k] = none
    · rw [remainder_of_not_remains fun hr => (remains_sub h).mp hr hgone,
        if_pos ⟨rfl, hgone.1, hdir, hempty.mpr hgone.2⟩]
    · rw [remainder_of_remains ((remains_sub h).mpr hgone),
        if_neg fun hr => hgone ⟨hr.2.1, hempty.mp hr.2.2.2⟩, hdir, Dir.find, if_pos rfl, Dir.find_root]

/-- **What the walk leaves.** -/
lemma clears (hd : d.Nodup) : Clears errno p i d := by
  have ht : (removeTravel errno true : Travel B).Local := removeTravel_local errno true
  induction p, i, d using travel_induction (removeTravel errno true) errno with
  | ended p i d h =>
    intro fs _ hfs m hm q
    rw [travelLoop_ended h, remainder_of_not_reached (reached_ended h)]
    exact hfs m hm q
  | dot p i rest h ih =>
    intro fs hret hfs m hm q
    rw [travelLoop_dot h] at hret ⊢
    rw [ih hd fs hret hfs m hm q]
    exact remainder_congr (fun s => rfl) (fun s => (reached_dot h).symm) rfl
  | other p i n rest h ih =>
    intro fs hret hfs m hm q
    rw [travelLoop_other h] at hret ⊢
    by_cases hmn : m = n
    · subst hmn
      rw [find_travelLoop_of_not_mem ht hd.1, hfs m hm q, remainder_of_not_reached]
      rw [reached_other h, if_pos rfl]
    · exact clears_of_ne (behind_other h hd.1) (ih hd.2)
        (fun k hk => hfs k (List.mem_cons_of_mem _ hk)) (fun k s _ => rfl) hret
        ((List.mem_cons.mp hm).resolve_left hmn)
  | file p i n typed c rest h ih =>
    intro fs hret hfs m hm q
    rw [travelLoop_file h] at hret ⊢
    by_cases hmn : m = n
    · subst hmn
      rw [find_travelLoop_of_not_mem ht hd.1]
      exact find_removeFileEntry h (hfs m hm)
    · refine clears_of_ne (behind_file h hd.1) (ih hd.2)
        (fun k hk => hfs k (List.mem_cons_of_mem _ hk)) (fun k s hk => ?_) hret
        ((List.mem_cons.mp hm).resolve_left hmn)
      split
      · exact ht.file _ _ _ _ (append_ne hk s)
      · rfl
  | sub p i n typed d rest h ihd ih =>
    intro fs hret hfs m hm q
    cases typed with
    | false =>
      rw [travelLoop_untyped h] at hret ⊢
      by_cases hmn : m = n
      · subst hmn
        rw [find_travelLoop_of_not_mem ht hd.1, hfs m hm q, remainder_of_not_reached]
        rw [reached_sub h, if_pos rfl, Bool.false_and]
      · exact clears_of_ne (behind_sub h hd.1) (ih hd.2.2)
          (fun k hk => hfs k (List.mem_cons_of_mem _ hk)) (fun k s _ => rfl) hret
          ((List.mem_cons.mp hm).resolve_left hmn)
    | true =>
      rw [travelLoop_sub h] at hret ⊢
      by_cases hz : (subDir (removeTravel errno true) errno (p ++ [n]) d fs).1 = 0
      · rw [if_neg (not_not.mpr hz)] at hret ⊢
        by_cases hmn : m = n
        · subst hmn
          rw [find_travelLoop_of_not_mem ht hd.1]
          exact find_removeSubDir (ihd hd.2.1) h hz (fun q => by rw [hfs m hm q, Dir.find, if_pos rfl])
        · exact clears_of_ne (behind_sub h hd.1) (ih hd.2.2)
            (fun k hk => hfs k (List.mem_cons_of_mem _ hk))
            (fun k s hk => find_subDir_of_ne ht hk d s fs) hret
            ((List.mem_cons.mp hm).resolve_left hmn)
      · rw [if_pos hz] at hret
        exact absurd hret hz

/-- `RecursiveRemoveDir` below a root that stays. -/
lemma recursiveRemoveDir_eq_zero_iff (hd : d.Nodup) (fs : Fs String B) :
    (recursiveRemoveDir errno d true false fs).1 = 0 ↔
      OpensAll (removeTravel errno true : Travel B) errno d := by
  rw [← doTravelDir_eq_zero_iff hd fs]
  unfold recursiveRemoveDir
  by_cases hz : (doTravelDir (removeTravel errno true) errno d fs).1 = 0
  · rw [if_neg (not_not.mpr hz), if_neg Bool.false_ne_true]
    exact iff_of_true rfl hz
  · rw [if_pos hz]

theorem find_recursiveRemoveDir (hd : d.Nodup) {fs : Fs String B} (hfs : ∀ q, fs.find q = d.find q)
    (hret : (recursiveRemoveDir errno d true false fs).1 = 0) (q : Path) :
    (recursiveRemoveDir errno d true false fs).2.find q =
      if q = [] then some .dir else remainder errno [] 0 d q := by
  have ht : (removeTravel errno true : Travel B).Local := removeTravel_local errno true
  have hopen := (recursiveRemoveDir_eq_zero_iff hd fs).mp hret
  have hloop : (doTravelDir (removeTravel errno true) errno d fs) =
      travelLoop (removeTravel errno true) errno [] 0 d fs := by
    rw [doTravelDir_eq hopen.1.1]
  have hz := (doTravelDir_eq_zero_iff hd fs).mpr hopen
  have hstate : (recursiveRemoveDir errno d true false fs).2 =
      (travelLoop (removeTravel errno true) errno [] 0 d fs).2 := by
    unfold recursiveRemoveDir
    rw [if_neg (not_not.mpr hz), if_neg Bool.false_ne_true, hloop]
  rw [hloop] at hz
  rw [hstate]
  cases q with
  | nil =>
    rw [find_travelLoop_self ht, hfs, Dir.find_root, if_pos rfl]
  | cons m q =>
    rw [if_neg (List.cons_ne_nil m q)]
    by_cases hm : m ∈ d.names
    · exact clears hd fs hz (fun k _ s => hfs (k :: s)) m hm q
    · rw [remainder_eq_none (Dir.find_eq_none hm q)]
      refine (find_travelLoop_of_not_mem (p := []) ht hm q fs).trans ?_
      exact (hfs (m :: q)).trans (Dir.find_eq_none hm q)

end

end PhxQueue.Comm.FileUtil
