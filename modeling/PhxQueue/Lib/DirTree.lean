import Mathlib.Data.List.AList
import Mathlib.Tactic

/-!
# Directory trees and file systems

A directory tree as it is read, entry after entry, and a file system as it is written to, path by path.

* `Dir`, `Dir.find`       what is read of a directory, and the entry at a path below it;
* `Dir.Nodup`, `Tree`     no two entries of a directory have one name;
* `Fs`, `Fs.find`         entries by their paths, each one in a directory of its own;
* `Fs.mkdir`, `Fs.write`, `Fs.unlink`, `Fs.rmdir`
                          what each operation changes, or why it is refused;
* `find_mkdir`, `find_write`, `find_unlink`, `find_rmdir`
                          **an operation changes the entry at its own path and no other**.
-/

set_option linter.unusedSectionVars false

namespace PhxQueue.Lib

variable {N B : Type}

/-- What is at a path: a directory, a regular file with its bytes, or anything else. -/
inductive Entry (B : Type)
  | dir
  | file (content : List B)
  | other
  deriving DecidableEq

namespace Entry

-- These two look at the constructor only, whatever the bytes are.
instance (o : Option (Entry B)) : Decidable (o = some Entry.dir) :=
  match o with
  | some .dir => isTrue rfl
  | some (.file _) => isFalse nofun
  | some .other => isFalse nofun
  | none => isFalse nofun

instance (o : Option (Entry B)) : Decidable (o = some Entry.other) :=
  match o with
  | some .dir => isFalse nofun
  | some (.file _) => isFalse nofun
  | some .other => isTrue rfl
  | none => isFalse nofun

lemma dir_ne_other : (Entry.dir : Entry B) ≠ .other := fun h => by cases h

lemma some_file_ne_dir (c : List B) : some (Entry.file c) ≠ some .dir := fun h => by cases h

lemma some_file_ne_other (c : List B) : some (Entry.file c) ≠ some .other := fun h => by cases h

end Entry

/-- What `readdir` gives of a directory, one constructor for each call, in their order.  An entry comes
with its type, or with the type left unknown. -/
inductive Dir (N B : Type)
  | nil
  /-- `.` or `..`. -/
  | dot (rest : Dir N B)
  | file (name : N) (typed : Bool) (content : List B) (rest : Dir N B)
  | sub (name : N) (typed : Bool) (dir : Dir N B) (rest : Dir N B)
  | other (name : N) (rest : Dir N B)

namespace Dir

def names : Dir N B → List N
  | nil => []
  | dot rest => rest.names
  | file n _ _ rest => n :: rest.names
  | sub n _ _ rest => n :: rest.names
  | other n rest => n :: rest.names

/-- No name stands twice in the directory, nor in one below it. -/
def Nodup : Dir N B → Prop
  | nil => True
  | dot rest => rest.Nodup
  | file n _ _ rest => n ∉ rest.names ∧ rest.Nodup
  | sub n _ d rest => n ∉ rest.names ∧ d.Nodup ∧ rest.Nodup
  | other n rest => n ∉ rest.names ∧ rest.Nodup

/-- Every entry comes with its type, in the directory and in those below it. -/
def Typed : Dir N B → Prop
  | nil => True
  | dot rest => rest.Typed
  | file _ typed _ rest => typed = true ∧ rest.Typed
  | sub _ typed d rest => typed = true ∧ d.Typed ∧ rest.Typed
  | other _ rest => rest.Typed

variable [DecidableEq N]

def find : Dir N B → List N → Option (Entry B)
  | _, [] => some .dir
  | nil, _ :: _ => none
  | dot rest, m :: q => rest.find (m :: q)
  | file n _ c rest, m :: q =>
    if m = n then (if q = [] then some (.file c) else none) else rest.find (m :: q)
  | sub n _ d rest, m :: q => if m = n then d.find q else rest.find (m :: q)
  | other n rest, m :: q => if m = n then (if q = [] then some .other else none) else rest.find (m :: q)

@[simp] lemma find_root (d : Dir N B) : d.find [] = some .dir := by
  cases d <;> rfl

lemma find_eq_none {d : Dir N B} {m : N} (h : m ∉ d.names) (q : List N) : d.find (m :: q) = none := by
  induction d with
  | nil => rfl
  | dot rest ih => exact ih h
  | file n typed c rest ih =>
    obtain ⟨hn, hrest⟩ := not_or.mp (mt List.mem_cons.mpr h)
    rw [find, if_neg hn, ih hrest]
  | sub n typed d rest _ ih =>
    obtain ⟨hn, hrest⟩ := not_or.mp (mt List.mem_cons.mpr h)
    rw [find, if_neg hn, ih hrest]
  | other n rest ih =>
    obtain ⟨hn, hrest⟩ := not_or.mp (mt List.mem_cons.mpr h)
    rw [find, if_neg hn, ih hrest]

lemma mem_names_of_find {d : Dir N B} {m : N} {q : List N} {e : Entry B}
    (h : d.find (m :: q) = some e) : m ∈ d.names := by
  by_contra hm
  rw [find_eq_none hm] at h
  exact absurd h nofun

lemma find_parent {d : Dir N B} {q : List N} {n : N} {e : Entry B}
    (h : d.find (q ++ [n]) = some e) : d.find q = some .dir := by
  cases q with
  | nil => exact find_root d
  | cons m q =>
    have hq : q ++ [n] ≠ [] := List.append_ne_nil_of_right_ne_nil _ (List.cons_ne_nil _ _)
    rw [List.cons_append] at h
    induction d generalizing m q with
    | nil => exact absurd h nofun
    | dot rest ih => exact ih m q h hq
    | file k typed c rest ih =>
      by_cases hk : m = k
      · rw [find, if_pos hk, if_neg hq] at h
        exact absurd h nofun
      · rw [find, if_neg hk] at h ⊢
        exact ih m q h hq
    | sub k typed d rest ihd ih =>
      by_cases hk : m = k
      · rw [find, if_pos hk] at h ⊢
        cases q with
        | nil => exact find_root d
        | cons m' q =>
          exact ihd m' q h (List.append_ne_nil_of_right_ne_nil _ (List.cons_ne_nil _ _))
      · rw [find, if_neg hk] at h ⊢
        exact ih m q h hq
    | other k rest ih =>
      by_cases hk : m = k
      · rw [find, if_pos hk, if_neg hq] at h
        exact absurd h nofun
      · rw [find, if_neg hk] at h ⊢
        exact ih m q h hq

lemma find_isSome_of_append {d : Dir N B} {q s : List N} {e : Entry B} (h : d.find (q ++ s) = some e) :
    (d.find q).isSome := by
  induction s using List.reverseRecOn generalizing e with
  | nil =>
    rw [List.append_nil] at h
    exact Option.isSome_of_eq_some h
  | append_singleton s n ih =>
    rw [← List.append_assoc] at h
    exact ih (find_parent h)

end Dir

structure Tree (N B : Type) where
  root : Dir N B
  nodup : root.Nodup

/-! ## File systems -/

inductive Refusal
  | noEntry
  | taken
  | notDir
  | isDir
  | notEmpty
  | special
  deriving DecidableEq

/-- Entries by their paths below a root.  What is above an entry is a directory. -/
structure Fs (N B : Type) [DecidableEq N] where
  entries : AList fun _ : List N => Entry B
  parent : ∀ p n, (entries.lookup (p ++ [n])).isSome → entries.lookup p = some .dir

namespace Fs

variable [DecidableEq N]

def find (fs : Fs N B) (p : List N) : Option (Entry B) := fs.entries.lookup p

/-- There is a directory to make the path in.  The root's own is always there. -/
def HasParent (fs : Fs N B) (p : List N) : Prop := p = [] ∨ fs.find p.dropLast = some .dir

instance (fs : Fs N B) (p : List N) : Decidable (fs.HasParent p) :=
  inferInstanceAs (Decidable (_ ∨ _))

def Empty (fs : Fs N B) (p : List N) : Prop := ∀ q ∈ fs.entries.keys, q = [] ∨ q.dropLast ≠ p

instance (fs : Fs N B) (p : List N) : Decidable (fs.Empty p) :=
  inferInstanceAs (Decidable (∀ q ∈ fs.entries.keys, _))

lemma hasParent_append {fs : Fs N B} {p : List N} {n : N} :
    fs.HasParent (p ++ [n]) ↔ fs.find p = some .dir := by
  unfold HasParent
  rw [List.dropLast_concat]
  exact or_iff_right (List.append_ne_nil_of_right_ne_nil _ (List.cons_ne_nil _ _))

lemma find_parent {fs : Fs N B} {p : List N} {n : N} {e : Entry B}
    (h : fs.find (p ++ [n]) = some e) : fs.find p = some .dir :=
  fs.parent p n (Option.isSome_iff_exists.mpr ⟨e, h⟩)

lemma hasParent_of_find {fs : Fs N B} {p : List N} {e : Entry B} (h : fs.find p = some e) :
    fs.HasParent p := by
  rcases List.eq_nil_or_concat p with rfl | ⟨q, n, rfl⟩
  · exact Or.inl rfl
  · rw [List.concat_eq_append] at h ⊢
    exact hasParent_append.mpr (find_parent h)

/-- A file system with anything below its root has the root. -/
lemma find_root {fs : Fs N B} {q : List N} {n : N} {e : Entry B} (h : fs.find (n :: q) = some e) :
    fs.find [] = some .dir := by
  induction q using List.reverseRecOn generalizing e with
  | nil => exact find_parent (p := []) h
  | append_singleton q m ih => exact ih (find_parent (p := n :: q) h)

lemma empty_iff {fs : Fs N B} {p : List N} : fs.Empty p ↔ ∀ n, fs.find (p ++ [n]) = none := by
  unfold Empty find
  constructor
  · intro h n
    by_contra hne
    have hmem := AList.lookup_isSome.mp (Option.isSome_iff_ne_none.mpr hne)
    rcases h _ hmem with hnil | hp
    · exact absurd hnil (List.append_ne_nil_of_right_ne_nil _ (List.cons_ne_nil _ _))
    · exact hp List.dropLast_concat
  · intro h q hq
    rcases List.eq_nil_or_concat q with rfl | ⟨q, n, rfl⟩
    · exact Or.inl rfl
    · refine Or.inr fun hp => ?_
      rw [List.concat_eq_append] at hq hp
      rw [List.dropLast_concat] at hp
      have hsome := AList.lookup_isSome.mpr hq
      rw [hp, h n] at hsome
      exact absurd hsome nofun

/-- An entry put at a path, where one may be. -/
def put (fs : Fs N B) (p : List N) (e : Entry B) (hup : fs.HasParent p)
    (hdown : e = .dir ∨ fs.find p ≠ some .dir) : Fs N B where
  entries := fs.entries.insert p e
  parent q n h := by
    have hq : q ≠ q ++ [n] := by simp
    by_cases hp : q ++ [n] = p
    · subst hp
      rw [AList.lookup_insert_ne hq]
      exact hasParent_append.mp hup
    · rw [AList.lookup_insert_ne hp] at h
      have hdir := fs.parent q n h
      by_cases hqp : q = p
      · subst hqp
        rw [AList.lookup_insert]
        exact congrArg some (hdown.resolve_right (not_not.mpr hdir))
      · rwa [AList.lookup_insert_ne hqp]

def erase (fs : Fs N B) (p : List N) (h : ∀ n, fs.find (p ++ [n]) = none) : Fs N B where
  entries := fs.entries.erase p
  parent q n hsome := by
    have hne : q ++ [n] ≠ p := by
      rintro rfl
      rw [AList.lookup_erase] at hsome
      exact absurd hsome nofun
    rw [AList.lookup_erase_ne hne] at hsome
    have hqp : q ≠ p := by
      rintro rfl
      have hnone : fs.entries.lookup (q ++ [n]) = none := h n
      rw [hnone] at hsome
      exact absurd hsome nofun
    rw [AList.lookup_erase_ne hqp]
    exact fs.parent q n hsome

lemma find_put (fs : Fs N B) (p : List N) (e : Entry B) (hup hdown) (q : List N) :
    (fs.put p e hup hdown).find q = if q = p then some e else fs.find q := by
  by_cases h : q = p
  · subst h
    rw [if_pos rfl]
    exact AList.lookup_insert _
  · rw [if_neg h]
    exact AList.lookup_insert_ne h

lemma find_erase (fs : Fs N B) (p : List N) (h) (q : List N) :
    (fs.erase p h).find q = if q = p then none else fs.find q := by
  by_cases hq : q = p
  · subst hq
    rw [if_pos rfl]
    exact AList.lookup_erase _ _
  · rw [if_neg hq]
    exact AList.lookup_erase_ne hq

/-! ## Operations -/

lemma no_child {fs : Fs N B} {p : List N} (h : fs.find p ≠ some .dir) (n : N) :
    fs.find (p ++ [n]) = none := by
  by_contra hne
  obtain ⟨e, he⟩ := Option.ne_none_iff_exists'.mp hne
  exact h (find_parent he)

/-- A regular file can be opened at the path for writing, or made there. -/
def Writable (fs : Fs N B) (p : List N) : Prop :=
  fs.HasParent p ∧ fs.find p ≠ some .dir ∧ fs.find p ≠ some .other

instance (fs : Fs N B) (p : List N) : Decidable (fs.Writable p) :=
  inferInstanceAs (Decidable (_ ∧ _ ∧ _))

def mkdir (fs : Fs N B) (p : List N) : Except Refusal (Fs N B) :=
  if fs.find p = none then
    if hup : fs.HasParent p then .ok (fs.put p .dir hup (Or.inl rfl)) else .error .noEntry
  else .error .taken

/-- The bytes of a regular file, which is made when there is none.  Nothing is written through an entry of
another kind. -/
def write (fs : Fs N B) (p : List N) (c : List B) : Except Refusal (Fs N B) :=
  if hup : fs.HasParent p then
    if hdown : fs.find p = some .dir then .error .isDir
    else if fs.find p = some .other then .error .special
    else .ok (fs.put p (.file c) hup (Or.inr hdown))
  else .error .noEntry

def unlink (fs : Fs N B) (p : List N) : Except Refusal (Fs N B) :=
  if fs.find p = none then .error .noEntry
  else if h : fs.find p = some .dir then .error .isDir
  else .ok (fs.erase p (no_child h))

def rmdir (fs : Fs N B) (p : List N) : Except Refusal (Fs N B) :=
  if fs.find p = none then .error .noEntry
  else if fs.find p = some .dir then
    if h : fs.Empty p then .ok (fs.erase p (empty_iff.mp h)) else .error .notEmpty
  else .error .notDir

/-- The file system after an operation on it, the same one when that is refused. -/
def after (fs : Fs N B) (result : Except Refusal (Fs N B)) : Fs N B :=
  match result with
  | .ok fs' => fs'
  | .error _ => fs

lemma mkdir_isOk (fs : Fs N B) (p : List N) :
    (∃ fs', fs.mkdir p = .ok fs') ↔ fs.find p = none ∧ fs.HasParent p := by
  unfold mkdir
  by_cases hnone : fs.find p = none
  · by_cases hup : fs.HasParent p
    · rw [if_pos hnone, dif_pos hup]
      exact iff_of_true ⟨_, rfl⟩ ⟨hnone, hup⟩
    · rw [if_pos hnone, dif_neg hup]
      exact iff_of_false nofun fun h => hup h.2
  · rw [if_neg hnone]
    exact iff_of_false nofun fun h => hnone h.1

lemma find_mkdir (fs : Fs N B) (p q : List N) :
    (fs.after (fs.mkdir p)).find q =
      if q = p ∧ fs.find p = none ∧ fs.HasParent p then some .dir else fs.find q := by
  unfold mkdir
  by_cases hnone : fs.find p = none
  · by_cases hup : fs.HasParent p
    · rw [if_pos hnone, dif_pos hup]
      simp only [after, find_put, hnone, hup, and_true]
    · rw [if_pos hnone, dif_neg hup, if_neg fun h => hup h.2.2]
      rfl
  · rw [if_neg hnone, if_neg fun h => hnone h.2.1]
    rfl

lemma write_isOk (fs : Fs N B) (p : List N) (c : List B) :
    (∃ fs', fs.write p c = .ok fs') ↔ fs.Writable p := by
  unfold write Writable
  by_cases hup : fs.HasParent p
  · by_cases hdir : fs.find p = some .dir
    · rw [dif_pos hup, dif_pos hdir]
      exact iff_of_false nofun fun h => h.2.1 hdir
    · by_cases hother : fs.find p = some .other
      · rw [dif_pos hup, dif_neg hdir, if_pos hother]
        exact iff_of_false nofun fun h => h.2.2 hother
      · rw [dif_pos hup, dif_neg hdir, if_neg hother]
        exact iff_of_true ⟨_, rfl⟩ ⟨hup, hdir, hother⟩
  · rw [dif_neg hup]
    exact iff_of_false nofun fun h => hup h.1

lemma find_write (fs : Fs N B) (p : List N) (c : List B) (q : List N) :
    (fs.after (fs.write p c)).find q =
      if q = p ∧ fs.Writable p then some (.file c) else fs.find q := by
  by_cases hw : fs.Writable p
  · have hwrite : fs.write p c = .ok (fs.put p (.file c) hw.1 (Or.inr hw.2.1)) := by
      unfold write
      rw [dif_pos hw.1, dif_neg hw.2.1, if_neg hw.2.2]
    rw [hwrite]
    simp only [after, find_put, hw, and_true]
  · rw [if_neg fun h => hw h.2]
    cases hwrite : fs.write p c with
    | ok fs' => exact absurd ((write_isOk fs p c).mp ⟨fs', hwrite⟩) hw
    | error r => rfl

lemma find_unlink (fs : Fs N B) (p q : List N) :
    (fs.after (fs.unlink p)).find q =
      if q = p ∧ fs.find p ≠ some .dir then none else fs.find q := by
  unfold unlink
  by_cases hnone : fs.find p = none
  · rw [if_pos hnone]
    show fs.find q = _
    by_cases hq : q = p
    · rw [hq, hnone, ite_self]
    · rw [if_neg fun h => hq h.1]
  · by_cases hdir : fs.find p = some .dir
    · rw [if_neg hnone, dif_pos hdir, if_neg fun h => h.2 hdir]
      rfl
    · rw [if_neg hnone, dif_neg hdir]
      simp only [after, find_erase, ne_eq, hdir, not_false_eq_true, and_true]

lemma find_rmdir (fs : Fs N B) (p q : List N) :
    (fs.after (fs.rmdir p)).find q =
      if q = p ∧ fs.find p = some .dir ∧ fs.Empty p then none else fs.find q := by
  unfold rmdir
  by_cases hdir : fs.find p = some .dir
  · have hnone : fs.find p ≠ none := by
      rw [hdir]
      exact nofun
    by_cases hempty : fs.Empty p
    · rw [if_neg hnone, if_pos hdir, dif_pos hempty]
      simp only [after, find_erase, hdir, hempty, and_true]
    · rw [if_neg hnone, if_pos hdir, dif_neg hempty, if_neg fun h => hempty h.2.2]
      rfl
  · have hkeep : ¬ (q = p ∧ fs.find p = some .dir ∧ fs.Empty p) := fun h => hdir h.2.1
    rw [if_neg hkeep, if_neg hdir]
    split <;> rfl

end Fs

end PhxQueue.Lib
