import PhxQueue.Lib.Run

/-!
# Worker processes

`MultiProc::ForkAndRun` of `comm/multiproc.cpp`, which keeps one process running for each vpid of a consumer.
The vpid of a process says which slots of the shared memory are its own, so that no two may have the same.
The process has other children as well (`HeartBeatLock::RunSync` and `FreqMan::Run` fork one each), and a pid
is given again once its last process has been waited for.

* `Parent`, `forked`, `wait`   the code;
* `multiProc`     its runs: when children die and what `fork` and `waitpid` return;
* `Inv`           each child that runs a vpid is the one in its place of `children_`;
* `one_process`   **no vpid ever has two processes; while it watches and no child is dead, each has one, but
                  those for which `fork` has failed, and these never again**.
-/

set_option linter.unusedSectionVars false

namespace PhxQueue.Comm.MultiProc
open Lib Lib.Machine

/-! ## The code -/

/-- A child of the process that has not been waited for; `vpid` says which `ChildRun` it runs, if any. -/
structure Child where
  vpid : Option ℕ
  alive : Bool := true

/-- Where `ForkAndRun` is: about to fork the first child of a vpid, in `waitpid`, or about to fork a child
again. -/
inductive Pc
  | first (vpid : ℕ)
  | watch
  | again (vpid : ℕ)

structure Parent where
  /-- `children_`; -1 is what a failed `fork` returns. -/
  children : List ℤ
  pc : Pc
  child : ℤ → Option Child := fun _ => none

inductive Event
  /-- `fork` of `ForkAndRun` returns a new pid, or fails. -/
  | fork (pid : Option ℤ)
  /-- `waitpid` returns a dead child. -/
  | wait (pid : ℤ)
  | die (pid : ℤ)
  /-- The process forks another child. -/
  | forkOther (pid : ℤ)

namespace Parent

def Fresh (w : Parent) (pid : ℤ) : Prop := 0 < pid ∧ w.child pid = none

instance (w : Parent) (pid : ℤ) : Decidable (w.Fresh pid) :=
  decidable_of_iff (0 < pid ∧ (w.child pid).isNone = true) (by unfold Fresh; rw [Option.isNone_iff_eq_none])

def setChild (w : Parent) (pid : ℤ) (c : Option Child) : Parent :=
  { w with child := Function.update w.child pid c }

/-- The loop over `i` goes on, or ends. -/
def firstPc (procs vpid : ℕ) : Pc := if vpid < procs then .first vpid else .watch

/-- `children_[i] = pid`, and the new child, if there is one. -/
def forked (w : Parent) (vpid : ℕ) (pid : Option ℤ) : Parent :=
  match pid with
  | none => { w with children := w.children.set vpid (-1) }
  | some pid => { w.setChild pid (some ⟨some vpid, true⟩) with children := w.children.set vpid pid }

/-- After `fork`. -/
def fork (procs : ℕ) (w : Parent) (pid : Option ℤ) : Parent :=
  match w.pc with
  | .first vpid => { w.forked vpid pid with pc := firstPc procs (vpid + 1) }
  | .watch => w
  | .again vpid => { w.forked vpid pid with pc := .watch }

/-- After `waitpid`: the loop over `children_`. -/
def wait (w : Parent) (pid : ℤ) : Parent :=
  match w.children.idxOf? pid with
  | some vpid => { w.setChild pid none with pc := .again vpid }
  | none => w.setChild pid none

/-- One step; an event that is not due changes nothing. -/
def step (procs : ℕ) (w : Parent) : Event → Parent
  | .fork pid => if ∀ p ∈ pid, w.Fresh p then w.fork procs pid else w
  | .wait pid =>
    match w.pc, w.child pid with
    | .watch, some c => if c.alive then w else w.wait pid
    | _, _ => w
  | .die pid =>
    match w.child pid with
    | some c => w.setChild pid (some { c with alive := false })
    | none => w
  | .forkOther pid => if w.Fresh pid then w.setChild pid (some ⟨none, true⟩) else w

end Parent

/-- `ForkAndRun` for so many processes. -/
def multiProc (procs : ℕ) : Machine Parent Event where
  init := { children := List.replicate procs 0, pc := Parent.firstPc procs 0 }
  step := Parent.step procs

/-! ## Places -/

/-- The child has been forked for the vpid; it may be dead. -/
def Parent.Has (w : Parent) (vpid : ℕ) (pid : ℤ) : Prop := ∃ c, w.child pid = some c ∧ c.vpid = some vpid

def Parent.Runs (w : Parent) (vpid : ℕ) (pid : ℤ) : Prop :=
  ∃ c, w.child pid = some c ∧ c.vpid = some vpid ∧ c.alive = true

/-- `fork` has failed for the vpid. -/
def Parent.Lost (w : Parent) (vpid : ℕ) : Prop := w.children[vpid]? = some (-1)

def Pc.Due (vpid : ℕ) : Pc → Prop
  | .first next => next ≤ vpid
  | .watch => False
  | .again next => vpid = next

/-- Each child that runs a vpid is the one in its place of `children_`, and each place has its child. -/
structure Inv (procs : ℕ) (w : Parent) : Prop where
  length : w.children.length = procs
  pos : ∀ pid c, w.child pid = some c → 0 < pid
  own : ∀ vpid pid, w.Has vpid pid → w.children[vpid]? = some pid
  due : ∀ vpid pid, w.Has vpid pid → ¬ w.pc.Due vpid
  place : ∀ vpid, vpid < procs → w.Lost vpid ∨ (∃ pid, w.Has vpid pid) ∨ w.pc.Due vpid
  lost : ∀ vpid, w.Lost vpid → ¬ w.pc.Due vpid
  bound : ∀ vpid, w.pc = .first vpid ∨ w.pc = .again vpid → vpid < procs

section
variable {procs : ℕ} {w : Parent} {vpid : ℕ} {pid : ℤ}

namespace Parent

lemma Runs.has (h : w.Runs vpid pid) : w.Has vpid pid := by
  obtain ⟨c, hc, hv, -⟩ := h
  exact ⟨c, hc, hv⟩

lemma setChild_child (c : Option Child) (p : ℤ) :
    (w.setChild pid c).child p = if p = pid then c else w.child p := Function.update_apply _ _ _ _

/-- What a new or a changed child leaves of the vpids of the others. -/
lemma setChild_has {c : Option Child} {v : ℕ} {p : ℤ} :
    (w.setChild pid c).Has v p ↔
      (p = pid ∧ ∃ c', c = some c' ∧ c'.vpid = some v) ∨ (p ≠ pid ∧ w.Has v p) := by
  unfold Has
  rw [setChild_child]
  by_cases hp : p = pid
  · rw [if_pos hp]
    simp [hp]
  · rw [if_neg hp]
    simp [hp]

end Parent

lemma lt_of_firstPc {v : ℕ}
    (h : Parent.firstPc procs vpid = .first v ∨ Parent.firstPc procs vpid = .again v) : v < procs := by
  unfold Parent.firstPc at h
  split at h
  · rename_i hlt
    rcases h with h | h
    · cases h
      exact hlt
    · cases h
  · rcases h with h | h
    · cases h
    · cases h

lemma firstPc_due {v : ℕ} (hv : v < procs) : (Parent.firstPc procs vpid).Due v ↔ vpid ≤ v := by
  unfold Parent.firstPc
  split
  · exact Iff.rfl
  · rename_i hge
    refine iff_of_false (fun h => h) ?_
    omega

namespace Inv

lemma lt_of_has (h : Inv procs w) (hhas : w.Has vpid pid) : vpid < procs := by
  have hat := h.own vpid pid hhas
  rw [← h.length]
  exact (List.getElem?_eq_some_iff.mp hat).1

lemma lt_of_lost (h : Inv procs w) (hlost : w.Lost vpid) : vpid < procs := by
  rw [← h.length]
  exact (List.getElem?_eq_some_iff.mp hlost).1

lemma init : Inv procs (multiProc procs).init where
  length := List.length_replicate
  pos pid c hc := by cases hc
  own v p hhas := by
    obtain ⟨c, hc, -⟩ := hhas
    cases hc
  due v p hhas := by
    obtain ⟨c, hc, -⟩ := hhas
    cases hc
  place v hv := .inr (.inr ((firstPc_due hv).mpr v.zero_le))
  lost v hlost := by
    change (List.replicate procs (0 : ℤ))[v]? = some (-1) at hlost
    rw [List.getElem?_replicate] at hlost
    split at hlost
    · cases hlost
    · cases hlost
  bound v hv := lt_of_firstPc hv

/-- A child that runs no vpid, or a dead one, is as good as another. -/
lemma setChild (h : Inv procs w) {c : Child} (hpos : 0 < pid)
    (hsame : ∀ v, c.vpid = some v ↔ w.Has v pid) : Inv procs (w.setChild pid (some c)) := by
  have hhas (v : ℕ) (p : ℤ) : (w.setChild pid (some c)).Has v p ↔ w.Has v p := by
    rw [Parent.setChild_has]
    constructor
    · rintro (⟨rfl, c', hc', hv⟩ | ⟨-, hhas⟩)
      · cases hc'
        exact (hsame v).mp hv
      · exact hhas
    · intro hold
      by_cases hp : p = pid
      · subst hp
        exact .inl ⟨rfl, c, rfl, (hsame v).mpr hold⟩
      · exact .inr ⟨hp, hold⟩
  refine ⟨h.length, ?_, ?_, ?_, ?_, h.lost, h.bound⟩
  · intro p c' hc'
    rw [Parent.setChild_child] at hc'
    split at hc'
    · rename_i hp
      rw [hp]
      exact hpos
    · exact h.pos p c' hc'
  · intro v p hv
    exact h.own v p ((hhas v p).mp hv)
  · intro v p hv
    exact h.due v p ((hhas v p).mp hv)
  · intro v hv
    rcases h.place v hv with hlost | ⟨p, hp⟩ | hdue
    · exact .inl hlost
    · exact .inr (.inl ⟨p, (hhas v p).mpr hp⟩)
    · exact .inr (.inr hdue)

/-- `fork` for a vpid that is due. -/
lemma forked (h : Inv procs w) (hlt : vpid < procs) (hdue : w.pc.Due vpid) {pid : Option ℤ}
    (hfresh : ∀ p ∈ pid, w.Fresh p) {pc : Pc}
    (hpc : ∀ v, v < procs → (pc.Due v ↔ w.pc.Due v ∧ v ≠ vpid))
    (hbound : ∀ v, pc = .first v ∨ pc = .again v → v < procs) :
    Inv procs { w.forked vpid pid with pc } := by
  have hother {v : ℕ} (hv : v ≠ vpid) (x : ℤ) : (w.children.set vpid x)[v]? = w.children[v]? :=
    List.getElem?_set_ne hv.symm
  have hself (x : ℤ) : (w.children.set vpid x)[vpid]? = some x :=
    List.getElem?_set_self (by rw [h.length]; exact hlt)
  cases pid with
  | none =>
    refine ⟨(List.length_set ..).trans h.length, h.pos, ?_, ?_, ?_, ?_, hbound⟩
    · intro v p hv
      have hne : v ≠ vpid := fun heq => h.due v p hv (heq ▸ hdue)
      exact (hother hne _).trans (h.own v p hv)
    · intro v p hv hd
      exact h.due v p hv ((hpc v (h.lt_of_has hv)).mp hd).1
    · intro v hv
      by_cases hne : v = vpid
      · subst hne
        exact .inl (hself _)
      rcases h.place v hv with hlost | hhas | hd
      · exact .inl ((hother hne _).trans hlost)
      · exact .inr (.inl hhas)
      · exact .inr (.inr ((hpc v hv).mpr ⟨hd, hne⟩))
    · intro v hlost hd
      change (w.children.set vpid (-1))[v]? = some (-1) at hlost
      by_cases hne : v = vpid
      · subst hne
        exact ((hpc v hlt).mp hd).2 rfl
      · rw [hother hne] at hlost
        exact h.lost v hlost ((hpc v (h.lt_of_lost hlost)).mp hd).1
  | some pid =>
    obtain ⟨hpos, hnone⟩ := hfresh pid rfl
    -- the new child is the only one of the vpid
    have hhas (v : ℕ) (p : ℤ) : ({ w.forked vpid (some pid) with pc } : Parent).Has v p ↔
        (v = vpid ∧ p = pid) ∨ (v ≠ vpid ∧ w.Has v p) := by
      refine Parent.setChild_has.trans ?_
      constructor
      · rintro (⟨rfl, c, hc, hv⟩ | ⟨-, hold⟩)
        · cases hc
          cases hv
          exact .inl ⟨rfl, rfl⟩
        · exact .inr ⟨fun heq => h.due v p hold (heq ▸ hdue), hold⟩
      · rintro (⟨rfl, rfl⟩ | ⟨-, hold⟩)
        · exact .inl ⟨rfl, _, rfl, rfl⟩
        · refine .inr ⟨?_, hold⟩
          rintro rfl
          obtain ⟨c, hc, -⟩ := hold
          rw [hnone] at hc
          cases hc
    refine ⟨(List.length_set ..).trans h.length, ?_, ?_, ?_, ?_, ?_, hbound⟩
    · intro p c hc
      change (w.setChild pid (some ⟨some vpid, true⟩)).child p = some c at hc
      rw [Parent.setChild_child] at hc
      split at hc
      · rename_i hp
        rw [hp]
        exact hpos
      · exact h.pos p c hc
    · intro v p hv
      rcases (hhas v p).mp hv with ⟨rfl, rfl⟩ | ⟨hne, hold⟩
      · exact hself _
      · exact (hother hne _).trans (h.own v p hold)
    · intro v p hv hd
      have hd' := (hpc v (by
        rcases (hhas v p).mp hv with ⟨rfl, -⟩ | ⟨-, hold⟩
        · exact hlt
        · exact h.lt_of_has hold)).mp hd
      rcases (hhas v p).mp hv with ⟨heq, -⟩ | ⟨-, hold⟩
      · exact hd'.2 heq
      · exact h.due v p hold hd'.1
    · intro v hv
      by_cases hne : v = vpid
      · exact .inr (.inl ⟨pid, (hhas v pid).mpr (.inl ⟨hne, rfl⟩)⟩)
      rcases h.place v hv with hlost | ⟨p, hp⟩ | hd
      · exact .inl ((hother hne _).trans hlost)
      · exact .inr (.inl ⟨p, (hhas v p).mpr (.inr ⟨hne, hp⟩)⟩)
      · exact .inr (.inr ((hpc v hv).mpr ⟨hd, hne⟩))
    · intro v hlost hd
      change (w.children.set vpid pid)[v]? = some (-1) at hlost
      by_cases hne : v = vpid
      · subst hne
        rw [hself] at hlost
        cases hlost
        omega
      · rw [hother hne] at hlost
        exact h.lost v hlost ((hpc v (h.lt_of_lost hlost)).mp hd).1

lemma fork (h : Inv procs w) {pid : Option ℤ} (hfresh : ∀ p ∈ pid, w.Fresh p) :
    Inv procs (w.fork procs pid) := by
  unfold Parent.fork
  cases hpc : w.pc with
  | first v =>
    refine h.forked (h.bound v (.inl hpc)) ?_ hfresh ?_ fun u hu => lt_of_firstPc hu
    · rw [hpc]
      exact le_refl v
    · intro u hu
      rw [firstPc_due hu, hpc]
      show v + 1 ≤ u ↔ v ≤ u ∧ u ≠ v
      omega
  | watch => exact h
  | again v =>
    refine h.forked (h.bound v (.inr hpc)) ?_ hfresh ?_ ?_
    · rw [hpc]
      rfl
    · intro u _
      rw [hpc]
      exact (and_not_self_iff (u = v)).symm
    · rintro u (hu | hu)
      · cases hu
      · cases hu

/-- The child of a place is the one that is waited for. -/
lemma wait (h : Inv procs w) (hpc : w.pc = .watch) {c : Child} (hc : w.child pid = some c) :
    Inv procs (w.wait pid) := by
  have hpos : 0 < pid := h.pos pid c hc
  have hdone (v : ℕ) : ¬ w.pc.Due v := by
    rw [hpc]
    exact fun hd => hd
  have hhas (v : ℕ) (p : ℤ) : (w.setChild pid none).Has v p ↔ p ≠ pid ∧ w.Has v p := by
    rw [Parent.setChild_has]
    simp
  have hkeep (p : ℤ) (c' : Child) (hc' : (w.setChild pid none).child p = some c') : 0 < p := by
    rw [Parent.setChild_child] at hc'
    split at hc'
    · cases hc'
    · exact h.pos p c' hc'
  unfold Parent.wait
  cases hidx : w.children.idxOf? pid with
  | some v =>
    obtain ⟨hlt, hat, -⟩ := List.idxOf?_eq_some_iff.mp hidx
    have hget : w.children[v]? = some pid := List.getElem?_eq_some_iff.mpr ⟨hlt, hat⟩
    have hv : v < procs := h.length ▸ hlt
    have hone {u : ℕ} (hu : w.Has u pid) : u = v := by
      rcases h.place v hv with hlost | ⟨p, hp⟩ | hd
      · unfold Parent.Lost at hlost
        rw [hget] at hlost
        cases hlost
        omega
      · have hown := h.own v p hp
        rw [hget] at hown
        cases hown
        obtain ⟨c₁, hc₁, hv₁⟩ := hp
        obtain ⟨c₂, hc₂, hv₂⟩ := hu
        rw [hc₁] at hc₂
        cases hc₂
        rw [hv₁] at hv₂
        exact (Option.some.inj hv₂).symm
      · exact absurd hd (hdone v)
    refine ⟨h.length, hkeep, ?_, ?_, ?_, ?_, ?_⟩
    · intro u p hu
      exact h.own u p ((hhas u p).mp hu).2
    · rintro u p hu rfl
      obtain ⟨hne, hold⟩ := (hhas u p).mp hu
      have hown := h.own u p hold
      rw [hget] at hown
      exact hne (Option.some.inj hown).symm
    · intro u hu
      rcases h.place u hu with hlost | ⟨p, hp⟩ | hd
      · exact .inl hlost
      · by_cases hne : p = pid
        · exact .inr (.inr (hone (hne ▸ hp)))
        · exact .inr (.inl ⟨p, (hhas u p).mpr ⟨hne, hp⟩⟩)
      · exact absurd hd (hdone u)
    · rintro u hlost rfl
      change w.children[u]? = some (-1) at hlost
      rw [hget] at hlost
      cases hlost
      omega
    · rintro u (hu | hu)
      · cases hu
      · cases hu
        exact hv
  | none =>
    -- it runs no vpid
    have hno (u : ℕ) (hu : w.Has u pid) : False := by
      have hmem := List.mem_of_getElem? (h.own u pid hu)
      exact List.idxOf?_eq_none_iff.mp hidx hmem
    refine ⟨h.length, hkeep, ?_, ?_, ?_, h.lost, h.bound⟩
    · intro u p hu
      exact h.own u p ((hhas u p).mp hu).2
    · intro u p hu
      exact h.due u p ((hhas u p).mp hu).2
    · intro u hu
      rcases h.place u hu with hlost | ⟨p, hp⟩ | hd
      · exact .inl hlost
      · refine .inr (.inl ⟨p, (hhas u p).mpr ⟨?_, hp⟩⟩)
        rintro rfl
        exact hno u hp
      · exact .inr (.inr hd)

theorem step (h : Inv procs w) (e : Event) : Inv procs (w.step procs e) := by
  cases e with
  | fork pid =>
    show Inv procs (if ∀ p ∈ pid, w.Fresh p then w.fork procs pid else w)
    split
    · rename_i hfresh
      exact h.fork hfresh
    · exact h
  | wait pid =>
    show Inv procs (match w.pc, w.child pid with
      | .watch, some c => if c.alive then w else w.wait pid
      | _, _ => w)
    split
    · rename_i c hpc hc
      split
      · exact h
      · exact h.wait hpc hc
    · exact h
  | die pid =>
    show Inv procs (match w.child pid with
      | some c => w.setChild pid (some { c with alive := false })
      | none => w)
    split
    · rename_i c hc
      refine h.setChild (h.pos pid c hc) fun v => ?_
      unfold Parent.Has
      rw [hc]
      simp
    · exact h
  | forkOther pid =>
    show Inv procs (if w.Fresh pid then w.setChild pid (some ⟨none, true⟩) else w)
    split
    · rename_i hfresh
      refine h.setChild hfresh.1 fun v => ?_
      unfold Parent.Has
      rw [hfresh.2]
      simp
    · exact h

end Inv

/-! ## Lost vpids -/

theorem lost_step (h : Inv procs w) (hlost : w.Lost vpid) (e : Event) : (w.step procs e).Lost vpid := by
  have hforked (v : ℕ) (hd : w.pc.Due v) (pid : Option ℤ) :
      (w.forked v pid).children[vpid]? = some (-1) := by
    have hne : v ≠ vpid := by
      rintro rfl
      exact h.lost v hlost hd
    cases pid with
    | none => exact (List.getElem?_set_ne hne).trans hlost
    | some pid => exact (List.getElem?_set_ne hne).trans hlost
  cases e with
  | fork pid =>
    show Parent.Lost (if ∀ p ∈ pid, w.Fresh p then w.fork procs pid else w) vpid
    split
    · unfold Parent.fork
      cases hpc : w.pc with
      | first v => exact hforked v (by rw [hpc]; exact le_refl v) pid
      | watch => exact hlost
      | again v => exact hforked v (by rw [hpc]; rfl) pid
    · exact hlost
  | wait pid =>
    show Parent.Lost (match w.pc, w.child pid with
      | .watch, some c => if c.alive then w else w.wait pid
      | _, _ => w) vpid
    split
    · split
      · exact hlost
      · unfold Parent.wait
        split
        · exact hlost
        · exact hlost
    · exact hlost
  | die pid =>
    show Parent.Lost (match w.child pid with
      | some c => w.setChild pid (some { c with alive := false })
      | none => w) vpid
    split
    · exact hlost
    · exact hlost
  | forkOther pid =>
    show Parent.Lost (if w.Fresh pid then w.setChild pid (some ⟨none, true⟩) else w) vpid
    split
    · exact hlost
    · exact hlost

lemma not_runs_of_lost (h : Inv procs w) (hlost : w.Lost vpid) : ¬ w.Runs vpid pid := by
  intro hruns
  have hown := h.own vpid pid hruns.has
  rw [hlost] at hown
  cases hown
  obtain ⟨c, hc, -⟩ := hruns
  have hpos := h.pos _ c hc
  omega

end

/-- **The processes of the vpids**, in every run, whenever children die and whatever `fork` returns.  No vpid
has two processes.  While the parent watches and has no dead child to wait for, the vpids below `procs` have
one, but those for which `fork` has failed; and these have none ever after. -/
theorem one_process (procs : ℕ) (events : List Event) :
    let w := (multiProc procs).exec (multiProc procs).init events
    (∀ vpid pid pid', w.Runs vpid pid → w.Runs vpid pid' → pid = pid' ∧ vpid < procs) ∧
    (w.pc = .watch → (∀ pid c, w.child pid = some c → c.alive = true) →
      ∀ vpid, vpid < procs → ¬ w.Lost vpid → ∃ pid, w.Runs vpid pid) ∧
    (∀ vpid, w.Lost vpid → ∀ later pid, ¬ ((multiProc procs).exec w later).Runs vpid pid) := by
  intro w
  have hstep (w : Parent) (e : Event) (h : Inv procs w) : Inv procs ((multiProc procs).step w e) := h.step e
  have hw : Inv procs w := (Always.of_step hstep Inv.init events).last
  refine ⟨?_, ?_, ?_⟩
  · intro vpid pid pid' hp hp'
    have hown := hw.own vpid pid hp.has
    rw [hw.own vpid pid' hp'.has] at hown
    exact ⟨(Option.some.inj hown).symm, hw.lt_of_has hp.has⟩
  · intro hpc halive vpid hv hnot
    rcases hw.place vpid hv with hlost | ⟨pid, c, hc, hvpid⟩ | hd
    · exact absurd hlost hnot
    · exact ⟨pid, c, hc, hvpid, halive pid c hc⟩
    · rw [hpc] at hd
      exact hd.elim
  · intro vpid hlost later pid
    have hlater (w : Parent) (e : Event) (h : Inv procs w ∧ w.Lost vpid) :
        Inv procs ((multiProc procs).step w e) ∧ ((multiProc procs).step w e).Lost vpid :=
      ⟨h.1.step e, lost_step h.1 h.2 e⟩
    have hend := (Always.of_step hlater ⟨hw, hlost⟩ later).last
    exact not_runs_of_lost hend.1 hend.2

end PhxQueue.Comm.MultiProc
