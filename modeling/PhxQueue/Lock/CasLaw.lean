import PhxQueue.Lock.Service

/-!
# The compare-and-swap law of locks

On a serving master, acquires, releases and the deletions of the clean thread compete for one key,
each carrying the version its proposer has read.

* `Acquires`, `Deletes`   the steps that acquire a key, and that are meant to delete it;
* `CasLaw`             of two acquires that read one version only the first succeeds, versions are
                       not reused, and a deletion spares what was acquired after its read;
* `ReleaseCarries`     a direct deletion finds the record it is meant for, or none;
* `casLaw_run`         **the law, when direct deletions do**;
* `renewedRelease_not_casLaw`   one that does not.
-/

set_option linter.unusedSectionVars false

namespace PhxQueue.Lock
open Comm Lib

/-! ## What happens to a key -/

namespace Master

def cellAt (s : Master) (k : String) : Cas.Cell (String × ℕ) := s.g.map[k]?.map (·.view)

/-- The version a client reads: that of the record, or 0 for a missing key. -/
def observed (s : Master) (k : String) : ℕ := ((s.cellAt k).map Prod.fst).getD 0

def executes (s : Master) : Event → Option (ℕ × ℕ × LockPaxosArgs)
  | .choose h i now =>
    match s.handler h with
    | .proposing req => some (i, now, acquireArgs req)
    | _ => none
  | .chooseOther args i now => some (i, now, args)
  | _ => none

/-- The request whose record an event deletes from the map directly. -/
def deletesDirectly (s : Master) : Event → Option LockInfo
  | .reply h =>
    match s.handler h with
    | .proposed req _ => if req.leaseTimeMs = 0 then some req else none
    | _ => none
  | _ => none

/-- The event executes a successful acquire of `k`, as instance `i`, carrying the version `v`. -/
def Acquires (s : Master) (e : Event) (k : String) (v i : ℕ) : Prop :=
  ∃ now req args, s.executes e = some (i, now, args) ∧ args.acquireLockReq = some req ∧
    req.lockKey = k ∧ req.version = v ∧ req.leaseTimeMs ≠ 0 ∧ s.result i now args = .ok

/-- The event is a deletion of `k` carrying the version `v`: an instance of the clean thread or of
a release, or the direct deletion that ends a release. -/
def Deletes (s : Master) (e : Event) (k : String) (v : ℕ) : Prop :=
  (∃ i now req args, s.executes e = some (i, now, args) ∧ args.acquireLockReq = some req ∧
    req.lockKey = k ∧ req.version = v ∧ req.leaseTimeMs = 0) ∨
  ∃ req, s.deletesDirectly e = some req ∧ req.lockKey = k ∧ req.version = v

end Master

/-- The master after the first `n` events of a run. -/
def after (es : List Event) (n : ℕ) : Master := master.exec master.init (es.take n)

/-- The instance ids that are chosen grow, from 1 on. -/
def IdsGrow (es : List Event) : Prop :=
  (master.exec master.init es).chosen.Pairwise (fun c d => c.1 < d.1) ∧
    ∀ c ∈ (master.exec master.init es).chosen, 1 ≤ c.1

structure CasLaw (es : List Event) : Prop where
  /-- Two successful acquires carry the same observed version: the key was deleted in between. -/
  swap : ∀ n n' e e' k v i i', n < n' → es[n]? = some e → es[n']? = some e' →
    (after es n).Acquires e k v i → (after es n').Acquires e' k v i' →
    (∃ m ≤ n, (after es m).observed k = v) →
    ∃ d, n < d ∧ d < n' ∧ (after es d).cellAt k ≠ none ∧ (after es (d + 1)).cellAt k = none
  /-- A successful acquire makes the version its instance id, which it has never been. -/
  own : ∀ n e k v i, es[n]? = some e → (after es n).Acquires e k v i →
    (after es (n + 1)).observed k = i ∧ ∀ m ≤ n, (after es m).observed k ≠ i
  /-- A deletion carrying a version read before some acquire leaves the key as it is. -/
  spare : ∀ r m d e e' k v v' i, r ≤ m → m < d → es[m]? = some e → es[d]? = some e' →
    (after es r).observed k = v → (after es m).Acquires e k v' i → (after es d).Deletes e' k v →
    (after es (d + 1)).cellAt k = (after es d).cellAt k

/-- A direct deletion finds no record, or one with the version its request carries. -/
def ReleaseCarries (s : Master) (e : Event) : Prop :=
  ∀ req ∈ s.deletesDirectly e, ∀ r ∈ s.g.map[req.lockKey]?, r.version = req.version

instance (s : Master) (e : Event) : Decidable (ReleaseCarries s e) :=
  inferInstanceAs (Decidable (∀ req ∈ s.deletesDirectly e, ∀ r ∈ s.g.map[req.lockKey]?, _ = _))

/-! ## One step -/

lemma Master.recordAt_map (s : Master) {k : String} (hk : k ≠ "") :
    recordAt s.g.map k = .ok (s.cellAt k) := LockMap.recordAt_eq _ hk

/-- What an instance leaves: the cell as it was, nothing, or its own record. -/
lemma LockPaxosArgs.cell_cases (args : LockPaxosArgs) (i : ℕ) (k : String)
    (c : Cas.Cell (String × ℕ)) :
    args.cell i k c = c ∨ args.cell i k c = none ∨ ∃ a, args.cell i k c = some (i, a) := by
  unfold LockPaxosArgs.cell
  split
  · exact .inl rfl
  · rename_i op _
    split
    · unfold Cas.Op.cell
      split
      · refine .inr ?_
        unfold Cas.Op.result
        cases op.put with
        | none => exact .inl rfl
        | some a => exact .inr ⟨a, rfl⟩
      · exact .inl rfl
    · exact .inl rfl

lemma Master.step_of_executes {s : Master} {e : Event} {i now : ℕ} {args : LockPaxosArgs}
    (h : s.executes e = some (i, now, args)) :
    (s.step e).chosen = s.chosen ++ [(i, args)] ∧
      ∀ k, k ≠ "" → (s.step e).cellAt k = args.cell i k (s.cellAt k) := by
  have hexec : ∀ k, k ≠ "" → (s.execute i now args).cellAt k = args.cell i k (s.cellAt k) := by
    intro k hk
    have hmap := doExecute_map s.g now i args false hk (s.recordAt_map hk)
    exact Except.ok.inj ((Master.recordAt_map (s.execute i now args) hk).symm.trans hmap)
  cases e with
  | choose n j now' =>
    cases hh : s.handler n with
    | proposing req =>
      simp only [Master.executes, hh, Option.some.injEq, Prod.mk.injEq] at h
      obtain ⟨rfl, rfl, rfl⟩ := h
      have hstep : s.step (.choose n j now') = (s.execute j now' (acquireArgs req)).set n
          (.proposed req (s.result j now' (acquireArgs req))) := by
        dsimp only [Master.step]
        rw [hh]
      rw [hstep]
      exact ⟨rfl, hexec⟩
    | _ =>
      simp only [Master.executes, hh] at h
      cases h
  | chooseOther args' j now' =>
    cases h
    exact ⟨rfl, hexec⟩
  | _ => cases h

lemma deleteLock_map (m : LockMap) {key k : String} (hk : k ≠ "") :
    (deleteLock m {} key false).2[k]? = if key = k then none else m[k]? := by
  unfold deleteLock deleteUser
  by_cases hkey : key = ""
  · rw [if_pos hkey, if_neg (by rw [hkey]; exact Ne.symm hk)]
  · rw [if_neg hkey, show keyUserLockPrefix ++ key = key from String.empty_append]
    show (if key = "" then _ else _ : RetCode × LockMap).2[k]? = _
    rw [if_neg hkey, Std.ExtTreeMap.getElem?_erase]
    by_cases hkk : key = k <;> simp [hkk]

lemma Master.step_reply {s : Master} {n : ℕ} {req : LockInfo} {ret : RetCode}
    (hh : s.handler n = .proposed req ret) : (s.step (.reply n)).chosen = s.chosen ∧
      ∀ k, k ≠ "" → (s.step (.reply n)).cellAt k =
        if req.leaseTimeMs = 0 ∧ req.lockKey = k then none else s.cellAt k := by
  have hstep : s.step (.reply n) = s.reply n req ret := by
    dsimp only [Master.step]
    rw [hh]
  rw [hstep]
  refine ⟨rfl, fun k hk => ?_⟩
  show ((finishRelease s.g.map req ret).2[k]?).map _ = _
  unfold finishRelease
  by_cases hl : req.leaseTimeMs = 0
  · rw [if_pos hl, deleteLock_map _ hk]
    by_cases hkk : req.lockKey = k
    · rw [if_pos hkk, if_pos ⟨hl, hkk⟩]
      rfl
    · rw [if_neg hkk, if_neg fun h => hkk h.2]
      rfl
  · rw [if_neg hl, if_neg fun h => hl h.1]
    rfl

lemma Master.step_of_not_executes {s : Master} {e : Event} (h : s.executes e = none) :
    (s.step e).chosen = s.chosen ∧ ∀ k, k ≠ "" → (s.step e).cellAt k =
      if (s.deletesDirectly e).map (·.lockKey) = some k then none else s.cellAt k := by
  have hsame : ∀ {s' : Master}, s'.chosen = s.chosen → s'.g.map = s.g.map →
      s'.chosen = s.chosen ∧ ∀ k, k ≠ "" → s'.cellAt k =
        if (none : Option LockInfo).map (·.lockKey) = some k then none else s.cellAt k := by
    intro s' hchosen hmap
    refine ⟨hchosen, fun k _ => ?_⟩
    rw [if_neg (fun h => nomatch h)]
    unfold Master.cellAt
    rw [hmap]
  cases e with
  | call n req masterRet =>
    have hcall : (s.call n req masterRet).chosen = s.chosen ∧
        (s.call n req masterRet).g.map = s.g.map := by
      unfold Master.call
      split
      · exact ⟨rfl, rfl⟩
      · split <;> exact ⟨rfl, rfl⟩
    dsimp only [Master.step, Master.deletesDirectly]
    split
    · exact hsame hcall.1 hcall.2
    · exact hsame hcall.1 hcall.2
    · exact hsame rfl rfl
  | check n =>
    dsimp only [Master.step, Master.deletesDirectly]
    split
    · unfold Master.check
      dsimp only
      split <;> exact hsame rfl rfl
    · exact hsame rfl rfl
  | choose n i now =>
    dsimp only [Master.step, Master.deletesDirectly]
    cases hh : s.handler n with
    | proposing req =>
      simp only [Master.executes, hh] at h
      cases h
    | _ => exact hsame rfl rfl
  | chooseOther args i now => cases h
  | fail n err =>
    dsimp only [Master.step, Master.deletesDirectly]
    split <;> exact hsame rfl rfl
  | reply n =>
    cases hh : s.handler n with
    | proposed req ret =>
      obtain ⟨hchosen, hcell⟩ := Master.step_reply hh
      refine ⟨hchosen, fun k hk => ?_⟩
      rw [hcell k hk]
      simp only [Master.deletesDirectly, hh]
      by_cases hl : req.leaseTimeMs = 0
      · simp only [hl, if_true, Option.map_some, Option.some.injEq, true_and]
      · simp only [hl, if_false, Option.map_none, false_and, reduceCtorEq]
    | _ =>
      have hstep : s.step (.reply n) = s := by simp only [Master.step, hh]
      have hdirect : s.deletesDirectly (.reply n) = none := by
        simp only [Master.deletesDirectly, hh]
      rw [hstep, hdirect]
      exact hsame rfl rfl

/-! ## Acquires and deletions -/

/-- A successful acquire found nothing, or a record of the version it carries. -/
lemma Master.Acquires.spec {s : Master} {e : Event} {k : String} {v i : ℕ}
    (h : s.Acquires e k v i) : k ≠ "" ∧ (∀ w a, s.cellAt k = some (w, a) → w = v) ∧
      (∃ a, (s.step e).cellAt k = some (i, a)) ∧
      ∃ args, (s.step e).chosen = s.chosen ++ [(i, args)] := by
  obtain ⟨now, req, args, hexec, hreq, rfl, rfl, hlease, hres⟩ := h
  have hw : args.write i = some (false, ⟨req.version, req.lockKey⟩,
      localRecordInfo i req.clientId req.leaseTimeMs) := by
    unfold LockPaxosArgs.write
    rw [hreq]
  have hret : s.result i now args = (conditionalWrite "" false s.g.map {} now
      ⟨req.version, req.lockKey⟩ (localRecordInfo i req.clientId req.leaseTimeMs) false).1 := by
    show ((doExecute .map s.g {} now i args false).2.2).getD .ok = _
    rw [doExecute_eq, hw]
    rfl
  have hk : req.lockKey ≠ "" := by
    intro hk
    rw [hret, conditionalWrite_empty _ _ _ _ hk] at hres
    cases hres
  obtain ⟨hchosen, hcell⟩ := Master.step_of_executes hexec
  rw [hret, conditionalWrite_ret false now hk _ false (s.recordAt_map hk)] at hres
  have htakes : (writeOp false ⟨req.version, req.lockKey⟩
      (localRecordInfo i req.clientId req.leaseTimeMs)).Takes (s.cellAt req.lockKey) := by
    by_contra hn
    rw [if_neg hn] at hres
    cases hres
  refine ⟨hk, fun w a hwa => ?_, ?_, args, hchosen⟩
  · rw [hwa] at htakes
    exact ((writeOp_takes_some _ _ _ _ _).mp htakes).resolve_left fun h => nomatch h.1
  · rw [hcell _ hk]
    unfold LockPaxosArgs.cell LockPaxosArgs.op
    rw [hw]
    simp only [hk, if_false]
    show ∃ a, (if req.lockKey = req.lockKey then _ else _) = _
    rw [if_pos rfl, Cas.Op.cell_of_takes htakes]
    unfold Cas.Op.result writeOp localRecordInfo
    rw [if_neg hlease]
    exact ⟨_, rfl⟩

/-- A deletion leaves a record of another version alone, when direct deletions do. -/
lemma Master.Deletes.spec {s : Master} {e : Event} {k : String} {v : ℕ} (hk : k ≠ "")
    (h : s.Deletes e k v) (hok : ReleaseCarries s e)
    (hne : ∀ w a, s.cellAt k = some (w, a) → w ≠ v) : (s.step e).cellAt k = s.cellAt k := by
  rcases h with ⟨i, now, req, args, hexec, hreq, rfl, rfl, hlease⟩ | ⟨req, hdirect, rfl, rfl⟩
  · have hw : args.write i = some (false, ⟨req.version, req.lockKey⟩,
        localRecordInfo i req.clientId req.leaseTimeMs) := by
      unfold LockPaxosArgs.write
      rw [hreq]
    rw [(Master.step_of_executes hexec).2 _ hk]
    unfold LockPaxosArgs.cell LockPaxosArgs.op
    rw [hw]
    simp only [hk, if_false]
    show (if req.lockKey = req.lockKey then _ else _) = _
    rw [if_pos rfl]
    cases hc : s.cellAt req.lockKey with
    | none =>
      rw [Cas.Op.cell_of_takes (Cas.Op.takes_none _)]
      unfold Cas.Op.result writeOp localRecordInfo
      rw [if_pos hlease]
      rfl
    | some r =>
      obtain ⟨w, a⟩ := r
      refine Cas.Op.cell_of_not_takes (fun ht => ?_) i
      rcases (writeOp_takes_some _ _ _ _ _).mp ht with hforce | hver
      · exact nomatch hforce.1
      · exact hne w a hc hver
  · have hnot : s.executes e = none := by
      cases e with
      | reply n => rfl
      | _ => cases hdirect
    rw [(Master.step_of_not_executes hnot).2 _ hk, hdirect, Option.map_some, if_pos rfl]
    cases hm : s.g.map[req.lockKey]? with
    | none =>
      unfold Master.cellAt
      rw [hm]
      rfl
    | some r =>
      have hver := hok req hdirect r hm
      have hcell : s.cellAt req.lockKey = some (r.version, (r.value, r.leaseTimeMs)) := by
        unfold Master.cellAt
        rw [hm]
        rfl
      exact absurd hver (hne _ _ hcell)

/-! ## Runs -/

section
variable {es : List Event}

lemma after_succ {n : ℕ} {e : Event} (h : es[n]? = some e) :
    after es (n + 1) = (after es n).step e := by
  unfold after
  rw [List.take_add_one, h, Machine.exec_append]
  rfl

lemma after_of_length_le {n : ℕ} (h : es.length ≤ n) : after es n = master.exec master.init es := by
  unfold after
  rw [List.take_of_length_le h]

lemma chosen_exec (s : Master) (es : List Event) :
    s.chosen <+: (master.exec s es).chosen := by
  induction es generalizing s with
  | nil => exact List.prefix_refl _
  | cons e es ih =>
    refine List.IsPrefix.trans ?_ (ih (s.step e))
    cases hexec : s.executes e with
    | none => rw [(Master.step_of_not_executes hexec).1]
    | some x =>
      obtain ⟨i, now, args⟩ := x
      rw [(Master.step_of_executes hexec).1]
      exact List.prefix_append _ _

lemma chosen_mono {m n : ℕ} (h : m ≤ n) : (after es m).chosen <+: (after es n).chosen := by
  have hexec := chosen_exec (after es m) ((es.take n).drop m)
  have htake : (es.take n).take m = es.take m := by rw [List.take_take, min_eq_left h]
  unfold after at hexec ⊢
  rw [← Machine.exec_append, ← htake, List.take_append_drop, htake] at hexec
  exact hexec

lemma chosen_after (es : List Event) (n : ℕ) :
    (after es n).chosen <+: (master.exec master.init es).chosen := by
  have h := chosen_exec (after es n) (es.drop n)
  unfold after at h ⊢
  rwa [← Machine.exec_append, List.take_append_drop] at h

lemma IdsGrow.lt (h : IdsGrow es) {n i : ℕ} {e : Event} {args : LockPaxosArgs}
    (he : es[n]? = some e) (hstep : ((after es n).step e).chosen = (after es n).chosen ++ [(i, args)]) :
    1 ≤ i ∧ ∀ c ∈ (after es n).chosen, c.1 < i := by
  have hpre := chosen_after es (n + 1)
  rw [after_succ he, hstep] at hpre
  have hmem : (i, args) ∈ (master.exec master.init es).chosen :=
    hpre.subset (List.mem_append_right _ List.mem_cons_self)
  refine ⟨h.2 _ hmem, fun c hc => ?_⟩
  have hpair := h.1.sublist hpre.sublist
  exact (List.pairwise_append.mp hpair).2.2 c hc (i, args) List.mem_cons_self

def versions (es : List Event) (k : String) (n : ℕ) : Option ℕ :=
  ((after es n).cellAt k).map Prod.fst

lemma versions_succ {k : String} (hk : k ≠ "") (n : ℕ) :
    versions es k (n + 1) = versions es k n ∨ versions es k (n + 1) = none ∨
      ∃ i e args, versions es k (n + 1) = some i ∧ es[n]? = some e ∧
        ((after es n).step e).chosen = (after es n).chosen ++ [(i, args)] := by
  unfold versions
  cases he : es[n]? with
  | none =>
    have hlen : es.length ≤ n := List.getElem?_eq_none_iff.mp he
    rw [after_of_length_le hlen, after_of_length_le (Nat.le_succ_of_le hlen)]
    exact .inl rfl
  | some e =>
    rw [after_succ he]
    cases hexec : (after es n).executes e with
    | none =>
      rw [(Master.step_of_not_executes hexec).2 k hk]
      split
      · exact .inr (.inl rfl)
      · exact .inl rfl
    | some x =>
      obtain ⟨i, now, args⟩ := x
      obtain ⟨hchosen, hcell⟩ := Master.step_of_executes hexec
      rw [hcell k hk]
      rcases args.cell_cases i k ((after es n).cellAt k) with hc | hc | ⟨a, hc⟩
      · rw [hc]
        exact .inl rfl
      · rw [hc]
        exact .inr (.inl rfl)
      · rw [hc]
        exact .inr (.inr ⟨i, e, args, rfl, rfl, hchosen⟩)

lemma versions_chosen {k : String} (hk : k ≠ "") {n v : ℕ} (h : versions es k n = some v) :
    ∃ c ∈ (after es n).chosen, c.1 = v := by
  induction n generalizing v with
  | zero =>
    have hinit : versions es k 0 = none := by
      unfold versions after
      show Option.map _ (Option.map _ (∅ : LockMap)[k]?) = none
      simp
    rw [hinit] at h
    cases h
  | succ n ih =>
    rcases versions_succ hk n with hv | hv | ⟨i, e, args, hv, he, hchosen⟩
    · rw [hv] at h
      obtain ⟨c, hc, hcv⟩ := ih h
      exact ⟨c, (chosen_mono (Nat.le_succ n)).subset hc, hcv⟩
    · rw [hv] at h
      cases h
    · rw [hv] at h
      cases h
      rw [after_succ he, hchosen]
      exact ⟨_, List.mem_append_right _ List.mem_cons_self, rfl⟩

theorem IdsGrow.history (h : IdsGrow es) {k : String} (hk : k ≠ "") :
    Cas.History (versions es k) where
  init := by
    unfold versions after
    show Option.map _ (Option.map _ (∅ : LockMap)[k]?) = none
    simp
  step := by
    intro n
    rcases versions_succ hk n with hv | hv | ⟨i, e, args, hv, he, hchosen⟩
    · exact .inl hv
    · exact .inr (.inl hv)
    · obtain ⟨hpos, hlt⟩ := h.lt he hchosen
      refine .inr (.inr ⟨i, hv, hpos, fun m hm v hmv => ?_⟩)
      obtain ⟨c, hc, rfl⟩ := versions_chosen hk hmv
      exact hlt c ((chosen_mono hm).subset hc)

lemma observed_eq (es : List Event) (k : String) (n : ℕ) :
    (after es n).observed k = (versions es k n).getD 0 := rfl

lemma versions_eq_none {k : String} {n : ℕ} (h : versions es k n = none) :
    (after es n).cellAt k = none := Option.map_eq_none_iff.mp h

/-- An instance id above all before is above everything read before. -/
lemma IdsGrow.observed_lt (h : IdsGrow es) {n m i : ℕ} {e : Event} {k : String} {v : ℕ}
    (he : es[n]? = some e) (ha : (after es n).Acquires e k v i) (hm : m ≤ n) :
    (after es m).observed k < i := by
  obtain ⟨hk, _, _, args, hchosen⟩ := ha.spec
  obtain ⟨hpos, hlt⟩ := h.lt he hchosen
  rw [observed_eq]
  cases hv : versions es k m with
  | none => exact hpos
  | some w =>
    obtain ⟨c, hc, rfl⟩ := versions_chosen hk hv
    exact hlt c ((chosen_mono hm).subset hc)

lemma versions_of_acquires {n i : ℕ} {e : Event} {k : String} {v : ℕ}
    (he : es[n]? = some e) (ha : (after es n).Acquires e k v i) :
    versions es k (n + 1) = some i := by
  obtain ⟨_, _, ⟨a, hcell⟩, _⟩ := ha.spec
  unfold versions
  rw [after_succ he, hcell]
  rfl

end

/-- **The compare-and-swap law.**  It holds in every run whose direct deletions each find the
record of the version they carry, or none. -/
theorem casLaw_run {es : List Event} (hids : IdsGrow es)
    (hok : master.Along ReleaseCarries master.init es) : CasLaw es where
  swap := by
    intro n n' e e' k v i i' hn he he' ha ha' ⟨m, hm, hobs⟩
    have hk := ha.spec.1
    have hi := versions_of_acquires he ha
    have hlt : v < i := hobs ▸ hids.observed_lt he ha hm
    -- the second acquire finds nothing, as the versions are above `v` since the first
    by_cases hnone : versions es k n' = none
    · obtain ⟨d, hnd, hdn, hpre, hpost⟩ := Cas.History.removed_between (versions es k)
        (Nat.succ_le_of_lt hn) (by rw [hi]; exact fun h => nomatch h) hnone
      refine ⟨d, hnd, hdn, fun hcell => hpre ?_, versions_eq_none hpost⟩
      unfold versions
      rw [hcell]
      rfl
    · obtain ⟨w, hw⟩ := Option.ne_none_iff_exists'.mp hnone
      have hle := (hids.history hk).mono (Nat.succ_le_of_lt hn) hi hw
      obtain ⟨⟨_, a⟩, hcell, rfl⟩ := Option.map_eq_some_iff.mp hw
      have hwv := ha'.spec.2.1 _ a hcell
      omega
  own := by
    intro n e k v i he ha
    constructor
    · rw [observed_eq, versions_of_acquires he ha]
      rfl
    · intro m hm heq
      have := hids.observed_lt he ha hm
      omega
  spare := by
    intro r m d e e' k v v' i hr hm he he' hobs ha hdel
    have hk := ha.spec.1
    have hlt : v < i := hobs ▸ hids.observed_lt he ha hr
    rw [after_succ he']
    refine hdel.spec hk (hok.at he') fun w a hcell => ?_
    have hw : versions es k d = some w := by
      unfold versions
      rw [hcell]
      rfl
    have := (hids.history hk).mono (Nat.succ_le_of_lt hm) (versions_of_acquires he ha) hw
    omega

/-- A lock is acquired, renewed, released, and acquired by another client. -/
def lawfulRun : List Event :=
  [.chooseOther (acquireArgs ⟨"lock", 0, "a", 10⟩) 1 0,
    .chooseOther (acquireArgs ⟨"lock", 1, "a", 10⟩) 2 5,
    .call 0 ⟨"lock", 2, "a", 0⟩ .ok, .check 0, .choose 0 3 6, .reply 0,
    .chooseOther (acquireArgs ⟨"lock", 0, "b", 10⟩) 4 7]

theorem lawfulRun_casLaw : CasLaw lawfulRun :=
  casLaw_run ⟨by decide, by decide⟩ (by decide)

/-- The owner of a lock has a release checked; before it is chosen the lock is renewed. -/
def renewedRelease : List Event :=
  [.chooseOther (acquireArgs ⟨"lock", 0, "a", 10⟩) 1 0,
    .call 0 ⟨"lock", 1, "a", 0⟩ .ok, .check 0,
    .chooseOther (acquireArgs ⟨"lock", 1, "a", 10⟩) 2 5,
    .choose 0 3 6, .reply 0]

/-- The release is refused as instance 3, and deletes the renewed record all the same. -/
theorem renewedRelease_not_casLaw : IdsGrow renewedRelease ∧ ¬ CasLaw renewedRelease := by
  refine ⟨⟨by decide, by decide⟩, fun h => ?_⟩
  have hacq : (after renewedRelease 3).Acquires
      (.chooseOther (acquireArgs ⟨"lock", 1, "a", 10⟩) 2 5) "lock" 1 2 :=
    ⟨5, ⟨"lock", 1, "a", 10⟩, _, rfl, rfl, rfl, rfl, by decide, by decide⟩
  have hdel : (after renewedRelease 5).Deletes (.reply 0) "lock" 1 :=
    .inr ⟨⟨"lock", 1, "a", 0⟩, by decide, rfl, rfl⟩
  have hspare := h.spare 2 3 5 _ _ "lock" 1 1 2 (by decide) (by decide) rfl rfl (by decide)
    hacq hdel
  revert hspare
  decide

end PhxQueue.Lock
