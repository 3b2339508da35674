import PhxQueue.Store.Cursors
import PhxQueue.Store.Threads

/-!
# What fits in a response

`BaseMgr::Get` takes instance after instance, each with all its items, until the limit of the request or
the byte limit of the topic is reached.  An instance is not split, so a response may pass both with its
last instance.

* `Fits`            all but the last instance of a response are within both limits;
* `fits_of_run`     **in every run all responses fit**;
* `length_le`       so none has more items than the limit, or than its one instance.
-/

set_option linter.unusedSectionVars false

namespace PhxQueue.Store
open Comm Lib Lib.Machine Config

def bytesOf (items : List QItem) : ℕ := (items.map QItem.byteSize).sum

/-- What a `Get` has got ends with items of one instance, and what came before leaves room for them
within the limit of the request, and is within the byte limit. -/
def Fits (cfg : StoreConfig) (log : Log) (req : GetRequest) (items : List QItem) : Prop :=
  items = [] ∨ 0 < req.limit ∧ ∃ before last i, items = before ++ last ∧ i < log.length ∧
    last.Sublist (itemsOf log req.queueId i) ∧
    (before = [] ∨ items.length ≤ req.limit ∧ bytesOf before < cfg.topic.itemsByteSizeLimit)

def GetPhase.early : GetPhase → Bool
  | .svrPrev | .checkPoint | .minInstance => true
  | _ => false

def GetPhase.looping : GetPhase → Bool
  | .loop | .items _ => true
  | _ => false

structure GetThread.Fitting (cfg : StoreConfig) (log : Log) (t : GetThread) : Prop where
  fits : Fits cfg log t.req t.items
  bytes : t.byteSize = bytesOf t.items
  early : t.phase.early → t.items = []
  looping : t.phase.looping → t.items = [] ∨ t.byteSize < cfg.topic.itemsByteSizeLimit
  reading : ∀ cur, t.phase = .items cur → t.items.length < t.req.limit

section
variable {cfg : StoreConfig} {log : Log} {s : Replica} {t t' : GetThread}

lemma bytesOf_append (a b : List QItem) : bytesOf (a ++ b) = bytesOf a + bytesOf b := by
  unfold bytesOf
  rw [List.map_append, List.sum_append]

lemma Fits.append {req : GetRequest} {items : List QItem} (h : Fits cfg log req items)
    (batch : List StorePaxosArgs) : Fits cfg (log ++ [batch]) req items := by
  rcases h with h | ⟨hpos, before, last, i, heq, hi, hsub, hroom⟩
  · exact .inl h
  · refine .inr ⟨hpos, before, last, i, heq, ?_, ?_, hroom⟩
    · rw [List.length_append]
      omega
    · rw [itemsOf_append hi]
      exact hsub

lemma GetThread.Fitting.append (h : t.Fitting cfg log) (batch : List StorePaxosArgs) :
    t.Fitting cfg (log ++ [batch]) :=
  ⟨h.fits.append batch, h.bytes, h.early, h.looping, h.reading⟩

lemma fitting_of_nil (hitems : t.items = []) (hbytes : t.byteSize = 0)
    (hphase : ∀ cur, t.phase ≠ .items cur) : t.Fitting cfg log where
  fits := .inl hitems
  bytes := by
    rw [hitems, hbytes]
    rfl
  early := fun _ => hitems
  looping := fun _ => .inl hitems
  reading := fun cur h => absurd h (hphase cur)

lemma GetThread.Fitting.stop (h : t.Fitting cfg log) {phase : GetPhase} (hearly : phase.early = false)
    (hloop : phase.looping = false) : ({ t with phase := phase } : GetThread).Fitting cfg log where
  fits := h.fits
  bytes := h.bytes
  early := fun he => by
    rw [hearly] at he
    cases he
  looping := fun hl => by
    rw [hloop] at hl
    cases hl
  reading := fun cur hcur => by
    have hcur : phase = .items cur := hcur
    subst hcur
    cases hloop

lemma GetThread.Fitting.loopStep (h : t.Fitting cfg log) (hphase : t.phase = .loop)
    (metas : StoreMetaQueue) (timeUp : Bool) : (Store.loopStep t metas timeUp).Fitting cfg log := by
  have hlooping := h.looping (by rw [hphase]; rfl)
  unfold Store.loopStep
  split_ifs with hmore htime
  · exact h.stop rfl rfl
  · cases nextCursor t metas with
    | none => exact h.stop rfl rfl
    | some cur =>
      dsimp only
      split_ifs
      · refine ⟨h.fits, h.bytes, fun he => ?_, fun _ => hlooping, fun cur hcur => ?_⟩
        · have he : t.phase.early = true := he
          rw [hphase] at he
          cases he
        · have hcur : t.phase = .items cur := hcur
          rw [hphase] at hcur
          cases hcur
      · exact ⟨h.fits, h.bytes, fun he => (by cases he), fun _ => hlooping,
          fun _ _ => hmore.2⟩
  · exact h.stop rfl rfl

/-- The rest of the round, with the items of an instance. -/
lemma GetThread.Fitting.takeItems (h : t.Fitting cfg log) {cur : ℕ} (hphase : t.phase = .items cur)
    {i : ℕ} {items : List QItem} (hitems : items = [] ∨ i < log.length ∧
      items = itemsOf log t.req.queueId i) :
    (Store.takeItems cfg t cur items).Fitting cfg log := by
  have hlooping := h.looping (by rw [hphase]; rfl)
  have hreading := h.reading cur hphase
  cases items with
  | nil =>
    exact ⟨h.fits, h.bytes, fun he => (by cases he), fun _ => hlooping, fun _ hc => (by cases hc)⟩
  | cons item rest =>
    obtain ⟨hi, hof⟩ := hitems.resolve_left (List.cons_ne_nil item rest)
    have hpos : 0 < t.req.limit := by omega
    unfold Store.takeItems
    dsimp only
    split
    · exact h.stop rfl rfl
    rename_i hroom
    split
    · exact h.stop rfl rfl
    have hsub : ((item :: rest).filter fun x =>
        !skips cfg t.req.topicId t.req.consumerGroupId t.queueInfoId x).Sublist
        (itemsOf log t.req.queueId i) := by
      rw [← hof]
      exact List.filter_sublist
    have hlen := List.length_filter_le
      (fun x => !skips cfg t.req.topicId t.req.consumerGroupId t.queueInfoId x) (item :: rest)
    generalize (item :: rest).filter (fun x =>
      !skips cfg t.req.topicId t.req.consumerGroupId t.queueInfoId x) = kept at hsub hlen
    have hbytes : t.byteSize + bytesOf kept = bytesOf (t.items ++ kept) := by
      rw [bytesOf_append, h.bytes]
    constructor
    · refine .inr ⟨hpos, t.items, kept, i, rfl, hi, hsub, ?_⟩
      by_cases hnil : t.items = []
      · exact .inl hnil
      · refine .inr ⟨?_, ?_⟩
        · show (t.items ++ kept).length ≤ t.req.limit
          rw [List.length_append]
          have := not_and.mp hroom hnil
          omega
        · rw [← h.bytes]
          exact hlooping.resolve_left hnil
    · exact hbytes
    · intro he
      dsimp only at he
      split at he <;> cases he
    · intro hl
      dsimp only at hl ⊢
      split at hl
      · cases hl
      · rename_i hless
        exact .inr (not_le.mp hless)
    · intro cur' hcur
      dsimp only at hcur
      split at hcur <;> cases hcur

lemma GetThread.Fitting.reads (h : t.Fitting cfg log) (hreads : GetReads cfg log s t t') :
    t'.Fitting cfg log := by
  cases hreads with
  | svrPrev phase =>
    have hnil := h.early (by rw [phase]; rfl)
    exact ⟨h.fits, h.bytes, fun _ => hnil, fun _ => .inl hnil, fun _ hc => (by cases hc)⟩
  | checkPoint phase =>
    have hnil := h.early (by rw [phase]; rfl)
    exact ⟨h.fits, h.bytes, fun _ => hnil, fun _ => .inl hnil, fun _ hc => (by cases hc)⟩
  | minInstance phase =>
    have hnil := h.early (by rw [phase]; rfl)
    unfold enterLoop
    split
    · exact ⟨h.fits, h.bytes, fun _ => hnil, fun _ => .inl hnil, fun _ hc => (by cases hc)⟩
    · exact ⟨h.fits, h.bytes, fun _ => hnil, fun _ => .inl hnil, fun _ hc => (by cases hc)⟩
  | loop phase timeUp => exact h.loopStep phase _ timeUp
  | items cur phase items hitems =>
    refine h.takeItems phase (i := cur) ?_
    unfold getItemsByCursorID at hitems
    split_ifs at hitems
    · cases hitems
      exact .inl rfl
    · cases hitems
      by_cases hnil : itemsOf log t.req.queueId cur = []
      · exact .inl hnil
      · refine .inr ⟨?_, rfl⟩
        by_contra hlen
        apply hnil
        unfold itemsOf valuesOf
        rw [List.getElem?_eq_none (not_lt.mp hlen)]
        rfl
  | notChosen cur phase now => exact h.stop rfl rfl
  | random phase random => exact h.stop rfl rfl
  | noPrev phase random prev => exact h.stop rfl rfl
  | noNext phase next => exact h.stop rfl rfl

end

/-! ## Runs -/

def AllFitting (cfg : StoreConfig) (w : World) : Prop :=
  ∀ n t, w.store.gets n = some t → t.Fitting cfg w.log

section
variable {cfg : StoreConfig} {log : Log} {s s' : Replica} {t t' : GetThread} {n : ℕ}

lemma fitting_setGet (h : ∀ m u, s.gets m = some u → u.Fitting cfg log) {t' : Option GetThread}
    (ht' : ∀ u, t' = some u → u.Fitting cfg log) :
    ∀ m u, (s.setGet n t').gets m = some u → u.Fitting cfg log := by
  intro m u hu
  by_cases hm : m = n
  · rw [hm, gets_setGet_self] at hu
    exact ht' u hu
  · rw [gets_setGet_of_ne hm] at hu
    exact h m u hu

lemma fitting_getStep (h : ∀ m u, s.gets m = some u → u.Fitting cfg log) (n : ℕ) (timeUp : Bool) :
    ∀ m u, (s.getStep cfg log n timeUp).gets m = some u → u.Fitting cfg log := by
  cases ht : s.gets n with
  | none =>
    have hsame : s.getStep cfg log n timeUp = s := by
      unfold Replica.getStep
      rw [ht]
    rw [hsame]
    exact h
  | some t =>
    have hfit := h n t ht
    generalize hs' : s.getStep cfg log n timeUp = s'
    have hstep : GetStep cfg log s n t (s.getStep cfg log n timeUp) := getStep_cases ht timeUp
    rw [hs'] at hstep
    cases hstep with
    | reads t' hreads =>
      refine fitting_setGet h fun u hu => ?_
      cases hu
      exact hfit.reads hreads
    | prev phase random prev sync update =>
      refine fitting_setGet h fun u hu => ?_
      cases hu
      exact hfit.stop rfl rfl
    | next phase next sync update =>
      refine fitting_setGet h fun u hu => ?_
      cases hu
      exact hfit.stop rfl rfl
    | fails phase range => exact fitting_setGet h fun u hu => by cases hu
    | done phase => exact h

lemma fitting_step (h : ∀ m u, s.gets m = some u → u.Fitting cfg log) (e : StoreEvent) :
    ∀ m u, (s.step cfg log e).gets m = some u → u.Fitting cfg log := by
  have hsame {s' : Replica} (hgets : s'.gets = s.gets) :
      ∀ m u, s'.gets m = some u → u.Fitting cfg log := by
    rw [hgets]
    exact h
  cases e with
  | execute => exact hsame gets_executeStep
  | keepSync => exact hsame gets_keepSyncStep
  | startGet n req =>
    dsimp only [Replica.step, Replica.startGetStep]
    repeat' split
    · exact h
    · exact h
    · rename_i t ht
      obtain ⟨queueInfoId, p, n', rfl⟩ := startGet_eq ht
      refine fitting_setGet h fun u hu => ?_
      cases hu
      exact fitting_of_nil rfl rfl fun cur hcur => by cases hcur
    · exact h
  | get n timeUp => exact fitting_getStep h n timeUp
  | endGet n =>
    dsimp only [Replica.step, Replica.endGet]
    repeat' split
    · exact h
    · exact fitting_setGet h fun u hu => by cases hu
    · exact fitting_setGet h fun u hu => by cases hu
    · exact h
  | startRound | startSync =>
    dsimp only [Replica.step]
    split <;> exact h
  | startReplay q g r =>
    dsimp only [Replica.step, Replica.startReplay]
    repeat' split
    all_goals exact h
  | clear q g =>
    dsimp only [Replica.step]
    repeat' split
    all_goals exact h
  | truncate m =>
    dsimp only [Replica.step]
    split <;> exact h
  | restart =>
    intro m u hu
    cases hu

end

lemma AllFitting.step {cfg : StoreConfig} {w : World} (h : AllFitting cfg w) (e : Event) :
    AllFitting cfg (w.step cfg e) := by
  cases e with
  | choose batch =>
    dsimp only [World.step]
    split
    · intro n t ht
      exact (h n t ht).append batch
    · exact h
  | store e => exact fitting_step h e

/-- **In every run all responses fit**: whatever the threads of the store do, a response to a request
with the limit 0 is empty, and any other one is within the limit of the request and the byte limit
of the topic up to the instance it ends with. -/
theorem fits_of_run (cfg : StoreConfig) (events : List Event) (n : ℕ) (t : GetThread)
    (ht : ((store cfg).exec (store cfg).init events).store.gets n = some t) :
    Fits cfg ((store cfg).exec (store cfg).init events).log t.req t.response.items := by
  have hstep (w : World) (e : Event) (h : AllFitting cfg w) : AllFitting cfg ((store cfg).step w e) :=
    h.step e
  have hinit : AllFitting cfg (store cfg).init := fun n t ht => by cases ht
  exact ((Always.of_step hstep hinit events).last n t ht).fits

theorem readOne_fits : ∃ t, ((store twoQueues).exec (store twoQueues).init
      (addOne 0 ++ readOne 0 uint64Max uint64Max)).store.gets 0 = some t ∧
    t.response.items.length = 1 ∧ Fits twoQueues ((store twoQueues).exec (store twoQueues).init
      (addOne 0 ++ readOne 0 uint64Max uint64Max)).log t.req t.response.items :=
  ⟨_, rfl, by decide, fits_of_run twoQueues (addOne 0 ++ readOne 0 uint64Max uint64Max) 0 _ rfl⟩

/-- So a response has no more items than the limit, or than its last instance. -/
lemma Fits.length_le {cfg : StoreConfig} {log : Log} {req : GetRequest} {items : List QItem} {m : ℕ}
    (h : Fits cfg log req items) (hm : ∀ i, (itemsOf log req.queueId i).length ≤ m) :
    items.length ≤ if req.limit = 0 then 0 else max req.limit m := by
  rcases h with rfl | ⟨hpos, before, last, i, rfl, _, hsub, hroom⟩
  · exact Nat.zero_le _
  · rw [if_neg (by omega)]
    rcases hroom with rfl | ⟨hle, _⟩
    · exact le_max_of_le_right (hsub.length_le.trans (hm i))
    · exact le_max_of_le_left hle

end PhxQueue.Store
