import PhxQueue.Lib.Register
import PhxQueue.Lock.Keys
import PhxQueue.Lock.Refinement
import PhxQueue.Lock.Service

/-!
# Strings at all replicas

`GetString`, `SetString` and `DeleteString` of `lock/lock.cpp` at any number of replicas of one paxos
group, each of which executes the instances at its own pace.  A replica answers a `GetString` from its
map, however far it is, and proposes what it is to set; the result comes from the execution of the
instance in which the proposal is chosen.

* `serveGetString`        `GetString`;
* `service`               the replicas, the calls, and what the clients have been told;
* `opsOf`, `cellAt`       the key as a register over the chosen instances;
* `KeepsKey`              no release deletes the key directly, and recovery is exact for it;
* `read_then_set`         **a `SetString` that names the version a client has read, at whatever replica,
                          replaces just what was read, or sets a key that is not there**;
* `set_once`              of two such only one replaces it;
* `set_stays`             what is set stays until it is replaced or removed.
-/

set_option linter.unusedSectionVars false

namespace PhxQueue.Lock.Strings
open Comm Lib Lib.Machine

/-! ## The service -/

/-- `GetString`; `masterRet` is what `CheckMaster` says. -/
def serveGetString (g : GroupData) (key : String) (masterRet : RetCode) : Except RetCode StringInfo :=
  if key = "" then .error .errKey else
  if masterRet ≠ .ok then .error masterRet else
  match getString g.map {} key with
  | .error ret => .error ret
  | .ok r => .ok ⟨key, r.version, r.value, r.leaseTimeMs⟩

/-- A replica: `results` is what the execution of an instance leaves to the one who proposed it. -/
structure Node where
  g : GroupData := {}
  next : ℕ := 0
  results : ℕ → RetCode := fun _ => .ok

/-- Where a call of `PaxosSetString` stands. -/
inductive Call (ι : Type)
  | idle
  | proposing (r : ι) (req : StringInfo)
  /-- The proposal has been chosen as instance `i`. -/
  | chosen (r : ι) (req : StringInfo) (i : ℕ)
deriving DecidableEq

def Call.at? {ι : Type} : Call ι → Option ι
  | .idle => none
  | .proposing r _ | .chosen r _ _ => some r

/-- What a client has been told: what a master that had executed `next` instances has read, and what
has become of what was to be set, by instance `i`. -/
inductive Answer
  | got (key : String) (next : ℕ) (ret : Except RetCode StringInfo)
  | put (req : StringInfo) (i : ℕ) (ret : RetCode)
deriving DecidableEq

structure Service (ι : Type) where
  log : List Entry := []
  node : ι → Node := fun _ => {}
  call : ℕ → Call ι := fun _ => .idle
  answers : List Answer := []

inductive Event (ι : Type)
  | get (r : ι) (key : String) (masterRet : RetCode)
  /-- `SetString` or `DeleteString`. -/
  | call (c : ℕ) (r : ι) (req : Request) (masterRet : RetCode)
  /-- The proposal of call `c` is chosen. -/
  | choose (c : ℕ)
  /-- Any other value is chosen: a proposal that has failed, one of a lock or of the clean thread. -/
  | chooseOther (e : Entry)
  /-- `Propose` fails. -/
  | fail (c : ℕ)
  | execute (r : ι) (now : ℕ)
  | reply (c : ℕ)
  /-- The end of `AcquireLock`. -/
  | release (r : ι) (lockInfo : LockInfo)
  /-- The replica has restarted: it comes up with this group, before instance `next`. -/
  | recover (r : ι) (g : GroupData) (next : ℕ)

namespace Service

variable {ι : Type} [DecidableEq ι]

def setNode (s : Service ι) (r : ι) (x : Node) : Service ι :=
  { s with node := Function.update s.node r x }

def setCall (s : Service ι) (c : ℕ) (x : Call ι) : Service ι :=
  { s with call := Function.update s.call c x }

def append (s : Service ι) (e : Entry) : Service ι := { s with log := s.log ++ [e] }

def tell (s : Service ι) (a : Answer) : Service ι := { s with answers := s.answers ++ [a] }

/-- A request that is refused before the map is read tells nothing. -/
def get (s : Service ι) (r : ι) (key : String) (masterRet : RetCode) : Service ι :=
  if key = "" ∨ masterRet ≠ .ok then s
  else s.tell (.got key (s.node r).next (serveGetString (s.node r).g key masterRet))

/-- `SetString` or `DeleteString`, up to the proposal. -/
def propose (s : Service ι) (c : ℕ) (r : ι) (req : Request) (masterRet : RetCode) : Service ι :=
  if req.check masterRet ≠ .ok then s
  else match req.args.setStringReq with
    | none => s
    | some stringInfo => s.setCall c (.proposing r stringInfo)

/-- `LockSM::Execute` of the next instance. -/
def execute (s : Service ι) (r : ι) (now : ℕ) : Service ι :=
  let x := s.node r
  match s.log[x.next]? with
  | none => s
  | some .other => s.setNode r { x with next := x.next + 1 }
  | some (.lock args) =>
    let e := Lock.execute x.g now x.next args
    if e.1 then s.setNode r
      { g := e.2.1, next := x.next + 1, results := Function.update x.results x.next (e.2.2.getD .ok) }
    else s

/-- One step; an event that is not due changes nothing. -/
def step (s : Service ι) : Event ι → Service ι
  | .get r key masterRet => s.get r key masterRet
  | .call c r req masterRet =>
    match s.call c with
    | .idle => s.propose c r req masterRet
    | _ => s
  | .choose c =>
    match s.call c with
    | .proposing r req =>
      (s.append (.lock (some { setStringReq := some req }))).setCall c (.chosen r req s.log.length)
    | _ => s
  | .chooseOther e => s.append e
  | .fail c => s.setCall c .idle
  | .execute r now => s.execute r now
  | .reply c =>
    match s.call c with
    | .chosen r req i =>
      if i < (s.node r).next then (s.tell (.put req i ((s.node r).results i))).setCall c .idle
      else s
    | _ => s
  | .release r lockInfo =>
    let x := s.node r
    s.setNode r { x with g := { x.g with map := (finishRelease x.g.map lockInfo .ok).2 } }
  | .recover r g next =>
    { s.setNode r { g, next } with
      call := fun c => if (s.call c).at? = some r then .idle else s.call c }

end Service

def service (ι : Type) [DecidableEq ι] : Machine (Service ι) (Event ι) where
  init := {}
  step := Service.step

/-! ## A key as a register -/

def opsOf (log : List Entry) (i : ℕ) : Option (Cas.Op String (String × ℕ)) :=
  match log[i]? with
  | some (.lock (some args)) => args.op i
  | _ => none

/-- What the first `n` instances leave of a key. -/
def cellAt (log : List Entry) (k : String) (n : ℕ) : Cas.Cell (String × ℕ) :=
  Cas.upto (opsOf log) k n

/-- No release deletes the key from a map directly, and what a replica comes up with is, for the key,
what the instances before leave. -/
def KeepsKey {ι : Type} (k : String) (s : Service ι) : Event ι → Prop
  | .release _ lockInfo => lockInfo.lockKey ≠ k
  | .recover _ g next => next ≤ s.log.length ∧ recordAt g.map k = .ok (cellAt s.log k next)
  | _ => True

instance {ι : Type} (k : String) (s : Service ι) : DecidablePred (KeepsKey k s)
  | .release _ lockInfo => inferInstanceAs (Decidable (lockInfo.lockKey ≠ k))
  | .recover _ g next => inferInstanceAs
      (Decidable (next ≤ s.log.length ∧ recordAt g.map k = .ok (cellAt s.log k next)))
  | .get _ _ _ | .call _ _ _ _ | .choose _ | .chooseOther _ | .fail _ | .execute _ _ | .reply _ =>
    isTrue trivial

def stringOp (req : StringInfo) (i : ℕ) : Cas.Op String (String × ℕ) :=
  writeOp true ⟨req.version, req.key⟩ (localRecordInfo i req.value req.leaseTimeMs)

def readOf (k : String) : Cas.Cell (String × ℕ) → Except RetCode StringInfo
  | none => .error .errKeyNotExist
  | some (version, value, leaseTimeMs) => .ok ⟨k, version, value, leaseTimeMs⟩

/-- What the one who has proposed a string is told. -/
def putResult (log : List Entry) (req : StringInfo) (i : ℕ) : RetCode :=
  if (stringOp req i).Takes (cellAt log req.key i) then .ok else .errVersionNotEqual

/-- What a client has been told of a key is so. -/
def Answer.Right (k : String) (log : List Entry) : Answer → Prop
  | .got key next ret => key = k → next ≤ log.length ∧ ret = readOf k (cellAt log k next)
  | .put req i ret => req.key = k →
      log[i]? = some (.lock (some { setStringReq := some req })) ∧ ret = putResult log req i

/-- A call whose proposal has been chosen finds its result where the instance has been executed. -/
structure CallOk {ι : Type} (k : String) (s : Service ι) (r : ι) (req : StringInfo) (i : ℕ) :
    Prop where
  chosen : s.log[i]? = some (.lock (some { setStringReq := some req }))
  result : req.key = k → i < (s.node r).next → (s.node r).results i = putResult s.log req i

/-- What holds of a key in every state. -/
structure Inv {ι : Type} (k : String) (s : Service ι) : Prop where
  next_le : ∀ r, (s.node r).next ≤ s.log.length
  cells : ∀ r, recordAt (s.node r).g.map k = .ok (cellAt s.log k (s.node r).next)
  calls : ∀ c r req i, s.call c = .chosen r req i → CallOk k s r req i
  told : ∀ a ∈ s.answers, a.Right k s.log

section
variable {log l : List Entry} {k : String} {n i : ℕ} {req : StringInfo}

/-! ## The log -/

lemma lt_of_entry {e : Entry} (h : log[i]? = some e) : i < log.length := by
  obtain ⟨hlt, -⟩ := List.getElem?_eq_some_iff.mp h
  exact hlt

lemma cellAt_append (hn : n ≤ log.length) : cellAt (log ++ l) k n = cellAt log k n := by
  refine Cas.upto_congr fun i hi => ?_
  unfold opsOf
  rw [List.getElem?_append_left (by omega)]

lemma cellAt_succ_lock {args : LockPaxosArgs} (h : log[n]? = some (.lock (some args))) :
    cellAt log k (n + 1) = args.cell n k (cellAt log k n) := by
  have hop : opsOf log n = args.op n := by
    unfold opsOf
    rw [h]
  unfold cellAt LockPaxosArgs.cell
  cases hargs : args.op n with
  | none => exact Cas.upto_succ_of_none (hop.trans hargs)
  | some op => exact Cas.upto_succ_of_some (hop.trans hargs)

lemma cellAt_succ_other (h : log[n]? = some .other) : cellAt log k (n + 1) = cellAt log k n := by
  have hop : opsOf log n = none := by
    unfold opsOf
    rw [h]
  exact Cas.upto_succ_of_none hop

lemma opsOf_string (h : log[i]? = some (.lock (some { setStringReq := some req })))
    (hkey : req.key ≠ "") : opsOf log i = some (stringOp req i) := by
  unfold opsOf
  rw [h]
  exact if_neg hkey

lemma putResult_append (hi : i ≤ log.length) : putResult (log ++ l) req i = putResult log req i := by
  unfold putResult
  rw [cellAt_append hi]

lemma Answer.Right.append {a : Answer} (h : a.Right k log) : a.Right k (log ++ l) := by
  cases a with
  | got key next ret =>
    intro hkey
    obtain ⟨hle, hret⟩ := h hkey
    rw [cellAt_append hle, List.length_append]
    exact ⟨by omega, hret⟩
  | put req i ret =>
    intro hkey
    obtain ⟨hentry, hret⟩ := h hkey
    have hlt := lt_of_entry hentry
    rw [putResult_append hlt.le, List.getElem?_append_left hlt]
    exact ⟨hentry, hret⟩

/-! ## Reading and executing -/

lemma serveGetString_eq {g : GroupData} (hk : k ≠ "") {c : Cas.Cell (String × ℕ)}
    (hc : recordAt g.map k = .ok c) : serveGetString g k .ok = readOf k c := by
  rw [LockMap.recordAt_eq _ hk] at hc
  cases hc
  unfold serveGetString
  rw [if_neg hk, if_neg (by simp)]
  have hget := getLock_map hk g.map
  change getString g.map {} k = _ at hget
  rw [hget]
  cases g.map[k]? <;> rfl

lemma execute_result {g : GroupData} (hk : req.key ≠ "") {now : ℕ}
    (hc : recordAt g.map req.key = .ok (cellAt log req.key i)) :
    (Lock.execute g now i (some { setStringReq := some req })).2.2.getD .ok = putResult log req i := by
  have hres : (Lock.execute g now i (some { setStringReq := some req })).2.2 =
      some (conditionalWrite "" true g.map {} now ⟨req.version, req.key⟩
        (localRecordInfo i req.value req.leaseTimeMs) false).1 :=
    doExecute_result .map g now i { setStringReq := some req } false rfl
  rw [hres, conditionalWrite_ret true now hk _ false hc]
  rfl

end

/-! ## The steps -/

section
variable {ι : Type} [DecidableEq ι] {k : String} {s : Service ι}

lemma Inv.init (hk : k ≠ "") : Inv k (service ι).init where
  next_le _ := le_rfl
  cells _ := recordAt_empty_map hk
  calls c r req i h := by cases h
  told a h := by cases h

namespace Service

lemma setNode_node (r r' : ι) (x : Node) :
    (s.setNode r x).node r' = if r' = r then x else s.node r' := Function.update_apply _ _ _ _

lemma setCall_call (c c' : ℕ) (x : Call ι) :
    (s.setCall c x).call c' = if c' = c then x else s.call c' := Function.update_apply _ _ _ _

end Service

lemma Inv.setCall (h : Inv k s) (c : ℕ) {x : Call ι}
    (hx : ∀ r req i, x = .chosen r req i → CallOk k s r req i) : Inv k (s.setCall c x) where
  next_le := h.next_le
  cells := h.cells
  calls := by
    intro c' r req i hc
    rw [Service.setCall_call] at hc
    split at hc
    · obtain ⟨hchosen, hresult⟩ := hx r req i hc
      exact ⟨hchosen, hresult⟩
    · obtain ⟨hchosen, hresult⟩ := h.calls c' r req i hc
      exact ⟨hchosen, hresult⟩
  told := h.told

lemma Inv.tell (h : Inv k s) {a : Answer} (ha : a.Right k s.log) : Inv k (s.tell a) where
  next_le := h.next_le
  cells := h.cells
  calls := by
    intro c r req i hc
    obtain ⟨hchosen, hresult⟩ := h.calls c r req i hc
    exact ⟨hchosen, hresult⟩
  told := by
    intro a' ha'
    rcases List.mem_append.mp ha' with ha' | ha'
    · exact h.told a' ha'
    · rw [List.mem_singleton.mp ha']
      exact ha

lemma CallOk.append {r : ι} {req : StringInfo} {i : ℕ} (h : CallOk k s r req i) (e : Entry) :
    CallOk k (s.append e) r req i where
  chosen := by
    show (s.log ++ [e])[i]? = _
    rw [List.getElem?_append_left (lt_of_entry h.chosen)]
    exact h.chosen
  result hkey hi := by
    show (s.node r).results i = putResult (s.log ++ [e]) req i
    rw [putResult_append (lt_of_entry h.chosen).le]
    exact h.result hkey hi

lemma Inv.append (h : Inv k s) (e : Entry) : Inv k (s.append e) where
  next_le r := by
    have hle := h.next_le r
    show (s.node r).next ≤ (s.log ++ [e]).length
    rw [List.length_append]
    omega
  cells r := by
    show recordAt (s.node r).g.map k = .ok (cellAt (s.log ++ [e]) k (s.node r).next)
    rw [cellAt_append (h.next_le r)]
    exact h.cells r
  calls c r req i hc := (h.calls c r req i hc).append e
  told a ha := (h.told a ha).append

lemma Inv.choose (h : Inv k s) (c : ℕ) (r : ι) (req : StringInfo) :
    Inv k ((s.append (.lock (some { setStringReq := some req }))).setCall c
      (.chosen r req s.log.length)) := by
  refine (h.append _).setCall c fun r' req' i heq => ?_
  cases heq
  refine ⟨?_, fun _ hlt => ?_⟩
  · show (s.log ++ [_])[s.log.length]? = _
    simp
  · -- no replica has executed it yet
    have hle := h.next_le r
    have hlt' : s.log.length < (s.node r).next := hlt
    omega

/-- A replica is replaced by one that keeps the results that calls wait for. -/
lemma Inv.setNode (h : Inv k s) (r : ι) {x : Node} (hle : x.next ≤ s.log.length)
    (hcell : recordAt x.g.map k = .ok (cellAt s.log k x.next))
    (hresults : ∀ c req i, s.call c = .chosen r req i → req.key = k → i < x.next →
      x.results i = putResult s.log req i) : Inv k (s.setNode r x) where
  next_le r' := by
    rw [Service.setNode_node]
    split
    · exact hle
    · exact h.next_le r'
  cells r' := by
    rw [Service.setNode_node]
    split
    · exact hcell
    · exact h.cells r'
  calls c r' req i hc := by
    obtain ⟨hchosen, hresult⟩ := h.calls c r' req i hc
    refine ⟨hchosen, ?_⟩
    rw [Service.setNode_node]
    split
    · rename_i hr
      subst hr
      exact hresults c req i hc
    · exact hresult
  told := h.told

lemma Inv.execute (hk : k ≠ "") (h : Inv k s) (r : ι) (now : ℕ) : Inv k (s.execute r now) := by
  unfold Service.execute
  dsimp only
  split
  · exact h
  · rename_i hentry
    refine h.setNode r (lt_of_entry hentry) ?_ fun c req i hc hkey hi => ?_
    · show recordAt (s.node r).g.map k = .ok (cellAt s.log k ((s.node r).next + 1))
      rw [cellAt_succ_other hentry]
      exact h.cells r
    · obtain ⟨hchosen, hresult⟩ := h.calls c r req i hc
      refine hresult hkey ?_
      rcases Nat.lt_succ_iff_lt_or_eq.mp hi with hlt | heq
      · exact hlt
      · rw [heq, hentry] at hchosen
        cases hchosen
  · rename_i args hentry
    split
    · rename_i hok
      cases args with
      | none => cases hok
      | some args =>
        refine h.setNode r (lt_of_entry hentry) ?_ fun c req i hc hkey hi => ?_
        · show recordAt (Lock.execute (s.node r).g now (s.node r).next (some args)).2.1.map k = _
          rw [cellAt_succ_lock hentry]
          exact doExecute_map (s.node r).g now (s.node r).next args false hk (h.cells r)
        · obtain ⟨hchosen, hresult⟩ := h.calls c r req i hc
          show Function.update (s.node r).results (s.node r).next _ i = _
          rcases Nat.lt_succ_iff_lt_or_eq.mp hi with hlt | heq
          · rw [Function.update_of_ne (by omega)]
            exact hresult hkey hlt
          · rw [heq, hentry] at hchosen
            cases hchosen
            subst heq hkey
            rw [Function.update_self]
            exact execute_result hk (h.cells r)
    · exact h

lemma Inv.recover (h : Inv k s) (r : ι) {g : GroupData} {next : ℕ} (hle : next ≤ s.log.length)
    (hcell : recordAt g.map k = .ok (cellAt s.log k next)) :
    Inv k (s.step (.recover r g next)) where
  next_le r' := by
    show ((s.setNode r _).node r').next ≤ s.log.length
    rw [Service.setNode_node]
    split
    · exact hle
    · exact h.next_le r'
  cells r' := by
    show recordAt ((s.setNode r _).node r').g.map k = .ok (cellAt s.log k ((s.setNode r _).node r').next)
    rw [Service.setNode_node]
    split
    · exact hcell
    · exact h.cells r'
  calls c r' req i hc := by
    change (if (s.call c).at? = some r then Call.idle else s.call c) = _ at hc
    split at hc
    · cases hc
    · rename_i hat
      obtain ⟨hchosen, hresult⟩ := h.calls c r' req i hc
      refine ⟨hchosen, fun hkey hi => ?_⟩
      have hne : r' ≠ r := by
        rintro rfl
        rw [hc] at hat
        exact hat rfl
      have hnode : (s.step (.recover r g next)).node r' = s.node r' := by
        show (s.setNode r _).node r' = _
        rw [Service.setNode_node, if_neg hne]
      rw [hnode] at hi ⊢
      exact hresult hkey hi
  told := h.told

/-- The end of `AcquireLock` leaves other keys. -/
lemma recordAt_release {m : LockMap} (hk : k ≠ "") {lockInfo : LockInfo} (hne : lockInfo.lockKey ≠ k) :
    recordAt (finishRelease m lockInfo .ok).2 k = recordAt m k := by
  by_cases hl : lockInfo.leaseTimeMs = 0
  · by_cases hkey : lockInfo.lockKey = ""
    · unfold finishRelease deleteLock deleteUser
      rw [if_pos hl, if_pos hkey]
    · rw [Master.finishRelease_zero _ hkey hl, LockMap.recordAt_eq _ hk, LockMap.recordAt_eq _ hk,
        Std.ExtTreeMap.getElem?_erase]
      simp [hne]
  · unfold finishRelease
    rw [if_neg hl]

theorem Inv.step (hk : k ≠ "") (h : Inv k s) {e : Event ι} (he : KeepsKey k s e) :
    Inv k (s.step e) := by
  cases e with
  | get r key masterRet =>
    show Inv k (s.get r key masterRet)
    unfold Service.get
    split
    · exact h
    · rename_i hgo
      obtain ⟨hkey, hmaster⟩ := not_or.mp hgo
      refine h.tell fun heq => ⟨h.next_le r, ?_⟩
      subst heq
      rw [not_not.mp hmaster]
      exact serveGetString_eq hk (h.cells r)
  | call c r req masterRet =>
    show Inv k (match s.call c with | .idle => s.propose c r req masterRet | _ => s)
    split
    · unfold Service.propose
      split
      · exact h
      split
      · exact h
      · exact h.setCall c fun _ _ _ heq => by cases heq
    · exact h
  | choose c =>
    show Inv k (match s.call c with | .proposing r req => _ | _ => s)
    split
    · exact h.choose c _ _
    · exact h
  | chooseOther e => exact h.append e
  | fail c => exact h.setCall c fun _ _ _ heq => by cases heq
  | execute r now => exact h.execute hk r now
  | reply c =>
    show Inv k (match s.call c with | .chosen r req i => _ | _ => s)
    split
    · rename_i r req i hc
      split
      · rename_i hi
        obtain ⟨hchosen, hresult⟩ := h.calls c r req i hc
        have hright : (Answer.put req i ((s.node r).results i)).Right k s.log :=
          fun hkey => ⟨hchosen, hresult hkey hi⟩
        exact (h.tell hright).setCall c fun _ _ _ heq => by cases heq
      · exact h
    · exact h
  | release r lockInfo =>
    refine h.setNode r (h.next_le r) ?_ fun c req i hc hkey hi => (h.calls c r req i hc).result hkey hi
    exact (recordAt_release hk he).trans (h.cells r)
  | recover r g next => exact h.recover r he.1 he.2

lemma inv_run (hk : k ≠ "") {events : List (Event ι)}
    (h : (service ι).Along (KeepsKey k) (service ι).init events) :
    Inv k ((service ι).exec (service ι).init events) := by
  have hstep (s : Service ι) (e : Event ι) (hs : Inv k s) (he : KeepsKey k s e) :
      Inv k ((service ι).step s e) := hs.step hk he
  exact (Always.of_inv hstep (Inv.init hk) h).last

/-- What a client is told of a string that is set. -/
lemma put_ok (hk : k ≠ "") (h : Inv k s) {req : StringInfo} {i : ℕ}
    (hput : Answer.put req i .ok ∈ s.answers) (hkey : req.key = k) :
    opsOf s.log i = some (stringOp req i) ∧ (stringOp req i).Takes (cellAt s.log k i) := by
  obtain ⟨hentry, hret⟩ := h.told _ hput hkey
  subst hkey
  refine ⟨opsOf_string hentry hk, ?_⟩
  unfold putResult at hret
  by_contra hnot
  rw [if_neg hnot] at hret
  cases hret

lemma got_ok (h : Inv k s) {next : ℕ} {info : StringInfo}
    (hgot : Answer.got k next (.ok info) ∈ s.answers) :
    cellAt s.log k next = some (info.version, info.value, info.leaseTimeMs) := by
  obtain ⟨-, hret⟩ := h.told _ hgot rfl
  cases hcell : cellAt s.log k next with
  | none =>
    rw [hcell] at hret
    cases hret
  | some c =>
    rw [hcell] at hret
    cases hret
    rfl

lemma stringOp_guard {req : StringInfo} (hforce : req.version ≠ uint64Max) (i : ℕ) :
    (stringOp req i).guard = some req.version := if_neg fun h => hforce h.2

end

/-- **No update of a string is lost.**  A client reads a key at some replica, however far this has
executed, and has `SetString` or `DeleteString` called with the version it has read, at any replica and any
time.  If this succeeds, by instance `i`, then what it replaces is what the client has read, which has been
there ever since, or there is no record of the key any more. -/
theorem read_then_set {ι : Type} [DecidableEq ι] (k : String) (hk : k ≠ "") (events : List (Event ι))
    (h : (service ι).Along (KeepsKey k) (service ι).init events) (next i : ℕ)
    (info req : StringInfo)
    (hgot : .got k next (.ok info) ∈ ((service ι).exec (service ι).init events).answers)
    (hput : .put req i .ok ∈ ((service ι).exec (service ι).init events).answers)
    (hkey : req.key = k) (hversion : req.version = info.version) (hforce : req.version ≠ uint64Max) :
    let log := ((service ι).exec (service ι).init events).log
    cellAt log k i = none ∨ (next ≤ i ∧ ∀ n, next ≤ n → n ≤ i →
      cellAt log k n = some (info.version, info.value, info.leaseTimeMs)) := by
  intro log
  have hinv := inv_run hk h
  obtain ⟨hop, htakes⟩ := put_ok hk hinv hput hkey
  exact Cas.no_lost_update hop hkey htakes (hversion ▸ stringOp_guard hforce i) (got_ok hinv hgot)

/-- A string is set at one replica, and read at the other, which has executed this and restarted; with the
version read it is set once more, then deleted, and with the same version set again. -/
def setAndRead : List (Event Bool) :=
  let set (c : ℕ) (req : Request) : List (Event Bool) :=
    [.call c true req .ok, .choose c, .execute true c, .reply c]
  let restarted : GroupData := { map := Std.ExtTreeMap.empty.insert "a" (localRecordInfo 0 "x" uint64Max) }
  set 0 (.setString ⟨"a", uint64Max, "x", uint64Max⟩) ++
    [.execute false 7, .recover false restarted 1, .get false "a" .ok] ++
    set 1 (.setString ⟨"a", 0, "y", uint64Max⟩) ++ [.get true "a" .ok] ++
    set 2 (.deleteString "a" 1) ++ set 3 (.setString ⟨"a", 0, "z", uint64Max⟩)

theorem setAndRead_replaces :
    let log := ((service Bool).exec (service Bool).init setAndRead).log
    cellAt log "a" 1 = none ∨ (1 ≤ 1 ∧ ∀ n, 1 ≤ n → n ≤ 1 →
      cellAt log "a" n = some (0, "x", uint64Max)) :=
  read_then_set "a" (by decide) setAndRead (by decide) 1 1 ⟨"a", 0, "x", uint64Max⟩
    ⟨"a", 0, "y", uint64Max⟩ (by decide) (by decide) rfl rfl (by decide)

/-- **A version is replaced once.**  Of two such calls that succeed with one version, which was there
before both, the later one finds no record. -/
theorem set_once {ι : Type} [DecidableEq ι] (k : String) (hk : k ≠ "") (events : List (Event ι))
    (h : (service ι).Along (KeepsKey k) (service ι).init events) (i j : ℕ) (req req' : StringInfo)
    (hput : .put req i .ok ∈ ((service ι).exec (service ι).init events).answers)
    (hput' : .put req' j .ok ∈ ((service ι).exec (service ι).init events).answers)
    (hkey : req.key = k) (hkey' : req'.key = k) (hversion : req'.version = req.version)
    (hforce : req.version ≠ uint64Max) (hold : req.version < i) (hij : i < j) :
    cellAt ((service ι).exec (service ι).init events).log k j = none := by
  have hinv := inv_run hk h
  obtain ⟨hop, htakes⟩ := put_ok hk hinv hput hkey
  obtain ⟨-, htakes'⟩ := put_ok hk hinv hput' hkey'
  have hguard := stringOp_guard (hversion ▸ hforce) j
  rw [hversion] at hguard
  exact Cas.once ⟨_, hop, hkey, htakes⟩ hij htakes' hguard hold

theorem setAndRead_once :
    cellAt ((service Bool).exec (service Bool).init setAndRead).log "a" 3 = none :=
  set_once "a" (by decide) setAndRead (by decide) 1 3 ⟨"a", 0, "y", uint64Max⟩
    ⟨"a", 0, "z", uint64Max⟩ (by decide) (by decide) rfl rfl rfl (by decide) (by decide) (by decide)

/-- **What is set stays.**  A string has been set, by instance `i`, with a lease.  Whoever reads the key at
a replica that has executed this instance finds it, or what has been set later; or there is no record,
which has been removed by a later instance. -/
theorem set_stays {ι : Type} [DecidableEq ι] (k : String) (hk : k ≠ "") (events : List (Event ι))
    (h : (service ι).Along (KeepsKey k) (service ι).init events) (next i : ℕ) (req : StringInfo)
    (ret : Except RetCode StringInfo)
    (hput : .put req i .ok ∈ ((service ι).exec (service ι).init events).answers)
    (hgot : .got k next ret ∈ ((service ι).exec (service ι).init events).answers)
    (hkey : req.key = k) (hlease : req.leaseTimeMs ≠ 0) (hnext : i < next) :
    let log := ((service ι).exec (service ι).init events).log
    (∃ info, ret = .ok info ∧ i ≤ info.version ∧
      (info.version = i → info.value = req.value ∧ info.leaseTimeMs = req.leaseTimeMs)) ∨
    (ret = .error .errKeyNotExist ∧
      ∃ d, i < d ∧ d < next ∧ cellAt log k d ≠ none ∧ cellAt log k (d + 1) = none) := by
  intro log
  have hinv := inv_run hk h
  obtain ⟨hop, htakes⟩ := put_ok hk hinv hput hkey
  obtain ⟨-, hret⟩ := hinv.told _ hgot rfl
  have hwrite : (stringOp req i).put = some (req.value, req.leaseTimeMs) := if_neg hlease
  rcases Cas.stays hop hkey htakes hwrite hnext with ⟨v, b, hcell, hle, hsame⟩ | ⟨hcell, hgone⟩
  · refine .inl ⟨⟨k, v, b.1, b.2⟩, ?_, hle, fun hv => ?_⟩
    · exact hret.trans (congrArg (readOf k) hcell)
    · rw [hsame hv]
      exact ⟨rfl, rfl⟩
  · exact .inr ⟨hret.trans (congrArg (readOf k) hcell), hgone⟩

/-- The string as it is set for the second time. -/
def secondString : Except RetCode StringInfo := .ok ⟨"a", 1, "y", uint64Max⟩

theorem setAndRead_stays :
    let log := ((service Bool).exec (service Bool).init setAndRead).log
    (∃ info, secondString = .ok info ∧ 1 ≤ info.version ∧
      (info.version = 1 → info.value = "y" ∧ info.leaseTimeMs = uint64Max)) ∨
    (secondString = .error .errKeyNotExist ∧
      ∃ d, 1 < d ∧ d < 2 ∧ cellAt log "a" d ≠ none ∧ cellAt log "a" (d + 1) = none) :=
  set_stays "a" (by decide) setAndRead (by decide) 2 1 ⟨"a", 0, "y", uint64Max⟩ secondString
    (by decide) (by decide) rfl (by decide) (by decide)

end PhxQueue.Lock.Strings
