import PhxQueue.Comm
import PhxQueue.Lib.Framing
import PhxQueue.Lib.Run

/-!
# Notifiers

`Notifier::Notify` and `Notifier::Wait` of `comm/notifierpool.cpp` with `CoWrite` and `CoRead` of
`comm/utils/co_util.cpp`: a return code goes through a pipe as the bytes of an `int`, which `write` and `read`
take in pieces.  The two ends are used by two threads.

* `bytesOf`, `ofBytes`   an `int` in memory;
* `Notifier`, `notifier`   the code, by what `write` and `read` return;
* `waited_notified`      **the codes that come out are those that have been put in, in order, and a wait does
                         not block while there is one**, if no call fails between two pieces;
* `torn_misread`         `CoWrite` begins anew if it fails, and has then written some bytes twice.
-/

set_option linter.unusedSectionVars false

namespace PhxQueue.Comm.NotifierPool
open Lib Lib.Machine

/-! ## Bytes -/

abbrev Byte := BitVec 8

/-- The bytes of an `int`. -/
def bytesOf (x : BitVec 32) : List Byte :=
  [x.extractLsb' 0 8, x.extractLsb' 8 8, x.extractLsb' 16 8, x.extractLsb' 24 8]

/-- The `int` of four bytes. -/
def ofBytes (buf : List Byte) : BitVec 32 := buf.getD 3 0 ++ buf.getD 2 0 ++ buf.getD 1 0 ++ buf.getD 0 0

lemma length_bytesOf (x : BitVec 32) : (bytesOf x).length = 4 := rfl

lemma ofBytes_bytesOf (x : BitVec 32) : ofBytes (bytesOf x) = x := by
  unfold ofBytes bytesOf
  ext i hi
  simp
  grind

lemma bytesOf_injective : Function.Injective bytesOf := Function.LeftInverse.injective ofBytes_bytesOf

lemma bytesOf_ofBytes {buf : List Byte} (h : buf.length = 4) : bytesOf (ofBytes buf) = buf := by
  match buf, h with
  | [a, b, c, d], _ =>
    unfold ofBytes bytesOf
    simp
    refine ⟨?_, ?_, ?_, ?_⟩
    · ext i hi
      simp
      grind
    · ext i hi
      simp
      grind
    · ext i hi
      simp
      grind
    · ext i hi
      simp
      grind

/-- `as_integer`, in an `int`. -/
def iretcode (ret : RetCode) : BitVec 32 := BitVec.ofInt 32 ret.asInteger

def retcodes : List RetCode :=
  [.ok, .errNoImpl, .errNotMaster, .errVersionNotEqual, .errKeyNotExist, .errNoMaster, .errSizeTooLarge,
    .errUninit, .errLogic, .errKey, .errLeveldb, .errPropose, .errProposeTimeout, .errProposeFastReject,
    .errProtobufParse, .addSkip, .errCursorNotFound, .errPaxosNotChosen, .errNoNeedDumpCheckpoint, .errSys,
    .errArg, .errRangeTopic, .errRangeStore, .errRangeQueue, .errRangeQueueInfo, .errRangeCnt, .errRangePub,
    .errRangeHandle, .errRangeRank, .errNqueueInvalid, .errUnexpected, .errSvrBlock,
    .errGetAdjustCursorIdFail, .errGetUpdateCursorIdFail, .errGetItemByCursorId,
    .errPaxosGetInstanceValue, .errNotifierMiss, .noLiveConsumer]

/-- The `static_cast` of `Wait`; an `int` that is no code is taken for `RET_OK` here. -/
def retcode (x : BitVec 32) : RetCode := (retcodes.find? fun ret => iretcode ret = x).getD .ok

lemma retcode_iretcode (ret : RetCode) : retcode (iretcode ret) = ret := by
  cases ret <;> decide

/-! ## The code -/

/-- A notifier and the two calls that use it. -/
structure Notifier where
  pipe : List Byte := []
  /-- `Notify`, and the `write_len` of its `CoWrite`. -/
  writing : Option (RetCode × ℕ) := none
  /-- `Wait`, and the bytes that its `CoRead` has read. -/
  reading : Option (List Byte) := none
  notified : List RetCode := []
  waited : List (BitVec 32) := []

inductive Event
  /-- `Notify` is called. -/
  | notify (ret : RetCode)
  /-- `write` returns the number of the bytes it has taken. -/
  | write (len : ℕ)
  /-- `CoWrite` returns false, and is called again. -/
  | writeFail
  /-- `Wait` is called. -/
  | wait
  | read (len : ℕ)
  | readFail

namespace Notifier

/-- After `write`; the last piece ends the `CoWrite`. -/
def write (w : Notifier) (ret : RetCode) (writeLen len : ℕ) : Notifier :=
  let w := { w with pipe := w.pipe ++ ((bytesOf (iretcode ret)).drop writeLen).take len }
  if writeLen + len = 4 then { w with writing := none, notified := w.notified ++ [ret] }
  else { w with writing := some (ret, writeLen + len) }

/-- After `read`; the last piece ends the `CoRead`. -/
def read (w : Notifier) (buf : List Byte) (len : ℕ) : Notifier :=
  let buf := buf ++ w.pipe.take len
  let w := { w with pipe := w.pipe.drop len }
  if buf.length = 4 then { w with reading := none, waited := w.waited ++ [ofBytes buf] }
  else { w with reading := some buf }

/-- One step; an event that is not due changes nothing, and no more do `EINTR` and `EAGAIN`. -/
def step (w : Notifier) : Event → Notifier
  | .notify ret =>
    match w.writing with
    | none => { w with writing := some (ret, 0) }
    | some _ => w
  | .write len =>
    match w.writing with
    | none => w
    | some (ret, writeLen) => if 0 < len ∧ writeLen + len ≤ 4 then w.write ret writeLen len else w
  | .writeFail =>
    match w.writing with
    | none => w
    | some (ret, _) => { w with writing := some (ret, 0) }
  | .wait =>
    match w.reading with
    | none => { w with reading := some [] }
    | some _ => w
  | .read len =>
    match w.reading with
    | none => w
    | some buf => if 0 < len ∧ buf.length + len ≤ 4 ∧ len ≤ w.pipe.length then w.read buf len else w
  | .readFail =>
    match w.reading with
    | none => w
    | some _ => { w with reading := some [] }

end Notifier

def notifier : Machine Notifier Event where
  init := {}
  step := Notifier.step

/-! ## The stream -/

def NoTear (w : Notifier) : Event → Prop
  | .writeFail => ∀ call ∈ w.writing, call.2 = 0
  | .readFail => ∀ buf ∈ w.reading, buf = []
  | _ => True

/-- What `Notify` has written so far. -/
def Notifier.written (w : Notifier) : List Byte :=
  match w.writing with
  | none => []
  | some (ret, writeLen) => (bytesOf (iretcode ret)).take writeLen

/-- The codes that have been put in, and the one that is being put in, are the ones that have come out, what
has been read and what is in the pipe. -/
structure Inv (w : Notifier) : Prop where
  stream : (w.notified.map iretcode).flatMap bytesOf ++ w.written =
    w.waited.flatMap bytesOf ++ (w.reading.getD [] ++ w.pipe)
  writeLen : ∀ call ∈ w.writing, call.2 < 4
  readLen : ∀ buf ∈ w.reading, buf.length < 4

section
variable {w : Notifier}

namespace Inv

lemma init : Inv notifier.init where
  stream := rfl
  writeLen call h := by cases h
  readLen buf h := by cases h

lemma length_written (h : Inv w) : w.written.length < 4 := by
  have hlen := h.writeLen
  unfold Notifier.written
  cases hw : w.writing with
  | none => exact Nat.zero_lt_succ 3
  | some call =>
    have hlt := hlen call hw
    show ((bytesOf (iretcode call.1)).take call.2).length < 4
    rw [List.length_take, length_bytesOf]
    omega

lemma write (h : Inv w) {ret : RetCode} {writeLen len : ℕ} (hw : w.writing = some (ret, writeLen))
    (hle : writeLen + len ≤ 4) : Inv (w.write ret writeLen len) := by
  have hstream := h.stream
  unfold Notifier.written at hstream
  rw [hw] at hstream
  -- the piece follows what has been written
  have hpiece : (bytesOf (iretcode ret)).take (writeLen + len) =
      (bytesOf (iretcode ret)).take writeLen ++ ((bytesOf (iretcode ret)).drop writeLen).take len :=
    List.take_add
  have hmore : (w.notified.map iretcode).flatMap bytesOf ++ (bytesOf (iretcode ret)).take (writeLen + len) =
      w.waited.flatMap bytesOf ++
        (w.reading.getD [] ++ (w.pipe ++ ((bytesOf (iretcode ret)).drop writeLen).take len)) := by
    rw [hpiece, ← List.append_assoc, hstream]
    simp only [List.append_assoc]
  unfold Notifier.write
  dsimp only
  split
  · rename_i hend
    refine ⟨?_, fun call hcall => (by cases hcall), h.readLen⟩
    rw [hend, List.take_of_length_le (length_bytesOf _).le] at hmore
    show ((w.notified ++ [ret]).map iretcode).flatMap bytesOf ++ [] = _
    rw [List.map_append, List.flatMap_append, List.append_nil, List.map_singleton, List.flatMap_singleton]
    exact hmore
  · rename_i hend
    refine ⟨hmore, fun call hcall => ?_, h.readLen⟩
    cases hcall
    show writeLen + len < 4
    omega

lemma read (h : Inv w) {buf : List Byte} {len : ℕ} (hw : w.reading = some buf)
    (hle : buf.length + len ≤ 4) : Inv (w.read buf len) := by
  have hstream := h.stream
  rw [hw] at hstream
  change _ = w.waited.flatMap bytesOf ++ (buf ++ w.pipe) at hstream
  have hmore : buf ++ w.pipe = (buf ++ w.pipe.take len) ++ w.pipe.drop len := by
    rw [List.append_assoc, List.take_append_drop]
  rw [hmore] at hstream
  unfold Notifier.read
  dsimp only
  split
  · rename_i hend
    refine ⟨?_, h.writeLen, fun b hb => by cases hb⟩
    refine hstream.trans ?_
    show _ = (w.waited ++ [ofBytes (buf ++ w.pipe.take len)]).flatMap bytesOf ++ ([] ++ w.pipe.drop len)
    rw [List.flatMap_append, List.flatMap_singleton, bytesOf_ofBytes hend, List.nil_append,
      List.append_assoc (w.waited.flatMap bytesOf)]
  · rename_i hend
    refine ⟨hstream, h.writeLen, fun b hb => ?_⟩
    cases hb
    have htake : (w.pipe.take len).length ≤ len := List.length_take_le len w.pipe
    rw [List.length_append] at hend ⊢
    omega

theorem step (h : Inv w) {e : Event} (he : NoTear w e) : Inv (w.step e) := by
  cases e with
  | notify ret =>
    unfold Notifier.step
    dsimp only
    split
    · rename_i hw
      have hstream := h.stream
      unfold Notifier.written at hstream
      rw [hw] at hstream
      refine ⟨hstream, fun call hcall => ?_, h.readLen⟩
      cases hcall
      exact Nat.zero_lt_succ 3
    · exact h
  | write len =>
    unfold Notifier.step
    dsimp only
    split
    · exact h
    · rename_i ret writeLen hw
      split
      · rename_i hdue
        exact h.write hw hdue.2
      · exact h
  | writeFail =>
    unfold Notifier.step
    dsimp only
    split
    · exact h
    · rename_i ret writeLen hw
      -- nothing has been written
      have hzero : writeLen = 0 := he _ hw
      rw [← hzero, ← hw]
      exact h
  | wait =>
    unfold Notifier.step
    dsimp only
    split
    · rename_i hw
      have hstream := h.stream
      rw [hw] at hstream
      refine ⟨hstream, h.writeLen, fun b hb => ?_⟩
      cases hb
      exact Nat.zero_lt_succ 3
    · exact h
  | read len =>
    unfold Notifier.step
    dsimp only
    split
    · exact h
    · rename_i buf hw
      split
      · rename_i hdue
        exact h.read hw hdue.2.1
      · exact h
  | readFail =>
    unfold Notifier.step
    dsimp only
    split
    · exact h
    · rename_i buf hw
      have hnil : buf = [] := he _ hw
      rw [← hnil, ← hw]
      exact h

end Inv

end

/-- **What comes out of a notifier is what has been put in**, in order, in whatever pieces it is written and
read while the two threads go on; and a wait does not block while there is a code that has not come out. -/
theorem waited_notified (events : List Event) (h : notifier.Along NoTear notifier.init events) :
    let w := notifier.exec notifier.init events
    w.waited.map retcode <+: w.notified ∧
    (w.reading ≠ none → w.waited.length < w.notified.length → w.pipe ≠ []) := by
  intro w
  have hstep (w : Notifier) (e : Event) (h : Inv w) (he : NoTear w e) : Inv (notifier.step w e) := h.step he
  have hinv : Inv w := (Always.of_inv hstep Inv.init h).last
  have hprefix := Framing.prefix_of_stream length_bytesOf bytesOf_injective hinv.stream hinv.length_written
  have hback : (w.notified.map iretcode).map retcode = w.notified := by
    rw [List.map_map]
    exact List.map_id'' retcode_iretcode w.notified
  refine ⟨hback ▸ hprefix.map retcode, ?_⟩
  intro hreading hless hnil
  have hrest := Framing.length_rest length_bytesOf bytesOf_injective hinv.stream hinv.length_written
  obtain ⟨buf, hbuf⟩ := Option.ne_none_iff_exists'.mp hreading
  have hshort := hinv.readLen buf hbuf
  rw [hbuf, hnil, List.append_nil, List.length_map] at hrest
  change buf.length = _ at hrest
  omega

def pieces : List Event :=
  [.wait, .readFail, .notify .errNoImpl, .write 1, .read 1, .write 3, .notify .errSys, .writeFail, .read 2,
    .write 4, .read 1]

theorem pieces_come_out :
    let w := notifier.exec notifier.init pieces
    w.waited.map retcode <+: w.notified ∧
    (w.reading ≠ none → w.waited.length < w.notified.length → w.pipe ≠ []) :=
  waited_notified pieces ⟨trivial, fun _ hbuf => (Option.some.inj hbuf).symm, trivial, trivial, trivial,
    trivial, trivial, fun _ hcall => congrArg Prod.snd (Option.some.inj hcall).symm, trivial, trivial,
    trivial, trivial⟩

/-- **A `CoWrite` that fails after its first piece is called with all the bytes again.** -/
theorem torn_misread : ¬ ∀ events,
    (notifier.exec notifier.init events).waited.map retcode <+:
      (notifier.exec notifier.init events).notified := by
  intro h
  exact absurd (h [.notify .errNoImpl, .write 1, .writeFail, .write 4, .wait, .read 4]) (by decide)

end PhxQueue.Comm.NotifierPool
