import Mathlib.Algebra.Group.Nat.Defs

/-!
# Common definitions

The return codes of `comm/errdef.h` that the modelled functions use, with their numbers, the
largest `uint64_t`, which the sources write as `-1`, `UINT64_MAX` and `NoCheckpoint`, and the bit of
a consumer group, which the producer, the store and the consumer each compute.
-/

namespace PhxQueue.Comm

def uint64Max : Nat := 2 ^ 64 - 1

/-- A `uint64_t` result of unsigned arithmetic. -/
def wrap64 (n : Nat) : Nat := n % 2 ^ 64

/-- `n - 1` of a `uint64_t`. -/
def pred64 (n : Nat) : Nat := wrap64 (n + uint64Max)

theorem pred64_zero : pred64 0 = uint64Max := by
  have hmax : uint64Max = 2 ^ 64 - 1 := rfl
  unfold pred64 wrap64
  omega

theorem pred64_of_pos {n : Nat} (h0 : 0 < n) (hn : n ≤ uint64Max) : pred64 n = n - 1 := by
  have hmax : uint64Max = 2 ^ 64 - 1 := rfl
  unfold pred64 wrap64
  omega

theorem wrap64_of_lt {n : Nat} (h : n < 2 ^ 64) : wrap64 n = n := Nat.mod_eq_of_lt h

/-- `1uLL << (consumer_group_id - 1)`, the bit of a consumer group in a mask.  The processor takes the
count modulo 64. -/
def groupBit (consumerGroupId : Int) : Nat := 1 <<< ((consumerGroupId - 1) % 64).toNat

inductive RetCode
  | ok
  | errNoImpl | errNotMaster | errVersionNotEqual | errKeyNotExist | errNoMaster | errSizeTooLarge
  | errUninit | errLogic
  | errKey | errLeveldb
  | errPropose | errProposeTimeout | errProposeFastReject
  | errProtobufParse
  | addSkip | errCursorNotFound | errPaxosNotChosen | errNoNeedDumpCheckpoint
  | errSys | errArg
  | errRangeTopic | errRangeStore | errRangeQueue | errRangeQueueInfo | errRangeCnt | errRangePub
  | errRangeHandle | errRangeRank | errNqueueInvalid | errUnexpected
  | errSvrBlock
  | errGetAdjustCursorIdFail | errGetUpdateCursorIdFail | errGetItemByCursorId
  | errPaxosGetInstanceValue
  | errNotifierMiss
  | noLiveConsumer
deriving DecidableEq, Repr

def RetCode.asInteger : RetCode → Int
  | .ok => 0
  | .errNoImpl => 10101
  | .errNotMaster => 10102
  | .errVersionNotEqual => 10103
  | .errKeyNotExist => 10104
  | .errNoMaster => 10105
  | .errSizeTooLarge => 10108
  | .errUninit => -10001
  | .errLogic => -104
  | .errKey => -10203
  | .errLeveldb => -10204
  | .errPropose => -10312
  | .errProposeTimeout => -10318
  | .errProposeFastReject => -10319
  | .errProtobufParse => -10401
  | .addSkip => 10201
  | .errCursorNotFound => 10601
  | .errPaxosNotChosen => 10701
  | .errNoNeedDumpCheckpoint => 10801
  | .errSys => -1
  | .errArg => -2
  | .errRangeTopic => -10102
  | .errRangeStore => -10103
  | .errRangeQueue => -10104
  | .errRangeQueueInfo => -10107
  | .errRangeCnt => -10109
  | .errRangePub => -10110
  | .errRangeHandle => -10106
  | .errRangeRank => -10108
  | .errNqueueInvalid => -10151
  | .errUnexpected => -10002
  | .errSvrBlock => -10601
  | .errGetAdjustCursorIdFail => -10304
  | .errGetUpdateCursorIdFail => -10309
  | .errGetItemByCursorId => -10320
  | .errPaxosGetInstanceValue => -10902
  | .errNotifierMiss => -10205
  | .noLiveConsumer => 10503

end PhxQueue.Comm
