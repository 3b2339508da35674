import PhxQueue.Comm
import Mathlib.Tactic

/-!
# Addresses and hashes

`comm/utils/addr_util.cpp` and `comm/utils/hash_util.cpp`: an address as a number, and the hash of
a block of memory.

* `encodeAddr`, `decodeAddr`   the two directions of `addr_util.cpp`;
* `decodeAddr_encodeAddr`      an address comes back, so two addresses have two numbers;
* `murmurHash64`               the hash of a block of memory.
-/

set_option linter.unusedSectionVars false

namespace PhxQueue.Comm

/-! ## Addresses -/

/-- For the numerals of the parts of an address. -/
instance neZero_byte : NeZero 256 := ⟨by decide⟩

instance neZero_port : NeZero (2 ^ 16) := ⟨by decide⟩

/-- An IPv4 address, by its four parts. -/
structure Ipv4 where
  a : Fin 256
  b : Fin 256
  c : Fin 256
  d : Fin 256
deriving DecidableEq

/-- `comm::proto::Addr` with a valid ip and valid ports; 0 is an unset port. -/
structure ProtoAddr where
  ip : Ipv4
  port : Fin (2 ^ 16) := 0
  paxosPort : Fin (2 ^ 16) := 0
deriving DecidableEq

/-- `inet_addr` of a dotted decimal address: its bytes in network order. -/
def inetAddr (ip : Ipv4) : ℕ := ip.a + 2 ^ 8 * (ip.b + 2 ^ 8 * (ip.c + 2 ^ 8 * ip.d))

def inetNtoa (n : ℕ) : Ipv4 :=
  ⟨Fin.ofNat 256 n, Fin.ofNat 256 (n / 2 ^ 8), Fin.ofNat 256 (n / 2 ^ 16),
    Fin.ofNat 256 (n / 2 ^ 24)⟩

def encodeAddr (addr : ProtoAddr) : ℕ :=
  let res := inetAddr addr.ip
  let res := wrap64 (res <<< 16) ||| addr.port
  wrap64 (res <<< 16) ||| addr.paxosPort

def decodeAddr (encodedAddr : ℕ) : ProtoAddr where
  ip := inetNtoa (encodedAddr >>> 32)
  port := Fin.ofNat _ ((encodedAddr >>> 16) &&& 0xFFFF)
  paxosPort := Fin.ofNat _ (encodedAddr &&& 0xFFFF)

lemma inetAddr_lt (ip : Ipv4) : inetAddr ip < 2 ^ 32 := by
  unfold inetAddr
  omega

lemma inetNtoa_inetAddr (ip : Ipv4) : inetNtoa (inetAddr ip) = ip := by
  obtain ⟨a, b, c, d⟩ := ip
  unfold inetNtoa inetAddr
  rw [Ipv4.mk.injEq]
  refine ⟨?_, ?_, ?_, ?_⟩ <;>
  · apply Fin.ext
    rw [Fin.ofNat_eq_cast, Fin.val_natCast]
    dsimp only
    omega

lemma shiftLeft_or {n i m : ℕ} (hn : n < 2 ^ (64 - i)) (hm : m < 2 ^ i) (hi : i ≤ 64) :
    wrap64 (n <<< i) ||| m = n * 2 ^ i + m := by
  have hlt : n <<< i < 2 ^ 64 := by
    rw [Nat.shiftLeft_eq, ← Nat.sub_add_cancel hi, pow_add]
    exact Nat.mul_lt_mul_of_pos_right hn (by positivity)
  rw [wrap64_of_lt hlt, ← Nat.shiftLeft_add_eq_or_of_lt hm, Nat.shiftLeft_eq]

theorem encodeAddr_eq (addr : ProtoAddr) :
    encodeAddr addr = (inetAddr addr.ip * 2 ^ 16 + addr.port) * 2 ^ 16 + addr.paxosPort := by
  have hip := inetAddr_lt addr.ip
  have hport := addr.port.isLt
  unfold encodeAddr
  dsimp only
  rw [shiftLeft_or (by omega) hport (by norm_num),
    shiftLeft_or (by omega) addr.paxosPort.isLt (by norm_num)]

theorem decodeAddr_encodeAddr (addr : ProtoAddr) : decodeAddr (encodeAddr addr) = addr := by
  obtain ⟨ip, port, paxosPort⟩ := addr
  have hmask : (0xFFFF : ℕ) = 2 ^ 16 - 1 := rfl
  rw [encodeAddr_eq]
  dsimp only
  unfold decodeAddr
  rw [hmask, Nat.and_two_pow_sub_one_eq_mod, Nat.and_two_pow_sub_one_eq_mod,
    Nat.shiftRight_eq_div_pow, Nat.shiftRight_eq_div_pow, ProtoAddr.mk.injEq]
  refine ⟨?_, ?_, ?_⟩
  · have hshift : ((inetAddr ip * 2 ^ 16 + port) * 2 ^ 16 + paxosPort) / 2 ^ 32 = inetAddr ip := by
      omega
    rw [hshift, inetNtoa_inetAddr]
  · apply Fin.ext
    rw [Fin.ofNat_eq_cast, Fin.val_natCast]
    omega
  · apply Fin.ext
    rw [Fin.ofNat_eq_cast, Fin.val_natCast]
    omega

theorem encodeAddr_injective : Function.Injective encodeAddr :=
  Function.LeftInverse.injective decodeAddr_encodeAddr

/-! ## Hashes -/

/-- The multiplier of `MurmurHash64`. -/
def murmurM : ℕ := 0xc6a4a7935bd1e995

/-- `k ^ k >> r` with `r = 47`. -/
def murmurShift (k : ℕ) : ℕ := k ^^^ (k >>> 47)

def murmurWord (h k : ℕ) : ℕ :=
  wrap64 ((h ^^^ wrap64 (murmurShift (wrap64 (k * murmurM)) * murmurM)) * murmurM)

/-- `MurmurHash64` of the `len` bytes of a little-endian number. -/
def murmurHash64 (key len seed : ℕ) : ℕ :=
  let h := seed ^^^ wrap64 (len * murmurM)
  let h := (List.range (len / 8)).foldl (fun h i => murmurWord h (wrap64 (key / 2 ^ (64 * i)))) h
  let rest := key / 2 ^ (64 * (len / 8)) % 2 ^ (8 * (len % 8))
  let h := if len % 8 = 0 then h else wrap64 ((h ^^^ rest) * murmurM)
  murmurShift (wrap64 (murmurShift h * murmurM))

end PhxQueue.Comm
