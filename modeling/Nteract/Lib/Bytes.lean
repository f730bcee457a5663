import Mathlib

namespace Nteract.Lib.Bytes

-- `width` bytes of `n`, least significant first. Higher bits are dropped.
def leBytes : Nat → Nat → List UInt8
  | 0, _ => []
  | width + 1, n => UInt8.ofNat n :: leBytes width (n / 256)

def leNat : List UInt8 → Nat
  | [] => 0
  | byte :: rest => byte.toNat + 256 * leNat rest

@[simp] theorem leBytes_length (width n : Nat) : (leBytes width n).length = width := by
  induction width generalizing n with
  | zero => rfl
  | succ _ ih => simp [leBytes, ih]

theorem leNat_leBytes (width n : Nat) (hn : n < 256 ^ width) : leNat (leBytes width n) = n := by
  induction width generalizing n with
  | zero =>
    have hz : n = 0 := by simpa using hn
    simp [leBytes, leNat, hz]
  | succ width ih =>
    have hd : n / 256 < 256 ^ width := by
      apply Nat.div_lt_of_lt_mul
      simpa [Nat.pow_succ, Nat.mul_comm] using hn
    simp only [leBytes, leNat, ih _ hd, UInt8.toNat_ofNat']
    omega

-- A 32-byte array, ordered as its bytes are: the most significant byte first.
abbrev Digest := Fin (2 ^ 256)

instance neZeroDigest : NeZero (2 ^ 256) := ⟨(Nat.two_pow_pos 256).ne'⟩

def digestBytes (digest : Digest) : List UInt8 :=
  (leBytes 32 digest.val).reverse

@[simp] theorem digestBytes_length (digest : Digest) : (digestBytes digest).length = 32 := by
  simp [digestBytes]

def readDigest (bytes : List UInt8) : Digest := Fin.ofNat (2 ^ 256) (leNat bytes.reverse)

theorem readDigest_digestBytes (digest : Digest) : readDigest (digestBytes digest) = digest := by
  have hlt : digest.val < 256 ^ 32 := digest.isLt
  unfold readDigest digestBytes
  rw [List.reverse_reverse, leNat_leBytes 32 digest.val hlt]
  exact Fin.ofNat_val_eq_self digest

def readDigests : Nat → List UInt8 → List Digest
  | 0, _ => []
  | rounds + 1, bytes =>
    if bytes.isEmpty then [] else readDigest (bytes.take 32) :: readDigests rounds (bytes.drop 32)

theorem readDigests_flatMap (rounds : Nat) (digests : List Digest) (hr : digests.length ≤ rounds) :
    readDigests rounds (digests.flatMap digestBytes) = digests := by
  induction rounds generalizing digests with
  | zero => rw [List.length_eq_zero_iff.mp (Nat.le_zero.mp hr)]; rfl
  | succ _ ih =>
    cases digests with
    | nil => rfl
    | cons digest digests =>
      have hl : (digestBytes digest).length = 32 := digestBytes_length digest
      have hne : ((digest :: digests).flatMap digestBytes).isEmpty = false := by
        rw [List.flatMap_cons]
        cases hb : digestBytes digest with
        | nil => rw [hb] at hl; cases hl
        | cons => rfl
      rw [readDigests, hne, List.flatMap_cons, List.take_left' hl, List.drop_left' hl,
        readDigest_digestBytes, ih digests (by simpa using hr)]
      rfl

end Nteract.Lib.Bytes
