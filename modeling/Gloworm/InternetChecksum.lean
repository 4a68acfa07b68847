import Gloworm.TcpWire

/-! The internet checksum as ones' complement arithmetic on 16-bit words. -/
namespace Gloworm.InternetChecksum
open Tcp CheckedBytes PacketDecode TcpWire List

def words : List Byte → List ℕ
  | [] => []
  | [x] => [x.toNat * 256]
  | x :: y :: rest => (x.toNat * 256 + y.toNat) :: words rest

/-- The ones' complement sum of words that add up to `n`: what is carried out of the upper end comes
in again at the lower one. -/
def onesSum (n : ℕ) : ℕ := if n = 0 then 0 else (n - 1) % 65535 + 1

lemma foldSum_ones {n : ℕ} (h : n < 2 ^ 32) : foldSum n = 65535 - onesSum n := by
  have hsplit : n = 65536 * (n / 65536) + n % 65536 := (Nat.div_add_mod n 65536).symm
  rw [hsplit, foldSum_split (by omega) (by omega), ← hsplit, onesSum]
  split_ifs <;> omega

/-- The complement brings the sum to a multiple of 65535, and it is not zero. -/
lemma onesSum_complement (n : ℕ) : onesSum (n + (65535 - onesSum n)) = 65535 := by
  unfold onesSum
  split_ifs <;> omega

lemma checksumTotal_words (d : List Byte) (start : ℕ) :
    checksumTotal d 0 d.length start = start + (words d).sum := by
  induction d using words.induct with
  | case1 => rfl
  | case2 x => simp [checksumTotal, words, byteAt]
  | case3 x y rest ih =>
    have hwords : ∑ k ∈ Finset.range ((rest.length + 2) / 2), wordAt (x :: y :: rest) (0 + 2 * k) =
        ∑ k ∈ Finset.range (rest.length / 2), wordAt rest (0 + 2 * k) +
          (x.toNat * 256 + y.toNat) := by
      rw [Nat.add_div_right _ (by decide), Finset.sum_range_succ']
      rfl
    have hlast : (if (rest.length + 2) % 2 = 1 then
        byteAt (x :: y :: rest) (0 + (rest.length + 2) - 1) * 256 else 0) =
        if rest.length % 2 = 1 then byteAt rest (0 + rest.length - 1) * 256 else 0 := by
      rw [Nat.add_mod_right]
      split_ifs with hodd
      · obtain ⟨n, hn⟩ : ∃ n, rest.length = n + 1 := ⟨rest.length - 1, by omega⟩
        rw [hn]
        rfl
      · rfl
    rw [checksumTotal] at ih ⊢
    rw [length_cons, length_cons, hwords, hlast, words, sum_cons]
    omega

variable {d : List Byte} {start : ℕ}

lemma checksum_words (hlen : d.length ≤ 65535) (hstart : start < 2 ^ 20) :
    ipv4CalculateChecksum d 0 d.length start = .ok (65535 - onesSum (start + (words d).sum)) := by
  have htotal := checksumTotal_lt d 0 (Nat.lt_succ_of_le hlen) hstart
  rw [checksum_eq (by omega) (Nat.lt_succ_of_le hlen) hstart, foldSum_ones (by omega),
    checksumTotal_words]

/-- The checksum is the ones' complement of the ones' complement sum. -/
theorem internet_checksum (hlen : d.length ≤ 65535) (hstart : start < 2 ^ 20) : ∃ c,
    ipv4CalculateChecksum d 0 d.length start = .ok c ∧ c = 65535 - onesSum (start + (words d).sum) ∧
    (∀ m, 2 * m + 2 ≤ d.length → wordAt d (2 * m) = 0 →
      onesSum (start + (words (put16 d (2 * m) c)).sum) = 0xFFFF) ∧
    ∀ d' : List Byte, d'.length ≤ 65535 → (words d').Perm (words d) →
      ipv4CalculateChecksum d' 0 d'.length start = .ok c := by
  refine ⟨_, checksum_words hlen hstart, rfl, fun m hm hzero => ?_, fun d' hlen' hperm => ?_⟩
  · have hblank : put16 d (2 * m) 0 = d := by
      rw [← hzero, ← put16_put16 d (2 * m) 0, put16_put16_wordAt]
    have hput : ∀ v, checksumTotal (put16 d (0 + 2 * m) v) 0 d.length start =
        checksumTotal (put16 d (0 + 2 * m) 0) 0 d.length start + v % 65536 :=
      checksumTotal_put16 hm (by omega)
    rw [← checksumTotal_words, length_put16, ← Nat.zero_add (2 * m), hput, Nat.zero_add, hblank,
      checksumTotal_words, Nat.mod_eq_of_lt (by omega), onesSum_complement]
  · rw [checksum_words hlen' hstart, hperm.sum_eq]

theorem internet_checksum_header :
    ∃ c, ipv4CalculateChecksum [0x45, 0, 0, 20, 0, 0, 7] 0 7 3 = .ok c ∧
      onesSum (3 + (words (put16 [0x45, 0, 0, 20, 0, 0, 7] 4 c)).sum) = 0xFFFF := by
  obtain ⟨c, hc, -, hfield, -⟩ := internet_checksum (d := [0x45, 0, 0, 20, 0, 0, 7])
    (by decide) (show 3 < 2 ^ 20 by decide)
  exact ⟨c, hc, hfield 2 (by decide) (by decide)⟩

end Gloworm.InternetChecksum
