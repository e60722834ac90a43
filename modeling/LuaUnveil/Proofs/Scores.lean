import LuaUnveil.Proofs.Statistics

/-!
# Scores at the limits of 64 bits

Counts are 64-bit words, and a sum or product that does not fit stops at the largest word.  This
file computes the score with the operations of such words, which wrap around, and a test for whether
they did.

**Words.**  `addWords` and `mulWords` are the saturating operations, and on numbers they are the
capped ones of the score (`toNat_addWords`, `toNat_mulWords`).

**Scores.**  `confidenceOfWords` is the score of words, down to the cut to eight bits
(`confidenceOfWords_eq`).  The class of a script never falls when it grows (`rank_complexity_mono`).
-/

namespace LuaUnveil

/-! ## Words -/

/-- The largest word. -/
def largestWord : UInt64 := 0xFFFFFFFFFFFFFFFF

lemma toNat_largestWord : largestWord.toNat = maxCount := rfl

/-- The sum of two words, or the largest word if the sum has wrapped around. -/
def addWords (m n : UInt64) : UInt64 := if m + n < m then largestWord else m + n

/-- The product of two words, or the largest word if the product has wrapped around. -/
def mulWords (m n : UInt64) : UInt64 := if n ≠ 0 ∧ m * n / n ≠ m then largestWord else m * n

lemma toNat_addWords (m n : UInt64) : (addWords m n).toNat = addCounts m.toNat n.toNat := by
  have hm := m.toNat_lt
  have hn := n.toNat_lt
  have hwrap : (m + n).toNat = (m.toNat + n.toNat) % 2 ^ 64 := UInt64.toNat_add m n
  unfold addWords addCounts
  split_ifs with h
  · rw [UInt64.lt_iff_toNat_lt, hwrap] at h
    rw [toNat_largestWord]
    unfold maxCount
    omega
  · rw [UInt64.lt_iff_toNat_lt, hwrap] at h
    rw [hwrap]
    unfold maxCount
    omega

/-- Dividing a wrapped product by one factor gives the other one back just if it has not wrapped. -/
lemma mul_mod_div_eq_iff {m n size : Nat} (hn : 0 < n) (hsize : 0 < size) :
    m * n % size / n = m ↔ m * n < size := by
  constructor
  · intro h
    calc m * n = m * n % size / n * n := by rw [h]
      _ ≤ m * n % size := Nat.div_mul_le_self _ n
      _ < size := Nat.mod_lt _ hsize
  · intro h
    rw [Nat.mod_eq_of_lt h, Nat.mul_div_cancel m hn]

lemma toNat_mulWords (m n : UInt64) : (mulWords m n).toNat = mulCounts m.toNat n.toNat := by
  have hwrap : (m * n).toNat = m.toNat * n.toNat % 2 ^ 64 := UInt64.toNat_mul m n
  have hfits : (n ≠ 0 ∧ m * n / n ≠ m) ↔ ¬ m.toNat * n.toNat < 2 ^ 64 := by
    rw [ne_eq, ne_eq, ← UInt64.toNat_inj, ← UInt64.toNat_inj, UInt64.toNat_div, hwrap]
    rcases Nat.eq_zero_or_pos n.toNat with hn | hn
    · simp [hn]
    · rw [mul_mod_div_eq_iff hn (by decide)]
      simp [hn.ne']
  unfold mulWords mulCounts
  split_ifs with h
  · rw [hfits] at h
    rw [toNat_largestWord]
    unfold maxCount
    omega
  · rw [hfits, not_not] at h
    rw [hwrap, Nat.mod_eq_of_lt h]
    unfold maxCount
    omega

/-! ## Scores -/

/-- The score of counts that are words: every sum and product is one of words, and the result is cut
to eight bits. -/
def confidenceOfWords (identifiers escapes functions : UInt64) : UInt8 :=
  let weighted :=
    addWords (addWords (mulWords identifiers 2) (mulWords escapes 3)) (mulWords functions 5)
  (min (addWords 40 weighted) 95).toUInt8

/-- The score of words is the score of the numbers that they stand for. -/
lemma confidenceOfWords_eq (i s f : UInt64) :
    confidenceOfWords i s f = confidence i.toNat s.toNat f.toNat := by
  unfold confidenceOfWords confidence
  refine congrArg Nat.toUInt8 ?_
  simp only [UInt64.toNat_min, toNat_addWords, toNat_mulWords]
  rfl

/-- More lines and more renamed identifiers never lower the class. -/
lemma rank_complexity_mono {l l' r r' : Nat} (hl : l ≤ l') (hr : r ≤ r') :
    (complexity l r).rank ≤ (complexity l' r').rank := by
  cases hclass : complexity l r with
  | low => exact Nat.zero_le _
  | medium =>
      have hnot : complexity l' r' ≠ .low := by
        intro hlow
        obtain ⟨hl', hr'⟩ := complexity_eq_low_iff.mp hlow
        have hlow' := complexity_eq_low_iff.mpr ⟨hl.trans hl', hr.trans hr'⟩
        rw [hclass] at hlow'
        cases hlow'
      cases hclass' : complexity l' r' with
      | low => exact absurd hclass' hnot
      | medium => decide
      | high => decide
  | high =>
      have hhigh : complexity l' r' = .high := by
        rw [complexity_eq_high_iff] at hclass ⊢
        omega
      rw [hhigh]

/-- **Scores are exact at the limits of 64 bits.**  For counts that are words, the score is the one
computed with saturating words and a cut to eight bits, and it is the capped sum of the true
numbers.  So it lies between forty and ninety-five, and no count that grows lowers it.  Nor does a
script that grows fall into a lower class. -/
theorem scores_exact_on_words :
    (∀ i s f : UInt64,
      confidence i.toNat s.toNat f.toNat = confidenceOfWords i s f ∧
      (confidence i.toNat s.toNat f.toNat).toNat
        = min 95 (40 + 2 * i.toNat + 3 * s.toNat + 5 * f.toNat) ∧
      40 ≤ confidence i.toNat s.toNat f.toNat ∧ confidence i.toNat s.toNat f.toNat ≤ 95) ∧
    (∀ i i' s s' f f' : UInt64, i ≤ i' → s ≤ s' → f ≤ f' →
      confidence i.toNat s.toNat f.toNat ≤ confidence i'.toNat s'.toNat f'.toNat) ∧
    (∀ l l' r r' : UInt64, l ≤ l' → r ≤ r' →
      (complexity l.toNat r.toNat).rank ≤ (complexity l'.toNat r'.toNat).rank) := by
  refine ⟨fun i s f => ⟨(confidenceOfWords_eq i s f).symm, toNat_confidence _ _ _, ?_, ?_⟩, ?_, ?_⟩
  · rw [UInt8.le_iff_toNat_le, toNat_confidence]
    change 40 ≤ _
    omega
  · rw [UInt8.le_iff_toNat_le, toNat_confidence]
    exact Nat.min_le_left 95 _
  · intro i i' s s' f f' hi hs hf
    rw [UInt64.le_iff_toNat_le] at hi hs hf
    rw [UInt8.le_iff_toNat_le, toNat_confidence, toNat_confidence]
    omega
  · intro l l' r r' hl hr
    exact rank_complexity_mono (UInt64.le_iff_toNat_le.mp hl) (UInt64.le_iff_toNat_le.mp hr)

/-- With the largest count of identifiers the sums stop at the largest word, and the score at its
cap; without any the score is the least one. -/
theorem scores_on_words_at_limit :
    confidenceOfWords largestWord 0 0 = 95 ∧ confidenceOfWords 0 0 0 = 40 ∧
    confidence (0 : UInt64).toNat (0 : UInt64).toNat (0 : UInt64).toNat
      ≤ confidence largestWord.toNat (0 : UInt64).toNat (0 : UInt64).toNat := by
  refine ⟨by decide, by decide, ?_⟩
  exact scores_exact_on_words.2.1 0 largestWord 0 0 0 0 (by decide) (by decide) (by decide)

end LuaUnveil
