import RadioHal.Lib.CString

/-!
# Numbers and their decimal texts

A decimal text is a sign or none and a row of digits.  `strtol` reads it as the number it stands
for, cut to the range of `long`; an `int` keeps a number that fits it, and the low bits of any
other.

## Main definitions

* `Sign`, `Denotes t v` — signs, and the decimal texts `t` of the number `v`.
* `FitsInt v` — `v` is a value of a 32-bit `int`.

## Main results

* `strtol_of_denotes` — **a decimal text is read as its number**, cut to the range of `long`.
* `value_of_not_converted` — a text without digits is read as zero.
* `toInt_eq_self_iff` — an `int` keeps exactly what fits it.
-/

namespace CLib

/-- The sign in front of a number. -/
inductive Sign
  | none | plus | minus
  deriving DecidableEq, Repr

/-- The sign as it stands in a text. -/
def Sign.text : Sign → Text
  | none => []
  | plus => ['+']
  | minus => ['-']

/-- The value of a number behind its sign. -/
def Sign.apply (n : ℕ) : Sign → ℤ
  | none => n
  | plus => n
  | minus => -n

/-- `t` is a decimal text of the number `v`. -/
def Denotes (t : Text) (v : ℤ) : Prop :=
  ∃ (sign : Sign) (ds : Text), ds ≠ [] ∧ (∀ c ∈ ds, isdigit c = true) ∧ t = sign.text ++ ds ∧
    v = sign.apply (digitsValue ds)

/-! ### Reading -/

/-- A row of digits behind a sign that has been taken off. -/
theorem strtolDigits_eq (neg : Bool) {ds : Text} (hne : ds ≠ [])
    (hds : ∀ c ∈ ds, isdigit c = true) :
    strtolDigits neg ds =
      ⟨clampLong (if neg then -(digitsValue ds : ℤ) else digitsValue ds), true,
        decide (clampLong (if neg then -(digitsValue ds : ℤ) else digitsValue ds) ≠
          if neg then -(digitsValue ds : ℤ) else digitsValue ds)⟩ := by
  have htake : ds.takeWhile isdigit = ds := List.takeWhile_eq_self_iff.mpr hds
  unfold strtolDigits
  rw [htake]
  simp [hne]

/-- **A decimal text is read as its number**, cut to the range of `long`.  Only where it has been
cut is `errno` set. -/
theorem strtol_of_denotes {t : Text} {v : ℤ} (h : Denotes t v) :
    strtol t = ⟨clampLong v, true, decide (clampLong v ≠ v)⟩ := by
  obtain ⟨sign, ds, hne, hds, rfl, rfl⟩ := h
  cases sign with
  | none =>
    obtain ⟨c, cs, rfl⟩ := List.exists_cons_of_ne_nil hne
    have hc := hds c List.mem_cons_self
    have hdrop : (c :: cs).dropWhile isspace = c :: cs := by
      simp [isdigit_not_isspace hc]
    have hminus : c ≠ '-' := by
      intro h
      simp [h, isdigit] at hc
    have hplus : c ≠ '+' := by
      intro h
      simp [h, isdigit] at hc
    have hread : strtol (c :: cs) = strtolDigits false (c :: cs) := by
      unfold strtol
      rw [hdrop]
      split
      · next h => exact absurd (List.cons.inj h).1 hminus
      · next h => exact absurd (List.cons.inj h).1 hplus
      · rfl
    exact hread.trans (strtolDigits_eq false hne hds)
  | plus => exact strtolDigits_eq false hne hds
  | minus => exact strtolDigits_eq true hne hds

/-- Where no digit is read, the value is zero. -/
theorem value_of_not_converted {t : Text} (h : (strtol t).converted = false) :
    (strtol t).value = 0 := by
  have hdigits : ∀ (neg : Bool) (s : Text), (strtolDigits neg s).converted = false →
      (strtolDigits neg s).value = 0 := by
    intro neg s hs
    unfold strtolDigits at hs ⊢
    by_cases hempty : (s.takeWhile isdigit).isEmpty = true
    · simp [hempty]
    · simp [hempty] at hs
  unfold strtol at h ⊢
  split at h
  · exact hdigits _ _ h
  · exact hdigits _ _ h
  · exact hdigits _ _ h

/-! ### Narrowing -/

/-- `v` is a value of a 32-bit `int`. -/
def FitsInt (v : ℤ) : Prop := -2 ^ 31 ≤ v ∧ v < 2 ^ 31

instance (v : ℤ) : Decidable (FitsInt v) := inferInstanceAs (Decidable (_ ∧ _))

/-- What is narrowed is a value of an `int`. -/
theorem fitsInt_toInt (v : ℤ) : FitsInt (toInt v) := by
  unfold FitsInt toInt
  rw [Int.bmod_def]
  split <;> omega

/-- **An `int` keeps exactly what fits it.**  Any other number comes out as another one, which
differs by a multiple of `2 ^ 32`. -/
theorem toInt_eq_self_iff {v : ℤ} : toInt v = v ↔ FitsInt v := by
  unfold FitsInt toInt
  rw [Int.bmod_def]
  split <;> omega

theorem clampLong_of_fitsInt {v : ℤ} (h : FitsInt v) : clampLong v = v := by
  unfold FitsInt at h
  unfold clampLong longMin longMax
  omega

/-- A number that fits an `int` is stored as it is. -/
theorem toInt_clampLong {v : ℤ} (h : FitsInt v) : toInt (clampLong v) = v := by
  rw [clampLong_of_fitsInt h, toInt_eq_self_iff.mpr h]

end CLib
