/- # AugmentedLagrangian.Proofs.Words — a double is a sign and a word

Packing what has been unpacked gives back the bits, since what is no number has only one pattern of
bits (`pack_unpack`).  So a double is its sign together with its word (`toFloat_wordOf`), and all
words beyond the infinite one stand for the one value that is no number (`eq_nan_of_wordOf`).
-/
import AugmentedLagrangian.Decimal.Binary64
import AugmentedLagrangian.Proofs.Double

namespace AugmentedLagrangian

set_option autoImplicit false

namespace Double

open Float.Model Float.Model.UnpackedFloat

/-- Bits are their three fields. -/
theorem packComponents_unpack (b : BitVec Format.binary64.numBits) :
    packComponents .binary64 (Sign.ofBitVec (unpackSign b)) (unpackExponent b) (unpackMantissa b) =
      b := by
  have sign (bit : BitVec 1) : (Sign.ofBitVec bit).toBitVec = bit := by
    revert bit
    decide
  simp only [packComponents, sign, unpackSign, unpackExponent, unpackMantissa, BitVec.extractLsb]
  ext i within
  grind

/-- The bits of a finite value below the largest exponent. -/
theorem pack_finite (s : Sign) {m : Nat} {e : Int} (pos : 0 < m) (high : e ≤ 971) :
    UnpackedFloat.pack .binary64 (.finite s m e pos) =
      packComponents .binary64 s (if m.log2 = 52 then BitVec.ofNat 11 (e + 1075).toNat else 0)
        (BitVec.ofNat 52 m) := by
  have biased : (e + Format.binary64.exponentBias +
      Format.binary64.mantissaBitsWithoutImplicit).toNat = (e + 1075).toNat := by
    change (e + (1023 : Nat) + (52 : Nat)).toNat = _
    omega
  have leads : m.log2 + 1 = Format.binary64.mantissaBits ↔ m.log2 = 52 := by
    change m.log2 + 1 = 53 ↔ _
    omega
  have within : ¬ 2 ^ Format.binary64.exponentBits ≤ (e + 1075).toNat + 1 := by
    change ¬ 2 ^ 11 ≤ _
    omega
  simp only [UnpackedFloat.pack, biased, leads, if_neg within]
  split <;> rfl

theorem ofNat_toNat_fraction (m : BitVec 52) :
    BitVec.ofNat 52 m.toNat = m ∧ BitVec.ofNat 52 (2 ^ 52 + m.toNat) = m := by
  have stored : m.toNat < 2 ^ 52 := m.isLt
  constructor
  · simp
  · apply BitVec.eq_of_toNat_eq
    rw [BitVec.toNat_ofNat]
    omega

/-- Without an exponent the fraction is the mantissa. -/
theorem unpack_bottom (s : Sign) {m : BitVec 52} (some : m ≠ 0) :
    ∃ pos, UnpackedFloat.unpack .binary64 (packComponents .binary64 s 0 m) =
      .finite s m.toNat (-1074) pos := by
  have pos : 0 < m.toNat := by
    rw [Nat.pos_iff_ne_zero]
    exact fun zero => some (BitVec.eq_of_toNat_eq zero)
  refine ⟨pos, ?_⟩
  have read := unpack_subnormal s pos m.isLt
  rw [(ofNat_toNat_fraction m).1] at read
  exact read

/-- With an exponent the mantissa has a leading bit more. -/
theorem unpack_inner (s : Sign) {field : BitVec 11} (m : BitVec 52) (bottom : field ≠ 0)
    (top : field ≠ -1) :
    ∃ pos, UnpackedFloat.unpack .binary64 (packComponents .binary64 s field m) =
      .finite s (2 ^ 52 + m.toNat) (field.toNat - 1075) pos := by
  have stored : m.toNat < 2 ^ 52 := m.isLt
  have range : field.toNat < 2047 ∧ field.toNat ≠ 0 := by
    have := field.isLt
    have : field.toNat ≠ 2047 := fun same => top (BitVec.eq_of_toNat_eq same)
    have : field.toNat ≠ 0 := fun same => bottom (BitVec.eq_of_toNat_eq same)
    omega
  have exponent : ((field.toNat : Int) - 1075 + 1075).toNat = field.toNat := by omega
  have pos : 0 < 2 ^ 52 + m.toNat := by omega
  refine ⟨pos, ?_⟩
  have read := unpack_normal s pos (by omega) (by omega)
    (show -1074 ≤ (field.toNat : Int) - 1075 by omega) (by omega)
  rw [exponent, (ofNat_toNat_fraction m).2, BitVec.ofNat_toNat, BitVec.setWidth_eq] at read
  exact read

/-- Fields are packed as they were, unless they are some other pattern of what is no number. -/
theorem pack_unpack_fields (s : Sign) (field : BitVec 11) (m : BitVec 52)
    (canonical : field = -1 → m ≠ 0 → packComponents .binary64 s field m = packedNaN .binary64) :
    UnpackedFloat.pack .binary64
        (UnpackedFloat.unpack .binary64 (packComponents .binary64 s field m)) =
      packComponents .binary64 s field m := by
  have stored : m.toNat < 2 ^ 52 := m.isLt
  by_cases top : field = -1
  · subst top
    by_cases zero : m = 0
    · subst zero
      cases s <;> rfl
    · rw [canonical rfl zero]
      rfl
  by_cases bottom : field = 0
  · subst bottom
    by_cases zero : m = 0
    · subst zero
      cases s <;> rfl
    · obtain ⟨pos, read⟩ := unpack_bottom s zero
      have short : m.toNat.log2 ≠ 52 := Nat.ne_of_lt ((Nat.log2_lt (Nat.ne_of_gt pos)).2 stored)
      exact (congrArg _ read).trans
        (by rw [pack_finite s pos (by decide), if_neg short, (ofNat_toNat_fraction m).1])
  · have range : field.toNat < 2047 := by
      have := field.isLt
      have : field.toNat ≠ 2047 := fun same => top (BitVec.eq_of_toNat_eq same)
      omega
    have exponent : ((field.toNat : Int) - 1075 + 1075).toNat = field.toNat := by omega
    have leads : (2 ^ 52 + m.toNat).log2 = 52 := (Nat.log2_eq_iff (by omega)).2 (by omega)
    obtain ⟨pos, read⟩ := unpack_inner s m bottom top
    exact (congrArg _ read).trans (by
      rw [pack_finite s pos (by omega), if_pos leads, exponent, (ofNat_toNat_fraction m).2,
        BitVec.ofNat_toNat, BitVec.setWidth_eq])

theorem pack_unpack {b : BitVec Format.binary64.numBits} (valid : Format.binary64.Valid b) :
    UnpackedFloat.pack .binary64 (UnpackedFloat.unpack .binary64 b) = b := by
  have fields := packComponents_unpack b
  have packed := pack_unpack_fields (Sign.ofBitVec (unpackSign b)) (unpackExponent b)
    (unpackMantissa b) fun top some => fields.trans (valid.eq_packedNaN top some)
  rwa [fields] at packed

/-- A double is its bits. -/
theorem ofBits_toBits (x : Float) : Float.ofBits x.toBits = x := by
  obtain ⟨⟨bits, valid⟩⟩ := x
  have packed : UInt64.ofBitVec (UnpackedFloat.pack .binary64
      (UnpackedFloat.unpack .binary64 bits.toBitVec)) = bits := by
    rw [pack_unpack valid]
  exact congrArg Float.ofModel (by
    unfold Float.Model.ofBits Float.Model.pack
    congr 1)

end Double

namespace Binary64

open Float.Model Float.Model.UnpackedFloat

/-- A double is its sign and its word. -/
theorem toFloat_wordOf (x : Float) : toFloat (isNegative x) (wordOf x) = x := by
  have bits : (if isNegative x then wordOf x + signWord else wordOf x) = x.toBits.toNat := by
    have lt : x.toBits.toNat < 2 ^ 64 := x.toBits.toNat_lt
    have sign : signWord = 2 ^ 63 := by decide
    unfold isNegative wordOf
    rw [sign]
    by_cases negative : 2 ^ 63 ≤ x.toBits.toNat
    · rw [if_pos (by simpa using negative)]
      omega
    · rw [if_neg (by simpa using negative)]
      omega
  rw [toFloat, bits, UInt64.ofNat_toNat, Double.ofBits_toBits]

/-- The fields of a double's bits, as parts of its word. -/
theorem fields_wordOf (x : Float) :
    (@unpackExponent .binary64 x.toBits.toBitVec).toNat = wordOf x / 2 ^ 52 ∧
      (@unpackMantissa .binary64 x.toBits.toBitVec).toNat = wordOf x % 2 ^ 52 := by
  have exponent : (@unpackExponent .binary64 x.toBits.toBitVec).toNat =
      x.toBits.toNat / 2 ^ 52 % 2 ^ 11 := by
    simp [unpackExponent, Nat.shiftRight_eq_div_pow]
  have fraction : (@unpackMantissa .binary64 x.toBits.toBitVec).toNat =
      x.toBits.toNat % 2 ^ 52 := by
    simp [unpackMantissa]
  have word : wordOf x = x.toBits.toNat % 2 ^ 63 := rfl
  omega

/-- The sign of a double, as it is packed. -/
def signOf (x : Float) : Sign :=
  Sign.ofBitVec (@unpackSign .binary64 x.toBits.toBitVec)

theorem signOf_eq_positive {x : Float} (positive : isNegative x = false) :
    signOf x = .positive := by
  have below : x.toBits.toNat < 2 ^ 63 :=
    Nat.lt_of_not_le fun above => Bool.false_ne_true (positive ▸ decide_eq_true above)
  have bit : (@unpackSign .binary64 x.toBits.toBitVec).toNat = x.toBits.toNat / 2 ^ 63 := by
    have := x.toBits.toNat_lt
    simp [unpackSign, Nat.shiftRight_eq_div_pow]
    omega
  rw [signOf, Sign.ofBitVec, if_pos]
  apply BitVec.eq_of_toNat_eq
  rw [bit, Nat.div_eq_of_lt below]
  rfl

/-- A double is unpacked from its sign and its fields. -/
theorem unpack_eq_fields (x : Float) : x.toModel.unpack = UnpackedFloat.unpack .binary64
    (packComponents .binary64 (signOf x) (unpackExponent x.toBits.toBitVec)
      (unpackMantissa x.toBits.toBitVec)) := by
  rw [signOf, Double.packComponents_unpack]
  rfl

/-- A finite double is its significand at its power, or zero. -/
theorem unpack_of_finite {x : Float} (finite : wordOf x < infinityWord) :
    (wordOf x = 0 ∧ x.toModel.unpack = .zero (signOf x)) ∨
      ∃ m e pos, x.toModel.unpack = .finite (signOf x) m e pos ∧ m = significand (wordOf x) ∧
        e = (power (wordOf x) : Int) - 1074 := by
  obtain ⟨exponent, fraction⟩ := fields_wordOf x
  have below : wordOf x < 2047 * 2 ^ 52 := finite
  have size : binade = 2 ^ 52 := rfl
  rw [unpack_eq_fields, significand, power, size]
  generalize @unpackExponent .binary64 x.toBits.toBitVec = field at exponent ⊢
  generalize @unpackMantissa .binary64 x.toBits.toBitVec = m at fraction ⊢
  have top : field ≠ -1 := by
    rintro rfl
    have full : 2047 = wordOf x / 2 ^ 52 := exponent
    omega
  by_cases bottom : field = 0
  · subst bottom
    have none : 0 = wordOf x / 2 ^ 52 := exponent
    by_cases zero : m = 0
    · subst zero
      have nothing : 0 = wordOf x % 2 ^ 52 := fraction
      refine .inl ⟨by omega, ?_⟩
      cases signOf x <;> rfl
    · obtain ⟨pos, read⟩ := Double.unpack_bottom (signOf x) zero
      refine .inr ⟨_, _, pos, read, ?_, ?_⟩
      · rw [if_pos none.symm]
        omega
      · omega
  · obtain ⟨pos, read⟩ := Double.unpack_inner (signOf x) m bottom top
    have some : field.toNat ≠ 0 := fun none => bottom (BitVec.eq_of_toNat_eq none)
    refine .inr ⟨_, _, pos, read, ?_, ?_⟩
    · rw [if_neg (exponent ▸ some)]
      omega
    · omega

/-- Beyond the infinite word there is one value. -/
theorem eq_nan_of_wordOf {x : Float} (beyond : infinityWord < wordOf x) :
    x = toFloat false nanWord := by
  obtain ⟨exponent, fraction⟩ := fields_wordOf x
  have above : 2047 * 2 ^ 52 < wordOf x := beyond
  have below : wordOf x < 2 ^ 63 := Nat.mod_lt _ (by decide)
  have top : @unpackExponent .binary64 x.toBits.toBitVec = -1#11 := by
    apply BitVec.eq_of_toNat_eq
    rw [exponent]
    show _ = 2047
    omega
  have some : @unpackMantissa .binary64 x.toBits.toBitVec ≠ 0#52 := by
    intro none
    rw [none] at fraction
    have fraction : 0 = wordOf x % 2 ^ 52 := fraction
    omega
  have bits : x.toBits = UInt64.ofNat nanWord :=
    UInt64.toBitVec_inj.1 ((x.toModel.valid.eq_packedNaN top some).trans (by decide))
  rw [← Double.ofBits_toBits x, bits]
  rfl

/-- The word of a finite number stays, and so does its sign. -/
theorem wordOf_toFloat {word : Nat} (finite : word < infinityWord) :
    wordOf (toFloat false word) = word ∧ isNegative (toFloat false word) = false := by
  have below : word < 2047 * 2 ^ 52 := finite
  have whole : (UInt64.ofNat word).toNat = word := UInt64.toNat_ofNat_of_lt' (by
    show word < 2 ^ 64
    omega)
  have valid : Format.binary64.Valid (UInt64.ofNat word).toBitVec := by
    refine ⟨fun top => ?_⟩
    have exponent : (@unpackExponent .binary64 (UInt64.ofNat word).toBitVec).toNat =
        (UInt64.ofNat word).toNat / 2 ^ 52 % 2 ^ 11 := by
      simp [unpackExponent, Nat.shiftRight_eq_div_pow]
    rw [top, whole] at exponent
    have full : 2047 = word / 2 ^ 52 % 2 ^ 11 := exponent
    omega
  have bits : (toFloat false word).toBits = UInt64.ofNat word :=
    congrArg UInt64.ofBitVec (Double.pack_unpack valid)
  have sign : signWord = 2 ^ 63 := by decide
  rw [wordOf, isNegative, bits, whole, sign]
  exact ⟨Nat.mod_eq_of_lt (by omega), decide_eq_false (by omega)⟩

end Binary64

end AugmentedLagrangian
