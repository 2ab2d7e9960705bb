import Mathlib
import Contour.Double.Kernel
import Contour.Proofs.Exact

/-!
# What zero does

Two facts about zero hold of the real numbers and of doubles alike, and some laws of the kernel hold
in every arithmetic that has them.  For doubles they are read off the exact parts of a number.

* `LawfulZero` — a number that equals zero is small, and a multiple of zero adds nothing.
* `Double.pack_unpack` — a double is made of its exact parts.
* `Double.lt_coincidentTol`, `Double.mul_unpack`, `Double.add_eq` — zeros among doubles.
-/

namespace Contour

/-- An arithmetic in which zero is small and adds nothing. -/
class LawfulZero (α : Type) [Add α] [Mul α] [LT α] [BEq α] [OfNat α 0] [OfScientific α]
    [Elementary α] : Prop where
  lt_coincidentTol : ∀ {x : α}, (x == 0) = true → x < coincidentTol
  /-- The sum is the second number itself, or another zero if that is one. -/
  mul_add : ∀ {x : α} (a : α), Elementary.isInfinite x = false → Elementary.isNaN x = false →
    Elementary.ofInt 0 * x + a = a ∨ (Elementary.ofInt 0 * x + a == a) = true

instance : LawfulZero ℝ where
  lt_coincidentTol h := by
    rw [eq_of_beq h]
    exact coincidentTol_pos
  mul_add {x} a _ _ := by
    left
    show ((0 : ℤ) : ℝ) * x + a = a
    simp

/-! ## The parts of a double -/

namespace Double

open Float.Model Float.Model.UnpackedFloat

lemma toBitVec_ofBitVec : ∀ b : BitVec 1, (Sign.ofBitVec b).toBitVec = b := by decide

/-- The three fields of a pattern of bits, put together again. -/
lemma packComponents_fields (b : BitVec Format.binary64.numBits) :
    packComponents .binary64 (Sign.ofBitVec (unpackSign b)) (unpackExponent b) (unpackMantissa b)
      = b := by
  rw [packComponents, toBitVec_ofBitVec]
  ext i hi
  change i < 64 at hi
  simp only [unpackSign, unpackExponent, unpackMantissa, BitVec.getElem_append]
  split_ifs with hmantissa hexponent
  · simp [BitVec.getLsbD_eq_getElem hi]
  · have hplace : 52 + (i - 52) = i := by omega
    simp [hplace, BitVec.getLsbD_eq_getElem hi]
  · have hplace : 63 = i := by omega
    simp [hplace, BitVec.getLsbD_eq_getElem hi]

section Pack

variable (s : Sign) {m : BitVec 52} {e : BitVec 11}

/-- A subnormal number has no implicit bit. -/
lemma pack_subnormal (hm : 0 < m.toNat) :
    UnpackedFloat.pack .binary64 (.finite s m.toNat (-1074) hm)
      = packComponents .binary64 s (0#11) m := by
  have hsmall : m.toNat < 2 ^ 52 := m.isLt
  have hlog : ¬ m.toNat.log2 + 1 = Format.binary64.mantissaBits := by
    have hlt := (Nat.log2_lt hm.ne').mpr hsmall
    have hplaces : Format.binary64.mantissaBits = 53 := rfl
    omega
  have hexponent : ¬ 2 ^ Format.binary64.exponentBits
      ≤ ((-1074 : ℤ) + (Format.binary64.exponentBias : ℕ)
        + (Format.binary64.mantissaBitsWithoutImplicit : ℕ)).toNat + 1 := by decide
  rw [UnpackedFloat.pack, if_neg hexponent, if_neg hlog, BitVec.ofNat_toNat, BitVec.setWidth_eq]

/-- The mantissa of a normal number with the bit before the others. -/
lemma one_append_toNat (m : BitVec 52) : (1#1 ++ m).toNat = 2 ^ 52 + m.toNat := by
  rw [BitVec.toNat_append, ← Nat.shiftLeft_add_eq_or_of_lt m.isLt]
  rfl

/-- A normal number is packed without the bit before the others. -/
lemma pack_normal (he : e ≠ -1#11) (hm : 0 < (1#1 ++ m).toNat) :
    UnpackedFloat.pack .binary64 (.finite s (1#1 ++ m).toNat
        (e.toNat - ((Format.binary64.exponentBias : ℕ)
          + (Format.binary64.mantissaBitsWithoutImplicit : ℕ))) hm)
      = packComponents .binary64 s e m := by
  have hsmall : m.toNat < 2 ^ 52 := m.isLt
  have hexponent : e.toNat < 2 ^ 11 := e.isLt
  have hfinite : e.toNat ≠ 2 ^ 11 - 1 := fun h => he (BitVec.eq_of_toNat_eq h)
  have himplicit := one_append_toNat m
  have hlog : (1#1 ++ m).toNat.log2 + 1 = Format.binary64.mantissaBits := by
    have hplaces : (1#1 ++ m).toNat.log2 = 52 := (Nat.log2_eq_iff (by omega)).mpr (by omega)
    rw [hplaces]
    rfl
  have hbiased : (e.toNat
      - ((Format.binary64.exponentBias : ℕ) + (Format.binary64.mantissaBitsWithoutImplicit : ℕ))
      + (Format.binary64.exponentBias : ℕ)
      + (Format.binary64.mantissaBitsWithoutImplicit : ℕ) : ℤ).toNat = e.toNat := by omega
  have hroom : ¬ 2 ^ 11 ≤ e.toNat + 1 := by omega
  have hlow : BitVec.ofNat 52 (1#1 ++ m).toNat = m := by
    apply BitVec.eq_of_toNat_eq
    rw [BitVec.toNat_ofNat, himplicit]
    omega
  rw [UnpackedFloat.pack]
  simp only [hbiased]
  rw [if_neg hroom, if_pos hlog, BitVec.ofNat_toNat, BitVec.setWidth_eq]
  exact congrArg _ hlow

end Pack

/-- A valid pattern of bits is what its own parts are packed into. -/
lemma pack_unpack_bits {b : BitVec Format.binary64.numBits} (hb : Format.binary64.Valid b) :
    UnpackedFloat.pack .binary64 (UnpackedFloat.unpack .binary64 b) = b := by
  have hfields := packComponents_fields b
  unfold UnpackedFloat.unpack
  dsimp only
  split_ifs with htop hzero hbottom hnone
  · rw [htop, hzero] at hfields
    exact hfields
  · exact (hb.eq_packedNaN htop hzero).symm
  · rw [hbottom, hnone] at hfields
    exact hfields
  · rw [hbottom] at hfields ⊢
    exact (pack_subnormal _ _).trans hfields
  · exact (pack_normal _ htop _).trans hfields

/-- **A double is made of its exact parts.** -/
lemma pack_unpack (m : Float.Model) : Float.Model.pack m.unpack = m := by
  obtain ⟨bits, hvalid⟩ := m
  have hbits : UnpackedFloat.pack .binary64 (UnpackedFloat.unpack .binary64 bits.toBitVec)
      = bits.toBitVec := pack_unpack_bits hvalid
  simp only [Float.Model.pack, Float.Model.unpack, hbits]

lemma unpack_pack_zero : ∀ s : Sign, (Float.Model.pack (.zero s)).unpack = .zero s := by
  rintro (_ | _) <;> rfl

lemma unpack_pack_infinity : ∀ s : Sign, (Float.Model.pack (.infinity s)).unpack = .infinity s := by
  rintro (_ | _) <;> rfl

lemma unpack_pack_notANumber : (Float.Model.pack .notANumber).unpack = .notANumber := rfl

/-! ## Zeros among doubles -/

variable {x a : Float}

lemma unpack_of_eq_zero (h : (x == 0) = true) : ∃ s, x.toModel.unpack = .zero s := by
  have hzero : (0 : Float).toModel.unpack = .zero .positive := rfl
  change x.toModel.unpack.beq (0 : Float).toModel.unpack = true at h
  rw [hzero] at h
  rcases hx : x.toModel.unpack with (_ | _) | _ | s | ⟨_ | _, _, _, _⟩ <;> rw [hx] at h
  case zero => exact ⟨s, rfl⟩
  all_goals cases h

lemma lt_coincidentTol (h : (x == 0) = true) : x < coincidentTol := by
  have htol : ∃ m e hm, (coincidentTol : Float).toModel.unpack = .finite .positive m e hm :=
    ⟨_, _, _, rfl⟩
  obtain ⟨m, e, hm, htol⟩ := htol
  obtain ⟨s, hx⟩ := unpack_of_eq_zero h
  show decide (x.toModel.unpack.lt (coincidentTol : Float).toModel.unpack = true) = true
  rw [decide_eq_true_iff, hx, htol]
  rfl

/-- Zero times a finite number is a zero. -/
lemma mul_unpack (hinf : x.isInf = false) (hnan : x.isNaN = false) :
    ∃ s, (ofInt 0 * x).toModel.unpack = .zero s := by
  have hmul : (ofInt 0 * x).toModel.unpack
      = (Float.Model.pack ((UnpackedFloat.zero .positive).mul .binary64 x.toModel.unpack)).unpack := rfl
  change x.toModel.unpack.isInf = false at hinf
  change x.toModel.unpack.isNaN = false at hnan
  rw [hmul]
  rcases hx : x.toModel.unpack with s | _ | s | ⟨s, m, e, hm⟩
  · rw [hx] at hinf
    cases hinf
  · rw [hx] at hnan
    cases hnan
  · exact ⟨_, unpack_pack_zero _⟩
  · exact ⟨_, unpack_pack_zero _⟩

/-- A zero added to a number leaves it as it is, up to the sign of a zero. -/
lemma add_eq {s : Sign} (hx : x.toModel.unpack = .zero s) : x + a = a ∨ (x + a == a) = true := by
  have hadd : x + a
      = .ofModel (Float.Model.pack ((UnpackedFloat.zero s).add .binary64 a.toModel.unpack)) := by
    rw [← hx]
    rfl
  have hsame : (UnpackedFloat.zero s).add .binary64 a.toModel.unpack = a.toModel.unpack →
      x + a = a := by
    intro h
    rw [hadd, h, pack_unpack]
  rcases ha : a.toModel.unpack with t | _ | t | ⟨t, m, e, hm⟩
  · exact .inl (hsame (by rw [ha]; rfl))
  · exact .inl (hsame (by rw [ha]; rfl))
  · have hzero : ∃ u, (UnpackedFloat.zero s).add .binary64 (.zero t) = .zero u := by
      cases s <;> cases t <;> exact ⟨_, rfl⟩
    obtain ⟨u, hu⟩ := hzero
    right
    rw [ha, hu] at hadd
    rw [hadd]
    show (Float.Model.pack (.zero u)).unpack.beq a.toModel.unpack = true
    rw [unpack_pack_zero, ha]
    rfl
  · exact .inl (hsame (by rw [ha]; rfl))

end Double

instance : LawfulZero Float where
  lt_coincidentTol := Double.lt_coincidentTol
  mul_add a hinf hnan := by
    obtain ⟨s, hs⟩ := Double.mul_unpack hinf hnan
    exact Double.add_eq hs

end Contour
