import ArmLang.Proofs.Number.Order

namespace ArmLang.Number

open Float.Model (Format UnpackedFloat)
open Float.Model.UnpackedFloat (Sign unpack pack packedInfinity unpackExponent add)

theorem isNaN_unpack {b : BitVec Format.binary64.numBits} (h : unpackExponent b ≠ -1#_) :
    (unpack .binary64 b).isNaN = false := by
  rw [unpack]
  dsimp only
  rw [if_neg h]
  split
  · split <;> rfl
  · rfl

theorem isNaN_unpack_pack (u : UnpackedFloat) :
    (unpack .binary64 (pack .binary64 u)).isNaN = u.isNaN := by
  have hinfinity (s : Sign) : (unpack .binary64 (packedInfinity .binary64 s)).isNaN = false := by
    cases s <;> decide
  fun_cases pack .binary64 u with
  | case1 => exact congrArg UnpackedFloat.isNaN Float.Model.UnpackedFloat.unpack_packedNaN
  | case2 s => exact hinfinity s
  | case3 s =>
    rw [Float.Model.UnpackedFloat.unpack_packedZero]
  | case4 s m e hm exponent hexponent => exact hinfinity s
  | case5 s m e hm bits exponent hexponent hbits =>
    apply isNaN_unpack
    rw [Float.Model.UnpackedFloat.unpackExponent_packComponents]
    intro h
    have hlt : exponent + 1 < 2 ^ 11 := Nat.lt_of_not_le hexponent
    have hmod : exponent % 2 ^ 11 = 2047 := congrArg BitVec.toNat h
    rw [Nat.mod_eq_of_lt (by omega)] at hmod
    omega
  | case6 s m e hm bits exponent hexponent hbits =>
    apply isNaN_unpack
    rw [Float.Model.UnpackedFloat.unpackExponent_packComponents]
    decide

theorem isNaN_normalize (spec : Format) (m e : Int) (s : Sign) :
    (UnpackedFloat.normalize spec m e s).isNaN = false := by
  have hround (s : Sign) (m : Nat) (e : Int) : (UnpackedFloat.round spec s m e).isNaN = false := by
    rw [UnpackedFloat.round]
    dsimp only
    rw [UnpackedFloat.roundWithAccuracy]
    dsimp only
    split <;> rfl
  rw [UnpackedFloat.normalize]
  split
  · exact hround ..
  · rfl
  · exact hround ..

theorem isNaN_add_unpacked (spec : Format) {u v : UnpackedFloat} (hu : u.isNaN = false)
    (hv : v.isFinite) : (add spec u v).isNaN = false := by
  cases v with
  | infinity t => cases hv
  | notANumber => cases hv
  | zero t =>
    cases u with
    | infinity s => rfl
    | notANumber => cases hu
    | zero s =>
      rw [add]
      split <;> rfl
    | finite s m e => rfl
  | finite t n f =>
    cases u with
    | infinity s => rfl
    | notANumber => cases hu
    | zero s => rfl
    | finite s m e => exact isNaN_normalize ..

theorem add_zero_unpacked (spec : Format) (u : UnpackedFloat) (t : Sign) :
    add spec u (.zero t) = u ∨ ∃ s s', u = .zero s ∧ add spec u (.zero t) = .zero s' := by
  cases u with
  | infinity s => exact .inl rfl
  | notANumber => exact .inl rfl
  | zero s =>
    refine .inr ⟨s, ?_⟩
    rw [add]
    split
    · exact ⟨s, rfl, rfl⟩
    · exact ⟨.positive, rfl, rfl⟩
  | finite s m e => exact .inl rfl

variable {x y : Float}

theorem parts_add (x y : Float) :
    parts (x + y) = unpack .binary64 (pack .binary64 (add .binary64 (parts x) (parts y))) :=
  rfl

theorem parts_pack (x : Float) : unpack .binary64 (pack .binary64 (parts x)) = parts x :=
  congrArg (unpack .binary64) (Float.Model.UnpackedFloat.pack_unpack_of_valid x.toModel.valid)

theorem beq_iff_parts : (x == y) = true ↔ (parts x).beq (parts y) = true := Iff.rfl

theorem isNaN_of_isFinite (h : x.isFinite) : x.isNaN = false := by
  change (parts x).isFinite = true at h
  rw [isNaN_eq]
  cases hx : parts x with
  | notANumber =>
    rw [hx] at h
    cases h
  | infinity | zero | finite => rfl

/-- A finite number can be added to any number. -/
theorem isNaN_add (hx : x.isNaN = false) (hy : y.isFinite) : (x + y).isNaN = false := by
  rw [isNaN_eq, parts_add, isNaN_unpack_pack]
  exact isNaN_add_unpacked _ hx hy

theorem parts_of_beq_zero (h : (y == 0.0) = true) : ∃ s, parts y = .zero s := by
  have hzero : parts 0.0 = .zero .positive := rfl
  rw [beq_iff_parts, hzero, Float.Model.UnpackedFloat.beq_iff_ne_notANumber_and_eq] at h
  obtain ⟨-, -, h | ⟨h, -⟩ | ⟨h, -⟩⟩ := h
  · exact ⟨_, h⟩
  · exact ⟨_, h⟩
  · exact ⟨_, h⟩

/-- A number stays the same, as a number, when nothing is added to it. -/
theorem add_zero_beq (hx : x.isNaN = false) (hy : (y == 0.0) = true) : (x + y == x) = true := by
  obtain ⟨t, ht⟩ := parts_of_beq_zero hy
  rw [beq_iff_parts, parts_add, ht]
  rcases add_zero_unpacked .binary64 (parts x) t with h | ⟨s, s', hs, h⟩
  · rw [h, parts_pack, ← beq_iff_parts, Float.beq_self_iff]
    rintro rfl
    cases hx
  · rw [h, hs, UnpackedFloat.pack, Float.Model.UnpackedFloat.unpack_packedZero]
    rfl

end ArmLang.Number
