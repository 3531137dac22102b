import Mathlib.Algebra.Group.Nat.Defs
import Sameness.Proofs.Compound
import Sameness.Proofs.Sample.Cancellation
import Sameness.Specimen

/-!
# Packed colours

The packed word of a colour is the number with the three channels as its digits to the base 256
(`Colour.toNat_pack`): shifted bytes do not overlap, so that their bitwise disjunction is a sum.
Reading the digits back is the inverse of packing on both sides (`Colour.unpack?_eq_some_iff`):

* a **colour** comes back from its packed word,
* a **word** is packed from the colour that it unpacks to, and it unpacks to a colour exactly when
  it has no more than three digits.

Packing is therefore injective and cancels on every sample, and the comparison of packed words is
the comparison of all three channels.
-/

namespace Sameness.Colour

variable {c : Colour} {w : UInt32}

/-! ### Words and their bytes -/

/-- A byte that is shifted up within the word is multiplied. -/
theorem toNat_shiftLeft_byte (b : UInt8) {k : UInt32} (hk : k.toNat ≤ 24) :
    (b.toUInt32 <<< k).toNat = 2 ^ k.toNat * b.toNat := by
  have hbound : 2 ^ k.toNat * b.toNat < 2 ^ 32 := by
    calc 2 ^ k.toNat * b.toNat < 2 ^ k.toNat * 2 ^ 8 :=
          Nat.mul_lt_mul_of_pos_left b.toNat_lt (Nat.two_pow_pos _)
      _ = 2 ^ (k.toNat + 8) := (Nat.pow_add 2 k.toNat 8).symm
      _ ≤ 2 ^ 32 := Nat.pow_le_pow_right (by decide) (by omega)
  have hshift : k.toNat % 32 = k.toNat := Nat.mod_eq_of_lt (by omega)
  rw [UInt32.toNat_shiftLeft, UInt8.toNat_toUInt32, hshift, Nat.shiftLeft_eq, Nat.mul_comm,
    Nat.mod_eq_of_lt hbound]

/-- The bytes that are read out of a word are its digits to the base 256, from the third one
down. -/
theorem toNat_digits (w : UInt32) :
    (w >>> 16).toUInt8.toNat = w.toNat / 65536 % 256 ∧
      (w >>> 8).toUInt8.toNat = w.toNat / 256 % 256 ∧ w.toUInt8.toNat = w.toNat % 256 := by
  have hshift : ∀ k : UInt32, (w >>> k).toUInt8.toNat = w.toNat / 2 ^ (k.toNat % 32) % 2 ^ 8 := by
    intro k
    rw [UInt32.toNat_toUInt8, UInt32.toNat_shiftRight, Nat.shiftRight_eq_div_pow]
  exact ⟨hshift 16, hshift 8, UInt32.toNat_toUInt8 w⟩

/-! ### Packing and unpacking -/

/-- **The packed word** has the channels as its digits. -/
theorem toNat_pack (c : Colour) :
    c.pack.toNat = 65536 * c.red.toNat + 256 * c.green.toNat + c.blue.toNat := by
  have hgreen : 2 ^ 8 * c.green.toNat < 2 ^ 16 := by
    have hbyte : c.green.toNat < 2 ^ 8 := c.green.toNat_lt
    omega
  have hred : (c.red.toUInt32 <<< 16).toNat = 2 ^ 16 * c.red.toNat :=
    toNat_shiftLeft_byte c.red (by decide)
  have hmid : (c.green.toUInt32 <<< 8).toNat = 2 ^ 8 * c.green.toNat :=
    toNat_shiftLeft_byte c.green (by decide)
  have hupper : 2 ^ 16 * c.red.toNat + 2 ^ 8 * c.green.toNat =
      2 ^ 8 * (2 ^ 8 * c.red.toNat + c.green.toNat) := by omega
  calc c.pack.toNat = (2 ^ 16 * c.red.toNat ||| 2 ^ 8 * c.green.toNat) ||| c.blue.toNat := by
        rw [pack, UInt32.toNat_or, UInt32.toNat_or, hred, hmid, UInt8.toNat_toUInt32]
    -- each channel lies below the lowest bit of what stands above it
    _ = 2 ^ 8 * (2 ^ 8 * c.red.toNat + c.green.toNat) ||| c.blue.toNat := by
        rw [← Nat.two_pow_add_eq_or_of_lt hgreen, hupper]
    _ = 2 ^ 8 * (2 ^ 8 * c.red.toNat + c.green.toNat) + c.blue.toNat :=
        (Nat.two_pow_add_eq_or_of_lt c.blue.toNat_lt _).symm
    _ = 65536 * c.red.toNat + 256 * c.green.toNat + c.blue.toNat := by omega

/-- No word above three digits is a packed colour. -/
theorem unpack?_eq_none_iff : unpack? w = none ↔ w > 0xFFFFFF := by
  rw [unpack?]
  split
  · exact iff_of_true rfl ‹_›
  · exact iff_of_false (Option.some_ne_none _) ‹_›

theorem unpack?_of_not_gt (h : ¬w > 0xFFFFFF) :
    unpack? w = some ⟨(w >>> 16).toUInt8, (w >>> 8).toUInt8, w.toUInt8⟩ := if_neg h

/-- To be above the largest packed word, as a bound on numbers. -/
theorem gt_iff_toNat : w > 0xFFFFFF ↔ 16777215 < w.toNat := UInt32.lt_iff_toNat_lt

/-- **A colour comes back** from its packed word. -/
theorem unpack?_pack (c : Colour) : unpack? (pack c) = some c := by
  have hword : c.pack.toNat = 65536 * c.red.toNat + 256 * c.green.toNat + c.blue.toNat :=
    toNat_pack c
  have hred : c.red.toNat < 256 := c.red.toNat_lt
  have hgreen : c.green.toNat < 256 := c.green.toNat_lt
  have hblue : c.blue.toNat < 256 := c.blue.toNat_lt
  have hsmall : ¬c.pack > 0xFFFFFF := by
    rw [gt_iff_toNat]
    omega
  obtain ⟨hthird, hsecond, hfirst⟩ := toNat_digits c.pack
  rw [unpack?_of_not_gt hsmall]
  refine congrArg some (Colour.ext ?_ ?_ ?_)
  · refine UInt8.toNat_inj.mp (hthird.trans ?_)
    omega
  · refine UInt8.toNat_inj.mp (hsecond.trans ?_)
    omega
  · refine UInt8.toNat_inj.mp (hfirst.trans ?_)
    omega

/-- **A word is packed** from the colour that it unpacks to. -/
theorem pack_of_unpack? (h : unpack? w = some c) : pack c = w := by
  have hsmall : ¬w > 0xFFFFFF := by
    intro hlarge
    rw [unpack?_eq_none_iff.mpr hlarge] at h
    cases h
  have hbound : w.toNat ≤ 16777215 := Nat.le_of_not_lt (mt gt_iff_toNat.mpr hsmall)
  rw [unpack?_of_not_gt hsmall] at h
  obtain rfl := Option.some.inj h
  obtain ⟨hthird, hsecond, hfirst⟩ := toNat_digits w
  refine UInt32.toNat_inj.mp ?_
  rw [toNat_pack, hthird, hsecond, hfirst]
  omega

/-- Packing and unpacking are inverse to each other. -/
theorem unpack?_eq_some_iff : unpack? w = some c ↔ pack c = w := by
  refine ⟨pack_of_unpack?, ?_⟩
  rintro rfl
  exact unpack?_pack c

theorem pack_injective : Function.Injective pack := by
  intro c d h
  exact Option.some.inj ((unpack?_eq_some_iff.mpr h).symm.trans (unpack?_pack d))

/-! ### The comparison of packed words -/

theorem compare_decides : compare.Decides := Comparison.Decides.identity.along pack_injective

/-- Packing cancels on every sample. -/
theorem cancelsPartly_pack (cs : List Colour) :
    Sample.cancelsPartly compare pack unpack? cs = true := by
  rw [Sample.cancelsPartly_eq_true_iff]
  intro c _
  rw [unpack?_pack, Comparison.option_some_some]
  exact compare_decides.refl c

/-- **Packing is inverted on both sides.** Every colour comes back from its packed word. A word does
not unpack exactly when it is above `0xFFFFFF`, and any other word is packed from the colour that it
unpacks to. So packing cancels on every sample of colours, and colours are the same to the
comparison of packed words exactly when all three channels are equal. -/
theorem packing_inverted_both_sides :
    (∀ red green blue, unpack? (pack ⟨red, green, blue⟩) = some ⟨red, green, blue⟩) ∧
      (∀ w, (unpack? w = none ↔ w > 0xFFFFFF) ∧
        (¬w > 0xFFFFFF → ∃ c, unpack? w = some c ∧ pack c = w)) ∧
      (∀ cs, Sample.cancelsPartly compare pack unpack? cs = true) ∧
      ∀ c d, compare c d = true ↔ c.red = d.red ∧ c.green = d.green ∧ c.blue = d.blue := by
  refine ⟨fun red green blue => unpack?_pack ⟨red, green, blue⟩,
    fun w => ⟨unpack?_eq_none_iff, fun hw => ?_⟩, cancelsPartly_pack, fun c d => ?_⟩
  · have hsome : unpack? w = some _ := unpack?_of_not_gt hw
    exact ⟨_, hsome, pack_of_unpack? hsome⟩
  · rw [compare_decides, Colour.ext_iff]

/-- White is the largest packed word, and the next word is none. Colours that differ in the lowest
bit of one channel only are told apart. -/
theorem packing_inverted_both_sides_white :
    ¬(0xFFFFFF : UInt32) > 0xFFFFFF ∧ (∃ c, unpack? 0xFFFFFF = some c ∧ pack c = 0xFFFFFF) ∧
      unpack? 0x1000000 = none ∧
      Sample.cancelsPartly compare pack unpack? [⟨255, 255, 255⟩, ⟨0, 1, 255⟩] = true ∧
      compare ⟨0, 1, 255⟩ ⟨0, 0, 255⟩ ≠ true := by
  obtain ⟨-, hword, hcancel, hcompare⟩ := packing_inverted_both_sides
  have hwhite : ¬(0xFFFFFF : UInt32) > 0xFFFFFF := by decide
  refine ⟨hwhite, (hword _).2 hwhite, (hword _).1.mpr (by decide), hcancel _, fun h => ?_⟩
  obtain ⟨-, hgreen, -⟩ := (hcompare _ _).mp h
  exact absurd hgreen (by decide)

/-- To the comparison by the red channel, which is not injective, these two are the same. -/
example : compareRed ⟨0, 1, 255⟩ ⟨0, 0, 255⟩ = true := by decide

end Sameness.Colour
