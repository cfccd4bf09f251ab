import Mathlib.Data.Finset.Card
import NanoMQ.Hashmap.Table
import NanoMQ.Library.Hashing

/-! The hash function of `hashmap.c`: both builds of it agree, and it spreads keys that differ
in a window of four bytes evenly.
-/

namespace NanoMQ.Hashmap

open Function Hashing

-- The build with SSE 4.2

/-- The instruction behind `_mm_crc32_u8`: the remainder of the reflected operands modulo 2,
reflected.
-/
def mmCrc32U8 (crc : UInt32) (v : UInt8) : UInt32 :=
  let dividend :=
    v.toBitVec.reverse.setWidth 40 <<< 32 ^^^ crc.toBitVec.reverse.setWidth 40 <<< 8
  .ofBitVec ((mod2 32 0x11EDC6F41#40 8 dividend).setWidth 32).reverse

/-- `hashmap_crc32_helper` under `HASHMAP_SSE42`. -/
def hashmapCrc32HelperSse42 (s : Key) : UInt32 :=
  s.foldl mmCrc32U8 0

/-- The polynomial without its leading term, in reflected order. -/
def crc32Poly : BitVec 32 := 0x82F63B78#32

theorem toBitVec_mmCrc32U8 (crc : UInt32) (v : UInt8)
    : (mmCrc32U8 crc v).toBitVec = feed crc32Poly crc.toBitVec v.toBitVec := by
  have dividend : v.toBitVec.reverse.setWidth 40 <<< 32 ^^^ crc.toBitVec.reverse.setWidth 40 <<< 8
      = (crc.toBitVec ^^^ v.toBitVec.setWidth 32).reverse.setWidth (32 + 8) <<< 8 := by
    ext i
    simp [BitVec.getLsbD_reverse, BitVec.getMsbD]
    grind
  have isDivisor
      : 0x11EDC6F41#40 = BitVec.twoPow (32 + 8) 32 ^^^ crc32Poly.reverse.setWidth (32 + 8) := by
    decide +kernel
  have divided := mod2_reverse (by decide) isDivisor 8 (Nat.le_refl 8)
  rw [mmCrc32U8, UInt32.toBitVec_ofBitVec, dividend, divided,
    BitVec.setWidth_setWidth_of_le _ (by decide), BitVec.setWidth_eq]
  ext i
  simp [feed]

-- The table

/-- A turn of the loop over the table. -/
def crc32Turn (crc32val : UInt32) (byte : UInt8) : UInt32 :=
  (crc32Tab[(crc32val.toUInt8 ^^^ byte).toNat]?.getD 0) ^^^ (crc32val >>> 8)

/-- The word of the table for a byte is what its eight bits make of an empty register. -/
theorem crc32Tab_eq (byte : UInt8)
    : ((crc32Tab[byte.toNat]?).getD 0).toBitVec
      = (shift crc32Poly)^[8] (byte.toBitVec.setWidth 32) := by
  have all : ∀ index : Fin 256, ((crc32Tab[index.val]?).getD 0).toBitVec
      = (shift crc32Poly)^[8] ((BitVec.ofFin index : BitVec 8).setWidth 32) := by
    decide +kernel
  exact all byte.toFin

theorem toBitVec_crc32Turn (crc : UInt32) (byte : UInt8)
    : (crc32Turn crc byte).toBitVec = feed crc32Poly crc.toBitVec byte.toBitVec := by
  rw [feed_eq, crc32Turn, UInt32.toBitVec_xor, crc32Tab_eq]
  rfl

theorem toBitVec_hashmapCrc32Helper (s : Key)
    : (hashmapCrc32Helper s).toBitVec = (s.map UInt8.toBitVec).foldl (feed crc32Poly) 0#32 := by
  rw [List.foldl_map]
  exact (List.foldl_hom UInt32.toBitVec fun crc byte => (toBitVec_crc32Turn crc byte).symm).symm

/-- The loop over the table computes what the build with SSE 4.2 computes, for every key. -/
theorem crc32_builds_agree (s : Key)
    : hashmapCrc32HelperSse42 s = hashmapCrc32Helper s := by
  have same : mmCrc32U8 = crc32Turn := by
    funext crc byte
    rw [← UInt32.toBitVec_inj, toBitVec_mmCrc32U8, toBitVec_crc32Turn]
  rw [hashmapCrc32HelperSse42, same]
  rfl

-- Keys that differ in a window

/-- The four bytes of a word, least significant first. -/
def wordBytes (word : UInt32) : Key :=
  (octets 4 word.toBitVec).map UInt8.ofBitVec

/-- The mix function. -/
def mixed (key : BitVec 32) : BitVec 32 :=
  let key := key + (key <<< 12)
  let key := key ^^^ (key >>> 22)
  let key := key + (key <<< 4)
  let key := key ^^^ (key >>> 9)
  let key := key + (key <<< 10)
  let key := key ^^^ (key >>> 2)
  let key := key + (key <<< 7)
  key ^^^ (key >>> 12)

theorem mixed_injective : Injective mixed :=
  (xorShifted_injective (by decide : 0 < 12)).comp
    <| (addShifted_injective (by decide : 0 < 7)).comp
    <| (xorShifted_injective (by decide : 0 < 2)).comp
    <| (addShifted_injective (by decide : 0 < 10)).comp
    <| (xorShifted_injective (by decide : 0 < 9)).comp
    <| (addShifted_injective (by decide : 0 < 4)).comp
    <| (xorShifted_injective (by decide : 0 < 22)).comp
    <| addShifted_injective (by decide : 0 < 12)

theorem hashKey_eq (key : Key)
    : hashKey key = (mixed (hashmapCrc32Helper key).toBitVec >>> 3 * 2654435761#32).toNat := by
  rfl

theorem hashKey_eq_iff (left right : Key)
    : hashKey left = hashKey right
      ↔ (mixed (hashmapCrc32Helper left).toBitVec).toNat / 8
        = (mixed (hashmapCrc32Helper right).toBitVec).toNat / 8 := by
  have multiplied : Injective fun word : BitVec 32 => word * 2654435761#32 :=
    injective_of_product (by decide : 2654435761 % 2 = 1) fun word => BitVec.toNat_mul word _
  rw [hashKey_eq, hashKey_eq, BitVec.toNat_inj, multiplied.eq_iff, ← BitVec.toNat_inj,
    BitVec.toNat_ushiftRight, BitVec.toNat_ushiftRight, Nat.shiftRight_eq_div_pow,
    Nat.shiftRight_eq_div_pow]

/-- The mixed check of a key tells the words in a window apart. -/
theorem window_injective (front back : Key)
    : Injective fun word : UInt32 =>
        mixed (hashmapCrc32Helper (front ++ wordBytes word ++ back)).toBitVec := by
  intro left right same
  have full : crc32Poly.getLsbD (32 - 1) = true := by decide
  have bytes (word : UInt32) : (wordBytes word).map UInt8.toBitVec = octets 4 word.toBitVec := by
    rw [wordBytes, List.map_map]
    exact List.map_id _
  have checks := mixed_injective same
  simp only [toBitVec_hashmapCrc32Helper, List.map_append, List.foldl_append, bytes] at checks
  have words := foldl_feed_injective crc32Poly full _ checks
  have fits (word : BitVec 32) : word >>> (8 * 4) = 0#32 :=
    BitVec.ushiftRight_eq_zero (Nat.le_refl 32)
  rw [foldl_feed_octets _ 4 _ _ (fits _), foldl_feed_octets _ 4 _ _ (fits _)] at words
  have registers := (shift_injective crc32Poly full).iterate (8 * 4) words
  exact UInt32.toBitVec_inj.mp ((BitVec.xor_right_inj _).mp registers)

/-- Among keys that differ in a window of four bytes only, no hash is shared by more keys than
one chain of the table has slots. Witness: the lowest three bits, which the hash drops, tell
the keys of one hash apart.
-/
theorem window_hash_shared_within_chain (front back : Key) (words : Finset UInt32) (hash : Nat)
    : (words.filter fun word => hashKey (front ++ wordBytes word ++ back) = hash).card
      ≤ HASHMAP_MAX_CHAIN_LENGTH := by
  let check := fun word => mixed (hashmapCrc32Helper (front ++ wordBytes word ++ back)).toBitVec
  rw [HASHMAP_MAX_CHAIN_LENGTH, ← Finset.card_range 8]
  refine Finset.card_le_card_of_injOn (fun word => (check word).toNat % 8) ?_ ?_
  · intro word _
    exact Finset.mem_coe.mpr (Finset.mem_range.mpr (Nat.mod_lt _ (by decide)))
  · intro left isLeft right isRight sameLow
    have sameHash := (Finset.mem_filter.mp isLeft).2.trans (Finset.mem_filter.mp isRight).2.symm
    have sameHigh := (hashKey_eq_iff _ _).mp sameHash
    refine window_injective front back (BitVec.eq_of_toNat_eq ?_)
    calc
      (check left).toNat = 8 * ((check left).toNat / 8) + (check left).toNat % 8 :=
        (Nat.div_add_mod _ 8).symm
      _ = 8 * ((check right).toNat / 8) + (check right).toNat % 8 :=
        congrArg₂ (8 * · + ·) sameHigh sameLow
      _ = (check right).toNat := Nat.div_add_mod _ 8

end NanoMQ.Hashmap
