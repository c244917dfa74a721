import Mathlib.Algebra.Ring.Nat
import Mathlib.Data.List.Basic
import Mathlib.Tactic.Common

/-!
# Reading values from the front of a byte string

Big-endian words as byte strings, and readers that take a value from the front
and return the rest. A reader reads back a value when it recovers it from what
was written in front of any rest (`ReadsBack`); `many` repeats a reader, and
reads back a list when the reader reads back its members.
-/

set_option autoImplicit false

namespace Wire

/-! ## Words -/

/-- The two bytes of a word, the high one first. -/
def be16 (word : UInt16) : List UInt8 := [(word >>> 8).toUInt8, word.toUInt8]

/-- The four bytes of a word, the highest one first. -/
def be32 (word : UInt32) : List UInt8 :=
  [(word >>> 24).toUInt8, (word >>> 16).toUInt8, (word >>> 8).toUInt8, word.toUInt8]

/-- Two bytes as a word. -/
def word16 (high low : UInt8) : UInt16 := (high.toUInt16 <<< 8) ||| low.toUInt16

/-- Four bytes as a word. -/
def word32 (first second third fourth : UInt8) : UInt32 :=
  UInt32.ofNat (((first.toNat * 256 + second.toNat) * 256 + third.toNat) * 256 + fourth.toNat)

@[simp] theorem be16_length (word : UInt16) : (be16 word).length = 2 := rfl

@[simp] theorem be32_length (word : UInt32) : (be32 word).length = 4 := rfl

theorem word16_toNat (high low : UInt8) :
    (word16 high low).toNat = high.toNat * 256 + low.toNat := by
  have lowSmall := low.toNat_lt
  have highSmall := high.toNat_lt
  have joined := Nat.shiftLeft_add_eq_or_of_lt (i := 8) (b := low.toNat) lowSmall high.toNat
  have shift : (8 : UInt16).toNat % 16 = 8 := rfl
  rw [word16, UInt16.toNat_or, UInt16.toNat_shiftLeft, shift, UInt8.toNat_toUInt16,
    UInt8.toNat_toUInt16, Nat.mod_eq_of_lt (by omega), ← joined, Nat.shiftLeft_eq]

theorem word16_be16 (word : UInt16) : word16 (word >>> 8).toUInt8 word.toUInt8 = word := by
  apply UInt16.toNat.inj
  have small := word.toNat_lt
  rw [word16_toNat]
  simp [Nat.shiftRight_eq_div_pow]
  omega

theorem be16_word16 (high low : UInt8) : be16 (word16 high low) = [high, low] := by
  have lowSmall := low.toNat_lt
  have highSmall := high.toNat_lt
  have highByte : (word16 high low >>> 8).toUInt8 = high := by
    apply UInt8.toNat.inj
    simp [word16_toNat, Nat.shiftRight_eq_div_pow]
    omega
  have lowByte : (word16 high low).toUInt8 = low := by
    apply UInt8.toNat.inj
    simp [word16_toNat]
  rw [be16, highByte, lowByte]

theorem word32_be32 (word : UInt32) :
    word32 (word >>> 24).toUInt8 (word >>> 16).toUInt8 (word >>> 8).toUInt8 word.toUInt8 =
      word := by
  apply UInt32.toNat.inj
  have small := word.toNat_lt
  simp [word32, Nat.shiftRight_eq_div_pow]
  omega

/-! ## Readers -/

/-- A reader takes a value from the front of a byte string. -/
abbrev Reader (α : Type*) := List UInt8 → Option (α × List UInt8)

/-- Read one byte. -/
def read8 : Reader UInt8
  | byte :: rest => some (byte, rest)
  | [] => none

/-- Read two bytes in network order. -/
def read16 : Reader UInt16
  | high :: low :: rest => some (word16 high low, rest)
  | _ => none

/-- Read four bytes in network order. -/
def read32 : Reader UInt32
  | first :: second :: third :: fourth :: rest => some (word32 first second third fourth, rest)
  | _ => none

/-- Take the given number of bytes. -/
def readBytes (count : Nat) : Reader (List UInt8) := fun bytes =>
  if count ≤ bytes.length then some (bytes.take count, bytes.drop count) else none

/-- Repeat a reader. -/
def many {α : Type*} (read : Reader α) : Nat → Reader (List α)
  | 0, bytes => some ([], bytes)
  | count + 1, bytes => do
      let (item, bytes) ← read bytes
      let (items, bytes) ← many read count bytes
      return (item :: items, bytes)

/-- The reader recovers the value from its written form in front of any rest. -/
def ReadsBack {α : Type*} (read : Reader α) (write : α → List UInt8) (value : α) : Prop :=
  ∀ rest, read (write value ++ rest) = some (value, rest)

@[simp] theorem read16_be16 (word : UInt16) (rest : List UInt8) :
    read16 (be16 word ++ rest) = some (word, rest) := by
  simp only [be16, List.cons_append, List.nil_append, read16, word16_be16]

@[simp] theorem read32_be32 (word : UInt32) (rest : List UInt8) :
    read32 (be32 word ++ rest) = some (word, rest) := by
  simp only [be32, List.cons_append, List.nil_append, read32, word32_be32]

theorem readBytes_append (bytes rest : List UInt8) :
    readBytes bytes.length (bytes ++ rest) = some (bytes, rest) := by
  rw [readBytes, if_pos (by simp), List.take_left, List.drop_left]

/-- **Repetition** reads back a list whose members are read back. -/
theorem many_append {α : Type*} {read : Reader α} {write : α → List UInt8} {items : List α}
    (readsBack : ∀ item ∈ items, ReadsBack read write item) :
    ReadsBack (many read items.length) (fun items => items.flatMap write) items := by
  induction items with
  | nil => exact fun rest => rfl
  | cons item items ih =>
      intro rest
      have first := readsBack item (List.mem_cons_self ..) (items.flatMap write ++ rest)
      have others := ih (fun other member => readsBack other (List.mem_cons_of_mem _ member)) rest
      simp only [List.flatMap_cons, List.append_assoc, List.length_cons, many, first, others,
        Option.bind_eq_bind, Option.bind_some, Option.pure_def]

/-! ## Flags -/

theorem or_and (flags flags' mask : UInt16) :
    (flags ||| flags') &&& mask = flags &&& mask ||| flags' &&& mask :=
  UInt16.toBitVec_inj.1 BitVec.and_or_distrib_right

/-- A flag outside of the mask may be set or not. -/
theorem setIf_and {mask : UInt16} (flags flag : UInt16) (outside : flag &&& mask = 0)
    (condition : Prop) [Decidable condition] :
    (if condition then flags ||| flag else flags) &&& mask = flags &&& mask := by
  split
  · rw [or_and, outside, UInt16.or_zero]
  · rfl

end Wire
