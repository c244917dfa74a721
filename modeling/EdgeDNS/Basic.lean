import Mathlib.Data.List.Basic

/-!
# Values shared by the two caches

The caches key their tables by a 64-bit FNV-1a hash that folds the letters
`A` to `Z` to lower case before mixing them in. The record cache hashes wire
names and record ids with it, the address cache hashes group ids and entry
ids; the id hashes run over the sixteen bytes of a UUID in memory order.
-/

set_option autoImplicit false

namespace EdgeDNS

/-- A UUID as the database driver stores it. -/
@[ext] structure CassUuid where
  timeAndVersion : UInt64
  clockSeqAndNode : UInt64
deriving DecidableEq, Repr, Inhabited

/-- The eight bytes of a word in little-endian order. -/
def wordBytes (word : UInt64) : List UInt8 :=
  [word, word >>> 8, word >>> 16, word >>> 24, word >>> 32, word >>> 40, word >>> 48,
    word >>> 56].map UInt64.toUInt8

/-- The bytes `memcpy` takes from a UUID. -/
def CassUuid.bytes (uuid : CassUuid) : List UInt8 :=
  wordBytes uuid.timeAndVersion ++ wordBytes uuid.clockSeqAndNode

/-- Fold the letters `A` to `Z` to lower case. -/
def lowerByte (byte : UInt8) : UInt8 := if 65 ≤ byte ∧ byte ≤ 90 then byte + 32 else byte

/-- One round of the hash: fold the case, mix the byte in, multiply. -/
def hashStep (hash : UInt64) (byte : UInt8) : UInt64 :=
  (hash ^^^ (lowerByte byte).toUInt64) * 1099511628211

/-- The case-folding FNV-1a hash of a byte string. -/
def foldedHash (bytes : List UInt8) : UInt64 := bytes.foldl hashStep 14695981039346656037

theorem lowerByte_lowerByte (byte : UInt8) : lowerByte (lowerByte byte) = lowerByte byte := by
  obtain ⟨⟨value⟩⟩ := byte
  revert value
  decide +kernel

/-- The hash only sees the folded bytes. -/
theorem foldedHash_map_lowerByte (bytes : List UInt8) :
    foldedHash (bytes.map lowerByte) = foldedHash bytes := by
  have sameStep : (fun hash byte => hashStep hash (lowerByte byte)) = hashStep := by
    funext hash byte
    rw [hashStep, hashStep, lowerByte_lowerByte]
  rw [foldedHash, List.foldl_map, sameStep, foldedHash]

/-- Reading a field of an updated array is updating the array of fields. -/
theorem map_update {α β : Type*} (field : α → β) (array : Nat → α) (index : Nat) (value : α) :
    (fun other => field (Function.update array index value other)) =
      Function.update (fun other => field (array other)) index (field value) := by
  funext other
  exact Function.apply_update (fun _ => field) array index value other

/-- A field that a write does not change keeps its array. -/
theorem map_update_same {α β : Type*} (field : α → β) {array : Nat → α} {index : Nat} {value : α}
    (same : field value = field (array index)) :
    (fun other => field (Function.update array index value other)) =
      fun other => field (array other) := by
  rw [map_update, same]
  exact Function.update_eq_self index _

/-- A result that is there is the value. -/
theorem eq_ok_of_toOption {ε α : Type*} {result : Except ε α} {value : α}
    (present : result.toOption = some value) : result = .ok value := by
  cases result with
  | error error => cases present
  | ok other => exact congrArg Except.ok (Option.some.inj present)

end EdgeDNS
