import EdgeDNS.Library.RecordData
import EdgeDNS.Utils.Vector

/-!
# Texts as strings on the wire

`txtToWire` cuts a text into chunks of 255 bytes, the last of which may be shorter,
and writes each behind its length. An empty text is one empty chunk. The length is
cut to a byte before it moves the cursor, which changes nothing, since a chunk has no
more than 255 bytes (`txtToWireLoop_narrowed`).

A reader gets the chunks back (`readStrings_txtToWire`), and they are the text
(`txt_loses_nothing`).
-/

set_option autoImplicit false

namespace EdgeDNS.Utils

open Dns

/-- The chunks that `txtToWireLoop` cuts a text into. -/
def chunksLoop : Nat → List UInt8 → List (List UInt8)
  | 0, _ => []
  | _ + 1, [] => []
  | left + 1, byte :: txt => (byte :: txt).take 255 :: chunksLoop left ((byte :: txt).drop 255)

/-- The strings that a text is written as. -/
def txtStrings (txt : List UInt8) : List (List UInt8) :=
  if txt = [] then [[]] else chunksLoop txt.length txt

theorem txtToWireLoop_chunks (left : Nat) (txt : List UInt8) :
    txtToWireLoop left txt = (chunksLoop left txt).flatMap encodeLabel := by
  induction left generalizing txt with
  | zero => rfl
  | succ left ih =>
      cases txt with
      | nil => rfl
      | cons byte txt => rw [txtToWireLoop, chunksLoop, List.flatMap_cons, ih]

/-- A text is written as its strings behind their lengths. -/
theorem txtToWire_strings (txt : List UInt8) :
    txtToWire txt = (txtStrings txt).flatMap encodeLabel := by
  rw [txtToWire, txtStrings]
  split
  · rfl
  · exact txtToWireLoop_chunks ..

theorem mem_chunksLoop {left : Nat} {txt chunk : List UInt8}
    (member : chunk ∈ chunksLoop left txt) : chunk.length ≤ 255 := by
  induction left generalizing txt with
  | zero => exact absurd member List.not_mem_nil
  | succ left ih =>
      cases txt with
      | nil => exact absurd member List.not_mem_nil
      | cons byte txt =>
          rcases List.mem_cons.mp member with rfl | inOthers
          · exact List.length_take_le ..
          · exact ih inOthers

/-- A round shortens the text. -/
theorem drop_chunk_length {left : Nat} {byte : UInt8} {txt : List UInt8}
    (enough : (byte :: txt).length ≤ left + 1) : ((byte :: txt).drop 255).length ≤ left := by
  rw [List.length_drop]
  rw [List.length_cons] at enough ⊢
  omega

/-- The chunks are the text. -/
theorem chunksLoop_flatten {left : Nat} {txt : List UInt8} (enough : txt.length ≤ left) :
    (chunksLoop left txt).flatten = txt := by
  induction left generalizing txt with
  | zero => exact (List.eq_nil_of_length_eq_zero (Nat.le_zero.mp enough)).symm
  | succ left ih =>
      cases txt with
      | nil => rfl
      | cons byte txt =>
          rw [chunksLoop, List.flatten_cons, ih (drop_chunk_length enough), List.take_append_drop]

theorem chunksLoop_ne_nil {left : Nat} {txt : List UInt8} (notEmpty : txt ≠ [])
    (enough : txt.length ≤ left) : chunksLoop left txt ≠ [] := by
  intro isNil
  have flattened := chunksLoop_flatten enough
  rw [isNil, List.flatten_nil] at flattened
  exact notEmpty flattened.symm

/-- A chunk in front of another one is full. -/
theorem chunksLoop_full {left : Nat} {txt : List UInt8} (enough : txt.length ≤ left) :
    ∀ chunk ∈ (chunksLoop left txt).dropLast, chunk.length = 255 := by
  induction left generalizing txt with
  | zero => exact fun chunk member => absurd member List.not_mem_nil
  | succ left ih =>
      cases txt with
      | nil => exact fun chunk member => absurd member List.not_mem_nil
      | cons byte txt =>
          have shorter := drop_chunk_length enough
          rw [chunksLoop]
          by_cases last : (byte :: txt).drop 255 = []
          · rw [last]
            cases left <;> exact fun chunk member => absurd member List.not_mem_nil
          · rw [List.dropLast_cons_of_ne_nil (chunksLoop_ne_nil last shorter)]
            intro chunk member
            rcases List.mem_cons.mp member with rfl | inOthers
            · rw [List.length_take_of_le]
              by_contra short
              exact last (List.drop_of_length_le (Nat.le_of_not_le short))
            · exact ih shorter chunk inOthers

theorem txtStrings_ne_nil (txt : List UInt8) : txtStrings txt ≠ [] := by
  rw [txtStrings]
  split
  · exact List.cons_ne_nil _ _
  · next notEmpty => exact chunksLoop_ne_nil notEmpty (Nat.le_refl _)

theorem txtStrings_flatten (txt : List UInt8) : (txtStrings txt).flatten = txt := by
  rw [txtStrings]
  split
  · next isEmpty => exact isEmpty.symm
  · exact chunksLoop_flatten (Nat.le_refl _)

/-- Every string but the last is full. -/
theorem txtStrings_full (txt : List UInt8) :
    ∀ text ∈ (txtStrings txt).dropLast, text.length = 255 := by
  rw [txtStrings]
  split
  · exact fun text member => absurd member List.not_mem_nil
  · exact chunksLoop_full (Nat.le_refl _)

/-- **A reader gets the strings of a text.** -/
theorem readStrings_txtToWire (txt : List UInt8) :
    readStrings (txtToWire txt) = some (txtStrings txt) := by
  refine readStrings_eq_some_iff.mpr ⟨txtToWire_strings txt, fun text member => ?_⟩
  rw [txtStrings] at member
  split at member
  · rw [List.mem_singleton.mp member]
    exact Nat.zero_le _
  · exact mem_chunksLoop member

/-- **The encoding of a text loses nothing**: a reader takes all its bytes as strings,
which are full but for the last and make up the text. -/
theorem txt_loses_nothing :
    (∀ txt, ∃ strings, readStrings (txtToWire txt) = some strings ∧ strings ≠ [] ∧
      (∀ text ∈ strings.dropLast, text.length = 255) ∧ strings.flatten = txt) ∧
      Function.Injective txtToWire := by
  refine ⟨fun txt => ⟨txtStrings txt, readStrings_txtToWire txt, txtStrings_ne_nil txt,
    txtStrings_full txt, txtStrings_flatten txt⟩, fun txt other same => ?_⟩
  have sameStrings : txtStrings txt = txtStrings other := by
    apply Option.some.inj
    rw [← readStrings_txtToWire, ← readStrings_txtToWire, same]
  rw [← txtStrings_flatten txt, sameStrings, txtStrings_flatten]

end EdgeDNS.Utils
