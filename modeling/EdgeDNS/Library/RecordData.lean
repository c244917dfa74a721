import EdgeDNS.Library.DnsMessage

/-!
# The data of resource records

Reference readers for the data of the common record types: an address of a fixed
length, a name, names with numbers behind them, and strings behind their lengths.
A name here is labels of 1 to 63 bytes and a zero, without pointers.

The second part says which chunks behind their lengths read as names
(`readsNames_chunks_iff`): an empty chunk is the zero that ends a name, whatever
the writer meant by it. A chunk of 256 bytes or more is left out, since its
length does not fit the byte in front of it.
-/

set_option autoImplicit false

namespace Dns

/-! ## Readers -/

/-- The loop over the labels of a name. The first argument bounds their number. -/
def behindNameLoop : Nat → List UInt8 → Option (List UInt8)
  | 0, _ => none
  | _ + 1, [] => none
  | left + 1, length :: bytes =>
      if length = 0 then some bytes
      else if length.toNat ≤ 63 ∧ length.toNat ≤ bytes.length then
        behindNameLoop left (bytes.drop length.toNat)
      else none

/-- What lies behind the name at the front of the bytes. -/
def behindName (bytes : List UInt8) : Option (List UInt8) := behindNameLoop bytes.length bytes

/-- What lies behind some names at the front of the bytes. -/
def behindNames : Nat → List UInt8 → Option (List UInt8)
  | 0, bytes => some bytes
  | names + 1, bytes => (behindName bytes).bind (behindNames names)

/-- The bytes are some names and a number of bytes behind them. -/
def ReadsNames (names size : Nat) (bytes : List UInt8) : Prop :=
  (behindNames names bytes).map List.length = some size

instance (names size : Nat) (bytes : List UInt8) : Decidable (ReadsNames names size bytes) :=
  inferInstanceAs (Decidable (_ = _))

/-- The loop over strings behind their lengths. -/
def areStringsLoop : Nat → List UInt8 → Bool
  | _, [] => true
  | 0, _ :: _ => false
  | left + 1, length :: bytes =>
      decide (length.toNat ≤ bytes.length) && areStringsLoop left (bytes.drop length.toNat)

/-- The loop that reads strings behind their lengths, up to the end of the bytes. -/
def readStringsLoop : Nat → List UInt8 → Option (List (List UInt8))
  | _, [] => some []
  | 0, _ :: _ => none
  | left + 1, length :: bytes =>
      if length.toNat ≤ bytes.length then
        (readStringsLoop left (bytes.drop length.toNat)).map (bytes.take length.toNat :: ·)
      else none

/-- The strings that the bytes are, each behind its length. -/
def readStrings (bytes : List UInt8) : Option (List (List UInt8)) :=
  readStringsLoop bytes.length bytes

/-- The bytes are at least one string, each behind its length. -/
def AreStrings (bytes : List UInt8) : Prop :=
  bytes ≠ [] ∧ areStringsLoop bytes.length bytes = true

/-- A type of records whose data has a form of its own. -/
inductive RecordType
  | a
  | ns
  | cname
  | soa
  | ptr
  | mx
  | txt
  | aaaa
deriving DecidableEq, Repr

/-- The number of a type. -/
def RecordType.code : RecordType → Int
  | .a => 1
  | .ns => 2
  | .cname => 5
  | .soa => 6
  | .ptr => 12
  | .mx => 15
  | .txt => 16
  | .aaaa => 28

/-- A reader of the type takes all of the bytes. An exchange comes without its
preference, and the two names of an SOA have five numbers of four bytes behind them. -/
def RecordType.Takes : RecordType → List UInt8 → Prop
  | .a, bytes => bytes.length = 4
  | .aaaa, bytes => bytes.length = 16
  | .soa, bytes => ReadsNames 2 20 bytes
  | .txt, bytes => AreStrings bytes
  | _, bytes => ReadsNames 1 0 bytes

instance (bytes : List UInt8) : Decidable (AreStrings bytes) :=
  inferInstanceAs (Decidable (_ ∧ _))

instance : ∀ (type : RecordType) (bytes : List UInt8), Decidable (type.Takes bytes)
  | .a, bytes => inferInstanceAs (Decidable (bytes.length = 4))
  | .aaaa, bytes => inferInstanceAs (Decidable (bytes.length = 16))
  | .soa, bytes => inferInstanceAs (Decidable (ReadsNames 2 20 bytes))
  | .txt, bytes => inferInstanceAs (Decidable (AreStrings bytes))
  | .ns, bytes | .cname, bytes | .ptr, bytes | .mx, bytes =>
      inferInstanceAs (Decidable (ReadsNames 1 0 bytes))

/-! ## The loops -/

theorem behindNameLoop_enough {left left' : Nat} {bytes : List UInt8}
    (enough : bytes.length ≤ left) (enough' : bytes.length ≤ left') :
    behindNameLoop left bytes = behindNameLoop left' bytes := by
  induction left generalizing left' bytes with
  | zero =>
      obtain rfl := List.eq_nil_of_length_eq_zero (Nat.le_zero.mp enough)
      cases left' <;> rfl
  | succ left ih =>
      cases bytes with
      | nil => cases left' <;> rfl
      | cons length bytes =>
          rw [List.length_cons] at enough enough'
          obtain ⟨left', rfl⟩ := Nat.exists_eq_add_of_le' (Nat.one_le_of_lt enough')
          have shorter : (bytes.drop length.toNat).length ≤ bytes.length := by
            rw [List.length_drop]
            omega
          rw [behindNameLoop, behindNameLoop,
            @ih left' (bytes.drop length.toNat) (by omega) (by omega)]

theorem behindName_nil : behindName [] = none := rfl

/-- A name whose first label is there. -/
theorem behindName_label {label bytes : List UInt8} (positive : 1 ≤ label.length)
    (short : label.length ≤ 63) : behindName (encodeLabel label ++ bytes) = behindName bytes := by
  have length : (UInt8.ofNat label.length).toNat = label.length := ofNat8_toNat (by omega)
  have notRoot : UInt8.ofNat label.length ≠ 0 := ofNat8_ne_zero positive (by omega)
  have inside : label.length ≤ (label ++ bytes).length := by
    rw [List.length_append]
    exact Nat.le_add_right ..
  rw [encodeLabel, List.cons_append, behindName, List.length_cons, behindNameLoop, if_neg notRoot,
    length, if_pos ⟨short, inside⟩, List.drop_left, behindName]
  exact behindNameLoop_enough (by simp) (Nat.le_refl _)

/-- A name whose first length says more than a label may have. -/
theorem behindName_long {length : UInt8} (long : 63 < length.toNat) (bytes : List UInt8) :
    behindName (length :: bytes) = none := by
  have notRoot : length ≠ 0 := by
    rintro rfl
    exact absurd long (by decide)
  have notShort : ¬ (length.toNat ≤ 63 ∧ length.toNat ≤ bytes.length) :=
    fun both => Nat.not_lt_of_le both.1 long
  rw [behindName, List.length_cons, behindNameLoop, if_neg notRoot, if_neg notShort]

/-! ## Strings behind their lengths -/

/-- Bytes are strings when they can be read as strings. -/
theorem areStringsLoop_eq (left : Nat) (bytes : List UInt8) :
    areStringsLoop left bytes = (readStringsLoop left bytes).isSome := by
  induction left generalizing bytes with
  | zero => cases bytes <;> rfl
  | succ left ih =>
      cases bytes with
      | nil => rfl
      | cons length bytes =>
          rw [areStringsLoop, readStringsLoop, ih]
          by_cases inside : length.toNat ≤ bytes.length
          · rw [if_pos inside, Option.isSome_map, decide_eq_true inside, Bool.true_and]
          · rw [if_neg inside, decide_eq_false inside, Bool.false_and]
            rfl

/-- What is written behind lengths is read back. -/
theorem readStringsLoop_encoded {texts : List (List UInt8)}
    (small : ∀ text ∈ texts, text.length ≤ 255) {left : Nat} (enough : texts.length ≤ left) :
    readStringsLoop left (texts.flatMap encodeLabel) = some texts := by
  induction texts generalizing left with
  | nil => cases left <;> rfl
  | cons text texts ih =>
      obtain ⟨left, rfl⟩ := Nat.exists_eq_add_of_le' (Nat.one_le_of_lt enough)
      have textSmall := small text (List.mem_cons_self ..)
      have others := ih (fun other member => small other (List.mem_cons_of_mem _ member))
        (Nat.le_of_succ_le_succ enough)
      have length : (UInt8.ofNat text.length).toNat = text.length := ofNat8_toNat (by omega)
      have inside : text.length ≤ (text ++ texts.flatMap encodeLabel).length := by
        rw [List.length_append]
        exact Nat.le_add_right ..
      rw [List.flatMap_cons, encodeLabel, List.cons_append, readStringsLoop, length, if_pos inside,
        List.drop_left, List.take_left, others, Option.map_some]

/-- What is read is written behind its lengths, and nothing is left over. -/
theorem encoded_of_readStringsLoop {left : Nat} {bytes : List UInt8} {texts : List (List UInt8)}
    (reads : readStringsLoop left bytes = some texts) :
    bytes = texts.flatMap encodeLabel ∧ ∀ text ∈ texts, text.length ≤ 255 := by
  induction left generalizing bytes texts with
  | zero =>
      cases bytes with
      | nil =>
          cases reads
          exact ⟨rfl, fun text member => absurd member List.not_mem_nil⟩
      | cons length bytes => cases reads
  | succ left ih =>
      cases bytes with
      | nil =>
          cases reads
          exact ⟨rfl, fun text member => absurd member List.not_mem_nil⟩
      | cons length bytes =>
          rw [readStringsLoop] at reads
          split at reads
          · next inside =>
              obtain ⟨others, readsOthers, rfl⟩ := Option.map_eq_some_iff.mp reads
              obtain ⟨isEncoded, small⟩ := ih readsOthers
              have count : (bytes.take length.toNat).length = length.toNat :=
                List.length_take_of_le inside
              refine ⟨?_, fun text member => ?_⟩
              · rw [List.flatMap_cons, ← isEncoded, encodeLabel, count, UInt8.ofNat_toNat,
                  List.cons_append, List.take_append_drop]
              · rcases List.mem_cons.mp member with rfl | inOthers
                · rw [count]
                  exact Nat.le_of_lt_succ length.toNat_lt
                · exact small text inOthers
          · cases reads

theorem length_le_encoded (texts : List (List UInt8)) :
    texts.length ≤ (texts.flatMap encodeLabel).length := by
  induction texts with
  | nil => exact Nat.le_refl _
  | cons text texts ih =>
      rw [List.flatMap_cons, List.length_append, encodeLabel_length, List.length_cons]
      omega

/-- **Strings are read** exactly when the bytes are these strings behind their lengths. -/
theorem readStrings_eq_some_iff {bytes : List UInt8} {texts : List (List UInt8)} :
    readStrings bytes = some texts ↔
      bytes = texts.flatMap encodeLabel ∧ ∀ text ∈ texts, text.length ≤ 255 := by
  constructor
  · exact encoded_of_readStringsLoop
  · rintro ⟨rfl, small⟩
    exact readStringsLoop_encoded small (length_le_encoded texts)

/-- Bytes are strings when they are read as some strings, and as one at least. -/
theorem areStrings_iff {bytes : List UInt8} :
    AreStrings bytes ↔ bytes ≠ [] ∧ ∃ texts, readStrings bytes = some texts := by
  rw [AreStrings, areStringsLoop_eq, Option.isSome_iff_exists, readStrings]

/-! ## Chunks that read as names -/

/-- A label of a name as a reader takes it. -/
def IsLabel (label : List UInt8) : Prop := 1 ≤ label.length ∧ label.length ≤ 63

/-- The chunks begin with some names, each ended by an empty chunk, and take a number
of bytes behind them. -/
def NamesThen : Nat → Nat → List (List UInt8) → Prop
  | 0, size, chunks => (chunks.flatMap encodeLabel).length = size
  | names + 1, size, chunks => ∃ labels others, chunks = labels ++ [] :: others ∧
      (∀ label ∈ labels, IsLabel label) ∧ NamesThen names size others

/-- The empty chunks of a list. -/
def emptyCount (chunks : List (List UInt8)) : Nat := chunks.countP (· = [])

theorem namesThen_cons_empty {names size : Nat} {chunks : List (List UInt8)} :
    NamesThen (names + 1) size ([] :: chunks) ↔ NamesThen names size chunks := by
  constructor
  · rintro ⟨labels, others, isSplit, areLabels, rest⟩
    cases labels with
    | nil =>
        obtain rfl := (List.cons.inj isSplit).2
        exact rest
    | cons label labels =>
        obtain rfl := (List.cons.inj isSplit).1
        exact absurd (areLabels [] (List.mem_cons_self ..)).1 (by decide)
  · intro rest
    exact ⟨[], chunks, rfl, fun label member => absurd member List.not_mem_nil, rest⟩

theorem namesThen_cons_label {names size : Nat} {chunk : List UInt8} {chunks : List (List UInt8)}
    (notEmpty : chunk ≠ []) :
    NamesThen (names + 1) size (chunk :: chunks) ↔
      IsLabel chunk ∧ NamesThen (names + 1) size chunks := by
  constructor
  · rintro ⟨labels, others, isSplit, areLabels, rest⟩
    cases labels with
    | nil => exact absurd (List.cons.inj isSplit).1 notEmpty
    | cons label labels =>
        obtain ⟨rfl, rfl⟩ := List.cons.inj isSplit
        exact ⟨areLabels _ (List.mem_cons_self ..), labels, others, rfl,
          fun other member => areLabels other (List.mem_cons_of_mem _ member), rest⟩
  · rintro ⟨isLabel, labels, others, rfl, areLabels, rest⟩
    refine ⟨chunk :: labels, others, rfl, fun other member => ?_, rest⟩
    rcases List.mem_cons.mp member with rfl | inLabels
    · exact isLabel
    · exact areLabels other inLabels

/-- An empty chunk ends a name. -/
theorem readsNames_empty {names total : Nat} {bytes : List UInt8} :
    ReadsNames (names + 1) total (encodeLabel [] ++ bytes) ↔ ReadsNames names total bytes := Iff.rfl

/-- A chunk at the front of a name is a label of it. -/
theorem readsNames_label {names total : Nat} {chunk bytes : List UInt8} (notEmpty : chunk ≠ [])
    (small : chunk.length < 256) :
    ReadsNames (names + 1) total (encodeLabel chunk ++ bytes) ↔
      IsLabel chunk ∧ ReadsNames (names + 1) total bytes := by
  have positive : 1 ≤ chunk.length := List.length_pos_iff.mpr notEmpty
  by_cases short : chunk.length ≤ 63
  · rw [ReadsNames, behindNames, behindName_label positive short]
    exact ⟨fun reads => ⟨⟨positive, short⟩, reads⟩, And.right⟩
  · have length : (UInt8.ofNat chunk.length).toNat = chunk.length := ofNat8_toNat small
    have noName := @behindName_long (UInt8.ofNat chunk.length) (by rw [length]; omega)
      (chunk ++ bytes)
    rw [ReadsNames, behindNames, encodeLabel, List.cons_append, noName]
    exact ⟨fun reads => absurd reads (by simp), fun both => absurd both.1.2 short⟩

/-- Labels are short, and so is what takes few bytes behind names. -/
theorem namesThen_small {names size : Nat} {chunks : List (List UInt8)} (few : size < 256)
    (fits : NamesThen names size chunks) : ∀ chunk ∈ chunks, chunk.length < 256 := by
  induction names generalizing chunks with
  | zero =>
      intro chunk member
      have inBytes : chunk.length + 1 ≤ (chunks.flatMap encodeLabel).length := by
        rw [← encodeLabel_length]
        exact (List.sublist_flatten_of_mem (List.mem_map_of_mem member)).length_le
      rw [NamesThen] at fits
      omega
  | succ names ih =>
      obtain ⟨labels, others, rfl, areLabels, rest⟩ := fits
      intro chunk member
      rcases List.mem_append.mp member with inLabels | behind
      · exact Nat.lt_of_le_of_lt (areLabels chunk inLabels).2 (by decide)
      · rcases List.mem_cons.mp behind with rfl | inOthers
        · exact Nat.zero_lt_succ _
        · exact ih rest chunk inOthers

/-- **Chunks read as names** when empty ones end names of labels, and what is behind
them has the right size. The names end in the chunks, or nothing follows them. -/
theorem readsNames_chunks_iff {names total : Nat} {chunks : List (List UInt8)}
    {behind : List UInt8} (small : ∀ chunk ∈ chunks, chunk.length < 256)
    (ends : names ≤ emptyCount chunks ∨ behind = []) :
    ReadsNames names total (chunks.flatMap encodeLabel ++ behind) ↔
      ∃ size, size + behind.length = total ∧ NamesThen names size chunks := by
  induction chunks generalizing names with
  | nil =>
      cases names with
      | zero => simp [ReadsNames, behindNames, NamesThen]
      | succ names =>
          rcases ends with impossible | rfl
          · exact absurd impossible (Nat.not_succ_le_zero _)
          · simp [ReadsNames, behindNames, behindName_nil, NamesThen]
  | cons chunk chunks ih =>
      have smallOthers : ∀ other ∈ chunks, other.length < 256 :=
        fun other member => small other (List.mem_cons_of_mem _ member)
      cases names with
      | zero =>
          rw [ReadsNames, behindNames, Option.map_some, Option.some.injEq, List.length_append]
          simp only [NamesThen, exists_eq_right']
      | succ names =>
          rw [List.flatMap_cons, List.append_assoc]
          by_cases isEmpty : chunk = []
          · subst isEmpty
            have ends' : names ≤ emptyCount chunks ∨ behind = [] := by
              refine ends.imp_left fun enough => ?_
              rw [emptyCount, List.countP_cons_of_pos (by simp)] at enough
              exact Nat.le_of_succ_le_succ enough
            simp only [readsNames_empty, namesThen_cons_empty, ih smallOthers ends']
          · have ends' : names + 1 ≤ emptyCount chunks ∨ behind = [] := by
              refine ends.imp_left fun enough => ?_
              rwa [emptyCount, List.countP_cons_of_neg (by simpa using isEmpty)] at enough
            simp only [namesThen_cons_label isEmpty, and_left_comm, exists_and_left]
            rw [← ih smallOthers ends']
            exact readsNames_label isEmpty (small chunk (List.mem_cons_self ..))

/-- The labels of one name and the zero behind them read as a name when they are
labels. -/
theorem readsNames_name_iff {labels : List (List UInt8)}
    (small : ∀ label ∈ labels, label.length < 256) :
    ReadsNames 1 0 (labels.flatMap encodeLabel ++ [0]) ↔ ∀ label ∈ labels, IsLabel label := by
  have smallChunks : ∀ chunk ∈ labels ++ [[]], chunk.length < 256 := by
    intro chunk member
    rcases List.mem_append.mp member with inLabels | isEnd
    · exact small chunk inLabels
    · rw [List.mem_singleton.mp isEnd]
      decide
  have bytes : (labels ++ [[]]).flatMap encodeLabel ++ [] =
      labels.flatMap encodeLabel ++ [0] := by
    rw [List.append_nil, List.flatMap_append]
    rfl
  rw [← bytes, readsNames_chunks_iff smallChunks (.inr rfl)]
  constructor
  · rintro ⟨size, total, name, others, isSplit, areLabels, isSize⟩
    have nothing : others = [] := by
      cases others with
      | nil => rfl
      | cons other others =>
          rw [NamesThen, List.flatMap_cons, List.length_append, encodeLabel_length] at isSize
          rw [List.length_nil] at total
          omega
    subst nothing
    rw [(List.append_inj' isSplit rfl).1]
    exact areLabels
  · intro areLabels
    exact ⟨0, rfl, labels, [], rfl, areLabels, rfl⟩

end Dns
