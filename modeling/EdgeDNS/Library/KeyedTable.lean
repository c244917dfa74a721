import EdgeDNS.Library.Probing

/-!
# Tables of keys with open addressing

A table holds at most one key in every bucket. The probe for a key starts at
its home and stops at a vacant bucket and at a bucket that holds the key.

A table is `Findable` when the probe for every stored key ends at the bucket
that stores it. Two buckets then never store one key
(`Findable.injective`), and a probe that ends elsewhere proves the key absent
(`Findable.absent`). Storing a key where its probe ends keeps the table
findable (`Findable.insert`). Vacating a bucket keeps it findable exactly when
no other stored key's probe passes that bucket (`findable_erase_iff`): there
is no mark for a bucket that has been vacated, so a probe that used to pass it
now ends in it.

In a table that is not findable some keys still lead to their buckets (`Leads`). Such a
key stays found when another is stored, and when a bucket is vacated that its probe does
not look at (`leads_erase_iff`).
-/

set_option autoImplicit false

namespace Probing

variable {Key : Type*} [DecidableEq Key]

/-- A probe stops at a vacant bucket and at the bucket of its own key. -/
def keyStops (keys : Nat → Option Key) (key : Key) (bucket : Nat) : Bool :=
  keys bucket == none || keys bucket == some key

/-- The bucket where the probe for a key ends. -/
def findKey (next : Nat → Nat) (home : Key → Nat) (size : Nat) (keys : Nat → Option Key)
    (key : Key) : Option Nat :=
  (probeLoop next (keyStops keys key) (home key) size (home key)).join

/-- The buckets that the probe for a key passes. -/
def pathOf (next : Nat → Nat) (home : Key → Nat) (size : Nat) (keys : Nat → Option Key)
    (key : Key) : List Nat :=
  passed next (keyStops keys key) (home key) size (home key)

/-- The probe for every stored key ends where the key is stored. -/
def Findable (next : Nat → Nat) (home : Key → Nat) (size : Nat) (keys : Nat → Option Key) :
    Prop :=
  ∀ bucket key, keys bucket = some key → findKey next home size keys key = some bucket

/-- Vacating the bucket cuts the path to no key stored in another bucket. -/
def CutsNoPath (next : Nat → Nat) (home : Key → Nat) (size : Nat) (keys : Nat → Option Key)
    (bucket : Nat) : Prop :=
  ∀ other key, keys other = some key → other ≠ bucket →
    bucket ∉ pathOf next home size keys key

variable {next : Nat → Nat} {home : Key → Nat} {size : Nat} {keys : Nat → Option Key}

@[simp] theorem keyStops_iff {key : Key} {bucket : Nat} :
    keyStops keys key bucket = true ↔ keys bucket = none ∨ keys bucket = some key := by
  simp [keyStops]

theorem findKey_eq_some_iff {key : Key} {bucket : Nat} :
    findKey next home size keys key = some bucket ↔
      probeLoop next (keyStops keys key) (home key) size (home key) = some (some bucket) := by
  rw [findKey, Option.join_eq_some_iff]

/-- A probe ends in a vacant bucket or in the bucket of its key. -/
theorem key_of_findKey {key : Key} {bucket : Nat}
    (ends : findKey next home size keys key = some bucket) :
    keys bucket = none ∨ keys bucket = some key :=
  keyStops_iff.mp (stop_of_probeLoop (findKey_eq_some_iff.mp ends))

/-- A key stored where its probe ends is found there. -/
theorem findKey_update_self {key : Key} {bucket : Nat}
    (ends : findKey next home size keys key = some bucket) :
    findKey next home size (Function.update keys bucket (some key)) key = some bucket := by
  rw [findKey_eq_some_iff]
  refine probeLoop_of_shrink (fun index stops => ?_) (by simp) (findKey_eq_some_iff.mp ends)
  rcases eq_or_ne index bucket with rfl | different
  · exact keyStops_iff.mpr (key_of_findKey ends)
  · rw [keyStops_iff, Function.update_of_ne different] at stops
    exact keyStops_iff.mpr stops

/-- **A masked probe finds a bucket exactly when its block of `2 ^ r` buckets has
one** that is vacant or stores the key. -/
theorem findKey_masked_ne_none_iff {mask r value : Nat} {key : Key} (ones : TrailingOnes mask r)
    (enough : 2 ^ r ≤ size) (masked : home key = value &&& mask) :
    findKey (maskedStep mask) home size keys key ≠ none ↔
      ∃ low < 2 ^ r, keys (home key / 2 ^ r * 2 ^ r + low) = none ∨
        keys (home key / 2 ^ r * 2 ^ r + low) = some key := by
  rw [findKey, masked, probeLoop_masked_ne_none_iff ones enough]
  simp only [keyStops_iff]

/-- The probe for the key ends at the bucket, which stores the key. -/
structure Leads (next : Nat → Nat) (home : Key → Nat) (size : Nat) (keys : Nat → Option Key)
    (key : Key) (bucket : Nat) : Prop where
  ends : findKey next home size keys key = some bucket
  stored : keys bucket = some key

/-- The buckets that the probe for a key looks at. -/
def lookedAt (next : Nat → Nat) (home : Key → Nat) (size : Nat) (keys : Nat → Option Key)
    (key : Key) : List Nat :=
  pathOf next home size keys key ++ (findKey next home size keys key).toList

namespace Leads

variable {key : Key} {bucket : Nat}

theorem mem_lookedAt_iff (leads : Leads next home size keys key bucket) {other : Nat} :
    other ∈ lookedAt next home size keys key ↔
      other ∈ pathOf next home size keys key ∨ other = bucket := by
  simp [lookedAt, leads.ends]

/-- A probe that ends at its key looks at no vacant bucket. -/
theorem occupied (leads : Leads next home size keys key bucket) {other : Nat}
    (looks : other ∈ lookedAt next home size keys key) : keys other ≠ none := by
  intro vacant
  rcases leads.mem_lookedAt_iff.mp looks with passes | rfl
  · have goesOn := not_stop_of_mem_passed passes
    rw [keyStops_iff.mpr (.inl vacant)] at goesOn
    cases goesOn
  · cases vacant.symm.trans leads.stored

/-- Storing a key where its probe ends disturbs no other key. -/
theorem insert (leads : Leads next home size keys key bucket) {key' : Key} {other : Nat}
    (ends : findKey next home size keys key' = some other) (different : bucket ≠ other) :
    Leads next home size (Function.update keys other (some key')) key bucket := by
  have stored : Function.update keys other (some key') bucket = some key := by
    rw [Function.update_of_ne different]
    exact leads.stored
  refine ⟨findKey_eq_some_iff.mpr ?_, stored⟩
  refine probeLoop_of_shrink (fun index stops => ?_) (keyStops_iff.mpr (.inr stored))
    (findKey_eq_some_iff.mp leads.ends)
  rw [keyStops_iff] at stops ⊢
  by_cases here : index = other
  · subst here
    -- the bucket was vacant, or it already stored this very key
    rcases key_of_findKey ends with vacant | already
    · exact .inl vacant
    · rw [Function.update_self] at stops
      rw [already]
      exact stops
  · rwa [Function.update_of_ne here] at stops

end Leads

namespace Findable

/-- No two buckets of a findable table store the same key. -/
theorem injective (findable : Findable next home size keys) {first second : Nat} {key : Key}
    (inFirst : keys first = some key) (inSecond : keys second = some key) : first = second :=
  Option.some.inj ((findable first key inFirst).symm.trans (findable second key inSecond))

/-- A key whose probe does not end in its own bucket is stored nowhere. -/
theorem absent (findable : Findable next home size keys) {key : Key}
    (missing : ∀ bucket, findKey next home size keys key = some bucket → keys bucket = none)
    (bucket : Nat) : keys bucket ≠ some key := by
  intro stored
  rw [missing bucket (findable bucket key stored)] at stored
  cases stored

/-- **Storing a key where its probe ends** keeps the table findable. -/
theorem insert (findable : Findable next home size keys) {key : Key} {bucket : Nat}
    (ends : findKey next home size keys key = some bucket) :
    Findable next home size (Function.update keys bucket (some key)) := by
  intro other key' stored
  rcases eq_or_ne other bucket with rfl | different
  · rw [Function.update_self, Option.some.injEq] at stored
    subst stored
    exact findKey_update_self ends
  · rw [Function.update_of_ne different] at stored
    exact (Leads.insert ⟨findable other key' stored, stored⟩ ends different).ends

/-- Vacating a bucket widens the stopping condition by this bucket. -/
theorem keyStops_erase_iff {bucket : Nat} {key : Key} (index : Nat) :
    keyStops (Function.update keys bucket none) key index = true ↔
      keyStops keys key index = true ∨ index = bucket := by
  by_cases here : index = bucket
  · subst here
    simp
  · simp [here]

/-- A key whose path is cut is looked for in the vacated bucket. -/
theorem findKey_erase_of_mem {bucket : Nat} {key : Key}
    (cut : bucket ∈ pathOf next home size keys key) :
    findKey next home size (Function.update keys bucket none) key = some bucket :=
  findKey_eq_some_iff.mpr (probeLoop_of_mem_passed keyStops_erase_iff cut)

theorem erase (findable : Findable next home size keys) {bucket : Nat}
    (cutsNo : CutsNoPath next home size keys bucket) :
    Findable next home size (Function.update keys bucket none) := by
  intro other key stored
  by_cases same : other = bucket
  · subst same
    simp at stored
  · rw [Function.update_of_ne same] at stored
    exact findKey_eq_some_iff.mpr (probeLoop_of_notMem_passed keyStops_erase_iff
      (findKey_eq_some_iff.mp (findable other key stored)) (cutsNo other key stored same))

end Findable

/-- Vacating a bucket at which the probe for a key does not look leaves the key found. -/
theorem Leads.erase {key : Key} {bucket vacated : Nat}
    (leads : Leads next home size keys key bucket)
    (misses : vacated ∉ lookedAt next home size keys key) :
    Leads next home size (Function.update keys vacated none) key bucket := by
  rw [leads.mem_lookedAt_iff, not_or] at misses
  refine ⟨?_, ?_⟩
  · exact findKey_eq_some_iff.mpr (probeLoop_of_notMem_passed Findable.keyStops_erase_iff
      (findKey_eq_some_iff.mp leads.ends) misses.1)
  · rw [Function.update_of_ne (Ne.symm misses.2)]
    exact leads.stored

/-- The probe for a key ends at a vacated bucket at which it used to look. -/
theorem Leads.findKey_erase {key : Key} {bucket vacated : Nat}
    (leads : Leads next home size keys key bucket)
    (looks : vacated ∈ lookedAt next home size keys key) :
    findKey next home size (Function.update keys vacated none) key = some vacated := by
  by_cases passes : vacated ∈ pathOf next home size keys key
  · exact Findable.findKey_erase_of_mem passes
  · obtain rfl := (leads.mem_lookedAt_iff.mp looks).resolve_left passes
    exact findKey_eq_some_iff.mpr (probeLoop_of_notMem_passed Findable.keyStops_erase_iff
      (findKey_eq_some_iff.mp leads.ends) passes)

/-- An empty table is findable. -/
theorem findable_empty : Findable next home size (fun _ => (none : Option Key)) := by
  intro bucket key stored
  cases stored

end Probing
