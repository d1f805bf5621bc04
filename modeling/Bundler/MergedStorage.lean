import Bundler.BundleBuilder

/-!
The storage map of a bundle, merged from the maps of its operations. When
maps never disagree on a root or on the value of a slot, it is their union,
with a root in the place of all slots of its address: the order of the maps
does not matter, and a map merged twice changes nothing.
-/
namespace Bundler.MergedStorage

open KeyedRecords DataModel BundleBuilder

section LookUps

/-- The root a map gives for an address. -/
def rootAt (storageMap : StorageMap) (addr : String) : Option String :=
  match storageMap.lookup addr with
  | some (.root hash) => some hash
  | _ => none

/-- The value it gives for a slot. -/
def valueAt (storageMap : StorageMap) (addr slot : String) : Option String :=
  match storageMap.lookup addr with
  | some (.slots slots) => slots.lookup slot
  | _ => none

theorem rootAt_eq_some_iff (storageMap : StorageMap) (addr hash : String) :
    rootAt storageMap addr = some hash ↔ storageMap.lookup addr = some (.root hash) := by
  unfold rootAt
  cases storageMap.lookup addr with
  | none => simp
  | some entry => cases entry <;> simp

theorem valueAt_of_slots {storageMap : StorageMap} {addr : String} {slots : SlotMap}
    (h : storageMap.lookup addr = some (.slots slots)) (slot : String) :
    valueAt storageMap addr slot = slots.lookup slot := by
  unfold valueAt
  rw [h]

/-- The maps have the same addresses, with the same root or the same slots. -/
structure SameMap (storageMap other : StorageMap) : Prop where
  keys : ∀ addr, (storageMap.lookup addr).isSome ↔ (other.lookup addr).isSome
  root : ∀ addr, rootAt storageMap addr = rootAt other addr
  value : ∀ addr slot, valueAt storageMap addr slot = valueAt other addr slot

/-- What becomes of the entry of an address that a map is merged into. -/
def mergedEntry (old : Option StorageEntry) : StorageEntry → StorageEntry
  | .root hash => .root hash
  | .slots validationSlots =>
      match old with
      | some (.root hash) => .root hash
      | some (.slots slots) => .slots (mergeSlots slots validationSlots)
      | none => .slots (mergeSlots .empty validationSlots)

theorem lookup_mergeSlots (slots validationSlots : SlotMap) (slot : String) :
    (mergeSlots slots validationSlots).lookup slot =
      (validationSlots.lookup slot).or (slots.lookup slot) := by
  have hfold := Record.lookup_foldl (g := fun _ value => some value)
    (fun acc entry k => Record.lookup_assign acc entry.1 k entry.2) validationSlots slots slot
  refine Eq.trans hfold ?_
  cases validationSlots.lookup slot with
  | none => rfl
  | some value => rfl

/-- Merging an entry assigns it, also where a root stays. -/
theorem mergeStorageEntry_eq (merged : StorageMap) (addr : String) (entry : StorageEntry) :
    mergeStorageEntry merged addr entry =
      merged.assign addr (mergedEntry (merged.lookup addr) entry) := by
  cases entry with
  | root hash => rfl
  | slots validationSlots =>
    unfold mergeStorageEntry mergedEntry
    cases hold : merged.lookup addr with
    | none => rfl
    | some old =>
      cases old with
      | root hash => exact (Record.assign_of_lookup hold).symm
      | slots slots => rfl

theorem lookup_mergeStorageMap (merged validationStorageMap : StorageMap) (addr : String) :
    (mergeStorageMap merged validationStorageMap).lookup addr =
      match validationStorageMap.lookup addr with
      | some entry => some (mergedEntry (merged.lookup addr) entry)
      | none => merged.lookup addr := by
  have hentry (acc : StorageMap) (entry : String × StorageEntry) (addr : String) :
      (mergeStorageEntry acc entry.1 entry.2).lookup addr =
        if addr = entry.1 then some (mergedEntry (acc.lookup addr) entry.2)
        else acc.lookup addr := by
    rw [mergeStorageEntry_eq, Record.lookup_assign]
    by_cases hsame : addr = entry.1
    · rw [if_pos hsame, if_pos hsame, hsame]
    · rw [if_neg hsame, if_neg hsame]
  have hfold := Record.lookup_foldl (g := fun old entry => some (mergedEntry old entry)) hentry
    validationStorageMap merged addr
  refine Eq.trans hfold ?_
  cases validationStorageMap.lookup addr with
  | none => rfl
  | some entry => rfl

variable (merged validationStorageMap : StorageMap) (addr slot : String)

theorem isSome_lookup_merge :
    ((mergeStorageMap merged validationStorageMap).lookup addr).isSome ↔
      (merged.lookup addr).isSome ∨ (validationStorageMap.lookup addr).isSome := by
  rw [lookup_mergeStorageMap]
  cases validationStorageMap.lookup addr with
  | none => simp
  | some entry => simp

theorem rootAt_merge :
    rootAt (mergeStorageMap merged validationStorageMap) addr =
      (rootAt validationStorageMap addr).or (rootAt merged addr) := by
  unfold rootAt
  rw [lookup_mergeStorageMap]
  cases validationStorageMap.lookup addr with
  | none => rfl
  | some entry =>
    cases entry with
    | root hash => rfl
    | slots validationSlots =>
      cases merged.lookup addr with
      | none => rfl
      | some old =>
        cases old with
        | root hash => rfl
        | slots slots => rfl

/-- Where there is a root afterwards no slot has a value. -/
theorem valueAt_merge :
    valueAt (mergeStorageMap merged validationStorageMap) addr slot =
      if rootAt (mergeStorageMap merged validationStorageMap) addr = none then
        (valueAt validationStorageMap addr slot).or (valueAt merged addr slot)
      else none := by
  unfold valueAt rootAt
  rw [lookup_mergeStorageMap]
  cases validationStorageMap.lookup addr with
  | none =>
    cases merged.lookup addr with
    | none => rfl
    | some old =>
      cases old with
      | root hash => rfl
      | slots slots => rfl
  | some entry =>
    cases entry with
    | root hash => rfl
    | slots validationSlots =>
      cases merged.lookup addr with
      | none => exact lookup_mergeSlots .empty validationSlots slot
      | some old =>
        cases old with
        | root hash => rfl
        | slots slots => exact lookup_mergeSlots slots validationSlots slot

end LookUps

section Union

/-- No two of the maps give different roots for an address, or different
values for a slot of one. -/
structure Agree (maps : List StorageMap) : Prop where
  roots : ∀ m ∈ maps, ∀ n ∈ maps, ∀ addr hash hash',
    rootAt m addr = some hash → rootAt n addr = some hash' → hash = hash'
  values : ∀ m ∈ maps, ∀ n ∈ maps, ∀ addr slot value value',
    valueAt m addr slot = some value → valueAt n addr slot = some value' → value = value'

/-- At each address the map has the root that some map gives for it, and all
slots given for it if none gives a root. -/
structure IsUnion (maps : List StorageMap) (merged : StorageMap) : Prop where
  keys : ∀ addr, (merged.lookup addr).isSome ↔ ∃ m ∈ maps, (m.lookup addr).isSome
  root : ∀ addr hash, rootAt merged addr = some hash ↔ ∃ m ∈ maps, rootAt m addr = some hash
  value : ∀ addr slot value, valueAt merged addr slot = some value ↔
    (∀ m ∈ maps, rootAt m addr = none) ∧ ∃ m ∈ maps, valueAt m addr slot = some value

def merged (maps : List StorageMap) : StorageMap := maps.foldl mergeStorageMap .empty

variable {maps maps' : List StorageMap}

theorem Agree.mono (h : Agree maps) (hsub : ∀ m ∈ maps', m ∈ maps) : Agree maps' where
  roots m hm n hn := h.roots m (hsub m hm) n (hsub n hn)
  values m hm n hn := h.values m (hsub m hm) n (hsub n hn)

theorem isUnion_nil : IsUnion [] .empty where
  keys addr := by simp [Record.lookup, KeyedRecord.get, KeyedRecord.empty]
  root addr hash := by simp [rootAt, Record.lookup, KeyedRecord.get, KeyedRecord.empty]
  value addr slot value := by simp [valueAt, Record.lookup, KeyedRecord.get, KeyedRecord.empty]

theorem exists_mem_append_singleton {P : StorageMap → Prop} {m : StorageMap} :
    (∃ n ∈ maps ++ [m], P n) ↔ P m ∨ ∃ n ∈ maps, P n := by
  simp [or_and_right, exists_or, or_comm]

/-- If two optional values never differ, either of them may come first. -/
theorem or_eq_some_iff_of_agree {a b : Option String} {value : String}
    (h : ∀ value', a = some value' → b = some value → value' = value) :
    a.or b = some value ↔ a = some value ∨ b = some value := by
  cases a with
  | none => simp
  | some value' =>
    constructor
    · exact .inl
    · intro hor
      rcases hor with ha | hb
      · exact ha
      · exact congrArg some (h value' rfl hb)

/-- A map merged into the union of others makes the union of all. -/
theorem IsUnion.append_singleton {m acc : StorageMap} (h : IsUnion maps acc)
    (hagree : Agree (maps ++ [m])) : IsUnion (maps ++ [m]) (mergeStorageMap acc m) := by
  have hm : m ∈ maps ++ [m] := by simp
  have hmaps (n : StorageMap) (hn : n ∈ maps) : n ∈ maps ++ [m] := by simp [hn]
  have hroot (addr hash : String) :
      rootAt (mergeStorageMap acc m) addr = some hash ↔
        ∃ n ∈ maps ++ [m], rootAt n addr = some hash := by
    rw [rootAt_merge, exists_mem_append_singleton, ← h.root]
    refine or_eq_some_iff_of_agree ?_
    intro hash' hash_m hash_acc
    obtain ⟨n, hn, hash_n⟩ := (h.root addr hash).mp hash_acc
    exact hagree.roots m hm n (hmaps n hn) addr hash' hash hash_m hash_n
  constructor
  · intro addr
    rw [isSome_lookup_merge, exists_mem_append_singleton, h.keys, or_comm]
  · exact hroot
  · intro addr slot value
    have hnone : rootAt (mergeStorageMap acc m) addr = none ↔
        ∀ n ∈ maps ++ [m], rootAt n addr = none := by
      simp only [Option.eq_none_iff_forall_ne_some, ne_eq, hroot, not_exists, not_and]
      tauto
    rw [valueAt_merge, exists_mem_append_singleton]
    by_cases hfree : rootAt (mergeStorageMap acc m) addr = none
    · have hall := hnone.mp hfree
      have hvalue (value : String) : valueAt acc addr slot = some value ↔
          ∃ n ∈ maps, valueAt n addr slot = some value := by
        rw [h.value]
        exact and_iff_right fun n hn => hall n (hmaps n hn)
      rw [if_pos hfree, ← hvalue]
      refine Iff.trans (or_eq_some_iff_of_agree ?_) (and_iff_right hall).symm
      intro value' value_m value_acc
      obtain ⟨n, hn, value_n⟩ := (hvalue value).mp value_acc
      exact hagree.values m hm n (hmaps n hn) addr slot value' value value_m value_n
    · rw [if_neg hfree]
      refine iff_of_false nofun ?_
      intro hunion
      exact hfree (hnone.mpr hunion.1)

theorem isUnion_merged (h : Agree maps) : IsUnion maps (merged maps) := by
  unfold merged
  induction maps using List.reverseRecOn with
  | nil => exact isUnion_nil
  | append_singleton maps m ih =>
    rw [List.foldl_append]
    exact (ih (h.mono fun n hn => by simp [hn])).append_singleton h

/-- A union is determined by which maps it is of. -/
theorem IsUnion.sameMap {m n : StorageMap} (hm : IsUnion maps m) (hn : IsUnion maps' n)
    (hmem : ∀ k, k ∈ maps ↔ k ∈ maps') : SameMap m n where
  keys addr := by simp only [hm.keys, hn.keys, hmem]
  root addr := by
    apply Option.ext
    intro hash
    simp only [hm.root, hn.root, hmem]
  value addr slot := by
    apply Option.ext
    intro value
    simp only [hm.value, hn.value, hmem]

end Union

section Again

theorem foldl_eq_self {β γ : Type} {f : β → γ → β} {acc : β} {entries : List γ}
    (h : ∀ entry ∈ entries, f acc entry = acc) : entries.foldl f acc = acc := by
  induction entries with
  | nil => rfl
  | cons entry entries ih =>
    rw [List.forall_mem_cons] at h
    rw [List.foldl_cons, h.1, ih h.2]

/-- Slots that have all the values already stay as they are. -/
theorem mergeSlots_of_lookup {slots validationSlots : SlotMap}
    (h : ∀ slot value, validationSlots.lookup slot = some value →
      slots.lookup slot = some value) : mergeSlots slots validationSlots = slots := by
  refine foldl_eq_self ?_
  intro entry hentry
  exact Record.assign_of_lookup
    (h entry.1 entry.2 ((Record.lookup_eq_some_iff _ _ _).mpr hentry))

/-- Merging one of the maps into their union changes nothing. -/
theorem IsUnion.merge_again {maps : List StorageMap} {merged m : StorageMap}
    (h : IsUnion maps merged) (hm : m ∈ maps) : mergeStorageMap merged m = merged := by
  refine foldl_eq_self ?_
  rintro ⟨addr, entry⟩ hentry
  have hlookup : m.lookup addr = some entry := (Record.lookup_eq_some_iff m addr entry).mpr hentry
  have hkey : (merged.lookup addr).isSome :=
    (h.keys addr).mpr ⟨m, hm, Option.isSome_iff_exists.mpr ⟨entry, hlookup⟩⟩
  obtain ⟨old, hold⟩ := Option.isSome_iff_exists.mp hkey
  rw [mergeStorageEntry_eq]
  refine Record.assign_of_lookup ?_
  rw [hold]
  cases entry with
  | root hash =>
    have hroot := (h.root addr hash).mpr ⟨m, hm, (rootAt_eq_some_iff m addr hash).mpr hlookup⟩
    rw [← hold]
    exact (rootAt_eq_some_iff merged addr hash).mp hroot
  | slots validationSlots =>
    cases old with
    | root hash => rfl
    | slots slots =>
      have hnone (n : StorageMap) (hn : n ∈ maps) : rootAt n addr = none := by
        by_contra hsome
        obtain ⟨hash, hhash⟩ := Option.ne_none_iff_exists'.mp hsome
        have hroot := (rootAt_eq_some_iff merged addr hash).mp
          ((h.root addr hash).mpr ⟨n, hn, hhash⟩)
        rw [hold] at hroot
        cases hroot
      have hslots : mergeSlots slots validationSlots = slots := by
        refine mergeSlots_of_lookup ?_
        intro slot value hvalue
        rw [← valueAt_of_slots hlookup] at hvalue
        rw [← valueAt_of_slots hold]
        exact (h.value addr slot value).mpr ⟨hnone, m, hm, hvalue⟩
      change some (StorageEntry.slots slots) =
        some (.slots (mergeSlots slots validationSlots))
      rw [hslots]

end Again

/-- Agreeing maps merge to their union, in every order, and merging one of
them once more changes nothing. -/
theorem merge_order_irrelevant (maps : List StorageMap) (hagree : Agree maps) :
    (∀ maps' : List StorageMap, maps'.Perm maps → SameMap (merged maps') (merged maps)) ∧
      IsUnion maps (merged maps) ∧ ∀ m ∈ maps, mergeStorageMap (merged maps) m = merged maps := by
  refine ⟨?_, isUnion_merged hagree, fun m hm => (isUnion_merged hagree).merge_again hm⟩
  intro maps' hperm
  have hagree' : Agree maps' := hagree.mono fun m hm => hperm.mem_iff.mp hm
  exact (isUnion_merged hagree').sameMap (isUnion_merged hagree) fun m => hperm.mem_iff

section Concrete

def slotsOf (slot value : String) : StorageMap :=
  Record.assign .empty account (.slots (Record.assign .empty slot value))

def rootOf (hash : String) : StorageMap := Record.assign .empty account (.root hash)

/-- Two slots of the account in two maps, and its root in a third. -/
def slotsAndRoot : List StorageMap := [slotsOf "0x00" "0x0a", slotsOf "0x01" "0x0b", rootOf "0x0c"]

theorem slotsAndRoot_agree : Agree slotsAndRoot := by
  have hslots (slot value addr : String) :
      (slotsOf slot value).lookup addr =
        if addr = account then some (.slots (Record.assign .empty slot value)) else none :=
    Record.lookup_assign .empty account addr _
  have hroot (addr : String) :
      (rootOf "0x0c").lookup addr = if addr = account then some (.root "0x0c") else none :=
    Record.lookup_assign .empty account addr _
  have hvalue (slot value other : String) :
      (Record.assign .empty slot value : SlotMap).lookup other =
        if other = slot then some value else none :=
    Record.lookup_assign .empty slot other value
  constructor
  · intro m hm n hn addr hash hash' hm_root hn_root
    rw [rootAt_eq_some_iff] at hm_root hn_root
    simp [slotsAndRoot] at hm hn
    rcases hm with hm | hm | hm <;> rcases hn with hn | hn | hn <;>
      simp [hm, hn, hslots, hroot] at hm_root hn_root
    rw [← hm_root.2, hn_root.2]
  · intro m hm n hn addr slot value value' hm_value hn_value
    simp [slotsAndRoot] at hm hn
    unfold valueAt at hm_value hn_value
    by_cases haddr : addr = account
    · rcases hm with hm | hm | hm <;> rcases hn with hn | hn | hn <;>
        simp [hm, hn, hslots, hroot, hvalue, haddr] at hm_value hn_value
      · rw [← hm_value.2, hn_value.2]
      · exact absurd (hm_value.1.symm.trans hn_value.1) (by decide)
      · exact absurd (hm_value.1.symm.trans hn_value.1) (by decide)
      · rw [← hm_value.2, hn_value.2]
    · rcases hm with hm | hm | hm <;> simp [hm, hslots, hroot, haddr] at hm_value

theorem merge_slotsAndRoot :
    (∀ maps' : List StorageMap, maps'.Perm slotsAndRoot →
        SameMap (merged maps') (merged slotsAndRoot)) ∧
      IsUnion slotsAndRoot (merged slotsAndRoot) ∧
      ∀ m ∈ slotsAndRoot, mergeStorageMap (merged slotsAndRoot) m = merged slotsAndRoot :=
  merge_order_irrelevant slotsAndRoot slotsAndRoot_agree

end Concrete

end Bundler.MergedStorage
