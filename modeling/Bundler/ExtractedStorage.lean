import Bundler.MergedStorage
import Bundler.StorageRules

/-!
The storage map that tracerResultParser returns. At each address it has what
the first call accessing the address read there, so it has the slots of all
calls exactly when no later call reads a slot that this first one did not.
-/
namespace Bundler.ExtractedStorage

open KeyedRecords AsyncPrograms DataModel Validation Tracer TracerResultParser MergedStorage
  StorageRules

section Reads

/-- What a call read from a slot before anything else was done with it. -/
def readAt (level : TopLevelCallInfo) (addr slot : String) : Option String :=
  (level.access.lookup addr).bind fun info => info.reads.lookup slot

variable (levels : List TopLevelCallInfo)

/-- The value read by the first call that read the slot. -/
def firstRead (addr slot : String) : Option String :=
  levels.findSome? fun level => readAt level addr slot

/-- The map has the addresses accessed in some call, and every slot that was
read, with the value read first. -/
structure Complete (levels : List TopLevelCallInfo) (storageMap : StorageMap) : Prop where
  keys : ∀ addr, addr ∈ storageMap.keys ↔ ∃ level ∈ levels, addr ∈ level.access.keys
  value : ∀ addr slot value, firstRead levels addr slot = some value →
    valueAt storageMap addr slot = some value

/-- The call is the first that accesses the address. -/
structure FirstAccess (levels before : List TopLevelCallInfo) (first : TopLevelCallInfo)
    (after : List TopLevelCallInfo) (addr : String) (info : AccessInfo) : Prop where
  levels : levels = before ++ first :: after
  before : ∀ earlier ∈ before, earlier.access.lookup addr = none
  access : first.access.lookup addr = some info

/-- What is read at an address after the first call that accesses it was also
read by that call. -/
def FirstCallReadsAll : Prop :=
  ∀ before first after addr info, FirstAccess levels before first after addr info →
    ∀ later ∈ after, ∀ slot, (readAt later addr slot).isSome → (info.reads.lookup slot).isSome

end Reads

section Extraction

theorem lookup_foldl_access (storageMap : StorageMap) (level : TopLevelCallInfo) (addr : String) :
    (level.access.values.foldl (fun storageMap entry =>
      storageMap.assign entry.1 ((storageMap.lookup entry.1).getD (.slots entry.2.reads)))
      storageMap).lookup addr =
    (storageMap.lookup addr).or
      ((level.access.lookup addr).map fun info => .slots info.reads) := by
  have hentry (acc : StorageMap) (entry : String × AccessInfo) (addr : String) :
      (acc.assign entry.1 ((acc.lookup entry.1).getD (.slots entry.2.reads))).lookup addr =
        if addr = entry.1 then some ((acc.lookup addr).getD (.slots entry.2.reads))
        else acc.lookup addr := by
    rw [Record.lookup_assign]
    by_cases hsame : addr = entry.1
    · rw [if_pos hsame, if_pos hsame, hsame]
    · rw [if_neg hsame, if_neg hsame]
  have hfold := Record.lookup_foldl (g := fun old info => some (old.getD (.slots info.reads)))
    hentry level.access storageMap addr
  refine hfold.trans ?_
  cases level.access.lookup addr with
  | none => simp
  | some info => cases storageMap.lookup addr <;> rfl

/-- The first call that accesses an address decides what the map has there. -/
theorem lookup_extractStorageMap (levels : List TopLevelCallInfo) (addr : String) :
    (extractStorageMap levels).lookup addr =
      (levels.findSome? fun level => level.access.lookup addr).map
        fun info => .slots info.reads := by
  have hfold (acc : StorageMap) :
      (levels.foldl (fun storageMap level =>
        level.access.values.foldl (fun storageMap entry =>
          storageMap.assign entry.1 ((storageMap.lookup entry.1).getD (.slots entry.2.reads)))
          storageMap) acc).lookup addr =
        (acc.lookup addr).or ((levels.findSome? fun level => level.access.lookup addr).map
          fun info => .slots info.reads) := by
    induction levels generalizing acc with
    | nil => simp
    | cons level levels ih =>
      rw [List.foldl_cons, ih, lookup_foldl_access, Option.or_assoc, List.findSome?_cons]
      cases level.access.lookup addr with
      | none => simp
      | some info => simp
  exact hfold .empty

variable {levels before after : List TopLevelCallInfo} {first : TopLevelCallInfo} {addr : String}
  {info : AccessInfo}

theorem FirstAccess.valueAt_extract (h : FirstAccess levels before first after addr info)
    (slot : String) : valueAt (extractStorageMap levels) addr slot = info.reads.lookup slot := by
  have hfound : (levels.findSome? fun level => level.access.lookup addr) = some info :=
    List.findSome?_eq_some_iff.mpr ⟨before, first, after, h.levels, h.access, h.before⟩
  refine valueAt_of_slots ?_ slot
  rw [lookup_extractStorageMap, hfound]
  rfl

/-- If the first call that accesses an address reads a slot, no call read it earlier. -/
theorem FirstAccess.firstRead_eq (h : FirstAccess levels before first after addr info)
    {slot value : String} (hvalue : info.reads.lookup slot = some value) :
    firstRead levels addr slot = some value := by
  refine List.findSome?_eq_some_iff.mpr ⟨before, first, after, h.levels, ?_, ?_⟩
  · unfold readAt
    rw [h.access]
    exact hvalue
  · intro earlier hearlier
    unfold readAt
    rw [h.before earlier hearlier]
    rfl

theorem mem_keys_extract (levels : List TopLevelCallInfo) (addr : String) :
    addr ∈ (extractStorageMap levels).keys ↔ ∃ level ∈ levels, addr ∈ level.access.keys := by
  rw [← Record.isSome_lookup_iff, lookup_extractStorageMap, Option.isSome_map,
    List.findSome?_isSome_iff]
  simp only [Record.isSome_lookup_iff]

/-- The first call that read a slot at an address comes with the first that
accessed the address. -/
theorem exists_firstAccess {slot value : String} (h : firstRead levels addr slot = some value) :
    ∃ before first after info, FirstAccess levels before first after addr info ∧
      (info.reads.lookup slot = some value ∨
        ∃ later ∈ after, readAt later addr slot = some value) := by
  obtain ⟨_, level, _, hlevels, hread, _⟩ := List.findSome?_eq_some_iff.mp h
  have hmem : level ∈ levels := by simp [hlevels]
  obtain ⟨own, hown, hslot⟩ := Option.bind_eq_some_iff.mp hread
  have hsome : (levels.findSome? fun level => level.access.lookup addr).isSome :=
    List.findSome?_isSome_iff.mpr ⟨level, hmem, by rw [hown]; rfl⟩
  obtain ⟨info, hinfo⟩ := Option.isSome_iff_exists.mp hsome
  obtain ⟨before, first, after, hsplit, haccess, hbefore⟩ := List.findSome?_eq_some_iff.mp hinfo
  refine ⟨before, first, after, info, ⟨hsplit, hbefore, haccess⟩, ?_⟩
  rw [hsplit] at hmem
  rcases List.mem_append.mp hmem with hearlier | hrest
  · rw [hbefore level hearlier] at hown
    cases hown
  · rcases List.mem_cons.mp hrest with hfirst | hlater
    · rw [hfirst, haccess] at hown
      obtain rfl := Option.some.inj hown
      exact .inl hslot
    · exact .inr ⟨level, hlater, hread⟩

theorem complete_extract_iff (levels : List TopLevelCallInfo) :
    Complete levels (extractStorageMap levels) ↔ FirstCallReadsAll levels := by
  constructor
  · intro hcomplete before first after addr info hfirst later hlater slot hread
    have hmem : later ∈ levels := by simp [hfirst.levels, hlater]
    have hsome : (firstRead levels addr slot).isSome :=
      List.findSome?_isSome_iff.mpr ⟨later, hmem, hread⟩
    obtain ⟨value, hvalue⟩ := Option.isSome_iff_exists.mp hsome
    have hfound := hcomplete.value addr slot value hvalue
    rw [hfirst.valueAt_extract] at hfound
    rw [hfound]
    rfl
  · intro hall
    refine ⟨mem_keys_extract levels, ?_⟩
    intro addr slot value hvalue
    obtain ⟨before, first, after, info, hfirst, hread⟩ := exists_firstAccess hvalue
    rw [hfirst.valueAt_extract]
    rcases hread with hread | ⟨later, hlater, hread⟩
    · exact hread
    · have hsome := hall before first after addr info hfirst later hlater slot (by rw [hread]; rfl)
      obtain ⟨value', hvalue'⟩ := Option.isSome_iff_exists.mp hsome
      rw [hfirst.firstRead_eq hvalue'] at hvalue
      rw [hvalue', hvalue]

end Extraction

section Parser

variable {lib : Library} {userOp : UserOperation} {tracerResults : BundlerCollectorReturn}
  {validationResult : ValidationResult} {epAddress : String} {addresses : List String}
  {storageMap : StorageMap}

theorem eq_extractStorageMap
    (h : tracerResultParser lib userOp tracerResults validationResult epAddress =
      .ok (addresses, storageMap)) :
    storageMap = extractStorageMap tracerResults.callsFromEntryPoint := by
  unfold tracerResultParser at h
  by_cases hempty : tracerResults.callsFromEntryPoint.length < 1
  · rw [if_pos hempty] at h
    cases h
  · rw [if_neg hempty] at h
    obtain ⟨_, _, h⟩ := except_bind_eq_ok_iff.mp h
    obtain ⟨_, _, h⟩ := except_bind_eq_ok_iff.mp h
    obtain ⟨_, _, h⟩ := except_bind_eq_ok_iff.mp h
    exact (congrArg Prod.snd (Except.ok.inj h)).symm

/-- A returned storage map is complete exactly when at each address the first
call that accesses it reads every slot that is read there. -/
theorem storage_map_complete_iff
    (h : tracerResultParser lib userOp tracerResults validationResult epAddress =
      .ok (addresses, storageMap)) :
    Complete tracerResults.callsFromEntryPoint storageMap ↔
      FirstCallReadsAll tracerResults.callsFromEntryPoint := by
  rw [eq_extractStorageMap h]
  exact complete_extract_iff tracerResults.callsFromEntryPoint

end Parser

section Concrete

/-- The call of an entity reads one slot of the account. -/
def levelReading (entity : Entity) (slot : String) : TopLevelCallInfo where
  topLevelMethodSig := selector entity
  topLevelTargetAddress := account
  opcodes := Record.assign .empty "SLOAD" 1
  access := Record.assign .empty account
    { reads := Record.assign .empty slot hash₁
      writes := .empty
      transientReads := some .empty
      transientWrites := some .empty }
  contractSize := .empty
  extCodeAccessInfo := .empty

/-- The account's call and the paymaster's call read a slot of the account each. -/
def readingTwice (slot other : String) : BundlerCollectorReturn where
  callsFromEntryPoint := [levelReading .account slot, levelReading .paymaster other]
  keccak := []
  calls := [.inr (returning "0x")]
  logs := []

/-- The account's own storage is not checked. -/
theorem checkAccess_levelReading (entity : Entity) (slot : String) (entitySlots : EntitySlots) :
    checkAccess (libraryWith mappingHash) (plainOp account 1 10 none none) unstakedAccount
      (toLowerCase entryPoint) entitySlots entity (levelReading entity slot) = .ok () := by
  refine forM_ok_iff.mpr (List.forall_mem_singleton.mpr ?_)
  unfold checkAddress
  have hown : toLowerCase account = sender (plainOp account 1 10 none none) := rfl
  exact if_pos hown

theorem readingTwice_accepted (slot other : String) :
    ∃ result, tracerResultParser (libraryWith mappingHash) (plainOp account 1 10 none none)
      (readingTwice slot other) unstakedAccount entryPoint = .ok result := by
  refine tracerResultParser_ok_iff.mpr ⟨List.cons_ne_nil _ _, rfl, _, rfl, ?_⟩
  intro entity _
  refine checkEntity_ok_iff.mpr ⟨fun haccount => by rw [haccount]; rfl, ?_⟩
  intro level hlevel
  cases entity with
  | factory => cases hlevel
  | account =>
    cases hlevel
    exact ⟨rfl, rfl, rfl, checkAccess_levelReading .account slot _, rfl, rfl⟩
  | paymaster =>
    cases hlevel
    exact ⟨rfl, rfl, rfl, checkAccess_levelReading .paymaster other _, rfl, rfl⟩

theorem readingOneSlot_complete :
    ∃ addresses storageMap, tracerResultParser (libraryWith mappingHash)
        (plainOp account 1 10 none none) (readingTwice "0x01" "0x01") unstakedAccount entryPoint =
          .ok (addresses, storageMap) ∧
      Complete (readingTwice "0x01" "0x01").callsFromEntryPoint storageMap := by
  obtain ⟨⟨addresses, storageMap⟩, h⟩ := readingTwice_accepted "0x01" "0x01"
  refine ⟨addresses, storageMap, h, (storage_map_complete_iff h).mpr ?_⟩
  intro before first after addr info hfirst later hlater slot hread
  have hall : ∀ level ∈ (readingTwice "0x01" "0x01").callsFromEntryPoint,
      level.access = (levelReading .account "0x01").access := by
    simp [readingTwice, levelReading]
  have haccess : later.access = first.access := by
    rw [hall later (by simp [hfirst.levels, hlater]), hall first (by simp [hfirst.levels])]
  unfold readAt at hread
  rw [haccess, hfirst.access] at hread
  exact hread

/-- The slot that only the paymaster's call read is missing. -/
theorem later_slot_lost :
    ∃ addresses storageMap, tracerResultParser (libraryWith mappingHash)
        (plainOp account 1 10 none none) (readingTwice "0x01" "0x02") unstakedAccount entryPoint =
          .ok (addresses, storageMap) ∧
      ¬Complete (readingTwice "0x01" "0x02").callsFromEntryPoint storageMap := by
  obtain ⟨⟨addresses, storageMap⟩, h⟩ := readingTwice_accepted "0x01" "0x02"
  refine ⟨addresses, storageMap, h, ?_⟩
  rw [eq_extractStorageMap h]
  intro hcomplete
  have hlost := hcomplete.value account "0x02" hash₁ rfl
  exact absurd hlost (by decide)

end Concrete

end Bundler.ExtractedStorage
