import Bundler.Tracer
import Mathlib.Data.List.Count

/-!
The maps that the storage accesses of one call leave. They are kept apart by
contract. Writes and transient accesses are counted by slot, and a read is kept
with its value when it is the first of its slot and no write comes before it.
-/
namespace Bundler.AccessMaps

open KeyedRecords DataModel HexStrings Tracer

inductive StorageOpcode
  | sload
  | sstore
  | tload
  | tstore
  deriving DecidableEq, Repr

def StorageOpcode.text : StorageOpcode → String
  | .sload => "SLOAD"
  | .sstore => "SSTORE"
  | .tload => "TLOAD"
  | .tstore => "TSTORE"

def storageOpcodes : List StorageOpcode := [.sload, .sstore, .tload, .tstore]

/-- An access of a slot, with the hex texts of the contract, the slot and the
value that the state has there. -/
structure Access where
  opcode : StorageOpcode
  address : String
  slot : String
  value : String

def Access.IsAt (access : Access) (opcode : StorageOpcode) (address slot : String) : Prop :=
  access.opcode = opcode ∧ access.address = address ∧ access.slot = slot

instance (access : Access) (opcode : StorageOpcode) (address slot : String) :
    Decidable (access.IsAt opcode address slot) :=
  inferInstanceAs (Decidable (_ ∧ _ ∧ _))

def countAt (opcode : StorageOpcode) (address slot : String) (list : List Access) : ℕ :=
  list.countP fun access => access.IsAt opcode address slot

/-- The first read of the slot has this value, and no write comes before it. -/
def ReadFirst (list : List Access) (address slot value : String) : Prop :=
  ∃ before access after, list = before ++ access :: after ∧ access.IsAt .sload address slot ∧
    access.value = value ∧ ∀ earlier ∈ before,
      ¬earlier.IsAt .sload address slot ∧ ¬earlier.IsAt .sstore address slot

/-- What a level has of an address, nothing if it has no entry. -/
def accessAt (level : TopLevelCallInfo) (address : String) : AccessInfo :=
  (level.access.lookup address).getD .empty

/-- The count of a slot, zero if it has none. -/
def countOf (list : Option (Record String ℕ)) (slot : String) : ℕ :=
  (list.bind fun list => list.lookup slot).getD 0

/-- The level has every access, and nothing else. -/
structure RecordsAccesses (level : TopLevelCallInfo) (list : List Access) : Prop where
  writes : ∀ address slot, countOf (some (accessAt level address).writes) slot =
    countAt .sstore address slot list
  transientReads : ∀ address slot, countOf (accessAt level address).transientReads slot =
    countAt .tload address slot list
  transientWrites : ∀ address slot, countOf (accessAt level address).transientWrites slot =
    countAt .tstore address slot list
  reads : ∀ address slot value, (accessAt level address).reads.lookup slot = some value ↔
    ReadFirst list address slot value

section Maps

/-- What an access leaves in the maps of its contract. -/
def add (info : AccessInfo) (access : Access) : AccessInfo :=
  match access.opcode with
  | .sload =>
      if (info.reads.lookup access.slot).isNone ∧ (info.writes.lookup access.slot).isNone then
        { info with reads := info.reads.assign access.slot access.value }
      else info
  | .sstore => { info with writes := countSlot info.writes access.slot }
  | .tload =>
      { info with
        transientReads := info.transientReads.map fun list => countSlot list access.slot }
  | .tstore =>
      { info with
        transientWrites := info.transientWrites.map fun list => countSlot list access.slot }

theorem record_eq_add (info : AccessInfo) (db : StateDb) (opcode : StorageOpcode)
    (addr slot : List ℕ) :
    info.record db opcode.text addr slot =
      add info ⟨opcode, hexString addr, hexString slot, hexString (db.getState addr slot)⟩ := by
  unfold AccessInfo.record add
  cases opcode with
  | sload => simp [StorageOpcode.text]
  | sstore => simp [StorageOpcode.text]
  | tload => simp [StorageOpcode.text]
  | tstore => simp [StorageOpcode.text]

/-- What an access leaves in the maps of all contracts. -/
def addAt (maps : Record String AccessInfo) (access : Access) : Record String AccessInfo :=
  maps.assign access.address (add ((maps.lookup access.address).getD .empty) access)

/-- Accesses of other contracts leave the maps of a contract as they are. -/
theorem lookup_foldl_addAt (list : List Access) (maps : Record String AccessInfo)
    (address : String) :
    ((list.foldl addAt maps).lookup address).getD .empty =
      (list.filter fun access => access.address = address).foldl add
        ((maps.lookup address).getD .empty) := by
  induction list generalizing maps with
  | nil => rfl
  | cons access list ih =>
    rw [List.foldl_cons, ih]
    unfold addAt
    rw [Record.lookup_assign]
    by_cases haddress : access.address = address
    · rw [List.filter_cons_of_pos (by simpa using haddress), List.foldl_cons, if_pos haddress.symm,
        haddress]
      rfl
    · rw [List.filter_cons_of_neg (by simpa using haddress), if_neg (Ne.symm haddress)]

/-- The slots that an opcode accesses, in order. -/
def slots (opcode : StorageOpcode) (list : List Access) : List String :=
  (list.filter fun access => access.opcode = opcode).map Access.slot

theorem slots_cons_self {access : Access} {opcode : StorageOpcode} (h : access.opcode = opcode)
    (list : List Access) : slots opcode (access :: list) = access.slot :: slots opcode list := by
  unfold slots
  rw [List.filter_cons_of_pos (by simpa using h), List.map_cons]

theorem slots_cons_of_ne {access : Access} {opcode : StorageOpcode} (h : access.opcode ≠ opcode)
    (list : List Access) : slots opcode (access :: list) = slots opcode list := by
  unfold slots
  rw [List.filter_cons_of_neg (by simpa using h)]

theorem count_slots (opcode : StorageOpcode) (address slot : String) (list : List Access) :
    (slots opcode (list.filter fun access => access.address = address)).count slot =
      countAt opcode address slot list := by
  unfold slots countAt
  rw [List.count_eq_countP, List.countP_map, List.countP_filter, List.countP_filter]
  refine List.countP_congr ?_
  intro access _
  simp only [Function.comp_apply, beq_iff_eq, Bool.and_eq_true, decide_eq_true_eq]
  unfold Access.IsAt
  tauto

theorem countOf_foldl_countSlot (keys : List String) (list : Record String ℕ) (slot : String) :
    countOf (some (keys.foldl countSlot list)) slot =
      countOf (some list) slot + keys.count slot := by
  induction keys generalizing list with
  | nil => rfl
  | cons key keys ih =>
    rw [List.foldl_cons, ih]
    unfold countOf countSlot
    rw [Option.bind_some, Option.bind_some, Record.lookup_assign]
    by_cases hkey : slot = key
    · rw [if_pos hkey, hkey, List.count_cons_self, Option.getD_some]
      omega
    · rw [if_neg hkey, List.count_cons_of_ne (Ne.symm hkey)]

/-- Each map of counts has only the slots of its own opcode. -/
theorem foldl_add_counts (list : List Access) (info : AccessInfo) :
    (list.foldl add info).writes = (slots .sstore list).foldl countSlot info.writes ∧
      (list.foldl add info).transientReads =
        info.transientReads.map (fun counts => (slots .tload list).foldl countSlot counts) ∧
      (list.foldl add info).transientWrites =
        info.transientWrites.map fun counts => (slots .tstore list).foldl countSlot counts := by
  induction list generalizing info with
  | nil => simp [slots]
  | cons access list ih =>
    obtain ⟨hwrites, hreads, hwrites'⟩ := ih (add info access)
    rw [List.foldl_cons, hwrites, hreads, hwrites']
    unfold add
    cases hopcode : access.opcode with
    | sload =>
      rw [slots_cons_of_ne (by simp [hopcode]), slots_cons_of_ne (by simp [hopcode]),
        slots_cons_of_ne (by simp [hopcode])]
      dsimp only
      split
      · exact ⟨rfl, rfl, rfl⟩
      · exact ⟨rfl, rfl, rfl⟩
    | sstore =>
      rw [slots_cons_self hopcode, slots_cons_of_ne (by simp [hopcode]),
        slots_cons_of_ne (by simp [hopcode])]
      exact ⟨rfl, rfl, rfl⟩
    | tload =>
      rw [slots_cons_self hopcode, slots_cons_of_ne (by simp [hopcode]),
        slots_cons_of_ne (by simp [hopcode])]
      exact ⟨rfl, Option.map_map _ _ _, rfl⟩
    | tstore =>
      rw [slots_cons_self hopcode, slots_cons_of_ne (by simp [hopcode]),
        slots_cons_of_ne (by simp [hopcode])]
      exact ⟨rfl, rfl, Option.map_map _ _ _⟩

theorem lookup_reads_add (info : AccessInfo) (access : Access) (slot : String) :
    (add info access).reads.lookup slot =
      if (access.slot = slot ∧ access.opcode = .sload) ∧ info.reads.lookup slot = none ∧
          info.writes.lookup slot = none then some access.value
      else info.reads.lookup slot := by
  unfold add
  cases hopcode : access.opcode with
  | sload =>
    simp only [Option.isNone_iff_eq_none, and_true]
    by_cases hslot : access.slot = slot
    · by_cases hfresh : info.reads.lookup slot = none ∧ info.writes.lookup slot = none
      · simp [hslot, hfresh, Record.lookup_assign]
      · simp [hslot, hfresh]
    · by_cases hfresh : info.reads.lookup access.slot = none ∧
          info.writes.lookup access.slot = none
      · simp [hslot, hfresh, Record.lookup_assign, Ne.symm hslot]
      · simp [hslot, hfresh]
  | sstore => simp
  | tload => simp
  | tstore => simp

theorem isSome_writes_add (info : AccessInfo) (access : Access) (slot : String) :
    ((add info access).writes.lookup slot).isSome ↔
      (info.writes.lookup slot).isSome ∨ (access.slot = slot ∧ access.opcode = .sstore) := by
  unfold add
  cases hopcode : access.opcode with
  | sload =>
    dsimp only
    split
    · simp
    · simp
  | sstore =>
    dsimp only
    unfold countSlot
    rw [Record.lookup_assign]
    by_cases hslot : access.slot = slot
    · simp [hslot]
    · simp [hslot, Ne.symm hslot]
  | tload => simp
  | tstore => simp

/-- The access reads or writes the slot. -/
def Touches (access : Access) (slot : String) : Prop :=
  access.slot = slot ∧ (access.opcode = .sload ∨ access.opcode = .sstore)

instance (access : Access) (slot : String) : Decidable (Touches access slot) :=
  inferInstanceAs (Decidable (_ ∧ _))

/-- Behind the first read or write of a slot its read stays as it is. -/
theorem lookup_reads_of_touched (list : List Access) {info : AccessInfo} {slot : String}
    (h : (info.reads.lookup slot).isSome ∨ (info.writes.lookup slot).isSome) :
    (list.foldl add info).reads.lookup slot = info.reads.lookup slot := by
  induction list generalizing info with
  | nil => rfl
  | cons access list ih =>
    have hkept : (add info access).reads.lookup slot = info.reads.lookup slot := by
      rw [lookup_reads_add, if_neg]
      rintro ⟨_, hreads, hwrites⟩
      simp [hreads, hwrites] at h
    have htouched : ((add info access).reads.lookup slot).isSome ∨
        ((add info access).writes.lookup slot).isSome := by
      rw [hkept, isSome_writes_add]
      tauto
    rw [List.foldl_cons, ih htouched, hkept]

theorem lookup_reads_foldl (list : List Access) {info : AccessInfo} {slot : String}
    (hreads : info.reads.lookup slot = none) (hwrites : info.writes.lookup slot = none) :
    (list.foldl add info).reads.lookup slot =
      (list.find? fun access => Touches access slot).bind fun access =>
        if access.opcode = .sload then some access.value else none := by
  induction list generalizing info with
  | nil => exact hreads
  | cons access list ih =>
    have hread := lookup_reads_add info access slot
    have hwritten := isSome_writes_add info access slot
    rw [List.foldl_cons]
    by_cases htouches : Touches access slot
    · rw [List.find?_cons_of_pos (by simpa using htouches), Option.bind_some]
      obtain ⟨hslot, hopcode⟩ := htouches
      rcases hopcode with hload | hstore
      · rw [if_pos ⟨⟨hslot, hload⟩, hreads, hwrites⟩] at hread
        rw [lookup_reads_of_touched list (Or.inl (by rw [hread]; rfl)), hread, if_pos hload]
      · rw [if_neg (by simp [hstore]), hreads] at hread
        rw [lookup_reads_of_touched list (Or.inr (hwritten.mpr (Or.inr ⟨hslot, hstore⟩))), hread,
          if_neg (by simp [hstore])]
    · rw [List.find?_cons_of_neg (by simpa using htouches)]
      unfold Touches at htouches
      rw [if_neg (by tauto), hreads] at hread
      have hnone : (add info access).writes.lookup slot = none := by
        rw [← Option.not_isSome_iff_eq_none, hwritten, hwrites]
        simp
        tauto
      exact ih hread hnone

theorem readFirst_iff {list : List Access} {address slot value : String} :
    ReadFirst list address slot value ↔
      ((list.filter fun access => access.address = address).find?
        fun access => Touches access slot).bind
          (fun access => if access.opcode = .sload then some access.value else none) =
        some value := by
  have htouches (access : Access) :
      decide (decide (access.address = address) = true ∧ decide (Touches access slot) = true) =
          true ↔
        access.IsAt .sload address slot ∨ access.IsAt .sstore address slot := by
    rw [decide_eq_true_iff, decide_eq_true_iff, decide_eq_true_iff]
    unfold Touches Access.IsAt
    tauto
  rw [List.find?_filter, Option.bind_eq_some_iff]
  constructor
  · rintro ⟨before, access, after, rfl, hat, hvalue, hbefore⟩
    refine ⟨access, ?_, ?_⟩
    · rw [List.find?_eq_some_iff_append]
      refine ⟨(htouches access).mpr (Or.inl hat), before, after, rfl, ?_⟩
      intro earlier hearlier
      rw [Bool.not_eq_true', Bool.eq_false_iff, Ne, htouches, not_or]
      exact hbefore earlier hearlier
    · rw [if_pos hat.1, hvalue]
  · rintro ⟨access, hfind, hvalue⟩
    rw [List.find?_eq_some_iff_append] at hfind
    obtain ⟨htouch, before, after, hsplit, hbefore⟩ := hfind
    split at hvalue
    · rename_i hload
      refine ⟨before, access, after, hsplit, ?_, Option.some.inj hvalue, ?_⟩
      · rcases (htouches access).mp htouch with hat | hat
        · exact hat
        · exact ⟨hload, hat.2⟩
      · intro earlier hearlier
        have hnot := hbefore earlier hearlier
        rw [Bool.not_eq_true', Bool.eq_false_iff, Ne, htouches, not_or] at hnot
        exact hnot
    · cases hvalue

/-- The maps that the accesses of a call leave. -/
theorem recordsAccesses_of_foldl {level : TopLevelCallInfo} {list : List Access}
    (h : level.access = list.foldl addAt .empty) : RecordsAccesses level list := by
  have hat (address : String) : accessAt level address =
      (list.filter fun access => access.address = address).foldl add .empty := by
    unfold accessAt
    rw [h, lookup_foldl_addAt]
    rfl
  have hzero (slot : String) : countOf (some KeyedRecord.empty) slot = 0 := rfl
  constructor
  · intro address slot
    rw [hat, (foldl_add_counts _ _).1, countOf_foldl_countSlot, count_slots]
    exact Nat.zero_add _
  · intro address slot
    rw [hat, (foldl_add_counts _ _).2.1, ← count_slots]
    change countOf (some (List.foldl countSlot .empty _)) slot = _
    rw [countOf_foldl_countSlot, hzero, Nat.zero_add]
  · intro address slot
    rw [hat, (foldl_add_counts _ _).2.2, ← count_slots]
    change countOf (some (List.foldl countSlot .empty _)) slot = _
    rw [countOf_foldl_countSlot, hzero, Nat.zero_add]
  · intro address slot value
    have hreads : AccessInfo.empty.reads.lookup slot = none := rfl
    have hwrites : AccessInfo.empty.writes.lookup slot = none := rfl
    rw [hat, lookup_reads_foldl _ hreads hwrites, readFirst_iff]

end Maps

end Bundler.AccessMaps
