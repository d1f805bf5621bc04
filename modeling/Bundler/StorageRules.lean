import Bundler.Runs
import Bundler.TracerResultParser

/-!
The storage rules of the parser, one slot at a time. A slot is associated with
an address when it is the address itself, or when it is in a structure of at
most 128 slots from the hash of an input that begins with the address. The scan
over the slots of an address remembers only the last one that needs a stake, and
that is enough, since all of them need the same one.
-/
namespace Bundler.StorageRules

open KeyedRecords Runs AsyncPrograms DataModel Validation ByteStrings HexStrings BigIntText Ethers
  Packing Tracer TracerResultParser

/-- Keccak of the bytes that a text stands for. -/
structure KeccakDocumented (keccak256 : String → Except JsError String)
    (hash : List ℕ → List ℕ) : Prop where
  keccak256 : ∀ text bytes, getBytes text = some bytes →
    keccak256 text = .ok (hexString (hash bytes))
  isBytes : ∀ bytes, IsBytes (hash bytes)
  length : ∀ bytes, (hash bytes).length = 32

def LowerHex (text : String) : Prop := ∃ bytes, IsBytes bytes ∧ text = hexString bytes

def IsSlot (text : String) : Prop :=
  ∃ bytes, IsBytes bytes ∧ bytes.length = 32 ∧ text = hexString bytes

section Parsing

/-- The padded bytes of an address come first in what was hashed. -/
def HashedFor (keccak : List String) (address input : List ℕ) : Prop :=
  padLeft 32 address <+: input ∧ ∃ k ∈ keccak, getBytes k = some input

/-- A slot is associated with an address. -/
def Associated (hash : List ℕ → List ℕ) (keccak : List String) (slot addr : String) : Prop :=
  ∃ slotBytes address, getBytes slot = some slotBytes ∧ getBytes addr = some address ∧
    (slotBytes = padLeft 32 address ∨
      ∃ input, HashedFor keccak address input ∧ ofBytes (hash input) ≤ ofBytes slotBytes ∧
        ofBytes slotBytes < ofBytes (hash input) + 128)

/-- The slots that are kept for an address. -/
def slotsOf (entitySlots : EntitySlots) (addr : String) : List String :=
  (entitySlots.lookup addr).getD []

/-- An address with a slot that is kept for it. -/
def Keeps (entitySlots : EntitySlots) (pair : String × String) : Prop :=
  pair.2 ∈ slotsOf entitySlots pair.1

/-- An address with the hash of an input that begins with it. -/
def IsHashOf (hash : List ℕ → List ℕ) (input : List ℕ) (pair : String × String) : Prop :=
  ∃ address, getBytes pair.1 = some address ∧ padLeft 32 address <+: input ∧
    pair.2 = hexString (hash input)

theorem mem_entities (entity : Entity) : entity ∈ entities := by
  cases entity <;> decide

theorem mem_addToSet {set : List String} {value other : String} :
    other ∈ addToSet set value ↔ other ∈ set ∨ other = value := by
  unfold addToSet
  split
  · rename_i hmem
    constructor
    · exact Or.inl
    · rintro (h | rfl)
      · exact h
      · exact hmem
  · rw [List.mem_append, List.mem_singleton]

theorem getBytes_toLowerCase {text : String} {bytes : List ℕ} (h : getBytes text = some bytes) :
    getBytes (toLowerCase text) = some bytes := by
  rw [toLowerCase_of_getBytes h, getBytes_hexString (of_getBytes h).1]

variable {lib : Library} {hash : List ℕ → List ℕ} (hdoc : Ethers.Documented lib.ethers)
  (hkeccak : KeccakDocumented lib.keccak256 hash)

include hdoc

theorem toBytes32_eq {b : String} {bytes : List ℕ} (h : getBytes b = some bytes)
    (hlength : bytes.length = 20) : toBytes32 lib b = .ok (hexString (padLeft 32 bytes)) := by
  have hbytes := (of_getBytes h).1
  unfold toBytes32
  rw [hdoc.hexlify b bytes h]
  change lib.ethers.zeroPadValue (toLowerCase (hexString bytes)) 32 = _
  rw [toLowerCase_hexString hbytes]
  exact hdoc.zeroPadValue _ _ 32 (getBytes_hexString hbytes) (by omega)

include hkeccak

/-- One input adds its hash to the slots of the address it begins with. -/
theorem addEntitySlot_ok {k : String} {input : List ℕ} (hk : IsBytes input)
    (htext : k = hexString input) {info : StakeInfo} (haddress : IsAddress info.addr)
    (entitySlots : EntitySlots) :
    ∃ entitySlots', addEntitySlot lib k entitySlots (some info) = .ok entitySlots' ∧
      ∀ pair, Keeps entitySlots' pair ↔
        Keeps entitySlots pair ∨ (pair.1 = toLowerCase info.addr ∧ IsHashOf hash input pair) := by
  obtain ⟨address, haddr, hlength⟩ := haddress
  have hlower := getBytes_toLowerCase haddr
  have hpadded := toBytes32_eq hdoc hlower hlength
  have hhash := hkeccak.keccak256 k input (htext ▸ getBytes_hexString hk)
  have hstep : addEntitySlot lib k entitySlots (some info) =
      if startsWith k (hexString (padLeft 32 address)) then
        .ok (entitySlots.assign (toLowerCase info.addr)
          (addToSet (slotsOf entitySlots (toLowerCase info.addr)) (hexString (hash input))))
      else .ok (entitySlots.assign (toLowerCase info.addr)
        (slotsOf entitySlots (toLowerCase info.addr))) := by
    change (do
      let addrPadded ← toBytes32 lib (toLowerCase info.addr)
      if startsWith k addrPadded then do
        let hash ← lib.keccak256 k
        pure (entitySlots.assign (toLowerCase info.addr)
          (addToSet (slotsOf entitySlots (toLowerCase info.addr)) hash))
      else pure (entitySlots.assign (toLowerCase info.addr)
        (slotsOf entitySlots (toLowerCase info.addr)))) = _
    rw [hpadded, hhash]
    rfl
  have hstarts : startsWith k (hexString (padLeft 32 address)) = true ↔
      padLeft 32 address <+: input := by
    rw [htext, ← hexString_prefix_iff (isBytes_padLeft 32 (of_getBytes haddr).1) hk]
    exact List.isPrefixOf_iff_prefix
  have hfound (slot : String) : IsHashOf hash input (toLowerCase info.addr, slot) ↔
      padLeft 32 address <+: input ∧ slot = hexString (hash input) := by
    constructor
    · rintro ⟨address', haddr', hbegins, hslot⟩
      obtain rfl := Option.some.inj (hlower.symm.trans haddr')
      exact ⟨hbegins, hslot⟩
    · rintro ⟨hbegins, hslot⟩
      exact ⟨address, hlower, hbegins, hslot⟩
  rw [hstep]
  split
  · rename_i hbegins
    refine ⟨_, rfl, fun ⟨addr, slot⟩ => ?_⟩
    unfold Keeps slotsOf
    rw [Record.lookup_assign]
    split
    · rename_i heq
      obtain rfl : addr = toLowerCase info.addr := heq
      rw [Option.getD_some, mem_addToSet, hfound]
      exact or_congr_right ⟨fun h => ⟨rfl, hstarts.mp hbegins, h⟩, fun h => h.2.2⟩
    · rename_i hne
      exact (or_iff_left fun h => hne h.1).symm
  · rename_i hbegins
    refine ⟨_, rfl, fun ⟨addr, slot⟩ => ?_⟩
    unfold Keeps slotsOf
    rw [Record.lookup_assign]
    split
    · rename_i heq
      obtain rfl : addr = toLowerCase info.addr := heq
      rw [hfound]
      exact (or_iff_left fun h => hbegins (hstarts.mpr h.2.1)).symm
    · rename_i hne
      exact (or_iff_left fun h => hne h.1).symm

/-- The stake infos are of addresses. -/
def AddressesKnown (validationResult : ValidationResult) : Prop :=
  ∀ entity, ∀ info ∈ stakeInfoEntities validationResult entity, IsAddress info.addr

/-- An address in lower case that a stake info is of. -/
def IsKnown (validationResult : ValidationResult) (addr : String) : Prop :=
  ∃ entity, ∃ info ∈ stakeInfoEntities validationResult entity, addr = toLowerCase info.addr

variable {validationResult : ValidationResult} (haddrs : AddressesKnown validationResult)

include haddrs

/-- The slots that are kept are the hashes of the inputs that begin with an
address that is known. -/
theorem parseEntitySlots_ok {keccak : List String} (hlower : ∀ k ∈ keccak, LowerHex k) :
    ∃ entitySlots, parseEntitySlots lib (stakeInfoEntities validationResult) keccak =
        .ok entitySlots ∧
      ∀ pair, Keeps entitySlots pair ↔
        IsKnown validationResult pair.1 ∧
          ∃ k ∈ keccak, ∃ input, getBytes k = some input ∧ IsHashOf hash input pair := by
  have hone (k : String) (hk : LowerHex k) (entitySlots : EntitySlots) :
      ∃ entitySlots', (entities.map (stakeInfoEntities validationResult)).foldlM
          (addEntitySlot lib k) entitySlots = .ok entitySlots' ∧
        ∀ pair, Keeps entitySlots' pair ↔ Keeps entitySlots pair ∨
          ∃ info ∈ entities.map (stakeInfoEntities validationResult), ∃ i ∈ info,
            pair.1 = toLowerCase i.addr ∧
              ∃ input, getBytes k = some input ∧ IsHashOf hash input pair := by
    obtain ⟨input, hinput, htext⟩ := hk
    have hread : getBytes k = some input := htext ▸ getBytes_hexString hinput
    refine foldlM_collects (addEntitySlot lib k) (fun entitySlots info hinfo => ?_) entitySlots
    obtain ⟨entity, _, rfl⟩ := List.mem_map.mp hinfo
    cases hstakes : stakeInfoEntities validationResult entity with
    | none => exact ⟨entitySlots, rfl, fun pair => (or_iff_left nofun).symm⟩
    | some info =>
      obtain ⟨entitySlots', hadd, hkeeps⟩ :=
        addEntitySlot_ok hdoc hkeccak hinput htext (haddrs entity info hstakes) entitySlots
      refine ⟨entitySlots', hadd, fun pair => ?_⟩
      rw [hkeeps, hread]
      simp
  obtain ⟨entitySlots, hparse, hkeeps⟩ :=
    foldlM_collects _ (fun entitySlots k hk => hone k (hlower k hk) entitySlots) .empty
  refine ⟨entitySlots, hparse, fun pair => ?_⟩
  rw [hkeeps]
  constructor
  · rintro (hempty | ⟨k, hk, info, hinfo, i, hi, haddr, hhash⟩)
    · cases hempty
    · obtain ⟨entity, _, rfl⟩ := List.mem_map.mp hinfo
      exact ⟨⟨entity, i, hi, haddr⟩, k, hk, hhash⟩
  · rintro ⟨⟨entity, i, hi, haddr⟩, k, hk, hhash⟩
    exact Or.inr ⟨k, hk, _, List.mem_map_of_mem (mem_entities entity), i, hi, haddr, hhash⟩

end Parsing

section Association

theorem toBigInt_hexString {bytes : List ℕ} (h : IsBytes bytes) (hne : bytes ≠ []) :
    toBigInt (hexString bytes) = .ok (ofBytes bytes : ℤ) := by
  unfold toBigInt
  rw [bigInt_hexString h hne]

/-- The scan finds a structure if the slot is in any of them. -/
theorem inStructure_ok {slotN : ℤ} {k : List String}
    (hk : ∀ k1 ∈ k, ∃ bytes, IsBytes bytes ∧ bytes ≠ [] ∧ k1 = hexString bytes) :
    ∃ found, inStructure slotN k = .ok found ∧
      (found = true ↔ ∃ k1 ∈ k, ∃ bytes, getBytes k1 = some bytes ∧
        (ofBytes bytes : ℤ) ≤ slotN ∧ slotN < ofBytes bytes + 128) := by
  induction k with
  | nil => exact ⟨false, rfl, iff_of_false Bool.false_ne_true nofun⟩
  | cons k1 rest ih =>
    obtain ⟨hfirst, hrest⟩ := List.forall_mem_cons.mp hk
    obtain ⟨bytes, hbytes, hne, rfl⟩ := hfirst
    have hread := getBytes_hexString hbytes
    have hstep : inStructure slotN (hexString bytes :: rest) =
        if (ofBytes bytes : ℤ) ≤ slotN ∧ slotN < ofBytes bytes + 128 then .ok true
        else inStructure slotN rest := by
      conv_lhs => unfold inStructure
      rw [toBigInt_hexString hbytes hne]
      rfl
    rw [hstep]
    split
    · rename_i hin
      exact ⟨true, rfl, iff_of_true rfl ⟨_, List.mem_cons_self, bytes, hread, hin⟩⟩
    · rename_i hout
      obtain ⟨found, hscan, hfound⟩ := ih hrest
      refine ⟨found, hscan, hfound.trans ?_⟩
      simp only [List.mem_cons, exists_eq_or_imp]
      refine (or_iff_right ?_).symm
      rintro ⟨bytes', hread', hin⟩
      obtain rfl := Option.some.inj (hread.symm.trans hread')
      exact hout hin

variable {lib : Library} {hash : List ℕ → List ℕ} {validationResult : ValidationResult}
  {keccak : List String} {entitySlots : EntitySlots}

/-- What parseEntitySlots keeps. -/
def KeepsHashes (hash : List ℕ → List ℕ) (validationResult : ValidationResult)
    (keccak : List String) (entitySlots : EntitySlots) : Prop :=
  ∀ pair, Keeps entitySlots pair ↔
    IsKnown validationResult pair.1 ∧
      ∃ k ∈ keccak, ∃ input, getBytes k = some input ∧ IsHashOf hash input pair

theorem associatedWith_eq {slot addr padded : String} {slotN : ℤ}
    (hpadded : lib.ethers.zeroPadValue addr 32 = .ok padded) (hslot : toBigInt slot = .ok slotN) :
    associatedWith lib entitySlots slot addr =
      if slot = toLowerCase padded then .ok true
      else inStructure slotN (slotsOf entitySlots addr) := by
  unfold associatedWith slotsOf
  rw [hpadded, hslot]
  cases entitySlots.lookup addr with
  | none => rfl
  | some k => rfl

/-- Association with an address that is known is decided by the slots that are
kept for it. -/
theorem associatedWith_ok (hdoc : Ethers.Documented lib.ethers)
    (hkeccak : KeccakDocumented lib.keccak256 hash)
    (hkeeps : KeepsHashes hash validationResult keccak entitySlots) {slot addr : String}
    (hslot : IsSlot slot) (haddr : IsAddress addr) (hknown : IsKnown validationResult addr) :
    ∃ found, associatedWith lib entitySlots slot addr = .ok found ∧
      (found = true ↔ Associated hash keccak slot addr) := by
  obtain ⟨slotBytes, hbytes, hwidth, rfl⟩ := hslot
  obtain ⟨address, haddress, hlength⟩ := haddr
  have hread := getBytes_hexString hbytes
  have hne : slotBytes ≠ [] := List.ne_nil_of_length_pos (by omega)
  have hpad := isBytes_padLeft 32 (of_getBytes haddress).1
  have hassociated : Associated hash keccak (hexString slotBytes) addr ↔
      slotBytes = padLeft 32 address ∨
        ∃ k1 ∈ slotsOf entitySlots addr, ∃ bytes, getBytes k1 = some bytes ∧
          (ofBytes bytes : ℤ) ≤ ofBytes slotBytes ∧
            (ofBytes slotBytes : ℤ) < ofBytes bytes + 128 := by
    constructor
    · rintro ⟨slotBytes', address', hslot, haddr, hcase⟩
      obtain rfl := Option.some.inj (hread.symm.trans hslot)
      obtain rfl := Option.some.inj (haddress.symm.trans haddr)
      refine hcase.imp_right ?_
      rintro ⟨input, ⟨hbegins, k, hk, hinput⟩, hlow, hhigh⟩
      have hkept := (hkeeps (addr, hexString (hash input))).mpr
        ⟨hknown, k, hk, input, hinput, address, haddress, hbegins, rfl⟩
      exact ⟨_, hkept, hash input, getBytes_hexString (hkeccak.isBytes input), by omega, by omega⟩
    · intro hcase
      refine ⟨slotBytes, address, hread, haddress, hcase.imp_right ?_⟩
      rintro ⟨k1, hk1, bytes, hbytes, hlow, hhigh⟩
      obtain ⟨_, k, hk, input, hinput, address', haddr, hbegins, heq⟩ := (hkeeps (addr, k1)).mp hk1
      obtain rfl : k1 = hexString (hash input) := heq
      obtain rfl := Option.some.inj ((getBytes_hexString (hkeccak.isBytes input)).symm.trans hbytes)
      obtain rfl := Option.some.inj (haddress.symm.trans haddr)
      exact ⟨input, ⟨hbegins, k, hk, hinput⟩, by omega, by omega⟩
  have hstep : associatedWith lib entitySlots (hexString slotBytes) addr =
      if slotBytes = padLeft 32 address then .ok true
      else inStructure (ofBytes slotBytes) (slotsOf entitySlots addr) := by
    rw [associatedWith_eq (hdoc.zeroPadValue addr address 32 haddress (by omega))
      (toBigInt_hexString hbytes hne), toLowerCase_hexString hpad]
    simp only [hexString_inj hbytes hpad]
  rw [hstep, hassociated]
  split
  · rename_i heq
    exact ⟨true, rfl, iff_of_true rfl (Or.inl heq)⟩
  · rename_i hother
    rw [or_iff_right hother]
    refine inStructure_ok (fun k1 hk1 => ?_)
    obtain ⟨_, _, _, input, _, _, _, _, rfl⟩ := (hkeeps (addr, k1)).mp hk1
    exact ⟨_, hkeccak.isBytes input, List.ne_nil_of_length_pos (by rw [hkeccak.length]; omega), rfl⟩

end Association

section Slots

variable (hash : List ℕ → List ℕ) (keccak : List String) (userOp : UserOperation)
  (validationResult : ValidationResult) (entity : Entity) (addr : String) (access : AccessInfo)

/-- The operation deploys its account. -/
def HasFactory : Prop := userOp.factory.isSome ∧ userOp.factory ≠ some zeroAddress

def IsWritten (slot : String) : Prop :=
  slot ∈ access.writes.keys ∨ slot ∈ transientKeys access.transientWrites

/-- The rule on a slot of an address that an entity accessed. -/
structure SlotAllowed (slot : String) : Prop where
  ofSender : Associated hash keccak slot (sender userOp) →
    ¬HasFactory userOp ∨
      (entityAddr validationResult entity = sender userOp ∧
        isStaked (entStakes validationResult .factory)) ∨
      isStaked (entStakes validationResult entity)
  ofOthers : ¬Associated hash keccak slot (sender userOp) →
    isStaked (entStakes validationResult entity) ∧
      (Associated hash keccak slot (entityAddr validationResult entity) ∨
        toLowerCase addr = entityAddr validationResult entity ∨ ¬IsWritten access slot)

/-- A slot that no stake makes up for. -/
def Forbidden (slot : String) : Prop :=
  ¬Associated hash keccak slot (sender userOp) ∧
    ¬Associated hash keccak slot (entityAddr validationResult entity) ∧
    toLowerCase addr ≠ entityAddr validationResult entity ∧ IsWritten access slot

def NeedsStake (slot : String) : Prop :=
  Associated hash keccak slot (sender userOp) →
    HasFactory userOp ∧ ¬(entityAddr validationResult entity = sender userOp ∧
      isStaked (entStakes validationResult .factory))

variable {hash keccak userOp validationResult entity addr access}

theorem slotAllowed_iff {slot : String} :
    SlotAllowed hash keccak userOp validationResult entity addr access slot ↔
      ¬Forbidden hash keccak userOp validationResult entity addr access slot ∧
        (NeedsStake hash keccak userOp validationResult entity slot →
          isStaked (entStakes validationResult entity)) := by
  constructor
  · rintro ⟨hofSender, hofOthers⟩
    constructor
    · rintro ⟨hsender, hentity, haddr, hwritten⟩
      obtain ⟨_, hassociated | hown | hunwritten⟩ := hofOthers hsender
      · exact hentity hassociated
      · exact haddr hown
      · exact hunwritten hwritten
    · intro hneeds
      by_cases hsender : Associated hash keccak slot (sender userOp)
      · obtain ⟨hfactory, hspecial⟩ := hneeds hsender
        rcases hofSender hsender with hnone | hstaked | hstaked
        · exact absurd hfactory hnone
        · exact absurd hstaked hspecial
        · exact hstaked
      · exact (hofOthers hsender).1
  · rintro ⟨hforbidden, hstaked⟩
    constructor
    · intro hsender
      by_contra hnone
      obtain ⟨hfactory, hnone⟩ := not_or.mp hnone
      obtain ⟨hspecial, hunstaked⟩ := not_or.mp hnone
      exact hunstaked (hstaked fun _ => ⟨not_not.mp hfactory, hspecial⟩)
    · intro hsender
      refine ⟨hstaked fun h => absurd h hsender, ?_⟩
      by_contra hnone
      obtain ⟨hentity, hnone⟩ := not_or.mp hnone
      obtain ⟨haddr, hwritten⟩ := not_or.mp hnone
      exact hforbidden ⟨hsender, hentity, haddr, not_not.mp hwritten⟩

variable {lib : Library} {entitySlots : EntitySlots}

theorem isUnwritten_ok (htransient : access.transientWrites.isSome) (slot : String) :
    ∃ unwritten, isUnwritten access slot = .ok unwritten ∧
      (unwritten = true ↔ ¬IsWritten access slot) := by
  obtain ⟨transientWrites, htransient⟩ := Option.isSome_iff_exists.mp htransient
  have hkeys : transientKeys access.transientWrites = transientWrites.keys := by
    rw [htransient]
    rfl
  unfold isUnwritten IsWritten
  rw [hkeys, htransient, ← Record.isSome_lookup_iff, ← Record.isSome_lookup_iff]
  split
  · rename_i hwritten
    exact ⟨false, rfl, iff_of_false Bool.false_ne_true fun h => h (Or.inl hwritten)⟩
  · rename_i hwritten
    refine ⟨_, rfl, ?_⟩
    rw [or_iff_right hwritten, Option.isNone_iff_eq_none, Option.not_isSome_iff_eq_none]

theorem checkSlot_eq {slot : String} {ofSender ofEntity unwritten : Bool}
    (hsender : associatedWith lib entitySlots slot (sender userOp) = .ok ofSender)
    (hentity : associatedWith lib entitySlots slot (entityAddr validationResult entity) =
      .ok ofEntity)
    (hunwritten : isUnwritten access slot = .ok unwritten) (requireStakeSlot : Option String) :
    checkSlot lib userOp validationResult entitySlots entity addr access requireStakeSlot slot =
      if ofSender then
        if userOp.factory.isSome ∧ userOp.factory ≠ some zeroAddress then
          if entityAddr validationResult entity = sender userOp ∧
              isStaked (entStakes validationResult .factory) then
            .ok requireStakeSlot
          else .ok (some slot)
        else .ok requireStakeSlot
      else if ofEntity then .ok (some slot)
      else if toLowerCase addr = entityAddr validationResult entity then .ok (some slot)
      else if unwritten then .ok (some slot)
      else .error (forbiddenAccess validationResult entity addr access slot) := by
  unfold checkSlot
  rw [hsender, hentity, hunwritten]
  rfl

/-- What can be said of the slots of an address before they are scanned. -/
structure Decided (lib : Library) (entitySlots : EntitySlots) (hash : List ℕ → List ℕ)
    (keccak : List String) (userOp : UserOperation) (validationResult : ValidationResult)
    (entity : Entity) (access : AccessInfo) (slot : String) : Prop where
  ofSender : ∃ found, associatedWith lib entitySlots slot (sender userOp) = .ok found ∧
    (found = true ↔ Associated hash keccak slot (sender userOp))
  ofEntity : ∃ found,
    associatedWith lib entitySlots slot (entityAddr validationResult entity) = .ok found ∧
      (found = true ↔ Associated hash keccak slot (entityAddr validationResult entity))
  transientWrites : access.transientWrites.isSome

/-- A slot is refused if it is forbidden, and remembered if it needs a stake. -/
theorem checkSlot_ok {slot : String}
    (h : Decided lib entitySlots hash keccak userOp validationResult entity access slot)
    (requireStakeSlot : Option String) :
    (Forbidden hash keccak userOp validationResult entity addr access slot ∧
        ∃ e, checkSlot lib userOp validationResult entitySlots entity addr access requireStakeSlot
          slot = .error e) ∨
      (¬Forbidden hash keccak userOp validationResult entity addr access slot ∧
        ∃ next, checkSlot lib userOp validationResult entitySlots entity addr access
            requireStakeSlot slot = .ok next ∧
          (next.isSome ↔ requireStakeSlot.isSome ∨
            NeedsStake hash keccak userOp validationResult entity slot)) := by
  obtain ⟨ofSender, hsender, hsender'⟩ := h.ofSender
  obtain ⟨ofEntity, hentity, hentity'⟩ := h.ofEntity
  obtain ⟨unwritten, hunwritten, hunwritten'⟩ := isUnwritten_ok h.transientWrites slot
  rw [checkSlot_eq hsender hentity hunwritten]
  cases ofSender with
  | true =>
    have hassociated := hsender'.mp rfl
    refine Or.inr ⟨fun hforbidden => hforbidden.1 hassociated, ?_⟩
    rw [if_pos rfl]
    by_cases hfactory : userOp.factory.isSome ∧ userOp.factory ≠ some zeroAddress
    · rw [if_pos hfactory]
      by_cases hspecial : entityAddr validationResult entity = sender userOp ∧
          isStaked (entStakes validationResult .factory)
      · rw [if_pos hspecial]
        exact ⟨_, rfl, (or_iff_left fun hneeds => (hneeds hassociated).2 hspecial).symm⟩
      · rw [if_neg hspecial]
        exact ⟨_, rfl, iff_of_true rfl (Or.inr fun _ => ⟨hfactory, hspecial⟩)⟩
    · rw [if_neg hfactory]
      exact ⟨_, rfl, (or_iff_left fun hneeds => hfactory (hneeds hassociated).1).symm⟩
  | false =>
    have hother : ¬Associated hash keccak slot (sender userOp) :=
      fun h => Bool.false_ne_true (hsender'.mpr h)
    rw [if_neg Bool.false_ne_true]
    by_cases hexcused : ofEntity = true ∨ toLowerCase addr = entityAddr validationResult entity ∨
        unwritten = true
    · refine Or.inr ⟨?_, some slot, ?_, iff_of_true rfl (Or.inr fun h => absurd h hother)⟩
      · rintro ⟨_, hentity, haddr, hwritten⟩
        rcases hexcused with h | h | h
        · exact hentity (hentity'.mp h)
        · exact haddr h
        · exact hunwritten'.mp h hwritten
      · split
        · rfl
        · split
          · rfl
          · split
            · rfl
            · rename_i hentity haddr hwritten
              rcases hexcused with h | h | h
              · exact absurd h hentity
              · exact absurd h haddr
              · exact absurd h hwritten
    · obtain ⟨hentity, hexcused⟩ := not_or.mp hexcused
      obtain ⟨haddr, hwritten⟩ := not_or.mp hexcused
      refine Or.inl ⟨⟨hother, fun h => hentity (hentity'.mpr h), haddr, ?_⟩, ?_⟩
      · exact not_not.mp fun h => hwritten (hunwritten'.mpr h)
      · rw [if_neg hentity, if_neg haddr, if_neg hwritten]
        exact ⟨_, rfl⟩

/-- The scan over the slots, with the stake it asks for in the end, passes when
every slot is allowed. -/
theorem scan_ok_iff {slots : List String}
    (h : ∀ slot ∈ slots,
      Decided lib entitySlots hash keccak userOp validationResult entity access slot) :
    (∃ last, slots.foldlM (checkSlot lib userOp validationResult entitySlots entity addr access)
        none = .ok last ∧ (last.isSome → isStaked (entStakes validationResult entity))) ↔
      ∀ slot ∈ slots,
        SlotAllowed hash keccak userOp validationResult entity addr access slot := by
  simp only [slotAllowed_iff]
  constructor
  · rintro ⟨last, hscan, hstaked⟩ slot hslot
    have hdone := foldlM_induction _ (I := fun done last => ∀ slot ∈ done,
      ¬Forbidden hash keccak userOp validationResult entity addr access slot ∧
        (NeedsStake hash keccak userOp validationResult entity slot → last.isSome = true))
      (fun done slot requireStakeSlot next hslot hdone hnext => ?_) (fun _ hmem => nomatch hmem)
      hscan
    · obtain ⟨hforbidden, hneeds⟩ := hdone slot hslot
      exact ⟨hforbidden, fun h => hstaked (hneeds h)⟩
    · rcases checkSlot_ok (h slot hslot) requireStakeSlot with
        ⟨_, e, he⟩ | ⟨hallowed, next', hnext', hsome⟩
      · cases hnext.symm.trans he
      · obtain rfl := Except.ok.inj (hnext.symm.trans hnext')
        intro other hother
        rcases List.mem_append.mp hother with hbefore | hnow
        · obtain ⟨hforbidden, hneeds⟩ := hdone other hbefore
          exact ⟨hforbidden, fun h => hsome.mpr (Or.inl (hneeds h))⟩
        · obtain rfl := List.mem_singleton.mp hnow
          exact ⟨hallowed, fun h => hsome.mpr (Or.inr h)⟩
  · intro hallowed
    have hstep : ∀ requireStakeSlot, ∀ slot ∈ slots, ∃ next,
        checkSlot lib userOp validationResult entitySlots entity addr access requireStakeSlot
          slot = .ok next ∧ ∀ _ : Unit, next.isSome = true ↔ requireStakeSlot.isSome = true ∨
            NeedsStake hash keccak userOp validationResult entity slot := by
      intro requireStakeSlot slot hslot
      rcases checkSlot_ok (h slot hslot) requireStakeSlot with
        ⟨hforbidden, _⟩ | ⟨_, next, hnext, hsome⟩
      · exact absurd hforbidden (hallowed slot hslot).1
      · exact ⟨next, hnext, fun _ => hsome⟩
    obtain ⟨last, hscan, hsome⟩ := foldlM_collects _ hstep none
    refine ⟨last, hscan, fun hlast => ?_⟩
    rcases (hsome ()).mp hlast with hnone | ⟨slot, hslot, hneeds⟩
    · cases hnone
    · exact (hallowed slot hslot).2 hneeds

theorem requireStake_ok_iff {level : TopLevelCallInfo} {last : Option String}
    (hstakes : (entStakes validationResult entity).isSome) :
    requireStake lib validationResult entity level addr last = .ok () ↔
      (last.isSome → isStaked (entStakes validationResult entity)) := by
  obtain ⟨info, hinfo⟩ := Option.isSome_iff_exists.mp hstakes
  unfold requireStake
  cases last with
  | none => exact iff_of_true rfl nofun
  | some slot =>
    dsimp only
    rw [if_neg (by rw [hinfo]; exact Option.some_ne_none info), requireCond_ok_iff]
    exact ⟨fun h _ => h, fun h => h rfl⟩

theorem checkAddress_ok_iff {level : TopLevelCallInfo} {entryPointAddress : String}
    (hstakes : (entStakes validationResult entity).isSome)
    (h : ∀ slot ∈ accessedSlots access,
      Decided lib entitySlots hash keccak userOp validationResult entity access slot) :
    checkAddress lib userOp validationResult entryPointAddress entitySlots entity level addr
        access = .ok () ↔
      (toLowerCase addr ≠ sender userOp → toLowerCase addr ≠ toLowerCase entryPointAddress →
        ∀ slot ∈ accessedSlots access,
          SlotAllowed hash keccak userOp validationResult entity addr access slot) := by
  unfold checkAddress
  by_cases hsender : toLowerCase addr = sender userOp
  · rw [if_pos hsender]
    exact iff_of_true rfl fun h => absurd hsender h
  by_cases hentry : toLowerCase addr = toLowerCase entryPointAddress
  · rw [if_neg hsender, if_pos hentry]
    exact iff_of_true rfl fun _ h => absurd hentry h
  rw [if_neg hsender, if_neg hentry, except_bind_eq_ok_iff]
  simp only [requireStake_ok_iff hstakes]
  rw [scan_ok_iff h]
  exact ⟨fun h _ _ => h, fun h => h hsender hentry⟩

end Slots

section Rules

variable (lib : Library) (hash : List ℕ → List ℕ) (userOp : UserOperation)
  (tracerResults : BundlerCollectorReturn) (validationResult : ValidationResult)
  (epAddress : String)

/-- A trace as the tracer reports it, with stake infos for the entities that
were called. -/
structure WellFormed : Prop where
  sender : IsAddress userOp.sender
  senderInfo : ∀ info ∈ validationResult.senderInfo,
    toLowerCase info.addr = toLowerCase userOp.sender
  addresses : AddressesKnown validationResult
  stakeInfo : ∀ entity, (findLevel lib tracerResults entity).isSome →
    (entStakes validationResult entity).isSome
  keccak : ∀ k ∈ tracerResults.keccak, LowerHex k
  slots : ∀ entity, ∀ level ∈ findLevel lib tracerResults entity,
    ∀ entry ∈ level.access.values, ∀ slot ∈ accessedSlots entry.2, IsSlot slot
  transientWrites : ∀ entity, ∀ level ∈ findLevel lib tracerResults entity,
    ∀ entry ∈ level.access.values, entry.2.transientWrites.isSome

/-- The checks of the parser that are not about storage pass. -/
structure OtherChecks : Prop where
  called : tracerResults.callsFromEntryPoint ≠ []
  calls : checkCalls lib tracerResults (toLowerCase epAddress) = .ok ()
  account : (findLevel lib tracerResults .account).isSome
  levels : ∀ entity, ∀ level ∈ findLevel lib tracerResults entity,
    checkOog entity level = .ok () ∧ checkOpcodes validationResult entity level = .ok () ∧
      checkCreate2 entity level = .ok () ∧ checkContractSizes userOp entity level = .ok () ∧
      checkEntryPointCode (toLowerCase epAddress) entity level = .ok ()

/-- Every slot that an entity accessed is allowed, but for the storage of the
sender and of the EntryPoint. -/
def RulesKept : Prop :=
  ∀ entity, ∀ level ∈ findLevel lib tracerResults entity, ∀ entry ∈ level.access.values,
    toLowerCase entry.1 ≠ sender userOp → toLowerCase entry.1 ≠ toLowerCase epAddress →
      ∀ slot ∈ accessedSlots entry.2,
        SlotAllowed hash tracerResults.keccak userOp validationResult entity entry.1 entry.2 slot

variable {lib hash userOp tracerResults validationResult epAddress}

theorem isAddress_toLowerCase {text : String} (h : IsAddress text) :
    IsAddress (toLowerCase text) := by
  obtain ⟨bytes, hbytes, hlength⟩ := h
  exact ⟨bytes, getBytes_toLowerCase hbytes, hlength⟩

theorem isKnown_sender (hwell : WellFormed lib userOp tracerResults validationResult)
    (haccount : (findLevel lib tracerResults .account).isSome) :
    IsKnown validationResult (sender userOp) := by
  obtain ⟨info, hinfo⟩ := Option.isSome_iff_exists.mp (hwell.stakeInfo .account haccount)
  exact ⟨.account, info, hinfo, (hwell.senderInfo info hinfo).symm⟩

variable {entitySlots : EntitySlots} {entity : Entity} {level : TopLevelCallInfo}

theorem decided_of_wellFormed (hdoc : Ethers.Documented lib.ethers)
    (hkeccak : KeccakDocumented lib.keccak256 hash)
    (hwell : WellFormed lib userOp tracerResults validationResult)
    (hkeeps : KeepsHashes hash validationResult tracerResults.keccak entitySlots)
    (hsender : IsKnown validationResult (sender userOp))
    (hlevel : level ∈ findLevel lib tracerResults entity) {entry : String × AccessInfo}
    (hentry : entry ∈ level.access.values) {slot : String} (hslot : slot ∈ accessedSlots entry.2) :
    Decided lib entitySlots hash tracerResults.keccak userOp validationResult entity entry.2
      slot := by
  have hword := hwell.slots entity level hlevel entry hentry slot hslot
  obtain ⟨info, hinfo⟩ := Option.isSome_iff_exists.mp
    (hwell.stakeInfo entity (Option.isSome_iff_exists.mpr ⟨level, hlevel⟩))
  have haddr : entityAddr validationResult entity = toLowerCase info.addr := by
    unfold entityAddr
    rw [hinfo]
    rfl
  refine ⟨associatedWith_ok hdoc hkeccak hkeeps hword (isAddress_toLowerCase hwell.sender) hsender,
    ?_, hwell.transientWrites entity level hlevel entry hentry⟩
  rw [haddr]
  exact associatedWith_ok hdoc hkeccak hkeeps hword
    (isAddress_toLowerCase (hwell.addresses entity info hinfo)) ⟨entity, info, hinfo, rfl⟩

theorem checkAccess_ok_iff (hdoc : Ethers.Documented lib.ethers)
    (hkeccak : KeccakDocumented lib.keccak256 hash)
    (hwell : WellFormed lib userOp tracerResults validationResult)
    (hkeeps : KeepsHashes hash validationResult tracerResults.keccak entitySlots)
    (hsender : IsKnown validationResult (sender userOp))
    (hlevel : level ∈ findLevel lib tracerResults entity) :
    checkAccess lib userOp validationResult (toLowerCase epAddress) entitySlots entity level =
        .ok () ↔
      ∀ entry ∈ level.access.values, toLowerCase entry.1 ≠ sender userOp →
        toLowerCase entry.1 ≠ toLowerCase epAddress → ∀ slot ∈ accessedSlots entry.2,
          SlotAllowed hash tracerResults.keccak userOp validationResult entity entry.1 entry.2
            slot := by
  have hstakes := hwell.stakeInfo entity (Option.isSome_iff_exists.mpr ⟨level, hlevel⟩)
  unfold checkAccess
  rw [forM_ok_iff]
  refine forall₂_congr fun entry hentry => ?_
  rw [checkAddress_ok_iff hstakes fun slot hslot =>
    decided_of_wellFormed hdoc hkeccak hwell hkeeps hsender hlevel hentry hslot,
    toLowerCase_toLowerCase]

/-- The storage rules are decided exactly. -/
theorem storage_rules_iff (hdoc : Ethers.Documented lib.ethers)
    (hkeccak : KeccakDocumented lib.keccak256 hash)
    (hwell : WellFormed lib userOp tracerResults validationResult)
    (hother : OtherChecks lib userOp tracerResults validationResult epAddress) :
    (∃ result, tracerResultParser lib userOp tracerResults validationResult epAddress =
        .ok result) ↔
      RulesKept lib hash userOp tracerResults validationResult epAddress := by
  obtain ⟨entitySlots, hparse, hkeeps⟩ :=
    parseEntitySlots_ok hdoc hkeccak hwell.addresses hwell.keccak
  have hsender := isKnown_sender hwell hother.account
  rw [tracerResultParser_ok_iff]
  constructor
  · rintro ⟨_, _, entitySlots', hparse', hentities⟩ entity level hlevel
    obtain rfl := Except.ok.inj (hparse.symm.trans hparse')
    obtain ⟨_, hchecks⟩ := checkEntity_ok_iff.mp (hentities entity (mem_entities entity))
    obtain ⟨_, _, _, hpassed, _⟩ := hchecks level hlevel
    exact (checkAccess_ok_iff hdoc hkeccak hwell hkeeps hsender hlevel).mp hpassed
  · intro hrules
    refine ⟨hother.called, hother.calls, entitySlots, hparse, fun entity _ => ?_⟩
    refine checkEntity_ok_iff.mpr ⟨fun haccount => haccount ▸ hother.account, ?_⟩
    intro level hlevel
    obtain ⟨hoog, hopcodes, hcreate2, hsizes, hcode⟩ := hother.levels entity level hlevel
    have hpassed := (checkAccess_ok_iff hdoc hkeccak hwell hkeeps hsender hlevel).mpr
      (hrules entity level hlevel)
    exact ⟨hoog, hopcodes, hcreate2, hpassed, hsizes, hcode⟩

end Rules

section Concrete

/-- The account's key in the mapping at slot 0, as it is hashed. -/
def mappingInput : List ℕ := padLeft 32 (toBytes 20 (0xa1 * 256 ^ 19)) ++ toBytes 32 0

def mappingSlot : ℕ := 0x12e6a1150a2e142dee0219b5ba3fb88b0f4088446968db2aaab01dc4f85b00f4

/-- Keccak on that input. -/
def mappingHash (bytes : List ℕ) : List ℕ :=
  toBytes 32 (if bytes = mappingInput then mappingSlot else 0)

theorem mappingHash_documented :
    KeccakDocumented (libraryWith mappingHash).keccak256 mappingHash where
  keccak256 text bytes h := by
    change orThrow ((getBytes text).map _) = _
    rw [h]
    rfl
  isBytes _ := isBytes_toBytes _ _
  length _ := length_toBytes _ _

/-- The second slot of the account's structure in a token is read. -/
def tokenAccess : AccessInfo where
  reads := Record.assign .empty (hexString (toBytes 32 (mappingSlot + 1))) hash₁
  writes := .empty
  transientReads := some .empty
  transientWrites := some .empty

def accountLevel : TopLevelCallInfo where
  topLevelMethodSig := selector .account
  topLevelTargetAddress := account
  opcodes := Record.assign .empty "SLOAD" 1
  access := Record.assign .empty otherAccount tokenAccess
  contractSize := Record.assign .empty otherAccount ⟨"STATICCALL", 500⟩
  extCodeAccessInfo := .empty

def tokenReading : BundlerCollectorReturn where
  callsFromEntryPoint := [accountLevel]
  keccak := [hexString mappingInput]
  calls := [.inr (returning "0x")]
  logs := []

def unstakedAccount : ValidationResult where
  returnInfo := ⟨60000, 0, false, 0, 0⟩
  senderInfo := some ⟨account, 0, 0⟩

theorem eq_accountLevel {entity : Entity} {level : TopLevelCallInfo}
    (h : level ∈ findLevel (libraryWith mappingHash) tokenReading entity) :
    entity = .account ∧ level = accountLevel := by
  cases entity with
  | factory => cases h
  | account =>
    cases h
    exact ⟨rfl, rfl⟩
  | paymaster => cases h

theorem isBytes_mappingInput : IsBytes mappingInput :=
  isBytes_append.mpr ⟨isBytes_padLeft 32 (isBytes_toBytes _ _), isBytes_toBytes _ _⟩

theorem tokenReading_wellFormed :
    WellFormed (libraryWith mappingHash) (plainOp account 1 10 none none) tokenReading
      unstakedAccount where
  sender := ⟨_, rfl, rfl⟩
  senderInfo := by
    rintro _ ⟨⟩
    rfl
  addresses := by
    intro entity info hinfo
    cases entity with
    | factory => cases hinfo
    | account =>
      cases hinfo
      exact ⟨_, rfl, rfl⟩
    | paymaster => cases hinfo
  stakeInfo := by
    intro entity hlevel
    obtain ⟨level, hlevel⟩ := Option.isSome_iff_exists.mp hlevel
    obtain ⟨rfl, rfl⟩ := eq_accountLevel hlevel
    rfl
  keccak := List.forall_mem_singleton.mpr ⟨mappingInput, isBytes_mappingInput, rfl⟩
  slots := by
    intro entity level hlevel
    obtain ⟨rfl, rfl⟩ := eq_accountLevel hlevel
    refine List.forall_mem_singleton.mpr (List.forall_mem_singleton.mpr ?_)
    exact ⟨_, isBytes_toBytes _ _, length_toBytes _ _, rfl⟩
  transientWrites := by
    intro entity level hlevel
    obtain ⟨rfl, rfl⟩ := eq_accountLevel hlevel
    exact List.forall_mem_singleton.mpr rfl

theorem tokenReading_otherChecks :
    OtherChecks (libraryWith mappingHash) (plainOp account 1 10 none none) tokenReading
      unstakedAccount entryPoint where
  called := List.cons_ne_nil _ _
  calls := rfl
  account := rfl
  levels := by
    intro entity level hlevel
    obtain ⟨rfl, rfl⟩ := eq_accountLevel hlevel
    exact ⟨rfl, rfl, rfl, rfl, rfl⟩

theorem token_reading_accepted :
    ∃ result, tracerResultParser (libraryWith mappingHash) (plainOp account 1 10 none none)
      tokenReading unstakedAccount entryPoint = .ok result := by
  refine (storage_rules_iff documentedFunctions_documented mappingHash_documented
    tokenReading_wellFormed tokenReading_otherChecks).mpr ?_
  intro entity level hlevel
  obtain ⟨rfl, rfl⟩ := eq_accountLevel hlevel
  refine List.forall_mem_singleton.mpr fun _ _ => List.forall_mem_singleton.mpr ?_
  have hassociated : Associated mappingHash tokenReading.keccak
      (hexString (toBytes 32 (mappingSlot + 1))) (sender (plainOp account 1 10 none none)) := by
    have haccount : getBytes (sender (plainOp account 1 10 none none)) =
        some (toBytes 20 (0xa1 * 256 ^ 19)) := by decide +kernel
    have hhashed : HashedFor tokenReading.keccak (toBytes 20 (0xa1 * 256 ^ 19)) mappingInput :=
      ⟨List.prefix_append _ _, _, List.mem_singleton_self _,
        getBytes_hexString isBytes_mappingInput⟩
    refine ⟨_, _, getBytes_hexString (isBytes_toBytes _ _), haccount,
      Or.inr ⟨mappingInput, hhashed, ?_⟩⟩
    decide +kernel
  exact ⟨fun _ => Or.inl fun hfactory => Bool.false_ne_true hfactory.1,
    fun h => absurd hassociated h⟩

end Concrete

end Bundler.StorageRules
