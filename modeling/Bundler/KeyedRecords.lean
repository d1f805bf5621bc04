import Mathlib.Data.List.Nodup
import Mathlib.Data.List.Perm.Basic

/-!
Records whose values carry their own key, kept in insertion order.
Inserting under a key already present replaces the value where it stands;
any other insertion goes to the end. Distinctness of the keys is a field,
so a record with two values under one key cannot be built. Counts over the
values are computed from the two permutation lemmas at the end.
-/
namespace Bundler.KeyedRecords

universe u v

structure KeyedRecord {κ : Type u} {α : Type v} (key : α → κ) where
  values : List α
  nodup : (values.map key).Nodup

namespace KeyedRecord

variable {κ : Type u} {α : Type v} {key : α → κ}

@[ext] theorem ext {r s : KeyedRecord key} (h : r.values = s.values) : r = s := by
  cases r
  cases s
  cases h
  rfl

def empty : KeyedRecord key := ⟨[], List.nodup_nil⟩

instance : Inhabited (KeyedRecord key) := ⟨empty⟩

/-- Two values of a record under one key are the same value. -/
theorem eq_of_key_eq (r : KeyedRecord key) {v w : α} (hv : v ∈ r.values) (hw : w ∈ r.values)
    (h : key v = key w) : v = w :=
  List.inj_on_of_nodup_map r.nodup hv hw h

theorem nodup_values (r : KeyedRecord key) : r.values.Nodup := List.Nodup.of_map key r.nodup

variable [DecidableEq κ]

def get (r : KeyedRecord key) (k : κ) : Option α :=
  r.values.find? (fun v => key v = k)

def delete (r : KeyedRecord key) (k : κ) : KeyedRecord key where
  values := r.values.filter (fun v => key v ≠ k)
  nodup := r.nodup.sublist (List.filter_sublist.map key)

/-- The value list of an insertion: replace in place, or append. -/
def insertValues (values : List α) (key : α → κ) (v : α) : List α :=
  if key v ∈ values.map key then values.map (fun w => if key w = key v then v else w)
  else values ++ [v]

theorem insertValues_keys (values : List α) (v : α) :
    (insertValues values key v).map key =
      if key v ∈ values.map key then values.map key else values.map key ++ [key v] := by
  unfold insertValues
  split
  · rw [List.map_map]
    apply List.map_congr_left
    intro w _
    by_cases h : key w = key v <;> simp [h]
  · simp

def insert (r : KeyedRecord key) (v : α) : KeyedRecord key where
  values := insertValues r.values key v
  nodup := by
    rw [insertValues_keys]
    split
    · exact r.nodup
    · rename_i h
      exact List.nodup_append'.mpr ⟨r.nodup, List.nodup_singleton _, by simpa using h⟩

theorem get_eq_some_iff (r : KeyedRecord key) (k : κ) (v : α) :
    r.get k = some v ↔ v ∈ r.values ∧ key v = k := by
  constructor
  · intro h
    exact ⟨List.mem_of_find?_eq_some h, by simpa using List.find?_some h⟩
  · rintro ⟨hv, rfl⟩
    cases h : r.get (key v) with
    | none =>
      have hnone := List.find?_eq_none.mp h v hv
      simp at hnone
    | some w =>
      have hw := List.mem_of_find?_eq_some h
      have hk : key w = key v := by simpa using List.find?_some h
      rw [r.eq_of_key_eq hw hv hk]

theorem get_eq_none_iff (r : KeyedRecord key) (k : κ) :
    r.get k = none ↔ ∀ v ∈ r.values, key v ≠ k := by
  simp [get]

theorem isSome_get_iff (r : KeyedRecord key) (k : κ) :
    (r.get k).isSome ↔ k ∈ r.values.map key := by
  simp [get]

theorem get_key (r : KeyedRecord key) {v : α} (hv : v ∈ r.values) : r.get (key v) = some v :=
  (r.get_eq_some_iff _ _).mpr ⟨hv, rfl⟩

@[simp] theorem mem_delete (r : KeyedRecord key) (k : κ) (v : α) :
    v ∈ (r.delete k).values ↔ v ∈ r.values ∧ key v ≠ k := by
  simp [delete]

@[simp] theorem mem_insert (r : KeyedRecord key) (v w : α) :
    w ∈ (r.insert v).values ↔ w = v ∨ (w ∈ r.values ∧ key w ≠ key v) := by
  change w ∈ insertValues r.values key v ↔ _
  unfold insertValues
  split
  · rename_i h
    obtain ⟨u, hu, huv⟩ := List.mem_map.mp h
    constructor
    · intro hw
      obtain ⟨x, hx, rfl⟩ := List.mem_map.mp hw
      by_cases hk : key x = key v
      · exact Or.inl (if_pos hk)
      · rw [if_neg hk]
        exact Or.inr ⟨hx, hk⟩
    · rintro (rfl | ⟨hw, hk⟩)
      · exact List.mem_map.mpr ⟨u, hu, if_pos huv⟩
      · exact List.mem_map.mpr ⟨w, hw, if_neg hk⟩
  · rename_i h
    have hne : ∀ x ∈ r.values, key x ≠ key v := fun x hx hk => h (List.mem_map.mpr ⟨x, hx, hk⟩)
    rw [List.mem_append, List.mem_singleton]
    constructor
    · rintro (hw | rfl)
      · exact Or.inr ⟨hw, hne w hw⟩
      · exact Or.inl rfl
    · rintro (rfl | ⟨hw, _⟩)
      · exact Or.inr rfl
      · exact Or.inl hw

@[simp] theorem get_delete_self (r : KeyedRecord key) (k : κ) : (r.delete k).get k = none := by
  rw [get_eq_none_iff]
  intro v hv
  exact ((r.mem_delete k v).mp hv).2

theorem get_delete_ne (r : KeyedRecord key) {k k' : κ} (h : k' ≠ k) :
    (r.delete k).get k' = r.get k' := by
  apply Option.ext
  intro v
  rw [get_eq_some_iff, get_eq_some_iff, mem_delete]
  constructor
  · rintro ⟨⟨hv, _⟩, hk⟩
    exact ⟨hv, hk⟩
  · rintro ⟨hv, hk⟩
    exact ⟨⟨hv, hk ▸ h⟩, hk⟩

@[simp] theorem get_insert_self (r : KeyedRecord key) (v : α) :
    (r.insert v).get (key v) = some v := by
  rw [get_eq_some_iff, mem_insert]
  exact ⟨Or.inl rfl, rfl⟩

theorem get_insert_ne (r : KeyedRecord key) {v : α} {k : κ} (h : k ≠ key v) :
    (r.insert v).get k = r.get k := by
  apply Option.ext
  intro w
  rw [get_eq_some_iff, get_eq_some_iff, mem_insert]
  constructor
  · rintro ⟨rfl | ⟨hw, _⟩, hk⟩
    · exact False.elim (h hk.symm)
    · exact ⟨hw, hk⟩
  · rintro ⟨hw, hk⟩
    exact ⟨Or.inr ⟨hw, hk ▸ h⟩, hk⟩

theorem get_insert (r : KeyedRecord key) (v : α) (k : κ) :
    (r.insert v).get k = if k = key v then some v else r.get k := by
  split
  · rename_i h
    rw [h, get_insert_self]
  · rename_i h
    exact r.get_insert_ne h

theorem get_delete (r : KeyedRecord key) (k k' : κ) :
    (r.delete k).get k' = if k' = k then none else r.get k' := by
  split
  · rename_i h
    rw [h, get_delete_self]
  · rename_i h
    exact r.get_delete_ne h

theorem delete_of_get_eq_none (r : KeyedRecord key) {k : κ} (h : r.get k = none) :
    r.delete k = r := by
  apply ext
  apply List.filter_eq_self.mpr
  intro v hv
  simpa using (r.get_eq_none_iff k).mp h v hv

/-- A record is, up to order, an entry and what is left when its key is deleted. -/
theorem perm_cons_delete (r : KeyedRecord key) {k : κ} {v : α} (h : r.get k = some v) :
    r.values.Perm (v :: (r.delete k).values) := by
  obtain ⟨hv, rfl⟩ := (r.get_eq_some_iff k v).mp h
  apply (List.perm_ext_iff_of_nodup r.nodup_values _).mpr
  · intro w
    rw [List.mem_cons, mem_delete]
    constructor
    · intro hw
      by_cases hk : key w = key v
      · exact Or.inl (r.eq_of_key_eq hw hv hk)
      · exact Or.inr ⟨hw, hk⟩
    · rintro (rfl | ⟨hw, _⟩)
      · exact hv
      · exact hw
  · exact List.nodup_cons.mpr ⟨by simp, (r.delete (key v)).nodup_values⟩

/-- Inserting is, up to order, deleting the key and adding the value. -/
theorem perm_insert (r : KeyedRecord key) (v : α) :
    (r.insert v).values.Perm (v :: (r.delete (key v)).values) := by
  apply (List.perm_ext_iff_of_nodup (r.insert v).nodup_values _).mpr
  · intro w
    rw [mem_insert, List.mem_cons, mem_delete]
  · exact List.nodup_cons.mpr ⟨by simp, (r.delete (key v)).nodup_values⟩

/-- A property of the values that the insertion does not change keeps its list. -/
theorem map_insert_of_get {β : Type*} (r : KeyedRecord key) (f : α → β) {v w : α}
    (h : r.get (key v) = some w) (hf : f v = f w) : (r.insert v).values.map f = r.values.map f := by
  obtain ⟨hw, hk⟩ := (r.get_eq_some_iff _ _).mp h
  have hmem : key v ∈ r.values.map key := List.mem_map.mpr ⟨w, hw, hk⟩
  change (insertValues r.values key v).map f = _
  unfold insertValues
  rw [if_pos hmem, List.map_map]
  apply List.map_congr_left
  intro x hx
  by_cases hx' : key x = key v
  · have hxw : x = w := r.eq_of_key_eq hx hw (hx'.trans hk.symm)
    subst hxw
    simp [hk, hf]
  · simp [hx']

theorem countP_of_get (r : KeyedRecord key) (p : α → Bool) {k : κ} {v : α}
    (h : r.get k = some v) :
    r.values.countP p = (r.delete k).values.countP p + if p v then 1 else 0 := by
  rw [(r.perm_cons_delete h).countP_eq p, List.countP_cons]

theorem countP_insert (r : KeyedRecord key) (p : α → Bool) (v : α) :
    (r.insert v).values.countP p =
      (r.delete (key v)).values.countP p + if p v then 1 else 0 := by
  rw [(r.perm_insert v).countP_eq p, List.countP_cons]

theorem countP_delete_le (r : KeyedRecord key) (p : α → Bool) (k : κ) :
    (r.delete k).values.countP p ≤ r.values.countP p :=
  List.Sublist.countP_le List.filter_sublist

@[simp] theorem mem_foldl_delete (r : KeyedRecord key) (ws : List α) (v : α) :
    v ∈ (ws.foldl (fun r w => r.delete (key w)) r).values ↔
      v ∈ r.values ∧ ∀ w ∈ ws, key v ≠ key w := by
  induction ws generalizing r with
  | nil => simp
  | cons w ws ih =>
    rw [List.foldl_cons, ih, mem_delete, List.forall_mem_cons, and_assoc]

theorem values_foldl_delete (r : KeyedRecord key) (ws : List α) :
    (ws.foldl (fun r w => r.delete (key w)) r).values =
      r.values.filter (fun v => decide (∀ w ∈ ws, key v ≠ key w)) := by
  induction ws generalizing r with
  | nil => simp
  | cons w ws ih =>
    rw [List.foldl_cons, ih]
    change (r.values.filter (fun v => key v ≠ key w)).filter _ = _
    rw [List.filter_filter]
    refine List.filter_congr ?_
    intro v _
    simp [Bool.and_comm]

/-- Deleting the values that meet p one by one leaves the others, in order. -/
theorem values_foldl_delete_filter (r : KeyedRecord key) (p : α → Bool) :
    ((r.values.filter p).foldl (fun r w => r.delete (key w)) r).values =
      r.values.filter (fun v => !p v) := by
  rw [values_foldl_delete]
  refine List.filter_congr ?_
  intro v hv
  cases hp : p v with
  | true =>
    have hself : ¬∀ w ∈ r.values.filter p, key v ≠ key w := by
      intro h
      exact h v (List.mem_filter.mpr ⟨hv, hp⟩) rfl
    simpa using hself
  | false =>
    refine decide_eq_true ?_
    intro w hw hkey
    obtain ⟨hw, hpw⟩ := List.mem_filter.mp hw
    rw [r.eq_of_key_eq hv hw hkey, hpw] at hp
    cases hp

theorem countP_foldl_delete_le (r : KeyedRecord key) (p : α → Bool) (ws : List α) :
    (ws.foldl (fun r w => r.delete (key w)) r).values.countP p ≤ r.values.countP p := by
  induction ws generalizing r with
  | nil => exact Nat.le_refl _
  | cons w ws ih => exact Nat.le_trans (ih (r.delete (key w))) (r.countP_delete_le p (key w))

section SecondaryKeys

variable {ι : Type*} (f : α → ι)

/-- No two values under different keys agree in f. -/
def UniqueBy (r : KeyedRecord key) : Prop :=
  ∀ v ∈ r.values, ∀ w ∈ r.values, f v = f w → key v = key w

instance [DecidableEq ι] (r : KeyedRecord key) : Decidable (r.UniqueBy f) :=
  inferInstanceAs (Decidable (∀ v ∈ r.values, ∀ w ∈ r.values, f v = f w → key v = key w))

/-- Any two values under different keys are related in f. -/
def ApartBy (R : ι → ι → Prop) (r : KeyedRecord key) : Prop :=
  ∀ v ∈ r.values, ∀ w ∈ r.values, key v ≠ key w → R (f v) (f w)

instance (R : ι → ι → Prop) [DecidableRel R] (r : KeyedRecord key) : Decidable (r.ApartBy f R) :=
  inferInstanceAs (Decidable (∀ v ∈ r.values, ∀ w ∈ r.values, key v ≠ key w → R (f v) (f w)))

variable {f} {R : ι → ι → Prop} {r s : KeyedRecord key}

omit [DecidableEq κ] in
theorem uniqueBy_iff_apartBy : r.UniqueBy f ↔ r.ApartBy f (· ≠ ·) := by
  apply forall₄_congr
  intro v _ w _
  exact not_imp_not.symm

omit [DecidableEq κ] in
theorem ApartBy.of_subset (h : s.ApartBy f R) (hsub : ∀ v ∈ r.values, v ∈ s.values) :
    r.ApartBy f R :=
  fun v hv w hw => h v (hsub v hv) w (hsub w hw)

/-- Insertion keeps the values related exactly when the new one is related,
both ways round, to every value under another key. -/
theorem ApartBy.insert_iff (h : r.ApartBy f R) (v : α) :
    (r.insert v).ApartBy f R ↔
      ∀ w ∈ r.values, key w ≠ key v → R (f w) (f v) ∧ R (f v) (f w) := by
  constructor
  · intro hinsert w hw hne
    have hw' := (r.mem_insert v w).mpr (Or.inr ⟨hw, hne⟩)
    have hv' := (r.mem_insert v v).mpr (Or.inl rfl)
    exact ⟨hinsert w hw' v hv' hne, hinsert v hv' w hw' hne.symm⟩
  · intro hapart x hx y hy hne
    rcases (r.mem_insert v x).mp hx with rfl | ⟨hxold, _⟩
    · rcases (r.mem_insert x y).mp hy with rfl | ⟨hyold, _⟩
      · exact absurd rfl hne
      · exact (hapart y hyold hne.symm).2
    · rcases (r.mem_insert v y).mp hy with rfl | ⟨hyold, _⟩
      · exact (hapart x hxold hne).1
      · exact h x hxold y hyold hne

omit [DecidableEq κ] in
theorem ApartBy.of_map_eq (h : s.ApartBy f R)
    (hmap : r.values.map (fun v => (key v, f v)) = s.values.map (fun v => (key v, f v))) :
    r.ApartBy f R := by
  have hmem : ∀ v ∈ r.values, ∃ w ∈ s.values, key w = key v ∧ f w = f v := by
    intro v hv
    have hv' : (key v, f v) ∈ s.values.map (fun v => (key v, f v)) :=
      hmap ▸ List.mem_map.mpr ⟨v, hv, rfl⟩
    obtain ⟨w, hw, heq⟩ := List.mem_map.mp hv'
    exact ⟨w, hw, (Prod.mk.inj heq).1, (Prod.mk.inj heq).2⟩
  intro v hv w hw hne
  obtain ⟨v', hv', hkv, hfv⟩ := hmem v hv
  obtain ⟨w', hw', hkw, hfw⟩ := hmem w hw
  rw [← hfv, ← hfw]
  exact h v' hv' w' hw' (by rwa [hkv, hkw])

omit [DecidableEq κ] in
theorem UniqueBy.of_subset (h : s.UniqueBy f) (hsub : ∀ v ∈ r.values, v ∈ s.values) :
    r.UniqueBy f :=
  fun v hv w hw => h v (hsub v hv) w (hsub w hw)

/-- Insertion keeps f unique exactly when no value under another key has
the inserted value's f. -/
theorem UniqueBy.insert_iff (h : r.UniqueBy f) (v : α) :
    (r.insert v).UniqueBy f ↔ ∀ w ∈ r.values, key w ≠ key v → f w ≠ f v := by
  rw [uniqueBy_iff_apartBy, ApartBy.insert_iff (uniqueBy_iff_apartBy.mp h)]
  apply forall₃_congr
  intro w _ _
  exact ⟨fun hne => hne.1, fun hne => ⟨hne, hne.symm⟩⟩

omit [DecidableEq κ] in
theorem UniqueBy.of_map_eq (h : s.UniqueBy f)
    (hmap : r.values.map (fun v => (key v, f v)) = s.values.map (fun v => (key v, f v))) :
    r.UniqueBy f :=
  uniqueBy_iff_apartBy.mpr ((uniqueBy_iff_apartBy.mp h).of_map_eq hmap)

end SecondaryKeys

end KeyedRecord

/-- A plain dictionary: the values are key-value pairs. -/
abbrev Record (κ : Type u) (α : Type v) := KeyedRecord (Prod.fst : κ × α → κ)

namespace Record

variable {κ : Type u} {α : Type v} [DecidableEq κ]

def lookup (r : Record κ α) (k : κ) : Option α := (r.get k).map Prod.snd

def assign (r : Record κ α) (k : κ) (a : α) : Record κ α := r.insert (k, a)

def keys (r : Record κ α) : List κ := r.values.map Prod.fst

theorem lookup_assign (r : Record κ α) (k k' : κ) (a : α) :
    (r.assign k a).lookup k' = if k' = k then some a else r.lookup k' := by
  unfold lookup assign
  rw [KeyedRecord.get_insert]
  split
  · rfl
  · rfl

theorem lookup_eq_some_iff (r : Record κ α) (k : κ) (a : α) :
    r.lookup k = some a ↔ (k, a) ∈ r.values := by
  unfold lookup
  rw [Option.map_eq_some_iff]
  constructor
  · rintro ⟨⟨k', a'⟩, hget, rfl⟩
    obtain ⟨hmem, rfl⟩ := (r.get_eq_some_iff _ _).mp hget
    exact hmem
  · intro hmem
    exact ⟨(k, a), (r.get_eq_some_iff _ _).mpr ⟨hmem, rfl⟩, rfl⟩

/-- Assigning what is there already changes nothing. -/
theorem assign_of_lookup {r : Record κ α} {k : κ} {a : α} (h : r.lookup k = some a) :
    r.assign k a = r := by
  have hmem := (r.lookup_eq_some_iff k a).mp h
  apply KeyedRecord.ext
  change KeyedRecord.insertValues r.values Prod.fst (k, a) = r.values
  unfold KeyedRecord.insertValues
  rw [if_pos (List.mem_map_of_mem hmem)]
  refine (List.map_congr_left ?_).trans r.values.map_id
  intro entry hentry
  by_cases hkey : entry.1 = k
  · rw [if_pos hkey, r.eq_of_key_eq hentry hmem hkey]
    rfl
  · rw [if_neg hkey]
    rfl

/-- Folding over a record changes each key at most once, at its own entry. -/
theorem lookup_foldl {β : Type*} {f : Record κ β → κ × α → Record κ β}
    {g : Option β → α → Option β}
    (hf : ∀ acc entry k, (f acc entry).lookup k =
      if k = entry.1 then g (acc.lookup k) entry.2 else acc.lookup k)
    (r : Record κ α) (acc : Record κ β) (k : κ) :
    (r.values.foldl f acc).lookup k =
      match r.lookup k with
      | some a => g (acc.lookup k) a
      | none => acc.lookup k := by
  have hfold (entries : List (κ × α)) (hnodup : (entries.map Prod.fst).Nodup)
      (acc : Record κ β) : (entries.foldl f acc).lookup k =
        match (entries.find? fun entry => entry.1 = k).map Prod.snd with
        | some a => g (acc.lookup k) a
        | none => acc.lookup k := by
    induction entries generalizing acc with
    | nil => rfl
    | cons entry entries ih =>
      rw [List.map_cons, List.nodup_cons] at hnodup
      rw [List.foldl_cons, ih hnodup.2, hf]
      by_cases hkey : entry.1 = k
      · have hnone : entries.find? (fun other => other.1 = k) = none := by
          rw [List.find?_eq_none]
          intro other hother hsame
          have hmem := List.mem_map_of_mem (f := Prod.fst) hother
          rw [of_decide_eq_true hsame, ← hkey] at hmem
          exact hnodup.1 hmem
        rw [hnone, List.find?_cons_of_pos (by simpa using hkey), if_pos hkey.symm]
        rfl
      · rw [List.find?_cons_of_neg (by simpa using hkey), if_neg (Ne.symm hkey)]
  exact hfold r.values r.nodup acc

theorem isSome_lookup_iff (r : Record κ α) (k : κ) : (r.lookup k).isSome ↔ k ∈ r.keys := by
  unfold lookup
  rw [Option.isSome_map]
  exact r.isSome_get_iff k

end Record

end Bundler.KeyedRecords
