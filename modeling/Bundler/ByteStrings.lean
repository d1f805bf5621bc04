import Mathlib.Algebra.Order.Group.Nat
import Mathlib.Data.List.Induction
import Mathlib.Tactic.Linarith
import Mathlib.Tactic.Ring

/-!
Big-endian byte strings of fixed width. A slice of the bytes of a number is
again the bytes of a number, namely of a quotient, so every field packed
into a word is read off by one division and one remainder.
-/
namespace Bundler.ByteStrings

/-- The last width bytes of a number, most significant first. -/
def toBytes : ℕ → ℕ → List ℕ
  | 0, _ => []
  | width + 1, value => toBytes width (value / 256) ++ [value % 256]

def ofBytes (bytes : List ℕ) : ℕ := bytes.foldl (fun value byte => value * 256 + byte) 0

/-- The bytes from start up to, not including, stop. -/
def slice (bytes : List ℕ) (start stop : ℕ) : List ℕ := (bytes.take stop).drop start

theorem toBytes_succ (width value : ℕ) :
    toBytes (width + 1) value = toBytes width (value / 256) ++ [value % 256] := rfl

@[simp] theorem length_toBytes (width value : ℕ) : (toBytes width value).length = width := by
  induction width generalizing value with
  | zero => rfl
  | succ width ih =>
    rw [toBytes_succ, List.length_append, ih]
    rfl

theorem take_toBytes {width stop : ℕ} (h : stop ≤ width) (value : ℕ) :
    (toBytes width value).take stop = toBytes stop (value / 256 ^ (width - stop)) := by
  induction width generalizing value with
  | zero =>
    obtain rfl : stop = 0 := by omega
    rfl
  | succ width ih =>
    by_cases hlast : stop = width + 1
    · subst hlast
      rw [Nat.sub_self, Nat.pow_zero, Nat.div_one, List.take_of_length_le (by simp)]
    · have hle : stop ≤ width := by omega
      have hexp : width + 1 - stop = (width - stop) + 1 := by omega
      rw [toBytes_succ, List.take_append_of_le_length (by simpa using hle), ih hle,
        Nat.div_div_eq_div_mul, hexp, Nat.pow_succ']

theorem drop_toBytes {width start : ℕ} (h : start ≤ width) (value : ℕ) :
    (toBytes width value).drop start = toBytes (width - start) value := by
  induction width generalizing value with
  | zero =>
    obtain rfl : start = 0 := by omega
    rfl
  | succ width ih =>
    by_cases hlast : start = width + 1
    · subst hlast
      rw [Nat.sub_self, List.drop_eq_nil_of_le (by simp)]
      rfl
    · have hle : start ≤ width := by omega
      have hwidth : width + 1 - start = (width - start) + 1 := by omega
      rw [hwidth, toBytes_succ, toBytes_succ,
        List.drop_append_of_le_length (by simpa using hle), ih hle]

theorem slice_toBytes {width start stop : ℕ} (hstart : start ≤ stop) (hstop : stop ≤ width)
    (value : ℕ) :
    slice (toBytes width value) start stop =
      toBytes (stop - start) (value / 256 ^ (width - stop)) := by
  unfold slice
  rw [take_toBytes hstop, drop_toBytes hstart]

theorem ofBytes_append_singleton (bytes : List ℕ) (byte : ℕ) :
    ofBytes (bytes ++ [byte]) = ofBytes bytes * 256 + byte := by
  unfold ofBytes
  rw [List.foldl_append]
  rfl

theorem ofBytes_toBytes (width value : ℕ) :
    ofBytes (toBytes width value) = value % 256 ^ width := by
  induction width generalizing value with
  | zero =>
    rw [Nat.pow_zero, Nat.mod_one]
    rfl
  | succ width ih =>
    rw [toBytes_succ, ofBytes_append_singleton, ih, Nat.pow_succ', Nat.mod_mul]
    ring

theorem toBytes_eq_iff (width value value' : ℕ) :
    toBytes width value = toBytes width value' ↔ value % 256 ^ width = value' % 256 ^ width := by
  constructor
  · intro h
    rw [← ofBytes_toBytes, h, ofBytes_toBytes]
  · intro h
    induction width generalizing value value' with
    | zero => rfl
    | succ width ih =>
      rw [Nat.pow_succ', Nat.mod_mul, Nat.mod_mul] at h
      have hlow : value % 256 < 256 := Nat.mod_lt _ (by omega)
      have hlow' : value' % 256 < 256 := Nat.mod_lt _ (by omega)
      have hbyte : value % 256 = value' % 256 := by omega
      have hrest : value / 256 % 256 ^ width = value' / 256 % 256 ^ width := by omega
      rw [toBytes_succ, toBytes_succ, ih _ _ hrest, hbyte]

section Bounded

/-- Every byte is below 256. -/
def IsBytes (bytes : List ℕ) : Prop := ∀ byte ∈ bytes, byte < 256

variable {bytes : List ℕ}

theorem isBytes_cons {byte : ℕ} : IsBytes (byte :: bytes) ↔ byte < 256 ∧ IsBytes bytes :=
  List.forall_mem_cons

theorem isBytes_append {others : List ℕ} :
    IsBytes (bytes ++ others) ↔ IsBytes bytes ∧ IsBytes others := List.forall_mem_append

theorem isBytes_replicate {byte : ℕ} (h : byte < 256) (size : ℕ) :
    IsBytes (List.replicate size byte) := by
  intro other hother
  rw [List.eq_of_mem_replicate hother]
  exact h

theorem isBytes_toBytes (width value : ℕ) : IsBytes (toBytes width value) := by
  induction width generalizing value with
  | zero => exact nofun
  | succ width ih =>
    rw [toBytes_succ]
    exact isBytes_append.mpr ⟨ih _, isBytes_cons.mpr ⟨Nat.mod_lt _ (by omega), nofun⟩⟩

theorem IsBytes.slice (h : IsBytes bytes) (start stop : ℕ) : IsBytes (slice bytes start stop) :=
  fun byte hbyte => h byte (List.mem_of_mem_take (List.mem_of_mem_drop hbyte))

theorem ofBytes_lt (h : IsBytes bytes) : ofBytes bytes < 256 ^ bytes.length := by
  induction bytes using List.reverseRecOn with
  | nil => decide
  | append_singleton bytes byte ih =>
    obtain ⟨hbytes, hbyte⟩ := isBytes_append.mp h
    have hlast : byte < 256 := (isBytes_cons.mp hbyte).1
    have hrest := ih hbytes
    rw [ofBytes_append_singleton, List.length_append, List.length_singleton, Nat.pow_succ]
    omega

/-- Bytes are those of their number. -/
theorem toBytes_ofBytes (h : IsBytes bytes) : toBytes bytes.length (ofBytes bytes) = bytes := by
  induction bytes using List.reverseRecOn with
  | nil => rfl
  | append_singleton bytes byte ih =>
    obtain ⟨hbytes, hbyte⟩ := isBytes_append.mp h
    have hlast : byte < 256 := (isBytes_cons.mp hbyte).1
    have hdiv : (ofBytes bytes * 256 + byte) / 256 = ofBytes bytes := by omega
    have hmod : (ofBytes bytes * 256 + byte) % 256 = byte := by omega
    rw [ofBytes_append_singleton, List.length_append, List.length_singleton, toBytes_succ, hdiv,
      hmod, ih hbytes]

theorem ofBytes_append (bytes others : List ℕ) :
    ofBytes (bytes ++ others) = ofBytes bytes * 256 ^ others.length + ofBytes others := by
  induction others using List.reverseRecOn with
  | nil =>
    rw [List.append_nil, List.length_nil, Nat.pow_zero, Nat.mul_one]
    rfl
  | append_singleton others byte ih =>
    rw [← List.append_assoc, ofBytes_append_singleton, ih, ofBytes_append_singleton,
      List.length_append, List.length_singleton, Nat.pow_succ]
    ring

end Bounded

end Bundler.ByteStrings
