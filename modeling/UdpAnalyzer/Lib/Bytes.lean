import Mathlib.Algebra.GroupWithZero.Nat
import Mathlib.Algebra.Order.Group.Nat
import Mathlib.Data.Nat.Notation

/-! Records of little-endian unsigned integers. A record is a list of fields with
their widths in bytes; `unpackLE` reads back what `packLE` wrote, as long as
every value fits its width. -/

namespace UdpAnalyzer

abbrev Bytes := List UInt8

/-- The number whose base-256 digits are the bytes, lowest first. -/
def leNat : Bytes → ℕ
  | [] => 0
  | b :: bs => b.toNat + 256 * leNat bs

/-- The lowest `width` bytes of a number, lowest first. -/
def leBytes : ℕ → ℕ → Bytes
  | 0, _ => []
  | width + 1, n => UInt8.ofNat n :: leBytes width (n / 256)

@[simp] theorem length_leBytes (width n : ℕ) : (leBytes width n).length = width := by
  induction width generalizing n with
  | zero => rfl
  | succ width ih => rw [leBytes, List.length_cons, ih]

theorem leNat_leBytes (width n : ℕ) : leNat (leBytes width n) = n % 256 ^ width := by
  induction width generalizing n with
  | zero => rw [leBytes, leNat, Nat.pow_zero, Nat.mod_one]
  | succ width ih =>
    have hbyte : (UInt8.ofNat n).toNat = n % 256 := UInt8.toNat_ofNat'
    rw [leBytes, leNat, ih, hbyte, Nat.pow_succ', Nat.mod_mul]

/-- Write fields, each a width and a value. -/
def packLE : List (ℕ × ℕ) → Bytes
  | [] => []
  | (width, n) :: rest => leBytes width n ++ packLE rest

/-- Read fields of the given widths. -/
def unpackLE : List ℕ → Bytes → List ℕ
  | [], _ => []
  | width :: rest, bs => leNat (bs.take width) :: unpackLE rest (bs.drop width)

/-- The fields of a record in two parts. -/
theorem unpackLE_append (front back : List ℕ) {bs : Bytes} (h : bs.length = front.sum)
    (bs' : Bytes) :
    unpackLE (front ++ back) (bs ++ bs') = unpackLE front bs ++ unpackLE back bs' := by
  induction front generalizing bs with
  | nil =>
    rw [List.eq_nil_of_length_eq_zero h]
    rfl
  | cons width rest ih =>
    rw [List.sum_cons] at h
    have hle : width ≤ bs.length := by omega
    have hrest : (bs.drop width).length = rest.sum := by
      rw [List.length_drop]
      omega
    rw [List.cons_append, unpackLE, unpackLE, List.cons_append, List.take_append_of_le_length hle,
      List.drop_append_of_le_length hle, ih hrest]

theorem length_packLE (fields : List (ℕ × ℕ)) :
    (packLE fields).length = (fields.map Prod.fst).sum := by
  induction fields with
  | nil => rfl
  | cons field rest ih =>
    obtain ⟨width, n⟩ := field
    simp only [packLE, List.length_append, length_leBytes, ih, List.map_cons, List.sum_cons]

theorem packLE_append (fields fields' : List (ℕ × ℕ)) :
    packLE (fields ++ fields') = packLE fields ++ packLE fields' := by
  induction fields with
  | nil => rfl
  | cons field rest ih =>
    obtain ⟨width, n⟩ := field
    rw [List.cons_append, packLE, packLE, ih, List.append_assoc]

/-- Reading back what was written, whatever follows it. -/
theorem unpackLE_packLE {fields : List (ℕ × ℕ)} (h : ∀ p ∈ fields, p.2 < 256 ^ p.1)
    (rest : Bytes) :
    unpackLE (fields.map Prod.fst) (packLE fields ++ rest) = fields.map Prod.snd := by
  induction fields with
  | nil => rfl
  | cons field fields ih =>
    obtain ⟨width, n⟩ := field
    have hn : n < 256 ^ width := h (width, n) List.mem_cons_self
    have hrest := ih fun p hp => h p (List.mem_cons_of_mem _ hp)
    have htake : (leBytes width n ++ (packLE fields ++ rest)).take width = leBytes width n :=
      List.take_left' (length_leBytes width n)
    have hdrop : (leBytes width n ++ (packLE fields ++ rest)).drop width = packLE fields ++ rest :=
      List.drop_left' (length_leBytes width n)
    simp only [packLE, List.map_cons, unpackLE, List.append_assoc, htake, hdrop, hrest,
      leNat_leBytes, Nat.mod_eq_of_lt hn]

end UdpAnalyzer
