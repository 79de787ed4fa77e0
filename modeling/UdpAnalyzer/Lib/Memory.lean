import UdpAnalyzer.Lib.Bytes

/-! Loads from a bounded region of memory, as a verified program makes them: a load outside
the region has no result, and a program that never makes one always has a result. Words
are loaded in the order of the host, which is little-endian. -/

namespace UdpAnalyzer

/-- The bytes at an offset, if all of them lie in the region. -/
def readAt (region : Bytes) (offset width : ℕ) : Option Bytes :=
  if offset + width ≤ region.length then some ((region.drop offset).take width) else none

def load8 (region : Bytes) (offset : ℕ) : Option (BitVec 8) :=
  (readAt region offset 1).map fun bytes => BitVec.ofNat 8 (leNat bytes)

def load16 (region : Bytes) (offset : ℕ) : Option (BitVec 16) :=
  (readAt region offset 2).map fun bytes => BitVec.ofNat 16 (leNat bytes)

def load32 (region : Bytes) (offset : ℕ) : Option (BitVec 32) :=
  (readAt region offset 4).map fun bytes => BitVec.ofNat 32 (leNat bytes)

/-- `bpf_ntohs` on a little-endian host. -/
def ntohs (x : BitVec 16) : BitVec 16 := (x <<< 8) ||| (x >>> 8)

/-! ### What is loaded -/

/-- The byte at an offset, zero behind the end. -/
def byteAt (bytes : Bytes) (offset : ℕ) : ℕ := (bytes.getD offset 0).toNat

/-- A 16-bit number in network byte order. -/
def be16At (bytes : Bytes) (offset : ℕ) : ℕ := 256 * byteAt bytes offset + byteAt bytes (offset + 1)

/-- A 32-bit word as a little-endian host holds it. -/
def le32At (bytes : Bytes) (offset : ℕ) : ℕ :=
  byteAt bytes offset + 256 * (byteAt bytes (offset + 1) +
    256 * (byteAt bytes (offset + 2) + 256 * byteAt bytes (offset + 3)))

theorem byteAt_lt (bytes : Bytes) (offset : ℕ) : byteAt bytes offset < 256 := UInt8.toNat_lt _

theorem be16At_lt (bytes : Bytes) (offset : ℕ) : be16At bytes offset < 2 ^ 16 := by
  have hhigh := byteAt_lt bytes offset
  have hlow := byteAt_lt bytes (offset + 1)
  unfold be16At
  omega

/-- Reading one byte more. -/
theorem readAt_succ {region : Bytes} {offset width : ℕ} (h : offset + (width + 1) ≤ region.length) :
    ∃ rest, readAt region (offset + 1) width = some rest ∧
      readAt region offset (width + 1) = some (region.getD offset 0 :: rest) := by
  have hlt : offset < region.length := by omega
  have hdrop : region.drop offset = region.getD offset 0 :: region.drop (offset + 1) := by
    rw [List.drop_eq_getElem_cons hlt, List.getD_eq_getElem?_getD, List.getElem?_eq_getElem hlt,
      Option.getD_some]
  unfold readAt
  rw [if_pos (by omega), if_pos h, hdrop, List.take_succ_cons]
  exact ⟨_, rfl, rfl⟩

theorem readAt_zero {region : Bytes} {offset : ℕ} (h : offset ≤ region.length) :
    readAt region offset 0 = some [] := by
  unfold readAt
  rw [if_pos (show offset + 0 ≤ region.length from h), List.take_zero]

theorem load8_eq {region : Bytes} {offset : ℕ} (h : offset + 1 ≤ region.length) :
    load8 region offset = some (BitVec.ofNat 8 (byteAt region offset)) := by
  obtain ⟨rest, hrest, hread⟩ := readAt_succ h
  rw [readAt_zero h] at hrest
  cases hrest
  unfold load8
  rw [hread]
  rfl

theorem load16_eq {region : Bytes} {offset : ℕ} (h : offset + 2 ≤ region.length) :
    load16 region offset =
      some (BitVec.ofNat 16 (byteAt region offset + 256 * byteAt region (offset + 1))) := by
  obtain ⟨rest, hrest, hread⟩ := readAt_succ h
  obtain ⟨rest', hrest', hread'⟩ := readAt_succ (show offset + 1 + 1 ≤ region.length by omega)
  rw [readAt_zero (by omega)] at hrest'
  cases hrest'
  rw [hread'] at hrest
  cases hrest
  unfold load16
  rw [hread]
  rfl

theorem load32_eq {region : Bytes} {offset : ℕ} (h : offset + 4 ≤ region.length) :
    load32 region offset = some (BitVec.ofNat 32 (le32At region offset)) := by
  obtain ⟨rest₁, hrest₁, hread⟩ := readAt_succ h
  obtain ⟨rest₂, hrest₂, hread₁⟩ := readAt_succ (show offset + 1 + (2 + 1) ≤ region.length by omega)
  obtain ⟨rest₃, hrest₃, hread₂⟩ := readAt_succ (show offset + 1 + 1 + (1 + 1) ≤ region.length by omega)
  obtain ⟨rest₄, hrest₄, hread₃⟩ :=
    readAt_succ (show offset + 1 + 1 + 1 + (0 + 1) ≤ region.length by omega)
  rw [readAt_zero (by omega)] at hrest₄
  cases hrest₄
  rw [hread₃] at hrest₃
  cases hrest₃
  rw [hread₂] at hrest₂
  cases hrest₂
  rw [hread₁] at hrest₁
  cases hrest₁
  unfold load32
  rw [hread]
  rfl

/-- Swapping the bytes of a word loaded in host order gives the number in network order. -/
theorem ntohs_le (low high : ℕ) (hlow : low < 256) (hhigh : high < 256) :
    ntohs (BitVec.ofNat 16 (low + 256 * high)) = BitVec.ofNat 16 (256 * low + high) := by
  apply BitVec.eq_of_toNat_eq
  have hx : low + 256 * high < 2 ^ 16 := by omega
  have hup : (low + 256 * high) <<< 8 % 2 ^ 16 = low <<< 8 := by
    rw [Nat.shiftLeft_eq, Nat.shiftLeft_eq]
    omega
  have hdown : (low + 256 * high) >>> 8 = high := by
    rw [Nat.shiftRight_eq_div_pow]
    omega
  unfold ntohs
  rw [BitVec.toNat_or, BitVec.toNat_shiftLeft, BitVec.toNat_ushiftRight, BitVec.toNat_ofNat,
    BitVec.toNat_ofNat, Nat.mod_eq_of_lt hx, hup, hdown, ← Nat.shiftLeft_add_eq_or_of_lt hhigh,
    Nat.shiftLeft_eq]
  omega

/-! ### Loads from a part of a text -/

section
variable {bytes : Bytes} {size offset : ℕ}

/-- What lies in a part of a text is the same in the text. -/
theorem byteAt_take (h : offset < size) : byteAt (bytes.take size) offset = byteAt bytes offset := by
  unfold byteAt
  rw [List.getD_eq_getElem?_getD, List.getD_eq_getElem?_getD, List.getElem?_take_of_lt h]

theorem length_take_of_le (h : size ≤ bytes.length) : (bytes.take size).length = size := by
  rw [List.length_take, Nat.min_eq_left h]

theorem load8_take (h : offset + 1 ≤ size) (hsize : size ≤ bytes.length) :
    load8 (bytes.take size) offset = some (BitVec.ofNat 8 (byteAt bytes offset)) := by
  rw [load8_eq (by rw [length_take_of_le hsize]; exact h), byteAt_take h]

theorem load16_take (h : offset + 2 ≤ size) (hsize : size ≤ bytes.length) :
    ∃ raw, load16 (bytes.take size) offset = some raw ∧
      ntohs raw = BitVec.ofNat 16 (be16At bytes offset) := by
  refine ⟨_, load16_eq (by rw [length_take_of_le hsize]; exact h), ?_⟩
  rw [ntohs_le _ _ (byteAt_lt _ _) (byteAt_lt _ _), byteAt_take (by omega), byteAt_take (by omega)]
  rfl

theorem load32_take (h : offset + 4 ≤ size) (hsize : size ≤ bytes.length) :
    load32 (bytes.take size) offset = some (BitVec.ofNat 32 (le32At bytes offset)) := by
  rw [load32_eq (by rw [length_take_of_le hsize]; exact h)]
  unfold le32At
  rw [byteAt_take (by omega), byteAt_take (by omega), byteAt_take (by omega), byteAt_take (by omega)]

end

end UdpAnalyzer
