import UdpAnalyzer.Lib.Bytes

/-! C structures of unsigned integers in memory. Every member is at a multiple of its width,
lowest byte first, and the bytes between the members and behind the last one are what the
memory had before. -/

namespace UdpAnalyzer

/-- A member of a structure, with its width in bytes and its value. -/
structure Member where
  name : String
  width : ℕ
  value : ℕ
  deriving DecidableEq, Repr

/-- The bytes left out to get to a multiple of a width. -/
def holeBefore (offset width : ℕ) : ℕ := (width - offset % width) % width

/-- What the memory has at some addresses. -/
def hole (garbage : ℕ → UInt8) (offset length : ℕ) : Bytes :=
  (List.range length).map fun i => garbage (offset + i)

/-- The members from an offset on, and the bytes up to the alignment of the structure. -/
def imageFrom (garbage : ℕ → UInt8) (align : ℕ) : ℕ → List Member → Bytes
  | offset, [] => hole garbage offset (holeBefore offset align)
  | offset, member :: rest =>
    let skipped := holeBefore offset member.width
    hole garbage offset skipped ++ leBytes member.width member.value ++
      imageFrom garbage align (offset + skipped + member.width) rest

/-- The widest member decides the alignment of a structure. -/
def structAlign (members : List Member) : ℕ := (members.map Member.width).foldl max 1

/-- A structure written over some memory. -/
def image (garbage : ℕ → UInt8) (members : List Member) : Bytes :=
  imageFrom garbage (structAlign members) 0 members

/-! ### An image as a record with its holes as fields -/

/-- The fields of an image, each with its width, where holes are fields. -/
def paddedFrom (garbage : ℕ → UInt8) (align : ℕ) : ℕ → List Member → List (ℕ × ℕ)
  | offset, [] =>
    let skipped := holeBefore offset align
    [(skipped, leNat (hole garbage offset skipped))]
  | offset, member :: rest =>
    let skipped := holeBefore offset member.width
    (skipped, leNat (hole garbage offset skipped)) :: (member.width, member.value) ::
      paddedFrom garbage align (offset + skipped + member.width) rest

theorem leNat_lt (bs : Bytes) : leNat bs < 256 ^ bs.length := by
  induction bs with
  | nil => exact Nat.one_pos
  | cons b bs ih =>
    have hb : b.toNat < 256 := b.toNat_lt
    rw [leNat, List.length_cons, Nat.pow_succ]
    omega

theorem leBytes_leNat (bs : Bytes) : leBytes bs.length (leNat bs) = bs := by
  induction bs with
  | nil => rfl
  | cons b bs ih =>
    have hb : b.toNat < 256 := b.toNat_lt
    have hlow : UInt8.ofNat (b.toNat + 256 * leNat bs) = b := by
      apply UInt8.toNat_inj.mp
      rw [UInt8.toNat_ofNat']
      omega
    have hhigh : (b.toNat + 256 * leNat bs) / 256 = leNat bs := by omega
    rw [List.length_cons, leNat, leBytes, hlow, hhigh, ih]

theorem length_hole (garbage : ℕ → UInt8) (offset length : ℕ) :
    (hole garbage offset length).length = length := by
  rw [hole, List.length_map, List.length_range]

theorem leBytes_hole (garbage : ℕ → UInt8) (offset length : ℕ) :
    leBytes length (leNat (hole garbage offset length)) = hole garbage offset length := by
  have h := leBytes_leNat (hole garbage offset length)
  rwa [length_hole] at h

theorem leNat_hole_lt (garbage : ℕ → UInt8) (offset length : ℕ) :
    leNat (hole garbage offset length) < 256 ^ length := by
  have h := leNat_lt (hole garbage offset length)
  rwa [length_hole] at h

theorem imageFrom_eq_packLE (garbage : ℕ → UInt8) (align offset : ℕ) (members : List Member) :
    imageFrom garbage align offset members = packLE (paddedFrom garbage align offset members) := by
  induction members generalizing offset with
  | nil => rw [imageFrom, paddedFrom, packLE, packLE, leBytes_hole, List.append_nil]
  | cons member rest ih =>
    rw [imageFrom, paddedFrom, packLE, packLE, leBytes_hole, ih, List.append_assoc]

theorem paddedFrom_fit {members : List Member} (h : ∀ m ∈ members, m.value < 256 ^ m.width)
    (garbage : ℕ → UInt8) (align offset : ℕ) :
    ∀ p ∈ paddedFrom garbage align offset members, p.2 < 256 ^ p.1 := by
  induction members generalizing offset with
  | nil =>
    intro p hp
    rw [paddedFrom, List.mem_singleton] at hp
    subst hp
    exact leNat_hole_lt garbage offset _
  | cons member rest ih =>
    have hrest := ih fun m hm => h m (List.mem_cons_of_mem _ hm)
    rw [paddedFrom, List.forall_mem_cons, List.forall_mem_cons]
    exact ⟨leNat_hole_lt garbage offset _, h member List.mem_cons_self, hrest _⟩

/-- The fields of an image, where holes are fields as well. -/
def recordOf (garbage : ℕ → UInt8) (members : List Member) : List (ℕ × ℕ) :=
  (paddedFrom garbage (structAlign members) 0 members).filter fun p => p.1 ≠ 0

theorem packLE_filter (fields : List (ℕ × ℕ)) :
    packLE (fields.filter fun p => p.1 ≠ 0) = packLE fields := by
  induction fields with
  | nil => rfl
  | cons field rest ih =>
    obtain ⟨width, value⟩ := field
    cases width with
    | zero => exact ih
    | succ width =>
      have hfilter : List.filter (fun p : ℕ × ℕ => p.1 ≠ 0) ((width + 1, value) :: rest) =
          (width + 1, value) :: rest.filter fun p => p.1 ≠ 0 := rfl
      rw [hfilter, packLE, packLE, ih]

theorem image_eq_packLE (garbage : ℕ → UInt8) (members : List Member) :
    image garbage members = packLE (recordOf garbage members) := by
  rw [image, imageFrom_eq_packLE, recordOf, packLE_filter]

/-- The image of a structure, whatever is behind it, is read back by the widths of its
members and holes. -/
theorem unpackLE_image {members : List Member} (h : ∀ m ∈ members, m.value < 256 ^ m.width)
    (garbage : ℕ → UInt8) (extra : Bytes) :
    unpackLE ((recordOf garbage members).map Prod.fst) (image garbage members ++ extra) =
      (recordOf garbage members).map Prod.snd := by
  rw [image_eq_packLE]
  apply unpackLE_packLE
  intro p hp
  exact paddedFrom_fit h garbage _ 0 p (List.mem_filter.mp hp).1

/-- The number of bytes the members and holes take. -/
theorem length_image (garbage : ℕ → UInt8) (members : List Member) :
    (image garbage members).length = ((recordOf garbage members).map Prod.fst).sum := by
  rw [image_eq_packLE, length_packLE]

/-- A reader that takes as many bytes as the members and holes have gets the fields. -/
theorem unpackLE_take_image {members : List Member} (h : ∀ m ∈ members, m.value < 256 ^ m.width)
    {garbage : ℕ → UInt8} {format : List ℕ}
    (hformat : (recordOf garbage members).map Prod.fst = format) (extra : Bytes) :
    ¬ (image garbage members ++ extra).length < format.sum ∧
      unpackLE format ((image garbage members ++ extra).take format.sum) =
        (recordOf garbage members).map Prod.snd := by
  have hlength : (image garbage members).length = format.sum := by
    rw [length_image, hformat]
  constructor
  · rw [List.length_append]
    omega
  · have hread := unpackLE_image h garbage []
    rw [List.append_nil, hformat] at hread
    rw [List.take_left' hlength, hread]

end UdpAnalyzer
