import Mathlib.Data.List.Basic
import Mathlib.Tactic.Ring

/-!
# Big-endian byte fields

Fixed-width big-endian writing and reading over byte lists. `be w v` writes
the low `w` bytes of `v`, most significant first; `unbe` reads a whole byte
list back. The field readers `u8At`, `u16At`, `u32At` and `u64At` read one
field at an offset, which is how packet decoders are written.
-/

namespace BigEndian

/-- A byte string. -/
abbrev Bytes : Type := List UInt8

/-- Whether a byte string is among those of a list. -/
instance instDecidableMemBytes (b : Bytes) (l : List Bytes) : Decidable (b ∈ l) := inferInstance

/-- The low `w` bytes of `v`, most significant first. -/
def be : ℕ → ℕ → Bytes
  | 0, _ => []
  | w + 1, v => UInt8.ofNat (v / 256 ^ w) :: be w v

/-- The natural number a byte string spells, most significant byte first. -/
def unbe (bs : Bytes) : ℕ := bs.foldl (fun acc b => acc * 256 + b.toNat) 0

@[simp] theorem be_length (w v : ℕ) : (be w v).length = w := by
  induction w with
  | zero => rfl
  | succ w ih => simp [be, ih]

theorem foldl_unbe (bs : Bytes) : ∀ acc : ℕ,
    bs.foldl (fun acc b => acc * 256 + b.toNat) acc =
      acc * 256 ^ bs.length + unbe bs := by
  induction bs with
  | nil => intro acc; simp [unbe]
  | cons b bs ih =>
      intro acc
      have h0 : unbe (b :: bs) = b.toNat * 256 ^ bs.length + unbe bs := by
        rw [unbe, List.foldl_cons, ih, Nat.zero_mul, Nat.zero_add]
      rw [List.foldl_cons, ih, h0, List.length_cons, pow_succ]
      ring

theorem unbe_cons (b : UInt8) (bs : Bytes) :
    unbe (b :: bs) = b.toNat * 256 ^ bs.length + unbe bs := by
  rw [unbe, List.foldl_cons, foldl_unbe]
  simp

theorem unbe_lt (bs : Bytes) : unbe bs < 256 ^ bs.length := by
  induction bs with
  | nil => simp [unbe]
  | cons b bs ih =>
      have hb : b.toNat < 256 := b.toNat_lt
      rw [unbe_cons, List.length_cons, pow_succ]
      calc b.toNat * 256 ^ bs.length + unbe bs
          < b.toNat * 256 ^ bs.length + 256 ^ bs.length := by omega
        _ = (b.toNat + 1) * 256 ^ bs.length := by ring
        _ ≤ 256 * 256 ^ bs.length := Nat.mul_le_mul_right _ hb
        _ = 256 ^ bs.length * 256 := by ring

/-- Reading back a written field gives its value modulo the field width. -/
theorem unbe_be (w v : ℕ) : unbe (be w v) = v % 256 ^ w := by
  induction w with
  | zero => simp [be, unbe, Nat.mod_one]
  | succ w ih =>
      have hsplit : v % (256 ^ w * 256) = v % 256 ^ w + 256 ^ w * (v / 256 ^ w % 256) :=
        Nat.mod_mul
      rw [be, unbe_cons, be_length, ih, UInt8.toNat_ofNat', pow_succ 256 w, hsplit]
      ring

theorem unbe_be_of_lt {w v : ℕ} (h : v < 256 ^ w) : unbe (be w v) = v := by
  rw [unbe_be, Nat.mod_eq_of_lt h]

/-- Only the low bytes are written. -/
theorem be_add_mul (w k v : ℕ) : be w (k * 256 ^ w + v) = be w v := by
  induction w generalizing k with
  | zero => rfl
  | succ w ih =>
      have hsplit : k * 256 ^ (w + 1) + v = k * 256 * 256 ^ w + v := by ring
      have hpos : 0 < 256 ^ w := Nat.pow_pos (by decide)
      have hbyte : UInt8.ofNat ((k * 256 * 256 ^ w + v) / 256 ^ w) = UInt8.ofNat (v / 256 ^ w) := by
        rw [Nat.add_comm, Nat.add_mul_div_right _ _ hpos, ← UInt8.toNat_inj, UInt8.toNat_ofNat',
          UInt8.toNat_ofNat']
        omega
      rw [be, be, hsplit, hbyte, ih]

/-- Writing what has been read gives the bytes back. -/
theorem be_unbe (bs : Bytes) : be bs.length (unbe bs) = bs := by
  induction bs with
  | nil => rfl
  | cons b bs ih =>
      have hpos : 0 < 256 ^ bs.length := Nat.pow_pos (by decide)
      have hhead : (b.toNat * 256 ^ bs.length + unbe bs) / 256 ^ bs.length = b.toNat := by
        rw [Nat.add_comm, Nat.add_mul_div_right _ _ hpos, Nat.div_eq_of_lt (unbe_lt bs),
          Nat.zero_add]
      rw [List.length_cons, unbe_cons, be, hhead, be_add_mul, ih, UInt8.ofNat_toNat]

/-! ## Field readers -/

/-- The `w` bytes at offset `off`. -/
def field (w off : ℕ) (bs : Bytes) : Bytes := (bs.drop off).take w

def u8At (bs : Bytes) (off : ℕ) : UInt8 := UInt8.ofNat (unbe (field 1 off bs))
def u16At (bs : Bytes) (off : ℕ) : UInt16 := UInt16.ofNat (unbe (field 2 off bs))
def u32At (bs : Bytes) (off : ℕ) : UInt32 := UInt32.ofNat (unbe (field 4 off bs))
def u64At (bs : Bytes) (off : ℕ) : UInt64 := UInt64.ofNat (unbe (field 8 off bs))

def putU16 (v : UInt16) : Bytes := be 2 v.toNat
def putU32 (v : UInt32) : Bytes := be 4 v.toNat
def putU64 (v : UInt64) : Bytes := be 8 v.toNat

@[simp] theorem putU16_length (v : UInt16) : (putU16 v).length = 2 := be_length _ _
@[simp] theorem putU32_length (v : UInt32) : (putU32 v).length = 4 := be_length _ _
@[simp] theorem putU64_length (v : UInt64) : (putU64 v).length = 8 := be_length _ _

/-- A field starts where the part before it ends. -/
theorem field_append (pre f post : Bytes) {w off : ℕ}
    (hoff : pre.length = off) (hw : f.length = w) :
    field w off (pre ++ (f ++ post)) = f := by
  subst hoff hw
  simp [field]

/-- A field inside the first part does not see the second. -/
theorem field_append_left {w off : ℕ} {bs : Bytes} (h : off + w ≤ bs.length) (more : Bytes) :
    field w off (bs ++ more) = field w off bs := by
  have hdrop : w ≤ (bs.drop off).length := by
    rw [List.length_drop]
    omega
  rw [field, List.drop_append_of_le_length (by omega), List.take_append_of_le_length hdrop, field]

theorem u32At_append_left {off : ℕ} {bs : Bytes} (h : off + 4 ≤ bs.length) (more : Bytes) :
    u32At (bs ++ more) off = u32At bs off := by
  rw [u32At, field_append_left h, u32At]

theorem u8At_append_left {off : ℕ} {bs : Bytes} (h : off + 1 ≤ bs.length) (more : Bytes) :
    u8At (bs ++ more) off = u8At bs off := by
  rw [u8At, field_append_left h, u8At]

theorem u8At_append (pre post : Bytes) (b : UInt8) {off : ℕ} (hoff : pre.length = off) :
    u8At (pre ++ (b :: post)) off = b := by
  have hfield : field 1 off (pre ++ ([b] ++ post)) = [b] := field_append pre [b] post hoff rfl
  rw [u8At, ← List.singleton_append, hfield, unbe_cons]
  simp [unbe]

theorem u16At_append (pre post : Bytes) (v : UInt16) {off : ℕ}
    (hoff : pre.length = off) : u16At (pre ++ (putU16 v ++ post)) off = v := by
  rw [u16At, field_append pre _ post hoff (putU16_length v), putU16,
    unbe_be_of_lt (by simpa using v.toNat_lt), UInt16.ofNat_toNat]

theorem u16At_zero (post : Bytes) (v : UInt16) : u16At (putU16 v ++ post) 0 = v :=
  u16At_append [] post v rfl

theorem u32At_append (pre post : Bytes) (v : UInt32) {off : ℕ}
    (hoff : pre.length = off) : u32At (pre ++ (putU32 v ++ post)) off = v := by
  rw [u32At, field_append pre _ post hoff (putU32_length v), putU32,
    unbe_be_of_lt (by simpa using v.toNat_lt), UInt32.ofNat_toNat]

theorem u32At_zero (post : Bytes) (v : UInt32) : u32At (putU32 v ++ post) 0 = v :=
  u32At_append [] post v rfl

theorem u64At_append (pre post : Bytes) (v : UInt64) {off : ℕ}
    (hoff : pre.length = off) : u64At (pre ++ (putU64 v ++ post)) off = v := by
  rw [u64At, field_append pre _ post hoff (putU64_length v), putU64,
    unbe_be_of_lt (by simpa using v.toNat_lt), UInt64.ofNat_toNat]

theorem u64At_zero (post : Bytes) (v : UInt64) : u64At (putU64 v ++ post) 0 = v :=
  u64At_append [] post v rfl

/-! ## Past what stands before -/

section Skip

variable {pre rest : Bytes} {off : ℕ}

theorem field_append_right (h : pre.length ≤ off) (w : ℕ) :
    field w off (pre ++ rest) = field w (off - pre.length) rest := by
  rw [field, List.drop_append, List.drop_eq_nil_of_le h, List.nil_append, field]

theorem u8At_append_right (h : pre.length ≤ off) :
    u8At (pre ++ rest) off = u8At rest (off - pre.length) := by
  rw [u8At, field_append_right h, u8At]

theorem u16At_append_right (h : pre.length ≤ off) :
    u16At (pre ++ rest) off = u16At rest (off - pre.length) := by
  rw [u16At, field_append_right h, u16At]

theorem u32At_append_right (h : pre.length ≤ off) :
    u32At (pre ++ rest) off = u32At rest (off - pre.length) := by
  rw [u32At, field_append_right h, u32At]

theorem field_zero_append {w : ℕ} (h : w ≤ pre.length) : field w 0 (pre ++ rest) = pre.take w := by
  rw [field, List.drop_zero, List.take_append_of_le_length h]

end Skip

theorem u8At_cons_zero (b : UInt8) (rest : Bytes) : u8At (b :: rest) 0 = b :=
  u8At_append [] rest b rfl

theorem u8At_cons_succ (b : UInt8) (rest : Bytes) (off : ℕ) :
    u8At (b :: rest) (off + 1) = u8At rest off := rfl

theorem u16At_cons_succ (b : UInt8) (rest : Bytes) (off : ℕ) :
    u16At (b :: rest) (off + 1) = u16At rest off := rfl

theorem u32At_cons_succ (b : UInt8) (rest : Bytes) (off : ℕ) :
    u32At (b :: rest) (off + 1) = u32At rest off := rfl

theorem u8At_putU16_succ (v : UInt16) (rest : Bytes) (off : ℕ) :
    u8At (putU16 v ++ rest) (off + 2) = u8At rest off := rfl

theorem u16At_putU16_succ (v : UInt16) (rest : Bytes) (off : ℕ) :
    u16At (putU16 v ++ rest) (off + 2) = u16At rest off := rfl

theorem u32At_putU16_succ (v : UInt16) (rest : Bytes) (off : ℕ) :
    u32At (putU16 v ++ rest) (off + 2) = u32At rest off := rfl

/-! ## The last field -/

theorem field_append_last (pre f : Bytes) {w off : ℕ} (hoff : pre.length = off)
    (hw : f.length = w) : field w off (pre ++ f) = f := by
  have hfield := field_append pre f [] hoff hw
  rwa [List.append_nil] at hfield

theorem u16At_append_last (pre : Bytes) (v : UInt16) {off : ℕ} (hoff : pre.length = off) :
    u16At (pre ++ putU16 v) off = v := by
  have hread := u16At_append pre [] v hoff
  rwa [List.append_nil] at hread

theorem u32At_append_last (pre : Bytes) (v : UInt32) {off : ℕ} (hoff : pre.length = off) :
    u32At (pre ++ putU32 v) off = v := by
  have hread := u32At_append pre [] v hoff
  rwa [List.append_nil] at hread

theorem u64At_append_last (pre : Bytes) (v : UInt64) {off : ℕ} (hoff : pre.length = off) :
    u64At (pre ++ putU64 v) off = v := by
  have hread := u64At_append pre [] v hoff
  rwa [List.append_nil] at hread

/-! ## Writing a field back -/

theorem field_length {w off : ℕ} {bs : Bytes} (h : off + w ≤ bs.length) :
    (field w off bs).length = w := by
  rw [field, List.length_take, List.length_drop]
  omega

/-- Two fields side by side. -/
theorem field_add (w v off : ℕ) (bs : Bytes) :
    field w off bs ++ field v (off + w) bs = field (w + v) off bs := by
  rw [field, field, field, List.take_add, List.drop_drop]

theorem unbe_field_lt {w off : ℕ} {bs : Bytes} (h : off + w ≤ bs.length) :
    unbe (field w off bs) < 256 ^ w := by
  have hlt := unbe_lt (field w off bs)
  rwa [field_length h] at hlt

theorem be_field {w off : ℕ} {bs : Bytes} (h : off + w ≤ bs.length) :
    be w (unbe (field w off bs)) = field w off bs := by
  have hback := be_unbe (field w off bs)
  rwa [field_length h] at hback

theorem putU16_u16At {off : ℕ} {bs : Bytes} (h : off + 2 ≤ bs.length) :
    putU16 (u16At bs off) = field 2 off bs := by
  have hlt : unbe (field 2 off bs) < 2 ^ 16 := by simpa using unbe_field_lt h
  rw [putU16, u16At, UInt16.toNat_ofNat', Nat.mod_eq_of_lt hlt, be_field h]

theorem putU32_u32At {off : ℕ} {bs : Bytes} (h : off + 4 ≤ bs.length) :
    putU32 (u32At bs off) = field 4 off bs := by
  have hlt : unbe (field 4 off bs) < 2 ^ 32 := by simpa using unbe_field_lt h
  rw [putU32, u32At, UInt32.toNat_ofNat', Nat.mod_eq_of_lt hlt, be_field h]

theorem singleton_u8At {off : ℕ} {bs : Bytes} (h : off + 1 ≤ bs.length) :
    [u8At bs off] = field 1 off bs := by
  have hbyte : be 1 (unbe (field 1 off bs)) = [u8At bs off] := by
    simp [be, u8At]
  rw [← hbyte, be_field h]

theorem field_all {w : ℕ} {bs : Bytes} (h : bs.length = w) : field w 0 bs = bs := by
  rw [field, List.drop_zero, List.take_of_length_le (Nat.le_of_eq h)]

theorem putU64_u64At {off : ℕ} {bs : Bytes} (h : off + 8 ≤ bs.length) :
    putU64 (u64At bs off) = field 8 off bs := by
  have hlt : unbe (field 8 off bs) < 2 ^ 64 := by simpa using unbe_field_lt h
  rw [putU64, u64At, UInt64.toNat_ofNat', Nat.mod_eq_of_lt hlt, be_field h]

end BigEndian
