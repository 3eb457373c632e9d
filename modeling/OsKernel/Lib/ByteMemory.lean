import Mathlib

/-!
# A memory of bytes

Addresses are numbers and every address holds a byte. Words of 32 bits are stored with the lowest
byte first.

- `read32`, `write32`: a word, with what a write leaves unchanged. `read16` and `write16` are the
  same for half of one.
- `EqOn`: two memories agree on an area; reads in the area agree too.
-/

namespace OsKernel.Lib

/-- What every address holds. -/
abbrev ByteMemory := Nat → UInt8

namespace ByteMemory

/-- The word at an address. -/
def read32 (m : ByteMemory) (a : Nat) : UInt32 :=
  UInt32.ofNat ((m a).toNat + 0x100 * (m (a + 1)).toNat + 0x10000 * (m (a + 2)).toNat +
    0x1000000 * (m (a + 3)).toNat)

/-- Store a word. -/
def write32 (m : ByteMemory) (a : Nat) (x : UInt32) : ByteMemory :=
  fun b => if a ≤ b ∧ b < a + 4 then UInt8.ofNat (x.toNat / 0x100 ^ (b - a)) else m b

/-- The half word at an address. -/
def read16 (m : ByteMemory) (a : Nat) : UInt16 :=
  UInt16.ofNat ((m a).toNat + 0x100 * (m (a + 1)).toNat)

/-- Store a half word. -/
def write16 (m : ByteMemory) (a : Nat) (x : UInt16) : ByteMemory :=
  fun b => if a ≤ b ∧ b < a + 2 then UInt8.ofNat (x.toNat / 0x100 ^ (b - a)) else m b

/-- The memories agree on the `len` addresses from `start` on. -/
def EqOn (start len : Nat) (m m' : ByteMemory) : Prop :=
  ∀ a, start ≤ a → a < start + len → m' a = m a

variable {m m' : ByteMemory} {a b start len : Nat} {x : UInt32}

theorem write32_outside (h : b < a ∨ a + 4 ≤ b) : m.write32 a x b = m b := by
  have hnot : ¬ (a ≤ b ∧ b < a + 4) := by omega
  rw [write32, if_neg hnot]

theorem write32_byte {k : Nat} (hk : k < 4) :
    (m.write32 a x (a + k)).toNat = x.toNat / 0x100 ^ k % 0x100 := by
  have hin : a ≤ a + k ∧ a + k < a + 4 := by omega
  rw [write32, if_pos hin, Nat.add_sub_cancel_left, UInt8.toNat_ofNat']

/-- The same four bytes are the same word. -/
theorem read32_congr (h : ∀ k, k < 4 → m' (b + k) = m (a + k)) : m'.read32 b = m.read32 a := by
  have h0 : m' b = m a := h 0 (by decide)
  rw [read32, read32, h0, h 1 (by decide), h 2 (by decide), h 3 (by decide)]

/-- A word that has just been written. -/
@[simp] theorem read32_write32 (m : ByteMemory) (a : Nat) (x : UInt32) :
    (m.write32 a x).read32 a = x := by
  have h0 : (m.write32 a x a).toNat = x.toNat % 0x100 := by
    have := write32_byte (m := m) (a := a) (x := x) (k := 0) (by decide)
    simpa using this
  have h1 := write32_byte (m := m) (a := a) (x := x) (k := 1) (by decide)
  have h2 := write32_byte (m := m) (a := a) (x := x) (k := 2) (by decide)
  have h3 := write32_byte (m := m) (a := a) (x := x) (k := 3) (by decide)
  have hx := x.toNat_lt
  have hsum : x.toNat % 0x100 + 0x100 * (x.toNat / 0x100 ^ 1 % 0x100) +
      0x10000 * (x.toNat / 0x100 ^ 2 % 0x100) + 0x1000000 * (x.toNat / 0x100 ^ 3 % 0x100) =
        x.toNat := by omega
  rw [read32, h0, h1, h2, h3, hsum, UInt32.ofNat_toNat]

/-- A byte of a word. -/
theorem byte_read32 (m : ByteMemory) (a : Nat) {k : Nat} (hk : k < 4) :
    m (a + k) = UInt8.ofNat ((m.read32 a).toNat / 0x100 ^ k) := by
  have h0 := (m a).toNat_lt
  have h1 := (m (a + 1)).toNat_lt
  have h2 := (m (a + 2)).toNat_lt
  have h3 := (m (a + 3)).toNat_lt
  rw [← UInt8.toNat_inj, UInt8.toNat_ofNat', read32, UInt32.toNat_ofNat_of_lt' (by
    show _ < 2 ^ 32
    omega)]
  rcases k with _ | _ | _ | _ | k
  · simp only [Nat.add_zero, Nat.pow_zero, Nat.div_one]
    omega
  · simp only [Nat.zero_add, Nat.pow_one]
    omega
  · simp only [Nat.zero_add, Nat.reduceAdd, Nat.reducePow]
    omega
  · simp only [Nat.zero_add, Nat.reduceAdd, Nat.reducePow]
    omega
  · omega

/-- Storing the word that is there already changes nothing. -/
theorem write32_read32 (m : ByteMemory) (a : Nat) : m.write32 a (m.read32 a) = m := by
  funext b
  by_cases hin : a ≤ b ∧ b < a + 4
  · have hplace : a + (b - a) = b := Nat.add_sub_cancel' hin.1
    have hbyte := byte_read32 m a (k := b - a) (by omega)
    rw [hplace] at hbyte
    rw [write32, if_pos hin, hbyte]
  · rw [write32, if_neg hin]

/-! ## Areas -/

theorem EqOn.refl (m : ByteMemory) : EqOn start len m m := fun _ _ _ => rfl

theorem EqOn.symm (h : EqOn start len m m') : EqOn start len m' m :=
  fun a hlo hhi => (h a hlo hhi).symm

theorem EqOn.trans {m'' : ByteMemory} (h : EqOn start len m m') (h' : EqOn start len m' m'') :
    EqOn start len m m'' := fun a hlo hhi => (h' a hlo hhi).trans (h a hlo hhi)

/-- Words inside the area are the same. -/
theorem EqOn.read32 (h : EqOn start len m m') (hlo : start ≤ a) (hhi : a + 4 ≤ start + len) :
    m'.read32 a = m.read32 a :=
  read32_congr fun k hk => h (a + k) (by omega) (by omega)

/-- A write outside the area. -/
theorem eqOn_write32 (h : a + 4 ≤ start ∨ start + len ≤ a) : EqOn start len m (m.write32 a x) :=
  fun _ hlo hhi => write32_outside (by omega)

/-- Another word is not touched. -/
theorem read32_write32_of_disjoint (h : b + 4 ≤ a ∨ a + 4 ≤ b) :
    (m.write32 a x).read32 b = m.read32 b :=
  (@eqOn_write32 m a b 4 x (by omega)).read32 (Nat.le_refl b) (Nat.le_refl _)

/-! ## Half words -/

theorem write16_outside {x : UInt16} (h : b < a ∨ a + 2 ≤ b) : m.write16 a x b = m b := by
  have hnot : ¬ (a ≤ b ∧ b < a + 2) := by omega
  rw [write16, if_neg hnot]

theorem write16_byte {x : UInt16} {k : Nat} (hk : k < 2) :
    (m.write16 a x (a + k)).toNat = x.toNat / 0x100 ^ k % 0x100 := by
  have hin : a ≤ a + k ∧ a + k < a + 2 := by omega
  rw [write16, if_pos hin, Nat.add_sub_cancel_left, UInt8.toNat_ofNat']

@[simp] theorem read16_write16 (m : ByteMemory) (a : Nat) (x : UInt16) :
    (m.write16 a x).read16 a = x := by
  have h0 : (m.write16 a x a).toNat = x.toNat / 0x100 ^ 0 % 0x100 :=
    write16_byte (k := 0) (by decide)
  have h1 := write16_byte (m := m) (a := a) (x := x) (k := 1) (by decide)
  have hx := x.toNat_lt
  have hsum : x.toNat / 0x100 ^ 0 % 0x100 + 0x100 * (x.toNat / 0x100 ^ 1 % 0x100) = x.toNat := by
    omega
  rw [read16, h0, h1, hsum, UInt16.ofNat_toNat]

/-- The lower half of a word. -/
theorem read32_toUInt16 (m : ByteMemory) (a : Nat) : (m.read32 a).toUInt16 = m.read16 a := by
  have h0 := (m a).toNat_lt
  have h1 := (m (a + 1)).toNat_lt
  have h2 := (m (a + 2)).toNat_lt
  have h3 := (m (a + 3)).toNat_lt
  rw [← UInt16.toNat_inj, UInt32.toNat_toUInt16, read32, read16, UInt32.toNat_ofNat_of_lt' (by
    show _ < 2 ^ 32
    omega), UInt16.toNat_ofNat_of_lt' (by
    show _ < 2 ^ 16
    omega)]
  omega

theorem eqOn_write16 {x : UInt16} (h : a + 2 ≤ start ∨ start + len ≤ a) :
    EqOn start len m (m.write16 a x) := fun _ hlo hhi => write16_outside (by omega)

theorem EqOn.read16 (h : EqOn start len m m') (hlo : start ≤ a) (hhi : a + 2 ≤ start + len) :
    m'.read16 a = m.read16 a := by
  have h0 : m' a = m a := h a hlo (by omega)
  rw [ByteMemory.read16, ByteMemory.read16, h0, h (a + 1) (by omega) (by omega)]

/-! ## Zero words -/

/-- A word of four zero bytes. -/
theorem read32_zero (h : ∀ k, k < 4 → m (a + k) = 0) : m.read32 a = 0 := by
  have h0 : m a = 0 := h 0 (by decide)
  rw [read32, h0, h 1 (by decide), h 2 (by decide), h 3 (by decide)]
  rfl

/-! ## Half words one after another -/

/-- Store `n` half words from the address `a` on. -/
def writeWords (word : Nat → UInt16) (a : Nat) : Nat → ByteMemory → ByteMemory
  | 0, m => m
  | n + 1, m => writeWords (fun i => word (i + 1)) (a + 2) n (m.write16 a (word 0))

theorem writeWords_apply (word : Nat → UInt16) (a n b : Nat) (m : ByteMemory) :
    writeWords word a n m b = if a ≤ b ∧ b < a + 2 * n then
      UInt8.ofNat ((word ((b - a) / 2)).toNat / 0x100 ^ ((b - a) % 2)) else m b := by
  induction n generalizing word a m with
  | zero =>
    rw [writeWords, if_neg (by omega)]
  | succ n ih =>
    rw [writeWords, ih]
    by_cases hlater : a + 2 ≤ b
    · -- the word is one of the others
      have hhalf : (b - (a + 2)) / 2 + 1 = (b - a) / 2 := by omega
      have hbyte : (b - (a + 2)) % 2 = (b - a) % 2 := by omega
      rw [hhalf, hbyte, write16_outside (by omega)]
      by_cases hin : b < a + 2 * (n + 1)
      · rw [if_pos (by omega), if_pos (by omega)]
      · rw [if_neg (by omega), if_neg (by omega)]
    · rw [if_neg (by omega), write16]
      by_cases hin : a ≤ b
      · have hhalf : (b - a) / 2 = 0 := by omega
        have hbyte : (b - a) % 2 = b - a := by omega
        rw [if_pos (by omega), if_pos (by omega), hhalf, hbyte]
      · rw [if_neg (by omega), if_neg (by omega)]

end ByteMemory

end OsKernel.Lib
