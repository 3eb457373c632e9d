import OsKernel.Lib.X86

/-!
# Segments, gates and the task state segment of the x86 in protected mode

Eight bytes of a table describe a segment, and eight bytes of another one say where an interrupt goes.

- `Segment`, `segmentAt`: a segment descriptor, as the processor takes it apart.
- `DescTable`, `DescTable.segment`: a table behind `gdtr` and the descriptor a selector names.
- `loadSelector`: a segment register is loaded, and the processor writes to the descriptor.
- `gateAt`, `DescTable.deliver`: a gate, and where an interrupt or an `int` instruction goes.
- `tssAt`, `ioPermitted`: the inner stack and the ports that a task state segment grants.
-/

namespace OsKernel.Lib

/-! ## Segments -/

/-- A segment descriptor. `access` holds the type, the descriptor's privilege level and the present
bit; `flags` are the four bits beside the limit. -/
@[ext] structure Segment where
  base : Nat
  /-- the field of 20 bits -/
  rawLimit : Nat
  access : UInt8
  flags : Nat
deriving DecidableEq

namespace Segment

def present (s : Segment) : Bool := decide (s.access.toNat / 0x80 = 1)

/-- The lowest privilege that may use it. -/
def dpl (s : Segment) : Nat := s.access.toNat / 0x20 % 4

/-- Code or data, and not a task state segment or a gate. -/
def isStorage (s : Segment) : Bool := decide (s.access.toNat / 0x10 % 2 = 1)

def type (s : Segment) : Nat := s.access.toNat % 0x10

/-- The limit counts units of 4 KB. -/
def granular (s : Segment) : Bool := decide (s.flags / 8 % 2 = 1)

/-- The last offset in the segment. -/
def limit (s : Segment) : Nat := if s.granular then 0x1000 * s.rawLimit + 0xfff else s.rawLimit

end Segment

/-- The descriptor at an address. -/
def segmentAt (m : ByteMemory) (a : Nat) : Segment where
  base := (m.read16 (a + 2)).toNat + 0x10000 * (m (a + 4)).toNat + 0x1000000 * (m (a + 7)).toNat
  rawLimit := (m.read16 a).toNat + 0x10000 * ((m (a + 6)).toNat % 0x10)
  access := m (a + 5)
  flags := (m (a + 6)).toNat / 0x10

/-- The descriptor in two words. -/
def Segment.ofWords (low high : UInt32) : Segment where
  base := low.toNat / 0x10000 + 0x10000 * (high.toNat % 0x100) + 0x1000000 * (high.toNat / 0x1000000)
  rawLimit := low.toNat % 0x10000 + 0x10000 * (high.toNat / 0x10000 % 0x10)
  access := UInt8.ofNat (high.toNat / 0x100)
  flags := high.toNat / 0x100000 % 0x10

/-- What `lgdt` and `lidt` load. -/
structure DescTable where
  base : Nat
  limit : Nat
deriving DecidableEq

/-- The 48 bits of the operand of `lgdt` and `lidt`. -/
def DescTable.ofOperand (operand : UInt64) : DescTable where
  base := operand.toNat / 0x10000 % 0x100000000
  limit := operand.toNat % 0x10000

/-- The segment a selector names: its index is not 0 and within the table. -/
def DescTable.segment (gdtr : DescTable) (m : ByteMemory) (selector : Nat) : Option Segment :=
  if 0 < selector / 8 ∧ selector / 4 % 2 = 0 ∧ 8 * (selector / 8) + 7 ≤ gdtr.limit then
    some (segmentAt m (gdtr.base + 8 * (selector / 8)))
  else none

/-- The processor sets the accessed bit of the descriptor at an address. -/
def markAccessed (m : ByteMemory) (a : Nat) : ByteMemory :=
  Function.update m (a + 5) (m (a + 5) ||| 1)

/-- The segment after it has been loaded. A task state segment has no accessed bit. -/
def Segment.marked (accessed : Bool) (s : Segment) : Segment :=
  if accessed && s.isStorage then { s with access := s.access ||| 1 } else s

/-- A segment register is loaded: the selector has to name a code or data segment that is present, and
its descriptor is marked as accessed. Privilege levels are not checked here. -/
def loadSelector (gdtr : DescTable) (selector : Nat) (m : ByteMemory) : Option ByteMemory := do
  let s ← gdtr.segment m selector
  if s.isStorage = true ∧ s.present = true then
    some (markAccessed m (gdtr.base + 8 * (selector / 8)))
  else none

/-! ## Gates -/

/-- The gate at an address. -/
def gateAt (m : ByteMemory) (a : Nat) : Gate where
  selector := m.read16 (a + 2)
  offset := UInt32.ofNat ((m.read16 a).toNat + 0x10000 * (m.read16 (a + 6)).toNat)

/-- The byte with the type, the privilege level and the present bit. -/
def gateAccess (m : ByteMemory) (a : Nat) : UInt8 := m (a + 5)

/-- The gate through which an interrupt goes. `cpl` is the privilege level of an `int` instruction; a
device or an exception has none. Without a gate the processor raises another exception. Only 32-bit
interrupt gates are modelled. -/
def DescTable.deliver (idtr : DescTable) (m : ByteMemory) (vector : Nat) (cpl : Option Nat) :
    Option Gate :=
  let access := (gateAccess m (idtr.base + 8 * vector)).toNat
  if 8 * vector + 7 ≤ idtr.limit ∧ access % 0x20 = 0x0e ∧ access / 0x80 = 1 ∧
      cpl.all (fun c => decide (c ≤ access / 0x20 % 4)) = true then
    some (gateAt m (idtr.base + 8 * vector))
  else none

/-! ## The task state segment -/

/-- The stack of privilege level 0 in the task state segment at an address. -/
def tssAt (m : ByteMemory) (a : Nat) : Tss where
  esp0 := m.read32 (a + 4)
  ss0 := m.read16 (a + 8)

/-- `ltr`: the segment has to be an available task state segment, and it is marked as busy. -/
def ltr (gdtr : DescTable) (selector : Nat) (m : ByteMemory) : Option (Segment × ByteMemory) := do
  let s ← gdtr.segment m selector
  if s.isStorage = false ∧ s.type = 9 ∧ s.present = true then
    some ({ s with access := s.access ||| 2 },
      Function.update m (gdtr.base + 8 * (selector / 8) + 5) (s.access ||| 2))
  else none

/-- A program may access a port of one byte: its level is privileged enough, or the bit of the port is
0 in the map at the word with offset 102. Two bytes of the map are read each time. -/
def ioPermitted (tr : Segment) (m : ByteMemory) (cpl iopl port : Nat) : Bool :=
  let map := (m.read16 (tr.base + 102)).toNat
  decide (cpl ≤ iopl ∨ (103 ≤ tr.limit ∧ map + port / 8 + 1 ≤ tr.limit ∧
    (m (tr.base + map + port / 8)).toNat.testBit (port % 8) = false))

/-! ## Memory that is not written -/

variable {m m' : ByteMemory} {a : Nat}

theorem read32_toNat (m : ByteMemory) (a : Nat) : (m.read32 a).toNat = (m a).toNat +
    0x100 * (m (a + 1)).toNat + 0x10000 * (m (a + 2)).toNat + 0x1000000 * (m (a + 3)).toNat := by
  have h0 := (m a).toNat_lt
  have h1 := (m (a + 1)).toNat_lt
  have h2 := (m (a + 2)).toNat_lt
  have h3 := (m (a + 3)).toNat_lt
  exact UInt32.toNat_ofNat_of_lt' (by simp only [UInt32.size]; omega)

theorem read16_toNat (m : ByteMemory) (a : Nat) :
    (m.read16 a).toNat = (m a).toNat + 0x100 * (m (a + 1)).toNat := by
  have h0 := (m a).toNat_lt
  have h1 := (m (a + 1)).toNat_lt
  exact UInt16.toNat_ofNat_of_lt' (by simp only [UInt16.size]; omega)

theorem segmentAt_eq_ofWords (m : ByteMemory) (a : Nat) :
    segmentAt m a = .ofWords (m.read32 a) (m.read32 (a + 4)) := by
  have hlt : ∀ b, (m b).toNat < 0x100 := fun b => (m b).toNat_lt
  have h0 := hlt a
  have h1 := hlt (a + 1)
  have h2 := hlt (a + 2)
  have h3 := hlt (a + 3)
  have h4 := hlt (a + 4)
  have h5 := hlt (a + 5)
  have h6 := hlt (a + 6)
  refine Segment.ext ?_ ?_ ?_ ?_
  · simp only [segmentAt, Segment.ofWords, read32_toNat, read16_toNat, Nat.add_assoc, Nat.reduceAdd]
    omega
  · simp only [segmentAt, Segment.ofWords, read32_toNat, read16_toNat, Nat.add_assoc, Nat.reduceAdd]
    omega
  · refine UInt8.toNat_inj.mp ?_
    simp only [segmentAt, Segment.ofWords, read32_toNat, UInt8.toNat_ofNat', Nat.add_assoc, Nat.reduceAdd]
    omega
  · simp only [segmentAt, Segment.ofWords, read32_toNat, Nat.add_assoc, Nat.reduceAdd]
    omega

theorem segmentAt_congr (h : ByteMemory.EqOn a 8 m m') : segmentAt m' a = segmentAt m a := by
  have hlow : m'.read16 a = m.read16 a := h.read16 (Nat.le_refl a) (by omega)
  have hbase : m'.read16 (a + 2) = m.read16 (a + 2) := h.read16 (by omega) (by omega)
  rw [segmentAt, segmentAt, hlow, hbase, h (a + 4) (by omega) (by omega),
    h (a + 5) (by omega) (by omega), h (a + 6) (by omega) (by omega),
    h (a + 7) (by omega) (by omega)]

theorem segmentAt_update (m : ByteMemory) (a : Nat) (access : UInt8) :
    segmentAt (Function.update m (a + 5) access) a = { segmentAt m a with access := access } := by
  have hother : ∀ b, b ≠ a + 5 → Function.update m (a + 5) access b = m b := fun b hb =>
    Function.update_of_ne hb access m
  have hlow : ByteMemory.EqOn a 5 m (Function.update m (a + 5) access) := fun b _ hhi =>
    hother b (by omega)
  rw [segmentAt, hlow.read16 (Nat.le_refl a) (by omega), hlow.read16 (by omega) (by omega),
    hother (a + 4) (by omega), hother (a + 6) (by omega), hother (a + 7) (by omega),
    Function.update_self]
  rfl

theorem markAccessed_of_ne {b : Nat} (h : b ≠ a + 5) : markAccessed m a b = m b :=
  Function.update_of_ne h ..

theorem markAccessed_self (m : ByteMemory) (a : Nat) : markAccessed m a (a + 5) = m (a + 5) ||| 1 :=
  Function.update_self ..

/-- Marking a descriptor twice. -/
theorem markAccessed_twice (m : ByteMemory) (a : Nat) :
    markAccessed (markAccessed m a) a = markAccessed m a := by
  rw [markAccessed, markAccessed_self, UInt8.or_assoc, UInt8.or_self]
  exact Function.update_idem ..

/-- The accessed bit is the lowest one of the access byte. -/
theorem segmentAt_markAccessed (h : (segmentAt m a).isStorage = true) :
    segmentAt (markAccessed m a) a = (segmentAt m a).marked true := by
  rw [markAccessed, segmentAt_update, Segment.marked, h]
  rfl

theorem Segment.marked_of_storage {s : Segment} (h : s.isStorage = true) :
    s.marked true = { s with access := s.access ||| 1 } := by
  rw [Segment.marked, h]
  rfl

/-- The upper bits of the access byte stay. -/
theorem Segment.marked_access (accessed : Bool) (s : Segment) {n : Nat} (hn : 0 < n) :
    (s.marked accessed).access.toNat / 2 ^ n = s.access.toNat / 2 ^ n := by
  unfold Segment.marked
  split
  · have hone : 1 / 2 ^ n = 0 := Nat.div_eq_of_lt (Nat.one_lt_two_pow (by omega))
    have hor : (s.access ||| 1).toNat / 2 ^ n = s.access.toNat / 2 ^ n := by
      rw [UInt8.toNat_or, Nat.or_div_two_pow, show (1 : UInt8).toNat = 1 from rfl, hone, Nat.or_zero]
    exact hor
  · rfl

theorem Segment.marked_isStorage (accessed : Bool) (s : Segment) :
    (s.marked accessed).isStorage = s.isStorage :=
  congrArg (fun n => decide (n % 2 = 1)) (s.marked_access accessed (n := 4) (by decide))

theorem Segment.marked_dpl (accessed : Bool) (s : Segment) : (s.marked accessed).dpl = s.dpl :=
  congrArg (· % 4) (s.marked_access accessed (n := 5) (by decide))

theorem Segment.marked_present (accessed : Bool) (s : Segment) :
    (s.marked accessed).present = s.present :=
  congrArg (fun n => decide (n = 1)) (s.marked_access accessed (n := 7) (by decide))

theorem Segment.marked_base (accessed : Bool) (s : Segment) : (s.marked accessed).base = s.base := by
  unfold Segment.marked
  split <;> rfl

theorem Segment.marked_limit (accessed : Bool) (s : Segment) :
    (s.marked accessed).limit = s.limit := by
  unfold Segment.marked
  split <;> rfl

/-- Loading once more changes nothing. -/
theorem Segment.marked_marked {accessed : Bool} {s : Segment} (h : s.isStorage = true) :
    (s.marked accessed).marked true = s.marked true := by
  have hstorage := s.marked_isStorage accessed
  rw [h] at hstorage
  cases accessed with
  | false => rfl
  | true =>
    rw [marked_of_storage hstorage, marked_of_storage h]
    dsimp only
    rw [UInt8.or_assoc, UInt8.or_self]

/-- What a load of a segment register has found, and what it has written. -/
theorem loadSelector_cases {gdtr : DescTable} {selector : Nat}
    (h : loadSelector gdtr selector m = some m') :
    ∃ s, gdtr.segment m selector = some s ∧ s.isStorage = true ∧
      m' = markAccessed m (gdtr.base + 8 * (selector / 8)) := by
  obtain ⟨s, hs, h⟩ := Option.bind_eq_some_iff.mp h
  split at h
  · next hok =>
    cases h
    exact ⟨s, hs, hok.1, rfl⟩
  · cases h

theorem gateAt_congr (h : ByteMemory.EqOn a 8 m m') : gateAt m' a = gateAt m a := by
  have hlow : m'.read16 a = m.read16 a := h.read16 (Nat.le_refl a) (by omega)
  have hsel : m'.read16 (a + 2) = m.read16 (a + 2) := h.read16 (by omega) (by omega)
  have hhigh : m'.read16 (a + 6) = m.read16 (a + 6) := h.read16 (by omega) (by omega)
  rw [gateAt, gateAt, hlow, hsel, hhigh]

theorem gateAccess_congr (h : ByteMemory.EqOn a 8 m m') : gateAccess m' a = gateAccess m a :=
  h (a + 5) (by omega) (by omega)

end OsKernel.Lib
