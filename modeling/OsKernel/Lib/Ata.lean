import Mathlib.Data.UInt
import Mathlib.Tactic.Ring

/-!
# A disk behind the ports of an ATA channel

Sectors are read with 28-bit addresses: registers select them, the status register says whether data
are there, and the data register gives them word by word. A host that reads too early gets a word that
is no data.

- `Ata.outb`, `Ata.inb`, `Ata.inw`: the ports.
- `Ata.wordAt`: the words that a host gets which only reads on.
- `Started.wordAt`, `Started.steady`: these are the words of the sectors if only the first sector of the
  command lets the host wait, and in no other case.
-/

namespace OsKernel.Lib

/-- A disk and the registers of its channel. -/
structure Ata where
  /-- The words of a sector -/
  sector : Nat → Nat → UInt16
  /-- How many reads come too early for the `k`-th sector of a command -/
  delay : Nat → Nat
  /-- What the data register gives when it has no data -/
  idle : UInt16
  count : UInt8
  lbaLow : UInt8
  lbaMid : UInt8
  lbaHigh : UInt8
  device : UInt8
  /-- The command under way: the first sector, the number of words, those that have been read, and how
  many reads will still be too early -/
  start : Nat
  total : Nat
  pos : Nat
  wait : Nat

namespace Ata

/-- The number of the first sector -/
def lba (d : Ata) : Nat :=
  d.lbaLow.toNat + 0x100 * d.lbaMid.toNat + 0x10000 * d.lbaHigh.toNat +
    0x1000000 * (d.device.toNat % 16)

/-- 0 stands for 256 sectors. -/
def sectors (d : Ata) : Nat := if d.count = 0 then 256 else d.count.toNat

/-- READ SECTORS, for the first disk and with addresses of 28 bits. Other commands, and other ways to
address sectors, are not part of this library. -/
def readSectors (d : Ata) : Ata :=
  if d.device &&& 0x50 = 0x40 then
    { d with start := d.lba, total := 256 * d.sectors, pos := 0, wait := d.delay 0 }
  else { d with total := 0, pos := 0, wait := 0 }

def outb (port : UInt16) (x : UInt8) (d : Ata) : Ata :=
  match port with
  | 0x1f2 => { d with count := x }
  | 0x1f3 => { d with lbaLow := x }
  | 0x1f4 => { d with lbaMid := x }
  | 0x1f5 => { d with lbaHigh := x }
  | 0x1f6 => { d with device := x }
  | 0x1f7 => if x = 0x20 then d.readSectors else d
  | _ => d

/-- The status: busy, or ready with data, or ready without. -/
def status (d : Ata) : UInt8 × Ata :=
  if d.total ≤ d.pos then (0x50, d)
  else if d.wait = 0 then (0x58, d)
  else (0x80, { d with wait := d.wait - 1 })

def inb (port : UInt16) (d : Ata) : UInt8 × Ata :=
  match port with
  | 0x1f2 => (d.count, d)
  | 0x1f3 => (d.lbaLow, d)
  | 0x1f4 => (d.lbaMid, d)
  | 0x1f5 => (d.lbaHigh, d)
  | 0x1f6 => (d.device, d)
  | 0x1f7 => d.status
  | _ => (0xff, d)

/-- A word has been read; the next sector may have to be waited for. -/
def advance (d : Ata) : Ata :=
  { d with
    pos := d.pos + 1
    wait := if (d.pos + 1) % 256 = 0 then d.delay ((d.pos + 1) / 256) else 0 }

/-- The data register -/
def data (d : Ata) : UInt16 × Ata :=
  if d.total ≤ d.pos then (d.idle, d)
  else if d.wait = 0 then (d.sector (d.start + d.pos / 256) (d.pos % 256), d.advance)
  else (d.idle, { d with wait := d.wait - 1 })

def inw (port : UInt16) (d : Ata) : UInt16 × Ata :=
  if port = 0x1f0 then d.data else (0xffff, d)

/-- The disk after `n` reads of the data register -/
def afterReads : Nat → Ata → Ata
  | 0, d => d
  | n + 1, d => d.data.2.afterReads n

/-- The word that the next read but `n` gives -/
def wordAt (d : Ata) (n : Nat) : UInt16 := (d.afterReads n).data.1

theorem afterReads_succ (d : Ata) (n : Nat) : d.afterReads (n + 1) = (d.afterReads n).data.2 := by
  induction n generalizing d with
  | zero => rfl
  | succ n ih => exact ih d.data.2

/-- Reads do not change the disk. -/
theorem afterReads_disk (d : Ata) (n : Nat) : (d.afterReads n).sector = d.sector ∧
    (d.afterReads n).delay = d.delay ∧ (d.afterReads n).idle = d.idle := by
  induction n generalizing d with
  | zero => exact ⟨rfl, rfl, rfl⟩
  | succ n ih =>
    have hdata : d.data.2.sector = d.sector ∧ d.data.2.delay = d.delay ∧ d.data.2.idle = d.idle := by
      unfold data
      split
      · exact ⟨rfl, rfl, rfl⟩
      · split
        · exact ⟨rfl, rfl, rfl⟩
        · exact ⟨rfl, rfl, rfl⟩
    obtain ⟨hsector, hdelay, hidle⟩ := ih d.data.2
    exact ⟨hsector.trans hdata.1, hdelay.trans hdata.2.1, hidle.trans hdata.2.2⟩

/-! ## Reading on -/

/-- A command has been given, and its first sector is there. -/
structure Started (d : Ata) (lba n : Nat) : Prop where
  start : d.start = lba
  total : d.total = 256 * n
  pos : d.pos = 0
  wait : d.wait = 0

/-- Only for the first sector does a host have to wait. -/
def Steady (d : Ata) (n : Nat) : Prop := ∀ k, 0 < k → k < n → d.delay k = 0

section Reads

variable {d : Ata} {lba n i : Nat}

/-- The `i`-th word of the command, as long as no sector lets the host wait. -/
theorem Started.afterReads (h : d.Started lba n) (hi : i ≤ 256 * n)
    (hsteady : ∀ k, 0 < k → 256 * k < i → d.delay k = 0) : d.afterReads i =
      { d with pos := i, wait := if i % 256 = 0 ∧ 0 < i then d.delay (i / 256) else 0 } := by
  induction i with
  | zero =>
    have hnone : (if 0 % 256 = 0 ∧ 0 < 0 then d.delay (0 / 256) else 0) = d.wait := h.wait.symm
    rw [Ata.afterReads, hnone, ← h.pos]
  | succ i ih =>
    have hnow : (if i % 256 = 0 ∧ 0 < i then d.delay (i / 256) else 0) = 0 := by
      split
      · next hsector => exact hsteady _ (by omega) (by omega)
      · rfl
    have hmore : ¬ d.total ≤ i := by
      rw [h.total]
      omega
    rw [afterReads_succ, ih (by omega) fun k hk hlt => hsteady k hk (by omega), hnow, data]
    simp [hmore, advance]

/-- **A steady disk** gives the sectors of the command one after another, and no data afterwards. -/
theorem Started.wordAt (h : d.Started lba n) (hsteady : d.Steady n) (i : Nat) : d.wordAt i =
    if i < 256 * n then d.sector (lba + i / 256) (i % 256) else d.idle := by
  split
  · next hlt =>
    have hnow : (if i % 256 = 0 ∧ 0 < i then d.delay (i / 256) else 0) = 0 := by
      split
      · next hsector => exact hsteady _ (by omega) (by omega)
      · rfl
    have hmore : ¬ d.total ≤ i := by
      rw [h.total]
      omega
    rw [Ata.wordAt, h.afterReads (by omega) fun k hk hk' => hsteady k hk (by omega), hnow, data]
    simp [hmore, h.start]
  · next hge =>
    -- the command is over
    obtain ⟨j, rfl⟩ := Nat.exists_eq_add_of_le (Nat.not_lt.mp hge)
    have hdone : ∀ j, (d.afterReads (256 * n + j)).total ≤ (d.afterReads (256 * n + j)).pos ∧
        (d.afterReads (256 * n + j)).idle = d.idle := by
      intro j
      induction j with
      | zero =>
        rw [Nat.add_zero, h.afterReads (Nat.le_refl _) fun k hk hk' => hsteady k hk (by omega)]
        exact ⟨Nat.le_of_eq h.total, rfl⟩
      | succ j ih =>
        have hsame : (d.afterReads (256 * n + j)).data.2 = d.afterReads (256 * n + j) := by
          rw [data, if_pos ih.1]
        rw [← Nat.add_assoc, afterReads_succ, hsame]
        exact ih
    rw [Ata.wordAt, data, if_pos (hdone j).1]
    exact (hdone j).2

/-- **Only a steady disk** can be read on: a sector that comes too late is missing, as long as its words
differ from the word that stands for no data. -/
theorem Started.steady (h : d.Started lba n) (hidle : ∀ l k, d.sector l k ≠ d.idle)
    (hright : ∀ i, i < 256 * n → d.wordAt i = d.sector (lba + i / 256) (i % 256)) : d.Steady n := by
  by_contra hnot
  simp only [Steady, not_forall] at hnot
  obtain ⟨k, hpos, hlt, hne⟩ := hnot
  have hex : ∃ k, 0 < k ∧ k < n ∧ d.delay k ≠ 0 := ⟨k, hpos, hlt, hne⟩
  -- the first sector that is late
  obtain ⟨k, ⟨hpos, hlt, hne⟩, hmin⟩ : ∃ k, (0 < k ∧ k < n ∧ d.delay k ≠ 0) ∧
      ∀ l, l < k → ¬ (0 < l ∧ l < n ∧ d.delay l ≠ 0) :=
    ⟨Nat.find hex, Nat.find_spec hex, fun l hl => Nat.find_min hex hl⟩
  have hword := hright (256 * k) (by omega)
  have hreads := h.afterReads (i := 256 * k) (by omega) (by
    intro l hl hlk
    by_contra hdelay
    exact hmin l (by omega) ⟨hl, by omega, hdelay⟩)
  have hmore : ¬ d.total ≤ 256 * k := by
    rw [h.total]
    omega
  rw [Ata.wordAt, hreads, data] at hword
  simp [hmore, hpos, hne] at hword
  exact hidle _ _ hword.symm

/-- A disk that has been told to read becomes ready. -/
theorem status_ready (hlt : d.pos < d.total) (hwait : d.wait = 0) : d.status = (0x58, d) := by
  rw [status, if_neg (by omega), if_pos hwait]

theorem status_busy (hlt : d.pos < d.total) (hwait : d.wait ≠ 0) :
    d.status = (0x80, { d with wait := d.wait - 1 }) := by
  rw [status, if_neg (by omega), if_neg hwait]

end Reads

end Ata

end OsKernel.Lib
