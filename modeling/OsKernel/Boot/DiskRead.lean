import OsKernel.Boot.MemoryDetect
import OsKernel.Lib.Ata

/-!
# boot/mbr.S and boot/loader.S: rd_disk_m_16 and rd_disk_m_32

The MBR reads the loader, and the loader reads the kernel. Both routines wait for the first sector of
a command only. The second one counts the words in `ecx`, of which it sets the lower half.

- `rdDiskM16`, `rdDiskM32`: the routines.
- `rd_disk_m_16_right_iff`: the first one is right if and only if the disk is steady.
- `rd_disk_m_32_right_iff`: the second one needs an upper half of `ecx` that fits, too.
-/

namespace OsKernel

open Lib ByteMemory

/-! ## Registers -/

/-- Write the lowest byte of a register. -/
def setByte (r : UInt32) (x : UInt8) : UInt32 := UInt32.ofNat (r.toNat / 0x100 * 0x100 + x.toNat)

namespace RealMode

def al (s : RealMode) : UInt8 := s.eax.toUInt8
def cl (s : RealMode) : UInt8 := s.ecx.toUInt8
def dx (s : RealMode) : UInt16 := s.edx.toUInt16

def setAl (x : UInt8) (s : RealMode) : RealMode := { s with eax := setByte s.eax x }
def setCl (x : UInt8) (s : RealMode) : RealMode := { s with ecx := setByte s.ecx x }
def setBx (x : UInt16) (s : RealMode) : RealMode := { s with ebx := setLow s.ebx x }
def setDx (x : UInt16) (s : RealMode) : RealMode := { s with edx := setLow s.edx x }

/-- `shr eax, cl` -/
def shrEax (s : RealMode) : RealMode := { s with eax := s.eax >>> s.cl.toUInt32 }

/-- `mul dx`: the product goes to `dx` and `ax`. -/
def mulDx (s : RealMode) : RealMode :=
  let product := s.ax.toNat * s.dx.toNat
  { s with
    eax := setLow s.eax (UInt16.ofNat product)
    edx := setLow s.edx (UInt16.ofNat (product / 0x10000)) }

end RealMode

/-! ## The routines -/

/-- The processor with its memory, and the disk. -/
structure Booting where
  cpu : RealMode
  ata : Ata

namespace Booting

/-- `out dx, al` -/
def outAl (s : Booting) : Booting := { s with ata := s.ata.outb s.cpu.dx s.cpu.al }

/-- `in al, dx` -/
def inAl (s : Booting) : Booting :=
  let (x, ata) := s.ata.inb s.cpu.dx
  { cpu := s.cpu.setAl x, ata := ata }

/-- `in ax, dx` -/
def inAx (s : Booting) : Booting :=
  let (x, ata) := s.ata.inw s.cpu.dx
  { cpu := s.cpu.setAx x, ata := ata }

end Booting

/-- Both routines: the number of sectors -/
def selectCount (s : Booting) : Booting :=
  let s := { s with cpu := { s.cpu with esi := s.cpu.eax } }
  let s := { s with cpu := { s.cpu with di := s.cpu.cx } }
  let s := { s with cpu := s.cpu.setDx 0x1f2 }
  let s := { s with cpu := s.cpu.setAl s.cpu.cl }
  let s := s.outAl
  { s with cpu := { s.cpu with eax := s.cpu.esi } }

/-- Both routines: the three lower bytes of the address -/
def selectLba (s : Booting) : Booting :=
  let s := { s with cpu := s.cpu.setDx 0x1f3 }
  let s := s.outAl
  let s := { s with cpu := s.cpu.setCl 8 }
  let s := { s with cpu := s.cpu.shrEax }
  let s := { s with cpu := s.cpu.setDx 0x1f4 }
  let s := s.outAl
  let s := { s with cpu := s.cpu.shrEax }
  let s := { s with cpu := s.cpu.setDx 0x1f5 }
  s.outAl

/-- Both routines: the rest of the address, and the command -/
def sendCommand (s : Booting) : Booting :=
  let s := { s with cpu := s.cpu.shrEax }
  let s := { s with cpu := s.cpu.setAl (s.cpu.al &&& 0x0f) }
  let s := { s with cpu := s.cpu.setAl (s.cpu.al ||| 0xe0) }
  let s := { s with cpu := s.cpu.setDx 0x1f6 }
  let s := s.outAl
  let s := { s with cpu := s.cpu.setDx 0x1f7 }
  let s := { s with cpu := s.cpu.setAl 0x20 }
  s.outAl

/-- Both routines, up to `.not_ready` -/
def rdDiskCommand (s : Booting) : Booting := sendCommand (selectLba (selectCount s))

/-- `.not_ready`, if it takes at most that many turns -/
def notReady : Nat → Booting → Option Booting
  | 0, _ => none
  | polls + 1, s =>
    let s := s.inAl
    let s := { s with cpu := s.cpu.setAl (s.cpu.al &&& 0x88) }
    if s.cpu.al = 0x08 then some s else notReady polls s

/-- Both routines behind `.not_ready`, up to `.go_on_read`: the number of words -/
def rdDiskCount (s : Booting) : Booting :=
  let s := { s with cpu := s.cpu.setAx s.cpu.di }
  let s := { s with cpu := s.cpu.setDx 256 }
  let s := { s with cpu := s.cpu.mulDx }
  let s := { s with cpu := s.cpu.setCx s.cpu.ax }
  { s with cpu := s.cpu.setDx 0x1f0 }

/-- `.go_on_read`: one turn, and `loop` with its counter -/
def goOnRead (turn : Booting → Booting) (counter : Booting → Nat) : Nat → Booting → Booting
  | 0, s => s
  | turns + 1, s =>
    let s := turn s
    if counter s ≠ 0 then goOnRead turn counter turns s else s

/-- A turn of the MBR -/
def readWord16 (s : Booting) : Booting :=
  let s := s.inAx
  let s := { s with cpu := { s.cpu with ram := s.cpu.ram.write16 s.cpu.bx.toNat s.cpu.ax } }
  let s := { s with cpu := s.cpu.setBx (s.cpu.bx + 2) }
  { s with cpu := s.cpu.setCx (s.cpu.cx - 1) }

/-- A turn of the loader -/
def readWord32 (s : Booting) : Booting :=
  let s := s.inAx
  let s := { s with cpu := { s.cpu with ram := s.cpu.ram.write16 s.cpu.ebx.toNat s.cpu.ax } }
  let s := { s with cpu := { s.cpu with ebx := s.cpu.ebx + 2 } }
  { s with cpu := { s.cpu with ecx := s.cpu.ecx - 1 } }

/-- In the MBR, `loop` counts in `cx`. -/
def goOnRead16 (s : Booting) : Booting := goOnRead readWord16 (fun s => s.cpu.cx.toNat) 0x10000 s

/-- In the loader, `loop` counts in `ecx`. -/
def goOnRead32 (s : Booting) : Booting := goOnRead readWord32 (fun s => s.cpu.ecx.toNat) 0x100000000 s

/-- `rd_disk_m_16` -/
def rdDiskM16 (polls : Nat) (s : Booting) : Option Booting := do
  let s ← notReady polls (rdDiskCommand s)
  return goOnRead16 (rdDiskCount s)

/-- `rd_disk_m_32` -/
def rdDiskM32 (polls : Nat) (s : Booting) : Option Booting := do
  let s ← notReady polls (rdDiskCommand s)
  return goOnRead32 (rdDiskCount s)

/-! ## The command -/

theorem toNat_setByte (r : UInt32) (x : UInt8) :
    (setByte r x).toNat = r.toNat / 0x100 * 0x100 + x.toNat := by
  have hr := r.toNat_lt
  have hx := x.toNat_lt
  rw [setByte, UInt32.toNat_ofNat']
  exact Nat.mod_eq_of_lt (by omega)

@[simp] theorem toUInt8_setByte (r : UInt32) (x : UInt8) : (setByte r x).toUInt8 = x := by
  have hx := x.toNat_lt
  apply UInt8.toNat_inj.mp
  rw [UInt32.toNat_toUInt8, toNat_setByte]
  omega

section Command

variable (s : Booting)

theorem selectCount_ata : (selectCount s).ata = s.ata.outb 0x1f2 s.cpu.cl := by
  simp only [selectCount, Booting.outAl, RealMode.setDx, RealMode.setAl, RealMode.dx, RealMode.al,
    RealMode.cl, toUInt16_setLow, toUInt8_setByte]

theorem selectCount_eax : (selectCount s).cpu.eax = s.cpu.eax := by
  simp only [selectCount, Booting.outAl, RealMode.setDx, RealMode.setAl]

theorem selectLba_ata : (selectLba s).ata =
    ((s.ata.outb 0x1f3 s.cpu.eax.toUInt8).outb 0x1f4 (s.cpu.eax >>> 8).toUInt8).outb 0x1f5
      (s.cpu.eax >>> 8 >>> 8).toUInt8 := by
  simp only [selectLba, Booting.outAl, RealMode.setDx, RealMode.setCl, RealMode.shrEax, RealMode.dx,
    RealMode.al, RealMode.cl, toUInt16_setLow, toUInt8_setByte]
  rfl

theorem selectLba_eax : (selectLba s).cpu.eax = s.cpu.eax >>> 8 >>> 8 := by
  simp only [selectLba, Booting.outAl, RealMode.setDx, RealMode.setCl, RealMode.shrEax,
    RealMode.cl, toUInt8_setByte]
  rfl

theorem selectLba_cl : (selectLba s).cpu.cl = 8 := by
  simp only [selectLba, Booting.outAl, RealMode.setDx, RealMode.setCl, RealMode.shrEax, RealMode.cl,
    toUInt8_setByte]

theorem sendCommand_ata {s : Booting} (hcl : s.cpu.cl = 8) : (sendCommand s).ata =
    (s.ata.outb 0x1f6 ((s.cpu.eax >>> 8).toUInt8 &&& 0x0f ||| 0xe0)).outb 0x1f7 0x20 := by
  rw [RealMode.cl] at hcl
  simp only [sendCommand, Booting.outAl, RealMode.setDx, RealMode.setAl, RealMode.shrEax, RealMode.dx,
    RealMode.al, RealMode.cl, toUInt16_setLow, toUInt8_setByte, hcl]
  rfl

/-- The device register: addresses of 28 bits, the first disk. -/
theorem deviceByte (x : UInt8) : (x &&& 0x0f ||| 0xe0) &&& 0x50 = 0x40 ∧
    (x &&& 0x0f ||| 0xe0).toNat % 16 = x.toNat % 16 := by
  have hdigits : ∀ k, k < 16 → (UInt8.ofNat k ||| 0xe0) &&& 0x50 = 0x40 ∧
      (UInt8.ofNat k ||| 0xe0).toNat % 16 = k := by decide
  have hlow : x &&& 0x0f = UInt8.ofNat (x.toNat % 16) := by
    apply UInt8.toNat_inj.mp
    rw [UInt8.toNat_and, UInt8.toNat_ofNat', Nat.mod_eq_of_lt (by omega : x.toNat % 16 < 2 ^ 8)]
    exact Nat.and_two_pow_sub_one_eq_mod x.toNat 4
  rw [hlow]
  exact hdigits _ (Nat.mod_lt _ (by decide))

/-- The number of sectors that a command with the count `x` reads -/
def sectorsOf (x : UInt8) : Nat := if x = 0 then 256 else x.toNat

/-- The disk has been told to read `n` sectors from `lba` on. -/
structure Commanded (d d' : Ata) (lba n : Nat) : Prop where
  sector : d'.sector = d.sector
  delay : d'.delay = d.delay
  idle : d'.idle = d.idle
  start : d'.start = lba
  total : d'.total = 256 * n
  pos : d'.pos = 0
  wait : d'.wait = d.delay 0

/-- What the disk is told: the sectors from the number in the lower 28 bits of `eax` on. -/
theorem rdDiskCommand_ata :
    Commanded s.ata (rdDiskCommand s).ata (s.cpu.eax.toNat % 2 ^ 28) (sectorsOf s.cpu.cl) := by
  have hata := sendCommand_ata (selectLba_cl (selectCount s))
  rw [← rdDiskCommand, selectLba_eax, selectLba_ata, selectCount_ata, selectCount_eax] at hata
  obtain ⟨hmode, hlow⟩ := deviceByte (s.cpu.eax >>> 8 >>> 8 >>> 8).toUInt8
  generalize (s.cpu.eax >>> 8 >>> 8 >>> 8).toUInt8 &&& 0x0f ||| 0xe0 = device at *
  simp only [Ata.outb, Ata.readSectors, hmode, if_true] at hata
  rw [hata]
  refine ⟨rfl, rfl, rfl, ?_, rfl, rfl, rfl⟩
  dsimp only [Ata.lba]
  rw [hlow]
  have height : (8 : UInt32).toNat % 32 = 8 := rfl
  simp only [UInt32.toNat_toUInt8, UInt32.toNat_shiftRight, height, Nat.shiftRight_eq_div_pow]
  omega

/-- The other registers and the memory. -/
structure CommandSent (c c' : RealMode) : Prop where
  ram : c'.ram = c.ram
  ebx : c'.ebx = c.ebx
  di : c'.di = c.cx
  esi : c'.esi = c.eax
  dx : c'.dx = 0x1f7
  ecx : c'.ecx.toNat / 0x10000 = c.ecx.toNat / 0x10000

theorem rdDiskCommand_cpu : CommandSent s.cpu (rdDiskCommand s).cpu := by
  have hhalf : (setByte s.cpu.ecx 8).toNat / 0x10000 = s.cpu.ecx.toNat / 0x10000 := by
    have height : (8 : UInt8).toNat = 8 := rfl
    rw [toNat_setByte, height]
    omega
  constructor <;> simp only [rdDiskCommand, sendCommand, selectLba, selectCount, Booting.outAl,
    RealMode.setDx, RealMode.setCl, RealMode.setAl, RealMode.shrEax, RealMode.dx, toUInt16_setLow]
  · rfl
  · exact hhalf

end Command

/-! ## Waiting -/

section Waiting

variable {s : Booting} {polls : Nat}

/-- One turn of `.not_ready` -/
theorem notReady_succ (hdx : s.cpu.dx = 0x1f7) (hlt : s.ata.pos < s.ata.total) :
    (s.ata.wait = 0 → ∃ eax, notReady (polls + 1) s = some { s with cpu := { s.cpu with eax := eax } }) ∧
      (s.ata.wait ≠ 0 → ∃ eax, notReady (polls + 1) s = notReady polls
        { cpu := { s.cpu with eax := eax }, ata := { s.ata with wait := s.ata.wait - 1 } }) := by
  have hin : s.inAl = { cpu := s.cpu.setAl s.ata.status.1, ata := s.ata.status.2 } := by
    rw [Booting.inAl, hdx]
    rfl
  constructor
  · intro hwait
    have hmask : (0x58 : UInt8) &&& 0x88 = 0x08 := by decide
    rw [Ata.status_ready hlt hwait] at hin
    refine ⟨setByte (setByte s.cpu.eax 0x58) 0x08, ?_⟩
    simp only [notReady, hin, RealMode.setAl, RealMode.al, toUInt8_setByte, hmask, if_true]
  · intro hwait
    have hmask : ¬ (0x80 : UInt8) &&& 0x88 = 0x08 := by decide
    rw [Ata.status_busy hlt hwait] at hin
    refine ⟨setByte (setByte s.cpu.eax 0x80) (0x80 &&& 0x88), ?_⟩
    simp only [notReady, hin, RealMode.setAl, RealMode.al, toUInt8_setByte, hmask, if_false]

/-- The wait ends with the first sector. -/
theorem notReady_ready (hdx : s.cpu.dx = 0x1f7) (hlt : s.ata.pos < s.ata.total)
    (hpolls : s.ata.wait < polls) : ∃ eax, notReady polls s =
      some { cpu := { s.cpu with eax := eax }, ata := { s.ata with wait := 0 } } := by
  induction polls generalizing s with
  | zero => exact absurd hpolls (Nat.not_lt_zero _)
  | succ polls ih =>
    by_cases hwait : s.ata.wait = 0
    · obtain ⟨eax, heq⟩ := (notReady_succ hdx hlt).1 hwait
      refine ⟨eax, heq.trans ?_⟩
      rw [← hwait]
    · obtain ⟨eax, heq⟩ := (@notReady_succ s polls hdx hlt).2 hwait
      rw [heq]
      exact ih hdx hlt (show s.ata.wait - 1 < polls by omega)

end Waiting

/-! ## Reading on -/

section Reading

variable {s s' : Booting} {modulus n : Nat} {pointer counter : Booting → Nat}

/-- What a turn does, with registers of that many values. -/
structure ReadsWord (modulus : Nat) (pointer counter : Booting → Nat) (s s' : Booting) : Prop where
  ram : s'.cpu.ram = s.cpu.ram.write16 (pointer s) s.ata.data.1
  ata : s'.ata = s.ata.data.2
  esi : s'.cpu.esi = s.cpu.esi
  dx : s'.cpu.dx = 0x1f0
  pointer : pointer s' = (pointer s + 2) % modulus
  counter : counter s' = (counter s + (modulus - 1)) % modulus

theorem inAx_data (hdx : s.cpu.dx = 0x1f0) :
    s.inAx = { cpu := s.cpu.setAx s.ata.data.1, ata := s.ata.data.2 } := by
  rw [Booting.inAx, hdx]
  rfl

theorem readWord16_reads (hdx : s.cpu.dx = 0x1f0) : ReadsWord 0x10000 (fun s => s.cpu.bx.toNat)
    (fun s => s.cpu.cx.toNat) s (readWord16 s) := by
  have htwo : (2 : UInt16).toNat = 2 := rfl
  have hone : (1 : UInt16).toNat = 1 := rfl
  rw [RealMode.dx] at hdx
  constructor <;> simp only [readWord16, inAx_data hdx, RealMode.setAx, RealMode.setBx, RealMode.setCx,
    RealMode.ax, RealMode.bx, RealMode.cx, RealMode.dx, toUInt16_setLow]
  · exact hdx
  · rw [UInt16.toNat_add, htwo]
  · rw [UInt16.toNat_sub, hone, Nat.add_comm]

theorem readWord32_reads (hdx : s.cpu.dx = 0x1f0) : ReadsWord 0x100000000 (fun s => s.cpu.ebx.toNat)
    (fun s => s.cpu.ecx.toNat) s (readWord32 s) := by
  have htwo : (2 : UInt32).toNat = 2 := rfl
  have hone : (1 : UInt32).toNat = 1 := rfl
  rw [RealMode.dx] at hdx
  constructor <;> simp only [readWord32, inAx_data hdx, RealMode.setAx, RealMode.ax, RealMode.dx,
    toUInt16_setLow]
  · exact hdx
  · rw [UInt32.toNat_add, htwo]
  · rw [UInt32.toNat_sub, hone, Nat.add_comm]

/-- What the loop does in `n` turns. -/
structure ReadsWords (modulus : Nat) (pointer : Booting → Nat) (n : Nat) (s s' : Booting) : Prop where
  ram : s'.cpu.ram = writeWords s.ata.wordAt (pointer s) n s.cpu.ram
  ata : s'.ata = s.ata.afterReads n
  esi : s'.cpu.esi = s.cpu.esi
  pointer : pointer s' = (pointer s + 2 * n) % modulus

/-- **The loop** stores as many words as its counter says; 0 stands for the largest number. -/
theorem goOnRead_run {turn : Booting → Booting} {turns : Nat}
    (hturn : ∀ s : Booting, s.cpu.dx = 0x1f0 → ReadsWord modulus pointer counter s (turn s))
    (hdx : s.cpu.dx = 0x1f0) (hpos : 0 < n) (hturns : n ≤ turns) (hle : n ≤ modulus)
    (hcounter : counter s = n % modulus) (hroom : pointer s + 2 * n ≤ modulus) :
    ReadsWords modulus pointer n s (goOnRead turn counter turns s) := by
  induction n generalizing s turns with
  | zero => exact absurd hpos (Nat.lt_irrefl 0)
  | succ n ih =>
    cases turns with
    | zero => exact absurd hturns (Nat.not_succ_le_zero n)
    | succ turns =>
      obtain ⟨hram, hata, hesi, hdx', hpointer, hcounter'⟩ := hturn s hdx
      have hleft : counter (turn s) = n := by
        rw [hcounter', hcounter]
        have hmod : ((n + 1) % modulus + (modulus - 1)) % modulus = (n + modulus) % modulus := by
          rw [Nat.mod_add_mod]
          congr 1
          omega
        rw [hmod, Nat.add_mod_right, Nat.mod_eq_of_lt (by omega)]
      rw [goOnRead, hleft]
      by_cases hlast : n = 0
      · -- `loop` falls through
        rw [if_neg (not_not_intro hlast), hlast]
        exact ⟨hram, hata, hesi, hpointer⟩
      · have hnext : pointer (turn s) = pointer s + 2 := by
          rw [hpointer, Nat.mod_eq_of_lt (by omega)]
        obtain ⟨hram', hata', hesi', hpointer'⟩ := ih hdx' (by omega) (Nat.le_of_succ_le_succ hturns)
          (by omega) (by rw [hleft, Nat.mod_eq_of_lt (by omega)]) (by rw [hnext]; omega)
        rw [if_pos hlast]
        refine ⟨?_, ?_, hesi'.trans hesi, ?_⟩
        · rw [hram', hata, hnext, hram]
          rfl
        · rw [hata', hata]
          rfl
        · rw [hpointer', hnext]
          congr 1
          omega

end Reading

/-! ## The routines as a whole -/

/-- How many turns `loop` makes with a counter register -/
def loopTurns (modulus counter : Nat) : Nat := if counter = 0 then modulus else counter

/-- The words that `rd_disk_m_16` reads -/
def words16 (c : RealMode) : Nat := loopTurns 0x10000 (c.cx.toNat * 256 % 0x10000)

/-- The words that `rd_disk_m_32` reads; it does not set the upper half of `ecx`. -/
def words32 (c : RealMode) : Nat :=
  loopTurns 0x100000000 (c.ecx.toNat / 0x10000 * 0x10000 + c.cx.toNat * 256 % 0x10000)

/-- The disk behind `.not_ready` -/
structure CommandRead (d d' : Ata) (lba n : Nat) : Prop extends d'.Started lba n where
  sector : d'.sector = d.sector
  delay : d'.delay = d.delay
  idle : d'.idle = d.idle

section Routines

variable {s : Booting} {polls : Nat}

theorem loopTurns_spec {modulus counter : Nat} (hpos : 0 < modulus) (h : counter < modulus) :
    0 < loopTurns modulus counter ∧ loopTurns modulus counter ≤ modulus ∧
      counter = loopTurns modulus counter % modulus := by
  unfold loopTurns
  split
  · next hzero => exact ⟨hpos, Nat.le_refl _, by rw [Nat.mod_self, hzero]⟩
  · exact ⟨by omega, by omega, (Nat.mod_eq_of_lt h).symm⟩

/-- Behind `.not_ready` -/
structure Ready (s c : Booting) : Prop where
  command : CommandRead s.ata c.ata (s.cpu.eax.toNat % 2 ^ 28) (sectorsOf s.cpu.cl)
  ram : c.cpu.ram = s.cpu.ram
  ebx : c.cpu.ebx = s.cpu.ebx
  di : c.cpu.di = s.cpu.cx
  esi : c.cpu.esi = s.cpu.eax
  ecx : c.cpu.ecx.toNat / 0x10000 = s.cpu.ecx.toNat / 0x10000

theorem sectorsOf_pos (x : UInt8) : 0 < sectorsOf x := by
  unfold sectorsOf
  split
  · decide
  · next hne => exact Nat.pos_of_ne_zero fun hzero => hne (UInt8.toNat_inj.mp hzero)

/-- The wait behind a command -/
theorem CommandSent.ready {c : Booting} (hcpu : CommandSent s.cpu c.cpu)
    (hata : Commanded s.ata c.ata (s.cpu.eax.toNat % 2 ^ 28) (sectorsOf s.cpu.cl))
    (hpolls : s.ata.delay 0 < polls) : ∃ c', notReady polls c = some c' ∧ Ready s c' := by
  obtain ⟨hsector, hdelay, hidle, hstart, htotal, hpos, hwait⟩ := hata
  obtain ⟨hram, hebx, hdi, hesi, hdx, hecx⟩ := hcpu
  have hsome := sectorsOf_pos s.cpu.cl
  obtain ⟨eax, heq⟩ := notReady_ready hdx (by omega) (hwait ▸ hpolls)
  exact ⟨_, heq, ⟨⟨hstart, htotal, hpos, rfl⟩, hsector, hdelay, hidle⟩, hram, hebx, hdi, hesi, hecx⟩

/-- The routines get there when the first sector does not take too long. -/
theorem notReady_command (hpolls : s.ata.delay 0 < polls) :
    ∃ c, notReady polls (rdDiskCommand s) = some c ∧ Ready s c :=
  (rdDiskCommand_cpu s).ready (rdDiskCommand_ata s) hpolls

/-- The number of words -/
theorem rdDiskCount_spec (s : Booting) : (rdDiskCount s).ata = s.ata ∧
    (rdDiskCount s).cpu.ram = s.cpu.ram ∧ (rdDiskCount s).cpu.ebx = s.cpu.ebx ∧
    (rdDiskCount s).cpu.esi = s.cpu.esi ∧ (rdDiskCount s).cpu.dx = 0x1f0 ∧ (rdDiskCount s).cpu.ecx.toNat =
      s.cpu.ecx.toNat / 0x10000 * 0x10000 + s.cpu.di.toNat * 256 % 0x10000 := by
  have hcount : (256 : UInt16).toNat = 256 := rfl
  refine ⟨rfl, rfl, rfl, rfl, ?_, ?_⟩
  · simp only [rdDiskCount, RealMode.setDx, RealMode.dx, toUInt16_setLow]
  · simp only [rdDiskCount, RealMode.setDx, RealMode.setAx, RealMode.setCx, RealMode.mulDx, RealMode.ax,
      RealMode.dx, toUInt16_setLow, toNat_setLow, UInt16.toNat_ofNat', hcount]

/-- **`rd_disk_m_16`** -/
theorem rdDiskM16_run (hpolls : s.ata.delay 0 < polls)
    (hroom : s.cpu.bx.toNat + 2 * words16 s.cpu ≤ 0x10000) : ∃ s' d,
    rdDiskM16 polls s = some s' ∧
      CommandRead s.ata d (s.cpu.eax.toNat % 2 ^ 28) (sectorsOf s.cpu.cl) ∧
      s'.cpu.ram = writeWords d.wordAt s.cpu.bx.toNat (words16 s.cpu) s.cpu.ram ∧
      s'.ata = d.afterReads (words16 s.cpu) ∧ s'.cpu.esi = s.cpu.eax ∧
      s'.cpu.bx.toNat = (s.cpu.bx.toNat + 2 * words16 s.cpu) % 0x10000 := by
  obtain ⟨c, heq, hcommand, hram, hebx, hdi, hesi, -⟩ := notReady_command hpolls
  obtain ⟨hata, hram', hebx', hesi', hdx, hecx⟩ := rdDiskCount_spec c
  obtain ⟨hpos, hle, hcounter⟩ := @loopTurns_spec 0x10000 (s.cpu.cx.toNat * 256 % 0x10000) (by decide)
    (Nat.mod_lt _ (by decide))
  have hcx : (rdDiskCount c).cpu.cx.toNat = s.cpu.cx.toNat * 256 % 0x10000 := by
    rw [RealMode.cx, UInt32.toNat_toUInt16, hecx, hdi, Nat.mul_add_mod_self_right]
    exact Nat.mod_mod _ _
  have hbx : (rdDiskCount c).cpu.bx = s.cpu.bx := by rw [RealMode.bx, hebx', hebx, RealMode.bx]
  have hdone : ReadsWords 0x10000 (fun s => s.cpu.bx.toNat) (words16 s.cpu) (rdDiskCount c)
      (goOnRead16 (rdDiskCount c)) := goOnRead_run (fun s => readWord16_reads) hdx hpos hle hle
    (hcx.trans hcounter) (by rw [hbx]; exact hroom)
  have hret : rdDiskM16 polls s = some (goOnRead16 (rdDiskCount c)) := by
    rw [rdDiskM16, heq]
    rfl
  generalize goOnRead16 (rdDiskCount c) = s' at hdone hret
  obtain ⟨hstored, hafter, hkept, hend⟩ := hdone
  rw [hata, hram', hram, hbx] at hstored
  rw [hata] at hafter
  rw [hesi', hesi] at hkept
  rw [hbx] at hend
  exact ⟨s', c.ata, hret, hcommand, hstored, hafter, hkept, hend⟩

/-- **`rd_disk_m_32`** -/
theorem rdDiskM32_run (hpolls : s.ata.delay 0 < polls)
    (hroom : s.cpu.ebx.toNat + 2 * words32 s.cpu ≤ 0x100000000) : ∃ s' d,
    rdDiskM32 polls s = some s' ∧
      CommandRead s.ata d (s.cpu.eax.toNat % 2 ^ 28) (sectorsOf s.cpu.cl) ∧
      s'.cpu.ram = writeWords d.wordAt s.cpu.ebx.toNat (words32 s.cpu) s.cpu.ram := by
  obtain ⟨c, heq, hcommand, hram, hebx, hdi, -, hhalf⟩ := notReady_command hpolls
  obtain ⟨hata, hram', hebx', -, hdx, hecx⟩ := rdDiskCount_spec c
  rw [hdi, hhalf] at hecx
  have hlt := s.cpu.ecx.toNat_lt
  obtain ⟨hpos, hle, hcounter⟩ := @loopTurns_spec 0x100000000
    (s.cpu.ecx.toNat / 0x10000 * 0x10000 + s.cpu.cx.toNat * 256 % 0x10000) (by decide) (by omega)
  have hbx : (rdDiskCount c).cpu.ebx = s.cpu.ebx := hebx'.trans hebx
  have hdone : ReadsWords 0x100000000 (fun s => s.cpu.ebx.toNat) (words32 s.cpu) (rdDiskCount c)
      (goOnRead32 (rdDiskCount c)) := goOnRead_run (fun s => readWord32_reads) hdx hpos hle hle
    (hecx.trans hcounter) (by rw [hbx]; exact hroom)
  have hret : rdDiskM32 polls s = some (goOnRead32 (rdDiskCount c)) := by
    rw [rdDiskM32, heq]
    rfl
  generalize goOnRead32 (rdDiskCount c) = s' at hdone hret
  obtain ⟨hstored, -, -, -⟩ := hdone
  rw [hata, hram', hram, hbx] at hstored
  exact ⟨s', c.ata, hret, hcommand, hstored⟩

end Routines

/-! ## Are the sectors in memory? -/

/-- A byte of a sector -/
def sectorByte (sector : Nat → Nat → UInt16) (l k : Nat) : UInt8 :=
  UInt8.ofNat ((sector l (k / 2)).toNat / 0x100 ^ (k % 2))

/-- `n` sectors from `lba` on are at `base`, and nothing else has been written. -/
def SectorsRead (sector : Nat → Nat → UInt16) (lba n base : Nat) (ram ram' : ByteMemory) : Prop :=
  ∀ b, ram' b = if base ≤ b ∧ b < base + 512 * n then
    sectorByte sector (lba + (b - base) / 512) ((b - base) % 512) else ram b

/-- The same, with another disk in the drive. -/
def Booting.withSectors (sector : Nat → Nat → UInt16) (s : Booting) : Booting :=
  { s with ata := { s.ata with sector := sector } }

/-- The same, with another memory. -/
def Booting.withMemory (ram : ByteMemory) (s : Booting) : Booting :=
  { s with cpu := { s.cpu with ram := ram } }

section Right

variable {s : Booting} {polls : Nat} {d d' : Ata} {lba n : Nat}

/-- Sectors in memory are words one after another. -/
theorem SectorsRead.words {sector : Nat → Nat → UInt16} {word : Nat → UInt16} {base count : Nat}
    {ram : ByteMemory} (h : SectorsRead sector lba n base ram (writeWords word base count ram))
    (hcount : 256 * n ≤ count) : ∀ i, i < 256 * n → word i = sector (lba + i / 256) (i % 256) := by
  intro i hi
  -- both bytes of the word
  have hbyte : ∀ k, k < 2 → UInt8.ofNat ((word i).toNat / 0x100 ^ k) =
      UInt8.ofNat ((sector (lba + i / 256) (i % 256)).toNat / 0x100 ^ k) := by
    intro k hk
    have hb := h (base + (2 * i + k))
    rw [writeWords_apply, if_pos (by omega), if_pos (by omega), Nat.add_sub_cancel_left, sectorByte] at hb
    have hword : (2 * i + k) / 2 = i := by omega
    have hlow : (2 * i + k) % 2 = k := by omega
    have hsector : (2 * i + k) / 512 = i / 256 := by omega
    have hoff : (2 * i + k) % 512 / 2 = i % 256 := by omega
    have hoffLow : (2 * i + k) % 512 % 2 = k := by omega
    rwa [hword, hlow, hsector, hoff, hoffLow] at hb
  have hlow := congrArg UInt8.toNat (hbyte 0 (by decide))
  have hhigh := congrArg UInt8.toNat (hbyte 1 (by decide))
  rw [UInt8.toNat_ofNat', UInt8.toNat_ofNat'] at hlow hhigh
  have hlt := (word i).toNat_lt
  have hlt' := (sector (lba + i / 256) (i % 256)).toNat_lt
  apply UInt16.toNat_inj.mp
  omega

theorem writeWords_sectors {sector : Nat → Nat → UInt16} {word : Nat → UInt16}
    (h : ∀ i, i < 256 * n → word i = sector (lba + i / 256) (i % 256)) (base : Nat) (ram : ByteMemory) :
    SectorsRead sector lba n base ram (writeWords word base (256 * n) ram) := by
  intro b
  rw [writeWords_apply]
  by_cases hin : base ≤ b ∧ b < base + 2 * (256 * n)
  · have hhalf : (b - base) / 2 / 256 = (b - base) / 512 := by omega
    have hoff : (b - base) / 2 % 256 = (b - base) % 512 / 2 := by omega
    have hlow : (b - base) % 512 % 2 = (b - base) % 2 := by omega
    rw [if_pos hin, if_pos (by omega), h _ (by omega), sectorByte, hhalf, hoff, hlow]
  · rw [if_neg hin, if_neg (by omega)]

theorem CommandRead.steady_iff (h : CommandRead d d' lba n) : d'.Steady n ↔ d.Steady n := by
  rw [Ata.Steady, Ata.Steady, h.delay]

/-- The words of the sectors come if and only if the disk is steady. -/
theorem CommandRead.right (h : CommandRead d d' lba n) (hsteady : d.Steady n) (i : Nat)
    (hi : i < 256 * n) : d'.wordAt i = d.sector (lba + i / 256) (i % 256) := by
  rw [h.toStarted.wordAt (h.steady_iff.mpr hsteady), if_pos hi, h.sector]

theorem CommandRead.steady (h : CommandRead d d' lba n) (hidle : ∀ l k, d.sector l k ≠ d.idle)
    (hright : ∀ i, i < 256 * n → d'.wordAt i = d.sector (lba + i / 256) (i % 256)) : d.Steady n := by
  rw [← h.sector, ← h.idle] at hidle
  rw [← h.sector] at hright
  exact h.steady_iff.mp (h.toStarted.steady hidle hright)

/-- `cl` is as many sectors as `cx` has words for them. -/
theorem words16_eq (c : RealMode) : words16 c = 256 * sectorsOf c.cl := by
  have hcl : c.cl.toNat = c.cx.toNat % 256 := by
    rw [RealMode.cl, RealMode.cx, UInt32.toNat_toUInt8, UInt32.toNat_toUInt16]
    omega
  have hzero : c.cl = 0 ↔ c.cl.toNat = 0 := by rw [← UInt8.toNat_inj, UInt8.toNat_zero]
  rw [words16, loopTurns, sectorsOf]
  by_cases hnone : c.cl = 0
  · have hcx := hzero.mp hnone
    rw [if_pos hnone, if_pos (by omega)]
  · have hcx := (not_congr hzero).mp hnone
    rw [if_neg hnone, if_neg (by omega)]
    omega

/-- **`rd_disk_m_16`** reads the sectors that it is asked for, whatever disk is in the drive, if and
only if no sector but the first one lets it wait. -/
theorem rd_disk_m_16_right_iff (hpolls : s.ata.delay 0 < polls)
    (hroom : s.cpu.bx.toNat + 512 * sectorsOf s.cpu.cl ≤ 0x10000) :
    (∀ sector, ∃ s', rdDiskM16 polls (s.withSectors sector) = some s' ∧
      SectorsRead sector (s.cpu.eax.toNat % 2 ^ 28) (sectorsOf s.cpu.cl) s.cpu.bx.toNat s.cpu.ram
        s'.cpu.ram) ↔ s.ata.Steady (sectorsOf s.cpu.cl) := by
  have hwords := words16_eq s.cpu
  have hrun := fun sector : Nat → Nat → UInt16 => rdDiskM16_run (s := s.withSectors sector) hpolls
    (show s.cpu.bx.toNat + 2 * words16 s.cpu ≤ 0x10000 by omega)
  constructor
  · intro hright
    obtain ⟨s', hret, hread⟩ := hright fun _ _ => s.ata.idle + 1
    obtain ⟨s'', d, hret', hcommand, hram, -⟩ := hrun fun _ _ => s.ata.idle + 1
    rw [hret] at hret'
    cases hret'
    have hram' : s'.cpu.ram = writeWords d.wordAt s.cpu.bx.toNat (words16 s.cpu) s.cpu.ram := hram
    rw [hram', hwords] at hread
    exact hcommand.steady (fun _ _ heq => by simp [Booting.withSectors] at heq)
      (hread.words (Nat.le_refl _))
  · intro hsteady sector
    obtain ⟨s', d, hret, hcommand, hram, -⟩ := hrun sector
    have hram' : s'.cpu.ram = writeWords d.wordAt s.cpu.bx.toNat (words16 s.cpu) s.cpu.ram := hram
    refine ⟨s', hret, ?_⟩
    rw [hram', hwords]
    exact writeWords_sectors (hcommand.right hsteady) _ _

/-- A disk that never lets its host wait -/
def readyDisk : Ata where
  sector := fun _ _ => 0
  delay := fun _ => 0
  idle := 0
  count := 0
  lbaLow := 0
  lbaMid := 0
  lbaHigh := 0
  device := 0
  start := 0
  total := 0
  pos := 0
  wait := 0

/-- The four sectors of the loader, on a disk whose words are the numbers of their sectors -/
theorem rd_disk_m_16_right_ready : ∃ s', rdDiskM16 1 (Booting.withSectors (fun l _ => UInt16.ofNat l)
      ⟨{ realMode with eax := 2, ebx := 0x900, ecx := 4 }, readyDisk⟩) = some s' ∧
    SectorsRead (fun l _ => UInt16.ofNat l) 2 4 0x900 (fun _ => 0) s'.cpu.ram :=
  (rd_disk_m_16_right_iff (s := ⟨{ realMode with eax := 2, ebx := 0x900, ecx := 4 }, readyDisk⟩)
    (by decide) (by decide)).mpr (fun _ _ _ => rfl) _

/-- `rd_disk_m_32` reads as many words at least. -/
theorem words32_ge (c : RealMode) : 256 * sectorsOf c.cl ≤ words32 c := by
  have hwords := words16_eq c
  have hlt := (Nat.mod_lt (c.cx.toNat * 256) (show 0 < 0x10000 by decide))
  rw [← hwords, words16, words32, loopTurns, loopTurns]
  split
  · split
    · decide
    · omega
  · split
    · omega
    · omega

/-- **`rd_disk_m_32`** reads the sectors that it is asked for, and leaves the memory behind them alone,
if and only if the disk is steady and the upper half of `ecx` happens to fit. -/
theorem rd_disk_m_32_right_iff (hpolls : s.ata.delay 0 < polls)
    (hroom : s.cpu.ebx.toNat + 2 * words32 s.cpu ≤ 0x100000000) :
    (∀ sector ram, ∃ s', rdDiskM32 polls ((s.withSectors sector).withMemory ram) = some s' ∧
      SectorsRead sector (s.cpu.eax.toNat % 2 ^ 28) (sectorsOf s.cpu.cl) s.cpu.ebx.toNat ram
        s'.cpu.ram) ↔
      s.ata.Steady (sectorsOf s.cpu.cl) ∧ words32 s.cpu = 256 * sectorsOf s.cpu.cl := by
  have hge := words32_ge s.cpu
  have hrun := fun (sector : Nat → Nat → UInt16) (ram : ByteMemory) =>
    rdDiskM32_run (s := (s.withSectors sector).withMemory ram) hpolls hroom
  constructor
  · intro hright
    -- the words that come, whatever the memory holds
    have hbytes : ∀ ram : ByteMemory, ∃ d, CommandRead ((s.withSectors fun _ _ => s.ata.idle + 1).withMemory
          ram).ata d (s.cpu.eax.toNat % 2 ^ 28) (sectorsOf s.cpu.cl) ∧
        SectorsRead (fun _ _ => s.ata.idle + 1) (s.cpu.eax.toNat % 2 ^ 28) (sectorsOf s.cpu.cl)
          s.cpu.ebx.toNat ram (writeWords d.wordAt s.cpu.ebx.toNat (words32 s.cpu) ram) := by
      intro ram
      obtain ⟨s', hret, hread⟩ := hright (fun _ _ => s.ata.idle + 1) ram
      obtain ⟨s'', d, hret', hcommand, hram⟩ := hrun (fun _ _ => s.ata.idle + 1) ram
      rw [hret] at hret'
      cases hret'
      exact ⟨d, hcommand, hram ▸ hread⟩
    have hsteady : s.ata.Steady (sectorsOf s.cpu.cl) := by
      obtain ⟨d, hcommand, hread⟩ := hbytes fun _ => 0
      exact hcommand.steady (fun _ _ heq => by simp [Booting.withSectors, Booting.withMemory] at heq)
        (hread.words hge)
    refine ⟨hsteady, Nat.le_antisymm (Nat.not_lt.mp fun hmore => ?_) hge⟩
    -- the first byte behind the sectors, in memories that differ there
    have hbehind : ∀ x : UInt8, UInt8.ofNat (s.ata.idle.toNat / 0x100 ^ 0) = x := by
      intro x
      obtain ⟨d, hcommand, hread⟩ := hbytes fun _ => x
      have hb := hread (s.cpu.ebx.toNat + 512 * sectorsOf s.cpu.cl)
      have hword : 512 * sectorsOf s.cpu.cl / 2 = 256 * sectorsOf s.cpu.cl := by omega
      have hlow : 512 * sectorsOf s.cpu.cl % 2 = 0 := by omega
      rw [writeWords_apply, if_pos (by omega), if_neg (by omega), Nat.add_sub_cancel_left, hword, hlow,
        hcommand.toStarted.wordAt (hcommand.steady_iff.mpr hsteady), if_neg (Nat.lt_irrefl _),
        hcommand.idle] at hb
      exact hb
    exact absurd ((hbehind 0).symm.trans (hbehind 1)) (by decide)
  · rintro ⟨hsteady, hwords⟩ sector ram
    obtain ⟨s', d, hret, hcommand, hram⟩ := hrun sector ram
    have hram' : s'.cpu.ram = writeWords d.wordAt s.cpu.ebx.toNat (words32 s.cpu) ram := hram
    refine ⟨s', hret, ?_⟩
    rw [hram', hwords]
    exact writeWords_sectors (hcommand.right hsteady) _ _

/-- 200 sectors are asked for, and `ecx` has been used for a multiplication by 64 KB. -/
theorem rd_disk_m_32_right_e801 : ¬ ∀ sector ram, ∃ s', rdDiskM32 1 (Booting.withMemory ram
      (Booting.withSectors sector
        ⟨{ realMode with eax := 9, ebx := 0x70000, ecx := 0x100c8 }, readyDisk⟩)) = some s' ∧
    SectorsRead sector 9 200 0x70000 ram s'.cpu.ram := by
  intro hright
  have hboth := (rd_disk_m_32_right_iff
    (s := ⟨{ realMode with eax := 9, ebx := 0x70000, ecx := 0x100c8 }, readyDisk⟩)
    (by decide) (by decide)).mp hright
  exact absurd hboth.2 (by decide)

end Right

end OsKernel
