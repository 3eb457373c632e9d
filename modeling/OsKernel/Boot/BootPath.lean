import OsKernel.Boot.DiskRead
import OsKernel.Boot.Segments
import OsKernel.Boot.SetupPage

/-!
# From the MBR to the image of the kernel

The MBR jumps to `LOADER_BASE_ADDR + 0x300`. The data in front of `loader_start` are 20 bytes too short
for that, and the jump ends inside the fifth instruction. The function 0xe820 is not called then, and
the routine that asks for 0xe801 leaves a 1 in the upper half of `ecx`, with which `rd_disk_m_32` reads
on behind the kernel.

- `mbrRead`, `loaderFromMbr`, `loadSegments`, `loaderRead`: the way of the MBR and the loader up to
  `setup_page`.
- `boot_path`: what is in memory at its end.
-/

namespace OsKernel

open Lib ByteMemory

/-! ## The code -/

/-- The MBR up to its jump -/
def mbrRead (polls : Nat) (s : Booting) : Option Booting :=
  let s := { s with cpu := { s.cpu with eax := 2 } }
  let s := { s with cpu := s.cpu.setBx 0x900 }
  let s := { s with cpu := s.cpu.setCx 4 }
  rdDiskM16 polls s

/-- `LOADER_BASE_ADDR + 0x300` -/
def mbrTarget : Nat := 0x900 + 0x300

/-- The first instructions from `loader_start` on, as boot/loader.bin has them -/
def loaderHead : List (List UInt8) :=
  [[0x66, 0x31, 0xdb], [0x66, 0xba, 0x50, 0x41, 0x4d, 0x53], [0xbf, 0x0a, 0x0b],
    [0x66, 0xb8, 0x20, 0xe8, 0x00, 0x00], [0x66, 0xb9, 0x14, 0x00, 0x00, 0x00], [0xcd, 0x15]]

/-- `adc al, 0`, `add [bx+si], al` and `int 0x15` are read at the target. -/
example : loaderHead.flatten.drop (mbrTarget - loaderStartAddr) =
    [0x14, 0x00, 0x00, 0x00, 0xcd, 0x15] := by decide

/-- The end of `mov ecx, 20`, read as `adc al, 0` and `add [bx+si], al` -/
def strayEntry (s : RealMode) : RealMode :=
  -- the carry is that of the last `add bx, 2`
  let s := s.setAl (s.al + if s.bx < 2 then 1 else 0)
  let a := (s.bx + s.esi.toUInt16).toNat
  { s with ram := Function.update s.ram a (s.ram a + s.al) }

/-- The loader from the target of the MBR on. `reply` is what the BIOS returns for the function number
that is in `ah`; it stores nothing. -/
def loaderFromMbr (reply : Int15) (bios : Bios) (s : RealMode) : Detected :=
  let s := (strayEntry s).int15 reply
  if reply.cf then tryE801 bios.e801 bios.e88 s
  else
    let s := countReply s
    match if s.ebx = 0 then .complete s else e820MemGetLoop bios.e820 s with
    | .complete s => memGetOk (findMaxMemArea 0x10000 (findMaxSetup s))
    | .failed s => tryE801 bios.e801 bios.e88 s
    | .overwritten s => .overwritten s
    | .waiting s => .waiting s

/-- From `mov gs, ax` to `call setup_page`: `rd_disk_m_32` with the sectors of the kernel -/
def loaderRead (polls : Nat) (s : Booting) : Option Booting :=
  let s := { s with cpu := { s.cpu with eax := 9 } }
  let s := { s with cpu := { s.cpu with ebx := 0x70000 } }
  let s := { s with cpu := s.cpu.setCx 200 }
  rdDiskM32 polls s

/-! ## The way -/

/-- The memory in which the kernel starts: the loader but for `total_mem_bytes` and the accessed bits
of its descriptors, the image of the kernel, and behind it 128 KB of what the disk gives when it has
no more data. -/
structure BootMemory (sector : Nat → Nat → UInt16) (idle : UInt16) (size : Nat) (ram : ByteMemory) :
    Prop where
  loader : ∀ k, k < 2048 → ¬ (0x200 ≤ k ∧ k < 0x204) → k ∉ accessBytes →
    ram (0x900 + k) = sectorByte sector (2 + k / 512) (k % 512)
  accessed : ∀ k ∈ accessBytes, ram (0x900 + k) = sectorByte sector 2 k ||| 1
  total : (ram.read32 totalMemBytes).toNat = size
  kernel : ∀ k, k < 102400 → ram (0x70000 + k) = sectorByte sector (9 + k / 512) (k % 512)
  behind : ∀ k, k < 131072 → ram (0x89000 + k) = UInt8.ofNat (idle.toNat / 0x100 ^ (k % 2))

section Way

variable {s : Booting} {polls : Nat} {bios : Bios} {reply : Int15}

theorem toUInt8_setLow (r : UInt32) (x : UInt16) : (setLow r x).toUInt8 = x.toUInt8 := by
  have hx := x.toNat_lt
  apply UInt8.toNat_inj.mp
  rw [UInt32.toNat_toUInt8, UInt16.toNat_toUInt8, toNat_setLow]
  omega

/-- The loader is in memory. -/
structure LoaderRead (s s' : Booting) : Prop where
  ram : SectorsRead s.ata.sector 2 4 0x900 s.cpu.ram s'.cpu.ram
  esi : s'.cpu.esi = 2
  bx : s'.cpu.bx = 0x1100
  sector : s'.ata.sector = s.ata.sector
  delay : s'.ata.delay = s.ata.delay
  idle : s'.ata.idle = s.ata.idle

/-- **The MBR** -/
theorem mbrRead_reads (hpolls : s.ata.delay 0 < polls) (hsteady : s.ata.Steady 4) :
    ∃ s', mbrRead polls s = some s' ∧ LoaderRead s s' := by
  obtain ⟨c, hc⟩ : ∃ c, c = ({ s with cpu := ({ s.cpu with eax := 2 }.setBx 0x900).setCx 4 } : Booting) :=
    ⟨_, rfl⟩
  have hata : c.ata = s.ata := by rw [hc]
  have hram : c.cpu.ram = s.cpu.ram := by rw [hc]; rfl
  have heax : c.cpu.eax = 2 := by rw [hc]; rfl
  have hbx : c.cpu.bx = 0x900 := by rw [hc]; exact toUInt16_setLow _ _
  have hcl : c.cpu.cl = 4 := by rw [hc]; exact toUInt8_setLow _ _
  have hfour : sectorsOf c.cpu.cl = 4 := by rw [hcl]; rfl
  have hlba : c.cpu.eax.toNat % 2 ^ 28 = 2 := by rw [heax]; rfl
  have hbase : c.cpu.bx.toNat = 0x900 := by rw [hbx]; rfl
  have hwords : words16 c.cpu = 1024 := by rw [words16_eq, hfour]
  obtain ⟨s', d, hret, hcommand, hstored, hafter, hesi, hend⟩ :=
    rdDiskM16_run (s := c) (hata ▸ hpolls) (by rw [hbase, hwords]; decide)
  rw [hata, hlba, hfour] at hcommand
  rw [hbase, hwords, hram] at hstored
  rw [hbase, hwords] at hend
  have hmbr : mbrRead polls s = rdDiskM16 polls c := by rw [hc]; rfl
  obtain ⟨hsector, hdelay, hidle⟩ := d.afterReads_disk (words16 c.cpu)
  rw [← hafter, hcommand.sector] at hsector
  rw [← hafter, hcommand.delay] at hdelay
  rw [← hafter, hcommand.idle] at hidle
  refine ⟨s', hmbr.trans hret, ?_, hesi.trans heax, UInt16.toNat_inj.mp hend, hsector, hdelay, hidle⟩
  rw [hstored]
  exact writeWords_sectors (hcommand.right hsteady) _ _

/-- **The detection of the memory**, when the BIOS refuses the stray call and knows 0xe801. -/
theorem loaderFromMbr_e801 {c : RealMode} (hreply : reply.cf = true) (he801 : bios.e801.cf = false)
    (hanswered : Answered bios.e801 bios.e88) (hesi : c.esi = 2) (hbx : c.bx = 0x1100) :
    ∃ (c' : RealMode) (x : UInt8) (total : UInt32), loaderFromMbr reply bios c = .stored c' ∧
      c'.ecx = 0x10000 ∧
      c'.ram = ByteMemory.write32 (Function.update c.ram 0x1102 x) totalMemBytes total ∧
      total.toNat =
        0x100000 + bios.e801.ax.toNat / 64 * 65536 + bios.e801.bx.toNat * 65536 := by
  have hplace : (c.bx + c.esi.toUInt16).toNat = 0x1102 := by rw [hesi, hbx]; rfl
  obtain ⟨x, hstray⟩ : ∃ x, (strayEntry c).ram = Function.update c.ram 0x1102 x :=
    ⟨_, by rw [← hplace]; rfl⟩
  obtain ⟨e, he⟩ : ∃ e, e = (((strayEntry c).int15 reply).setAx 0xe801).int15 bios.e801 := ⟨_, rfl⟩
  have hstored : loaderFromMbr reply bios c = memGetOk (e801High (e801Low e)) := by
    rw [loaderFromMbr, if_pos hreply, tryE801, if_neg (Bool.eq_false_iff.mp he801), he]
  have hram : (e801High (e801Low e)).ram = (strayEntry c).ram := by rw [he]; rfl
  have hax : e.ax = bios.e801.ax := by rw [he]; rfl
  have hbx' : (e801Low e).bx = bios.e801.bx := by rw [he]; rfl
  have hfits := hanswered.fits he801
  rw [fallbackSize, he801] at hfits
  refine ⟨_, x, (e801High (e801Low e)).edx, hstored, rfl, ?_, ?_⟩
  · rw [← hstray, ← hram]
  · have hsize := toNat_e801 (hanswered.low he801) hfits
    rw [e801High_edx, e801Low_esi, hbx', hax]
    have hedx : e.edx = bios.e801.edx := by rw [he]; rfl
    rw [hedx]
    exact hsize

/-- **The kernel**: with a 1 in the upper half of `ecx`, the routine reads 65536 words too many. -/
theorem loaderRead_reads (hpolls : s.ata.delay 0 < polls) (hsteady : s.ata.Steady 200)
    (hecx : s.cpu.ecx = 0x10000) : ∃ s', loaderRead polls s = some s' ∧ ∀ b, s'.cpu.ram b =
      if 0x70000 ≤ b ∧ b < 0x89000 then
        sectorByte s.ata.sector (9 + (b - 0x70000) / 512) ((b - 0x70000) % 512)
      else if 0x89000 ≤ b ∧ b < 0xa9000 then UInt8.ofNat (s.ata.idle.toNat / 0x100 ^ ((b - 0x89000) % 2))
      else s.cpu.ram b := by
  obtain ⟨c, hc⟩ : ∃ c, c =
      ({ s with cpu := { s.cpu with eax := 9, ebx := 0x70000 }.setCx 200 } : Booting) := ⟨_, rfl⟩
  have hata : c.ata = s.ata := by rw [hc]
  have hram : c.cpu.ram = s.cpu.ram := by rw [hc]; rfl
  have heax : c.cpu.eax = 9 := by rw [hc]; rfl
  have hebx : c.cpu.ebx.toNat = 0x70000 := by rw [hc]; rfl
  have hecx' : c.cpu.ecx = 0x100c8 := by
    rw [hc]
    show setLow s.cpu.ecx 200 = _
    rw [hecx]
    decide
  have hcount : sectorsOf c.cpu.cl = 200 := by rw [RealMode.cl, hecx']; rfl
  have hlba : c.cpu.eax.toNat % 2 ^ 28 = 9 := by rw [heax]; rfl
  have hwords : words32 c.cpu = 116736 := by
    rw [words32, RealMode.cx, hecx']
    decide
  obtain ⟨s', d, hret, hcommand, hstored⟩ :=
    rdDiskM32_run (s := c) (hata ▸ hpolls) (by rw [hebx, hwords]; decide)
  rw [hata, hlba, hcount] at hcommand
  rw [hebx, hwords, hram] at hstored
  have hloader : loaderRead polls s = rdDiskM32 polls c := by rw [hc]; rfl
  refine ⟨s', hloader.trans hret, fun b => ?_⟩
  have hword := hcommand.toStarted.wordAt (hcommand.steady_iff.mpr hsteady)
  rw [hstored, writeWords_apply, hword, hcommand.sector, hcommand.idle]
  by_cases hkernel : 0x70000 ≤ b ∧ b < 0x89000
  · have hsector : (b - 0x70000) / 2 / 256 = (b - 0x70000) / 512 := by omega
    have hoff : (b - 0x70000) / 2 % 256 = (b - 0x70000) % 512 / 2 := by omega
    have hlow : (b - 0x70000) % 512 % 2 = (b - 0x70000) % 2 := by omega
    rw [if_pos (by omega), if_pos hkernel, if_pos (by omega), sectorByte, hsector, hoff, hlow]
  · rw [if_neg hkernel]
    by_cases hbehind : 0x89000 ≤ b ∧ b < 0xa9000
    · have hlow : (b - 0x70000) % 2 = (b - 0x89000) % 2 := by omega
      rw [if_pos (by omega), if_neg (by omega), if_pos hbehind, hlow]
    · rw [if_neg (by omega), if_neg hbehind]

/-- What the loader finds of itself in memory, after the detection of the memory. -/
theorem LoaderRead.loaderByte {c : RealMode} {x : UInt8} {total : UInt32} {s' : Booting}
    (h : LoaderRead s s')
    (hram : c.ram = ByteMemory.write32 (Function.update s'.cpu.ram 0x1102 x) totalMemBytes total)
    {k : Nat} (hk : k < 2048) (htotal : ¬ (0x200 ≤ k ∧ k < 0x204)) :
    c.ram (0x900 + k) = sectorByte s.ata.sector (2 + k / 512) (k % 512) := by
  have hplace : totalMemBytes = 0xb00 := rfl
  rw [hram, write32_outside (by omega), Function.update_of_ne (by omega), h.ram, if_pos (by omega),
    Nat.add_sub_cancel_left]

/-- **The way of the boot**: whatever else is on the disk and in memory, when the disk is steady and
has the loader's table in front of the loader, the BIOS refuses the stray call and answers 0xe801. -/
theorem boot_path (hpolls : s.ata.delay 0 < polls) (hsteady : s.ata.Steady 200)
    (hgdt : LoaderTable fun b => sectorByte s.ata.sector 2 (b - 0x900))
    (hreply : reply.cf = true) (he801 : bios.e801.cf = false)
    (hanswered : Answered bios.e801 bios.e88) :
    ∃ s₁ c ram s₂, mbrRead polls s = some s₁ ∧ loaderFromMbr reply bios s₁.cpu = .stored c ∧
      loadSegments c.ram = some ram ∧ loaderRead polls ⟨{ c with ram := ram }, s₁.ata⟩ = some s₂ ∧
      BootMemory s.ata.sector s.ata.idle
        (0x100000 + bios.e801.ax.toNat / 64 * 65536 + bios.e801.bx.toNat * 65536)
        (setupPage s₂.cpu.ram) := by
  obtain ⟨s₁, hmbr, hloader, hesi, hbx, hsector, hdelay, hidle⟩ :=
    mbrRead_reads hpolls fun k hk hlt => hsteady k hk (by omega)
  have hread₁ : LoaderRead s s₁ := ⟨hloader, hesi, hbx, hsector, hdelay, hidle⟩
  obtain ⟨c, x, total, hstored, hecx, hram, htotal⟩ :=
    loaderFromMbr_e801 hreply he801 hanswered hesi hbx
  -- the table lies in the first bytes of the loader
  have htable : LoaderTable c.ram := by
    intro i hi
    have hi8 : i < 8 := hi
    rw [← hgdt i hi]
    refine read32_congr fun k hk => ?_
    have hbase : loaderBaseAddr = 0x900 := rfl
    have hoff : loaderBaseAddr + 4 * i + k - 0x900 = 4 * i + k := by omega
    have hsector : 2 + (4 * i + k) / 512 = 2 := by omega
    rw [hoff, Nat.add_assoc, hbase, hread₁.loaderByte hram (by omega) (by omega), hsector,
      Nat.mod_eq_of_lt (by omega)]
  obtain ⟨ram, hload, hmarks⟩ := loadSegments_marks htable
  obtain ⟨s₂, hread, hbytes⟩ := loaderRead_reads (s := ⟨{ c with ram := ram }, s₁.ata⟩)
    (hdelay ▸ hpolls) (fun k hk hlt => hdelay ▸ hsteady k hk hlt) hecx
  dsimp only at hbytes
  have hplace : totalMemBytes = 0xb00 := rfl
  have hlow : ∀ b, b < 0x70000 → setupPage s₂.cpu.ram b = ram b := by
    intro b hb
    rw [setupPage_below _ (by omega), hbytes, if_neg (by omega), if_neg (by omega)]
  have hmem : ∀ k, 0x900 + k ∈ accessBytes.map (loaderBaseAddr + ·) ↔ k ∈ accessBytes := by
    intro k
    simp only [accessBytes, loaderBaseAddr, List.map_cons, List.map_nil, List.mem_cons,
      List.not_mem_nil, or_false]
    omega
  refine ⟨s₁, c, ram, s₂, hmbr, hstored, hload, hread, ?_, ?_, ?_, ?_, ?_⟩
  · intro k hk htotal haccess
    rw [hlow _ (by omega), hmarks, if_neg (mt (hmem k).mp haccess), hread₁.loaderByte hram hk htotal]
  · intro k hk
    have hsmall : k < 0x20 := by
      simp only [accessBytes, List.mem_cons, List.not_mem_nil, or_false] at hk
      omega
    rw [hlow _ (by omega), hmarks, if_pos ((hmem k).mpr hk),
      hread₁.loaderByte hram (by omega) (by omega), show 2 + k / 512 = 2 by omega,
      Nat.mod_eq_of_lt (by omega)]
  · have hsame : (setupPage s₂.cpu.ram).read32 totalMemBytes = c.ram.read32 totalMemBytes := by
      refine read32_congr fun k hk => ?_
      rw [hlow _ (by omega), hmarks, if_neg]
      simp only [accessBytes, loaderBaseAddr, List.map_cons, List.map_nil, List.mem_cons,
        List.not_mem_nil, or_false]
      omega
    rw [hsame, hram, read32_write32, htotal]
  · intro k hk
    rw [setupPage_below _ (by omega), hbytes, if_pos (by omega), Nat.add_sub_cancel_left, hsector]
  · intro k hk
    rw [setupPage_below _ (by omega), hbytes, if_neg (by omega), if_pos (by omega),
      Nat.add_sub_cancel_left, hidle]

/-- A disk with the loader's table -/
def loaderSectors (l k : Nat) : UInt16 :=
  if l = 2 then UInt16.ofNat ((loaderGdt.getD (k / 2) 0).toNat / 0x10000 ^ (k % 2)) else 0

theorem loaderSectors_table : LoaderTable fun b => sectorByte loaderSectors 2 (b - 0x900) := by
  intro i hi
  have hi8 : i < 8 := hi
  interval_cases i <;> rfl

/-- A machine with 128 MB -/
theorem boot_path_128MB : ∃ s₁ c ram s₂,
    mbrRead 1 ⟨realMode, { readyDisk with sector := loaderSectors }⟩ = some s₁ ∧
    loaderFromMbr notSupported ⟨[], e801With128MB, notSupported⟩ s₁.cpu = .stored c ∧
    loadSegments c.ram = some ram ∧ loaderRead 1 ⟨{ c with ram := ram }, s₁.ata⟩ = some s₂ ∧
    BootMemory loaderSectors 0 0x8000000 (setupPage s₂.cpu.ram) :=
  @boot_path ⟨realMode, { readyDisk with sector := loaderSectors }⟩ 1
    ⟨[], e801With128MB, notSupported⟩ notSupported (by decide) (fun _ _ _ => rfl) loaderSectors_table
    rfl rfl ⟨by decide, by decide, by decide⟩

end Way

end OsKernel
