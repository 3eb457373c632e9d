import OsKernel.Lib.ByteMemory

/-!
# boot/loader.S: the size of the memory

In real mode the loader asks the BIOS how much memory there is. Function 0xe820 stores one address
range descriptor a call in `ards_buf`; when it fails, functions 0xe801 and 0x88 are tried. What the
kernel gets to see is `total_mem_bytes`, which `mem_init` reads at 0xb00.

- `RealMode.loaderStart`: the code from `loader_start` to `p_mode_start`. `mbr.S` jumps 20 bytes behind
  `loader_start`, because `ards_buf` has 224 bytes; the model starts where the label is.
- `e820MemGetLoop_run`: what the loop collects, and when it leaves the buffer.
- `findMaxMemArea_run`: the maximum is one of signed numbers, over descriptors of any type.
- `tryE801_stored`, `try88_stored`: the sizes that the other functions give.
-/

namespace OsKernel

open Lib ByteMemory

/-! ## Addresses -/

/-- `total_mem_bytes`, `LOADER_BASE_ADDR` and 512 bytes -/
def totalMemBytes : Nat := 0xb00

/-- `ards_buf` -/
def ardsBuf : Nat := 0xb0a

/-- The bytes of `ards_buf` -/
def ardsBufSize : Nat := 224

/-- `ards_nr`, directly behind the buffer -/
def ardsNr : Nat := ardsBuf + ardsBufSize

/-- `loader_start`, directly behind the counter -/
def loaderStartAddr : Nat := ardsNr + 2

/-! ## The BIOS -/

/-- An address range descriptor -/
structure Ards where
  baseAddrLow : UInt32
  baseAddrHigh : UInt32
  lengthLow : UInt32
  lengthHigh : UInt32
  type : UInt32
  deriving DecidableEq

namespace Ards

/-- The end of the range, as the 64-bit numbers of the descriptor give it. -/
def limit (d : Ards) : Nat :=
  d.baseAddrLow.toNat + 2 ^ 32 * d.baseAddrHigh.toNat +
    (d.lengthLow.toNat + 2 ^ 32 * d.lengthHigh.toNat)

/-- The BIOS stores the descriptor. -/
def store (d : Ards) (m : ByteMemory) (a : Nat) : ByteMemory :=
  ((((m.write32 a d.baseAddrLow).write32 (a + 4) d.baseAddrHigh).write32 (a + 8) d.lengthLow).write32
    (a + 12) d.lengthHigh).write32 (a + 16) d.type

/-- The descriptor at an address. -/
def read (m : ByteMemory) (a : Nat) : Ards :=
  ⟨m.read32 a, m.read32 (a + 4), m.read32 (a + 8), m.read32 (a + 12), m.read32 (a + 16)⟩

end Ards

/-- What `int 0x15` returns: the carry flag and the registers, each as the BIOS leaves it. -/
structure Int15 where
  cf : Bool
  eax : UInt32
  ebx : UInt32
  ecx : UInt32
  edx : UInt32

/-- A reply to function 0xe820. `ebx` is the continuation value, 0 with the last descriptor. -/
inductive E820Reply where
  | success (desc : Ards) (ebx : UInt32)
  | error (regs : Int15)

/-- The replies to the calls of the loader, in order. -/
structure Bios where
  e820 : List E820Reply
  e801 : Int15
  e88 : Int15

/-! ## The processor -/

/-- The registers that the loader uses, and memory. -/
structure RealMode where
  eax : UInt32
  ebx : UInt32
  ecx : UInt32
  edx : UInt32
  esi : UInt32
  di : UInt16
  ram : ByteMemory
  /-- The bytes that the BIOS has stored, by address -/
  stores : List Nat

/-- Write the low half of a register. -/
def setLow (r : UInt32) (x : UInt16) : UInt32 :=
  UInt32.ofNat (r.toNat / 0x10000 * 0x10000 + x.toNat)

namespace RealMode

def ax (s : RealMode) : UInt16 := s.eax.toUInt16
def bx (s : RealMode) : UInt16 := s.ebx.toUInt16
def cx (s : RealMode) : UInt16 := s.ecx.toUInt16

def setAx (x : UInt16) (s : RealMode) : RealMode := { s with eax := setLow s.eax x }
def setCx (x : UInt16) (s : RealMode) : RealMode := { s with ecx := setLow s.ecx x }

/-- `mul cx`: the product goes to `dx` and `ax`. -/
def mulCx (s : RealMode) : RealMode :=
  let product := s.ax.toNat * s.cx.toNat
  { s with
    eax := setLow s.eax (UInt16.ofNat product)
    edx := setLow s.edx (UInt16.ofNat (product / 0x10000)) }

/-- `mul ecx`: the product goes to `edx` and `eax`. -/
def mulEcx (s : RealMode) : RealMode :=
  let product := s.eax.toNat * s.ecx.toNat
  { s with eax := UInt32.ofNat product, edx := UInt32.ofNat (product / 0x100000000) }

/-- The registers after a call that stores nothing. -/
def int15 (r : Int15) (s : RealMode) : RealMode :=
  { s with eax := r.eax, ebx := r.ebx, ecx := r.ecx, edx := r.edx }

/-- A successful call of function 0xe820: 20 bytes at `di`, `eax` is 'SMAP'. -/
def int15E820 (d : Ards) (ebx : UInt32) (s : RealMode) : RealMode :=
  { s with
    eax := 0x534d4150
    ebx := ebx
    ecx := 20
    ram := d.store s.ram s.di.toNat
    stores := s.stores ++ (List.range 20).map (s.di.toNat + ·) }

/-- The word at `total_mem_bytes` -/
def total (s : RealMode) : UInt32 := s.ram.read32 totalMemBytes

end RealMode

/-! ## The routine -/

/-- Where the collecting of the descriptors ends. -/
inductive Collection where
  /-- `ebx` is 0 -/
  | complete (s : RealMode)
  /-- To `.e820_failed_so_try_e801` -/
  | failed (s : RealMode)
  /-- The BIOS has stored over the code from `loader_start` on. What runs then is not known. -/
  | overwritten (s : RealMode)
  /-- The BIOS has not answered yet. -/
  | waiting (s : RealMode)

/-- Where the detection ends. -/
inductive Detected where
  /-- To `p_mode_start` -/
  | stored (s : RealMode)
  /-- `.error_hlt` -/
  | halted (s : RealMode)
  | overwritten (s : RealMode)
  | waiting (s : RealMode)

/-- `add di, cx` and `inc word [ards_nr]` -/
def countReply (s : RealMode) : RealMode :=
  let s := { s with di := s.di + s.cx }
  { s with ram := s.ram.write16 ardsNr (s.ram.read16 ardsNr + 1) }

/-- `.e820_mem_get_loop` -/
def e820MemGetLoop : List E820Reply → RealMode → Collection
  | [], s => .waiting { s with eax := 0x0000e820, ecx := 20 }
  | .error regs :: _, s => .failed (s.int15 regs)
  | .success d ebx :: replies, s =>
    let s := { s with eax := 0x0000e820, ecx := 20 }
    let s := s.int15E820 d ebx
    -- the 20 bytes end where `di` points to after `add`
    if loaderStartAddr < (s.di + s.cx).toNat then .overwritten s
    else
      let s := countReply s
      if s.ebx = 0 then .complete s else e820MemGetLoop replies s

/-- `cmp edx, eax` and `jge`, which compares signed numbers. -/
def keepMax (edx eax : UInt32) : UInt32 := if eax.toInt32 ≤ edx.toInt32 then edx else eax

/-- `.find_max_mem_area`; `loop` comes back at most 2^16 times. -/
def findMaxMemArea : Nat → RealMode → RealMode
  | 0, s => s
  | turns + 1, s =>
    let s := { s with eax := s.ram.read32 s.ebx.toNat }
    let s := { s with eax := s.eax + s.ram.read32 (s.ebx + 8).toNat }
    let s := { s with ebx := s.ebx + 20 }
    let s := { s with edx := keepMax s.edx s.eax }
    let s := s.setCx (s.cx - 1)
    if s.cx ≠ 0 then findMaxMemArea turns s else s

/-- `.mem_get_ok` -/
def memGetOk (s : RealMode) : Detected :=
  .stored { s with ram := s.ram.write32 totalMemBytes s.edx }

/-- `.e801_failed_so_try_88` -/
def try88 (e88 : Int15) (s : RealMode) : Detected :=
  let s := s.setAx (0x8800 + s.ax % 0x100)
  let s := s.int15 e88
  if e88.cf then .halted s
  else
    let s := { s with eax := s.eax &&& 0x0000FFFF }
    let s := s.setCx 0x400
    let s := { s with edx := s.edx <<< 16 }
    let s := { s with edx := s.edx ||| s.eax }
    let s := { s with edx := s.edx + 0x100000 }
    memGetOk s

/-- The low 15 MB, in bytes -/
def e801Low (s : RealMode) : RealMode :=
  let s := s.setCx 0x400
  let s := s.mulCx
  let s := { s with edx := s.edx <<< 16 }
  let s := { s with eax := s.eax &&& 0x0000FFFF }
  let s := { s with edx := s.edx + 0x100000 }
  { s with esi := s.edx }

/-- The memory above 16 MB is added. -/
def e801High (s : RealMode) : RealMode :=
  let s := { s with eax := 0 }
  let s := s.setAx s.bx
  let s := { s with ecx := 0x10000 }
  let s := s.mulEcx
  let s := { s with esi := s.esi + s.eax }
  { s with edx := s.esi }

/-- `.e820_failed_so_try_e801` -/
def tryE801 (e801 e88 : Int15) (s : RealMode) : Detected :=
  let s := s.setAx 0xe801
  let s := s.int15 e801
  if e801.cf then try88 e88 s else memGetOk (e801High (e801Low s))

/-- `loader_start`, up to the first call -/
def e820Setup (s : RealMode) : RealMode :=
  let s := { s with ebx := 0 }
  let s := { s with edx := 0x534d4150 }
  { s with di := UInt16.ofNat ardsBuf }

/-- Behind `jnz .e820_mem_get_loop`, up to `.find_max_mem_area` -/
def findMaxSetup (s : RealMode) : RealMode :=
  let s := s.setCx (s.ram.read16 ardsNr)
  let s := { s with ebx := UInt32.ofNat ardsBuf }
  { s with edx := 0 }

/-- `loader_start` -/
def RealMode.loaderStart (bios : Bios) (s : RealMode) : Detected :=
  match e820MemGetLoop bios.e820 (e820Setup s) with
  | .complete s => memGetOk (findMaxMemArea 0x10000 (findMaxSetup s))
  | .failed s => tryE801 bios.e801 bios.e88 s
  | .overwritten s => .overwritten s
  | .waiting s => .waiting s

/-! ## Registers -/

theorem toNat_setLow (r : UInt32) (x : UInt16) :
    (setLow r x).toNat = r.toNat / 0x10000 * 0x10000 + x.toNat := by
  have hr := r.toNat_lt
  have hx := x.toNat_lt
  rw [setLow, UInt32.toNat_ofNat']
  exact Nat.mod_eq_of_lt (by omega)

@[simp] theorem toUInt16_setLow (r : UInt32) (x : UInt16) : (setLow r x).toUInt16 = x := by
  have hx := x.toNat_lt
  apply UInt16.toNat_inj.mp
  rw [UInt32.toNat_toUInt16, toNat_setLow]
  omega

@[simp] theorem RealMode.cx_setCx (s : RealMode) (x : UInt16) : (s.setCx x).cx = x :=
  toUInt16_setLow s.ecx x

@[simp] theorem RealMode.eax_setCx (s : RealMode) (x : UInt16) : (s.setCx x).eax = s.eax := rfl

@[simp] theorem RealMode.ax_setCx (s : RealMode) (x : UInt16) : (s.setCx x).ax = s.ax :=
  congrArg UInt32.toUInt16 (s.eax_setCx x)

@[simp] theorem RealMode.edx_setCx (s : RealMode) (x : UInt16) : (s.setCx x).edx = s.edx := rfl

theorem RealMode.edx_mulCx (s : RealMode) : s.mulCx.edx =
    setLow s.edx (UInt16.ofNat (s.ax.toNat * s.cx.toNat / 0x10000)) := rfl

theorem RealMode.eax_mulEcx (s : RealMode) :
    s.mulEcx.eax = UInt32.ofNat (s.eax.toNat * s.ecx.toNat) := rfl

theorem RealMode.esi_mulEcx (s : RealMode) : s.mulEcx.esi = s.esi := rfl

/-! ## The descriptors in memory -/

section Descriptors

variable {d : Ards} {m m' : ByteMemory} {a start len : Nat}

@[simp] theorem Ards.read_store : Ards.read (d.store m a) a = d := by
  simp only [Ards.read, Ards.store, read32_write32, read32_write32_of_disjoint, Nat.le_refl,
    Nat.add_le_add_iff_left, true_or, Nat.reduceLeDiff, Nat.add_assoc, Nat.reduceAdd]

theorem Ards.eqOn_store (h : a + 20 ≤ start ∨ start + len ≤ a) :
    EqOn start len m (d.store m a) := by
  refine EqOn.trans ?_ (eqOn_write32 (by omega))
  refine EqOn.trans ?_ (eqOn_write32 (by omega))
  refine EqOn.trans ?_ (eqOn_write32 (by omega))
  refine EqOn.trans ?_ (eqOn_write32 (by omega))
  exact eqOn_write32 (by omega)

theorem Ards.read_eqOn (h : EqOn start len m m') (hlo : start ≤ a) (hhi : a + 20 ≤ start + len) :
    Ards.read m' a = Ards.read m a := by
  rw [Ards.read, Ards.read, h.read32 hlo (by omega), h.read32 (by omega) (by omega),
    h.read32 (by omega) (by omega), h.read32 (by omega) (by omega), h.read32 (by omega) hhi]

end Descriptors

/-! ## Collecting -/

/-- The descriptors up to the first reply with a continuation value of 0: the loop asks for no more.
-/
def received : List (Ards × UInt32) → List Ards
  | [] => []
  | (d, ebx) :: replies => d :: if ebx = 0 then [] else received replies

/-- Replies without an error -/
def successes (replies : List (Ards × UInt32)) : List E820Reply :=
  replies.map fun p => .success p.1 p.2

section Collecting

variable {done : List Ards} {s : RealMode} {d : Ards} {ebx : UInt32}

/-- The loop has stored the descriptors of `done`. -/
structure Collecting (done : List Ards) (s : RealMode) : Prop where
  room : done.length ≤ 11
  di : s.di.toNat = ardsBuf + 20 * done.length
  nr : (s.ram.read16 ardsNr).toNat = done.length
  descs : ∀ i (hi : i < done.length), Ards.read s.ram (ardsBuf + 20 * i) = done[i]
  stores : ∀ a ∈ s.stores, ardsBuf ≤ a ∧ a < ardsBuf + ardsBufSize

/-- What the loop sets before each call is not part of it. -/
theorem Collecting.withRegs (h : Collecting done s) (eax ecx : UInt32) :
    Collecting done { s with eax := eax, ecx := ecx } := ⟨h.room, h.di, h.nr, h.descs, h.stores⟩

/-- One more descriptor. -/
def e820Reply (d : Ards) (ebx : UInt32) (s : RealMode) : RealMode :=
  countReply ({ s with eax := 0x0000e820, ecx := 20 }.int15E820 d ebx)

theorem e820Reply_di (s : RealMode) : (e820Reply d ebx s).di = s.di + 20 := rfl

theorem e820Reply_ram (s : RealMode) : (e820Reply d ebx s).ram =
    (d.store s.ram s.di.toNat).write16 ardsNr ((d.store s.ram s.di.toNat).read16 ardsNr + 1) := rfl

/-- The counter is not part of the buffer. -/
theorem eqOn_countReply (s : RealMode) : EqOn ardsBuf ardsBufSize
    (d.store s.ram s.di.toNat) (e820Reply d ebx s).ram := by
  rw [e820Reply_ram]
  exact eqOn_write16 (Or.inr (Nat.le_refl _))

/-- While there is room, a reply adds its descriptor. -/
theorem Collecting.step (h : Collecting done s) (hroom : done.length < 11) :
    Collecting (done ++ [d]) (e820Reply d ebx s) := by
  have hdi := h.di
  have hnr := h.nr
  have hbuf : ardsBuf = 2826 := rfl
  have hsize : ardsBufSize = 224 := rfl
  have hnrAddr : ardsNr = 3050 := rfl
  refine ⟨?_, ?_, ?_, ?_, ?_⟩
  · rw [List.length_append, List.length_singleton]
    omega
  · rw [e820Reply_di, UInt16.toNat_add, List.length_append, List.length_singleton, hdi]
    rw [show (20 : UInt16).toNat = 20 from rfl]
    omega
  · -- the descriptor ends before the counter
    have hcounter : (d.store s.ram s.di.toNat).read16 ardsNr = s.ram.read16 ardsNr :=
      (Ards.eqOn_store (Or.inl (by omega))).read16 (Nat.le_refl _) (Nat.le_refl _)
    rw [e820Reply_ram, read16_write16, hcounter, UInt16.toNat_add, hnr, List.length_append]
    rw [show (1 : UInt16).toNat = 1 from rfl, List.length_singleton]
    omega
  · intro i hi
    rw [List.length_append, List.length_singleton] at hi
    rw [Ards.read_eqOn (eqOn_countReply s) (by omega) (by omega)]
    rcases Nat.lt_succ_iff_lt_or_eq.mp hi with hlt | rfl
    · -- an earlier one lies below
      rw [List.getElem_append_left hlt, ← h.descs i hlt, hdi]
      exact Ards.read_eqOn (Ards.eqOn_store (Or.inr (Nat.le_refl _))) (Nat.le_add_right ..) (by omega)
    · rw [← hdi, Ards.read_store]
      exact (List.getElem_concat_length rfl _).symm
  · intro a ha
    rcases List.mem_append.mp ha with ha | ha
    · exact h.stores a ha
    · obtain ⟨k, hk, rfl⟩ := List.mem_map.mp ha
      rw [List.mem_range] at hk
      dsimp only
      omega

/-- With the buffer full, the BIOS stores behind it. -/
theorem Collecting.full (h : Collecting done s) (hfull : done.length = 11) :
    loaderStartAddr < (s.di + 20).toNat ∧ ardsBuf + ardsBufSize ∈ (s.int15E820 d ebx).stores := by
  have hdi := h.di
  rw [hfull] at hdi
  constructor
  · rw [UInt16.toNat_add, hdi]
    decide
  · refine List.mem_append_right _ (List.mem_map.mpr ⟨4, by decide, ?_⟩)
    rw [hdi]
    rfl

/-- Where replies without an error lead to. -/
inductive Collected (replies : List (Ards × UInt32)) (ds : List Ards) : Collection → Prop where
  | complete {s : RealMode} (h : Collecting ds s) (hlast : ∃ p ∈ replies, p.2 = 0) :
    Collected replies ds (.complete s)
  | waiting {s : RealMode} (h : Collecting ds s) (hmore : ∀ p ∈ replies, p.2 ≠ 0) :
    Collected replies ds (.waiting s)
  | overwritten {s : RealMode} (h : 11 < ds.length)
    (hout : ardsBuf + ardsBufSize ∈ s.stores) : Collected replies ds (.overwritten s)

theorem Collected.cons {replies : List (Ards × UInt32)} {ds : List Ards} {c : Collection}
    (h : Collected replies ds c) (hmore : ebx ≠ 0) : Collected ((d, ebx) :: replies) ds c := by
  cases h with
  | complete h hlast =>
    obtain ⟨p, hp, hzero⟩ := hlast
    exact .complete h ⟨p, List.mem_cons_of_mem _ hp, hzero⟩
  | waiting h hall => exact .waiting h (List.forall_mem_cons.mpr ⟨hmore, hall⟩)
  | overwritten h hout => exact .overwritten h hout

/-- **The loop**: it collects what it is given, up to 11 descriptors. -/
theorem e820MemGetLoop_run (replies : List (Ards × UInt32)) (h : Collecting done s) :
    Collected replies (done ++ received replies) (e820MemGetLoop (successes replies) s) := by
  induction replies generalizing done s with
  | nil =>
    rw [received, List.append_nil]
    exact .waiting (h.withRegs ..) (by simp)
  | cons reply replies ih =>
    obtain ⟨d, ebx⟩ := reply
    have hroom := h.room
    by_cases hfull : done.length = 11
    · have hout := @Collecting.full done _ d ebx (h.withRegs 0x0000e820 20) hfull
      have hloop : e820MemGetLoop (successes ((d, ebx) :: replies)) s =
          .overwritten ({ s with eax := 0x0000e820, ecx := 20 }.int15E820 d ebx) := if_pos hout.1
      rw [hloop]
      refine .overwritten ?_ hout.2
      rw [received, List.length_append, List.length_cons]
      omega
    · have hnext := @Collecting.step done s d ebx h (by omega)
      have hin : ¬ loaderStartAddr < (s.di + 20).toNat := by
        have hdi := hnext.di
        have hlen := hnext.room
        rw [e820Reply_di] at hdi
        rw [hdi, show loaderStartAddr = ardsBuf + 226 from rfl]
        omega
      have hloop : e820MemGetLoop (successes ((d, ebx) :: replies)) s =
          if ebx = 0 then .complete (e820Reply d ebx s)
          else e820MemGetLoop (successes replies) (e820Reply d ebx s) := if_neg hin
      rw [hloop, received]
      split
      · case isTrue hlast => exact .complete hnext ⟨_, List.mem_cons_self, hlast⟩
      · case isFalse hmore =>
        rw [List.append_cons]
        exact (ih hnext).cons hmore

end Collecting

/-! ### From `loader_start` on -/

/-- The loader as `mbr.S` has read it from the disk: no descriptor has been counted. -/
structure AtLoaderStart (s : RealMode) : Prop where
  nr : s.ram.read16 ardsNr = 0
  stores : s.stores = []

theorem AtLoaderStart.collecting {s : RealMode} (h : AtLoaderStart s) :
    Collecting [] (e820Setup s) where
  room := Nat.zero_le _
  di := rfl
  nr := by
    have hram : (e820Setup s).ram = s.ram := rfl
    rw [hram, h.nr]
    rfl
  descs _ hi := absurd hi (Nat.not_lt_zero _)
  stores a ha := by
    have hstores : (e820Setup s).stores = s.stores := rfl
    rw [hstores, h.stores] at ha
    exact absurd ha List.not_mem_nil

/-- The state that the collecting has come to. -/
def Collection.state : Collection → RealMode
  | .complete s => s
  | .failed s => s
  | .overwritten s => s
  | .waiting s => s

/-- **The descriptors stay in their buffer**: no byte is stored outside it, and when the loop ends,
the counter and the buffer hold the descriptors received. -/
structure StaysInBuffer (ds : List Ards) (c : Collection) : Prop where
  stores : ∀ a ∈ c.state.stores, ardsBuf ≤ a ∧ a < ardsBuf + ardsBufSize
  nr : ∀ s, c = .complete s → (s.ram.read16 ardsNr).toNat = ds.length
  descs : ∀ s, c = .complete s → ∀ i (hi : i < ds.length),
    Ards.read s.ram (ardsBuf + 20 * i) = ds[i]

theorem Collecting.staysInBuffer {ds : List Ards} {s : RealMode} {c : Collection}
    (h : Collecting ds s) (hc : c = .complete s ∨ c = .waiting s) : StaysInBuffer ds c := by
  have hstate : c.state = s := by
    rcases hc with rfl | rfl
    · rfl
    · rfl
  have hdone : ∀ s', c = .complete s' → s' = s := by
    rintro s' rfl
    exact hstate
  refine ⟨?_, ?_, ?_⟩
  · rw [hstate]
    exact h.stores
  · intro s' hs'
    rw [hdone s' hs']
    exact h.nr
  · intro s' hs'
    rw [hdone s' hs']
    exact h.descs

/-- The 12th descriptor does not fit. -/
theorem not_staysInBuffer {replies : List (Ards × UInt32)} {s : RealMode} (h : AtLoaderStart s)
    (hmany : 11 < (received replies).length) :
    ¬ StaysInBuffer (received replies) (e820MemGetLoop (successes replies) (e820Setup s)) := by
  have hrun := e820MemGetLoop_run replies h.collecting
  rw [List.nil_append] at hrun
  generalize e820MemGetLoop (successes replies) (e820Setup s) = c at hrun
  cases hrun with
  | complete hcoll => exact absurd hcoll.room (Nat.not_le_of_lt hmany)
  | waiting hcoll => exact absurd hcoll.room (Nat.not_le_of_lt hmany)
  | overwritten _ hout =>
    intro hstays
    exact absurd (hstays.stores _ hout).2 (Nat.lt_irrefl _)

/-- The descriptors of any sequence of successful replies stay in `ards_buf` exactly if there are no
more than 11 of them. -/
theorem e820_staysInBuffer_iff (replies : List (Ards × UInt32)) (s : RealMode)
    (h : AtLoaderStart s) :
    StaysInBuffer (received replies) (e820MemGetLoop (successes replies) (e820Setup s)) ↔
      (received replies).length ≤ 11 := by
  refine ⟨fun hstays => Nat.not_lt.mp fun hmany => not_staysInBuffer h hmany hstays, fun hfew => ?_⟩
  have hrun := e820MemGetLoop_run replies h.collecting
  rw [List.nil_append] at hrun
  generalize e820MemGetLoop (successes replies) (e820Setup s) = c at hrun ⊢
  cases hrun with
  | complete hcoll => exact hcoll.staysInBuffer (.inl rfl)
  | waiting hcoll => exact hcoll.staysInBuffer (.inr rfl)
  | overwritten hmany => exact absurd hfew (Nat.not_le_of_lt hmany)

/-- A state at `loader_start` -/
def realMode : RealMode := ⟨0, 0, 0, 0, 0, 0, fun _ => 0, []⟩

theorem realMode_atLoaderStart : AtLoaderStart realMode := ⟨rfl, rfl⟩

/-- Usable memory below 640 KB -/
def lowMemory : Ards := ⟨0, 0, 0x9fc00, 0, 1⟩

/-- `n` descriptors, and a last one. -/
def lowMemoryReplies (n : Nat) : List (Ards × UInt32) :=
  List.replicate n (lowMemory, 1) ++ [(lowMemory, 0)]

/-- Eleven replies fill the buffer. -/
theorem e820_staysInBuffer_eleven : (received (lowMemoryReplies 10)).length = 11 ∧
    StaysInBuffer (received (lowMemoryReplies 10))
      (e820MemGetLoop (successes (lowMemoryReplies 10)) (e820Setup realMode)) :=
  ⟨by decide, (e820_staysInBuffer_iff (lowMemoryReplies 10) realMode realMode_atLoaderStart).mpr
    (by decide)⟩

/-- With twelve replies the last descriptor is stored over the counter and the code. -/
theorem e820_leaves_buffer : AtLoaderStart realMode ∧
    ¬ StaysInBuffer (received (lowMemoryReplies 11))
      (e820MemGetLoop (successes (lowMemoryReplies 11)) (e820Setup realMode)) := by
  have hmany : 11 < (received (lowMemoryReplies 11)).length := by decide
  exact ⟨realMode_atLoaderStart, not_staysInBuffer realMode_atLoaderStart hmany⟩

/-! ## The maximum -/

section Maximum

variable {ds : List Ards} {d : Ards} {m x : UInt32}

/-- The end of the range as the loop computes it. -/
def Ards.end32 (d : Ards) : UInt32 := d.baseAddrLow + d.lengthLow

/-- Below 4 GB the low halves are enough. -/
theorem Ards.toNat_end32 (h : d.limit < 2 ^ 32) : d.end32.toNat = d.limit := by
  rw [Ards.limit] at h ⊢
  rw [Ards.end32, UInt32.toNat_add]
  omega

theorem toInt_toInt32 (x : UInt32) :
    x.toInt32.toInt = if x.toNat < 2 ^ 31 then (x.toNat : Int) else x.toNat - 2 ^ 32 := by
  have htwice : 2 * x.toNat < 2 ^ 32 ↔ x.toNat < 2 ^ 31 := by omega
  have hcond : x.toInt32.toInt =
      if 2 * x.toNat < 2 ^ 32 then (x.toNat : Int) else (x.toNat : Int) - (2 ^ 32 : Nat) :=
    BitVec.toInt_eq_toNat_cond x.toBitVec
  simp only [hcond, htwice]
  norm_cast

theorem toInt32_le_iff (hm : m.toNat < 2 ^ 31) :
    x.toInt32 ≤ m.toInt32 ↔ 2 ^ 31 ≤ x.toNat ∨ x.toNat ≤ m.toNat := by
  have hx := x.toNat_lt
  rw [Int32.le_iff_toInt_le, toInt_toInt32, toInt_toInt32, if_pos hm]
  split
  · omega
  · omega

/-- From 2 GB on a number is negative, and the maximum stays as it is. -/
theorem keepMax_eq (hm : m.toNat < 2 ^ 31) :
    keepMax m x = if 2 ^ 31 ≤ x.toNat ∨ x.toNat ≤ m.toNat then m else x := by
  simp only [keepMax, toInt32_le_iff hm]

/-- The maximum over descriptors, from `m` on. -/
def keepMaxEnd (m : UInt32) (ds : List Ards) : UInt32 := ds.foldl (fun m d => keepMax m d.end32) m

/-- `v` is the largest of `m` and the ends that are not negative. -/
structure IsSignedMax (m : UInt32) (ds : List Ards) (v : UInt32) : Prop where
  low : v.toNat < 2 ^ 31
  start : m.toNat ≤ v.toNat
  attained : v = m ∨ ∃ d ∈ ds, d.end32 = v
  upper : ∀ d ∈ ds, d.end32.toNat < 2 ^ 31 → d.end32.toNat ≤ v.toNat

theorem keepMaxEnd_isSignedMax (hm : m.toNat < 2 ^ 31) : IsSignedMax m ds (keepMaxEnd m ds) := by
  induction ds generalizing m with
  | nil => exact ⟨hm, Nat.le_refl _, .inl rfl, by simp⟩
  | cons d ds ih =>
    have hfold : keepMaxEnd m (d :: ds) = keepMaxEnd (keepMax m d.end32) ds := rfl
    rw [hfold, keepMax_eq hm]
    split
    · case isTrue hkept =>
      have hrest := ih hm
      refine ⟨hrest.low, hrest.start, ?_, ?_⟩
      · rcases hrest.attained with heq | ⟨d', hd', heq⟩
        · exact .inl heq
        · exact .inr ⟨d', List.mem_cons_of_mem _ hd', heq⟩
      · refine List.forall_mem_cons.mpr ⟨fun hlow => ?_, hrest.upper⟩
        have hstart := hrest.start
        omega
    · case isFalse hbigger =>
      have hrest := @ih d.end32 (by omega)
      refine ⟨hrest.low, ?_, ?_, ?_⟩
      · have hstart := hrest.start
        omega
      · rcases hrest.attained with heq | ⟨d', hd', heq⟩
        · exact .inr ⟨d, List.mem_cons_self, heq.symm⟩
        · exact .inr ⟨d', List.mem_cons_of_mem _ hd', heq⟩
      · exact List.forall_mem_cons.mpr ⟨fun _ => hrest.start, hrest.upper⟩

/-- **The search**: it reads the descriptors of the buffer, and only `eax`, `ebx`, `ecx` and `edx`
change. -/
theorem findMaxMemArea_run {turns : Nat} {s : RealMode} (hne : ds ≠ [])
    (hcx : s.cx.toNat = ds.length) (hturns : ds.length ≤ turns)
    (hroom : s.ebx.toNat + 20 * ds.length < 2 ^ 32)
    (hdescs : ∀ i (hi : i < ds.length), Ards.read s.ram (s.ebx.toNat + 20 * i) = ds[i]) :
    (findMaxMemArea turns s).ram = s.ram ∧
      (findMaxMemArea turns s).edx = keepMaxEnd s.edx ds := by
  induction ds generalizing turns s with
  | nil => exact absurd rfl hne
  | cons d ds ih =>
    rw [List.length_cons] at hcx hturns hroom
    obtain ⟨turns, rfl⟩ : ∃ n, turns = n + 1 := ⟨turns - 1, by omega⟩
    -- the first descriptor
    have hd : Ards.read s.ram s.ebx.toNat = d := hdescs 0 (Nat.zero_lt_succ _)
    have hebx8 : (s.ebx + 8).toNat = s.ebx.toNat + 8 := by
      rw [UInt32.toNat_add, show (8 : UInt32).toNat = 8 from rfl]
      omega
    have hebx20 : (s.ebx + 20).toNat = s.ebx.toNat + 20 := by
      rw [UInt32.toNat_add, show (20 : UInt32).toNat = 20 from rfl]
      omega
    have hend : s.ram.read32 s.ebx.toNat + s.ram.read32 (s.ebx + 8).toNat = d.end32 := by
      rw [hebx8, ← hd]
      rfl
    -- the state after one turn
    obtain ⟨s', hturn, hram, hebx, hedx, hcx'⟩ : ∃ s', findMaxMemArea (turns + 1) s =
        (if s'.cx ≠ 0 then findMaxMemArea turns s' else s') ∧ s'.ram = s.ram ∧
        s'.ebx = s.ebx + 20 ∧ s'.edx = keepMax s.edx d.end32 ∧ s'.cx = s.cx - 1 := by
      refine ⟨_, rfl, rfl, rfl, ?_, RealMode.cx_setCx ..⟩
      exact congrArg (keepMax s.edx) hend
    have hlen : s'.cx.toNat = ds.length := by
      have hone : (1 : UInt16).toNat = 1 := rfl
      rw [hcx', UInt16.toNat_sub_of_le _ _ (UInt16.le_iff_toNat_le.mpr (by omega))]
      omega
    have hfold : keepMaxEnd s.edx (d :: ds) = keepMaxEnd s'.edx ds := by
      rw [hedx]
      rfl
    rw [hturn, hfold, ← hram]
    cases ds with
    | nil =>
      have hzero : s'.cx = 0 := UInt16.toNat_inj.mp hlen
      rw [if_neg (not_not.mpr hzero)]
      exact ⟨rfl, rfl⟩
    | cons d' ds =>
      have hmore : s'.cx ≠ 0 := by
        intro hzero
        rw [hzero] at hlen
        exact absurd hlen (Nat.succ_ne_zero _).symm
      rw [if_pos hmore]
      refine ih (List.cons_ne_nil _ _) hlen (by omega) (by rw [hebx, hebx20]; omega) fun i hi => ?_
      have hnext := hdescs (i + 1) (Nat.succ_lt_succ hi)
      rw [hram, hebx, hebx20, Nat.add_assoc, Nat.add_comm 20, ← Nat.mul_succ]
      exact hnext

end Maximum

/-! ### The size that gets stored -/

section Size

variable {replies : List (Ards × UInt32)} {e801 e88 : Int15} {s : RealMode}

theorem received_ne_nil (hlast : ∃ p ∈ replies, p.2 = 0) : received replies ≠ [] := by
  obtain ⟨p, hp, -⟩ := hlast
  cases replies with
  | nil => exact absurd hp List.not_mem_nil
  | cons p' replies => exact List.cons_ne_nil _ _

/-- What the loader stores when there is room for all descriptors. -/
theorem loaderStart_stored (h : AtLoaderStart s) (hlast : ∃ p ∈ replies, p.2 = 0)
    (hfew : (received replies).length ≤ 11) :
    ∃ s', RealMode.loaderStart ⟨successes replies, e801, e88⟩ s = .stored s' ∧
      s'.total = keepMaxEnd 0 (received replies) := by
  have hrun := e820MemGetLoop_run replies h.collecting
  rw [List.nil_append] at hrun
  rw [RealMode.loaderStart]
  generalize e820MemGetLoop (successes replies) (e820Setup s) = c at hrun ⊢
  cases hrun with
  | waiting _ hmore =>
    obtain ⟨p, hp, hzero⟩ := hlast
    exact absurd hzero (hmore p hp)
  | overwritten hmany => exact absurd hfew (Nat.not_le_of_lt hmany)
  | @complete s' hcoll =>
    refine ⟨_, rfl, ?_⟩
    have hcx : (findMaxSetup s').cx.toNat = (received replies).length := by
      have hset : (findMaxSetup s').cx = s'.ram.read16 ardsNr :=
        toUInt16_setLow s'.ecx (s'.ram.read16 ardsNr)
      rw [hset, hcoll.nr]
    have hebx : (findMaxSetup s').ebx.toNat = ardsBuf := rfl
    have hroom : ardsBuf + 20 * (received replies).length < 2 ^ 32 := by
      rw [ardsBuf]
      omega
    have hsearch := @findMaxMemArea_run (received replies) 0x10000 (findMaxSetup s')
      (received_ne_nil hlast) hcx (Nat.le_trans hfew (by decide)) (hebx ▸ hroom) hcoll.descs
    rw [RealMode.total, read32_write32, hsearch.2]
    rfl

/-- The ends of ranges -/
def limits (ds : List Ards) : Set Nat := {n | ∃ d ∈ ds, d.limit = n}

/-- The descriptors of usable memory -/
def usable (ds : List Ards) : List Ards := ds.filter (·.type = 1)

/-- With every range below 2 GB, the size is the largest end of a range, of any type. -/
theorem totalMemBytes_largest (replies : List (Ards × UInt32)) (e801 e88 : Int15) (s : RealMode)
    (h : AtLoaderStart s) (hlast : ∃ p ∈ replies, p.2 = 0)
    (hfew : (received replies).length ≤ 11)
    (hlow : ∀ d ∈ received replies, d.limit < 2 ^ 31) :
    ∃ s', RealMode.loaderStart ⟨successes replies, e801, e88⟩ s = .stored s' ∧
      IsGreatest (limits (received replies)) s'.total.toNat := by
  obtain ⟨s', hs', htotal⟩ := @loaderStart_stored replies e801 e88 s h hlast hfew
  have hmax := @keepMaxEnd_isSignedMax (received replies) 0 (by decide)
  have hend : ∀ d ∈ received replies, d.end32.toNat = d.limit := fun d hd =>
    Ards.toNat_end32 (Nat.lt_trans (hlow d hd) (by decide))
  refine ⟨s', hs', ?_⟩
  rw [htotal]
  have hupper : ∀ d ∈ received replies, d.limit ≤ (keepMaxEnd 0 (received replies)).toNat := by
    intro d hd
    rw [← hend d hd]
    exact hmax.upper d hd (by rw [hend d hd]; exact hlow d hd)
  constructor
  · rcases hmax.attained with hzero | ⟨d, hd, heq⟩
    · -- every range ends at 0
      obtain ⟨d, hd⟩ := List.exists_mem_of_ne_nil _ (received_ne_nil hlast)
      have hle := hupper d hd
      rw [hzero] at hle ⊢
      exact ⟨d, hd, Nat.le_zero.mp hle⟩
    · exact ⟨d, hd, by rw [← heq, hend d hd]⟩
  · rintro n ⟨d, hd, rfl⟩
    exact hupper d hd

/-- The low memory of a PC and what lies above 1 MB -/
def twoRanges : List (Ards × UInt32) := [(lowMemory, 1), (⟨0x100000, 0, 0x7ee0000, 0, 1⟩, 0)]

theorem totalMemBytes_largest_two :
    AtLoaderStart realMode ∧
    ∃ s', RealMode.loaderStart ⟨successes twoRanges, ⟨true, 0, 0, 0, 0⟩, ⟨true, 0, 0, 0, 0⟩⟩
        realMode = .stored s' ∧
      IsGreatest (limits (received twoRanges)) s'.total.toNat :=
  ⟨realMode_atLoaderStart, totalMemBytes_largest twoRanges _ _ realMode realMode_atLoaderStart
    (by decide) (by decide) (by decide)⟩

/-- The firmware keeps the last 1 MB of the 128 MB for itself. -/
def reservedTop : List (Ards × UInt32) :=
  [(⟨0, 0, 0x7f00000, 0, 1⟩, 1), (⟨0x7f00000, 0, 0x100000, 0, 2⟩, 0)]

/-- A reserved range at the top counts as memory. -/
theorem totalMemBytes_counts_reserved : AtLoaderStart realMode ∧ (∃ p ∈ reservedTop, p.2 = 0) ∧
    (received reservedTop).length ≤ 11 ∧ (∀ d ∈ received reservedTop, d.limit < 2 ^ 31) ∧
    (∃ d ∈ received reservedTop, d.type = 1) ∧
    ¬ ∃ s', RealMode.loaderStart ⟨successes reservedTop, ⟨true, 0, 0, 0, 0⟩, ⟨true, 0, 0, 0, 0⟩⟩
        realMode = .stored s' ∧
      IsGreatest (limits (usable (received reservedTop))) s'.total.toNat := by
  refine ⟨realMode_atLoaderStart, by decide, by decide, by decide, by decide, ?_⟩
  rintro ⟨s', hs', hgreatest⟩
  obtain ⟨s'', hs'', htotal⟩ := @loaderStart_stored reservedTop ⟨true, 0, 0, 0, 0⟩
    ⟨true, 0, 0, 0, 0⟩ realMode realMode_atLoaderStart (by decide) (by decide)
  obtain rfl : s'' = s' := Detected.stored.inj (hs''.symm.trans hs')
  obtain ⟨d, hd, hlimit⟩ := hgreatest.1
  have husable : ∀ d ∈ usable (received reservedTop), d.limit = 0x7f00000 := by decide
  have hsize : (keepMaxEnd 0 (received reservedTop)).toNat = 0x8000000 := by decide
  rw [husable d hd, htotal, hsize] at hlimit
  exact absurd hlimit (by decide)

/-- What the size depends on when memory is what counts: all of it ends below 2 GB, and no other
range below 2 GB ends higher. -/
theorem usable_isGreatest_iff {ds : List Ards} (hlimit : ∀ d ∈ ds, d.limit < 2 ^ 32)
    (hne : usable ds ≠ []) :
    IsGreatest (limits (usable ds)) (keepMaxEnd 0 ds).toNat ↔
      (∀ d ∈ usable ds, d.limit < 2 ^ 31) ∧
        ∀ d ∈ ds, d.limit < 2 ^ 31 → ∃ d' ∈ usable ds, d.limit ≤ d'.limit := by
  have hmax := @keepMaxEnd_isSignedMax ds 0 (by decide)
  have hend : ∀ d ∈ ds, d.end32.toNat = d.limit := fun d hd => Ards.toNat_end32 (hlimit d hd)
  have hupper : ∀ d ∈ ds, d.limit < 2 ^ 31 → d.limit ≤ (keepMaxEnd 0 ds).toNat := by
    intro d hd hlow
    have hle := hmax.upper d hd
    rw [hend d hd] at hle
    exact hle hlow
  have hsub : ∀ d ∈ usable ds, d ∈ ds := fun d hd => (List.mem_filter.mp hd).1
  constructor
  · rintro ⟨⟨d, hd, heq⟩, hub⟩
    constructor
    · intro d' hd'
      exact Nat.lt_of_le_of_lt (hub ⟨d', hd', rfl⟩) hmax.low
    · intro d' hd' hlow
      exact ⟨d, hd, heq ▸ hupper d' hd' hlow⟩
  · rintro ⟨hlow, hcovered⟩
    refine ⟨?_, ?_⟩
    · rcases hmax.attained with hzero | ⟨d, hd, heq⟩
      · obtain ⟨d, hd⟩ := List.exists_mem_of_ne_nil _ hne
        have hle := hupper d (hsub d hd) (hlow d hd)
        rw [hzero] at hle ⊢
        exact ⟨d, hd, Nat.le_zero.mp hle⟩
      · -- the range that ends highest may be another one, but then it ends where memory does
        have hd31 : d.limit < 2 ^ 31 := by
          rw [← hend d hd, heq]
          exact hmax.low
        obtain ⟨d', hd', hle⟩ := hcovered d hd hd31
        have hle' := hupper d' (hsub d' hd') (hlow d' hd')
        refine ⟨d', hd', Nat.le_antisymm hle' ?_⟩
        rw [← heq, hend d hd]
        exact hle
    · rintro n ⟨d, hd, rfl⟩
      exact hupper d (hsub d hd) (hlow d hd)

/-- When the size that gets stored is the end of usable memory. -/
theorem loaderStart_usable_iff (h : AtLoaderStart s) (hlast : ∃ p ∈ replies, p.2 = 0)
    (hfew : (received replies).length ≤ 11)
    (hlimit : ∀ d ∈ received replies, d.limit < 2 ^ 32) (hne : usable (received replies) ≠ []) :
    (∃ s', RealMode.loaderStart ⟨successes replies, e801, e88⟩ s = .stored s' ∧
        IsGreatest (limits (usable (received replies))) s'.total.toNat) ↔
      (∀ d ∈ usable (received replies), d.limit < 2 ^ 31) ∧
        ∀ d ∈ received replies, d.limit < 2 ^ 31 →
          ∃ d' ∈ usable (received replies), d.limit ≤ d'.limit := by
  obtain ⟨s', hs', htotal⟩ := @loaderStart_stored replies e801 e88 s h hlast hfew
  rw [← usable_isGreatest_iff hlimit hne, ← htotal]
  constructor
  · rintro ⟨s'', hs'', hgreatest⟩
    obtain rfl : s'' = s' := Detected.stored.inj (hs''.symm.trans hs')
    exact hgreatest
  · intro hgreatest
    exact ⟨s', hs', hgreatest⟩

end Size

/-! ## The other functions -/

section Fallback

variable {e801 e88 : Int15} {s : RealMode} {r x : UInt32}

/-- KB above 1 MB, as function 0x88 returns them, and up to 16 MB with function 0xe801 -/
def Int15.ax (r : Int15) : UInt16 := r.eax.toUInt16

/-- Blocks of 64 KB above 16 MB -/
def Int15.bx (r : Int15) : UInt16 := r.ebx.toUInt16

def Int15.dx (r : Int15) : UInt16 := r.edx.toUInt16

/-- The memory of the machine, by the answers of the BIOS. -/
def fallbackSize (e801 e88 : Int15) : Nat :=
  0x100000 + if e801.cf then e88.ax.toNat * 1024 else e801.ax.toNat * 1024 + e801.bx.toNat * 65536

/-- One of the functions answers, 0xe801 within its range. -/
structure Answered (e801 e88 : Int15) : Prop where
  some : e801.cf = true → e88.cf = false
  low : e801.cf = false → e801.ax ≤ 0x3c00
  fits : e801.cf = false → fallbackSize e801 e88 < 2 ^ 32

/-- The upper half of a register is shifted out. -/
theorem toNat_shl16 (r : UInt32) : (r <<< 16).toNat = r.toNat % 0x10000 * 0x10000 := by
  rw [UInt32.toNat_shiftLeft, show (16 : UInt32).toNat % 32 = 16 from rfl, Nat.shiftLeft_eq]
  omega

theorem toNat_and_ffff (r : UInt32) : (r &&& 0x0000FFFF).toNat = r.toNat % 0x10000 :=
  (UInt32.toNat_and ..).trans (Nat.and_two_pow_sub_one_eq_mod r.toNat 16)

/-- The low half of the product is cut off and not added again. -/
theorem e801Low_esi (s : RealMode) : (e801Low s).esi =
    setLow s.edx (UInt16.ofNat (s.ax.toNat * 0x400 / 0x10000)) <<< 16 + 0x100000 := by
  have hkb : (0x400 : UInt16).toNat = 0x400 := rfl
  have hesi : (e801Low s).esi = (s.setCx 0x400).mulCx.edx <<< 16 + 0x100000 := rfl
  rw [hesi, RealMode.edx_mulCx, RealMode.edx_setCx, RealMode.ax_setCx, RealMode.cx_setCx, hkb]

/-- The factors of `mul ecx` in `e801High` -/
def e801Factors (s : RealMode) : RealMode :=
  { ({ s with eax := 0 } : RealMode).setAx s.bx with ecx := 0x10000 }

theorem e801High_edx (s : RealMode) : (e801High s).edx =
    s.esi + UInt32.ofNat ((setLow 0 s.bx).toNat * 0x10000) := by
  have hedx : (e801High s).edx =
    (e801Factors s).mulEcx.esi + (e801Factors s).mulEcx.eax := rfl
  have heax : (e801Factors s).eax = setLow 0 s.bx := rfl
  have hecx : (e801Factors s).ecx.toNat = 0x10000 := rfl
  rw [hedx, RealMode.esi_mulEcx, RealMode.eax_mulEcx, heax, hecx]
  rfl

/-- The size is what `edx` holds. -/
theorem memGetOk_stored (s : RealMode) : ∃ s', memGetOk s = .stored s' ∧ s'.total = s.edx :=
  ⟨_, rfl, read32_write32 ..⟩

/-- Function 0xe801 -/
theorem tryE801_stored (hcf : e801.cf = false) :
    ∃ s', tryE801 e801 e88 s = .stored s' ∧
      s'.total = (setLow e801.edx (UInt16.ofNat (e801.ax.toNat * 0x400 / 0x10000)) <<< 16 + 0x100000) +
        UInt32.ofNat ((setLow 0 e801.bx).toNat * 0x10000) := by
  have htry : tryE801 e801 e88 s =
      memGetOk (e801High (e801Low ((s.setAx 0xe801).int15 e801))) :=
    if_neg (Bool.eq_false_iff.mp hcf)
  obtain ⟨s', hs', htotal⟩ :=
    memGetOk_stored (e801High (e801Low ((s.setAx 0xe801).int15 e801)))
  have hbx : (e801Low ((s.setAx 0xe801).int15 e801)).bx = e801.bx := rfl
  have hax : ((s.setAx 0xe801).int15 e801).ax = e801.ax := rfl
  have hedx : ((s.setAx 0xe801).int15 e801).edx = e801.edx := rfl
  refine ⟨s', htry.trans hs', ?_⟩
  rw [htotal, e801High_edx, e801Low_esi, hbx, hax, hedx]

/-- The registers of function 0x88 when its size is stored -/
def e88Size (s : RealMode) : RealMode :=
  let s := { s with eax := s.eax &&& 0x0000FFFF }
  let s := s.setCx 0x400
  let s := { s with edx := s.edx <<< 16 }
  let s := { s with edx := s.edx ||| s.eax }
  { s with edx := s.edx + 0x100000 }

theorem e88Size_edx (s : RealMode) :
    (e88Size s).edx = (s.edx <<< 16 ||| s.eax &&& 0x0000FFFF) + 0x100000 := rfl

/-- Function 0x88: there is no multiplication, and `dx` is what the BIOS has left there. -/
theorem try88_stored (hcf : e88.cf = false) :
    ∃ s', try88 e88 s = .stored s' ∧
      s'.total = (e88.edx <<< 16 ||| e88.eax &&& 0x0000FFFF) + 0x100000 := by
  have htry : try88 e88 s = memGetOk (e88Size ((s.setAx (0x8800 + s.ax % 0x100)).int15 e88)) :=
    if_neg (Bool.eq_false_iff.mp hcf)
  obtain ⟨s', hs', htotal⟩ :=
    memGetOk_stored (e88Size ((s.setAx (0x8800 + s.ax % 0x100)).int15 e88))
  exact ⟨s', htry.trans hs', htotal.trans (e88Size_edx _)⟩

theorem toNat_e801 (hlow : e801.ax ≤ 0x3c00)
    (hfits : 0x100000 + (e801.ax.toNat * 1024 + e801.bx.toNat * 65536) < 2 ^ 32) :
    ((setLow e801.edx (UInt16.ofNat (e801.ax.toNat * 0x400 / 0x10000)) <<< 16 + 0x100000) +
      UInt32.ofNat ((setLow 0 e801.bx).toNat * 0x10000)).toNat =
    0x100000 + e801.ax.toNat / 64 * 65536 + e801.bx.toNat * 65536 := by
  have hax : e801.ax.toNat ≤ 0x3c00 := UInt16.le_iff_toNat_le.mp hlow
  have hhigh : (UInt16.ofNat (e801.ax.toNat * 0x400 / 0x10000)).toNat = e801.ax.toNat / 64 := by
    rw [UInt16.toNat_ofNat']
    omega
  have hbx : (setLow 0 e801.bx).toNat = e801.bx.toNat := by
    rw [toNat_setLow, UInt32.toNat_zero]
    omega
  rw [UInt32.toNat_add, UInt32.toNat_add, toNat_shl16, toNat_setLow, hhigh, hbx, UInt32.toNat_ofNat']
  rw [show (0x100000 : UInt32).toNat = 0x100000 from rfl]
  omega

theorem toNat_e88 : ((e88.edx <<< 16 ||| e88.eax &&& 0x0000FFFF) + 0x100000).toNat =
    (e88.dx.toNat * 0x10000 + e88.ax.toNat + 0x100000) % 2 ^ 32 := by
  have hdx : e88.edx.toNat % 0x10000 = e88.dx.toNat := (UInt32.toNat_toUInt16 _).symm
  have hax : e88.eax.toNat % 0x10000 = e88.ax.toNat := (UInt32.toNat_toUInt16 _).symm
  have hlt : e88.ax.toNat < 2 ^ 16 := e88.ax.toNat_lt
  have hbase : (0x100000 : UInt32).toNat = 0x100000 := rfl
  have hor : e88.dx.toNat * 0x10000 ||| e88.ax.toNat = e88.dx.toNat * 0x10000 + e88.ax.toNat := by
    rw [Nat.mul_comm]
    exact (Nat.two_pow_add_eq_or_of_lt hlt e88.dx.toNat).symm
  rw [UInt32.toNat_add, UInt32.toNat_or, toNat_shl16, toNat_and_ffff, hdx, hax, hor, hbase]

/-- The size that the fallback stores is right. -/
def FallbackRight (e801 e88 : Int15) (s : RealMode) : Prop :=
  ∃ s', tryE801 e801 e88 s = .stored s' ∧ s'.total.toNat = fallbackSize e801 e88

theorem fallbackRight_of_stored {s' : RealMode} (h : tryE801 e801 e88 s = .stored s') :
    FallbackRight e801 e88 s ↔ s'.total.toNat = fallbackSize e801 e88 := by
  constructor
  · rintro ⟨s'', hs'', hsize⟩
    obtain rfl : s'' = s' := Detected.stored.inj (hs''.symm.trans h)
    exact hsize
  · intro hsize
    exact ⟨s', h, hsize⟩

/-- Function 0xe801 is right about whole blocks of 64 KB. -/
theorem e801_right_iff (h : Answered e801 e88) (hcf : e801.cf = false) :
    FallbackRight e801 e88 s ↔ 64 ∣ e801.ax.toNat := by
  have hfits := h.fits hcf
  rw [fallbackSize, hcf] at hfits
  obtain ⟨s', hs', htotal⟩ := @tryE801_stored e801 e88 s hcf
  rw [fallbackRight_of_stored hs', htotal, toNat_e801 (h.low hcf) hfits, fallbackSize, hcf]
  simp only [Bool.false_eq_true, if_false]
  omega

/-- Kilobytes in `ax`, read as bytes with `dx` above them, are the right number only if both are 0. The
base is a variable: as a literal it would be unfolded when the proof is checked. -/
theorem dxAx_eq_iff {ax dx base : Nat} (hax : ax < 2 ^ 16) (hdx : dx < 2 ^ 16)
    (hbase : base = 0x100000) :
    (dx * 0x10000 + ax + base) % 2 ^ 32 = base + ax * 1024 ↔ ax = 0 ∧ dx = 0 := by
  omega

/-- Function 0x88 is right about no memory only. -/
theorem e88_right_iff (h : Answered e801 e88) (hcf : e801.cf = true) :
    FallbackRight e801 e88 s ↔ e88.ax = 0 ∧ e88.dx = 0 := by
  have htry : tryE801 e801 e88 s = try88 e88 ((s.setAx 0xe801).int15 e801) := if_pos hcf
  obtain ⟨s', hs', htotal⟩ := @try88_stored e88 ((s.setAx 0xe801).int15 e801) (h.some hcf)
  have hax := e88.ax.toNat_lt
  have hdx := e88.dx.toNat_lt
  rw [fallbackRight_of_stored (htry.trans hs'), htotal, toNat_e88, fallbackSize, hcf,
    ← UInt16.toNat_inj, ← UInt16.toNat_inj]
  simp only [if_true, UInt16.toNat_zero]
  exact dxAx_eq_iff hax hdx rfl

/-- The size is right exactly if function 0xe801 answers with whole blocks of 64 KB, or function 0x88
with no memory and a `dx` of 0. -/
theorem fallback_right_iff (e801 e88 : Int15) (s : RealMode) (h : Answered e801 e88) :
    FallbackRight e801 e88 s ↔
      (e801.cf = false → 64 ∣ e801.ax.toNat) ∧ (e801.cf = true → e88.ax = 0 ∧ e88.dx = 0) := by
  cases hcf : e801.cf with
  | false => simpa using e801_right_iff h hcf
  | true => simpa using e88_right_iff h hcf

/-- 128 MB -/
def e801With128MB : Int15 := ⟨false, 0x3c00, 0x700, 0, 0⟩

/-- Function 0xe801 with 15 MB less 1 KB -/
def e801OddKB : Int15 := ⟨false, 0x3bff, 0, 0, 0⟩

/-- Function 0x88 with 15 MB; `dx` is 0 -/
def e88With16MB : Int15 := ⟨false, 0x3c00, 0, 0, 0⟩

/-- A function that the BIOS does not have. -/
def notSupported : Int15 := ⟨true, 0x8600, 0, 0, 0⟩

theorem fallback_right_128MB : Answered e801With128MB notSupported ∧
    (FallbackRight e801With128MB notSupported realMode ↔
      (e801With128MB.cf = false → 64 ∣ e801With128MB.ax.toNat) ∧
        (e801With128MB.cf = true → notSupported.ax = 0 ∧ notSupported.dx = 0)) :=
  ⟨⟨by decide, by decide, by decide⟩,
    fallback_right_iff e801With128MB notSupported realMode ⟨by decide, by decide, by decide⟩⟩

/-- Both functions are wrong about usual amounts of memory. -/
theorem fallback_wrong :
    (Answered e801OddKB notSupported ∧ e801OddKB.cf = false ∧
      ¬ FallbackRight e801OddKB notSupported realMode) ∧
    Answered notSupported e88With16MB ∧ notSupported.cf = true ∧
      ¬ FallbackRight notSupported e88With16MB realMode := by
  have hodd : Answered e801OddKB notSupported := ⟨by decide, by decide, by decide⟩
  have hsixteen : Answered notSupported e88With16MB := ⟨by decide, by decide, by decide⟩
  refine ⟨⟨hodd, rfl, fun hright => ?_⟩, hsixteen, rfl, fun hright => ?_⟩
  · exact absurd ((e801_right_iff hodd rfl).mp hright) (by decide)
  · exact absurd ((e88_right_iff hsixteen rfl).mp hright) (by decide)

end Fallback

end OsKernel
