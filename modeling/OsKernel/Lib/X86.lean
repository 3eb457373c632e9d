import OsKernel.Lib.ByteMemory

/-!
# A 32-bit x86 processor and its stack

The registers, a memory whose addresses wrap around at 4 GB, and the instructions that system code
saves and restores contexts with. Paging and segment bases are not part of it: addresses are linear
ones, and every segment starts at 0.

- `Memory32.read32`, `Memory32.write32`: a word anywhere in the address space.
- `Instr`, `exec`: straight-line code; `call`, `ret`, `interrupt` and `iretd` move `eip`.
- `Stacked`: the words that lie from an address upwards. `Stacked.push` and `Stacked.pop` are the
  rules of the stack, `Stacked.congr` is its frame rule.
- `Cdecl`: what the caller of a function can rely on when it has returned.
-/

namespace OsKernel.Lib

/-! ## Memory -/

/-- What every address of the linear address space holds. -/
abbrev Memory32 := UInt32 → UInt8

namespace Memory32

/-- The memory as it is seen from an address on. -/
def window (m : Memory32) (a : UInt32) : ByteMemory := fun k => m (a + UInt32.ofNat k)

def read32 (m : Memory32) (a : UInt32) : UInt32 := (m.window a).read32 0

def write8 (m : Memory32) (a : UInt32) (x : UInt8) : Memory32 := Function.update m a x

def write32 (m : Memory32) (a : UInt32) (x : UInt32) : Memory32 :=
  fun b => if b - a < 4 then (m.window a).write32 0 x (b - a).toNat else m b

def write16 (m : Memory32) (a : UInt32) (x : UInt16) : Memory32 :=
  fun b => if b - a < 2 then (m.window a).write16 0 x (b - a).toNat else m b

/-- `memset` with 0 -/
def clear (m : Memory32) (a : UInt32) (len : Nat) : Memory32 :=
  fun b => if (b - a).toNat < len then 0 else m b

/-- Store bytes one after the other. -/
def storeBytes (m : Memory32) (a : UInt32) : List UInt8 → Memory32
  | [] => m
  | x :: xs => storeBytes (m.write8 a x) (a + 1) xs

variable {m m' : Memory32} {a b x : UInt32}

theorem write8_outside {x : UInt8} (h : b ≠ a) : m.write8 a x b = m b := Function.update_of_ne h ..

theorem write32_outside (h : 4 ≤ (b - a).toNat) : m.write32 a x b = m b := by
  have hnot : ¬ (b - a < 4) := fun hlt => by
    have hlt' : (b - a).toNat < 4 := UInt32.lt_iff_toNat_lt.mp hlt
    omega
  rw [write32, if_neg hnot]

/-- The same four bytes are the same word. -/
theorem read32_congr (h : ∀ k, k < 4 → m' (a + UInt32.ofNat k) = m (a + UInt32.ofNat k)) :
    m'.read32 a = m.read32 a :=
  ByteMemory.read32_congr fun k hk => by
    simpa only [window, Nat.zero_add] using h k hk

theorem toNat_ofNat_lt {n : Nat} (h : n < 2 ^ 32) : (UInt32.ofNat n).toNat = n :=
  UInt32.toNat_ofNat_of_lt' h

theorem toNat_offset {k : Nat} (hk : k < 2 ^ 32) : (a + UInt32.ofNat k - a).toNat = k := by
  have hcancel : a + UInt32.ofNat k - a = UInt32.ofNat k := by
    rw [UInt32.add_comm, UInt32.add_sub_cancel]
  rw [hcancel, toNat_ofNat_lt hk]

@[simp] theorem read32_write32 (m : Memory32) (a x : UInt32) : (m.write32 a x).read32 a = x := by
  have hsame : ((m.write32 a x).window a).read32 0 = ((m.window a).write32 0 x).read32 0 := by
    refine ByteMemory.read32_congr fun k hk => ?_
    have hoff : (a + UInt32.ofNat (0 + k) - a).toNat = 0 + k := toNat_offset (by omega)
    have hlt : a + UInt32.ofNat (0 + k) - a < 4 := by
      rw [UInt32.lt_iff_toNat_lt, hoff]
      simpa using hk
    rw [window, write32, if_pos hlt, hoff]
  rw [read32, hsame, ByteMemory.read32_write32]

/-- The word that holds a half word just stored, with the old upper half. -/
theorem write16_eq (m : Memory32) (a : UInt32) (x : UInt16) :
    ∃ w : UInt32, w.toUInt16 = x ∧ m.write16 a x = m.write32 a w := by
  have hbytes : ∀ k, k < 4 → ((m.window a).write16 0 x) k = (m.write16 a x) (a + UInt32.ofNat k) := by
    intro k hk
    have hoff : (a + UInt32.ofNat k - a).toNat = k := toNat_offset (by omega)
    have hlow : a + UInt32.ofNat k - a < 2 ↔ k < 2 := by
      rw [UInt32.lt_iff_toNat_lt, hoff]
      rfl
    by_cases hk2 : k < 2
    · rw [write16, if_pos (hlow.mpr hk2), hoff]
    · rw [write16, if_neg (fun h => hk2 (hlow.mp h)), ByteMemory.write16_outside (by omega)]
      rfl
  refine ⟨((m.window a).write16 0 x).read32 0, ?_, ?_⟩
  · rw [ByteMemory.read32_toUInt16, ByteMemory.read16_write16]
  · funext b
    have hback : a + UInt32.ofNat (b - a).toNat = b := by
      rw [UInt32.ofNat_toNat, UInt32.add_comm, UInt32.sub_add_cancel]
    by_cases hin : b - a < 4
    · have hk : (b - a).toNat < 4 := UInt32.lt_iff_toNat_lt.mp hin
      have hword : (m.window a).write32 0 (((m.window a).write16 0 x).read32 0) (b - a).toNat =
          ((m.window a).write16 0 x).write32 0 (((m.window a).write16 0 x).read32 0) (b - a).toNat := by
        rw [ByteMemory.write32, ByteMemory.write32, if_pos (by omega), if_pos (by omega)]
      rw [write32, if_pos hin, hword, ByteMemory.write32_read32, hbytes _ hk, hback]
    · have hout : ¬ (b - a < 2) := by
        rw [UInt32.lt_iff_toNat_lt] at hin ⊢
        have hfour : (4 : UInt32).toNat = 4 := rfl
        have htwo : (2 : UInt32).toNat = 2 := rfl
        omega
      rw [write32, if_neg hin, write16, if_neg hout]

/-- Another word is not touched. -/
theorem read32_write32_of_disjoint (hab : 4 ≤ (b - a).toNat) (hba : 4 ≤ (a - b).toNat) :
    (m.write32 a x).read32 b = m.read32 b := by
  refine read32_congr fun k hk => write32_outside ?_
  have hk' : (UInt32.ofNat k).toNat = k := toNat_ofNat_lt (by omega)
  have ha := a.toNat_lt
  have hb := b.toNat_lt
  rw [UInt32.toNat_sub] at hab hba ⊢
  rw [UInt32.toNat_add, hk']
  omega

/-- Two words at offsets from one address. -/
theorem read32_write32_offset {i j : Nat} (hi : i < 2 ^ 31) (hj : j < 2 ^ 31)
    (h : i + 4 ≤ j ∨ j + 4 ≤ i) :
    (m.write32 (a + UInt32.ofNat i) x).read32 (a + UInt32.ofNat j) =
      m.read32 (a + UInt32.ofNat j) := by
  have hi' : (UInt32.ofNat i).toNat = i := toNat_ofNat_lt (by omega)
  have hj' : (UInt32.ofNat j).toNat = j := toNat_ofNat_lt (by omega)
  have ha := a.toNat_lt
  apply read32_write32_of_disjoint
  · rw [UInt32.toNat_sub, UInt32.toNat_add, UInt32.toNat_add, hi', hj']
    omega
  · rw [UInt32.toNat_sub, UInt32.toNat_add, UInt32.toNat_add, hi', hj']
    omega

/-- Bytes that are not among those stored. -/
theorem storeBytes_outside {xs : List UInt8} (hlen : xs.length < 2 ^ 32)
    (h : xs.length ≤ (b - a).toNat) : m.storeBytes a xs b = m b := by
  induction xs generalizing m a with
  | nil => rfl
  | cons x xs ih =>
    rw [List.length_cons] at hlen h
    have ha := a.toNat_lt
    have hb := b.toNat_lt
    have hne : b ≠ a := by
      rintro rfl
      rw [UInt32.toNat_sub] at h
      omega
    have hnext : xs.length ≤ (b - (a + 1)).toNat := by
      rw [UInt32.toNat_sub] at h ⊢
      rw [UInt32.toNat_add, UInt32.toNat_one]
      omega
    rw [storeBytes, ih (by omega) hnext, write8_outside hne]

/-! ### The memory from one address on -/

theorem toNat_sub_offset {i k : Nat} (hi : i < 2 ^ 32) (hk : k < 2 ^ 32) :
    (a + UInt32.ofNat k - (a + UInt32.ofNat i)).toNat = if i ≤ k then k - i else 2 ^ 32 + k - i := by
  have ha := a.toNat_lt
  rw [UInt32.toNat_sub, UInt32.toNat_add, UInt32.toNat_add, toNat_ofNat_lt hi, toNat_ofNat_lt hk]
  split
  · omega
  · omega

theorem window_clear {len k : Nat} (hk : k < 2 ^ 32) :
    (m.clear a len).window a k = if k < len then 0 else m.window a k := by
  rw [window, clear, toNat_offset hk]
  rfl

theorem window_write8 {i k : Nat} {x : UInt8} (hi : i < 2 ^ 32) (hk : k < 2 ^ 32) :
    (m.write8 (a + UInt32.ofNat i) x).window a k = Function.update (m.window a) i x k := by
  by_cases heq : k = i
  · subst heq
    rw [Function.update_self]
    exact Function.update_self ..
  · rw [Function.update_of_ne heq]
    apply write8_outside
    intro hsame
    have hoff := toNat_sub_offset (a := a) hi hk
    rw [hsame, UInt32.sub_self, UInt32.toNat_zero] at hoff
    split at hoff
    · omega
    · omega

theorem window_write32 {i k : Nat} (hi : i < 2 ^ 31) (hk : k < 2 ^ 31) :
    (m.write32 (a + UInt32.ofNat i) x).window a k = (m.window a).write32 i x k := by
  have hoff := toNat_sub_offset (a := a) (show i < 2 ^ 32 by omega) (show k < 2 ^ 32 by omega)
  by_cases hin : i ≤ k ∧ k < i + 4
  · rw [if_pos hin.1] at hoff
    have hlt : a + UInt32.ofNat k - (a + UInt32.ofNat i) < 4 := by
      rw [UInt32.lt_iff_toNat_lt, hoff]
      show k - i < 4
      omega
    rw [window, write32, if_pos hlt, hoff, ByteMemory.write32, ByteMemory.write32, if_pos hin,
      if_pos (by omega), Nat.sub_zero]
  · rw [ByteMemory.write32_outside (by omega)]
    apply write32_outside
    rw [hoff]
    split
    · omega
    · omega

end Memory32

/-! ## The processor -/

/-- The general registers in the order in which `pushad` stores them. -/
inductive Reg where
  | eax | ecx | edx | ebx | esp | ebp | esi | edi
  deriving DecidableEq, Repr

/-- The data segment registers. -/
inductive SegReg where
  | ds | es | fs | gs
  deriving DecidableEq, Repr

structure Cpu where
  reg : Reg → UInt32
  seg : SegReg → UInt16
  cs : UInt16
  ss : UInt16
  eip : UInt32
  eflags : UInt32
  mem : Memory32
  /-- The bytes written to I/O ports, the latest one first. -/
  ports : List (UInt8 × UInt8)

namespace Cpu

def set (c : Cpu) (r : Reg) (x : UInt32) : Cpu := { c with reg := Function.update c.reg r x }

/-- The current privilege level. -/
def cpl (c : Cpu) : UInt16 := c.cs &&& 3

def push (c : Cpu) (x : UInt32) : Cpu :=
  { c.set .esp (c.reg .esp - 4) with mem := c.mem.write32 (c.reg .esp - 4) x }

/-- Take a word of the stack, but store the lower half only. -/
def push16 (c : Cpu) (x : UInt16) : Cpu :=
  { c.set .esp (c.reg .esp - 4) with mem := c.mem.write16 (c.reg .esp - 4) x }

def pushAll (c : Cpu) (xs : List UInt32) : Cpu := xs.foldl push c

/-- The word on top of the stack. -/
def top (c : Cpu) : UInt32 := c.mem.read32 (c.reg .esp)

/-- Discard `n` bytes of the stack. -/
def drop (c : Cpu) (n : UInt32) : Cpu := c.set .esp (c.reg .esp + n)

/-- Pop a register as `popad` does: the stored stack pointer is discarded. -/
def popReg (c : Cpu) (r : Reg) : Cpu := if r = .esp then c.drop 4 else (c.drop 4).set r c.top

def popAll (c : Cpu) (rs : List Reg) : Cpu := rs.foldl popReg c

end Cpu

/-- Instructions that go on to the next one. -/
inductive Instr where
  | pushImm (x : UInt32)
  | push (r : Reg)
  | pushSeg (s : SegReg)
  | pushad
  | pop (r : Reg)
  | popSeg (s : SegReg)
  | popad
  /-- `add esp, n` without the arithmetic flags -/
  | addEsp (n : UInt32)
  /-- `mov dst, [src + off]` -/
  | load (dst src : Reg) (off : UInt32)
  /-- `mov [dst], src` -/
  | store (dst src : Reg)
  /-- `mov al, x` -/
  | movAl (x : UInt8)
  /-- `out port, al` -/
  | outAl (port : UInt8)
  deriving DecidableEq, Repr

/-- What an instruction does. A segment register takes a word on the stack, but only its lower half
is written: the upper half keeps what was there. -/
def exec (c : Cpu) : Instr → Cpu
  | .pushImm x => c.push x
  | .push r => c.push (c.reg r)
  | .pushSeg s => c.push16 (c.seg s)
  | .pushad => c.pushAll ([.eax, .ecx, .edx, .ebx, .esp, .ebp, .esi, .edi].map c.reg)
  | .pop r => (c.drop 4).set r c.top
  | .popSeg s => { c.drop 4 with seg := Function.update c.seg s c.top.toUInt16 }
  | .popad => c.popAll [.edi, .esi, .ebp, .esp, .ebx, .edx, .ecx, .eax]
  | .addEsp n => c.drop n
  | .load dst src off => c.set dst (c.mem.read32 (c.reg src + off))
  | .store dst src => { c with mem := c.mem.write32 (c.reg dst) (c.reg src) }
  | .movAl x => c.set .eax ((c.reg .eax &&& 0xffffff00) ||| x.toUInt32)
  | .outAl port => { c with ports := (port, (c.reg .eax).toUInt8) :: c.ports }

def execAll (code : List Instr) (c : Cpu) : Cpu := code.foldl exec c

theorem execAll_append (code code' : List Instr) (c : Cpu) :
    execAll (code ++ code') c = execAll code' (execAll code c) := List.foldl_append

theorem execAll_singleton (i : Instr) (c : Cpu) : execAll [i] c = exec c i := rfl

/-- `call`, with `eip` at the instruction after it. -/
def call (target : UInt32) (c : Cpu) : Cpu := { c.push c.eip with eip := target }

def ret (c : Cpu) : Cpu := { c.drop 4 with eip := c.top }

/-- The stack of privilege level 0, as the task state segment names it. -/
structure Tss where
  esp0 : UInt32
  ss0 : UInt16

/-- An interrupt gate. -/
structure Gate where
  selector : UInt16
  offset : UInt32

/-- The flags that go through an interrupt gate: TF, IF, NT, RF and VM are cleared. -/
def gateFlags (eflags : UInt32) : UInt32 := eflags &&& ~~~0x00034300

/-- Below privilege level 0 the processor changes to the stack of the task state segment first and
saves the old one there. -/
def innerStack (tss : Tss) (c : Cpu) : Cpu :=
  if c.cpl = 0 then c
  else
    (({ c with ss := tss.ss0 } : Cpu).set .esp tss.esp0).pushAll [c.ss.toUInt32, c.reg .esp]

/-- The processor enters an interrupt gate of privilege level 0. An exception that has an error code
leaves it on top. -/
def interrupt (tss : Tss) (gate : Gate) (code : Option UInt32) (c : Cpu) : Cpu :=
  { (innerStack tss c).pushAll ([c.eflags, c.cs.toUInt32, c.eip] ++ code.toList) with
    cs := gate.selector, eip := gate.offset, eflags := gateFlags c.eflags }

/-- `iretd`: the stack pointer is loaded too when the privilege level gets lower. -/
def iretd (c : Cpu) : Cpu :=
  let eip := c.mem.read32 (c.reg .esp)
  let cs := (c.mem.read32 (c.reg .esp + 4)).toUInt16
  let eflags := c.mem.read32 (c.reg .esp + 8)
  let d := { c.drop 12 with eip, cs, eflags }
  if c.cpl < cs &&& 3 then
    { d.set .esp (c.mem.read32 (c.reg .esp + 12)) with
      ss := (c.mem.read32 (c.reg .esp + 16)).toUInt16 }
  else d

/-! ## The stack as a list of words -/

/-- The words that lie at an address and above it. -/
def Stacked (m : Memory32) : UInt32 → List UInt32 → Prop
  | _, [] => True
  | a, w :: ws => m.read32 a = w ∧ Stacked m (a + 4) ws

section Stacked

variable {m m' : Memory32} {a : UInt32} {us ws : List UInt32}

theorem add_ofNat_add (a : UInt32) (j k : Nat) :
    a + UInt32.ofNat j + UInt32.ofNat k = a + UInt32.ofNat (j + k) := by
  rw [UInt32.ofNat_add, UInt32.add_assoc]

/-- **Frame rule**: a memory that agrees on these words holds them as well. -/
theorem Stacked.congr (h : Stacked m a ws)
    (heq : ∀ k, k < 4 * ws.length → m' (a + UInt32.ofNat k) = m (a + UInt32.ofNat k)) :
    Stacked m' a ws := by
  induction ws generalizing a with
  | nil => trivial
  | cons w ws ih =>
    rw [List.length_cons] at heq
    refine ⟨?_, ih h.2 fun k hk => ?_⟩
    · rw [Memory32.read32_congr fun k hk => heq k (by omega)]
      exact h.1
    · have hplace : a + 4 + UInt32.ofNat k = a + UInt32.ofNat (4 + k) := add_ofNat_add a 4 k
      rw [hplace]
      exact heq _ (by omega)

/-- One more word, as long as the stack does not run around the address space. -/
theorem Stacked.push (h : Stacked m a ws) (x : UInt32) (hlen : 4 * (ws.length + 1) ≤ 2 ^ 32) :
    Stacked (m.write32 (a - 4) x) (a - 4) (x :: ws) := by
  refine ⟨Memory32.read32_write32 m (a - 4) x, ?_⟩
  rw [UInt32.sub_add_cancel]
  refine h.congr fun k hk => Memory32.write32_outside ?_
  have hplace : a + UInt32.ofNat k = a - 4 + UInt32.ofNat (4 + k) := by
    have hcancel : a - 4 + UInt32.ofNat 4 = a := UInt32.sub_add_cancel a 4
    rw [← add_ofNat_add, hcancel]
  rw [hplace, Memory32.toNat_offset (by omega)]
  omega

theorem stacked_append :
    Stacked m a (us ++ ws) ↔ Stacked m a us ∧ Stacked m (a + UInt32.ofNat (4 * us.length)) ws := by
  induction us generalizing a with
  | nil =>
    have hzero : a + UInt32.ofNat (4 * 0) = a := UInt32.add_zero a
    rw [List.nil_append, List.length_nil, hzero]
    exact ⟨fun h => ⟨trivial, h⟩, fun h => h.2⟩
  | cons u us ih =>
    have hplace : a + 4 + UInt32.ofNat (4 * us.length) = a + UInt32.ofNat (4 * (u :: us).length) := by
      rw [List.length_cons, Nat.mul_succ, Nat.add_comm]
      exact add_ofNat_add a 4 _
    rw [List.cons_append, Stacked, Stacked, ih, hplace, and_assoc]

/-- What is stacked is determined by the memory. -/
theorem Stacked.unique (h : Stacked m a us) (h' : Stacked m a ws) (hlen : us.length = ws.length) :
    us = ws := by
  induction us generalizing a ws with
  | nil => exact (List.length_eq_zero_iff.mp hlen.symm).symm
  | cons u us ih =>
    cases ws with
    | nil => cases hlen
    | cons w ws => rw [← h.1, ← h'.1, ih h.2 h'.2 (Nat.succ_inj.mp hlen)]

/-- One of the words. -/
theorem Stacked.read (h : Stacked m a ws) {i : Nat} {w : UInt32} (hi : ws[i]? = some w) :
    m.read32 (a + UInt32.ofNat (4 * i)) = w := by
  induction ws generalizing a i with
  | nil => cases hi
  | cons v ws ih =>
    cases i with
    | zero =>
      have hv : v = w := Option.some.inj hi
      have hzero : a + UInt32.ofNat (4 * 0) = a := UInt32.add_zero a
      rw [hzero, h.1, hv]
    | succ i =>
      have hplace : a + 4 + UInt32.ofNat (4 * i) = a + UInt32.ofNat (4 * (i + 1)) := by
        rw [Nat.mul_succ, Nat.add_comm]
        exact add_ofNat_add a 4 _
      rw [← hplace]
      exact ih h.2 hi

theorem Stacked.of_read (h : ∀ i w, ws[i]? = some w → m.read32 (a + UInt32.ofNat (4 * i)) = w) :
    Stacked m a ws := by
  induction ws generalizing a with
  | nil => trivial
  | cons v ws ih =>
    refine ⟨?_, ih fun i w hi => ?_⟩
    · have hzero : a + UInt32.ofNat (4 * 0) = a := UInt32.add_zero a
      rw [← hzero]
      exact h 0 v rfl
    · have hplace : a + 4 + UInt32.ofNat (4 * i) = a + UInt32.ofNat (4 * (i + 1)) := by
        rw [Nat.mul_succ, Nat.add_comm]
        exact add_ofNat_add a 4 _
      rw [hplace]
      exact h (i + 1) w hi

end Stacked

namespace Cpu

/-- The words between the stack pointer and `base`. -/
structure Stack (c : Cpu) (base : UInt32) (ws : List UInt32) : Prop where
  reaches : c.reg .esp + UInt32.ofNat (4 * ws.length) = base
  words : Stacked c.mem (c.reg .esp) ws

variable {c : Cpu} {base x w : UInt32} {us ws : List UInt32} {r : Reg}

@[simp] theorem set_self (c : Cpu) (r : Reg) (x : UInt32) : (c.set r x).reg r = x :=
  Function.update_self ..

theorem set_of_ne {r' : Reg} (h : r' ≠ r) : (c.set r x).reg r' = c.reg r' :=
  Function.update_of_ne h ..

theorem push_esp (c : Cpu) (x : UInt32) : (c.push x).reg .esp = c.reg .esp - 4 := set_self c .esp _

theorem drop_esp (c : Cpu) (n : UInt32) : (c.drop n).reg .esp = c.reg .esp + n := set_self c .esp _

/-- An empty stack. -/
theorem Stack.nil (c : Cpu) : c.Stack (c.reg .esp) [] where
  reaches := UInt32.add_zero _
  words := trivial

theorem Stack.esp_eq (h : c.Stack base []) : c.reg .esp = base := by
  rw [← h.reaches]
  exact (UInt32.add_zero _).symm

/-- Only the stack pointer and the memory matter. -/
theorem Stack.of_eq {d : Cpu} (h : c.Stack base ws) (hesp : d.reg .esp = c.reg .esp)
    (hmem : d.mem = c.mem) : d.Stack base ws where
  reaches := hesp ▸ h.reaches
  words := by
    rw [hesp, hmem]
    exact h.words

theorem Stack.push (h : c.Stack base ws) (x : UInt32) (hlen : 4 * (ws.length + 1) ≤ 2 ^ 32) :
    (c.push x).Stack base (x :: ws) where
  reaches := by
    have hsum : UInt32.ofNat (4 * (x :: ws).length) = 4 + UInt32.ofNat (4 * ws.length) := by
      rw [List.length_cons, Nat.mul_succ, UInt32.ofNat_add, UInt32.add_comm]
      rfl
    rw [push_esp, hsum, ← UInt32.add_assoc, UInt32.sub_add_cancel]
    exact h.reaches
  words := by
    rw [push_esp]
    exact h.words.push x hlen

theorem Stack.top (h : c.Stack base (w :: ws)) : c.top = w := h.words.1

theorem Stack.drop (h : c.Stack base (us ++ ws)) :
    (c.drop (UInt32.ofNat (4 * us.length))).Stack base ws where
  reaches := by
    rw [drop_esp, add_ofNat_add, ← Nat.mul_add, ← List.length_append]
    exact h.reaches
  words := by
    rw [drop_esp]
    exact (stacked_append.mp h.words).2

/-- Two stacks that end at the same place and differ by `us`. -/
theorem Stack.esp_append {d : Cpu} (h : c.Stack base ws) (h' : d.Stack base (us ++ ws)) :
    c.reg .esp = d.reg .esp + UInt32.ofNat (4 * us.length) := by
  have hd := h'.drop.reaches
  rw [drop_esp, ← h.reaches] at hd
  exact ((UInt32.add_left_inj _).mp hd).symm

theorem Stack.tail (h : c.Stack base (w :: ws)) : (c.drop 4).Stack base ws :=
  @Stack.drop c base [w] ws h

/-! ### Runs of pushes and pops -/

theorem Stack.pushAll (h : c.Stack base ws) (xs : List UInt32)
    (hlen : 4 * (xs.length + ws.length) ≤ 2 ^ 32) :
    (c.pushAll xs).Stack base (xs.reverse ++ ws) := by
  induction xs generalizing c ws with
  | nil => exact h
  | cons x xs ih =>
    rw [List.length_cons] at hlen
    have hnext := ih (h.push x (by omega)) (by rw [List.length_cons]; omega)
    rw [List.reverse_cons, List.append_assoc]
    exact hnext

/-- Pushes change the stack pointer and the memory only. -/
theorem pushAll_reg (xs : List UInt32) (hr : r ≠ .esp) : (c.pushAll xs).reg r = c.reg r := by
  induction xs generalizing c with
  | nil => rfl
  | cons x xs ih =>
    have hpush : (c.push x).reg r = c.reg r := set_of_ne hr
    exact (ih (c := c.push x)).trans hpush

theorem pushAll_seg (xs : List UInt32) : (c.pushAll xs).seg = c.seg := by
  induction xs generalizing c with
  | nil => rfl
  | cons x xs ih => exact ih (c := c.push x)

theorem pushAll_cs (xs : List UInt32) : (c.pushAll xs).cs = c.cs := by
  induction xs generalizing c with
  | nil => rfl
  | cons x xs ih => exact ih (c := c.push x)

theorem pushAll_ss (xs : List UInt32) : (c.pushAll xs).ss = c.ss := by
  induction xs generalizing c with
  | nil => rfl
  | cons x xs ih => exact ih (c := c.push x)

/-- The bytes above the stack pointer stay, and so do those far below it. -/
theorem pushAll_mem {b : UInt32} (xs : List UInt32) (hlen : 4 * xs.length < 2 ^ 32)
    (h : 4 * xs.length ≤ (b - (c.reg .esp - UInt32.ofNat (4 * xs.length))).toNat) :
    (c.pushAll xs).mem b = c.mem b := by
  induction xs generalizing c with
  | nil => rfl
  | cons x xs ih =>
    rw [List.length_cons] at hlen h
    have hn : (UInt32.ofNat (4 * xs.length)).toNat = 4 * xs.length :=
      Memory32.toNat_ofNat_lt (by omega)
    have hn' : (UInt32.ofNat (4 * (xs.length + 1))).toNat = 4 * (xs.length + 1) :=
      Memory32.toNat_ofNat_lt (by omega)
    have hfour : (4 : UInt32).toNat = 4 := rfl
    have hesp := (c.reg .esp).toNat_lt
    have hb := b.toNat_lt
    rw [UInt32.toNat_sub, UInt32.toNat_sub, hn'] at h
    have hnext := ih (c := c.push x) (by omega) (by
      rw [push_esp, UInt32.toNat_sub, UInt32.toNat_sub, UInt32.toNat_sub, hn, hfour]
      omega)
    refine hnext.trans (Memory32.write32_outside ?_)
    rw [UInt32.toNat_sub, UInt32.toNat_sub, hfour]
    omega

/-- From `c` to `d` the stack has grown by `n` words, and nothing else was written. -/
structure Grows (n : Nat) (c d : Cpu) : Prop where
  esp : d.reg .esp = c.reg .esp - UInt32.ofNat (4 * n)
  mem : ∀ b, 4 * n ≤ (b - d.reg .esp).toNat → d.mem b = c.mem b

theorem Grows.of_eq {d : Cpu} (hesp : d.reg .esp = c.reg .esp) (hmem : d.mem = c.mem) :
    Grows 0 c d where
  esp := hesp.trans (UInt32.sub_zero _).symm
  mem _ _ := by rw [hmem]

theorem Grows.trans {d e : Cpu} {k n : Nat} (h : Grows k c d) (h' : Grows n d e)
    (hlen : 4 * (k + n) < 2 ^ 32) : Grows (k + n) c e where
  esp := by
    rw [h'.esp, h.esp, Nat.mul_add, UInt32.ofNat_add]
    grind
  mem b hb := by
    have hn : (UInt32.ofNat (4 * n)).toNat = 4 * n := Memory32.toNat_ofNat_lt (by omega)
    have hesp := h'.esp
    have hd := (d.reg .esp).toNat_lt
    have hblt := b.toNat_lt
    rw [h'.mem b (by omega)]
    refine h.mem b ?_
    rw [hesp, UInt32.toNat_sub, UInt32.toNat_sub, hn] at hb
    rw [UInt32.toNat_sub]
    omega

theorem grows_pushAll (xs : List UInt32) (hlen : 4 * xs.length < 2 ^ 32) :
    Grows xs.length c (c.pushAll xs) := by
  have hstack := (Stack.nil c).pushAll xs (by rw [List.length_nil]; omega)
  have hesp : (c.pushAll xs).reg .esp = c.reg .esp - UInt32.ofNat (4 * xs.length) := by
    have hreach := hstack.reaches
    rw [List.append_nil, List.length_reverse] at hreach
    rw [← hreach, UInt32.add_sub_cancel]
  refine ⟨hesp, fun b hb => pushAll_mem xs hlen ?_⟩
  rw [← hesp]
  exact hb

/-- What pops leave alone. -/
structure SameRest (c d : Cpu) : Prop where
  mem : d.mem = c.mem
  cs : d.cs = c.cs
  ss : d.ss = c.ss

theorem SameRest.trans {d e : Cpu} (h : SameRest c d) (h' : SameRest d e) : SameRest c e where
  mem := h'.mem.trans h.mem
  cs := h'.cs.trans h.cs
  ss := h'.ss.trans h.ss

theorem popReg_sameRest (c : Cpu) (r : Reg) : SameRest c (c.popReg r) := by
  unfold popReg
  split <;> exact ⟨rfl, rfl, rfl⟩

theorem popReg_seg (c : Cpu) (r : Reg) : (c.popReg r).seg = c.seg := by
  unfold popReg
  split <;> rfl

theorem popReg_reg_of_ne {r' : Reg} (hr : r ≠ .esp) (h : r ≠ r') :
    (c.popReg r').reg r = c.reg r := by
  have hdrop : (c.drop 4).reg r = c.reg r := set_of_ne hr
  unfold popReg
  split
  · exact hdrop
  · rw [set_of_ne h, hdrop]

theorem Stack.popReg (h : c.Stack base (w :: ws)) (r : Reg) : (c.popReg r).Stack base ws := by
  unfold Cpu.popReg
  split
  · exact h.tail
  · next hr => exact h.tail.of_eq (set_of_ne (Ne.symm hr)) rfl

/-- Registers that were stored in this order come back. -/
theorem Stack.popAll {rs : List Reg} {f : Reg → UInt32} (h : c.Stack base (rs.map f ++ ws)) :
    (c.popAll rs).Stack base ws ∧ SameRest c (c.popAll rs) ∧ (c.popAll rs).seg = c.seg ∧
      ∀ r, r ≠ .esp → (c.popAll rs).reg r = if r ∈ rs then f r else c.reg r := by
  induction rs generalizing c with
  | nil => exact ⟨h, ⟨rfl, rfl, rfl⟩, rfl, fun _ _ => rfl⟩
  | cons q rs ih =>
    obtain ⟨hstack, hrest, hseg, hreg⟩ := ih (h.popReg q)
    refine ⟨hstack, (popReg_sameRest c q).trans hrest, hseg.trans (popReg_seg c q), ?_⟩
    intro r hr
    refine (hreg r hr).trans ?_
    by_cases hmem : r ∈ rs
    · rw [if_pos hmem, if_pos (List.mem_cons_of_mem q hmem)]
    · rw [if_neg hmem]
      by_cases hq : r = q
      · subst hq
        have hpop : (c.popReg r).reg r = c.top := by
          rw [Cpu.popReg, if_neg hr]
          exact set_self _ r _
        rw [if_pos List.mem_cons_self, hpop]
        exact h.top
      · rw [if_neg (List.not_mem_cons_of_ne_of_not_mem hq hmem), popReg_reg_of_ne hr hq]

theorem popAll_sameRest (rs : List Reg) : SameRest c (c.popAll rs) := by
  induction rs generalizing c with
  | nil => exact ⟨rfl, rfl, rfl⟩
  | cons r rs ih => exact (popReg_sameRest c r).trans ih

theorem popAll_esp (rs : List Reg) :
    (c.popAll rs).reg .esp = c.reg .esp + UInt32.ofNat (4 * rs.length) := by
  induction rs generalizing c with
  | nil => exact (UInt32.add_zero _).symm
  | cons r rs ih =>
    have hone : (c.popReg r).reg .esp = c.reg .esp + 4 := by
      unfold popReg
      split
      · exact drop_esp c 4
      · next hr => exact (set_of_ne (Ne.symm hr)).trans (drop_esp c 4)
    have hplace : c.reg .esp + 4 + UInt32.ofNat (4 * rs.length) =
        c.reg .esp + UInt32.ofNat (4 + 4 * rs.length) := add_ofNat_add _ 4 _
    have hrest := ih (c := c.popReg r)
    rw [hone, hplace] at hrest
    rw [List.length_cons, Nat.mul_succ, Nat.add_comm]
    exact hrest

/-- A push of a segment register is a push of a word that holds it in its lower half. -/
theorem exec_pushSeg (c : Cpu) (s : SegReg) :
    ∃ w : UInt32, w.toUInt16 = c.seg s ∧ exec c (.pushSeg s) = c.push w := by
  obtain ⟨w, hw, hmem⟩ := c.mem.write16_eq (c.reg .esp - 4) (c.seg s)
  refine ⟨w, hw, ?_⟩
  rw [exec, push16, hmem, push]

/-- Segment registers are saved in words that hold them in their lower halves. -/
theorem execAll_pushSegs {ss : List SegReg} (hss : ss.Nodup) (c : Cpu) :
    ∃ g : SegReg → UInt32, (∀ s, (g s).toUInt16 = c.seg s) ∧
      execAll (ss.map .pushSeg) c = c.pushAll (ss.map g) := by
  induction ss generalizing c with
  | nil => exact ⟨fun s => (c.seg s).toUInt32, fun s => UInt16.toUInt16_toUInt32 _, rfl⟩
  | cons q ss ih =>
    obtain ⟨hnot, hss⟩ := List.nodup_cons.mp hss
    obtain ⟨w, hw, hpush⟩ := exec_pushSeg c q
    obtain ⟨g, hg, hrest⟩ := ih hss (exec c (.pushSeg q))
    refine ⟨Function.update g q w, fun s => ?_, ?_⟩
    · by_cases hs : s = q
      · subst hs
        rw [Function.update_self, hw]
      · rw [Function.update_of_ne hs]
        exact hg s
    · have hsame : ss.map (Function.update g q w) = ss.map g :=
        List.map_congr_left fun s hs => Function.update_of_ne (ne_of_mem_of_not_mem hs hnot) ..
      rw [List.map_cons, List.map_cons, hsame, Function.update_self, pushAll, List.foldl_cons,
        ← hpush]
      exact hrest

/-- Segment registers that were stored in this order come back, whatever the upper halves are. -/
theorem Stack.popSegs {ss : List SegReg} {g : SegReg → UInt32} (h : c.Stack base (ss.map g ++ ws)) :
    (execAll (ss.map .popSeg) c).Stack base ws ∧ SameRest c (execAll (ss.map .popSeg) c) ∧
      (∀ r, r ≠ .esp → (execAll (ss.map .popSeg) c).reg r = c.reg r) ∧
      ∀ s, (execAll (ss.map .popSeg) c).seg s = if s ∈ ss then (g s).toUInt16 else c.seg s := by
  induction ss generalizing c with
  | nil => exact ⟨h, ⟨rfl, rfl, rfl⟩, fun _ _ => rfl, fun _ => rfl⟩
  | cons q ss ih =>
    have hpop : (exec c (.popSeg q)).Stack base (ss.map g ++ ws) :=
      (Stack.tail h).of_eq rfl rfl
    obtain ⟨hstack, hrest, hreg, hseg⟩ := ih hpop
    have hsame : SameRest c (exec c (.popSeg q)) := ⟨rfl, rfl, rfl⟩
    refine ⟨hstack, hsame.trans hrest, fun r hr => (hreg r hr).trans (set_of_ne hr), ?_⟩
    intro s
    refine (hseg s).trans ?_
    by_cases hmem : s ∈ ss
    · rw [if_pos hmem, if_pos (List.mem_cons_of_mem q hmem)]
    · rw [if_neg hmem]
      have htop : c.top = g q := Stack.top h
      by_cases hq : s = q
      · subst hq
        have hnew : (exec c (.popSeg s)).seg s = c.top.toUInt16 := Function.update_self ..
        rw [if_pos List.mem_cons_self, hnew, htop]
      · rw [if_neg (List.not_mem_cons_of_ne_of_not_mem hq hmem)]
        exact Function.update_of_ne hq ..

end Cpu

/-- Straight-line code stays in its code segment and on its stack segment. -/
theorem exec_segments (c : Cpu) (i : Instr) : (exec c i).cs = c.cs ∧ (exec c i).ss = c.ss := by
  cases i with
  | pushad => exact ⟨Cpu.pushAll_cs _, Cpu.pushAll_ss _⟩
  | popad => exact ⟨(Cpu.popAll_sameRest _).cs, (Cpu.popAll_sameRest _).ss⟩
  | _ => exact ⟨rfl, rfl⟩

theorem execAll_segments (code : List Instr) (c : Cpu) :
    (execAll code c).cs = c.cs ∧ (execAll code c).ss = c.ss := by
  induction code generalizing c with
  | nil => exact ⟨rfl, rfl⟩
  | cons i code ih =>
    have hfirst := exec_segments c i
    have hrest := ih (exec c i)
    exact ⟨hrest.1.trans hfirst.1, hrest.2.trans hfirst.2⟩

/-- The instruction writes to memory. -/
def Instr.stores : Instr → Bool
  | .pushImm _ | .push _ | .pushSeg _ | .pushad | .store _ _ => true
  | _ => false

theorem exec_mem (c : Cpu) {i : Instr} (h : i.stores = false) : (exec c i).mem = c.mem := by
  cases i with
  | popad => exact (Cpu.popAll_sameRest _).mem
  | pushImm | push | pushSeg | pushad | store => cases h
  | _ => rfl

/-- Code without stores leaves the memory as it is. -/
theorem execAll_mem {code : List Instr} (h : ∀ i ∈ code, i.stores = false) (c : Cpu) :
    (execAll code c).mem = c.mem := by
  induction code generalizing c with
  | nil => rfl
  | cons i code ih =>
    have hrest := ih (fun j hj => h j (List.mem_cons_of_mem i hj)) (exec c i)
    exact hrest.trans (exec_mem c (h i List.mem_cons_self))

/-! ## Calls and interrupts -/

/-- A called function has returned as the C calling convention has it: from `c`, with the return
address on top, to `c'`. It may have changed its `args` arguments, but not the `kept` words above
them. -/
structure Cdecl (args kept : Nat) (c c' : Cpu) : Prop where
  eip : c'.eip = c.top
  esp : c'.reg .esp = c.reg .esp + 4
  saved : ∀ r, r = .ebx ∨ r = .ebp ∨ r = .esi ∨ r = .edi → c'.reg r = c.reg r
  cs : c'.cs = c.cs
  ss : c'.ss = c.ss
  frame : ∀ k, 4 * (args + 1) ≤ k → k < 4 * (args + 1 + kept) →
    c'.mem (c.reg .esp + UInt32.ofNat k) = c.mem (c.reg .esp + UInt32.ofNat k)

section Calls

variable {c c' : Cpu} {base w : UInt32} {us ws : List UInt32}

/-- A function that returns at once. -/
theorem cdecl_ret (args kept : Nat) (c : Cpu) : Cdecl args kept c (ret c) where
  eip := rfl
  esp := Cpu.drop_esp c 4
  saved := by
    intro r hr
    refine Cpu.set_of_ne fun he => ?_
    subst he
    rcases hr with h | h | h | h <;> cases h
  cs := rfl
  ss := rfl
  frame := fun _ _ _ => rfl

/-- The caller discards the arguments and finds its stack as it was. -/
theorem Cdecl.stack (h : Cdecl us.length ws.length c c') (hc : c.Stack base (w :: (us ++ ws))) :
    (c'.drop (UInt32.ofNat (4 * us.length))).Stack base ws := by
  have hold : (c.drop (UInt32.ofNat (4 * (w :: us).length))).Stack base ws := Cpu.Stack.drop hc
  have hplace : c'.reg .esp + UInt32.ofNat (4 * us.length) =
      c.reg .esp + UInt32.ofNat (4 * (w :: us).length) := by
    rw [h.esp, List.length_cons, Nat.mul_succ, Nat.add_comm]
    exact add_ofNat_add _ 4 _
  have hesp : (c'.drop (UInt32.ofNat (4 * us.length))).reg .esp =
      (c.drop (UInt32.ofNat (4 * (w :: us).length))).reg .esp := by
    rw [Cpu.drop_esp, Cpu.drop_esp, hplace]
  constructor
  · rw [hesp]
    exact hold.reaches
  · rw [hesp]
    refine hold.words.congr fun k hk => ?_
    rw [Cpu.drop_esp, add_ofNat_add]
    rw [List.length_cons]
    exact h.frame _ (by omega) (by omega)

/-- Where the stack of an interrupt starts. -/
def intrBase (tss : Tss) (c : Cpu) : UInt32 := if c.cpl = 0 then c.reg .esp else tss.esp0

/-- The old stack, which is saved when the privilege level changes. -/
def outerStack (c : Cpu) : List UInt32 :=
  if c.cpl = 0 then [] else [c.reg .esp, c.ss.toUInt32]

theorem outerStack_length (c : Cpu) : (outerStack c).length ≤ 2 := by
  unfold outerStack
  split <;> simp

theorem innerStack_stack (tss : Tss) (c : Cpu) :
    (innerStack tss c).Stack (intrBase tss c) (outerStack c) := by
  unfold innerStack intrBase outerStack
  by_cases hcpl : c.cpl = 0
  · rw [if_pos hcpl, if_pos hcpl, if_pos hcpl]
    exact Cpu.Stack.nil c
  · rw [if_neg hcpl, if_neg hcpl, if_neg hcpl]
    let d : Cpu := ({ c with ss := tss.ss0 } : Cpu).set .esp tss.esp0
    have hesp : d.reg .esp = tss.esp0 := Cpu.set_self _ .esp _
    have hempty : d.Stack tss.esp0 [] := hesp ▸ Cpu.Stack.nil d
    exact hempty.pushAll [c.ss.toUInt32, c.reg .esp] (show 4 * (2 + 0) ≤ 2 ^ 32 by decide)

/-- What lies on the stack when an interrupt is entered. -/
theorem interrupt_stack (tss : Tss) (gate : Gate) (code : Option UInt32) (c : Cpu) :
    (interrupt tss gate code c).Stack (intrBase tss c)
      (code.toList ++ c.eip :: c.cs.toUInt32 :: c.eflags :: outerStack c) := by
  have hcode : code.toList.reverse = code.toList := by cases code <;> rfl
  have hlen : code.toList.length ≤ 1 := by cases code <;> simp
  have houter := outerStack_length c
  have hfits : 4 * (([c.eflags, c.cs.toUInt32, c.eip] ++ code.toList).length +
      (outerStack c).length) ≤ 2 ^ 32 := by
    simp only [List.length_append, List.length_cons, List.length_nil]
    omega
  have hpush := (innerStack_stack tss c).pushAll _ hfits
  rw [List.reverse_append, hcode, List.append_assoc] at hpush
  unfold interrupt
  exact hpush.of_eq rfl rfl

theorem interrupt_seg (tss : Tss) (gate : Gate) (code : Option UInt32) (c : Cpu) :
    (interrupt tss gate code c).seg = c.seg := by
  have hinner : (innerStack tss c).seg = c.seg := by
    unfold innerStack
    split <;> rfl
  unfold interrupt
  rw [Cpu.pushAll_seg, hinner]

/-- The general registers are those of the interrupted state. -/
theorem interrupt_reg (tss : Tss) (gate : Gate) (code : Option UInt32) (c : Cpu) {r : Reg}
    (hr : r ≠ .esp) : (interrupt tss gate code c).reg r = c.reg r := by
  have hinner : (innerStack tss c).reg r = c.reg r := by
    unfold innerStack
    split
    · rfl
    · exact (Cpu.pushAll_reg _ hr).trans (Cpu.set_of_ne hr)
  exact (Cpu.pushAll_reg _ hr).trans hinner

/-- The stack segment, which only changes together with the privilege level. -/
theorem interrupt_ss (tss : Tss) (gate : Gate) (code : Option UInt32) (h : c.cpl = 0) :
    (interrupt tss gate code c).ss = c.ss := by
  have hinner : innerStack tss c = c := if_pos h
  unfold interrupt
  dsimp only
  rw [Cpu.pushAll_ss, hinner]

/-- Back to the same privilege level. -/
theorem iretd_same {eip eflags : UInt32} {cs : UInt16}
    (h : c.Stack base [eip, cs.toUInt32, eflags]) (hcpl : ¬ c.cpl < cs &&& 3) :
    iretd c = { c.set .esp base with eip := eip, cs := cs, eflags := eflags } := by
  obtain ⟨hreach, heip, hcs, hflags, -⟩ := h
  have hbase : c.reg .esp + 12 = base := hreach
  have hflags' : c.mem.read32 (c.reg .esp + 8) = eflags := by
    rw [← hflags, UInt32.add_assoc]
    rfl
  unfold iretd
  simp only [heip, hcs, hflags', UInt16.toUInt16_toUInt32]
  rw [if_neg hcpl, Cpu.drop, hbase]

/-- Back to an outer privilege level, on its own stack. -/
theorem iretd_outer {eip eflags esp : UInt32} {cs ss : UInt16}
    (h : c.Stack base [eip, cs.toUInt32, eflags, esp, ss.toUInt32]) (hcpl : c.cpl < cs &&& 3) :
    iretd c = { c.set .esp esp with eip := eip, cs := cs, eflags := eflags, ss := ss } := by
  obtain ⟨-, heip, hcs, hflags, hesp, hss, -⟩ := h
  have hflags' : c.mem.read32 (c.reg .esp + 8) = eflags := by
    rw [← hflags, UInt32.add_assoc]
    rfl
  have hesp' : c.mem.read32 (c.reg .esp + 12) = esp := by
    rw [← hesp, UInt32.add_assoc, UInt32.add_assoc]
    rfl
  have hss' : c.mem.read32 (c.reg .esp + 16) = ss.toUInt32 := by
    rw [← hss, UInt32.add_assoc, UInt32.add_assoc, UInt32.add_assoc]
    rfl
  unfold iretd
  simp only [heip, hcs, hflags', hesp', hss', UInt16.toUInt16_toUInt32]
  rw [if_pos hcpl, Cpu.drop, Cpu.set, Cpu.set, Cpu.set, Function.update_idem]

end Calls

end OsKernel.Lib
