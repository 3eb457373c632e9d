import OsKernel.Kernel.Terminal
import OsKernel.Lib.X86

/-!
# lib/kernel/print.S: put_int

`put_int` finds its argument on the stack, from the highest byte on, and prints two digits for each of
its bytes. The calls below it use the same stack.

- `callPutChar`, `printANumber`, `putInt`: the code.
- `numeral`: the number that digits stand for.
- `put_int_prints`: the screen shows eight digits of the number.
-/

namespace OsKernel

open Lib

/-! ## The code -/

/-- The processor and the text hardware -/
structure Printer where
  cpu : Cpu
  vga : Vga

/-- Where the routines lie, and the instructions behind their calls -/
structure PrintCode where
  putChar : UInt32
  printANumber : UInt32
  behindPutChar : UInt32
  behindFirst : UInt32
  behindSecond : UInt32

/-- `SELECTOR_VIDEO` -/
def selectorVideo : UInt16 := UInt16.ofNat ((3 <<< 3) + 0 + 0)

/-- `call put_char`. Between `pushad` and `popad` the routine changes registers, `gs` and the
screen. -/
def callPutChar (code : PrintCode) (s : Printer) : Option Printer :=
  let c := exec (call code.putChar { s.cpu with eip := code.behindPutChar }) .pushad
  let c := { c with seg := Function.update c.seg .gs selectorVideo }
  let ecx := c.mem.read32 (c.reg .esp + 36)
  match putChar ecx.toUInt8 s.vga with
  | .returned v => some { cpu := ret (exec c .popad), vga := v }
  | _ => none

/-- `call print_a_number` -/
def printANumber (code : PrintCode) (back : UInt32) (s : Printer) : Option Printer := do
  let c := call code.printANumber { s.cpu with eip := back }
  let edx := c.reg .edx
  -- `jg` compares with the sign
  let c := c.set .edx (if edx.toInt32 > 9 then edx + 97 - 10 else edx + 48)
  let s ← callPutChar code { s with cpu := c.push (c.reg .edx) }
  return { s with cpu := ret (s.cpu.drop 4) }

/-- One turn of `.put_int_loop` -/
def putIntTurn (code : PrintCode) (s : Printer) : Option Printer := do
  let c := s.cpu.set .eax (s.cpu.mem.read32 (s.cpu.reg .ebp + 15 + s.cpu.reg .ecx))
  let c := c.set .edx (c.reg .eax >>> 4 &&& 0xf)
  let s ← printANumber code code.behindFirst { s with cpu := c }
  let c := s.cpu.set .edx (s.cpu.reg .eax &&& 0xf)
  let s ← printANumber code code.behindSecond { s with cpu := c }
  return { s with cpu := s.cpu.set .ecx (s.cpu.reg .ecx - 1) }

/-- `.put_int_loop`, if `loop` falls through after at most that many turns -/
def putIntLoop (code : PrintCode) : Nat → Printer → Option Printer
  | 0, _ => none
  | turns + 1, s => do
    let s ← putIntTurn code s
    if s.cpu.reg .ecx ≠ 0 then putIntLoop code turns s else return s

/-- `put_int` -/
def putInt (code : PrintCode) (s : Printer) : Option Printer := do
  let c := execAll [.push .ecx, .push .ebp, .push .edx] s.cpu
  let c := c.set .ecx 4
  let c := c.set .ebp (c.reg .esp)
  let s ← putIntLoop code 4 { s with cpu := c }
  return { s with cpu := ret (execAll [.pop .edx, .pop .ebp, .pop .ecx] s.cpu) }

/-! ## Numerals -/

/-- The digit of a value below 16 -/
def hexDigit (d : Nat) : UInt8 := if d ≤ 9 then UInt8.ofNat (48 + d) else UInt8.ofNat (87 + d)

/-- `0` to `9` and `a` to `f` -/
def IsHexDigit (x : UInt8) : Prop := (48 ≤ x.toNat ∧ x.toNat ≤ 57) ∨ (97 ≤ x.toNat ∧ x.toNat ≤ 102)

def digitValue (x : UInt8) : Nat := if x.toNat ≤ 57 then x.toNat - 48 else x.toNat - 87

/-- The number that digits stand for, the first one the highest -/
def numeral (digits : List UInt8) : Nat := digits.foldl (fun n x => 16 * n + digitValue x) 0

/-- The digits of the lower `k` bytes -/
def hexDigits (n : Nat) : Nat → List UInt8
  | 0 => []
  | k + 1 => hexDigit (n / 256 ^ k / 16 % 16) :: hexDigit (n / 256 ^ k % 16) :: hexDigits n k

theorem toNat_hexDigit {d : Nat} (hd : d < 16) :
    (hexDigit d).toNat = if d ≤ 9 then 48 + d else 87 + d := by
  unfold hexDigit
  split
  · rw [UInt8.toNat_ofNat']
    omega
  · rw [UInt8.toNat_ofNat']
    omega

theorem digitValue_hexDigit {d : Nat} (hd : d < 16) : digitValue (hexDigit d) = d := by
  rw [digitValue, toNat_hexDigit hd]
  by_cases hten : d ≤ 9
  · rw [if_pos hten, if_pos (by omega)]
    omega
  · rw [if_neg hten, if_neg (by omega)]
    omega

theorem isHexDigit_hexDigit {d : Nat} (hd : d < 16) : IsHexDigit (hexDigit d) := by
  rw [IsHexDigit, toNat_hexDigit hd]
  split <;> omega

theorem hexDigits_length (n k : Nat) : (hexDigits n k).length = 2 * k := by
  induction k with
  | zero => rfl
  | succ k ih =>
    rw [hexDigits, List.length_cons, List.length_cons, ih]
    omega

theorem hexDigits_isHexDigit (n k : Nat) : ∀ x ∈ hexDigits n k, IsHexDigit x := by
  induction k with
  | zero => simp [hexDigits]
  | succ k ih =>
    intro x hx
    rw [hexDigits, List.mem_cons, List.mem_cons] at hx
    rcases hx with rfl | rfl | hx
    · exact isHexDigit_hexDigit (Nat.mod_lt _ (by decide))
    · exact isHexDigit_hexDigit (Nat.mod_lt _ (by decide))
    · exact ih x hx

/-- Reading on from the number `a` -/
theorem numeral_hexDigits_from (n k a : Nat) :
    (hexDigits n k).foldl (fun n x => 16 * n + digitValue x) a = a * 256 ^ k + n % 256 ^ k := by
  induction k generalizing a with
  | zero => simp [hexDigits, Nat.mod_one]
  | succ k ih =>
    have hbyte : n % 256 ^ (k + 1) = n % 256 ^ k + 256 ^ k * (n / 256 ^ k % 256) := Nat.mod_pow_succ
    have hhalves : 16 * (16 * a + n / 256 ^ k / 16 % 16) + n / 256 ^ k % 16 =
        256 * a + n / 256 ^ k % 256 := by omega
    rw [hexDigits, List.foldl_cons, List.foldl_cons, digitValue_hexDigit (Nat.mod_lt _ (by decide)),
      digitValue_hexDigit (Nat.mod_lt _ (by decide)), hhalves, ih, hbyte]
    ring

theorem numeral_hexDigits (x : UInt32) : numeral (hexDigits x.toNat 4) = x.toNat := by
  have hx : x.toNat < 256 ^ 4 := x.toNat_lt
  rw [numeral, numeral_hexDigits_from, Nat.zero_mul, Nat.zero_add, Nat.mod_eq_of_lt hx]

/-! ## The calls -/

section Calls

variable {code : PrintCode} {s : Printer} {v : Vga} {t : Terminal} {base back x num : UInt32}
  {ws : List UInt32} {k : Nat}

/-- As many words on the stack, as high a stack pointer. -/
theorem esp_of_stack {c d : Cpu} (h : c.Stack base ws) (h' : d.Stack base ws) :
    d.reg .esp = c.reg .esp := by
  have hsame := @Cpu.Stack.esp_append c base [] ws d h h'
  rw [hsame]
  exact (UInt32.add_zero _).symm

/-- The registers in the order in which `popad` takes them -/
def allRegs : List Reg := [.edi, .esi, .ebp, .esp, .ebx, .edx, .ecx, .eax]

/-- **`put_char`** brings back the registers and the stack of its caller. -/
theorem callPutChar_returns (h : s.cpu.Stack base (x :: ws)) (hlen : 4 * (ws.length + 10) ≤ 2 ^ 32)
    (hput : putChar x.toUInt8 s.vga = .returned v) : ∃ c, callPutChar code s = some ⟨c, v⟩ ∧
      c.Stack base (x :: ws) ∧ ∀ r, r ≠ .esp → c.reg r = s.cpu.reg r := by
  obtain ⟨c, hc⟩ : ∃ c, c = call code.putChar { s.cpu with eip := code.behindPutChar } := ⟨_, rfl⟩
  have hcall : c.Stack base (code.behindPutChar :: x :: ws) := by
    have hhere : Cpu.Stack { s.cpu with eip := code.behindPutChar } base (x :: ws) := h.of_eq rfl rfl
    rw [hc]
    exact (hhere.push code.behindPutChar (by rw [List.length_cons]; omega)).of_eq rfl rfl
  have hkept : ∀ r, r ≠ .esp → c.reg r = s.cpu.reg r := by
    intro r hr
    rw [hc]
    exact Cpu.set_of_ne hr
  obtain ⟨d, hd⟩ : ∃ d, d = { exec c .pushad with
      seg := Function.update (exec c .pushad).seg .gs selectorVideo } := ⟨_, rfl⟩
  have hsaved : d.Stack base (allRegs.map c.reg ++ code.behindPutChar :: x :: ws) := by
    have hpush := hcall.pushAll ([.eax, .ecx, .edx, .ebx, .esp, .ebp, .esi, .edi].map c.reg) (by
      simp only [List.length_map, List.length_cons, List.length_nil]
      omega)
    rw [hd]
    exact hpush.of_eq rfl rfl
  -- nine words lie above: eight registers and the return address
  have hread : d.mem.read32 (d.reg .esp + 36) = x := hsaved.words.read (i := 9) rfl
  have hbelow : (exec c .pushad).mem.read32 ((exec c .pushad).reg .esp + 36) = x := by
    rw [hd] at hread
    exact hread
  obtain ⟨hpop, -, -, hreg⟩ := Cpu.Stack.popAll hsaved
  have hpopad : exec d .popad = d.popAll allRegs := rfl
  have hcode : callPutChar code s = some ⟨ret (d.popAll allRegs), v⟩ := by
    unfold callPutChar
    dsimp only
    rw [← hc, ← hd, hbelow, hput, hpopad]
  generalize d.popAll allRegs = e at *
  refine ⟨ret e, hcode, hpop.tail.of_eq rfl rfl, ?_⟩
  intro r hr
  have hall : r ∈ allRegs := by cases r <;> decide
  have hret : (ret e).reg r = e.reg r := Cpu.set_of_ne hr
  rw [hret, hreg r hr, if_pos hall]
  exact hkept r hr

/-- The character for a value below 16 -/
theorem printANumber_digit {edx : UInt32} (h : edx.toNat < 16) :
    (if edx.toInt32 > 9 then edx + 97 - 10 else edx + 48).toUInt8 = hexDigit edx.toNat := by
  have hall : ∀ d, d < 16 → (if (UInt32.ofNat d).toInt32 > 9 then UInt32.ofNat d + 97 - 10
      else UInt32.ofNat d + 48).toUInt8 = hexDigit d := by decide
  have hedx := hall edx.toNat h
  rwa [UInt32.ofNat_toNat] at hedx

/-- **`print_a_number`** prints the digit of `edx`, and changes no other register. -/
theorem printANumber_returns (h : s.cpu.Stack base ws) (hlen : 4 * (ws.length + 11) ≤ 2 ^ 32)
    (hedx : (s.cpu.reg .edx).toNat < 16) (hshows : Shows s.vga t) : ∃ s',
      printANumber code back s = some s' ∧ s'.cpu.Stack base ws ∧
      (∀ r, r ≠ .esp → r ≠ .edx → s'.cpu.reg r = s.cpu.reg r) ∧
      Shows s'.vga (t.print (hexDigit (s.cpu.reg .edx).toNat)) := by
  obtain ⟨c, hc⟩ : ∃ c, c = call code.printANumber { s.cpu with eip := back } := ⟨_, rfl⟩
  have hcall : c.Stack base (back :: ws) := by
    have hhere : Cpu.Stack { s.cpu with eip := back } base ws := h.of_eq rfl rfl
    rw [hc]
    exact (hhere.push back (by omega)).of_eq rfl rfl
  have hkept : ∀ r, r ≠ .esp → c.reg r = s.cpu.reg r := by
    intro r hr
    rw [hc]
    exact Cpu.set_of_ne hr
  have hdigit := printANumber_digit hedx
  rw [← hkept .edx (by decide)] at hdigit
  obtain ⟨y, hy⟩ : ∃ y, y = if (c.reg .edx).toInt32 > 9 then c.reg .edx + 97 - 10
      else c.reg .edx + 48 := ⟨_, rfl⟩
  rw [← hy, hkept .edx (by decide)] at hdigit
  have hpush : ((c.set .edx y).push y).Stack base (y :: back :: ws) := by
    have hset : (c.set .edx y).Stack base (back :: ws) :=
      hcall.of_eq (Cpu.set_of_ne (by decide)) rfl
    exact hset.push y (by rw [List.length_cons]; omega)
  have hprintable : hexDigit (s.cpu.reg .edx).toNat ≠ 0x08 := by
    intro hback
    have hhex := isHexDigit_hexDigit hedx
    rw [hback] at hhex
    revert hhex
    unfold IsHexDigit
    decide
  obtain ⟨v, hput, hshows'⟩ := hshows.print hprintable
  obtain ⟨e, hchar, hstack, hregs⟩ := @callPutChar_returns code ⟨(c.set .edx y).push y, s.vga⟩ v
    base y (back :: ws) hpush (by rw [List.length_cons]; omega) (by rw [hdigit]; exact hput)
  refine ⟨⟨ret (e.drop 4), v⟩, ?_, hstack.tail.tail.of_eq rfl rfl, ?_, hshows'⟩
  · have hself : (c.set .edx y).reg .edx = y := Cpu.set_self c .edx y
    unfold printANumber
    dsimp only
    rw [← hc, ← hy, hself, hchar]
    rfl
  · intro r hesp hne
    have hret : (ret (e.drop 4)).reg r = e.reg r := (Cpu.set_of_ne hesp).trans (Cpu.set_of_ne hesp)
    have hpushed : ((c.set .edx y).push y).reg r = c.reg r :=
      (Cpu.set_of_ne hesp).trans (Cpu.set_of_ne hne)
    exact hret.trans ((hregs r hesp).trans (hpushed.trans (hkept r hesp)))

/-! ## The loop -/

/-- A byte of a word in memory -/
theorem read32_byte (m : Memory32) (a : UInt32) (hk : k < 4) :
    (m.read32 a).toNat / 256 ^ k % 256 = (m (a + UInt32.ofNat k)).toNat := by
  have hread : m.read32 a = UInt32.ofNat ((m (a + UInt32.ofNat 0)).toNat +
      0x100 * (m (a + UInt32.ofNat 1)).toNat + 0x10000 * (m (a + UInt32.ofNat 2)).toNat +
      0x1000000 * (m (a + UInt32.ofNat 3)).toNat) := rfl
  have h0 := (m (a + UInt32.ofNat 0)).toNat_lt
  have h1 := (m (a + UInt32.ofNat 1)).toNat_lt
  have h2 := (m (a + UInt32.ofNat 2)).toNat_lt
  have h3 := (m (a + UInt32.ofNat 3)).toNat_lt
  have hsum : (m.read32 a).toNat = (m (a + UInt32.ofNat 0)).toNat +
      0x100 * (m (a + UInt32.ofNat 1)).toNat + 0x10000 * (m (a + UInt32.ofNat 2)).toNat +
      0x1000000 * (m (a + UInt32.ofNat 3)).toNat := by
    rw [hread, UInt32.toNat_ofNat']
    exact Nat.mod_eq_of_lt (by omega)
  have hcases : k = 0 ∨ k = 1 ∨ k = 2 ∨ k = 3 := by omega
  rw [hsum]
  rcases hcases with rfl | rfl | rfl | rfl
  · rw [pow_zero]
    omega
  · rw [pow_one]
    omega
  · rw [show 256 ^ 2 = 0x10000 from rfl]
    omega
  · rw [show 256 ^ 3 = 0x1000000 from rfl]
    omega

/-- In front of a turn, with `k` bytes left -/
structure AtTurn (base : UInt32) (ws : List UInt32) (k : Nat) (c : Cpu) : Prop where
  stack : c.Stack base ws
  ebp : c.reg .ebp = c.reg .esp
  ecx : c.reg .ecx = UInt32.ofNat k

/-- The two halves of the byte that `[ebp + 15 + ecx]` names -/
theorem AtTurn.halves {c : Cpu} (h : AtTurn base ws (k + 1) c) (hnum : ws[4]? = some num)
    (hk : k < 4) : let eax := c.mem.read32 (c.reg .ebp + 15 + c.reg .ecx)
      (eax >>> 4 &&& 0xf).toNat = num.toNat / 256 ^ k / 16 % 16 ∧
        (eax &&& 0xf).toNat = num.toNat / 256 ^ k % 16 := by
  intro eax
  -- the argument lies above the three saved registers and the return address
  have hargument : c.mem.read32 (c.reg .esp + UInt32.ofNat (4 * 4)) = num := h.stack.words.read hnum
  have hplace : c.reg .ebp + 15 + c.reg .ecx =
      c.reg .esp + UInt32.ofNat (4 * 4) + UInt32.ofNat k := by
    have hfifteen : (15 : UInt32) = UInt32.ofNat 15 := rfl
    have hindex : 15 + (k + 1) = 4 * 4 + k := by omega
    rw [h.ebp, h.ecx, hfifteen, add_ofNat_add, add_ofNat_add, hindex]
  have hlow := read32_byte (k := 0) c.mem (c.reg .ebp + 15 + c.reg .ecx) (by decide)
  have hbyte := read32_byte c.mem (c.reg .esp + UInt32.ofNat (4 * 4)) hk
  have hzero : ∀ a : UInt32, a + UInt32.ofNat 0 = a := fun a => UInt32.add_zero a
  have hmask : (0xf : UInt32).toNat = 2 ^ 4 - 1 := rfl
  have hfour : (4 : UInt32).toNat % 32 = 4 := rfl
  have heax : eax.toNat % 256 = num.toNat / 256 ^ k % 256 := by
    rw [hzero, pow_zero, Nat.div_one] at hlow
    rw [hargument, ← hplace] at hbyte
    exact hlow.trans hbyte.symm
  clear_value eax
  constructor
  · rw [UInt32.toNat_and, UInt32.toNat_shiftRight, hmask, hfour, Nat.and_two_pow_sub_one_eq_mod,
      Nat.shiftRight_eq_div_pow]
    omega
  · rw [UInt32.toNat_and, hmask, Nat.and_two_pow_sub_one_eq_mod]
    omega

/-- **A turn** prints a byte. -/
theorem putIntTurn_returns (h : AtTurn base ws (k + 1) s.cpu) (hnum : ws[4]? = some num) (hk : k < 4)
    (hlen : 4 * (ws.length + 11) ≤ 2 ^ 32) (hshows : Shows s.vga t) : ∃ s',
      putIntTurn code s = some s' ∧ AtTurn base ws k s'.cpu ∧
      (∀ r, r ≠ .esp → r ≠ .eax → r ≠ .ecx → r ≠ .edx → s'.cpu.reg r = s.cpu.reg r) ∧
      Shows s'.vga ((t.print (hexDigit (num.toNat / 256 ^ k / 16 % 16))).print
        (hexDigit (num.toNat / 256 ^ k % 16))) := by
  obtain ⟨hhigh, hlow⟩ := h.halves hnum hk
  obtain ⟨x, hx⟩ : ∃ x, x = s.cpu.mem.read32 (s.cpu.reg .ebp + 15 + s.cpu.reg .ecx) := ⟨_, rfl⟩
  rw [← hx] at hhigh hlow
  -- the high digit
  obtain ⟨c, hc⟩ : ∃ c, c = (s.cpu.set .eax x).set .edx (x >>> 4 &&& 0xf) := ⟨_, rfl⟩
  have hcedx : c.reg .edx = x >>> 4 &&& 0xf := by
    rw [hc]
    exact Cpu.set_self _ .edx _
  have hcreg : ∀ r, r ≠ .eax → r ≠ .edx → c.reg r = s.cpu.reg r := by
    intro r heax hedx
    rw [hc]
    exact (Cpu.set_of_ne hedx).trans (Cpu.set_of_ne heax)
  have hceax : c.reg .eax = x := by
    rw [hc]
    exact (Cpu.set_of_ne (by decide)).trans (Cpu.set_self _ .eax _)
  have hcstack : c.Stack base ws :=
    h.stack.of_eq (hcreg .esp (by decide) (by decide)) (by rw [hc]; rfl)
  obtain ⟨s₁, hfirst, hstack₁, hreg₁, hshows₁⟩ := @printANumber_returns code ⟨c, s.vga⟩ t base
    code.behindFirst ws hcstack hlen (by rw [hcedx, hhigh]; exact Nat.mod_lt _ (by decide)) hshows
  rw [hcedx, hhigh] at hshows₁
  have heax₁ : s₁.cpu.reg .eax = x := (hreg₁ .eax (by decide) (by decide)).trans hceax
  -- the low digit
  obtain ⟨d, hd⟩ : ∃ d, d = s₁.cpu.set .edx (x &&& 0xf) := ⟨_, rfl⟩
  have hdedx : d.reg .edx = x &&& 0xf := by
    rw [hd]
    exact Cpu.set_self _ .edx _
  have hdreg : ∀ r, r ≠ .edx → d.reg r = s₁.cpu.reg r := by
    intro r hedx
    rw [hd]
    exact Cpu.set_of_ne hedx
  have hdstack : d.Stack base ws := hstack₁.of_eq (hdreg .esp (by decide)) (by rw [hd]; rfl)
  obtain ⟨s₂, hsecond, hstack₂, hreg₂, hshows₂⟩ := @printANumber_returns code ⟨d, s₁.vga⟩ _ base
    code.behindSecond ws hdstack hlen (by rw [hdedx, hlow]; exact Nat.mod_lt _ (by decide)) hshows₁
  rw [hdedx, hlow] at hshows₂
  have hreg : ∀ r, r ≠ .esp → r ≠ .eax → r ≠ .edx → s₂.cpu.reg r = s.cpu.reg r := by
    intro r hesp heax hedx
    rw [hreg₂ r hesp hedx, hdreg r hedx, hreg₁ r hesp hedx]
    exact hcreg r heax hedx
  refine ⟨⟨s₂.cpu.set .ecx (s₂.cpu.reg .ecx - 1), s₂.vga⟩, ?_, ⟨?_, ?_, ?_⟩, ?_, hshows₂⟩
  · have hself : (s.cpu.set .eax x).reg .eax = x := Cpu.set_self _ .eax _
    unfold putIntTurn
    dsimp only
    rw [← hx, hself, ← hc, hfirst, Option.bind_eq_bind, Option.bind_some, heax₁, ← hd, hsecond]
    rfl
  · exact hstack₂.of_eq (Cpu.set_of_ne (by decide)) rfl
  · have hesp := esp_of_stack h.stack hstack₂
    have hebp := hreg .ebp (by decide) (by decide) (by decide)
    rw [Cpu.set_of_ne (by decide), Cpu.set_of_ne (by decide), hebp, h.ebp, hesp]
  · have hecx := hreg .ecx (by decide) (by decide) (by decide)
    rw [Cpu.set_self, hecx, h.ecx, UInt32.ofNat_add]
    exact UInt32.add_sub_cancel _ 1
  · intro r hesp heax hecx hedx
    exact (Cpu.set_of_ne hecx).trans (hreg r hesp heax hedx)

/-- **The loop** prints the bytes that are left. -/
theorem putIntLoop_returns (h : AtTurn base ws (k + 1) s.cpu) (hnum : ws[4]? = some num) (hk : k < 4)
    (hlen : 4 * (ws.length + 11) ≤ 2 ^ 32) (hshows : Shows s.vga t) : ∃ s',
      putIntLoop code (k + 1) s = some s' ∧ s'.cpu.Stack base ws ∧
      (∀ r, r ≠ .esp → r ≠ .eax → r ≠ .ecx → r ≠ .edx → s'.cpu.reg r = s.cpu.reg r) ∧
      Shows s'.vga ((hexDigits num.toNat (k + 1)).foldl Terminal.print t) := by
  induction k generalizing s t with
  | zero =>
    obtain ⟨s', hturn, hat, hreg, hshows'⟩ :=
      @putIntTurn_returns code _ _ _ _ _ _ h hnum hk hlen hshows
    -- `loop` falls through
    have hdone : s'.cpu.reg .ecx = 0 := hat.ecx
    refine ⟨s', ?_, hat.stack, hreg, hshows'⟩
    rw [putIntLoop, hturn, Option.bind_eq_bind, Option.bind_some, if_neg (not_not_intro hdone)]
    rfl
  | succ k ih =>
    obtain ⟨s₁, hturn, hat, hreg, hshows₁⟩ :=
      @putIntTurn_returns code _ _ _ _ _ _ h hnum hk hlen hshows
    have hmore : s₁.cpu.reg .ecx ≠ 0 := by
      intro hzero
      have hval := congrArg UInt32.toNat (hat.ecx.symm.trans hzero)
      rw [Memory32.toNat_ofNat_lt (by omega)] at hval
      exact absurd hval (Nat.succ_ne_zero k)
    obtain ⟨s', hrest, hstack, hreg', hshows'⟩ := ih hat (by omega) hshows₁
    refine ⟨s', ?_, hstack, ?_, hshows'⟩
    · rw [putIntLoop, hturn, Option.bind_eq_bind, Option.bind_some, if_pos hmore]
      exact hrest
    · intro r hesp heax hecx hedx
      exact (hreg' r hesp heax hecx hedx).trans (hreg r hesp heax hecx hedx)

/-! ## The routine -/

/-- **`put_int`** shows its argument as eight digits, and gives its caller back the stack and every
register but `eax`. -/
theorem put_int_prints {retaddr : UInt32} (h : s.cpu.Stack base (retaddr :: num :: ws))
    (hlen : 4 * (ws.length + 16) ≤ 2 ^ 32) (hshows : Shows s.vga t) : ∃ s' digits,
      putInt code s = some s' ∧ s'.cpu.eip = retaddr ∧ s'.cpu.Stack base (num :: ws) ∧
      (∀ r, r ≠ .esp → r ≠ .eax → s'.cpu.reg r = s.cpu.reg r) ∧
      digits.length = 8 ∧ (∀ x ∈ digits, IsHexDigit x) ∧ numeral digits = num.toNat ∧
      Shows s'.vga (digits.foldl Terminal.print t) := by
  let saved : List Reg := [.edx, .ebp, .ecx]
  obtain ⟨c, hc⟩ : ∃ c, c = execAll [.push .ecx, .push .ebp, .push .edx] s.cpu := ⟨_, rfl⟩
  have hpush : c.Stack base (saved.map s.cpu.reg ++ retaddr :: num :: ws) := by
    rw [hc]
    exact h.pushAll [s.cpu.reg .ecx, s.cpu.reg .ebp, s.cpu.reg .edx] (by
      simp only [List.length_cons, List.length_nil]
      omega)
  have hcreg : ∀ r, r ≠ .esp → c.reg r = s.cpu.reg r := by
    intro r hr
    rw [hc]
    exact Cpu.pushAll_reg [s.cpu.reg .ecx, s.cpu.reg .ebp, s.cpu.reg .edx] hr
  obtain ⟨d, hd⟩ : ∃ d, d = (c.set .ecx 4).set .ebp ((c.set .ecx 4).reg .esp) := ⟨_, rfl⟩
  have hdreg : ∀ r, r ≠ .ecx → r ≠ .ebp → d.reg r = c.reg r := by
    intro r hecx hebp
    rw [hd]
    exact (Cpu.set_of_ne hebp).trans (Cpu.set_of_ne hecx)
  have hesp := hdreg .esp (by decide) (by decide)
  have hat : AtTurn base (saved.map s.cpu.reg ++ retaddr :: num :: ws) (3 + 1) d := by
    refine ⟨hpush.of_eq hesp (by rw [hd]; rfl), ?_, ?_⟩
    · rw [hesp, hd, Cpu.set_self]
      exact Cpu.set_of_ne (by decide)
    · rw [hd]
      exact (Cpu.set_of_ne (by decide)).trans (Cpu.set_self c .ecx 4)
  obtain ⟨s₁, hloop, hstack, hreg, hshows'⟩ := @putIntLoop_returns code ⟨d, s.vga⟩ t base num _ 3
    hat rfl (by decide) (by simp only [List.length_append, List.length_map, List.length_cons,
      List.length_nil, saved]; omega) hshows
  obtain ⟨hpop, -, -, hpopped⟩ := Cpu.Stack.popAll hstack
  refine ⟨⟨ret (s₁.cpu.popAll saved), s₁.vga⟩, hexDigits num.toNat 4, ?_, hpop.top,
    hpop.tail.of_eq rfl rfl, ?_, hexDigits_length _ 4, hexDigits_isHexDigit _ 4,
    numeral_hexDigits num, hshows'⟩
  · unfold putInt
    dsimp only
    rw [← hc, ← hd, hloop]
    rfl
  · intro r hresp heax
    have hret : (ret (s₁.cpu.popAll saved)).reg r = (s₁.cpu.popAll saved).reg r := Cpu.set_of_ne hresp
    rw [hret, hpopped r hresp]
    by_cases hsaved : r ∈ saved
    · rw [if_pos hsaved]
    · have hedx : r ≠ .edx := fun he => hsaved (he ▸ by decide)
      have hebp : r ≠ .ebp := fun he => hsaved (he ▸ by decide)
      have hecx : r ≠ .ecx := fun he => hsaved (he ▸ by decide)
      rw [if_neg hsaved, hreg r hresp heax hecx hedx]
      exact (hdreg r hecx hebp).trans (hcreg r hresp)

end Calls

/-- A stack that is empty -/
def emptyStack : Cpu where
  reg := fun r => if r = .esp then 0xc009f000 else 0
  seg := fun _ => 0x10
  cs := 8
  ss := 0x10
  eip := 0xc0001500
  eflags := 2
  mem := fun _ => 0
  ports := []

/-- `put_int(0x1234)` in the last row -/
theorem put_int_prints_main : ∃ s' digits,
    putInt ⟨0xc0001a00, 0xc00019e0, 0xc00019f0, 0xc00019c0, 0xc00019d0⟩
      ⟨(emptyStack.push 0x1234).push 0xc0001520, blankScreen (UInt16.ofNat (1996 : Fin 2000))⟩ =
        some s' ∧
    s'.cpu.eip = 0xc0001520 ∧ s'.cpu.Stack 0xc009f000 [0x1234] ∧
    (∀ r, r ≠ .esp → r ≠ .eax → s'.cpu.reg r = ((emptyStack.push 0x1234).push 0xc0001520).reg r) ∧
    digits.length = 8 ∧ (∀ x ∈ digits, IsHexDigit x) ∧ numeral digits = 0x1234 ∧
    Shows s'.vga (digits.foldl Terminal.print ⟨fun _ => .blank, 1996⟩) :=
  @put_int_prints _ ⟨(emptyStack.push 0x1234).push 0xc0001520,
      blankScreen (UInt16.ofNat (1996 : Fin 2000))⟩ _ 0xc009f000 0x1234 [] 0xc0001520
    (((Cpu.Stack.nil emptyStack).push 0x1234 (by decide)).push 0xc0001520 (by decide)) (by decide)
    (blankScreen_shows 1996)

end OsKernel
