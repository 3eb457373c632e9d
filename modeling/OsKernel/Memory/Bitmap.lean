import OsKernel.Kernel.Debug
import OsKernel.Lib.Runs

/-!
# lib/kernel/bitmap.c

The two loops of `bitmap_scan` are one step function over their control points, so the same code
can run in one go or be interrupted between any two statements.

- `scanStep`, `bitmapScan`: the scan; `bitmapScan_spec`: it is a first fit.
- `bitmapSet`: one bit; `setBits`: the loop with which a found run is taken.
-/

namespace OsKernel

open Lib

/-! ## The data -/

/-- `struct bitmap`: the length, the pointer, and the array it points to. -/
structure Bitmap where
  btmpBytesLen : UInt32
  bits : UInt32
  bytes : Nat → UInt8

namespace Bitmap

/-- The number of bits. -/
def size (btmp : Bitmap) : Nat := 8 * btmp.btmpBytesLen.toNat

/-- The bit with a given index. -/
def get (btmp : Bitmap) (bitIdx : Nat) : Bool := (btmp.bytes (bitIdx / 8)).toNat.testBit (bitIdx % 8)

end Bitmap

/-- `bitmap_init`: `memset(btmp->bits, 0, btmp->btmp_bytes_len)` -/
def bitmapInit (btmp : Bitmap) : Bitmap :=
  { btmp with bytes := fun i => if i < btmp.btmpBytesLen.toNat then 0 else btmp.bytes i }

/-- All bits are clear. -/
theorem bitmapInit_get (btmp : Bitmap) {i : Nat} (hi : i < btmp.size) :
    (bitmapInit btmp).get i = false := by
  have hbyte : i / 8 < btmp.btmpBytesLen.toNat := by
    unfold Bitmap.size at hi
    omega
  simp [Bitmap.get, bitmapInit, hbyte]

/-! ## The scan -/

/-- Control points of `bitmap_scan`, with its local variables. -/
inductive ScanPc where
  /-- `while (byte_index < btmp->btmp_bytes_len)`, and the test of the byte -/
  | byte (byteIndex unusedCnt : Nat)
  /-- `byte_temp = btmp->bits[byte_index]` -/
  | load (byteIndex unusedCnt : Nat)
  /-- the body of the `for` loop -/
  | bit (byteIndex bitsIndex : Nat) (byteTemp : UInt8) (unusedCnt : Nat)
deriving DecidableEq, Repr

/-- One statement of `bitmap_scan`: the next control point, or the result, where `none` stands
for `-1`. -/
def scanStep (btmp : Bitmap) (cnt : Nat) : ScanPc → ScanPc ⊕ Option Nat
  | .byte i unused =>
    if i < btmp.btmpBytesLen.toNat then
      if btmp.bytes i ≠ 0xff then .inl (.load i unused) else .inl (.byte (i + 1) 0)
    else .inr none
  | .load i unused => .inl (.bit i 0 (btmp.bytes i) unused)
  | .bit i j temp unused =>
    if j < 8 then
      if temp &&& 0x01 ≠ 0 then .inl (.bit i (j + 1) (temp >>> 1) 0)
      else if unused + 1 = cnt then .inr (some (i * 8 + j + 1 - cnt))
      else .inl (.bit i (j + 1) (temp >>> 1) (unused + 1))
    else .inl (.byte (i + 1) unused)

/-- Execute statements of the scan. -/
def scanRun (btmp : Bitmap) (cnt : Nat) : Nat → ScanPc → Option (Option Nat)
  | 0, _ => none
  | fuel + 1, pc =>
    match scanStep btmp cnt pc with
    | .inl pc => scanRun btmp cnt fuel pc
    | .inr r => some r

/-- `bitmap_scan`; eleven statements for each byte are enough. -/
def bitmapScan (btmp : Bitmap) (cnt : Nat) : Option Nat :=
  (scanRun btmp cnt (11 * btmp.btmpBytesLen.toNat + 2) (.byte 0 0)).join

/-- What the scan knows at a control point. -/
def ScanInv (btmp : Bitmap) (cnt : Nat) : ScanPc → Prop
  | .byte i unused => i ≤ btmp.btmpBytesLen.toNat ∧ Scanned btmp.get cnt (i * 8) unused
  | .load i unused => i < btmp.btmpBytesLen.toNat ∧ Scanned btmp.get cnt (i * 8) unused
  | .bit i j temp unused =>
    i < btmp.btmpBytesLen.toNat ∧ j ≤ 8 ∧ temp.toNat = (btmp.bytes i).toNat / 2 ^ j ∧
      Scanned btmp.get cnt (i * 8 + j) unused

/-- The statements left, at most. -/
def ScanPc.left (btmp : Bitmap) : ScanPc → Nat
  | .byte i _ => 11 * (btmp.btmpBytesLen.toNat - i) + 1
  | .load i _ => 11 * (btmp.btmpBytesLen.toNat - i)
  | .bit i j _ _ => 11 * (btmp.btmpBytesLen.toNat - i) - 1 - j

/-- The result is right: the first run that is long enough, or there is none. -/
def ScanResult (btmp : Bitmap) (cnt : Nat) : Option Nat → Prop
  | some s => FirstFit btmp.get btmp.size cnt s
  | none => ∀ s, s + cnt ≤ btmp.size → ¬ Run.Clear btmp.get ⟨s, cnt⟩

section Scan

variable {btmp : Bitmap} {cnt : Nat}

theorem get_byte (btmp : Bitmap) (i : Nat) {j : Nat} (hj : j < 8) :
    btmp.get (i * 8 + j) = (btmp.bytes i).toNat.testBit j := by
  have hbyte : (i * 8 + j) / 8 = i := by omega
  have hbit : (i * 8 + j) % 8 = j := by omega
  rw [Bitmap.get, hbyte, hbit]

/-- Bit `j` of a byte is the lowest one after `j` shifts. -/
theorem and_one_shifted {x temp : UInt8} {j : Nat} (h : temp.toNat = x.toNat / 2 ^ j) :
    temp &&& 0x01 ≠ 0 ↔ x.toNat.testBit j = true := by
  rw [ne_eq, ← UInt8.toNat_inj, UInt8.toNat_and, Nat.testBit_eq_decide_div_mod_eq,
    decide_eq_true_iff, h]
  show ¬ (x.toNat / 2 ^ j &&& 1 = 0) ↔ _
  rw [Nat.and_one_is_mod]
  omega

theorem shifted_succ {x temp : UInt8} {j : Nat} (h : temp.toNat = x.toNat / 2 ^ j) :
    (temp >>> 1).toNat = x.toNat / 2 ^ (j + 1) := by
  rw [UInt8.toNat_shiftRight, h]
  show (x.toNat / 2 ^ j) >>> 1 = _
  rw [Nat.shiftRight_eq_div_pow, Nat.pow_one, Nat.div_div_eq_div_mul, ← Nat.pow_succ]

/-- All bits of the byte `0xff` are in use. -/
theorem full_byte {i : Nat} (h : btmp.bytes i = 0xff) : Run.Used btmp.get ⟨i * 8, 8⟩ := by
  intro k hk
  obtain ⟨hlo, hhi⟩ := Run.mem_iff.mp hk
  obtain ⟨j, rfl⟩ := Nat.exists_eq_add_of_le hlo
  have hj : j < 8 := Nat.lt_of_add_lt_add_left hhi
  rw [get_byte btmp i hj, h]
  exact Nat.testBit_two_pow_sub_one 8 j ▸ decide_eq_true hj

/-- **One statement of the scan** keeps what it knows, takes one of the statements left, and
returns a right result. -/
theorem scanStep_inv {pc : ScanPc} (h : ScanInv btmp cnt pc) :
    (∃ pc', scanStep btmp cnt pc = .inl pc' ∧ ScanInv btmp cnt pc' ∧ pc'.left btmp < pc.left btmp) ∨
    ∃ r, scanStep btmp cnt pc = .inr r ∧ ScanResult btmp cnt r := by
  cases pc with
  | byte i unused =>
    obtain ⟨hle, hscan⟩ := h
    by_cases hlt : i < btmp.btmpBytesLen.toNat
    · left
      by_cases hfull : btmp.bytes i = 0xff
      · refine ⟨.byte (i + 1) 0, by simp [scanStep, hlt, hfull], ⟨hlt, ?_⟩, ?_⟩
        · rw [Nat.add_mul]
          exact hscan.occupied_run (by decide) (full_byte hfull)
        · simp only [ScanPc.left]
          omega
      · refine ⟨.load i unused, by simp [scanStep, hlt, hfull], ⟨hlt, hscan⟩, ?_⟩
        simp only [ScanPc.left]
        omega
    · right
      refine ⟨none, by simp [scanStep, hlt], fun s hs => hscan.missed s ?_⟩
      unfold Bitmap.size at hs
      omega
  | load i unused =>
    obtain ⟨hlt, hscan⟩ := h
    refine Or.inl ⟨.bit i 0 (btmp.bytes i) unused, rfl, ⟨hlt, Nat.zero_le 8, by simp, hscan⟩, ?_⟩
    simp only [ScanPc.left]
    omega
  | bit i j temp unused =>
    obtain ⟨hlt, hle, htemp, hscan⟩ := h
    by_cases hj : j < 8
    · have hbit := (and_one_shifted htemp).trans (by rw [← get_byte btmp i hj])
      by_cases hused : btmp.get (i * 8 + j) = true
      · have hone := hbit.mpr hused
        refine Or.inl ⟨.bit i (j + 1) (temp >>> 1) 0, by simp [scanStep, hj, hone],
          ⟨hlt, hj, shifted_succ htemp, hscan.occupied hused⟩, ?_⟩
        simp only [ScanPc.left]
        omega
      · have hzero : ¬ temp &&& 0x01 ≠ 0 := fun hne => hused (hbit.mp hne)
        have hfree : btmp.get (i * 8 + j) = false := Bool.eq_false_iff.mpr hused
        by_cases hcnt : unused + 1 = cnt
        · right
          refine ⟨some (i * 8 + j + 1 - cnt), ?_, hscan.found hfree hcnt ?_⟩
          · simp only [scanStep, hj, if_true, hzero, if_false, hcnt]
          · unfold Bitmap.size
            omega
        · left
          refine ⟨.bit i (j + 1) (temp >>> 1) (unused + 1), ?_,
            ⟨hlt, hj, shifted_succ htemp, hscan.vacant hfree hcnt⟩, ?_⟩
          · simp only [scanStep, hj, if_true, hzero, if_false, hcnt]
          · simp only [ScanPc.left]
            omega
    · have height : j = 8 := by omega
      subst height
      refine Or.inl ⟨.byte (i + 1) unused, rfl, ⟨hlt, ?_⟩, ?_⟩
      · rw [Nat.add_mul]
        exact hscan
      · simp only [ScanPc.left]
        omega

/-- **The whole scan** ends before the fuel does, with a right result. -/
theorem scanRun_inv {pc : ScanPc} {fuel : Nat} (h : ScanInv btmp cnt pc)
    (hfuel : pc.left btmp < fuel) :
    ∃ r, scanRun btmp cnt fuel pc = some r ∧ ScanResult btmp cnt r := by
  induction fuel generalizing pc with
  | zero => omega
  | succ fuel ih =>
    unfold scanRun
    rcases scanStep_inv h with ⟨pc', hstep, hinv, hleft⟩ | ⟨r, hstep, hr⟩
    · rw [hstep]
      exact ih hinv (by omega)
    · rw [hstep]
      exact ⟨r, rfl, hr⟩

/-- **First fit.** `bitmap_scan` returns the first run of `cnt` clear bits, and `-1` only if there
is none. -/
theorem bitmapScan_spec (btmp : Bitmap) (hcnt : 0 < cnt) :
    ScanResult btmp cnt (bitmapScan btmp cnt) := by
  have hstart : ScanInv btmp cnt (.byte 0 0) := ⟨Nat.zero_le _, .start hcnt⟩
  have hfuel : ScanPc.left btmp (.byte 0 0) < 11 * btmp.btmpBytesLen.toNat + 2 := by
    simp only [ScanPc.left]
    omega
  obtain ⟨r, hr, hresult⟩ := scanRun_inv hstart hfuel
  unfold bitmapScan
  rw [hr]
  exact hresult

end Scan

/-! ## Setting bits -/

/-- `bitmap_set` -/
def bitmapSet (btmp : Bitmap) (bitIdx : Nat) (val : UInt8) : Except Panic Bitmap := do
  assert (val == 0 || val == 1) .bitmapSetVal
  let byteIdx := bitIdx / 8
  assert (byteIdx < btmp.btmpBytesLen.toNat) .bitmapSetIndex
  let mask : UInt8 := 0x01 <<< UInt8.ofNat (bitIdx % 8)
  let byte := if val != 0 then btmp.bytes byteIdx ||| mask else btmp.bytes byteIdx &&& ~~~mask
  return { btmp with bytes := Function.update btmp.bytes byteIdx byte }

/-- The loop of `vaddr_get` that takes `cnt` bits from `start` on. -/
def setBits (start : Nat) : Nat → Bitmap → Except Panic Bitmap
  | 0, btmp => .ok btmp
  | cnt + 1, btmp => do
    let btmp ← bitmapSet btmp start 1
    setBits (start + 1) cnt btmp

/-- `btmp'` is `btmp` with other contents. -/
structure SameArea (btmp btmp' : Bitmap) : Prop where
  len : btmp'.btmpBytesLen = btmp.btmpBytesLen
  bits : btmp'.bits = btmp.bits

theorem SameArea.refl (btmp : Bitmap) : SameArea btmp btmp := ⟨rfl, rfl⟩

theorem SameArea.trans {b₁ b₂ b₃ : Bitmap} (h : SameArea b₁ b₂) (h' : SameArea b₂ b₃) :
    SameArea b₁ b₃ := ⟨h'.len.trans h.len, h'.bits.trans h.bits⟩

theorem SameArea.size {btmp btmp' : Bitmap} (h : SameArea btmp btmp') : btmp'.size = btmp.size := by
  rw [Bitmap.size, Bitmap.size, h.len]

/-- The mask of one bit. -/
theorem testBit_mask {j k : Nat} (hj : j < 8) (hk : k < 8) :
    ((0x01 : UInt8) <<< UInt8.ofNat j).toNat.testBit k = decide (k = j) := by
  have hall : ∀ j k : Fin 8,
      ((0x01 : UInt8) <<< UInt8.ofNat j).toNat.testBit k = decide (k.val = j.val) := by decide
  exact hall ⟨j, hj⟩ ⟨k, hk⟩

/-- The byte and the mask of a bit inside the bitmap. -/
theorem bitmapSet_eq {btmp : Bitmap} {i : Nat} (hi : i < btmp.size) :
    bitmapSet btmp i 1 = .ok { btmp with
      bytes := Function.update btmp.bytes (i / 8)
        (btmp.bytes (i / 8) ||| (0x01 : UInt8) <<< UInt8.ofNat (i % 8)) } := by
  have hbyte : i / 8 < btmp.btmpBytesLen.toNat := by
    unfold Bitmap.size at hi
    omega
  have hval : ((1 : UInt8) == 0 || (1 : UInt8) == 1) = true := rfl
  have hone : ((1 : UInt8) != 0) = true := rfl
  simp only [bitmapSet, hval, hbyte, decide_true, assert_true, ok_bind, hone, if_true, pure_eq_ok]

/-- **`bitmap_set` with 1** inside the bitmap sets that bit and no other. -/
theorem bitmapSet_one (btmp : Bitmap) {i : Nat} (hi : i < btmp.size) :
    ∃ btmp', bitmapSet btmp i 1 = .ok btmp' ∧ SameArea btmp btmp' ∧
      btmp'.get = mark btmp.get ⟨i, 1⟩ := by
  refine ⟨_, bitmapSet_eq hi, ⟨rfl, rfl⟩, ?_⟩
  funext k
  unfold Bitmap.get mark
  dsimp only
  by_cases hk : k / 8 = i / 8
  · rw [hk, Function.update_self, UInt8.toNat_or, Nat.testBit_or,
      testBit_mask (Nat.mod_lt i (by decide)) (Nat.mod_lt k (by decide))]
    congr 1
    rw [decide_eq_decide, Run.mem_one]
    omega
  · have hne : ¬ k ∈ (⟨i, 1⟩ : Run) := by
      rw [Run.mem_one]
      intro heq
      exact hk (by rw [heq])
    rw [Function.update_of_ne hk, decide_eq_false hne, Bool.or_false]

/-- A bit outside the bitmap fails the assertion. -/
theorem bitmapSet_error {btmp : Bitmap} {i : Nat} (hi : btmp.size ≤ i) :
    bitmapSet btmp i 1 = .error .bitmapSetIndex := by
  have hbyte : ¬ i / 8 < btmp.btmpBytesLen.toNat := by
    unfold Bitmap.size at hi
    omega
  have hval : ((1 : UInt8) == 0 || (1 : UInt8) == 1) = true := rfl
  simp only [bitmapSet, hval, hbyte, decide_false, assert_true, ok_bind, assert_false, error_bind]

theorem mark_succ (used : Nat → Bool) (start cnt : Nat) :
    mark (mark used ⟨start, 1⟩) ⟨start + 1, cnt⟩ = mark used ⟨start, cnt + 1⟩ := by
  funext i
  unfold mark
  rw [Bool.or_assoc, ← Bool.decide_or]
  congr 1
  rw [decide_eq_decide, Run.mem_one, ← Run.mem_succ]

/-- **The loop** takes exactly the bits of the run. -/
theorem setBits_spec {start cnt : Nat} {btmp : Bitmap} (hbound : start + cnt ≤ btmp.size) :
    ∃ btmp', setBits start cnt btmp = .ok btmp' ∧ SameArea btmp btmp' ∧
      btmp'.get = mark btmp.get ⟨start, cnt⟩ := by
  induction cnt generalizing start btmp with
  | zero =>
    refine ⟨btmp, rfl, .refl btmp, ?_⟩
    funext i
    have hnot : ¬ i ∈ (⟨start, 0⟩ : Run) := fun hi => absurd hi.2 (Nat.not_lt.mpr hi.1)
    rw [mark, decide_eq_false hnot, Bool.or_false]
  | succ cnt ih =>
    obtain ⟨btmp₁, hset, harea, hget⟩ := bitmapSet_one btmp (show start < btmp.size by omega)
    have hbound₁ : start + 1 + cnt ≤ btmp₁.size := by
      rw [harea.size]
      omega
    obtain ⟨btmp', hrest, harea', hget'⟩ := ih hbound₁
    refine ⟨btmp', ?_, harea.trans harea', ?_⟩
    · rw [setBits, hset, ok_bind, hrest]
    · rw [hget', hget, mark_succ]

end OsKernel
