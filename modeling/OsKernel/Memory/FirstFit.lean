import OsKernel.Memory.Bitmap

/-!
# lib/kernel/bitmap.c: bitmap_scan in machine integers

The locals of `bitmap_scan` are 8-bit and 32-bit integers, and its result is an `int`. Below 2^28
bytes none of them overflows, so the scan is that of `Memory.Bitmap`.

- `scanRegsStep`, `bitmapScanInt`: the scan in machine integers.
- `scanRegsStep_simulates`, `bitmapScanInt_eq`: it does what `bitmapScan` does.
- `plainScan`: a scan bit by bit, with the same result.
- `bitmapSet_other`: what a later `bitmap_set` leaves alone.
- `bitmapScan_firstFit`: the first run that fits, and who gets it.
-/

namespace OsKernel

open Lib

/-! ## The scan -/

/-- Control points of `bitmap_scan`, with its local variables. -/
inductive ScanRegs where
  /-- `while (byte_index < btmp->btmp_bytes_len)`, and the test of the byte -/
  | byte (byteIndex unusedCnt : UInt32)
  /-- `byte_temp = btmp->bits[byte_index]` -/
  | load (byteIndex unusedCnt : UInt32)
  /-- the body of the `for` loop -/
  | bit (byteIndex : UInt32) (bitsIndex byteTemp : UInt8) (unusedCnt : UInt32)

/-- One statement of `bitmap_scan`. -/
def scanRegsStep (btmp : Bitmap) (cnt : UInt32) : ScanRegs → ScanRegs ⊕ Int32
  | .byte i unused =>
    if i < btmp.btmpBytesLen then
      if btmp.bytes i.toNat ≠ 0xff then .inl (.load i unused) else .inl (.byte (i + 1) 0)
    else .inr (-1)
  | .load i unused => .inl (.bit i 0 (btmp.bytes i.toNat) unused)
  | .bit i j temp unused =>
    if j < 8 then
      if temp &&& 0x01 ≠ 0 then .inl (.bit i (j + 1) (temp >>> 1) 0)
      else if unused + 1 = cnt then .inr (i * 8 + j.toUInt32 - cnt + 1).toInt32
      else .inl (.bit i (j + 1) (temp >>> 1) (unused + 1))
    else .inl (.byte (i + 1) unused)

/-- Execute statements of the scan. -/
def scanRegsRun (btmp : Bitmap) (cnt : UInt32) : Nat → ScanRegs → Option Int32
  | 0, _ => none
  | fuel + 1, pc =>
    match scanRegsStep btmp cnt pc with
    | .inl pc => scanRegsRun btmp cnt fuel pc
    | .inr r => some r

/-- `bitmap_scan`, as far as the given number of statements. -/
def bitmapScanInt (fuel : Nat) (btmp : Bitmap) (cnt : UInt32) : Option Int32 :=
  scanRegsRun btmp cnt fuel (.byte 0 0)

/-! ## The two scans agree -/

/-- The control point with its variables as numbers. -/
def ScanRegs.abs : ScanRegs → ScanPc
  | .byte i unused => .byte i.toNat unused.toNat
  | .load i unused => .load i.toNat unused.toNat
  | .bit i j temp unused => .bit i.toNat j.toNat temp unused.toNat

/-- The `int` that stands for a result. -/
def scanInt : Option Nat → Int32
  | none => -1
  | some s => Int32.ofNat s

section Simulation

variable {btmp : Bitmap} {cnt : UInt32}

theorem counter_succ {a : UInt32} (h : a.toNat < 2 ^ 31) : (a + 1).toNat = a.toNat + 1 := by
  rw [UInt32.toNat_add, UInt32.toNat_one]
  omega

/-- The subtraction at the last bit of a run. -/
theorem scan_result {i j cnt unused : Nat} (hcnt : unused + 1 = cnt) (hle : unused ≤ i * 8 + j) :
    (UInt32.ofNat i * 8 + UInt32.ofNat j - UInt32.ofNat cnt + 1).toInt32 =
      Int32.ofNat (i * 8 + j + 1 - cnt) := by
  have hsplit : UInt32.ofNat (i * 8 + j) =
      UInt32.ofNat (i * 8 + j + 1 - cnt) + UInt32.ofNat unused := by
    rw [← UInt32.ofNat_add]
    congr 1
    omega
  have hsum : UInt32.ofNat i * 8 + UInt32.ofNat j - UInt32.ofNat cnt + 1 =
      UInt32.ofNat (i * 8 + j + 1 - cnt) := by
    rw [UInt32.ofNat_add, UInt32.ofNat_mul] at hsplit
    have height : UInt32.ofNat 8 = 8 := rfl
    have hone : UInt32.ofNat cnt = UInt32.ofNat unused + 1 := by
      rw [← hcnt, UInt32.ofNat_add]
      rfl
    rw [height] at hsplit
    rw [hsplit, hone]
    grind
  rw [hsum]
  rfl

/-- **One statement** does the same in machine integers, with what the scan knows. -/
theorem scanRegsStep_simulates (hlen : btmp.btmpBytesLen.toNat < 2 ^ 28) {pc : ScanRegs}
    (h : ScanInv btmp cnt.toNat pc.abs) :
    (∃ pc', scanRegsStep btmp cnt pc = .inl pc' ∧
      scanStep btmp cnt.toNat pc.abs = .inl pc'.abs) ∨
    ∃ r, scanRegsStep btmp cnt pc = .inr (scanInt r) ∧ scanStep btmp cnt.toNat pc.abs = .inr r := by
  cases pc with
  | byte i unused =>
    have hlt : i < btmp.btmpBytesLen ↔ i.toNat < btmp.btmpBytesLen.toNat := UInt32.lt_iff_toNat_lt
    simp only [scanRegsStep, ScanRegs.abs, scanStep, hlt]
    by_cases hi : i.toNat < btmp.btmpBytesLen.toNat
    · rw [if_pos hi, if_pos hi]
      by_cases hfull : btmp.bytes i.toNat ≠ 0xff
      · rw [if_pos hfull, if_pos hfull]
        exact Or.inl ⟨_, rfl, rfl⟩
      · rw [if_neg hfull, if_neg hfull]
        have hnext : (i + 1).toNat = i.toNat + 1 := counter_succ (by omega)
        exact Or.inl ⟨_, rfl, by simp only [hnext, UInt32.toNat_zero]⟩
    · rw [if_neg hi, if_neg hi]
      exact Or.inr ⟨none, rfl, rfl⟩
  | load i unused => exact Or.inl ⟨_, rfl, rfl⟩
  | bit i j temp unused =>
    obtain ⟨hi, hj8, -, hscan⟩ := h
    have hunused := hscan.le
    have hcount := hscan.lt
    have hj : j < 8 ↔ j.toNat < 8 := UInt8.lt_iff_toNat_lt
    have hcnt : unused + 1 = cnt ↔ unused.toNat + 1 = cnt.toNat := by
      rw [← UInt32.toNat_inj, counter_succ (by omega)]
    simp only [scanRegsStep, ScanRegs.abs, scanStep, hj, hcnt]
    by_cases hlt : j.toNat < 8
    · have hnext : (j + 1).toNat = j.toNat + 1 := by
        rw [UInt8.toNat_add, UInt8.toNat_one]
        omega
      rw [if_pos hlt, if_pos hlt]
      by_cases hbit : temp &&& 0x01 ≠ 0
      · rw [if_pos hbit, if_pos hbit]
        exact Or.inl ⟨_, rfl, by simp only [hnext, UInt32.toNat_zero]⟩
      · rw [if_neg hbit, if_neg hbit]
        by_cases hlast : unused.toNat + 1 = cnt.toNat
        · rw [if_pos hlast, if_pos hlast]
          refine Or.inr ⟨_, ?_, rfl⟩
          have hresult := scan_result hlast hunused
          have hoff : UInt32.ofNat j.toNat = j.toUInt32 := by
            rw [← UInt32.toNat_inj]
            exact UInt32.toNat_ofNat_of_lt' (Nat.lt_trans hlt (by decide))
          rw [UInt32.ofNat_toNat, UInt32.ofNat_toNat, hoff] at hresult
          rw [scanInt, ← hresult]
        · rw [if_neg hlast, if_neg hlast]
          have hone : (unused + 1).toNat = unused.toNat + 1 := counter_succ (by omega)
          exact Or.inl ⟨_, rfl, by simp only [hnext, hone]⟩
    · rw [if_neg hlt, if_neg hlt]
      have hnext : (i + 1).toNat = i.toNat + 1 := counter_succ (by omega)
      exact Or.inl ⟨_, rfl, by simp only [hnext]⟩

/-- **The whole scan** ends with the same result. -/
theorem scanRegsRun_simulates (hlen : btmp.btmpBytesLen.toNat < 2 ^ 28) {pc : ScanRegs} {fuel : Nat}
    (h : ScanInv btmp cnt.toNat pc.abs) :
    scanRegsRun btmp cnt fuel pc = (scanRun btmp cnt.toNat fuel pc.abs).map scanInt := by
  induction fuel generalizing pc with
  | zero => rfl
  | succ fuel ih =>
    rw [scanRegsRun, scanRun]
    rcases scanRegsStep_simulates hlen h with ⟨pc', hstep, habs⟩ | ⟨r, hstep, habs⟩
    · have hinv : ScanInv btmp cnt.toNat pc'.abs := by
        rcases scanStep_inv h with ⟨pc'', hstep', hinv, -⟩ | ⟨r, hstep', -⟩
        · rw [habs] at hstep'
          cases hstep'
          exact hinv
        · rw [habs] at hstep'
          cases hstep'
      rw [hstep, habs]
      exact ih hinv
    · rw [hstep, habs]
      rfl

/-- More fuel does not change a result. -/
theorem scanRun_mono {n fuel fuel' : Nat} {pc : ScanPc} {r : Option Nat}
    (h : scanRun btmp n fuel pc = some r) (hle : fuel ≤ fuel') : scanRun btmp n fuel' pc = some r := by
  induction fuel generalizing fuel' pc with
  | zero => cases h
  | succ fuel ih =>
    obtain ⟨k, rfl⟩ := Nat.exists_eq_succ_of_ne_zero (Nat.ne_of_gt (Nat.zero_lt_of_lt hle))
    rw [scanRun] at h ⊢
    cases hstep : scanStep btmp n pc with
    | inl pc' =>
      rw [hstep] at h
      exact ih h (Nat.le_of_succ_le_succ hle)
    | inr r' =>
      rw [hstep] at h
      exact h

/-- **`bitmap_scan`** ends, and returns what `bitmapScan` does. -/
theorem bitmapScanInt_eq (hlen : btmp.btmpBytesLen.toNat < 2 ^ 28) (hcnt : 0 < cnt.toNat)
    {fuel : Nat} (hfuel : 11 * btmp.btmpBytesLen.toNat + 2 ≤ fuel) :
    bitmapScanInt fuel btmp cnt = some (scanInt (bitmapScan btmp cnt.toNat)) := by
  have hstart : ScanInv btmp cnt.toNat (ScanRegs.byte 0 0).abs := ⟨Nat.zero_le _, .start hcnt⟩
  have hleft : (ScanRegs.byte 0 0).abs.left btmp < 11 * btmp.btmpBytesLen.toNat + 2 := by
    simp only [ScanRegs.abs, ScanPc.left, UInt32.toNat_zero]
    omega
  obtain ⟨r, hr, -⟩ := scanRun_inv hstart hleft
  have hscan : bitmapScan btmp cnt.toNat = r := by
    rw [bitmapScan]
    exact congrArg Option.join hr
  rw [bitmapScanInt, scanRegsRun_simulates hlen hstart, scanRun_mono hr hfuel, hscan]
  rfl

end Simulation

/-! ## Bit by bit -/

/-- `bitmap_scan_test` -/
def bitmapScanTest (btmp : Bitmap) (bitIdx : Nat) : Bool :=
  btmp.bytes (bitIdx / 8) &&& (0x01 : UInt8) <<< UInt8.ofNat (bitIdx % 8) ≠ 0

/-- A scan that tests every bit, with the number of bits left. -/
def plainScan (btmp : Bitmap) (cnt : Nat) : Nat → Nat → Nat → Option Nat
  | 0, _, _ => none
  | left + 1, bitIdx, unused =>
    if bitmapScanTest btmp bitIdx then plainScan btmp cnt left (bitIdx + 1) 0
    else if unused + 1 = cnt then some (bitIdx + 1 - cnt)
    else plainScan btmp cnt left (bitIdx + 1) (unused + 1)

section Plain

variable {btmp : Bitmap} {cnt : Nat}

theorem mask_toNat {j : Nat} (hj : j < 8) : ((0x01 : UInt8) <<< UInt8.ofNat j).toNat = 2 ^ j := by
  have hall : ∀ j : Fin 8, ((0x01 : UInt8) <<< UInt8.ofNat j).toNat = 2 ^ j.val := by decide
  exact hall ⟨j, hj⟩

theorem bitmapScanTest_eq (btmp : Bitmap) (i : Nat) : bitmapScanTest btmp i = btmp.get i := by
  have hmask := mask_toNat (Nat.mod_lt i (show 8 > 0 by decide))
  rw [Bool.eq_iff_iff, bitmapScanTest, decide_eq_true_iff, ne_eq, ← UInt8.toNat_inj, UInt8.toNat_and,
    hmask, Nat.and_two_pow, Bitmap.get, UInt8.toNat_zero]
  have hpos := Nat.two_pow_pos (i % 8)
  cases Nat.testBit (btmp.bytes (i / 8)).toNat (i % 8) with
  | false => simp
  | true => simp

/-- What is left of the plain scan gives a right result. -/
theorem plainScan_result {left bitIdx unused : Nat} (hsize : bitIdx + left = btmp.size)
    (h : Scanned btmp.get cnt bitIdx unused) :
    ScanResult btmp cnt (plainScan btmp cnt left bitIdx unused) := by
  induction left generalizing bitIdx unused with
  | zero =>
    intro s hs
    exact h.missed s (by omega)
  | succ left ih =>
    rw [plainScan, bitmapScanTest_eq]
    by_cases hused : btmp.get bitIdx = true
    · rw [if_pos hused]
      exact ih (by omega) (h.occupied hused)
    · have hfree : btmp.get bitIdx = false := Bool.eq_false_iff.mpr hused
      rw [if_neg hused]
      by_cases hcnt : unused + 1 = cnt
      · rw [if_pos hcnt]
        exact h.found hfree hcnt (by omega)
      · rw [if_neg hcnt]
        exact ih (by omega) (h.vacant hfree hcnt)

/-- There is only one right result. -/
theorem ScanResult.unique {r r' : Option Nat} (h : ScanResult btmp cnt r)
    (h' : ScanResult btmp cnt r') : r = r' := by
  cases r with
  | none =>
    cases r' with
    | none => rfl
    | some s' => exact absurd h'.clear (h s' h'.bound)
  | some s =>
    cases r' with
    | none => exact absurd h.clear (h' s h.bound)
    | some s' =>
      have hle : ¬ s' < s := fun hlt => h.first s' hlt h'.clear
      have hge : ¬ s < s' := fun hlt => h'.first s hlt h.clear
      rw [show s = s' by omega]

/-- **Skipping full bytes** does not change the result. -/
theorem bitmapScan_plain (hcnt : 0 < cnt) :
    bitmapScan btmp cnt = plainScan btmp cnt btmp.size 0 0 :=
  (bitmapScan_spec btmp hcnt).unique (plainScan_result (Nat.zero_add _) (.start hcnt))

end Plain

/-! ## The bits of a run -/

/-- Calls of `bitmap_set`, each with its index and value. -/
def bitmapSets : List (Nat × UInt8) → Bitmap → Except Panic Bitmap
  | [], btmp => .ok btmp
  | (bitIdx, val) :: sets, btmp => do
    let btmp ← bitmapSet btmp bitIdx val
    bitmapSets sets btmp

section Sets

variable {btmp btmp' : Bitmap} {i : Nat} {val : UInt8}

theorem testBit_not_mask {j k : Nat} (hj : j < 8) (hk : k < 8) :
    (~~~((0x01 : UInt8) <<< UInt8.ofNat j)).toNat.testBit k = !decide (k = j) := by
  have hall : ∀ j k : Fin 8,
      (~~~((0x01 : UInt8) <<< UInt8.ofNat j)).toNat.testBit k = !decide (k.val = j.val) := by decide
  exact hall ⟨j, hj⟩ ⟨k, hk⟩

/-- The byte that `bitmap_set` stores. -/
def storedByte (btmp : Bitmap) (i : Nat) (val : UInt8) : UInt8 :=
  if val != 0 then btmp.bytes (i / 8) ||| (0x01 : UInt8) <<< UInt8.ofNat (i % 8)
  else btmp.bytes (i / 8) &&& ~~~((0x01 : UInt8) <<< UInt8.ofNat (i % 8))

theorem bitmapSet_ok (h : bitmapSet btmp i val = .ok btmp') :
    btmp' = { btmp with bytes := Function.update btmp.bytes (i / 8) (storedByte btmp i val) } := by
  obtain ⟨-, -, h⟩ := bind_eq_ok.mp h
  obtain ⟨-, -, h⟩ := bind_eq_ok.mp h
  exact (Except.ok.inj h).symm

/-- **`bitmap_set`** does not clear a bit, unless it is told to clear this one. -/
theorem bitmapSet_keeps (h : bitmapSet btmp i val = .ok btmp') {k : Nat}
    (hk : k = i → val ≠ 0) (hused : btmp.get k = true) : btmp'.get k = true := by
  rw [bitmapSet_ok h]
  unfold Bitmap.get at hused ⊢
  dsimp only
  by_cases hbyte : k / 8 = i / 8
  · rw [hbyte] at hused
    rw [hbyte, Function.update_self, storedByte]
    split
    · rw [UInt8.toNat_or, Nat.testBit_or, hused, Bool.true_or]
    · next hzero =>
      have hval : val = 0 := by simpa using hzero
      have hne : k % 8 ≠ i % 8 := by
        intro heq
        exact hk (by omega) hval
      rw [UInt8.toNat_and, Nat.testBit_and, hused,
        testBit_not_mask (Nat.mod_lt i (by decide)) (Nat.mod_lt k (by decide)), decide_eq_false hne]
      rfl
  · rw [Function.update_of_ne hbyte, hused]

/-- A run in use stays in use until one of its bits is cleared. -/
theorem bitmapSets_used {sets : List (Nat × UInt8)} {r : Run}
    (h : bitmapSets sets btmp = .ok btmp') (hkeep : ∀ p ∈ sets, p.1 ∈ r → p.2 ≠ 0)
    (hused : r.Used btmp.get) : r.Used btmp'.get := by
  induction sets generalizing btmp with
  | nil =>
    cases h
    exact hused
  | cons p sets ih =>
    obtain ⟨btmp₁, hset, hrest⟩ := bind_eq_ok.mp h
    refine ih hrest (fun q hq => hkeep q (List.mem_cons_of_mem _ hq)) ?_
    intro k hk
    apply bitmapSet_keeps hset _ (hused k hk)
    rintro rfl
    exact hkeep p List.mem_cons_self hk

theorem bitmapSets_area {sets : List (Nat × UInt8)} (h : bitmapSets sets btmp = .ok btmp') :
    SameArea btmp btmp' := by
  induction sets generalizing btmp with
  | nil =>
    cases h
    exact .refl _
  | cons p sets ih =>
    obtain ⟨btmp₁, hset, hrest⟩ := bind_eq_ok.mp h
    have harea : SameArea btmp btmp₁ := by
      rw [bitmapSet_ok hset]
      exact ⟨rfl, rfl⟩
    exact harea.trans (ih hrest)

end Sets

/-! ## First fit -/

/-- The call returns: from some number of statements on it has come to its end. -/
def ScanReturns (btmp : Bitmap) (cnt : UInt32) (r : Int32) : Prop :=
  ∃ n, ∀ fuel, n ≤ fuel → bitmapScanInt fuel btmp cnt = some r

/-- `bitmap_set` on the bits of the run changes exactly these, and until one of them is cleared no
scan returns a run that overlaps them. -/
def RunTaken (btmp : Bitmap) (r : Run) : Prop :=
  ∃ btmp', setBits r.start r.len btmp = .ok btmp' ∧
    (∀ i, btmp'.get i ≠ btmp.get i ↔ i ∈ r) ∧
    ∀ sets btmp'', bitmapSets sets btmp' = .ok btmp'' → (∀ p ∈ sets, p.1 ∈ r → p.2 ≠ 0) →
      ∀ (cnt : UInt32) (res : Int32), 0 < cnt.toNat → ScanReturns btmp'' cnt res → res ≠ -1 →
        Run.Disjoint ⟨res.toInt.toNat, cnt.toNat⟩ r

section FirstFit

variable {btmp : Bitmap} {cnt : UInt32}

theorem scanReturns_iff (hlen : btmp.btmpBytesLen.toNat < 2 ^ 28) (hcnt : 0 < cnt.toNat) {r : Int32} :
    ScanReturns btmp cnt r ↔ r = scanInt (bitmapScan btmp cnt.toNat) := by
  constructor
  · rintro ⟨n, hn⟩
    have hr := hn (max n (11 * btmp.btmpBytesLen.toNat + 2)) (Nat.le_max_left ..)
    rw [bitmapScanInt_eq hlen hcnt (Nat.le_max_right ..)] at hr
    exact (Option.some.inj hr).symm
  · rintro rfl
    exact ⟨_, fun fuel hfuel => bitmapScanInt_eq hlen hcnt hfuel⟩

theorem scanInt_some {s : Nat} (hs : s < 2 ^ 31) :
    scanInt (some s) ≠ -1 ∧ (scanInt (some s)).toInt = s := by
  have hint : (scanInt (some s)).toInt = s := Int32.toInt_ofNat_of_lt hs
  refine ⟨?_, hint⟩
  intro heq
  have hneg : (scanInt (some s)).toInt = -1 := by rw [heq]; rfl
  omega

/-- The bits of a first fit are free to be taken. -/
theorem runTaken {s : Nat} (hlen : btmp.btmpBytesLen.toNat < 2 ^ 28)
    (hfit : FirstFit btmp.get btmp.size cnt.toNat s) : RunTaken btmp ⟨s, cnt.toNat⟩ := by
  obtain ⟨btmp', hset, harea, hget⟩ := setBits_spec hfit.bound
  refine ⟨btmp', hset, ?_, ?_⟩
  · intro i
    rw [hget, mark]
    by_cases hi : i ∈ (⟨s, cnt.toNat⟩ : Run)
    · simp [hi, hfit.clear i hi]
    · simp [hi]
  · intro sets btmp'' hsets hkeep cnt' res hcnt' hres hne
    have hused : Run.Used btmp''.get ⟨s, cnt.toNat⟩ := by
      apply bitmapSets_used hsets hkeep
      rw [hget]
      exact mark_used _ _
    have harea' := harea.trans (bitmapSets_area hsets)
    have hlen' : btmp''.btmpBytesLen.toNat < 2 ^ 28 := by rw [harea'.len]; exact hlen
    rw [scanReturns_iff hlen' hcnt'] at hres
    have hresult := bitmapScan_spec btmp'' hcnt'
    cases hscan : bitmapScan btmp'' cnt'.toNat with
    | none =>
      rw [hscan] at hres
      exact absurd hres hne
    | some s' =>
      rw [hscan] at hresult hres
      have hbound := hresult.bound
      have hplace : res.toInt.toNat = s' := by
        rw [hres, (scanInt_some (by unfold Bitmap.size at hbound; omega)).2, Int.toNat_natCast]
      rw [hplace]
      exact hresult.clear.disjoint hused

/-- **First fit.** `bitmap_scan` returns the start of the first run of `cnt` clear bits, or `-1` if
there is none, as a scan bit by bit would do; the run can be taken. -/
theorem bitmapScan_firstFit (hlen : btmp.btmpBytesLen.toNat < 2 ^ 28) (hcnt : 0 < cnt.toNat) :
    ∃ r, ScanReturns btmp cnt r ∧
      (r = -1 ↔ ∀ s, s + cnt.toNat ≤ btmp.size → ¬ Run.Clear btmp.get ⟨s, cnt.toNat⟩) ∧
      (r ≠ -1 → ∃ s : Nat, r.toInt = s ∧ FirstFit btmp.get btmp.size cnt.toNat s ∧
        RunTaken btmp ⟨s, cnt.toNat⟩) ∧
      r = scanInt (plainScan btmp cnt.toNat btmp.size 0 0) := by
  have hresult := bitmapScan_spec btmp hcnt
  refine ⟨_, (scanReturns_iff hlen hcnt).mpr rfl, ?_, ?_, by rw [bitmapScan_plain hcnt]⟩
  · cases hscan : bitmapScan btmp cnt.toNat with
    | none =>
      rw [hscan] at hresult
      exact ⟨fun _ => hresult, fun _ => rfl⟩
    | some s =>
      rw [hscan] at hresult
      have hbound := hresult.bound
      have hne := (scanInt_some (s := s) (by unfold Bitmap.size at hbound; omega)).1
      exact ⟨fun heq => absurd heq hne, fun hnone => absurd hresult.clear (hnone s hbound)⟩
  · cases hscan : bitmapScan btmp cnt.toNat with
    | none => exact fun hne => absurd rfl hne
    | some s =>
      intro _
      rw [hscan] at hresult
      have hbound := hresult.bound
      have hint := (scanInt_some (s := s) (by unfold Bitmap.size at hbound; omega)).2
      exact ⟨s, hint, hresult, runTaken hlen hresult⟩

/-- Two bytes, the first of them full. -/
theorem bitmapScan_firstFit_two :
    ∃ r, ScanReturns ⟨2, 0, fun i => if i = 0 then 0xff else 0⟩ 3 r ∧
      r = scanInt (plainScan ⟨2, 0, fun i => if i = 0 then 0xff else 0⟩ 3 16 0 0) := by
  obtain ⟨r, hr, -, -, hplain⟩ := @bitmapScan_firstFit ⟨2, 0, fun i => if i = 0 then 0xff else 0⟩ 3
    (by decide) (by decide)
  exact ⟨r, hr, hplain⟩

end FirstFit

end OsKernel
