import Mathlib

/-!
# lib/kernel/print.S

`put_char` and `put_str` on the text mode hardware. `put_char` is a machine whose steps are the
accesses to the ports and to the video memory, each with the register instructions up to the next
one, so that an interrupt between two instructions falls between two steps.

- `Vga`: the cursor's registers behind their index port, and the text buffer.
- `putCharStep`: one step; `putChar`: a call that is not interrupted.
- `putStr`: a call for a string.

Stores to the buffer go through `gs`, whose descriptor in boot/loader.S has the limit `0x7fff`. The
offset is the 16-bit register `bx`, so it can be beyond that.
-/

namespace OsKernel

/-! ## The hardware -/

/-- The cursor's two registers, the index that selects one of them, and the memory behind the
selector of the video segment. `writes` is auxiliary: the offsets the code has stored to, the last
one first. -/
@[ext] structure Vga where
  index : UInt8
  cursorHigh : UInt8
  cursorLow : UInt8
  text : Nat → UInt8
  writes : List Nat

namespace Vga

/-- `out` to port `0x3d4` -/
def outIndex (v : Vga) (al : UInt8) : Vga := { v with index := al }

/-- `out` to port `0x3d5` -/
def outData (v : Vga) (al : UInt8) : Vga :=
  if v.index = 0x0e then { v with cursorHigh := al }
  else if v.index = 0x0f then { v with cursorLow := al }
  else v

/-- `in` from port `0x3d5` -/
def inData (v : Vga) : UInt8 :=
  if v.index = 0x0e then v.cursorHigh
  else if v.index = 0x0f then v.cursorLow
  else 0

/-- The position of the cursor. -/
def cursor (v : Vga) : UInt16 := v.cursorHigh.toUInt16 <<< 8 ||| v.cursorLow.toUInt16

/-- A store of a byte. -/
def store (v : Vga) (offset : Nat) (byte : UInt8) : Vga :=
  { v with text := Function.update v.text offset byte, writes := offset :: v.writes }

/-- A store the segment's limit forbids. -/
def refused (v : Vga) (offset : Nat) : Vga := { v with writes := offset :: v.writes }

/-- `movsd`: four bytes from the offset `src` to the offset `dst`. -/
def movsd (v : Vga) (src dst : Nat) : Vga :=
  { v with
    text := fun a => if dst ≤ a ∧ a < dst + 4 then v.text (src + (a - dst)) else v.text a
    writes := (dst + 3) :: (dst + 2) :: (dst + 1) :: dst :: v.writes }

end Vga

/-- The limit of the segment at `VIDEO_DESC`: eight units of 4 KB. -/
def videoLimit : Nat := 0x7fff

/-- The address of the text buffer. -/
def videoBase : Nat := 0xc00b8000

/-! ## put_char -/

/-- Control points of `put_char`, with the registers that are live there. -/
inductive PutCharPc where
  /-- `out` of `0x0e` to the index port -/
  | start
  | inHigh
  /-- `out` of `0x0f` to the index port -/
  | indexLow (ah : UInt8)
  | inLow (ah : UInt8)
  /-- `mov byte [gs:bx], 0x20` -/
  | backspaceChar (bx : UInt16)
  /-- `mov byte [gs:bx], 0x07` -/
  | backspaceAttr (bx : UInt16)
  /-- `mov [gs:bx], cl` -/
  | otherChar (bx : UInt16)
  /-- `mov byte [gs:bx], 0x07` -/
  | otherAttr (bx : UInt16)
  /-- `rep movsd` -/
  | rollScreen (ecx esi edi : Nat)
  /-- `mov word [gs:ebx], 0x720` -/
  | cls (ebx ecx : Nat)
  /-- `.set_cursor`: `out` of `0x0e` to the index port -/
  | setIndexHigh (bx : UInt16)
  | setHigh (bx : UInt16)
  /-- `out` of `0x0f` to the index port -/
  | setIndexLow (bx : UInt16)
  | setLow (bx : UInt16)
deriving DecidableEq, Repr

/-- What a step does. -/
inductive PutCharAction where
  | goto (v : Vga) (pc : PutCharPc)
  | ret (v : Vga)
  /-- a general protection exception -/
  | fault (v : Vga)

/-- `cmp bx, 2000` and `jl`, which compares signed numbers. -/
def onScreen (bx : UInt16) : Bool := bx.toInt16 < 2000

/-- From `.is_line_feed` to the next access. -/
def lineFeed (bx : UInt16) : PutCharPc :=
  let dx := bx % 80
  let bx := bx - dx
  let bx := bx + 80
  if onScreen bx then .setIndexHigh bx else .rollScreen 960 0xc00b80a0 0xc00b8000

/-- From the end of the reads of the cursor to the next access. -/
def dispatch (cl : UInt8) (bx : UInt16) : PutCharPc :=
  if cl = 0x0d then lineFeed bx
  else if cl = 0x0a then lineFeed bx
  else if cl = 0x08 then .backspaceChar ((bx - 1) <<< 1)
  else .otherChar (bx <<< 1)

/-- From the store of the attribute to the next access. -/
def afterOther (bx : UInt16) : PutCharPc :=
  let bx := bx >>> 1
  let bx := bx + 1
  if onScreen bx then .setIndexHigh bx else lineFeed bx

/-- A store through `gs` at a 16-bit offset. -/
def gsStore (v : Vga) (bx : UInt16) (byte : UInt8) (next : PutCharPc) : PutCharAction :=
  if bx.toNat ≤ videoLimit then .goto (v.store bx.toNat byte) next
  else .fault (v.refused bx.toNat)

/-- One step of `put_char` for the byte `cl`. -/
def putCharStep (cl : UInt8) (v : Vga) : PutCharPc → PutCharAction
  | .start => .goto (v.outIndex 0x0e) .inHigh
  | .inHigh => .goto v (.indexLow v.inData)
  | .indexLow ah => .goto (v.outIndex 0x0f) (.inLow ah)
  | .inLow ah => .goto v (dispatch cl (ah.toUInt16 <<< 8 ||| v.inData.toUInt16))
  | .backspaceChar bx => gsStore v bx 0x20 (.backspaceAttr (bx + 1))
  | .backspaceAttr bx => gsStore v bx 0x07 (.setIndexHigh (bx >>> 1))
  | .otherChar bx => gsStore v bx cl (.otherAttr (bx + 1))
  | .otherAttr bx => gsStore v bx 0x07 (afterOther bx)
  | .rollScreen 0 _ _ => .goto v (.cls 3840 80)
  | .rollScreen (ecx + 1) esi edi =>
    .goto (v.movsd (esi - videoBase) (edi - videoBase)) (.rollScreen ecx (esi + 4) (edi + 4))
  | .cls _ 0 => .goto v (.setIndexHigh 1920)
  | .cls ebx (ecx + 1) => .goto ((v.store ebx 0x20).store (ebx + 1) 0x07) (.cls (ebx + 2) ecx)
  | .setIndexHigh bx => .goto (v.outIndex 0x0e) (.setHigh bx)
  | .setHigh bx => .goto (v.outData (bx >>> 8).toUInt8) (.setIndexLow bx)
  | .setIndexLow bx => .goto (v.outIndex 0x0f) (.setLow bx)
  | .setLow bx => .ret (v.outData bx.toUInt8)

/-- How a call ends. -/
inductive PutCharOutcome where
  | returned (v : Vga)
  | faulted (v : Vga)
  | outOfFuel

/-- Execute steps from a control point on. -/
def putCharRun (cl : UInt8) : Nat → Vga → PutCharPc → PutCharOutcome
  | 0, _, _ => .outOfFuel
  | fuel + 1, v, pc =>
    match putCharStep cl v pc with
    | .goto v pc => putCharRun cl fuel v pc
    | .ret v => .returned v
    | .fault v => .faulted v

/-- `put_char`. The loops take 960 and 80 turns, and the rest is less than 20 steps. -/
def putChar (cl : UInt8) (v : Vga) : PutCharOutcome := putCharRun cl 1100 v .start

/-- `put_str`: the bytes from the pointer on, up to the first zero. -/
def putStr : List UInt8 → Vga → PutCharOutcome
  | [], v => .returned v
  | cl :: str, v =>
    if cl = 0 then .returned v
    else
      match putChar cl v with
      | .returned v => putStr str v
      | other => other

/-! ## Steps in a row -/

section

variable {cl : UInt8} {n : Nat} {v v' : Vga} {pc pc' : PutCharPc}

theorem putCharRun_goto (h : putCharStep cl v pc = .goto v' pc') :
    putCharRun cl (n + 1) v pc = putCharRun cl n v' pc' := by
  rw [putCharRun, h]

theorem putCharRun_ret (h : putCharStep cl v pc = .ret v') :
    putCharRun cl (n + 1) v pc = .returned v' := by
  rw [putCharRun, h]

theorem putCharRun_fault (h : putCharStep cl v pc = .fault v') :
    putCharRun cl (n + 1) v pc = .faulted v' := by
  rw [putCharRun, h]

/-- The four accesses that read the cursor. -/
theorem putCharRun_start :
    putCharRun cl (n + 4) v .start = putCharRun cl n (v.outIndex 0x0f) (dispatch cl v.cursor) := by
  rw [putCharRun_goto rfl, putCharRun_goto rfl, putCharRun_goto rfl, putCharRun_goto rfl]
  rfl

/-- The cursor's registers after `.set_cursor`. -/
def Vga.setCursor (v : Vga) (bx : UInt16) : Vga :=
  { v with index := 0x0f, cursorHigh := (bx >>> 8).toUInt8, cursorLow := bx.toUInt8 }

theorem putCharRun_setCursor (bx : UInt16) :
    putCharRun cl (n + 4) v (.setIndexHigh bx) = .returned (v.setCursor bx) := by
  rw [putCharRun_goto rfl, putCharRun_goto rfl, putCharRun_goto rfl, putCharRun_ret rfl]
  rfl

/-! ## The loops -/

/-- `rep movsd` with `ecx` turns left, one row down from the offset `dst`. -/
def Vga.moveRows : Nat → Nat → Vga → Vga
  | 0, _, v => v
  | ecx + 1, dst, v => Vga.moveRows ecx (dst + 4) (v.movsd (dst + 160) dst)

/-- `.cls` with `ecx` turns left. -/
def Vga.clearCells : Nat → Nat → Vga → Vga
  | 0, _, v => v
  | ecx + 1, ebx, v => Vga.clearCells ecx (ebx + 2) ((v.store ebx 0x20).store (ebx + 1) 0x07)

theorem putCharRun_rollScreen (ecx dst : Nat) :
    putCharRun cl (n + ecx + 1) v (.rollScreen ecx (videoBase + (dst + 160)) (videoBase + dst)) =
      putCharRun cl n (v.moveRows ecx dst) (.cls 3840 80) := by
  induction ecx generalizing v dst with
  | zero => exact putCharRun_goto rfl
  | succ ecx ih =>
    have hstep : putCharStep cl v
          (.rollScreen (ecx + 1) (videoBase + (dst + 160)) (videoBase + dst)) =
        .goto (v.movsd (dst + 160) dst)
          (.rollScreen ecx (videoBase + (dst + 4 + 160)) (videoBase + (dst + 4))) := by
      rw [putCharStep, Nat.add_sub_cancel_left, Nat.add_sub_cancel_left]
      congr 2
    exact (putCharRun_goto hstep).trans (ih (dst + 4))

theorem putCharRun_cls (ecx ebx : Nat) :
    putCharRun cl (n + ecx + 5) v (.cls ebx ecx) =
      .returned ((v.clearCells ecx ebx).setCursor 1920) := by
  induction ecx generalizing v ebx with
  | zero => exact (putCharRun_goto rfl).trans (putCharRun_setCursor 1920)
  | succ ecx ih => exact (putCharRun_goto rfl).trans (ih (ebx + 2))

/-- `.roll_screen` -/
def Vga.rollScreen (v : Vga) : Vga := (v.moveRows 960 0).clearCells 80 3840

theorem putCharRun_roll :
    putCharRun cl (n + 1046) v (.rollScreen 960 0xc00b80a0 0xc00b8000) =
      .returned (v.rollScreen.setCursor 1920) :=
  (putCharRun_rollScreen 960 0).trans (putCharRun_cls 80 3840)

/-- Where the cursor goes from a position that may be past the screen. -/
def Vga.moveTo (v : Vga) (bx : UInt16) : Vga :=
  if onScreen bx then v.setCursor bx else v.rollScreen.setCursor 1920

theorem putCharRun_lineFeed (bx : UInt16) :
    putCharRun cl (n + 1046) v (lineFeed bx) = .returned (v.moveTo (bx - bx % 80 + 80)) := by
  unfold lineFeed Vga.moveTo
  dsimp only
  split
  · exact @putCharRun_setCursor cl (n + 1042) v _
  · exact putCharRun_roll

end

/-! ## The register bx -/

theorem Vga.cursor_setCursor (v : Vga) (bx : UInt16) : (v.setCursor bx).cursor = bx := by
  apply UInt16.toNat_inj.mp
  have hlt := bx.toNat_lt
  have hor : (bx.toNat / 256) <<< 8 ||| bx.toNat % 256 = bx.toNat := by
    rw [← Nat.shiftLeft_add_eq_or_of_lt (Nat.mod_lt _ (by decide)), Nat.shiftLeft_eq]
    omega
  have hhigh : bx.toNat / 256 % 256 = bx.toNat / 256 := Nat.mod_eq_of_lt (by omega)
  have hword : (bx.toNat / 256) <<< 8 % 65536 = (bx.toNat / 256) <<< 8 := by
    rw [Nat.shiftLeft_eq]
    omega
  simp [Vga.cursor, Vga.setCursor, Nat.shiftRight_eq_div_pow, hhigh, hword, hor]

theorem onScreen_iff {bx : UInt16} (h : bx.toNat < 0x8000) :
    onScreen bx = true ↔ bx.toNat < 2000 := by
  have hint : bx.toInt16.toInt = bx.toNat := by
    apply BitVec.toInt_eq_toNat_of_lt
    change 2 * bx.toNat < 65536
    omega
  rw [onScreen, decide_eq_true_iff, Int16.lt_iff_toInt_lt, hint]
  exact Int.ofNat_lt

theorem shl_toNat {bx : UInt16} (h : bx.toNat < 0x8000) : (bx <<< 1).toNat = 2 * bx.toNat := by
  have hword : bx.toNat <<< 1 % 65536 = 2 * bx.toNat := by
    rw [Nat.shiftLeft_eq]
    omega
  simpa using hword

theorem shl_succ_toNat {bx : UInt16} (h : bx.toNat < 0x8000) :
    (bx <<< 1 + 1).toNat = 2 * bx.toNat + 1 := by
  rw [UInt16.toNat_add, shl_toNat h, UInt16.toNat_one]
  omega

theorem shl_succ_shr {bx : UInt16} (h : bx.toNat < 0x8000) : (bx <<< 1 + 1) >>> 1 = bx := by
  apply UInt16.toNat_inj.mp
  rw [UInt16.toNat_shiftRight, shl_succ_toNat h, Nat.shiftRight_eq_div_pow]
  change (2 * bx.toNat + 1) / 2 = bx.toNat
  omega

theorem lineStart_toNat {bx : UInt16} (h : bx.toNat < 0x8000) :
    (bx - bx % 80 + 80).toNat = (bx.toNat / 80 + 1) * 80 := by
  have hmod : (bx % 80).toNat = bx.toNat % 80 := UInt16.toNat_mod bx 80
  have hle : bx % 80 ≤ bx := by
    rw [UInt16.le_iff_toNat_le, hmod]
    exact Nat.mod_le _ _
  rw [UInt16.toNat_add, UInt16.toNat_sub_of_le _ _ hle, hmod]
  change (bx.toNat - bx.toNat % 80 + 80) % 65536 = (bx.toNat / 80 + 1) * 80
  omega

theorem toNat_succ {bx : UInt16} (h : bx.toNat < 0x8000) : (bx + 1).toNat = bx.toNat + 1 := by
  rw [UInt16.toNat_add]
  change (bx.toNat + 1) % 65536 = bx.toNat + 1
  omega

theorem toNat_pred {bx : UInt16} (h : bx ≠ 0) : (bx - 1).toNat = bx.toNat - 1 := by
  have hpos : bx.toNat ≠ 0 := fun heq => h (UInt16.toNat_inj.mp heq)
  have hle : 1 ≤ bx := by
    rw [UInt16.le_iff_toNat_le]
    exact Nat.one_le_iff_ne_zero.mpr hpos
  rw [UInt16.toNat_sub_of_le _ _ hle]
  rfl

/-! ## A call -/

section

variable {cl : UInt8} {v : Vga}

/-- A carriage return or a line feed. -/
theorem putChar_lineFeed (hcl : cl = 0x0d ∨ cl = 0x0a) :
    putChar cl v = .returned ((v.outIndex 0x0f).moveTo (v.cursor - v.cursor % 80 + 80)) := by
  have hdispatch : dispatch cl v.cursor = lineFeed v.cursor := by
    obtain rfl | rfl := hcl
    · rfl
    · rfl
  rw [putChar, putCharRun_start, hdispatch]
  exact putCharRun_lineFeed v.cursor

theorem gsStore_goto {bx : UInt16} {byte : UInt8} {next : PutCharPc}
    (h : bx.toNat ≤ videoLimit) :
    gsStore v bx byte next = .goto (v.store bx.toNat byte) next := if_pos h

/-- The two bytes of a cell. -/
def Vga.putCell (v : Vga) (pos : Nat) (byte : UInt8) : Vga :=
  (v.store (2 * pos) byte).store (2 * pos + 1) 0x07

/-- Any other byte. From the last cell the code falls through into the line feed, from where it
rolls the screen once. -/
theorem putChar_other (hcr : cl ≠ 0x0d) (hlf : cl ≠ 0x0a) (hbs : cl ≠ 0x08)
    (hcursor : v.cursor.toNat < 2000) :
    putChar cl v =
      .returned (((v.outIndex 0x0f).putCell v.cursor.toNat cl).moveTo (v.cursor + 1)) := by
  have hlt : v.cursor.toNat < 0x8000 := by omega
  have hdispatch : dispatch cl v.cursor = .otherChar (v.cursor <<< 1) := by
    simp [dispatch, hcr, hlf, hbs]
  have hchar : putCharStep cl (v.outIndex 0x0f) (.otherChar (v.cursor <<< 1)) =
      .goto ((v.outIndex 0x0f).store (2 * v.cursor.toNat) cl)
        (.otherAttr (v.cursor <<< 1 + 1)) := by
    rw [putCharStep, gsStore_goto (by rw [shl_toNat hlt, videoLimit]; omega), shl_toNat hlt]
  have hattr : putCharStep cl ((v.outIndex 0x0f).store (2 * v.cursor.toNat) cl)
        (.otherAttr (v.cursor <<< 1 + 1)) =
      .goto ((v.outIndex 0x0f).putCell v.cursor.toNat cl)
        (afterOther (v.cursor <<< 1 + 1)) := by
    rw [putCharStep, gsStore_goto (by rw [shl_succ_toNat hlt, videoLimit]; omega),
      shl_succ_toNat hlt]
    rfl
  rw [putChar, putCharRun_start, hdispatch, putCharRun_goto hchar, putCharRun_goto hattr,
    afterOther, shl_succ_shr hlt]
  have hnext := toNat_succ hlt
  split
  · next hon =>
    rw [Vga.moveTo, if_pos hon]
    exact @putCharRun_setCursor cl 1090 _ _
  · next hoff =>
    have hedge : ¬ (v.cursor + 1).toNat < 2000 := fun h => hoff ((onScreen_iff (by omega)).mpr h)
    have hline := @lineStart_toNat (v.cursor + 1) (by omega)
    have hoff' : ¬ onScreen (v.cursor + 1 - (v.cursor + 1) % 80 + 80) = true := by
      rw [onScreen_iff (by omega)]
      omega
    rw [@putCharRun_lineFeed cl 48, Vga.moveTo, Vga.moveTo, if_neg hoff, if_neg hoff']

/-- A backspace blanks the cell before the cursor, and goes there. -/
theorem putChar_backspace (hcursor : v.cursor.toNat < 2000) (hne : v.cursor ≠ 0) :
    putChar 0x08 v =
      .returned (((v.outIndex 0x0f).putCell (v.cursor - 1).toNat 0x20).setCursor
        (v.cursor - 1)) := by
  have hpred := toNat_pred hne
  have hlt : (v.cursor - 1).toNat < 0x8000 := by omega
  have hchar : putCharStep 0x08 (v.outIndex 0x0f) (.backspaceChar ((v.cursor - 1) <<< 1)) =
      .goto ((v.outIndex 0x0f).store (2 * (v.cursor - 1).toNat) 0x20)
        (.backspaceAttr ((v.cursor - 1) <<< 1 + 1)) := by
    rw [putCharStep, gsStore_goto (by rw [shl_toNat hlt, videoLimit]; omega), shl_toNat hlt]
  have hattr : putCharStep 0x08 ((v.outIndex 0x0f).store (2 * (v.cursor - 1).toNat) 0x20)
        (.backspaceAttr ((v.cursor - 1) <<< 1 + 1)) =
      .goto ((v.outIndex 0x0f).putCell (v.cursor - 1).toNat 0x20)
        (.setIndexHigh (v.cursor - 1)) := by
    rw [putCharStep, gsStore_goto (by rw [shl_succ_toNat hlt, videoLimit]; omega),
      shl_succ_toNat hlt, shl_succ_shr hlt]
    rfl
  have hdispatch : dispatch 0x08 v.cursor = .backspaceChar ((v.cursor - 1) <<< 1) := rfl
  rw [putChar, putCharRun_start, hdispatch, putCharRun_goto hchar, putCharRun_goto hattr]
  exact @putCharRun_setCursor 0x08 1090 _ _

/-- From the first cell the decrement wraps, and the store is beyond the segment's limit. -/
theorem putChar_backspace_zero (hzero : v.cursor = 0) :
    putChar 0x08 v = .faulted ((v.outIndex 0x0f).refused 0xfffe) := by
  have hdispatch : dispatch 0x08 v.cursor = .backspaceChar 0xfffe := by
    rw [hzero]
    rfl
  have hfault : putCharStep 0x08 (v.outIndex 0x0f) (.backspaceChar 0xfffe) =
      .fault ((v.outIndex 0x0f).refused 0xfffe) := by
    rw [putCharStep, gsStore]
    exact if_neg (by decide)
  rw [putChar, putCharRun_start, hdispatch, putCharRun_fault hfault]

end

/-! ## Termination -/

/-- A bound on the steps that are left. -/
def PutCharPc.left : PutCharPc → Nat
  | .start => 1052
  | .inHigh => 1051
  | .indexLow _ => 1050
  | .inLow _ => 1049
  | .backspaceChar _ => 6
  | .backspaceAttr _ => 5
  | .otherChar _ => 1048
  | .otherAttr _ => 1047
  | .rollScreen ecx _ _ => ecx + 86
  | .cls _ ecx => ecx + 5
  | .setIndexHigh _ => 4
  | .setHigh _ => 3
  | .setIndexLow _ => 2
  | .setLow _ => 1

section

variable {cl : UInt8} {v v' : Vga} {pc pc' : PutCharPc}

theorem left_lineFeed (bx : UInt16) : (lineFeed bx).left ≤ 1046 := by
  unfold lineFeed
  dsimp only
  split
  · simp [PutCharPc.left]
  · simp [PutCharPc.left]

theorem left_dispatch (bx : UInt16) : (dispatch cl bx).left ≤ 1048 := by
  have hline := left_lineFeed bx
  unfold dispatch
  split
  · omega
  · split
    · omega
    · split
      · simp [PutCharPc.left]
      · simp [PutCharPc.left]

theorem left_afterOther (bx : UInt16) : (afterOther bx).left ≤ 1046 := by
  unfold afterOther
  dsimp only
  split
  · simp [PutCharPc.left]
  · exact left_lineFeed _

/-- Every step brings the end nearer. -/
theorem putCharStep_left (h : putCharStep cl v pc = .goto v' pc') : pc'.left < pc.left := by
  have hstore : ∀ {bx : UInt16} {byte : UInt8} {next : PutCharPc},
      gsStore v bx byte next = .goto v' pc' → pc' = next := by
    intro bx byte next hgs
    unfold gsStore at hgs
    split at hgs
    · cases hgs
      rfl
    · cases hgs
  cases pc with
  | inLow ah =>
    cases h
    exact Nat.lt_succ_of_le (left_dispatch _)
  | backspaceChar bx => rw [hstore h]; exact Nat.lt_succ_self _
  | backspaceAttr bx => rw [hstore h]; exact Nat.lt_succ_self _
  | otherChar bx => rw [hstore h]; exact Nat.lt_succ_self _
  | otherAttr bx => rw [hstore h]; exact Nat.lt_succ_of_le (left_afterOther _)
  | rollScreen ecx esi edi =>
    cases ecx with
    | zero => cases h; simp [PutCharPc.left]
    | succ ecx => cases h; simp [PutCharPc.left]
  | cls ebx ecx =>
    cases ecx with
    | zero => cases h; simp [PutCharPc.left]
    | succ ecx => cases h; simp [PutCharPc.left]
  | setLow bx => cases h
  | _ => cases h; exact Nat.lt_succ_self _

/-- A call does not come back to its start. -/
theorem putCharStep_ne_start (h : putCharStep cl v pc = .goto v' pc') : pc' ≠ .start := by
  rintro rfl
  have hlt := putCharStep_left h
  have hmax : pc.left ≤ 1052 ∨ ∃ ecx esi edi, pc = .rollScreen ecx esi edi := by
    cases pc with
    | rollScreen ecx esi edi => exact .inr ⟨_, _, _, rfl⟩
    | cls ebx ecx => cases ecx <;> cases h
    | _ => exact .inl (by simp [PutCharPc.left])
  rcases hmax with hle | ⟨ecx, esi, edi, rfl⟩
  · exact absurd hlt (Nat.not_lt_of_le hle)
  · cases ecx <;> cases h

/-- With enough fuel, more of it changes nothing. -/
theorem putCharRun_fuel {n m : Nat} (hn : pc.left ≤ n) (hm : pc.left ≤ m) :
    putCharRun cl n v pc = putCharRun cl m v pc := by
  induction n generalizing m v pc with
  | zero =>
    have hpos : 0 < pc.left := by cases pc <;> simp [PutCharPc.left]
    omega
  | succ n ih =>
    obtain ⟨m, rfl⟩ : ∃ k, m = k + 1 := by
      have hpos : 0 < pc.left := by cases pc <;> simp [PutCharPc.left]
      exact ⟨m - 1, by omega⟩
    cases hstep : putCharStep cl v pc with
    | goto v' pc' =>
      have hlt := putCharStep_left hstep
      rw [putCharRun_goto hstep, putCharRun_goto hstep]
      exact ih (by omega) (by omega)
    | ret v' => rw [putCharRun_ret hstep, putCharRun_ret hstep]
    | fault v' => rw [putCharRun_fault hstep, putCharRun_fault hstep]

/-- The rest of a call. -/
def putCharRest (cl : UInt8) (v : Vga) (pc : PutCharPc) : PutCharOutcome := putCharRun cl pc.left v pc

theorem putCharRest_start : putCharRest cl v .start = putChar cl v :=
  putCharRun_fuel (Nat.le_refl _) (by decide)

theorem putCharRest_goto (h : putCharStep cl v pc = .goto v' pc') :
    putCharRest cl v pc = putCharRest cl v' pc' := by
  have hlt := putCharStep_left h
  rw [putCharRest, putCharRun_fuel (Nat.le_refl _) (Nat.le_succ _), putCharRun_goto h]
  exact putCharRun_fuel (Nat.le_of_lt hlt) (Nat.le_refl _)

theorem putCharRest_ret (h : putCharStep cl v pc = .ret v') : putCharRest cl v pc = .returned v' := by
  rw [putCharRest, putCharRun_fuel (Nat.le_refl _) (Nat.le_succ _), putCharRun_ret h]

end

end OsKernel
