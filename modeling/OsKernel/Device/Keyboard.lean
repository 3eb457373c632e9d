import OsKernel.Kernel.Debug

/-!
# device/keyboard.c

`intr_keyboard_handler` up to its use of `kbd_buf`: what one byte from the keyboard's port does to
the modifier flags, and which character it yields.

- `keymap`: the characters of the make codes, alone and with shift.
- `keyboardScan`: the handler's decoding of one byte.
- `keyboardScan_char`: the handler reads `keymap` inside its bounds, and never yields a NUL.
-/

namespace OsKernel

/-- The modifier flags, and whether the last byte was `0xe0`. -/
structure KeyboardStatus where
  ctrl : Bool
  shift : Bool
  alt : Bool
  capsLock : Bool
  extScancode : Bool
deriving DecidableEq, Repr

/-- The flags before the first interrupt. -/
def KeyboardStatus.start : KeyboardStatus := ⟨false, false, false, false, false⟩

/-! ## The tables -/

def esc : UInt8 := 0x1b
def backspace : UInt8 := 0x08
def tab : UInt8 := 0x09
def enter : UInt8 := 0x0d
def charInvisible : UInt8 := 0

def shiftLMake : UInt16 := 0x2a
def shiftRMake : UInt16 := 0x36
def altLMake : UInt16 := 0x38
def altRMake : UInt16 := 0xe038
def ctrlLMake : UInt16 := 0x1d
def ctrlRMake : UInt16 := 0xe01d
def capsLockMake : UInt16 := 0x3a

/-- An ASCII character of the C source. -/
private def ascii (c : Char) : UInt8 := UInt8.ofNat c.toNat

/-- `keymap`: for each make code the character without and with shift. -/
def keymap : List (UInt8 × UInt8) := [
  (0, 0), (esc, esc),
  (ascii '1', ascii '!'), (ascii '2', ascii '@'), (ascii '3', ascii '#'), (ascii '4', ascii '$'),
  (ascii '5', ascii '%'), (ascii '6', ascii '^'), (ascii '7', ascii '&'), (ascii '8', ascii '*'),
  (ascii '9', ascii '('), (ascii '0', ascii ')'), (ascii '-', ascii '_'), (ascii '=', ascii '+'),
  (backspace, backspace), (tab, tab),
  (ascii 'q', ascii 'Q'), (ascii 'w', ascii 'W'), (ascii 'e', ascii 'E'), (ascii 'r', ascii 'R'),
  (ascii 't', ascii 'T'), (ascii 'y', ascii 'Y'), (ascii 'u', ascii 'U'), (ascii 'i', ascii 'I'),
  (ascii 'o', ascii 'O'), (ascii 'p', ascii 'P'), (ascii '[', ascii '{'), (ascii ']', ascii '}'),
  (enter, enter), (charInvisible, charInvisible),
  (ascii 'a', ascii 'A'), (ascii 's', ascii 'S'), (ascii 'd', ascii 'D'), (ascii 'f', ascii 'F'),
  (ascii 'g', ascii 'G'), (ascii 'h', ascii 'H'), (ascii 'j', ascii 'J'), (ascii 'k', ascii 'K'),
  (ascii 'l', ascii 'L'), (ascii ';', ascii ':'), (0x27, 0x22), (0x60, ascii '~'),
  (charInvisible, charInvisible), (0x5c, ascii '|'),
  (ascii 'z', ascii 'Z'), (ascii 'x', ascii 'X'), (ascii 'c', ascii 'C'), (ascii 'v', ascii 'V'),
  (ascii 'b', ascii 'B'), (ascii 'n', ascii 'N'), (ascii 'm', ascii 'M'), (ascii ',', ascii '<'),
  (ascii '.', ascii '>'), (ascii '/', ascii '?'),
  (charInvisible, charInvisible), (ascii '*', ascii '*'), (charInvisible, charInvisible),
  (ascii ' ', ascii ' '), (charInvisible, charInvisible)]

/-! ## The handler -/

/-- What the handler does after it has decoded a byte. -/
inductive KeyOutcome where
  /-- `return` -/
  | done
  /-- `if (!ioq_full(&kbd_buf)) ioq_putchar(&kbd_buf, cur_char)` -/
  | char (curChar : UInt8)
  /-- `put_str("unknown key\n")` -/
  | unknown
deriving DecidableEq, Repr

/-- The flag a break code clears. -/
def releaseKey (status : KeyboardStatus) (makeCode : UInt16) : KeyboardStatus :=
  if makeCode = ctrlLMake ∨ makeCode = ctrlRMake then { status with ctrl := false }
  else if makeCode = shiftLMake ∨ makeCode = shiftRMake then { status with shift := false }
  else if makeCode = altLMake ∨ makeCode = altRMake then { status with alt := false }
  else status

/-- The flag a make code without a character sets. -/
def pressModifier (status : KeyboardStatus) (scancode : UInt16) : KeyboardStatus :=
  if scancode = ctrlLMake ∨ scancode = ctrlRMake then { status with ctrl := true }
  else if scancode = shiftLMake ∨ scancode = shiftRMake then { status with shift := true }
  else if scancode = altLMake ∨ scancode = altRMake then { status with alt := true }
  else if scancode = capsLockMake then { status with capsLock := !status.capsLock }
  else status

/-- The keys with two symbols, for which caps lock does not matter. -/
def twoSymbols (scancode : UInt16) : Bool :=
  scancode < 0x0e || scancode == 0x29 || scancode == 0x1a || scancode == 0x1b || scancode == 0x2b ||
    scancode == 0x27 || scancode == 0x28 || scancode == 0x33 || scancode == 0x34 || scancode == 0x35

/-- The column of `keymap`. -/
def shifted (status : KeyboardStatus) (scancode : UInt16) : Bool :=
  if twoSymbols scancode then status.shift
  else if status.shift && status.capsLock then false
  else status.shift || status.capsLock

/-- `keymap[index][shift]` -/
def keymapAt (index : Nat) (shift : Bool) : UInt8 :=
  let entry := keymap.getD index (0, 0)
  if shift then entry.2 else entry.1

/-- The codes the handler looks up. -/
def isMakeCode (scancode : UInt16) : Bool :=
  (0 < scancode && scancode < 0x3b) || scancode == altRMake || scancode == ctrlRMake

/-- A complete code. -/
def keyboardCode (status : KeyboardStatus) (scancode : UInt16) : KeyboardStatus × KeyOutcome :=
  if scancode &&& 0x0080 ≠ 0 then
    (releaseKey status (scancode &&& 0xff7f), .done)
  else if isMakeCode scancode then
    let shift := shifted status scancode
    let index := scancode &&& 0x00ff
    let curChar := keymapAt index.toNat shift
    if curChar ≠ 0 then (status, .char curChar)
    else (pressModifier status index, .done)
  else (status, .unknown)

/-- One byte from the keyboard's port. -/
def keyboardScan (status : KeyboardStatus) (port : UInt8) : KeyboardStatus × KeyOutcome :=
  let scancode := port.toUInt16
  if scancode = 0xe0 then ({ status with extScancode := true }, .done)
  else if status.extScancode then
    keyboardCode { status with extScancode := false } (0xe000 ||| scancode)
  else keyboardCode status scancode

/-! ## The characters -/

/-- Every code that is looked up is in the table. -/
theorem isMakeCode_index {scancode : UInt16} (h : isMakeCode scancode = true) :
    (scancode &&& 0x00ff).toNat < keymap.length := by
  have hlen : keymap.length = 59 := rfl
  simp only [isMakeCode, Bool.or_eq_true, Bool.and_eq_true, decide_eq_true_eq, beq_iff_eq] at h
  rcases h with (⟨-, hlt⟩ | rfl) | rfl
  · have hle : (scancode &&& 0x00ff).toNat ≤ scancode.toNat := by
      rw [UInt16.toNat_and]
      exact Nat.and_le_left
    have hnat : scancode.toNat < 0x3b := hlt
    omega
  · decide
  · decide

/-- A character comes from the table, and it is not NUL. -/
theorem keyboardCode_char {status status' : KeyboardStatus} {scancode : UInt16} {c : UInt8}
    (h : keyboardCode status scancode = (status', .char c)) :
    c ≠ 0 ∧ status' = status ∧ ∃ entry ∈ keymap, c = entry.1 ∨ c = entry.2 := by
  unfold keyboardCode at h
  split at h
  · cases h
  · split at h
    · next hmake =>
      dsimp only at h
      split at h
      · next hne =>
        cases h
        have hlt := isMakeCode_index hmake
        refine ⟨hne, rfl, keymap.getD (scancode &&& 0x00ff).toNat (0, 0), ?_, ?_⟩
        · rw [List.getD_eq_getElem?_getD, List.getElem?_eq_getElem hlt, Option.getD_some]
          exact List.getElem_mem hlt
        · unfold keymapAt
          dsimp only
          split
          · exact Or.inr rfl
          · exact Or.inl rfl
      · cases h
    · cases h

theorem keyboardScan_char {status status' : KeyboardStatus} {port c : UInt8}
    (h : keyboardScan status port = (status', .char c)) :
    c ≠ 0 ∧ ∃ entry ∈ keymap, c = entry.1 ∨ c = entry.2 := by
  unfold keyboardScan at h
  dsimp only at h
  split at h
  · cases h
  · split at h
    · exact ⟨(keyboardCode_char h).1, (keyboardCode_char h).2.2⟩
    · exact ⟨(keyboardCode_char h).1, (keyboardCode_char h).2.2⟩

/-! ## The flags -/

/-- The modifier keys have no character. -/
theorem keymapAt_char {index : UInt16} {shift : Bool} (h : keymapAt index.toNat shift ≠ 0) :
    (index ≠ ctrlLMake ∧ index ≠ ctrlRMake) ∧ (index ≠ shiftLMake ∧ index ≠ shiftRMake) ∧
      (index ≠ altLMake ∧ index ≠ altRMake) ∧ index ≠ capsLockMake := by
  refine ⟨⟨?_, ?_⟩, ⟨?_, ?_⟩, ⟨?_, ?_⟩, ?_⟩
  all_goals
    rintro rfl
    apply h
    cases shift
    · rfl
    · rfl

/-- A key with a character is no modifier. -/
theorem pressModifier_char {index : UInt16} {shift : Bool} (status : KeyboardStatus)
    (h : keymapAt index.toNat shift ≠ 0) : pressModifier status index = status := by
  obtain ⟨⟨hcl, hcr⟩, ⟨hsl, hsr⟩, ⟨hal, har⟩, hcaps⟩ := keymapAt_char h
  simp [pressModifier, hcl, hcr, hsl, hsr, hal, har, hcaps]

/-- The flags after a complete code, whether it has a character or not. -/
theorem keyboardCode_status (status : KeyboardStatus) (scancode : UInt16) :
    (keyboardCode status scancode).1 =
      if scancode &&& 0x0080 ≠ 0 then releaseKey status (scancode &&& 0xff7f)
      else if isMakeCode scancode then pressModifier status (scancode &&& 0x00ff)
      else status := by
  unfold keyboardCode
  split
  · rfl
  · split
    · dsimp only
      split
      · next hchar => exact (pressModifier_char status hchar).symm
      · rfl
    · rfl

/-- No two flags are asked for by one code, so the chain of tests is one test for each flag. -/
theorem releaseKey_eq (status : KeyboardStatus) (makeCode : UInt16) :
    releaseKey status makeCode =
      { status with
        ctrl := status.ctrl && makeCode != ctrlLMake && makeCode != ctrlRMake
        shift := status.shift && makeCode != shiftLMake && makeCode != shiftRMake
        alt := status.alt && makeCode != altLMake && makeCode != altRMake } := by
  obtain ⟨ctrl, shift, alt, capsLock, extScancode⟩ := status
  unfold releaseKey
  simp only [ctrlLMake, ctrlRMake, shiftLMake, shiftRMake, altLMake, altRMake]
  split_ifs
  all_goals
    rw [KeyboardStatus.mk.injEq]
    grind

theorem pressModifier_eq (status : KeyboardStatus) (scancode : UInt16) :
    pressModifier status scancode =
      { status with
        ctrl := status.ctrl || scancode == ctrlLMake || scancode == ctrlRMake
        shift := status.shift || scancode == shiftLMake || scancode == shiftRMake
        alt := status.alt || scancode == altLMake || scancode == altRMake
        capsLock := status.capsLock ^^ scancode == capsLockMake } := by
  obtain ⟨ctrl, shift, alt, capsLock, extScancode⟩ := status
  unfold pressModifier
  simp only [ctrlLMake, ctrlRMake, shiftLMake, shiftRMake, altLMake, altRMake, capsLockMake]
  split_ifs
  all_goals
    rw [KeyboardStatus.mk.injEq]
    grind

/-- A flag of two keys after a complete code. -/
def flagAfter (flag : Bool) (left right scancode : UInt16) : Bool :=
  if scancode &&& 0x0080 ≠ 0 then
    flag && scancode &&& 0xff7f != left && scancode &&& 0xff7f != right
  else if isMakeCode scancode then
    flag || scancode &&& 0x00ff == left || scancode &&& 0x00ff == right
  else flag

theorem keyboardCode_shift (status : KeyboardStatus) (scancode : UInt16) :
    (keyboardCode status scancode).1.shift =
      flagAfter status.shift shiftLMake shiftRMake scancode := by
  rw [keyboardCode_status, releaseKey_eq, pressModifier_eq, flagAfter]
  split_ifs <;> rfl

theorem keyboardCode_ctrl (status : KeyboardStatus) (scancode : UInt16) :
    (keyboardCode status scancode).1.ctrl =
      flagAfter status.ctrl ctrlLMake ctrlRMake scancode := by
  rw [keyboardCode_status, releaseKey_eq, pressModifier_eq, flagAfter]
  split_ifs <;> rfl

theorem keyboardCode_alt (status : KeyboardStatus) (scancode : UInt16) :
    (keyboardCode status scancode).1.alt =
      flagAfter status.alt altLMake altRMake scancode := by
  rw [keyboardCode_status, releaseKey_eq, pressModifier_eq, flagAfter]
  split_ifs <;> rfl

theorem keyboardCode_capsLock (status : KeyboardStatus) (scancode : UInt16) :
    (keyboardCode status scancode).1.capsLock =
      if scancode &&& 0x0080 ≠ 0 then status.capsLock
      else if isMakeCode scancode then status.capsLock ^^ scancode &&& 0x00ff == capsLockMake
      else status.capsLock := by
  rw [keyboardCode_status, releaseKey_eq, pressModifier_eq]
  split_ifs <;> rfl

theorem keyboardCode_extScancode (status : KeyboardStatus) (scancode : UInt16) :
    (keyboardCode status scancode).1.extScancode = status.extScancode := by
  rw [keyboardCode_status, releaseKey_eq, pressModifier_eq]
  split_ifs <;> rfl

end OsKernel
