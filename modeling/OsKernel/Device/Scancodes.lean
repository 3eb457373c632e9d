import OsKernel.Device.Keyboard
import OsKernel.Device.Ioqueue

/-!
# device/keyboard.c, over a stream of bytes

`intr_keyboard_handler` with `kbd_buf`, compared with a decoder that keeps no flags: it cuts the
stream into codes and looks back at the codes before each one.

## The handler

- `intrKeyboardHandler`: one call, with the buffer and the thread it wakes.
- `keyboardRun`: calls in a row, with what each of them leaves in a buffer that was empty.

## The reference decoder

- `splitCodes`: the codes of a stream of bytes.
- `shiftHeld`, `capsOn`: the two modifiers, read off the codes so far.
- `referenceDecoder`: the characters of a stream of bytes.

`scancodes_decoded` is the agreement of the two. The flags follow the history (`Tracks`): one byte
keeps this (`Tracks.scan`), and with it every stream yields the same characters (`Tracks.run`).
-/

namespace OsKernel

/-! ## The handler -/

/-- `ioq_putchar` on a buffer that is not full: the byte is stored, and the waiting consumer, if
there is one, is passed to `thread_unblock`. -/
def ioqPutchar (intr : IntrStatus) (ioq : IoQueue) (byte : UInt8) :
    Except Panic (IoQueue × Option Tid) := do
  assert (intr = .off) .ioqPutcharIntrOff
  let ioq := ioq.store byte
  return ({ ioq with consumer := none }, ioq.consumer)

/-- `intr_keyboard_handler`, with the thread it wakes. -/
def intrKeyboardHandler (status : KeyboardStatus) (kbdBuf : IoQueue) (port : UInt8) :
    Except Panic (KeyboardStatus × IoQueue × Option Tid) :=
  let (status, outcome) := keyboardScan status port
  match outcome with
  | .done => return (status, kbdBuf, none)
  | .char curChar => do
    if ← ioqFull .off kbdBuf then return (status, kbdBuf, none)
    else
      let (kbdBuf, woken) ← ioqPutchar .off kbdBuf curChar
      return (status, kbdBuf, woken)
  -- `put_str("unknown key\n")` leaves the buffer alone
  | .unknown => return (status, kbdBuf, none)

/-- The bytes in a buffer, the oldest one first. -/
def IoQueue.bytes (ioq : IoQueue) : List UInt8 :=
  (List.range ((ioq.head.toNat + 64 - ioq.tail.toNat) % 64)).map
    fun i => ioq.buffer ((ioq.tail.toNat + i) % 64)

/-- An interrupt of the keyboard: the byte at its port, and `kbd_buf` as the readers left it. -/
structure KeyInterrupt where
  port : UInt8
  kbdBuf : IoQueue
  emptied : Contents kbdBuf []

/-- Interrupts in a row, and the bytes they put into the buffer. -/
def keyboardRun : KeyboardStatus → List KeyInterrupt → Except Panic (List UInt8)
  | _, [] => return []
  | status, interrupt :: rest => do
    let (status, kbdBuf, _) ← intrKeyboardHandler status interrupt.kbdBuf interrupt.port
    let later ← keyboardRun status rest
    return kbdBuf.bytes ++ later

/-- The index at which `keymap` is read for a code, if it is. -/
def codeIndex (scancode : UInt16) : Option Nat :=
  if scancode &&& 0x0080 ≠ 0 then none
  else if isMakeCode scancode then some (scancode &&& 0x00ff).toNat
  else none

/-- The index at which the handler reads `keymap`, if it does. -/
def keymapIndex (status : KeyboardStatus) (port : UInt8) : Option Nat :=
  if port.toUInt16 = 0xe0 then none
  else if status.extScancode then codeIndex (0xe000 ||| port.toUInt16)
  else codeIndex port.toUInt16

/-! ## The reference decoder -/

/-- A complete code of the keyboard. -/
inductive Code where
  | plain (byte : UInt8)
  /-- a byte after `0xe0` -/
  | extended (byte : UInt8)
deriving DecidableEq, Repr

/-- The codes of a stream, whose first byte follows `0xe0` if `prefixed` says so. Further `0xe0`s
add nothing to the first one. -/
def splitCodes : Bool → List UInt8 → List Code
  | _, [] => []
  | prefixed, byte :: bytes =>
    if byte = 0xe0 then splitCodes true bytes
    else (if prefixed then .extended byte else .plain byte) :: splitCodes false bytes

/-- The make code of a shift key. -/
def Code.isShiftMake (code : Code) : Bool := code == .plain 0x2a || code == .plain 0x36

/-- The break code of a shift key. -/
def Code.isShiftBreak (code : Code) : Bool := code == .plain 0xaa || code == .plain 0xb6

/-- The most recent code of a shift key is a make code. -/
def shiftHeld (past : List Code) : Bool :=
  match (past.filter fun code => code.isShiftMake || code.isShiftBreak).getLast? with
  | some code => code.isShiftMake
  | none => false

/-- Caps lock has been pressed an odd number of times. -/
def capsOn (past : List Code) : Bool := past.count (.plain 0x3a) % 2 == 1

/-- The keys of letters. -/
def letterKey (byte : UInt8) : Bool :=
  (0x10 ≤ byte && byte ≤ 0x19) || (0x1e ≤ byte && byte ≤ 0x26) || (0x2c ≤ byte && byte ≤ 0x32)

/-- The digits row and punctuation. -/
def twoSymbolKey (byte : UInt8) : Bool :=
  (0x02 ≤ byte && byte ≤ 0x0d) || byte ∈ [0x1a, 0x1b, 0x27, 0x28, 0x29, 0x2b, 0x33, 0x34, 0x35]

/-- The keys with a character: those of `keymap` that are no modifier. -/
def characterKey (byte : UInt8) : Bool :=
  0x01 ≤ byte && byte ≤ 0x3a && byte ∉ [0x1d, 0x2a, 0x36, 0x38, 0x3a]

/-- The character of a plain code. -/
def plainCharacter (shift caps : Bool) (byte : UInt8) : Option UInt8 :=
  if characterKey byte then
    keymap[byte.toNat]?.map fun entry =>
      if letterKey byte then (if shift ^^ caps then entry.2 else entry.1)
      else if twoSymbolKey byte then (if shift then entry.2 else entry.1)
      else entry.1
  else none

/-- The character of a code that comes after `past`. -/
def character (past : List Code) : Code → Option UInt8
  | .plain byte => plainCharacter (shiftHeld past) (capsOn past) byte
  | .extended _ => none

/-- The characters of codes that come after `past`. -/
def characters (past : List Code) : List Code → List UInt8
  | [] => []
  | code :: codes => (character past code).toList ++ characters (past ++ [code]) codes

/-- The characters of a stream of bytes. -/
def referenceDecoder (bytes : List UInt8) : List UInt8 := characters [] (splitCodes false bytes)

/-! ## The table -/

/-- The character of an outcome. -/
def KeyOutcome.char? : KeyOutcome → Option UInt8
  | .char curChar => some curChar
  | _ => none

theorem codeIndex_lt {scancode : UInt16} {index : Nat} (h : codeIndex scancode = some index) :
    index < keymap.length := by
  unfold codeIndex at h
  split at h
  · simp at h
  · split at h
    · next hmake =>
      rw [Option.some.injEq] at h
      exact h ▸ isMakeCode_index hmake
    · simp at h

theorem keymapIndex_lt {status : KeyboardStatus} {port : UInt8} {index : Nat}
    (h : keymapIndex status port = some index) : index < keymap.length := by
  unfold keymapIndex at h
  split at h
  · simp at h
  · split at h
    · exact codeIndex_lt h
    · exact codeIndex_lt h

/-- `codeIndex` is where a code's character comes from, and without an index it has none. -/
theorem keyboardCode_codeIndex (status : KeyboardStatus) (scancode : UInt16) :
    (keyboardCode status scancode).2.char? =
      (codeIndex scancode).bind fun index =>
        let curChar := keymapAt index (shifted status scancode)
        if curChar ≠ 0 then some curChar else none := by
  unfold keyboardCode codeIndex
  by_cases hbreak : scancode &&& 0x0080 ≠ 0
  · simp [hbreak, KeyOutcome.char?]
  · by_cases hmake : isMakeCode scancode = true
    · by_cases hchar :
          keymapAt (scancode &&& 0x00ff).toNat (shifted status scancode) = 0
      · simp_all [KeyOutcome.char?]
      · simp_all [KeyOutcome.char?]
    · simp_all [KeyOutcome.char?]

/-- The handler's character is the one at `keymapIndex`, in one of the columns. -/
theorem keyboardScan_keymapIndex (status : KeyboardStatus) (port : UInt8) :
    ∃ shift, (keyboardScan status port).2.char? =
      (keymapIndex status port).bind fun index =>
        if keymapAt index shift ≠ 0 then some (keymapAt index shift) else none := by
  unfold keyboardScan keymapIndex
  by_cases hmark : port.toUInt16 = 0xe0
  · exact ⟨false, by simp [hmark, KeyOutcome.char?]⟩
  · cases hext : status.extScancode with
    | true => exact ⟨_, by simpa [hmark, hext] using keyboardCode_codeIndex _ _⟩
    | false => exact ⟨_, by simpa [hmark, hext] using keyboardCode_codeIndex _ _⟩

/-! ## The history -/

theorem shiftHeld_snoc (past : List Code) (code : Code) :
    shiftHeld (past ++ [code]) =
      if code.isShiftMake then true else if code.isShiftBreak then false else shiftHeld past := by
  unfold shiftHeld
  cases hmake : code.isShiftMake with
  | true => simp [hmake]
  | false =>
    cases hbreak : code.isShiftBreak with
    | true => simp [hmake, hbreak]
    | false => simp [hmake, hbreak]

theorem capsOn_snoc (past : List Code) (code : Code) :
    capsOn (past ++ [code]) = if code = .plain 0x3a then !capsOn past else capsOn past := by
  unfold capsOn
  by_cases hcaps : code = .plain 0x3a
  · subst hcaps
    rw [List.count_append, List.count_singleton_self, if_pos rfl]
    rcases Nat.mod_two_eq_zero_or_one (past.count (.plain 0x3a)) with h | h
    · simp [Nat.add_mod, h]
    · simp [Nat.add_mod, h]
  · rw [List.count_append, List.count_singleton, if_neg hcaps]
    simp [hcaps]

/-! ## One code -/

/-- A statement about every byte is a finite check. -/
instance decidableForallByte {p : UInt8 → Prop} [DecidablePred p] : Decidable (∀ byte, p byte) :=
  decidable_of_iff (∀ n : Fin 256, p (UInt8.ofFin n)) ⟨fun h byte => h byte.toFin, fun h _ => h _⟩

/-- The flags the decoding reads after a plain code. -/
theorem keyboardCode_plain_status (status : KeyboardStatus) (byte : UInt8) :
    (keyboardCode status byte.toUInt16).1.shift =
        (if byte = 0x2a ∨ byte = 0x36 then true
          else if byte = 0xaa ∨ byte = 0xb6 then false else status.shift) ∧
      (keyboardCode status byte.toUInt16).1.capsLock =
        (if byte = 0x3a then !status.capsLock else status.capsLock) := by
  rw [keyboardCode_shift, keyboardCode_capsLock]
  generalize status.shift = shift
  generalize status.capsLock = capsLock
  revert byte shift capsLock
  decide +kernel

/-- The character of a plain code: each entry of the table, in each column. -/
theorem keyboardCode_plain_char (status : KeyboardStatus) (byte : UInt8) :
    (keyboardCode status byte.toUInt16).2.char? =
      plainCharacter status.shift status.capsLock byte := by
  rw [keyboardCode_codeIndex]
  unfold shifted
  generalize status.shift = shift
  generalize status.capsLock = capsLock
  revert byte shift capsLock
  decide +kernel

/-- An extended code is an event of neither modifier, and has no character. -/
theorem keyboardCode_extended (status : KeyboardStatus) (byte : UInt8) :
    (keyboardCode status (0xe000 ||| byte.toUInt16)).1.shift = status.shift ∧
      (keyboardCode status (0xe000 ||| byte.toUInt16)).1.capsLock = status.capsLock ∧
      (keyboardCode status (0xe000 ||| byte.toUInt16)).2.char? = none := by
  rw [keyboardCode_shift, keyboardCode_capsLock, keyboardCode_codeIndex]
  unfold shifted
  generalize status.shift = shift
  generalize status.capsLock = capsLock
  revert byte shift capsLock
  decide +kernel

/-! ## One byte -/

/-- The flags say what the codes before say, and whether the last byte was `0xe0`. -/
structure Tracks (past : List Code) (prefixed : Bool) (status : KeyboardStatus) : Prop where
  shift : status.shift = shiftHeld past
  capsLock : status.capsLock = capsOn past
  extScancode : status.extScancode = prefixed

theorem Tracks.start : Tracks [] false .start := ⟨rfl, rfl, rfl⟩

/-- A plain code, after which the flags follow the longer history. -/
theorem Tracks.plain {past : List Code} {status : KeyboardStatus} (h : Tracks past false status)
    (byte : UInt8) :
    Tracks (past ++ [.plain byte]) false (keyboardCode status byte.toUInt16).1 ∧
      (keyboardCode status byte.toUInt16).2.char? = character past (.plain byte) := by
  obtain ⟨hshift, hcaps⟩ := keyboardCode_plain_status status byte
  refine ⟨⟨?_, ?_, ?_⟩, ?_⟩
  · rw [hshift, shiftHeld_snoc, h.shift]
    simp [Code.isShiftMake, Code.isShiftBreak]
  · rw [hcaps, capsOn_snoc, h.capsLock]
    simp
  · rw [keyboardCode_extScancode, h.extScancode]
  · rw [keyboardCode_plain_char, h.shift, h.capsLock, character]

/-- An extended code, which is no event of a modifier. -/
theorem Tracks.extended {past : List Code} {status : KeyboardStatus} (h : Tracks past false status)
    (byte : UInt8) :
    Tracks (past ++ [.extended byte]) false
        (keyboardCode status (0xe000 ||| byte.toUInt16)).1 ∧
      (keyboardCode status (0xe000 ||| byte.toUInt16)).2.char? =
        character past (.extended byte) := by
  obtain ⟨hshift, hcaps, hchar⟩ := keyboardCode_extended status byte
  refine ⟨⟨?_, ?_, ?_⟩, hchar⟩
  · rw [hshift, shiftHeld_snoc, h.shift]
    simp [Code.isShiftMake, Code.isShiftBreak]
  · rw [hcaps, capsOn_snoc, h.capsLock]
    simp
  · rw [keyboardCode_extScancode, h.extScancode]

/-- The handler merges the prefix and the byte after it, and clears the flag. -/
theorem keyboardScan_prefixed {status : KeyboardStatus} {port : UInt8}
    (hext : status.extScancode = true) (hport : port ≠ 0xe0) :
    keyboardScan status port =
      keyboardCode { status with extScancode := false } (0xe000 ||| port.toUInt16) := by
  have hne : port.toUInt16 ≠ 0xe0 := fun heq => hport (UInt8.toUInt16_inj.mp heq)
  simp [keyboardScan, hne, hext]

theorem keyboardScan_plain {status : KeyboardStatus} {port : UInt8}
    (hext : status.extScancode = false) (hport : port ≠ 0xe0) :
    keyboardScan status port = keyboardCode status port.toUInt16 := by
  have hne : port.toUInt16 ≠ 0xe0 := fun heq => hport (UInt8.toUInt16_inj.mp heq)
  simp [keyboardScan, hne, hext]

/-! ## One interrupt -/

theorem Contents.bytes_eq {ioq : IoQueue} {xs : List UInt8} (h : Contents ioq xs) :
    ioq.bytes = xs := by
  have hlt := h.length_lt
  have htail := h.tail_lt
  have hhead := h.head_eq
  have hlen : (ioq.head.toNat + 64 - ioq.tail.toNat) % 64 = xs.length := by omega
  unfold IoQueue.bytes
  rw [hlen]
  apply List.ext_getElem
  · simp
  · intro i hi hi'
    rw [List.getElem_map, List.getElem_range]
    exact h.bytes i hi'

/-- An interrupt that finds the buffer empty puts its character there, if it has one. -/
theorem intrKeyboardHandler_emptied (status : KeyboardStatus) (interrupt : KeyInterrupt) :
    ∃ kbdBuf woken,
      intrKeyboardHandler status interrupt.kbdBuf interrupt.port =
          .ok ((keyboardScan status interrupt.port).1, kbdBuf, woken) ∧
        kbdBuf.bytes = (keyboardScan status interrupt.port).2.char?.toList := by
  unfold intrKeyboardHandler
  cases hscan : keyboardScan status interrupt.port with
  | mk status' outcome =>
    cases outcome with
    | done => exact ⟨_, _, rfl, interrupt.emptied.bytes_eq⟩
    | unknown => exact ⟨_, _, rfl, interrupt.emptied.bytes_eq⟩
    | char curChar =>
      have hfull : ioqFull .off interrupt.kbdBuf = .ok false := by
        have hne : ¬ ioqFull .off interrupt.kbdBuf = .ok true := by
          rw [ioqFull_iff interrupt.emptied]
          simp
        cases hb : nextPos interrupt.kbdBuf.tail == interrupt.kbdBuf.head with
        | false => simp [ioqFull, hb]
        | true => exact absurd (by simp [ioqFull, hb]) hne
      have hstore := interrupt.emptied.store curChar (by simp)
      have hput : ioqPutchar .off interrupt.kbdBuf curChar =
          .ok ({ interrupt.kbdBuf.store curChar with consumer := none },
            (interrupt.kbdBuf.store curChar).consumer) := by
        simp [ioqPutchar]
      refine ⟨{ interrupt.kbdBuf.store curChar with consumer := none },
        (interrupt.kbdBuf.store curChar).consumer, ?_, hstore.bytes_eq⟩
      simp [hfull, hput]

/-! ## A stream of bytes -/

theorem Tracks.run {past : List Code} {prefixed : Bool} {status : KeyboardStatus}
    (h : Tracks past prefixed status) (interrupts : List KeyInterrupt) :
    keyboardRun status interrupts =
      .ok (characters past (splitCodes prefixed (interrupts.map (·.port)))) := by
  -- the codes before are part of what the induction carries
  induction interrupts generalizing past prefixed status with
  | nil => rfl
  | cons interrupt rest ih =>
    obtain ⟨kbdBuf, woken, hcall, hbytes⟩ := intrKeyboardHandler_emptied status interrupt
    simp only [keyboardRun, hcall, ok_bind, hbytes, List.map_cons, splitCodes]
    by_cases hport : interrupt.port = 0xe0
    · have hscan : keyboardScan status interrupt.port =
          ({ status with extScancode := true }, .done) := by
        simp [keyboardScan, hport]
      have htracks : Tracks past true { status with extScancode := true } :=
        ⟨h.shift, h.capsLock, rfl⟩
      rw [hscan]
      dsimp only
      rw [ih htracks]
      simp [hport, KeyOutcome.char?]
    · cases hext : prefixed with
      | true =>
        have htracks : Tracks past false { status with extScancode := false } :=
          ⟨h.shift, h.capsLock, rfl⟩
        obtain ⟨hnext, hchar⟩ := htracks.extended interrupt.port
        rw [keyboardScan_prefixed (h.extScancode.trans hext) hport, ih hnext, hchar]
        simp [hport, characters]
      | false =>
        obtain ⟨hnext, hchar⟩ := (hext ▸ h).plain interrupt.port
        rw [keyboardScan_plain (h.extScancode.trans hext) hport, ih hnext, hchar]
        simp [hport, characters]

/-- The handler puts the characters of the reference decoder into `kbd_buf`, and reads `keymap`
inside its bounds. -/
theorem scancodes_decoded (interrupts : List KeyInterrupt) :
    keyboardRun .start interrupts = .ok (referenceDecoder (interrupts.map (·.port))) ∧
      ∀ status port index, keymapIndex status port = some index → index < keymap.length :=
  ⟨Tracks.start.run interrupts, fun _ _ _ h => keymapIndex_lt h⟩

-- shift down, `a`, shift up, `a`
example : referenceDecoder [0x2a, 0x1e, 0xaa, 0x1e] = [0x41, 0x61] := by decide

end OsKernel
