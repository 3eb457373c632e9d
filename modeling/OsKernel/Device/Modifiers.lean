import OsKernel.Device.Scancodes

/-!
# device/keyboard.c, the modifier flags

The flags of `intr_keyboard_handler` against the keys that are down, for keys that are pressed,
repeat and are released in any order.

- `Key`, `KeyEvent`: the keys, and the set-1 codes they send.
- `FlagsMirror`: each flag says whether one of its two keys is down.
- `flags_mirror_iff`: the flags mirror the keys throughout exactly if no modifier key is released
  while its twin is down. The twins share a flag, and either break code clears it.
-/

namespace OsKernel

/-! ## Keys -/

/-- A set-1 make code of one byte. `0x60` is none: its break code would be the prefix `0xe0`. -/
@[ext] structure MakeByte where
  byte : UInt8
  make : byte &&& 0x80 = 0
  ne_mark : byte ||| 0x80 ≠ 0xe0
deriving DecidableEq, Repr

inductive Key where
  | plain (code : MakeByte)
  /-- a key whose codes start with `0xe0` -/
  | extended (code : MakeByte)
  /-- the one key whose code is longer, and which has no break code -/
  | pause
deriving DecidableEq, Repr

/-- What a press or a repeat sends. With a ctrl key down the pause key is the break key. -/
def Key.makeCode (ctrlDown : Bool) : Key → List UInt8
  | .plain code => [code.byte]
  | .extended code => [0xe0, code.byte]
  | .pause =>
    if ctrlDown then [0xe0, 0x46, 0xe0, 0xc6] else [0xe1, 0x1d, 0x45, 0xe1, 0x9d, 0xc5]

/-- What a release sends. -/
def Key.breakCode : Key → List UInt8
  | .plain code => [code.byte ||| 0x80]
  | .extended code => [0xe0, code.byte ||| 0x80]
  | .pause => []

/-- The keys with a left and a right one. -/
inductive Modifier where
  | shift
  | ctrl
  | alt
deriving DecidableEq, Repr

def Modifier.left : Modifier → Key
  | .shift => .plain ⟨0x2a, by decide, by decide⟩
  | .ctrl => .plain ⟨0x1d, by decide, by decide⟩
  | .alt => .plain ⟨0x38, by decide, by decide⟩

def Modifier.right : Modifier → Key
  | .shift => .plain ⟨0x36, by decide, by decide⟩
  | .ctrl => .extended ⟨0x1d, by decide, by decide⟩
  | .alt => .extended ⟨0x38, by decide, by decide⟩

/-- `shift_status`, `ctrl_status`, `alt_status` -/
def Modifier.flag (status : KeyboardStatus) : Modifier → Bool
  | .shift => status.shift
  | .ctrl => status.ctrl
  | .alt => status.alt

/-- The codes the handler compares with. -/
def Modifier.makeCodes : Modifier → UInt16 × UInt16
  | .shift => (shiftLMake, shiftRMake)
  | .ctrl => (ctrlLMake, ctrlRMake)
  | .alt => (altLMake, altRMake)

/-! ## Events -/

inductive KeyEvent where
  /-- the key goes down, or repeats while it is down -/
  | press (key : Key)
  | release (key : Key)
deriving DecidableEq, Repr

/-- The keys that are down, and the flags of the handler. -/
structure Keyboard where
  down : Key → Bool
  status : KeyboardStatus

/-- No key is down, and the handler has not run. -/
def Keyboard.start : Keyboard := ⟨fun _ => false, .start⟩

/-- One of the two keys of a modifier is down. -/
def Keyboard.holds (keyboard : Keyboard) (m : Modifier) : Bool :=
  keyboard.down m.left || keyboard.down m.right

/-- The flags after bytes delivered to the handler one after another. -/
def scanBytes (status : KeyboardStatus) (bytes : List UInt8) : KeyboardStatus :=
  bytes.foldl (fun status byte => (keyboardScan status byte).1) status

/-- An event, with the handler's calls for every byte of its code. -/
def Keyboard.step (keyboard : Keyboard) : KeyEvent → Keyboard
  | .press key =>
    { down := Function.update keyboard.down key true
      status := scanBytes keyboard.status (key.makeCode (keyboard.holds .ctrl)) }
  | .release key =>
    { down := Function.update keyboard.down key false
      status := scanBytes keyboard.status key.breakCode }

/-- The keyboard after events from the start on. -/
def keyboardAfter (events : List KeyEvent) : Keyboard := events.foldl Keyboard.step .start

/-- A modifier's flag is set if and only if one of its keys is down. -/
def FlagsMirror (keyboard : Keyboard) : Prop :=
  ∀ m : Modifier, m.flag keyboard.status = true ↔
    keyboard.down m.left = true ∨ keyboard.down m.right = true

/-- The event is not the release of a modifier key whose twin is down. -/
def KeyEvent.Untwinned (down : Key → Bool) : KeyEvent → Prop
  | .press _ => True
  | .release key =>
    ∀ m : Modifier, (key = m.left → down m.right = false) ∧ (key = m.right → down m.left = false)

@[simp] theorem keyboardAfter_snoc (events : List KeyEvent) (event : KeyEvent) :
    keyboardAfter (events ++ [event]) = (keyboardAfter events).step event := by
  simp [keyboardAfter]

/-! ## One code -/

theorem Modifier.flag_keyboardCode (m : Modifier) (status : KeyboardStatus) (scancode : UInt16) :
    m.flag (keyboardCode status scancode).1 =
      flagAfter (m.flag status) m.makeCodes.1 m.makeCodes.2 scancode := by
  cases m with
  | shift => exact keyboardCode_shift status scancode
  | ctrl => exact keyboardCode_ctrl status scancode
  | alt => exact keyboardCode_alt status scancode

/-- A plain make code sets the flag of its modifier. -/
theorem flagAfter_plain_make (m : Modifier) (flag : Bool) (code : MakeByte) :
    flagAfter flag m.makeCodes.1 m.makeCodes.2 code.byte.toUInt16 =
      (flag || decide (Key.plain code = m.left) || decide (Key.plain code = m.right)) := by
  obtain ⟨byte, hmake, hne⟩ := code
  cases m
  all_goals
    simp only [Modifier.left, Modifier.right, Key.plain.injEq, MakeByte.mk.injEq, reduceCtorEq]
    revert byte flag
    decide +kernel

/-- A plain break code clears it. -/
theorem flagAfter_plain_break (m : Modifier) (flag : Bool) (code : MakeByte) :
    flagAfter flag m.makeCodes.1 m.makeCodes.2 (code.byte ||| 0x80).toUInt16 =
      (flag && !decide (Key.plain code = m.left) && !decide (Key.plain code = m.right)) := by
  obtain ⟨byte, hmake, hne⟩ := code
  cases m
  all_goals
    simp only [Modifier.left, Modifier.right, Key.plain.injEq, MakeByte.mk.injEq, reduceCtorEq]
    revert byte flag
    decide +kernel

/-- An extended make code is masked down to the plain one. -/
theorem flagAfter_extended_make (m : Modifier) (flag : Bool) (code : MakeByte) :
    flagAfter flag m.makeCodes.1 m.makeCodes.2 (0xe000 ||| code.byte.toUInt16) =
      (flag || decide (Key.extended code = m.left) || decide (Key.extended code = m.right)) := by
  obtain ⟨byte, hmake, hne⟩ := code
  cases m
  all_goals
    simp only [Modifier.left, Modifier.right, Key.extended.injEq, MakeByte.mk.injEq, reduceCtorEq]
    revert byte flag
    decide +kernel

/-- An extended break code is compared whole. -/
theorem flagAfter_extended_break (m : Modifier) (flag : Bool) (code : MakeByte) :
    flagAfter flag m.makeCodes.1 m.makeCodes.2 (0xe000 ||| (code.byte ||| 0x80).toUInt16) =
      (flag && !decide (Key.extended code = m.left) && !decide (Key.extended code = m.right)) := by
  obtain ⟨byte, hmake, hne⟩ := code
  cases m
  all_goals
    simp only [Modifier.left, Modifier.right, Key.extended.injEq, MakeByte.mk.injEq, reduceCtorEq]
    revert byte flag
    decide +kernel

theorem scanBytes_plain {status : KeyboardStatus} {byte : UInt8}
    (hext : status.extScancode = false) (hbyte : byte ≠ 0xe0) :
    scanBytes status [byte] = (keyboardCode status byte.toUInt16).1 :=
  congrArg Prod.fst (keyboardScan_plain hext hbyte)

theorem scanBytes_extended {status : KeyboardStatus} {byte : UInt8}
    (hext : status.extScancode = false) (hbyte : byte ≠ 0xe0) :
    scanBytes status [0xe0, byte] = (keyboardCode status (0xe000 ||| byte.toUInt16)).1 := by
  have hmark : (keyboardScan status 0xe0).1 = { status with extScancode := true } := rfl
  have hclear : { status with extScancode := false } = status := by rw [← hext]
  have hscan := @keyboardScan_prefixed { status with extScancode := true } _ rfl hbyte
  calc scanBytes status [0xe0, byte]
      = (keyboardScan { status with extScancode := true } byte).1 := rfl
    _ = (keyboardCode { status with extScancode := false } (0xe000 ||| byte.toUInt16)).1 :=
        congrArg Prod.fst hscan
    _ = (keyboardCode status (0xe000 ||| byte.toUInt16)).1 := by rw [hclear]

theorem MakeByte.byte_ne (code : MakeByte) : code.byte ≠ 0xe0 := by
  intro heq
  have hmake := code.make
  rw [heq] at hmake
  exact absurd hmake (by decide)

/-! ## One key -/

/-- A press or a repeat sets the flag of its modifier, and no other. -/
theorem scan_makeCode {status : KeyboardStatus} (hext : status.extScancode = false) (key : Key) :
    (scanBytes status (key.makeCode status.ctrl)).extScancode = false ∧
      ∀ m : Modifier, m.flag (scanBytes status (key.makeCode status.ctrl)) =
        (m.flag status || decide (key = m.left) || decide (key = m.right)) := by
  cases key with
  | plain code =>
    rw [Key.makeCode, scanBytes_plain hext code.byte_ne, keyboardCode_extScancode]
    refine ⟨hext, fun m => ?_⟩
    rw [m.flag_keyboardCode, flagAfter_plain_make]
  | extended code =>
    rw [Key.makeCode, scanBytes_extended hext code.byte_ne, keyboardCode_extScancode]
    refine ⟨hext, fun m => ?_⟩
    rw [m.flag_keyboardCode, flagAfter_extended_make]
  | pause =>
    -- the long code holds the codes of the left ctrl key, down and up
    obtain ⟨ctrl, shift, alt, capsLock, extScancode⟩ := status
    subst hext
    refine ⟨?_, fun m => ?_⟩
    · revert ctrl shift alt capsLock
      decide
    · cases m
      all_goals
        revert ctrl shift alt capsLock
        decide

/-- A release clears the flag of its modifier, whether the twin is down or not. -/
theorem scan_breakCode {status : KeyboardStatus} (hext : status.extScancode = false) (key : Key) :
    (scanBytes status key.breakCode).extScancode = false ∧
      ∀ m : Modifier, m.flag (scanBytes status key.breakCode) =
        (m.flag status && !decide (key = m.left) && !decide (key = m.right)) := by
  cases key with
  | plain code =>
    rw [Key.breakCode, scanBytes_plain hext code.ne_mark, keyboardCode_extScancode]
    refine ⟨hext, fun m => ?_⟩
    rw [m.flag_keyboardCode, flagAfter_plain_break]
  | extended code =>
    rw [Key.breakCode, scanBytes_extended hext code.ne_mark, keyboardCode_extScancode]
    refine ⟨hext, fun m => ?_⟩
    rw [m.flag_keyboardCode, flagAfter_extended_break]
  | pause =>
    refine ⟨hext, fun m => ?_⟩
    cases m
    · simp [scanBytes, Key.breakCode, Modifier.left, Modifier.right]
    · simp [scanBytes, Key.breakCode, Modifier.left, Modifier.right]
    · simp [scanBytes, Key.breakCode, Modifier.left, Modifier.right]

/-! ## Events in a row -/

/-- The flags mirror the keys, and no code is half read. -/
structure Mirrored (keyboard : Keyboard) : Prop where
  extScancode : keyboard.status.extScancode = false
  flag : ∀ m : Modifier, m.flag keyboard.status = keyboard.holds m

theorem Mirrored.start : Mirrored .start where
  extScancode := rfl
  flag m := by
    cases m
    · rfl
    · rfl
    · rfl

theorem Mirrored.press {keyboard : Keyboard} (h : Mirrored keyboard) (key : Key) :
    Mirrored (keyboard.step (.press key)) := by
  have hctrl : keyboard.holds .ctrl = keyboard.status.ctrl := (h.flag .ctrl).symm
  obtain ⟨hext, hflag⟩ := scan_makeCode h.extScancode key
  rw [← hctrl] at hext hflag
  refine ⟨hext, fun m => ?_⟩
  calc m.flag (keyboard.step (.press key)).status
      = (m.flag keyboard.status || decide (key = m.left) || decide (key = m.right)) := hflag m
    _ = (keyboard.holds m || decide (key = m.left) || decide (key = m.right)) := by rw [h.flag]
    _ = (keyboard.step (.press key)).holds m := by
        simp only [Keyboard.holds, Keyboard.step, Function.update_apply]
        grind

theorem Mirrored.release {keyboard : Keyboard} (h : Mirrored keyboard) {key : Key}
    (halone : (KeyEvent.release key).Untwinned keyboard.down) :
    Mirrored (keyboard.step (.release key)) := by
  obtain ⟨hext, hflag⟩ := scan_breakCode h.extScancode key
  refine ⟨hext, fun m => ?_⟩
  obtain ⟨hleft, hright⟩ := halone m
  calc m.flag (keyboard.step (.release key)).status
      = (m.flag keyboard.status && !decide (key = m.left) && !decide (key = m.right)) := hflag m
    _ = (keyboard.holds m && !decide (key = m.left) && !decide (key = m.right)) := by rw [h.flag]
    _ = (keyboard.step (.release key)).holds m := by
        simp only [Keyboard.holds, Keyboard.step, Function.update_apply]
        grind

theorem Mirrored.step {keyboard : Keyboard} (h : Mirrored keyboard) {event : KeyEvent}
    (halone : event.Untwinned keyboard.down) : Mirrored (keyboard.step event) := by
  cases event with
  | press key => exact h.press key
  | release key => exact h.release halone

theorem Modifier.left_ne_right (m : Modifier) : m.left ≠ m.right := by
  cases m
  · decide
  · decide
  · decide

/-- The release of a modifier key whose twin is down leaves the flag and the keys apart. -/
theorem Mirrored.untwinned {keyboard : Keyboard} (h : Mirrored keyboard) {event : KeyEvent}
    (hmirror : FlagsMirror (keyboard.step event)) : event.Untwinned keyboard.down := by
  cases event with
  | press key => trivial
  | release key =>
    intro m
    obtain ⟨-, hflag⟩ := scan_breakCode h.extScancode key
    have hcleared : key = m.left ∨ key = m.right →
        m.flag (keyboard.step (.release key)).status = false := by
      intro hkey
      refine (hflag m).trans ?_
      obtain rfl | rfl := hkey
      · simp
      · simp
    constructor
    · intro hkey
      by_contra hdown
      have hset := (hmirror m).mpr (Or.inr (by
        simpa [Keyboard.step, Function.update_apply, hkey, m.left_ne_right.symm] using hdown))
      rw [hcleared (Or.inl hkey)] at hset
      cases hset
    · intro hkey
      by_contra hdown
      have hset := (hmirror m).mpr (Or.inl (by
        simpa [Keyboard.step, Function.update_apply, hkey, m.left_ne_right] using hdown))
      rw [hcleared (Or.inr hkey)] at hset
      cases hset

theorem Mirrored.mirror {keyboard : Keyboard} (h : Mirrored keyboard) : FlagsMirror keyboard := by
  intro m
  rw [h.flag, Keyboard.holds, Bool.or_eq_true]

/-- As long as no modifier key is released while its twin is down, the flags mirror the keys. -/
theorem mirrored_after {events : List KeyEvent}
    (h : ∀ past event, past ++ [event] <+: events → event.Untwinned (keyboardAfter past).down) :
    Mirrored (keyboardAfter events) := by
  induction events using List.reverseRecOn with
  | nil => exact Mirrored.start
  | append_singleton past event ih =>
    rw [keyboardAfter_snoc]
    have hpast : Mirrored (keyboardAfter past) := by
      apply ih
      intro earlier e hearlier
      exact h earlier e (hearlier.trans (List.prefix_append past [event]))
    exact hpast.step (h past event List.prefix_rfl)

/-- After every event of a sequence the flags mirror the keys, if and only if no modifier key is
released in it while its twin is down. -/
theorem flags_mirror_iff (events : List KeyEvent) :
    (∀ past, past <+: events → FlagsMirror (keyboardAfter past)) ↔
      ∀ past event, past ++ [event] <+: events → event.Untwinned (keyboardAfter past).down := by
  constructor
  · intro h
    induction events using List.reverseRecOn with
    | nil =>
      intro past event hpast
      simp at hpast
    | append_singleton before last ih =>
      have hbefore := ih fun past hpast => h past (hpast.trans (List.prefix_append before [last]))
      intro past event hpast
      rcases List.prefix_concat_iff.mp hpast with heq | hearlier
      · obtain ⟨hpast', hevent⟩ := List.append_inj' heq rfl
        rw [List.cons.injEq] at hevent
        have hlast := h (before ++ [last]) List.prefix_rfl
        rw [keyboardAfter_snoc] at hlast
        rw [hpast', hevent.1]
        exact (mirrored_after hbefore).untwinned hlast
      · exact hbefore past event hearlier
  · intro h past hpast
    apply Mirrored.mirror
    apply mirrored_after
    intro earlier event hearlier
    exact h earlier event (hearlier.trans hpast)

/-- Both shift keys are down, and the left one is released. -/
def twinRelease : List KeyEvent :=
  [.press Modifier.shift.left, .press Modifier.shift.right, .release Modifier.shift.left]

theorem twin_release_clears : ¬ FlagsMirror (keyboardAfter twinRelease) := by
  intro hmirror
  have hdown : (keyboardAfter twinRelease).down Modifier.shift.right = true := by decide
  have hflag : Modifier.shift.flag (keyboardAfter twinRelease).status = false := by decide
  rw [(hmirror .shift).mpr (Or.inr hdown)] at hflag
  cases hflag

end OsKernel
