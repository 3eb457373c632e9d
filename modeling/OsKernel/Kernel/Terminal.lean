import OsKernel.Kernel.Print

/-!
# The text terminal of lib/kernel/print.S

`Terminal` is what the screen is for: 25 rows of 80 cells and a cursor that is always in one of
them. `put_char` refines it for every byte but the backspace.

- `Terminal.print`: the reference for one byte.
- `Shows`: the hardware shows a terminal.
- `putStr_shows`: a string does to the hardware what its bytes do to the terminal.
- `cursor_on_screen_iff`: with backspaces, the cursor and the stores stay on the screen exactly as
  long as none is printed in the first cell.
-/

namespace OsKernel

/-! ## The reference -/

/-- A cell of the screen. -/
structure Cell where
  char : UInt8
  attr : UInt8
deriving DecidableEq, Repr

/-- A blank with the attribute of every character. -/
def Cell.blank : Cell := ⟨0x20, 0x07⟩

/-- The cells, row by row, and the one the cursor is in. -/
structure Terminal where
  cell : Fin 2000 → Cell
  cursor : Fin 2000

namespace Terminal

/-- The rows 1 to 24 moved up, and a blank row 24. -/
def scroll (t : Terminal) : Terminal where
  cell i := if h : (i : Nat) + 80 < 2000 then t.cell ⟨i + 80, h⟩ else .blank
  cursor := 1920

/-- The cursor moves on, unless it would leave the screen. -/
def moveTo (t : Terminal) (pos : Nat) : Terminal :=
  if h : pos < 2000 then { t with cursor := ⟨pos, h⟩ } else t.scroll

/-- One byte that is no backspace. -/
def print (t : Terminal) (byte : UInt8) : Terminal :=
  if byte = 0x0a ∨ byte = 0x0d then t.moveTo (((t.cursor : Nat) / 80 + 1) * 80)
  else { t with cell := Function.update t.cell t.cursor ⟨byte, 0x07⟩ }.moveTo ((t.cursor : Nat) + 1)

end Terminal

/-- The hardware shows the terminal. -/
structure Shows (v : Vga) (t : Terminal) : Prop where
  cursor : v.cursor.toNat = t.cursor
  char : ∀ i : Fin 2000, v.text (2 * i) = (t.cell i).char
  attr : ∀ i : Fin 2000, v.text (2 * i + 1) = (t.cell i).attr

/-! ## The screen after a call -/

namespace Vga

@[simp] theorem text_outIndex (v : Vga) (al : UInt8) : (v.outIndex al).text = v.text := rfl

@[simp] theorem text_setCursor (v : Vga) (bx : UInt16) : (v.setCursor bx).text = v.text := rfl

theorem text_moveRows (ecx dst : Nat) (v : Vga) (a : Nat) :
    (v.moveRows ecx dst).text a =
      if dst ≤ a ∧ a < dst + 4 * ecx then v.text (a + 160) else v.text a := by
  induction ecx generalizing v dst with
  | zero => exact (if_neg (by omega)).symm
  | succ ecx ih =>
    rw [moveRows, ih]
    by_cases hhere : dst ≤ a ∧ a < dst + 4
    · -- moved in this turn, and no later turn reads or writes it
      rw [if_neg (by omega), if_pos (by omega)]
      simp only [movsd, if_pos hhere]
      congr 1
      omega
    · by_cases hlater : dst + 4 ≤ a ∧ a < dst + 4 + 4 * ecx
      · rw [if_pos hlater, if_pos (by omega)]
        exact if_neg (by omega)
      · rw [if_neg hlater, if_neg (by omega)]
        exact if_neg hhere

theorem text_clearCells (ecx ebx : Nat) (v : Vga) (a : Nat) :
    (v.clearCells ecx ebx).text a =
      if ebx ≤ a ∧ a < ebx + 2 * ecx then (if (a - ebx) % 2 = 0 then 0x20 else 0x07)
      else v.text a := by
  induction ecx generalizing v ebx with
  | zero => exact (if_neg (by omega)).symm
  | succ ecx ih =>
    rw [clearCells, ih]
    simp only [store, Function.update_apply]
    grind

theorem text_rollScreen (v : Vga) (a : Nat) :
    v.rollScreen.text a =
      if a < 3840 then v.text (a + 160)
      else if a < 4000 then (if a % 2 = 0 then 0x20 else 0x07)
      else v.text a := by
  rw [rollScreen, text_clearCells, text_moveRows]
  by_cases hrow : a < 3840
  · have hnotLast : ¬ (3840 ≤ a ∧ a < 3840 + 2 * 80) := by omega
    have hmoved : 0 ≤ a ∧ a < 0 + 4 * 960 := by omega
    rw [if_neg hnotLast, if_pos hmoved, if_pos hrow]
  · have hkept : ¬ (0 ≤ a ∧ a < 0 + 4 * 960) := by omega
    rw [if_neg hrow, if_neg hkept]
    by_cases hlast : a < 4000
    · have hcleared : 3840 ≤ a ∧ a < 3840 + 2 * 80 := by omega
      have hparity : (a - 3840) % 2 = a % 2 := by omega
      rw [if_pos hcleared, if_pos hlast, hparity]
    · have hnotLast : ¬ (3840 ≤ a ∧ a < 3840 + 2 * 80) := by omega
      rw [if_neg hnotLast, if_neg hlast]

theorem text_putCell (v : Vga) (pos : Nat) (byte : UInt8) (a : Nat) :
    (v.putCell pos byte).text a =
      if a = 2 * pos + 1 then 0x07 else if a = 2 * pos then byte else v.text a := by
  simp only [putCell, store, Function.update_apply]

end Vga

namespace Shows

variable {v : Vga} {t : Terminal}

/-- The cursor's registers are set last, so a move depends on the text alone. -/
theorem moveTo {bx : UInt16} (hchar : ∀ i : Fin 2000, v.text (2 * i) = (t.cell i).char)
    (hattr : ∀ i : Fin 2000, v.text (2 * i + 1) = (t.cell i).attr) (hbx : bx.toNat < 0x8000) :
    Shows (v.moveTo bx) (t.moveTo bx.toNat) := by
  unfold Vga.moveTo Terminal.moveTo
  by_cases hon : onScreen bx = true
  · have hlt := (onScreen_iff hbx).mp hon
    rw [if_pos hon, dif_pos hlt]
    exact ⟨congrArg UInt16.toNat (Vga.cursor_setCursor v bx), hchar, hattr⟩
  · have hge : ¬ bx.toNat < 2000 := fun h => hon ((onScreen_iff hbx).mpr h)
    rw [if_neg hon, dif_neg hge]
    refine ⟨congrArg UInt16.toNat (Vga.cursor_setCursor v.rollScreen 1920), ?_, ?_⟩
    · intro i
      rw [Vga.text_setCursor, Vga.text_rollScreen]
      have hlast : 2 * (i : Nat) < 4000 := by omega
      have heven : 2 * (i : Nat) % 2 = 0 := by omega
      unfold Terminal.scroll
      by_cases hrow : (i : Nat) + 80 < 2000
      · have hup : 2 * (i : Nat) < 3840 := by omega
        rw [if_pos hup]
        simp only [dif_pos hrow, ← hchar]
        congr 1
      · have hbottom : ¬ 2 * (i : Nat) < 3840 := by omega
        rw [if_neg hbottom, if_pos hlast, if_pos heven]
        simp only [dif_neg hrow]
        rfl
    · intro i
      rw [Vga.text_setCursor, Vga.text_rollScreen]
      have hlast : 2 * (i : Nat) + 1 < 4000 := by omega
      have hodd : ¬ (2 * (i : Nat) + 1) % 2 = 0 := by omega
      unfold Terminal.scroll
      by_cases hrow : (i : Nat) + 80 < 2000
      · have hup : 2 * (i : Nat) + 1 < 3840 := by omega
        rw [if_pos hup]
        simp only [dif_pos hrow, ← hattr]
        congr 1
      · have hbottom : ¬ 2 * (i : Nat) + 1 < 3840 := by omega
        rw [if_neg hbottom, if_pos hlast, if_neg hodd]
        simp only [dif_neg hrow]
        rfl

/-- `put_char` does what the reference does. -/
theorem print (h : Shows v t) {byte : UInt8} (hbyte : byte ≠ 0x08) :
    ∃ v', putChar byte v = .returned v' ∧ Shows v' (t.print byte) := by
  have hcursor : v.cursor.toNat < 2000 := h.cursor ▸ t.cursor.isLt
  unfold Terminal.print
  by_cases hline : byte = 0x0a ∨ byte = 0x0d
  · refine ⟨_, putChar_lineFeed hline.symm, ?_⟩
    have hrow := @lineStart_toNat v.cursor (by omega)
    rw [if_pos hline, ← h.cursor, ← hrow]
    exact moveTo h.char h.attr (by omega)
  · have hnext := @toNat_succ v.cursor (by omega)
    rw [not_or] at hline
    refine ⟨_, putChar_other hline.2 hline.1 hbyte hcursor, ?_⟩
    rw [if_neg (not_or.mpr hline), ← h.cursor, ← hnext]
    refine moveTo ?_ ?_ (by omega)
    · intro i
      rw [Vga.text_putCell, if_neg (by omega), h.cursor]
      by_cases hi : i = t.cursor
      · subst hi
        simp
      · have hne : (i : Nat) ≠ t.cursor := fun heq => hi (Fin.ext heq)
        rw [if_neg (by omega)]
        simpa [Function.update_of_ne hi] using h.char i
    · intro i
      rw [Vga.text_putCell, h.cursor]
      by_cases hi : i = t.cursor
      · subst hi
        simp
      · have hne : (i : Nat) ≠ t.cursor := fun heq => hi (Fin.ext heq)
        rw [if_neg (by omega), if_neg (by omega)]
        simpa [Function.update_of_ne hi] using h.attr i

end Shows

/-- `put_str` does to the hardware what its bytes, one after another, do to the terminal. -/
theorem putStr_shows {v : Vga} {t : Terminal} (h : Shows v t) {str : List UInt8}
    (hstr : 0x08 ∉ str) :
    ∃ v', putStr str v = .returned v' ∧
      Shows v' ((str.takeWhile (· ≠ 0)).foldl Terminal.print t) := by
  induction str generalizing v t with
  | nil => exact ⟨v, rfl, h⟩
  | cons byte str ih =>
    rw [List.mem_cons, not_or] at hstr
    by_cases hzero : byte = 0
    · subst hzero
      exact ⟨v, rfl, h⟩
    · obtain ⟨v', hcall, hshows⟩ := h.print (Ne.symm hstr.1)
      obtain ⟨v'', hrest, hshows'⟩ := ih hshows hstr.2
      refine ⟨v'', ?_, ?_⟩
      · rw [putStr, if_neg hzero, hcall]
        exact hrest
      · rw [List.takeWhile_cons_of_pos (by simpa using hzero)]
        exact hshows'

/-- A screen of blanks with the cursor at `bx`. -/
def blankScreen (bx : UInt16) : Vga where
  index := 0x0f
  cursorHigh := (bx >>> 8).toUInt8
  cursorLow := bx.toUInt8
  text a := if a % 2 = 0 then 0x20 else 0x07
  writes := []

theorem blankScreen_shows (cursor : Fin 2000) :
    Shows (blankScreen (UInt16.ofNat cursor)) ⟨fun _ => .blank, cursor⟩ := by
  have hcursor : (blankScreen (UInt16.ofNat cursor)).cursor = UInt16.ofNat cursor :=
    Vga.cursor_setCursor (blankScreen 0) (UInt16.ofNat cursor)
  refine ⟨?_, ?_, ?_⟩
  · rw [hcursor, UInt16.toNat_ofNat']
    exact Nat.mod_eq_of_lt (by omega)
  · intro i
    exact if_pos (by omega)
  · intro i
    exact if_neg (by omega)

/-- Two characters and a line feed, from the last cell but one: the second one rolls the screen. -/
theorem putStr_shows_roll :
    ∃ v', putStr [0x41, 0x42, 0x0a] (blankScreen (UInt16.ofNat (1998 : Fin 2000))) = .returned v' ∧
      Shows v' ((List.takeWhile (· ≠ 0) [0x41, 0x42, 0x0a]).foldl Terminal.print
        ⟨fun _ => .blank, 1998⟩) :=
  putStr_shows (blankScreen_shows 1998) (by decide)

namespace Terminal

/-- Below the first row the cursor stays below it, and a line feed takes it there. -/
theorem print_below {t : Terminal} {byte : UInt8} (h : 80 ≤ (t.cursor : Nat) ∨ byte = 0x0a) :
    80 ≤ ((t.print byte).cursor : Nat) := by
  have hmove : ∀ (t' : Terminal) (pos : Nat), 80 ≤ pos → 80 ≤ ((t'.moveTo pos).cursor : Nat) := by
    intro t' pos hpos
    unfold moveTo
    split
    · exact hpos
    · exact (by decide : 80 ≤ 1920)
  unfold print
  split
  · exact hmove _ _ (by omega)
  · next hne =>
    rcases h with h | h
    · exact hmove _ _ (by omega)
    · exact absurd (.inl h) hne

/-- A line feed among the bytes leaves the cursor below the first row. -/
theorem foldl_print_below {t : Terminal} {bytes : List UInt8}
    (h : 80 ≤ (t.cursor : Nat) ∨ 0x0a ∈ bytes) : 80 ≤ ((bytes.foldl print t).cursor : Nat) := by
  induction bytes generalizing t with
  | nil => simpa using h
  | cons byte bytes ih =>
    rw [List.mem_cons] at h
    apply ih
    rcases h with h | h | h
    · exact .inl (print_below (.inl h))
    · exact .inl (print_below (.inr h.symm))
    · exact .inr h

end Terminal

/-! ## Backspaces -/

/-- The cursor is on the screen, and so is every store so far. -/
structure Vga.OnScreen (v : Vga) : Prop where
  cursor : v.cursor.toNat < 2000
  writes : ∀ offset ∈ v.writes, offset < 4000

/-- The same of a call, also if it ends with an exception. -/
def PutCharOutcome.OnScreen : PutCharOutcome → Prop
  | .returned v => v.OnScreen
  | .faulted v => v.OnScreen
  | .outOfFuel => False

/-- Bytes printed with `put_char` one after another. -/
def putBytes : List UInt8 → Vga → PutCharOutcome
  | [], v => .returned v
  | byte :: bytes, v =>
    match putChar byte v with
    | .returned v => putBytes bytes v
    | other => other

namespace Vga

theorem writes_moveRows {ecx dst : Nat} {v : Vga} (hdst : dst + 4 * ecx ≤ 4000)
    (h : ∀ offset ∈ v.writes, offset < 4000) :
    ∀ offset ∈ (v.moveRows ecx dst).writes, offset < 4000 := by
  induction ecx generalizing v dst with
  | zero => exact h
  | succ ecx ih =>
    apply ih (by omega)
    intro offset hoffset
    simp only [movsd, List.mem_cons] at hoffset
    rcases hoffset with rfl | rfl | rfl | rfl | hold
    · omega
    · omega
    · omega
    · omega
    · exact h offset hold

theorem writes_clearCells {ecx ebx : Nat} {v : Vga} (hebx : ebx + 2 * ecx ≤ 4000)
    (h : ∀ offset ∈ v.writes, offset < 4000) :
    ∀ offset ∈ (v.clearCells ecx ebx).writes, offset < 4000 := by
  induction ecx generalizing v ebx with
  | zero => exact h
  | succ ecx ih =>
    apply ih (by omega)
    intro offset hoffset
    simp only [store, List.mem_cons] at hoffset
    rcases hoffset with rfl | rfl | hold
    · omega
    · omega
    · exact h offset hold

theorem writes_putCell {pos : Nat} {byte : UInt8} {v : Vga} (hpos : pos < 2000)
    (h : ∀ offset ∈ v.writes, offset < 4000) :
    ∀ offset ∈ (v.putCell pos byte).writes, offset < 4000 := by
  intro offset hoffset
  simp only [putCell, store, List.mem_cons] at hoffset
  rcases hoffset with rfl | rfl | hold
  · omega
  · omega
  · exact h offset hold

/-- A move ends on the screen wherever it goes. -/
theorem onScreen_moveTo {v : Vga} {bx : UInt16} (hbx : bx.toNat < 0x8000)
    (h : ∀ offset ∈ v.writes, offset < 4000) : (v.moveTo bx).OnScreen := by
  unfold moveTo
  by_cases hon : onScreen bx = true
  · rw [if_pos hon]
    refine ⟨?_, h⟩
    rw [cursor_setCursor]
    exact (onScreen_iff hbx).mp hon
  · rw [if_neg hon]
    refine ⟨?_, ?_⟩
    · rw [cursor_setCursor]
      decide
    · exact writes_clearCells (by omega) (writes_moveRows (by omega) h)

end Vga

theorem putChar_onScreen {v : Vga} (h : v.OnScreen) {byte : UInt8}
    (hbyte : byte = 0x08 → v.cursor ≠ 0) :
    ∃ v', putChar byte v = .returned v' ∧ v'.OnScreen := by
  have hcursor := h.cursor
  by_cases hback : byte = 0x08
  · subst hback
    have hpred := toNat_pred (hbyte rfl)
    refine ⟨_, putChar_backspace hcursor (hbyte rfl), ?_, ?_⟩
    · rw [Vga.cursor_setCursor]
      omega
    · exact Vga.writes_putCell (by omega) h.writes
  · by_cases hline : byte = 0x0d ∨ byte = 0x0a
    · have hrow := @lineStart_toNat v.cursor (by omega)
      exact ⟨_, putChar_lineFeed hline, Vga.onScreen_moveTo (by omega) h.writes⟩
    · have hnext := @toNat_succ v.cursor (by omega)
      rw [not_or] at hline
      exact ⟨_, putChar_other hline.1 hline.2 hback hcursor,
        Vga.onScreen_moveTo (by omega) (Vga.writes_putCell hcursor h.writes)⟩

/-- The exception comes from a store far off the screen. -/
theorem putChar_not_onScreen {v : Vga} (hzero : v.cursor = 0) :
    ¬ (putChar 0x08 v).OnScreen := by
  rw [putChar_backspace_zero hzero]
  intro h
  have hlt := h.writes 0xfffe List.mem_cons_self
  omega

/-- Bytes without a backspace. -/
theorem putBytes_shows {v : Vga} {t : Terminal} (h : Shows v t) {bytes : List UInt8}
    (hbytes : 0x08 ∉ bytes) :
    ∃ v', putBytes bytes v = .returned v' ∧ Shows v' (bytes.foldl Terminal.print t) := by
  induction bytes generalizing v t with
  | nil => exact ⟨v, rfl, h⟩
  | cons byte bytes ih =>
    rw [List.mem_cons, not_or] at hbytes
    obtain ⟨v', hcall, hshows⟩ := h.print (Ne.symm hbytes.1)
    obtain ⟨v'', hrest, hshows'⟩ := ih hshows hbytes.2
    exact ⟨v'', by rw [putBytes, hcall]; exact hrest, hshows'⟩

theorem putBytes_append (past bytes : List UInt8) (v : Vga) :
    putBytes (past ++ bytes) v =
      match putBytes past v with
      | .returned v => putBytes bytes v
      | other => other := by
  induction past generalizing v with
  | nil => rfl
  | cons byte past ih =>
    rw [List.cons_append, putBytes, putBytes]
    cases hcall : putChar byte v with
    | returned v' => exact ih v'
    | faulted v' => rfl
    | outOfFuel => rfl

/-- Bytes among which no backspace finds the cursor in the first cell. -/
theorem putBytes_onScreen {v : Vga} (h : v.OnScreen) {bytes : List UInt8}
    (hbytes : ∀ past v', past ++ [0x08] <+: bytes → putBytes past v = .returned v' →
      v'.cursor ≠ 0) :
    ∃ v', putBytes bytes v = .returned v' ∧ v'.OnScreen := by
  induction bytes using List.reverseRecOn with
  | nil => exact ⟨v, rfl, h⟩
  | append_singleton before byte ih =>
    obtain ⟨v', hbefore, hon⟩ := ih fun past v' hpast =>
      hbytes past v' (hpast.trans (List.prefix_append before [byte]))
    obtain ⟨v'', hcall, hon'⟩ := putChar_onScreen hon fun hback =>
      hbytes before v' (hback ▸ List.prefix_rfl) hbefore
    refine ⟨v'', ?_, hon'⟩
    rw [putBytes_append, hbefore]
    simp [putBytes, hcall]

/-- The cursor and the stores stay on the screen, if and only if no backspace is printed while the
cursor is in the first cell. -/
theorem cursor_on_screen_iff {v : Vga} (h : v.OnScreen) (bytes : List UInt8) :
    (∀ past, past <+: bytes → (putBytes past v).OnScreen) ↔
      ∀ past v', past ++ [0x08] <+: bytes → putBytes past v = .returned v' → v'.cursor ≠ 0 := by
  constructor
  · intro hon past v' hpast hcall hzero
    have hlast := hon (past ++ [0x08]) hpast
    rw [putBytes_append, hcall] at hlast
    apply putChar_not_onScreen hzero
    simp only [putBytes] at hlast
    cases hout : putChar 0x08 v' with
    | returned v'' => rwa [hout] at hlast
    | faulted v'' => rwa [hout] at hlast
    | outOfFuel => rwa [hout] at hlast
  · intro hback past hpast
    obtain ⟨v', hcall, hon⟩ := putBytes_onScreen h fun earlier v' hearlier =>
      hback earlier v' (hearlier.trans hpast)
    rw [hcall]
    exact hon

theorem blankScreen_onScreen (cursor : Fin 2000) :
    (blankScreen (UInt16.ofNat cursor)).OnScreen := by
  refine ⟨?_, ?_⟩
  · rw [(blankScreen_shows cursor).cursor]
    exact cursor.isLt
  · intro offset hoffset
    cases hoffset

theorem cursor_on_screen_blank :
    (∀ past, past <+: [0x41, 0x08] →
        (putBytes past (blankScreen (UInt16.ofNat (0 : Fin 2000)))).OnScreen) ↔
      ∀ past v', past ++ [0x08] <+: [0x41, 0x08] →
        putBytes past (blankScreen (UInt16.ofNat (0 : Fin 2000))) = .returned v' →
          v'.cursor ≠ 0 :=
  cursor_on_screen_iff (blankScreen_onScreen 0) [0x41, 0x08]

/-- A backspace on an empty screen. -/
theorem backspace_leaves_screen : (blankScreen (UInt16.ofNat (0 : Fin 2000))).OnScreen ∧
    ¬ (putBytes [0x08] (blankScreen (UInt16.ofNat (0 : Fin 2000)))).OnScreen := by
  refine ⟨blankScreen_onScreen 0, fun hback => ?_⟩
  have hcursor : (blankScreen (UInt16.ofNat (0 : Fin 2000))).cursor = 0 := rfl
  rw [putBytes, putChar_backspace_zero hcursor] at hback
  have hlt := hback.writes 0xfffe List.mem_cons_self
  omega

end OsKernel
