import OsKernel.Kernel.Debug
import OsKernel.Lib.CString

/-!
# lib/string.c

The string functions, on a memory of bytes with 32-bit addresses. A loop that has not ended after
as many turns as there are addresses never does, so it fails there. `char` is signed.

- `strcpy`, `strlen`, `strcmp`, `strchr`, `strrchr`, `strcat`, `strchrs`: the functions.
- `strlen_spec`, `strcpy_spec` and so on: what each of them does with strings.
- `strcpy_equal_iff`: `strcpy` does not copy the final zero byte, so the copy is an equal string
  exactly when there was one at the right place already.
- `strrchr_stops_iff`: `strrchr` compares the pointer instead of the character with zero, so it reads
  on to the end of the address space.
-/

namespace OsKernel

open Lib Memory32

/-! ## The functions -/

/-- As many turns as there are addresses. -/
def addressSpace : Nat := 2 ^ 32

/-- The loop of `strcpy`. -/
def strcpyLoop : Nat → UInt32 → UInt32 → Memory32 → Except Panic Memory32
  | 0, _, _, _ => .error .wildPointer
  | fuel + 1, dst, src, m =>
    if m src ≠ 0 then strcpyLoop fuel (dst + 1) (src + 1) (m.write8 dst (m src)) else .ok m

/-- `strcpy` -/
def strcpy (dst src : UInt32) (m : Memory32) : Except Panic (UInt32 × Memory32) := do
  assert (dst != 0 && src != 0) .strcpyArgs
  let m ← strcpyLoop addressSpace dst src m
  return (dst, m)

/-- `while(*p++);`: the address behind the first zero byte -/
def skipString (m : Memory32) : Nat → UInt32 → Except Panic UInt32
  | 0, _ => .error .wildPointer
  | fuel + 1, p => if m p ≠ 0 then skipString m fuel (p + 1) else .ok (p + 1)

/-- `strlen` -/
def strlen (str : UInt32) (m : Memory32) : Except Panic UInt32 := do
  assert (str != 0) .strlenStr
  let p ← skipString m addressSpace str
  return p - str - 1

/-- The loop of `strcmp`. -/
def strcmpLoop (m : Memory32) : Nat → UInt32 → UInt32 → Except Panic (UInt32 × UInt32)
  | 0, _, _ => .error .wildPointer
  | fuel + 1, a, b =>
    if m a ≠ 0 ∧ m a = m b then strcmpLoop m fuel (a + 1) (b + 1) else .ok (a, b)

/-- `strcmp` -/
def strcmp (a b : UInt32) (m : Memory32) : Except Panic Int8 := do
  assert (a != 0 && b != 0) .strcmpArgs
  let (a, b) ← strcmpLoop m addressSpace a b
  return if (m a).toInt8 < (m b).toInt8 then -1 else if (m a).toInt8 > (m b).toInt8 then 1 else 0

/-- The loop of `strchr`. -/
def strchrLoop (m : Memory32) (ch : UInt8) : Nat → UInt32 → Except Panic UInt32
  | 0, _ => .error .wildPointer
  | fuel + 1, str =>
    if m str ≠ 0 then if m str = ch then .ok str else strchrLoop m ch fuel (str + 1) else .ok 0

/-- `strchr` -/
def strchr (str : UInt32) (ch : UInt8) (m : Memory32) : Except Panic UInt32 := do
  assert (str != 0) .strchrStr
  strchrLoop m ch addressSpace str

/-- What `strrchr` has found and the addresses it has read. -/
structure Search where
  lastChar : UInt32
  reads : List UInt32

/-- The loop of `strrchr`: its condition is about the pointer. -/
def strrchrLoop (m : Memory32) (ch : UInt8) : Nat → UInt32 → Search → Except Panic Search
  | 0, _, _ => .error .wildPointer
  | fuel + 1, str, found =>
    if str ≠ 0 then
      strrchrLoop m ch fuel (str + 1)
        { lastChar := if m str = ch then str else found.lastChar, reads := found.reads ++ [str] }
    else .ok found

/-- `strrchr` -/
def strrchr (str : UInt32) (ch : UInt8) (m : Memory32) : Except Panic Search := do
  assert (str != 0) .strrchrStr
  strrchrLoop m ch addressSpace str { lastChar := 0, reads := [] }

/-- The second loop of `strcat`. -/
def strcatLoop : Nat → UInt32 → UInt32 → Memory32 → Except Panic Memory32
  | 0, _, _, _ => .error .wildPointer
  | fuel + 1, dst, src, m =>
    if m src ≠ 0 then strcatLoop fuel (dst + 1) (src + 1) (m.write8 dst (m src))
    else .ok (m.write8 dst (m src))

/-- `strcat` -/
def strcat (dst src : UInt32) (m : Memory32) : Except Panic (UInt32 × Memory32) := do
  assert (dst != 0 && src != 0) .strcatArgs
  let p ← skipString m addressSpace dst
  let m ← strcatLoop addressSpace (p - 1) src m
  return (dst, m)

/-- The loop of `strchrs`. -/
def strchrsLoop (m : Memory32) (ch : UInt8) : Nat → UInt32 → UInt32 → Except Panic UInt32
  | 0, _, _ => .error .wildPointer
  | fuel + 1, str, cnt =>
    if m str ≠ 0 then strchrsLoop m ch fuel (str + 1) (if m str = ch then cnt + 1 else cnt)
    else .ok cnt

/-- `strchrs` -/
def strchrs (str : UInt32) (ch : UInt8) (m : Memory32) : Except Panic UInt32 := do
  assert (str != 0) .strchrsStr
  strchrsLoop m ch addressSpace str 0

/-! ## What the functions do with strings -/

section Specs

variable {m m' : Memory32} {a b dst src : UInt32} {s t : List UInt8} {ch : UInt8}

theorem ne_null (h : IsCStr m a s) : (a != 0) = true := bne_iff_ne.mpr h.notNull

theorem skipString_spec {fuel : Nat} (h : IsCStr m a s) (hfuel : s.length < fuel) :
    skipString m fuel a = .ok (a + UInt32.ofNat (s.length + 1)) := by
  induction s generalizing a fuel with
  | nil =>
    obtain ⟨n, rfl⟩ := Nat.exists_eq_succ_of_ne_zero (Nat.ne_of_gt hfuel)
    simp [skipString, h.empty]
  | cons x s ih =>
    rw [List.length_cons] at hfuel
    obtain ⟨n, rfl⟩ := Nat.exists_eq_succ_of_ne_zero (Nat.ne_of_gt (Nat.zero_lt_of_lt hfuel))
    rw [skipString, if_pos h.head_ne, ih h.tail (Nat.lt_of_succ_lt_succ hfuel), List.length_cons,
      ← add_ofNat_succ]

/-- Where the loop ends there is a zero byte. -/
theorem skipString_zero {fuel : Nat} {p : UInt32} (h : skipString m fuel a = .ok p) : m (p - 1) = 0 := by
  induction fuel generalizing a with
  | zero => cases h
  | succ fuel ih =>
    rw [skipString] at h
    split at h
    · exact ih h
    · next hzero =>
      cases h
      rw [UInt32.add_sub_cancel]
      exact not_not.mp hzero

theorem strlen_spec (h : IsCStr m a s) : strlen a m = .ok (UInt32.ofNat s.length) := by
  have hskip : skipString m addressSpace _ = _ := skipString_spec h h.length_lt
  rw [strlen, ne_null h, assert_true, ok_bind, hskip, ok_bind, pure_eq_ok]
  congr 1
  rw [UInt32.add_comm, UInt32.add_sub_cancel, UInt32.ofNat_add]
  exact UInt32.add_sub_cancel ..

/-- The length that `strlen` returns leads to a zero byte. -/
theorem strlen_zero {n : UInt32} (h : strlen a m = .ok n) : m (a + n) = 0 := by
  obtain ⟨-, -, h⟩ := bind_eq_ok.mp h
  obtain ⟨p, hskip, h⟩ := bind_eq_ok.mp h
  cases h
  have hplace : a + (p - a - 1) = p - 1 := by grind
  rw [hplace]
  exact skipString_zero hskip

/-- A write in front of a string that is read on from there, or far behind it, does not change it. -/
theorem isCStr_write8 {x : UInt8} (h : IsCStr m (src + 1) s)
    (hapart : s.length + 1 < (dst - src).toNat) : IsCStr (m.write8 dst x) (src + 1) s := by
  apply h.congr
  intro i hi
  apply write8_outside
  have hlt : s.length + 1 < 2 ^ 32 := Nat.lt_trans hapart (dst - src).toNat_lt
  rintro rfl
  rw [← add_ofNat_succ, toNat_offset (by omega)] at hapart
  omega

theorem sub_succ_succ (dst src : UInt32) : dst + 1 - (src + 1) = dst - src := by grind

/-- The characters are copied, without the zero byte. -/
theorem strcpyLoop_spec {fuel : Nat} (h : IsCStr m src s) (hapart : s.length < (dst - src).toNat)
    (hfuel : s.length < fuel) : strcpyLoop fuel dst src m = .ok (m.storeBytes dst s) := by
  induction s generalizing m dst src fuel with
  | nil =>
    obtain ⟨n, rfl⟩ := Nat.exists_eq_succ_of_ne_zero (Nat.ne_of_gt hfuel)
    simp [strcpyLoop, h.empty, storeBytes]
  | cons x s ih =>
    rw [List.length_cons] at hfuel hapart
    obtain ⟨n, rfl⟩ := Nat.exists_eq_succ_of_ne_zero (Nat.ne_of_gt (Nat.zero_lt_of_lt hfuel))
    rw [strcpyLoop, if_pos h.head_ne, h.head, storeBytes]
    apply ih (isCStr_write8 h.tail hapart)
    · rw [sub_succ_succ]
      omega
    · omega

theorem strcpy_spec (h : IsCStr m src s) (hdst : dst ≠ 0) (hapart : s.length < (dst - src).toNat) :
    strcpy dst src m = .ok (dst, m.storeBytes dst s) := by
  have hloop : strcpyLoop addressSpace dst src m = _ := strcpyLoop_spec h hapart h.length_lt
  rw [strcpy, ne_null h, bne_iff_ne.mpr hdst, Bool.and_self, assert_true, ok_bind, hloop, ok_bind,
    pure_eq_ok]

/-- The characters are copied with the zero byte. -/
theorem strcatLoop_spec {fuel : Nat} (h : IsCStr m src s) (hapart : s.length < (dst - src).toNat)
    (hfuel : s.length < fuel) : strcatLoop fuel dst src m = .ok (m.storeBytes dst (s ++ [0])) := by
  induction s generalizing m dst src fuel with
  | nil =>
    obtain ⟨n, rfl⟩ := Nat.exists_eq_succ_of_ne_zero (Nat.ne_of_gt hfuel)
    simp [strcatLoop, h.empty, storeBytes]
  | cons x s ih =>
    rw [List.length_cons] at hfuel hapart
    obtain ⟨n, rfl⟩ := Nat.exists_eq_succ_of_ne_zero (Nat.ne_of_gt (Nat.zero_lt_of_lt hfuel))
    rw [strcatLoop, if_pos h.head_ne, h.head, List.cons_append, storeBytes]
    apply ih (isCStr_write8 h.tail hapart)
    · rw [sub_succ_succ]
      omega
    · omega

theorem strcat_spec (h : IsCStr m dst s) (ht : IsCStr m src t)
    (hapart : t.length < (dst + UInt32.ofNat s.length - src).toNat) :
    strcat dst src m = .ok (dst, m.storeBytes (dst + UInt32.ofNat s.length) (t ++ [0])) := by
  have hskip : skipString m addressSpace _ = _ := skipString_spec h h.length_lt
  have hback : dst + UInt32.ofNat (s.length + 1) - 1 = dst + UInt32.ofNat s.length := by
    rw [add_ofNat_succ]
    grind
  have hloop : strcatLoop addressSpace _ src m = _ := strcatLoop_spec ht hapart ht.length_lt
  rw [strcat, ne_null h, ne_null ht, Bool.and_self, assert_true, ok_bind, hskip, ok_bind, hback,
    hloop, ok_bind, pure_eq_ok]

/-- The loop of `strcmp` ends at the first difference, or at the end of both strings. -/
theorem strcmpLoop_spec {fuel : Nat} (h : IsCStr m a s) (ht : IsCStr m b t) (hfuel : s.length < fuel) :
    ∃ a' b', strcmpLoop m fuel a b = .ok (a', b') ∧ (m a' = m b' ↔ s = t) := by
  induction s generalizing a b t fuel with
  | nil =>
    obtain ⟨n, rfl⟩ := Nat.exists_eq_succ_of_ne_zero (Nat.ne_of_gt hfuel)
    refine ⟨a, b, by simp [strcmpLoop, h.empty], ?_⟩
    rw [h.empty]
    cases t with
    | nil => simp [ht.empty]
    | cons y t => simp [ht.head_ne.symm]
  | cons x s ih =>
    rw [List.length_cons] at hfuel
    obtain ⟨n, rfl⟩ := Nat.exists_eq_succ_of_ne_zero (Nat.ne_of_gt (Nat.zero_lt_of_lt hfuel))
    cases t with
    | nil =>
      have hne : m a ≠ m b := by
        rw [ht.empty]
        exact h.head_ne
      exact ⟨a, b, by simp [strcmpLoop, hne], by simp [hne]⟩
    | cons y t =>
      by_cases hxy : x = y
      · obtain ⟨a', b', hloop, heq⟩ := ih h.tail ht.tail (Nat.lt_of_succ_lt_succ hfuel)
        refine ⟨a', b', ?_, by rw [heq, hxy]; simp⟩
        rw [strcmpLoop, if_pos ⟨h.head_ne, by rw [h.head, ht.head, hxy]⟩, hloop]
      · have hne : m a ≠ m b := by rwa [h.head, ht.head]
        exact ⟨a, b, by simp [strcmpLoop, hne], by simp [hne, hxy]⟩

/-- The sign of the difference of two characters. -/
theorem compare_eq_zero (x y : UInt8) :
    (if x.toInt8 < y.toInt8 then -1 else if x.toInt8 > y.toInt8 then 1 else 0 : Int8) = 0 ↔
      x = y := by
  constructor
  · intro h
    split at h
    · cases h
    · next hlt =>
      split at h
      · cases h
      · next hgt =>
        have heq : x.toInt8 = y.toInt8 := Int8.le_antisymm (Int8.not_lt.mp hgt) (Int8.not_lt.mp hlt)
        simpa using congrArg Int8.toUInt8 heq
  · rintro rfl
    simp

/-- **`strcmp`** returns 0 for equal strings and no others. -/
theorem strcmp_eq_zero (h : IsCStr m a s) (ht : IsCStr m b t) :
    strcmp a b m = .ok 0 ↔ s = t := by
  have hlen : s.length < addressSpace := h.length_lt
  obtain ⟨a', b', hloop, heq⟩ := strcmpLoop_spec h ht hlen
  rw [strcmp, ne_null h, ne_null ht, Bool.and_self, assert_true, ok_bind, hloop, ok_bind, ← heq]
  dsimp only
  rw [pure_eq_ok, Except.ok.injEq]
  exact compare_eq_zero _ _

theorem strchr_spec (ch : UInt8) (h : IsCStr m a s) :
    ∃ r, strchr a ch m = .ok r ∧ IsFirstOcc a s ch r := by
  have hloop : ∀ fuel, s.length < fuel →
      ∃ r, strchrLoop m ch fuel a = .ok r ∧ IsFirstOcc a s ch r := by
    intro fuel hfuel
    have hstr := h
    clear h
    induction s generalizing a fuel with
    | nil =>
      obtain ⟨n, rfl⟩ := Nat.exists_eq_succ_of_ne_zero (Nat.ne_of_gt hfuel)
      exact ⟨0, by simp [strchrLoop, hstr.empty], Or.inl ⟨List.not_mem_nil, rfl⟩⟩
    | cons x s ih =>
      rw [List.length_cons] at hfuel
      obtain ⟨n, rfl⟩ := Nat.exists_eq_succ_of_ne_zero (Nat.ne_of_gt (Nat.zero_lt_of_lt hfuel))
      rw [strchrLoop, if_pos hstr.head_ne, hstr.head]
      by_cases hx : x = ch
      · subst hx
        exact ⟨a, if_pos rfl, .here⟩
      · obtain ⟨r, hr, hocc⟩ := ih n (Nat.lt_of_succ_lt_succ hfuel) hstr.tail
        exact ⟨r, by rw [if_neg hx, hr], hocc.later hx⟩
  obtain ⟨r, hr, hocc⟩ := hloop addressSpace h.length_lt
  exact ⟨r, by rw [strchr, ne_null h, assert_true, ok_bind, hr], hocc⟩

theorem strchrsLoop_spec {fuel : Nat} (ch : UInt8) (cnt : UInt32) (h : IsCStr m a s) (hfuel : s.length < fuel) :
    strchrsLoop m ch fuel a cnt = .ok (cnt + UInt32.ofNat (s.count ch)) := by
  induction s generalizing a fuel cnt with
  | nil =>
    obtain ⟨n, rfl⟩ := Nat.exists_eq_succ_of_ne_zero (Nat.ne_of_gt hfuel)
    simp [strchrsLoop, h.empty]
  | cons x s ih =>
    rw [List.length_cons] at hfuel
    obtain ⟨n, rfl⟩ := Nat.exists_eq_succ_of_ne_zero (Nat.ne_of_gt (Nat.zero_lt_of_lt hfuel))
    rw [strchrsLoop, if_pos h.head_ne, ih _ h.tail (Nat.lt_of_succ_lt_succ hfuel), h.head]
    by_cases hx : x = ch
    · rw [if_pos hx, hx, List.count_cons_self, add_ofNat_succ]
    · rw [if_neg hx, List.count_cons_of_ne hx]

theorem strchrs_spec (ch : UInt8) (h : IsCStr m a s) :
    strchrs a ch m = .ok (UInt32.ofNat (s.count ch)) := by
  have hloop : strchrsLoop m ch addressSpace a 0 = _ := strchrsLoop_spec ch 0 h h.length_lt
  rw [strchrs, ne_null h, assert_true, ok_bind, hloop, UInt32.zero_add]

/-- The loop of `strrchr` reads every byte up to the end of the address space. -/
theorem strrchrLoop_spec {fuel : Nat} {bs : List UInt8} (found : Search)
    (hchars : ∀ i (_ : i < bs.length), m (a + UInt32.ofNat i) = bs[i])
    (hbelow : ∀ i, i < bs.length → a + UInt32.ofNat i ≠ 0)
    (hend : a + UInt32.ofNat bs.length = 0) (hfuel : bs.length < fuel) :
    ∃ r, strrchrLoop m ch fuel a found =
        .ok { lastChar := r, reads := found.reads ++ addresses a bs.length } ∧
      IsLastOcc a bs ch found.lastChar r := by
  induction bs generalizing a found fuel with
  | nil =>
    obtain ⟨n, rfl⟩ := Nat.exists_eq_succ_of_ne_zero (Nat.ne_of_gt hfuel)
    have hzero : a = 0 := (UInt32.add_zero a).symm.trans hend
    exact ⟨found.lastChar, by simp [strrchrLoop, hzero, addresses],
      Or.inl ⟨List.not_mem_nil, rfl⟩⟩
  | cons x bs ih =>
    rw [List.length_cons] at hfuel hend
    obtain ⟨n, rfl⟩ := Nat.exists_eq_succ_of_ne_zero (Nat.ne_of_gt (Nat.zero_lt_of_lt hfuel))
    have hne : a ≠ 0 := UInt32.add_zero a ▸ hbelow 0 (Nat.succ_pos _)
    have hx : m a = x := UInt32.add_zero a ▸ hchars 0 (Nat.succ_pos _)
    obtain ⟨r, hr, hocc⟩ := @ih (a + 1) n
      { lastChar := if x = ch then a else found.lastChar, reads := found.reads ++ [a] }
      (fun i hi => by rw [← add_ofNat_succ, hchars (i + 1) (Nat.succ_lt_succ hi)]; rfl)
      (fun i hi => by rw [← add_ofNat_succ]; exact hbelow (i + 1) (Nat.succ_lt_succ hi))
      (by rw [← add_ofNat_succ, hend]) (Nat.lt_of_succ_lt_succ hfuel)
    refine ⟨r, ?_, hocc.cons⟩
    rw [strrchrLoop, if_pos hne, hx, hr, List.length_cons, addresses_succ, List.append_assoc,
      List.singleton_append]

end Specs

/-! ## Is the copy an equal string? -/

/-- `n` bytes that can be written at `dst`. -/
structure Buffer (dst : UInt32) (n : Nat) : Prop where
  notNull : dst ≠ 0
  fits : dst.toNat + n ≤ 2 ^ 32

/-- The buffer has no byte in common with a string of the given length. -/
def BufferApart (dst : UInt32) (n : Nat) (src : UInt32) (len : Nat) : Prop :=
  ∀ i j, i < n → j ≤ len → dst + UInt32.ofNat i ≠ src + UInt32.ofNat j

/-- The buffer holds a string that `strlen`, `strcmp` and `strcat` take for the one at `src`. -/
structure EqualString (m : Memory32) (dst : UInt32) (n : Nat) (src : UInt32) (s : List UInt8) :
    Prop where
  strlen : strlen dst m = strlen src m
  strcmp : strcmp dst src m = .ok 0
  strcat : ∀ a t, IsCStr m a t → BufferApart dst n a t.length → s.length + t.length < n →
    ∃ m', strcat dst a m = .ok (dst, m') ∧ IsCStr m' dst (s ++ t)

section Copy

variable {m : Memory32} {dst src a : UInt32} {n : Nat} {s t : List UInt8}

theorem BufferApart.far {i len : Nat} (h : BufferApart dst n src len) (hi : i < n) :
    len < (dst + UInt32.ofNat i - src).toNat := by
  by_contra hle
  apply h i _ hi (Nat.not_lt.mp hle)
  rw [UInt32.ofNat_toNat, UInt32.add_comm src, UInt32.sub_add_cancel]

/-- The source is still there after the copy. -/
theorem copy_source (h : IsCStr m src s) (hlen : s.length < n)
    (hapart : BufferApart dst n src s.length) : IsCStr (m.storeBytes dst s) src s := by
  apply h.congr
  intro i hi
  apply storeBytes_notMem h.length_lt
  intro j hj
  exact hapart j i (by omega) hi

/-- The byte behind the copy is the old one. -/
theorem copy_end (h : IsCStr m src s) :
    m.storeBytes dst s (dst + UInt32.ofNat s.length) = m (dst + UInt32.ofNat s.length) := by
  have hlen := h.length_lt
  apply storeBytes_outside hlen
  exact Nat.le_of_eq (toNat_offset hlen).symm

/-- With a zero byte behind it the copy is a string. -/
theorem copy_isCStr (h : IsCStr m src s) (hbuf : Buffer dst n) (hlen : s.length < n)
    (hzero : m (dst + UInt32.ofNat s.length) = 0) : IsCStr (m.storeBytes dst s) dst s where
  notNull := hbuf.notNull
  fits := by
    have := hbuf.fits
    omega
  nonzero := h.nonzero
  chars i hi := storeBytes_inside h.length_lt hi
  nul := by rw [copy_end h, hzero]

/-- A string stored behind another one, over its zero byte, makes one string of both. -/
theorem isCStr_append (h : IsCStr m dst s) (ht : IsCStr m src t) (hbuf : Buffer dst n)
    (hlen : s.length + t.length < n) :
    IsCStr (m.storeBytes (dst + UInt32.ofNat s.length) (t ++ [0])) dst (s ++ t) := by
  have hfits := hbuf.fits
  have hstored : (t ++ [0]).length < 2 ^ 32 := by
    have htfits := ht.fits
    have htpos := ht.pos
    rw [List.length_append, List.length_singleton]
    omega
  have hplace : ∀ i, dst + UInt32.ofNat (s.length + i) =
      dst + UInt32.ofNat s.length + UInt32.ofNat i := by
    intro i
    rw [UInt32.ofNat_add, UInt32.add_assoc]
  have hinside : ∀ i (hi : i < (t ++ [0]).length),
      m.storeBytes (dst + UInt32.ofNat s.length) (t ++ [0]) (dst + UInt32.ofNat (s.length + i)) =
        (t ++ [0])[i] := by
    intro i hi
    rw [hplace]
    exact storeBytes_inside hstored hi
  refine ⟨h.notNull, ?_, ?_, ?_, ?_⟩
  · rw [List.length_append]
    omega
  · intro x hx
    rcases List.mem_append.mp hx with hx | hx
    · exact h.nonzero x hx
    · exact ht.nonzero x hx
  · intro i hi
    rw [List.length_append] at hi
    by_cases hold : i < s.length
    · rw [List.getElem_append_left hold, ← h.chars i hold]
      apply storeBytes_notMem hstored
      intro j hj heq
      rw [List.length_append, List.length_singleton] at hj
      rw [← hplace] at heq
      have hsum := congrArg UInt32.toNat heq
      rw [UInt32.toNat_add, UInt32.toNat_add, toNat_ofNat_lt (by omega), toNat_ofNat_lt (by omega)]
        at hsum
      omega
    · obtain ⟨k, rfl⟩ := Nat.exists_eq_add_of_le (Nat.not_lt.mp hold)
      have hk : k < t.length := by omega
      have hchar := hinside k (by rw [List.length_append]; omega)
      rw [hchar, List.getElem_append_left hk, List.getElem_append_right (by omega)]
      simp
  · rw [List.length_append, hinside t.length (by simp)]
    simp

/-- The zero byte of an equal string was in the buffer before. -/
theorem copy_zero (h : IsCStr m src s) (hlen : s.length < n)
    (hapart : BufferApart dst n src s.length) (heq : EqualString (m.storeBytes dst s) dst n src s) :
    m (dst + UInt32.ofNat s.length) = 0 := by
  have hcount := heq.strlen
  rw [strlen_spec (copy_source h hlen hapart)] at hcount
  rw [← copy_end h]
  exact strlen_zero hcount

theorem copy_strcpy (h : IsCStr m src s) (hbuf : Buffer dst n) (hlen : s.length < n)
    (hapart : BufferApart dst n src s.length) :
    strcpy dst src m = .ok (dst, m.storeBytes dst s) := by
  have hfar := hapart.far (Nat.zero_lt_of_lt hlen)
  rw [show UInt32.ofNat 0 = 0 from rfl, UInt32.add_zero] at hfar
  exact strcpy_spec h hbuf.notNull hfar

/-- **The copy that `strcpy` makes** is an equal string exactly when the byte behind it was zero
before. -/
theorem strcpy_equal_iff (h : IsCStr m src s) (hbuf : Buffer dst n) (hlen : s.length < n)
    (hapart : BufferApart dst n src s.length) :
    (∃ m', strcpy dst src m = .ok (dst, m') ∧ EqualString m' dst n src s) ↔
      m (dst + UInt32.ofNat s.length) = 0 := by
  rw [copy_strcpy h hbuf hlen hapart]
  constructor
  · rintro ⟨m', hm', heq⟩
    obtain rfl : m.storeBytes dst s = m' := by simpa using hm'
    exact copy_zero h hlen hapart heq
  · intro hzero
    have hcopy := copy_isCStr h hbuf hlen hzero
    have hsource := copy_source h hlen hapart
    refine ⟨_, rfl, ?_, (strcmp_eq_zero hcopy hsource).mpr rfl, ?_⟩
    · rw [strlen_spec hcopy, strlen_spec hsource]
    · intro a t ht hat hroom
      exact ⟨_, strcat_spec hcopy ht (hat.far hlen), isCStr_append hcopy ht hbuf hroom⟩

/-- The string `"a"` at `0x1000`, with a chosen byte at `0x2001` and zeros elsewhere. -/
def letterA (x : UInt8) : Memory32 :=
  fun b => if b = 0x1000 then 97 else if b = 0x2001 then x else 0

theorem letterA_isCStr (x : UInt8) : IsCStr (letterA x) 0x1000 [97] where
  notNull := by decide
  fits := by decide
  nonzero := List.forall_mem_singleton.mpr (by decide)
  chars i hi := by
    obtain rfl : i = 0 := by simpa using hi
    rfl
  nul := rfl

theorem letterA_apart : BufferApart 0x2000 2 0x1000 [(97 : UInt8)].length := by
  intro i j hi hj
  have hall : ∀ i < 2, ∀ j < 2, (0x2000 : UInt32) + UInt32.ofNat i ≠ 0x1000 + UInt32.ofNat j := by
    decide
  exact hall i hi j (Nat.lt_succ_of_le hj)

/-- A copy into cleared memory. -/
theorem strcpy_equal_iff_cleared :
    ∃ m', strcpy 0x2000 0x1000 (letterA 0) = .ok (0x2000, m') ∧
      EqualString m' 0x2000 2 0x1000 [97] :=
  (strcpy_equal_iff (letterA_isCStr 0) ⟨by decide, by decide⟩ (by decide) letterA_apart).mpr rfl

/-- A copy into a buffer whose second byte was `b` is no equal string. -/
theorem strcpy_unterminated :
    ¬ ∃ m', strcpy 0x2000 0x1000 (letterA 98) = .ok (0x2000, m') ∧
      EqualString m' 0x2000 2 0x1000 [97] := by
  rw [copy_strcpy (n := 2) (letterA_isCStr 98) ⟨by decide, by decide⟩ (by decide) letterA_apart]
  rintro ⟨m', hm', heq⟩
  obtain rfl : (letterA 98).storeBytes 0x2000 [97] = m' := by simpa using hm'
  have hzero := copy_zero (letterA_isCStr 98) (by decide) letterA_apart heq
  exact absurd hzero (by decide)

end Copy

/-! ## Does strrchr stop? -/

/-- The search has stayed in the string and its result is the last occurrence, in agreement with
`strchr` and `strchrs`. -/
structure StopsAtEnd (m : Memory32) (str : UInt32) (s : List UInt8) (ch : UInt8) (found : Search) :
    Prop where
  inside : ∀ b ∈ found.reads, str.toNat ≤ b.toNat ∧ b.toNat ≤ str.toNat + s.length
  last : IsLastOcc str s ch 0 found.lastChar
  strchr : ∃ r, strchr str ch m = .ok r ∧ (found.lastChar = 0 ↔ r = 0) ∧
    (found.lastChar ≠ 0 → r ≤ found.lastChar)
  strchrs : ∃ cnt, strchrs str ch m = .ok cnt ∧ (found.lastChar = 0 ↔ cnt = 0)

section Rightmost

variable {m : Memory32} {str : UInt32} {s : List UInt8} {ch : UInt8} {found : Search}

/-- `strrchr` always returns, after it has read all bytes from `str` on. -/
theorem strrchr_reads (h : IsCStr m str s) (ch : UInt8) :
    ∃ r, strrchr str ch m =
      .ok { lastChar := r, reads := addresses str (2 ^ 32 - str.toNat) } := by
  have hpos := h.pos
  have hlt := str.toNat_lt
  let bs := (addresses str (2 ^ 32 - str.toNat)).map m
  have hlen : bs.length = 2 ^ 32 - str.toNat := by simp [bs, addresses]
  obtain ⟨r, hr, -⟩ := @strrchrLoop_spec m str ch addressSpace bs { lastChar := 0, reads := [] }
    (fun i hi => by simp [bs, addresses])
    (by
      intro i hi heq
      have hsum := congrArg UInt32.toNat heq
      rw [hlen] at hi
      rw [UInt32.toNat_add, toNat_ofNat_lt (by omega), UInt32.toNat_zero] at hsum
      omega)
    (by
      rw [hlen, ← UInt32.toNat_inj, UInt32.toNat_add, toNat_ofNat_lt (by omega), UInt32.toNat_zero]
      omega)
    (by rw [hlen, addressSpace]; omega)
  refine ⟨r, ?_⟩
  rw [strrchr, ne_null h, assert_true, ok_bind, hr, hlen]
  rfl

/-- A search that stops at the end of the string has come to the end of the address space there. -/
theorem stopsAtEnd_last (h : IsCStr m str s) (hfound : strrchr str ch m = .ok found)
    (hstop : StopsAtEnd m str s ch found) : str.toNat + s.length = 2 ^ 32 - 1 := by
  have hpos := h.pos
  have hfits := h.fits
  have hlt := str.toNat_lt
  obtain ⟨r, hr⟩ := strrchr_reads h ch
  obtain rfl := Except.ok.inj (hfound.symm.trans hr)
  -- the last byte of the address space has been read
  have hread := hstop.inside (str + UInt32.ofNat (2 ^ 32 - 1 - str.toNat))
    (mem_addresses.mpr ⟨_, by omega, rfl⟩)
  rw [UInt32.toNat_add, toNat_ofNat_lt (by omega)] at hread
  omega

/-- The search in a string at the end of the address space. -/
theorem strrchr_at_end (h : IsCStr m str s) (hch : ch ≠ 0)
    (hend : str.toNat + s.length = 2 ^ 32 - 1) :
    ∃ r, strrchr str ch m = .ok { lastChar := r, reads := addresses str (s.length + 1) } ∧
      IsLastOcc str s ch 0 r := by
  have hpos := h.pos
  have hlen : (s ++ [0]).length = s.length + 1 := by simp
  obtain ⟨r, hr, hocc⟩ := @strrchrLoop_spec m str ch addressSpace (s ++ [0])
    { lastChar := 0, reads := [] }
    (by
      intro i hi
      by_cases hlt : i < s.length
      · rw [List.getElem_append_left hlt, h.chars i hlt]
      · obtain rfl : i = s.length := by omega
        rw [h.nul]
        simp)
    (fun i hi => h.ne_zero (by omega))
    (by
      rw [hlen, ← UInt32.toNat_inj, UInt32.toNat_add, toNat_ofNat_lt (by omega), UInt32.toNat_zero]
      omega)
    (by rw [hlen, addressSpace]; omega)
  refine ⟨r, ?_, hocc.of_concat hch.symm⟩
  rw [strrchr, ne_null h, assert_true, ok_bind, hr, hlen]
  rfl

/-- **`strrchr` stops at the end of its string** exactly when that is the end of the address
space. -/
theorem strrchr_stops_iff (h : IsCStr m str s) (hch : ch ≠ 0) :
    (∃ found, strrchr str ch m = .ok found ∧ StopsAtEnd m str s ch found) ↔
      str.toNat + s.length = 2 ^ 32 - 1 := by
  constructor
  · rintro ⟨found, hfound, hstop⟩
    exact stopsAtEnd_last h hfound hstop
  · intro hend
    obtain ⟨r, hr, hlast⟩ := strrchr_at_end h hch hend
    refine ⟨_, hr, ?_, hlast, ?_, ?_⟩
    · intro b hb
      obtain ⟨i, hi, rfl⟩ := mem_addresses.mp hb
      rw [h.toNat_add (by omega)]
      omega
    · obtain ⟨r', hr', hfirst⟩ := strchr_spec ch h
      refine ⟨r', hr', ?_, hfirst.le_last h hlast⟩
      exact (hlast.eq_zero_iff h).trans (hfirst.eq_zero_iff h).symm
    · refine ⟨_, strchrs_spec ch h, (hlast.eq_zero_iff h).trans ?_⟩
      have hcount : (UInt32.ofNat (s.count ch)).toNat = s.count ch :=
        toNat_ofNat_lt (Nat.lt_of_le_of_lt List.count_le_length h.length_lt)
      rw [← UInt32.toNat_inj, hcount, ← List.count_eq_zero]
      rfl

/-- The string `"a"` in the last two bytes of the address space. -/
theorem strrchr_stops_iff_top :
    ∃ found, strrchr 0xfffffffe 97 (fun b => if b = 0xfffffffe then 97 else 0) = .ok found ∧
      StopsAtEnd (fun b => if b = 0xfffffffe then 97 else 0) 0xfffffffe [97] 97 found :=
  (strrchr_stops_iff
    { notNull := by decide
      fits := by decide
      nonzero := List.forall_mem_singleton.mpr (by decide)
      chars := fun i hi => by
        obtain rfl : i = 0 := by simpa using hi
        rfl
      nul := rfl } (by decide)).mpr rfl

/-- The search for `b` in the string `"a"` at `0x1000` does not stop at its end. -/
theorem strrchr_reads_on :
    ¬ ∃ found, strrchr 0x1000 98 (letterA 98) = .ok found ∧
      StopsAtEnd (letterA 98) 0x1000 [97] 98 found := by
  rintro ⟨found, hfound, hstop⟩
  exact absurd (stopsAtEnd_last (letterA_isCStr 98) hfound hstop) (by decide)

end Rightmost

end OsKernel
