import OsKernel.Lib.X86

/-!
# Strings that end with a zero byte

A pointer to a string points to its first character; the string goes on up to the first zero byte.

- `IsCStr`: the string at an address. `IsCStr.head` and `IsCStr.tail` are what a loop over it needs.
- `IsCStr.congr`: memory that agrees on the string holds it too.
- `storeBytes_inside`, `IsCStr.store`: a string that has just been stored.
- `IsLastOcc`, `IsFirstOcc`: where a character occurs in a string.
-/

namespace OsKernel.Lib

open Memory32

/-! ## Stored bytes -/

section Stored

variable {m : Memory32} {a b : UInt32} {xs : List UInt8}

theorem add_ofNat_succ (a : UInt32) (i : Nat) :
    a + UInt32.ofNat (i + 1) = a + 1 + UInt32.ofNat i := by
  rw [Nat.add_comm, UInt32.ofNat_add, ← UInt32.add_assoc]
  rfl

/-- The addresses of `n` bytes in a row. -/
def addresses (a : UInt32) (n : Nat) : List UInt32 := (List.range n).map fun i => a + UInt32.ofNat i

theorem addresses_succ (a : UInt32) (n : Nat) :
    addresses a (n + 1) = a :: addresses (a + 1) n := by
  have hshift : ∀ i, a + UInt32.ofNat (i + 1) = a + 1 + UInt32.ofNat i := add_ofNat_succ a
  simp only [addresses, List.range_succ_eq_map, List.map_cons, List.map_map, Function.comp_def,
    Nat.succ_eq_add_one, hshift]
  rw [show UInt32.ofNat 0 = 0 from rfl, UInt32.add_zero]

theorem mem_addresses {n : Nat} : b ∈ addresses a n ↔ ∃ i, i < n ∧ a + UInt32.ofNat i = b := by
  simp [addresses]

/-- The bytes that have been stored. -/
theorem storeBytes_inside (hlen : xs.length < 2 ^ 32) {i : Nat} (hi : i < xs.length) :
    m.storeBytes a xs (a + UInt32.ofNat i) = xs[i] := by
  induction xs generalizing m a i with
  | nil => simp at hi
  | cons x xs ih =>
    rw [List.length_cons] at hlen hi
    cases i with
    | zero =>
      -- the rest goes to other addresses
      have hzero : a + UInt32.ofNat 0 = a := UInt32.add_zero a
      have hback : (a - (a + 1)).toNat = 2 ^ 32 - 1 := by
        have ha := a.toNat_lt
        rw [UInt32.toNat_sub, UInt32.toNat_add, UInt32.toNat_one]
        omega
      rw [hzero, storeBytes, storeBytes_outside (by omega) (by omega)]
      exact Function.update_self ..
    | succ i =>
      rw [add_ofNat_succ, storeBytes, ih (by omega) (Nat.lt_of_succ_lt_succ hi)]
      rfl

/-- A byte that is not among those stored. -/
theorem storeBytes_notMem (hlen : xs.length < 2 ^ 32)
    (h : ∀ i, i < xs.length → a + UInt32.ofNat i ≠ b) : m.storeBytes a xs b = m b := by
  apply storeBytes_outside hlen
  by_contra hlt
  have hlt' : (b - a).toNat < xs.length := by omega
  apply h _ hlt'
  rw [UInt32.ofNat_toNat, UInt32.add_comm, UInt32.sub_add_cancel]

end Stored

/-! ## Strings -/

/-- The characters `s` lie at `a` and a zero byte follows. No byte of the string has the address 0,
which is that of no object. -/
structure IsCStr (m : Memory32) (a : UInt32) (s : List UInt8) : Prop where
  notNull : a ≠ 0
  fits : a.toNat + s.length < 2 ^ 32
  nonzero : ∀ x ∈ s, x ≠ 0
  chars : ∀ i (_ : i < s.length), m (a + UInt32.ofNat i) = s[i]
  nul : m (a + UInt32.ofNat s.length) = 0

namespace IsCStr

variable {m m' : Memory32} {a : UInt32} {s : List UInt8} {x : UInt8}

theorem pos (h : IsCStr m a s) : 0 < a.toNat :=
  Nat.pos_of_ne_zero fun heq => h.notNull (UInt32.toNat_inj.mp heq)

theorem length_lt (h : IsCStr m a s) : s.length < 2 ^ 32 := by
  have := h.fits
  omega

/-- The addresses of the string do not wrap around. -/
theorem toNat_add (h : IsCStr m a s) {i : Nat} (hi : i ≤ s.length) :
    (a + UInt32.ofNat i).toNat = a.toNat + i := by
  have hfits := h.fits
  rw [UInt32.toNat_add, toNat_ofNat_lt (by omega)]
  omega

theorem empty (h : IsCStr m a []) : m a = 0 := by
  have hnul := h.nul
  rw [List.length_nil] at hnul
  exact UInt32.add_zero a ▸ hnul

theorem head (h : IsCStr m a (x :: s)) : m a = x := by
  have hfirst := h.chars 0 (Nat.succ_pos _)
  exact UInt32.add_zero a ▸ hfirst

theorem head_ne (h : IsCStr m a (x :: s)) : m a ≠ 0 := by
  rw [h.head]
  exact h.nonzero x List.mem_cons_self

theorem tail (h : IsCStr m a (x :: s)) : IsCStr m (a + 1) s := by
  have hfits := h.fits
  rw [List.length_cons] at hfits
  have hnext : (a + 1).toNat = a.toNat + 1 := h.toNat_add (i := 1) (by simp)
  refine ⟨?_, ?_, ?_, ?_, ?_⟩
  · intro hzero
    rw [hzero] at hnext
    exact absurd hnext (Nat.zero_ne_add_one _)
  · omega
  · intro y hy
    exact h.nonzero y (List.mem_cons_of_mem x hy)
  · intro i hi
    have hchar := h.chars (i + 1) (Nat.succ_lt_succ hi)
    rw [add_ofNat_succ] at hchar
    exact hchar
  · have hnul := h.nul
    rw [List.length_cons, add_ofNat_succ] at hnul
    exact hnul

/-- The string is there as long as its bytes are. -/
theorem congr (h : IsCStr m a s)
    (heq : ∀ i, i ≤ s.length → m' (a + UInt32.ofNat i) = m (a + UInt32.ofNat i)) :
    IsCStr m' a s where
  notNull := h.notNull
  fits := h.fits
  nonzero := h.nonzero
  chars i hi := by rw [heq i (Nat.le_of_lt hi), h.chars i hi]
  nul := by rw [heq _ (Nat.le_refl _), h.nul]

theorem ne_zero (h : IsCStr m a s) {i : Nat} (hi : i ≤ s.length) : a + UInt32.ofNat i ≠ 0 := by
  intro hzero
  have hplace := h.toNat_add hi
  have hpos := h.pos
  rw [hzero] at hplace
  change 0 = a.toNat + i at hplace
  omega

end IsCStr

/-! ## Where a character occurs -/

/-- `r` is the address of the first `ch` among the characters `s` at `a`, or NULL. -/
def IsFirstOcc (a : UInt32) (s : List UInt8) (ch : UInt8) (r : UInt32) : Prop :=
  (ch ∉ s ∧ r = 0) ∨
  ∃ i, s[i]? = some ch ∧ (∀ j, j < i → s[j]? ≠ some ch) ∧ r = a + UInt32.ofNat i

/-- `r` is the address of the last `ch` among the characters `s` at `a`, or what had been found `before`. -/
def IsLastOcc (a : UInt32) (s : List UInt8) (ch : UInt8) (before r : UInt32) : Prop :=
  (ch ∉ s ∧ r = before) ∨
  ∃ i, s[i]? = some ch ∧ (∀ j, i < j → s[j]? ≠ some ch) ∧ r = a + UInt32.ofNat i

section Occurrences

variable {a r before : UInt32} {s : List UInt8} {ch x : UInt8}

theorem IsFirstOcc.here : IsFirstOcc a (ch :: s) ch a :=
  Or.inr ⟨0, rfl, fun j hj => absurd hj (Nat.not_lt_zero j), (UInt32.add_zero a).symm⟩

theorem IsFirstOcc.later (h : IsFirstOcc (a + 1) s ch r) (hx : x ≠ ch) :
    IsFirstOcc a (x :: s) ch r := by
  rcases h with ⟨hmem, rfl⟩ | ⟨i, hat, hfirst, rfl⟩
  · exact Or.inl ⟨by simp [hmem, hx.symm], rfl⟩
  · refine Or.inr ⟨i + 1, hat, ?_, (add_ofNat_succ a i).symm⟩
    intro j hj
    cases j with
    | zero => simpa using hx
    | succ j => exact hfirst j (Nat.lt_of_succ_lt_succ hj)

/-- What is found behind the first character decides, if anything is. -/
theorem IsLastOcc.cons (h : IsLastOcc (a + 1) s ch (if x = ch then a else before) r) :
    IsLastOcc a (x :: s) ch before r := by
  rcases h with ⟨hmem, rfl⟩ | ⟨i, hat, hlast, rfl⟩
  · by_cases hx : x = ch
    · subst hx
      rw [if_pos rfl]
      refine Or.inr ⟨0, rfl, ?_, (UInt32.add_zero a).symm⟩
      intro j hj
      obtain ⟨k, rfl⟩ := Nat.exists_eq_succ_of_ne_zero (Nat.ne_of_gt hj)
      intro heq
      exact hmem (List.mem_of_getElem? heq)
    · rw [if_neg hx]
      exact Or.inl ⟨by simp [hmem, Ne.symm hx], rfl⟩
  · refine Or.inr ⟨i + 1, hat, ?_, (add_ofNat_succ a i).symm⟩
    intro j hj
    obtain ⟨k, rfl⟩ := Nat.exists_eq_succ_of_ne_zero (Nat.ne_of_gt (Nat.zero_lt_of_lt hj))
    exact hlast k (Nat.lt_of_succ_lt_succ hj)

/-- A last character that is another one does not count. -/
theorem IsLastOcc.of_concat (h : IsLastOcc a (s ++ [x]) ch before r) (hx : x ≠ ch) :
    IsLastOcc a s ch before r := by
  rcases h with ⟨hmem, rfl⟩ | ⟨i, hat, hlast, rfl⟩
  · exact Or.inl ⟨fun hch => hmem (List.mem_append_left _ hch), rfl⟩
  · have hi : i < s.length := by
      by_contra hge
      rw [List.getElem?_append_right (by omega), List.getElem?_singleton] at hat
      split at hat
      · exact hx (Option.some.inj hat)
      · cases hat
    rw [List.getElem?_append_left hi] at hat
    refine Or.inr ⟨i, hat, ?_, rfl⟩
    intro j hj heq
    have hjlt := (List.getElem?_eq_some_iff.mp heq).1
    exact hlast j hj (by rw [List.getElem?_append_left hjlt, heq])

end Occurrences

section Found

variable {m : Memory32} {a r r' : UInt32} {s : List UInt8} {ch : UInt8}

theorem IsFirstOcc.eq_zero_iff (h : IsCStr m a s) (hr : IsFirstOcc a s ch r) : r = 0 ↔ ch ∉ s := by
  rcases hr with ⟨hmem, rfl⟩ | ⟨i, hat, -, rfl⟩
  · simp [hmem]
  · have hi := (List.getElem?_eq_some_iff.mp hat).1
    simp [h.ne_zero (Nat.le_of_lt hi), List.mem_of_getElem? hat]

theorem IsLastOcc.eq_zero_iff (h : IsCStr m a s) (hr : IsLastOcc a s ch 0 r) : r = 0 ↔ ch ∉ s := by
  rcases hr with ⟨hmem, rfl⟩ | ⟨i, hat, -, rfl⟩
  · simp [hmem]
  · have hi := (List.getElem?_eq_some_iff.mp hat).1
    simp [h.ne_zero (Nat.le_of_lt hi), List.mem_of_getElem? hat]

/-- The last occurrence is not below the first one. -/
theorem IsFirstOcc.le_last (h : IsCStr m a s) (hr : IsFirstOcc a s ch r)
    (hr' : IsLastOcc a s ch 0 r') (hne : r' ≠ 0) : r ≤ r' := by
  rcases hr with ⟨hmem, rfl⟩ | ⟨i, hat, -, rfl⟩
  · exact absurd ((hr'.eq_zero_iff h).mpr hmem) hne
  · rcases hr' with ⟨-, rfl⟩ | ⟨k, hat', hlast, rfl⟩
    · exact absurd rfl hne
    · have hi := (List.getElem?_eq_some_iff.mp hat).1
      have hk := (List.getElem?_eq_some_iff.mp hat').1
      have hle : i ≤ k := by
        by_contra hlt
        exact hlast i (by omega) hat
      rw [UInt32.le_iff_toNat_le, h.toNat_add (Nat.le_of_lt hi), h.toNat_add (Nat.le_of_lt hk)]
      omega

end Found

end OsKernel.Lib
