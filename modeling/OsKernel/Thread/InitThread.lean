import OsKernel.Kernel.Strings
import OsKernel.Thread.Switch

/-!
# thread/thread.c: init_thread and the name of a thread

`init_thread` clears the PCB, copies the name into it with `strcpy` and writes the other fields. The
copy is as long as the name, while the field for it has 16 bytes.

- `initThread`: the function, on a memory that holds the name and the page of the PCB.
- `initThread_eq`: the function of `Thread.Switch`, which is given the characters of the name.
- `initThread_page`: every byte of the page afterwards.
- `initThread_confined_iff`: the name stays in its field exactly when it has at most 15 characters.
-/

namespace OsKernel.Pcb

open Lib Memory32 Switch

/-! ## The function -/

/-- `init_thread`. The fields of the PCB are written at their offsets. -/
def initThread (mainThread pthread name prio : UInt32) (m : Memory32) :
    Except Panic Memory32 := do
  assert (pthread != 0) .memsetDst
  let m := m.clear pthread sizeofTaskStruct
  let (_, m) ← strcpy (pthread + 9) name m
  -- TASK_RUNNING and TASK_READY
  let m := m.write32 (pthread + 4) (if pthread = mainThread then 0 else 1)
  let m := m.write8 (pthread + 8) prio.toUInt8
  let m := m.write32 pthread (pthread + 4096)
  let m := m.write8 (pthread + 25) 0
  let m := m.write32 (pthread + 28) 0
  let m := m.write32 (pthread + 48) 0
  return m.write32 (pthread + 64) 0x12345678

/-- The string lies outside the page. -/
def OutsidePage (p name : UInt32) (len : Nat) : Prop :=
  ∀ i, i ≤ len → ¬ InPage p (name + UInt32.ofNat i)

section

variable {mainThread p name prio : UInt32} {m m' : Memory32} {s : List UInt8}

theorem inPage_start (p : UInt32) : InPage p p := ⟨Nat.le_refl _, Nat.lt_add_of_pos_right (by decide)⟩

/-- A string outside the page leaves room for the page in the address space. -/
theorem OutsidePage.length_le (hout : OutsidePage p name s.length) (h : IsCStr m name s)
    (hp : PageAligned p) (hne : p ≠ 0) : s.length + 4096 < 2 ^ 32 := by
  by_contra hge
  have hfits := h.fits
  have hbound := hp.bound
  have hpos : p.toNat ≠ 0 := fun heq => hne (UInt32.toNat_inj.mp heq)
  unfold PageAligned at hp
  -- the page would lie inside the string
  have hplace : p = name + UInt32.ofNat (p.toNat - name.toNat) := by
    rw [← UInt32.toNat_inj, h.toNat_add (by omega)]
    omega
  exact hout (p.toNat - name.toNat) (by omega) (hplace ▸ inPage_start p)

theorem OutsidePage.far (hout : OutsidePage p name s.length) (hp : PageAligned p) :
    s.length < (p + 9 - name).toNat := by
  by_contra hle
  apply hout _ (Nat.not_lt.mp hle)
  rw [UInt32.ofNat_toNat, UInt32.add_comm, UInt32.sub_add_cancel]
  exact hp.inPage (k := 9) (by decide)

/-- The name is still there when the PCB has been cleared. -/
theorem OutsidePage.cleared (hout : OutsidePage p name s.length) (h : IsCStr m name s)
    (hp : PageAligned p) : IsCStr (m.clear p sizeofTaskStruct) name s := by
  apply h.congr
  intro i hi
  have hnot := hout i hi
  have hbound := hp.bound
  have hlt := (name + UInt32.ofNat i).toNat_lt
  apply if_neg
  unfold InPage at hnot
  rw [UInt32.toNat_sub, sizeofTaskStruct]
  omega

/-- The copy of a name outside the page stores its characters. -/
theorem initThread_eq (hp : PageAligned p) (hne : p ≠ 0) (h : IsCStr m name s)
    (hout : OutsidePage p name s.length) :
    initThread mainThread p name prio m =
      .ok (Switch.initThread mainThread p s prio.toUInt8 m) := by
  have hdst : p + 9 ≠ 0 := by
    intro hzero
    have hplace := hp.toNat_add (k := 9) (by decide)
    rw [show p + UInt32.ofNat 9 = 0 from hzero, UInt32.toNat_zero] at hplace
    omega
  rw [initThread, bne_iff_ne.mpr hne, assert_true, ok_bind]
  dsimp only
  rw [strcpy_spec (hout.cleared h hp) hdst (hout.far hp), ok_bind]
  rfl

/-! ## The page afterwards -/

/-- The page when it has been cleared and the name has been copied. -/
def namedPage (s : List UInt8) (page : ByteMemory) : ByteMemory :=
  fun k => if 9 ≤ k ∧ k < 9 + s.length then s[k - 9]?.getD 0 else if k < 68 then 0 else page k

/-- The stores to the fields, at their offsets in the page. -/
def fields (mainThread p : UInt32) (prio : UInt8) (page : ByteMemory) : ByteMemory :=
  let page := page.write32 4 (if p = mainThread then 0 else 1)
  let page : ByteMemory := Function.update page 8 prio
  let page := page.write32 0 (p + 4096)
  let page : ByteMemory := Function.update page 25 0
  let page := page.write32 28 0
  let page := page.write32 48 0
  page.write32 64 0x12345678

theorem write32_at_congr {q q' : ByteMemory} {i k : Nat} {x : UInt32} (h : q k = q' k) :
    q.write32 i x k = q'.write32 i x k := by
  rw [ByteMemory.write32, ByteMemory.write32, h]

theorem update_at_congr {q q' : ByteMemory} {i k : Nat} {x : UInt8} (h : q k = q' k) :
    Function.update q i x k = Function.update q' i x k := by
  rw [Function.update_apply, Function.update_apply, h]

theorem window_named {k : Nat} (hk : k < 4096) (hlen : s.length + 4096 < 2 ^ 32) :
    ((m.clear p sizeofTaskStruct).storeBytes (p + UInt32.ofNat 9) s).window p k =
      namedPage s (m.window p) k := by
  have hoff := @toNat_sub_offset p 9 k (by decide) (by omega)
  unfold namedPage
  by_cases hin : 9 ≤ k ∧ k < 9 + s.length
  · have hplace : p + UInt32.ofNat k = p + UInt32.ofNat 9 + UInt32.ofNat (k - 9) := by
      rw [UInt32.add_assoc, ← UInt32.ofNat_add, Nat.add_sub_cancel' hin.1]
    rw [if_pos hin, window, hplace, storeBytes_inside (by omega) (by omega),
      List.getElem?_eq_getElem (by omega), Option.getD_some]
  · have hout : s.length ≤ (p + UInt32.ofNat k - (p + UInt32.ofNat 9)).toNat := by
      rw [hoff]
      split
      · omega
      · omega
    rw [if_neg hin, window, storeBytes_outside (by omega) hout]
    exact window_clear (by omega)

/-- **Every byte of the page** after `init_thread`. -/
theorem initThread_page {prio : UInt8} {k : Nat} (hk : k < 4096) (hlen : s.length + 4096 < 2 ^ 32) :
    (Switch.initThread mainThread p s prio m).window p k =
      fields mainThread p prio (namedPage s (m.window p)) k := by
  have hk' : k < 2 ^ 31 := by omega
  have hk'' : k < 2 ^ 32 := by omega
  unfold Switch.initThread fields
  refine (window_write32 (i := 64) (by decide) hk').trans (write32_at_congr ?_)
  refine (window_write32 (i := 48) (by decide) hk').trans (write32_at_congr ?_)
  refine (window_write32 (i := 28) (by decide) hk').trans (write32_at_congr ?_)
  refine (window_write8 (i := 25) (by decide) hk'').trans (update_at_congr ?_)
  have hstart : ∀ (m : Memory32) (x : UInt32),
      (m.write32 p x).window p k = (m.window p).write32 0 x k := by
    intro m x
    have h := window_write32 (m := m) (a := p) (x := x) (i := 0) (by decide) hk'
    rwa [show p + UInt32.ofNat 0 = p from UInt32.add_zero p] at h
  refine (hstart _ _).trans (write32_at_congr ?_)
  refine (window_write8 (i := 8) (by decide) hk'').trans (update_at_congr ?_)
  refine (window_write32 (i := 4) (by decide) hk').trans (write32_at_congr ?_)
  exact window_named hk hlen

/-- A byte that no field written after the copy has. -/
theorem fields_other {prio : UInt8} {page : ByteMemory} {k : Nat}
    (h : 9 ≤ k ∧ k < 25 ∨ 32 ≤ k ∧ k < 48 ∨ 52 ≤ k ∧ k < 64 ∨ 68 ≤ k) :
    fields mainThread p prio page k = page k := by
  unfold fields
  rw [ByteMemory.write32_outside (by omega), ByteMemory.write32_outside (by omega),
    ByteMemory.write32_outside (by omega), Function.update_of_ne (by omega),
    ByteMemory.write32_outside (by omega), Function.update_of_ne (by omega),
    ByteMemory.write32_outside (by omega)]

theorem read32_update {q : ByteMemory} {i j : Nat} {x : UInt8} (h : i < j ∨ j + 4 ≤ i) :
    ByteMemory.read32 (Function.update q i x) j = q.read32 j :=
  ByteMemory.read32_congr fun k hk => Function.update_of_ne (by omega) _ _

/-- The fields that `init_thread` assigns. -/
structure Assigned (mainThread p : UInt32) (prio : UInt8) (page : ByteMemory) : Prop where
  selfKstack : page.read32 0 = p + 4096
  status : page.read32 4 = if p = mainThread then 0 else 1
  priority : page 8 = prio
  ticks : page 25 = 0
  elapsedTicks : page.read32 28 = 0
  pgdir : page.read32 48 = 0
  stackMagic : page.read32 64 = 0x12345678

theorem fields_assigned {prio : UInt8} (page : ByteMemory) :
    Assigned mainThread p prio (fields mainThread p prio page) := by
  have hskip : ∀ {q : ByteMemory} {i j : Nat} {x : UInt32}, j + 4 ≤ i ∨ i + 4 ≤ j →
      (q.write32 i x).read32 j = q.read32 j :=
    fun h => ByteMemory.read32_write32_of_disjoint h
  unfold fields
  refine ⟨?_, ?_, ?_, ?_, ?_, ?_, ?_⟩
  · rw [hskip (by decide), hskip (by decide), hskip (by decide), read32_update (by decide),
      ByteMemory.read32_write32]
  · rw [hskip (by decide), hskip (by decide), hskip (by decide), read32_update (by decide),
      hskip (by decide), read32_update (by decide), ByteMemory.read32_write32]
  · rw [ByteMemory.write32_outside (by decide), ByteMemory.write32_outside (by decide),
      ByteMemory.write32_outside (by decide), Function.update_of_ne (by decide),
      ByteMemory.write32_outside (by decide), Function.update_self]
  · rw [ByteMemory.write32_outside (by decide), ByteMemory.write32_outside (by decide),
      ByteMemory.write32_outside (by decide), Function.update_self]
  · rw [hskip (by decide), hskip (by decide), ByteMemory.read32_write32]
  · rw [hskip (by decide), ByteMemory.read32_write32]
  · rw [ByteMemory.read32_write32]

/-! ## Does the name stay in its field? -/

/-- The name field holds a prefix of the name with a zero byte behind it, the fields that are never
assigned are zero, the others have their values and the rest of the page is as it was. -/
structure Confined (mainThread p : UInt32) (prio : UInt8) (s : List UInt8) (page page' : ByteMemory) :
    Prop where
  name : ∃ t, t <+: s ∧ (s.length ≤ 15 → t = s) ∧ t.length < 16 ∧
    (∀ i (_ : i < t.length), page' (9 + i) = t[i]) ∧ page' (9 + t.length) = 0
  generalTag : ∀ k, 32 ≤ k → k < 40 → page' k = 0
  allListTag : ∀ k, 40 ≤ k → k < 48 → page' k = 0
  userprogVaddr : ∀ k, 52 ≤ k → k < 64 → page' k = 0
  assigned : Assigned mainThread p prio page'
  beyond : ∀ k, 68 ≤ k → k < 4096 → page' k = page k

/-- The whole field is full of characters of a longer name. -/
theorem Confined.length_le {prio : UInt8} {page' : ByteMemory} (hnonzero : ∀ x ∈ s, x ≠ 0)
    (hpage : ∀ k, k < 4096 →
      page' k = fields mainThread p prio (namedPage s (m.window p)) k)
    (hc : Confined mainThread p prio s (m.window p) page') : s.length ≤ 15 := by
  obtain ⟨t, -, -, hlen, -, hzero⟩ := hc.name
  by_contra hgt
  have hchar : t.length < s.length := by omega
  rw [hpage _ (by omega), fields_other (by omega), namedPage, if_pos (by omega),
    Nat.add_sub_cancel_left, List.getElem?_eq_getElem hchar, Option.getD_some] at hzero
  exact hnonzero _ (List.getElem_mem hchar) hzero

/-- A short name, and what is behind it. -/
theorem confined_of_length_le {prio : UInt8} {page' : ByteMemory} (hlen : s.length ≤ 15)
    (hpage : ∀ k, k < 4096 →
      page' k = fields mainThread p prio (namedPage s (m.window p)) k) :
    Confined mainThread p prio s (m.window p) page' := by
  have hclear : ∀ k, 25 ≤ k → k < 68 → namedPage s (m.window p) k = 0 := by
    intro k hlo hhi
    rw [namedPage, if_neg (by omega), if_pos hhi]
  have hassigned : Assigned mainThread p prio page' := by
    obtain ⟨h0, h4, h8, h25, h28, h48, h64⟩ :=
      @fields_assigned mainThread p prio (namedPage s (m.window p))
    have hread : ∀ i, i + 4 ≤ 4096 → page'.read32 i =
        (fields mainThread p prio (namedPage s (m.window p))).read32 i :=
      fun i hi => ByteMemory.read32_congr fun k hk => hpage (i + k) (by omega)
    refine ⟨?_, ?_, ?_, ?_, ?_, ?_, ?_⟩
    · rw [hread 0 (by decide), h0]
    · rw [hread 4 (by decide), h4]
    · rw [hpage 8 (by decide), h8]
    · rw [hpage 25 (by decide), h25]
    · rw [hread 28 (by decide), h28]
    · rw [hread 48 (by decide), h48]
    · rw [hread 64 (by decide), h64]
  refine ⟨⟨s, List.prefix_refl s, fun _ => rfl, by omega, ?_, ?_⟩, ?_, ?_, ?_, hassigned, ?_⟩
  · intro i hi
    rw [hpage _ (by omega), fields_other (by omega), namedPage, if_pos (by omega),
      Nat.add_sub_cancel_left, List.getElem?_eq_getElem hi, Option.getD_some]
  · rw [hpage _ (by omega), fields_other (by omega), namedPage, if_neg (by omega),
      if_pos (by omega)]
  · intro k hlo hhi
    rw [hpage _ (by omega), fields_other (by omega), hclear k (by omega) (by omega)]
  · intro k hlo hhi
    rw [hpage _ (by omega), fields_other (by omega), hclear k (by omega) (by omega)]
  · intro k hlo hhi
    rw [hpage _ (by omega), fields_other (by omega), hclear k (by omega) (by omega)]
  · intro k hlo hhi
    rw [hpage _ hhi, fields_other (by omega), namedPage, if_neg (by omega), if_neg (by omega)]

/-- **The name is confined** to its field exactly when it has at most 15 characters. -/
theorem initThread_confined_iff (hp : PageAligned p) (hne : p ≠ 0) (h : IsCStr m name s)
    (hout : OutsidePage p name s.length) :
    (∃ m', initThread mainThread p name prio m = .ok m' ∧
      Confined mainThread p prio.toUInt8 s (m.window p) (m'.window p)) ↔ s.length ≤ 15 := by
  have hlen := hout.length_le h hp hne
  rw [initThread_eq hp hne h hout]
  constructor
  · rintro ⟨m', hm', hc⟩
    obtain rfl := Except.ok.inj hm'
    exact hc.length_le h.nonzero fun k hk => initThread_page hk hlen
  · intro hle
    exact ⟨_, rfl, confined_of_length_le hle fun k hk => initThread_page hk hlen⟩

/-- A row of `a`s at `0x1000` in a memory of zeros. -/
def nameOfAs (n : Nat) : Memory32 := fun b => if 0x1000 ≤ b.toNat ∧ b.toNat < 0x1000 + n then 97 else 0

theorem nameOfAs_isCStr {n : Nat} (hn : n ≤ 0x1000) :
    IsCStr (nameOfAs n) 0x1000 (List.replicate n 97) := by
  have hplace : ∀ i, i ≤ n → (0x1000 + UInt32.ofNat i).toNat = 0x1000 + i := by
    intro i hi
    rw [UInt32.toNat_add, toNat_ofNat_lt (by omega)]
    show (0x1000 + i) % 2 ^ 32 = _
    omega
  refine ⟨by decide, ?_, ?_, ?_, ?_⟩
  · rw [List.length_replicate]
    show 0x1000 + n < 2 ^ 32
    omega
  · intro x hx
    rw [(List.mem_replicate.mp hx).2]
    decide
  · intro i hi
    rw [List.length_replicate] at hi
    rw [nameOfAs, hplace i (by omega), if_pos (by omega), List.getElem_replicate]
  · rw [List.length_replicate, nameOfAs, hplace n (Nat.le_refl n), if_neg (by omega)]

theorem nameOfAs_outside {n : Nat} (hn : n < 0x1000) :
    OutsidePage 0x2000 0x1000 (List.replicate n (97 : UInt8)).length := by
  intro i hi hin
  rw [List.length_replicate] at hi
  have hplace : (0x1000 + UInt32.ofNat i).toNat = 0x1000 + i := by
    rw [UInt32.toNat_add, toNat_ofNat_lt (by omega)]
    show (0x1000 + i) % 2 ^ 32 = _
    omega
  have hlo := hin.1
  rw [hplace] at hlo
  change 0x2000 ≤ _ at hlo
  omega

theorem aligned_2000 : PageAligned 0x2000 := by
  show (0x2000 : UInt32).toNat % 4096 = 0
  decide

/-- A name of four characters. -/
theorem initThread_confined_four :
    ∃ m', initThread 0 0x2000 0x1000 31 (nameOfAs 4) = .ok m' ∧
      Confined 0 0x2000 31 [97, 97, 97, 97] ((nameOfAs 4).window 0x2000) (m'.window 0x2000) :=
  (initThread_confined_iff aligned_2000 (by decide) (nameOfAs_isCStr (n := 4) (by decide))
    (nameOfAs_outside (by decide))).mpr (by decide)

/-- A name of 16 characters leaves no room for its zero byte. -/
theorem initThread_unconfined :
    ¬ ∃ m', initThread 0 0x2000 0x1000 31 (nameOfAs 16) = .ok m' ∧
      Confined 0 0x2000 31 (List.replicate 16 97) ((nameOfAs 16).window 0x2000)
        (m'.window 0x2000) := by
  have hstr := nameOfAs_isCStr (n := 16) (by decide)
  have hout := nameOfAs_outside (n := 16) (by decide)
  rw [initThread_eq aligned_2000 (by decide) hstr hout]
  rintro ⟨m', hm', hc⟩
  obtain rfl := Except.ok.inj hm'
  have hle := hc.length_le hstr.nonzero fun k hk => initThread_page hk (by decide)
  exact absurd hle (by decide)

end

end OsKernel.Pcb
