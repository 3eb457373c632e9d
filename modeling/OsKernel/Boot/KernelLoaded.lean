import OsKernel.Boot.KernelInit

/-!
# The kernel in memory

What the kernel finds when it starts: its segments at the places it is linked for, with zeros where
the file has no bytes. The loader does not clear that memory, and it copies headers that are not of
type `PT_LOAD`.

- `KernelLoaded`: the segments are in memory as their headers say, and nothing else has changed.
- `Placed.lastCopy_load`, `Placed.lastCopy_zero`: who has the last word on a byte of a segment.
- `kernel_loaded_iff`: what the image and the old memory have to be like.
-/

namespace OsKernel

open Lib

/-! ## What is asked of the loader -/

section Loading

variable {len : Nat} {ram ram' : ByteMemory} {hs : List ProgramHeader} {h : ProgramHeader} {a : Nat}

/-- Some `PT_LOAD` segment has the byte `a`. -/
def InSegment (ram : ByteMemory) (hs : List ProgramHeader) (a : Nat) : Prop :=
  ∃ h ∈ hs, h.IsLoad ∧ ∃ k, k < h.span ∧ h.place ram k = .ok a

/-- No byte of the `PT_LOAD` segment `h` is a byte of the `PT_LOAD` segment `h'`. -/
def ProgramHeader.DisjointFrom (ram : ByteMemory) (h h' : ProgramHeader) : Prop :=
  h.IsLoad → h'.IsLoad → ∀ k l a, k < h.span → l < h'.span → h.place ram k = .ok a →
    h'.place ram l ≠ .ok a

instance : Std.Symm (ProgramHeader.DisjointFrom ram) where
  symm _ _ hxy hy hx l k a hl hk hly hkx := hxy hx hy k l a hk hl hkx hly

/-- The `PT_LOAD` segments do not overlap, and they are apart from what the loader has. -/
structure Placed (len : Nat) (ram : ByteMemory) (hs : List ProgramHeader) : Prop where
  disjoint : hs.Pairwise (ProgramHeader.DisjointFrom ram)
  injective : ∀ h ∈ hs, h.IsLoad → ∀ k l a, k < h.span → l < h.span → h.place ram k = .ok a →
    h.place ram l = .ok a → k = l
  apart : ∀ h ∈ hs, h.IsLoad → h.Apart len ram h.span

/-- So are the others that get copied. -/
def StraysApart (len : Nat) (ram : ByteMemory) (hs : List ProgramHeader) : Prop :=
  ∀ h ∈ hs, h.IsStray → h.Apart len ram h.filesz.toNat

/-- **The kernel is loaded**: every segment holds its bytes of the file and zeros behind them, and
nothing else has changed. -/
structure KernelLoaded (ram ram' : ByteMemory) (hs : List ProgramHeader) : Prop where
  file : ∀ h ∈ hs, h.IsLoad → ∀ k, k < h.filesz.toNat →
    ∃ a, h.place ram k = .ok a ∧ ram' a = h.fileByte ram k
  zero : ∀ h ∈ hs, h.IsLoad → ∀ k, h.filesz.toNat ≤ k → k < h.memsz.toNat →
    ∃ a, h.place ram k = .ok a ∧ ram' a = 0
  rest : ∀ a, ¬ InSegment ram hs a → ¬ LoaderStack a → ram' a = ram a

/-- The byte that the headers other than `PT_LOAD` put at `a`. -/
def strayByte (ram : ByteMemory) (hs : List ProgramHeader) (a : Nat) : Option UInt8 :=
  lastCopy (fun h => decide h.IsStray) ram hs a

/-- The image and the old memory suit the loader: what it copies has a place, the headers other
than `PT_LOAD` put nothing new anywhere, and the memory behind the segments was clear. -/
structure LoadsRight (ram : ByteMemory) (hs : List ProgramHeader) : Prop where
  mapped : AllMapped ram hs
  file : ∀ before h after, hs = before ++ h :: after → h.IsLoad → ∀ k a x, k < h.filesz.toNat →
    h.place ram k = .ok a → strayByte ram after a = some x → x = h.fileByte ram k
  zero : ∀ h ∈ hs, h.IsLoad → ∀ k, h.filesz.toNat ≤ k → k < h.memsz.toNat →
    ∃ a, h.place ram k = .ok a ∧ (strayByte ram hs a).getD (ram a) = 0
  rest : ∀ a x, ¬ InSegment ram hs a → ¬ LoaderStack a → strayByte ram hs a = some x → x = ram a

theorem ProgramHeader.IsLoad.isCopied (hload : h.IsLoad) : h.IsCopied := by
  rw [ProgramHeader.IsLoad] at hload
  rw [ProgramHeader.IsCopied, hload]
  decide

theorem ProgramHeader.filesz_le_span (h : ProgramHeader) : h.filesz.toNat ≤ h.span :=
  Nat.le_max_left _ _

theorem Placed.contained (hplaced : Placed len ram hs) (hstray : StraysApart len ram hs)
    (hfile : ∀ h ∈ hs, h.type ≠ 0 → h.offset.toNat + h.filesz.toNat ≤ len) :
    Contained len ram hs := by
  intro h hmem hcopied
  refine ⟨hfile h hmem hcopied.type, ?_⟩
  by_cases hload : h.IsLoad
  · intro k hk
    exact hplaced.apart h hmem hload k (Nat.lt_of_lt_of_le hk h.filesz_le_span)
  · exact hstray h hmem ⟨hcopied, hload⟩

/-- Where no `PT_LOAD` header puts a byte, only the others count. -/
theorem lastCopy_stray (hnone : ∀ h ∈ hs, h.IsLoad → ∀ k, k < h.filesz.toNat →
    h.place ram k ≠ .ok a) :
    lastCopy (fun h => decide h.IsCopied) ram hs a = strayByte ram hs a := by
  induction hs with
  | nil => rfl
  | cons h hs ih =>
    have htail := ih fun h' hmem => hnone h' (List.mem_cons_of_mem _ hmem)
    rw [strayByte, lastCopy, lastCopy, htail, strayByte]
    by_cases hload : h.IsLoad
    · -- this header puts its bytes elsewhere
      have hempty := h.copied_none (hnone h List.mem_cons_self hload)
      have hnot : ¬ h.IsStray := fun hs => hs.2 hload
      rw [hempty, ite_self, decide_eq_false hnot]
      rfl
    · have hsame : decide h.IsCopied = decide h.IsStray :=
        decide_eq_decide.mpr ⟨fun hc => ⟨hc, hload⟩, And.left⟩
      rw [hsame]

theorem lastCopy_append (q : ProgramHeader → Bool) (ram : ByteMemory)
    (before after : List ProgramHeader) (a : Nat) :
    lastCopy q ram (before ++ after) a = (lastCopy q ram after a).or (lastCopy q ram before a) := by
  induction before with
  | nil => exact Option.or_none.symm
  | cons h before ih => rw [List.cons_append, lastCopy, ih, lastCopy, Option.or_assoc]

/-- On a byte of a `PT_LOAD` header, only the others behind it count. -/
theorem Placed.lastCopy_load {before after : List ProgramHeader} {k : Nat}
    (hplaced : Placed len ram (before ++ h :: after)) (hload : h.IsLoad) (hk : k < h.filesz.toNat)
    (hplace : h.place ram k = .ok a) :
    lastCopy (fun h => decide h.IsCopied) ram (before ++ h :: after) a =
      some ((strayByte ram after a).getD (h.fileByte ram k)) := by
  have hmem : h ∈ before ++ h :: after := List.mem_append_right _ List.mem_cons_self
  have hspan : k < h.span := Nat.lt_of_lt_of_le hk h.filesz_le_span
  have hbehind := (List.pairwise_cons.mp (List.pairwise_append.mp hplaced.disjoint).2.1).1
  have hafter : lastCopy (fun h => decide h.IsCopied) ram after a = strayByte ram after a := by
    refine lastCopy_stray fun h' hmem' hload' l hl => ?_
    exact hbehind h' hmem' hload hload' k l a hspan (Nat.lt_of_lt_of_le hl h'.filesz_le_span) hplace
  have hown : h.copied ram h.filesz.toNat a = some (h.fileByte ram k) := by
    refine h.copied_of_injective hk hplace fun l hl hsame => ?_
    exact hplaced.injective h hmem hload l k a (Nat.lt_of_lt_of_le hl h.filesz_le_span) hspan hsame
      hplace
  rw [lastCopy_append, lastCopy, hafter, hown, if_pos (decide_eq_true hload.isCopied)]
  cases strayByte ram after a with
  | none => rfl
  | some x => rfl

/-- No file byte goes to the memory behind a segment. -/
theorem Placed.lastCopy_zero {k : Nat} (hplaced : Placed len ram hs) (hmem : h ∈ hs)
    (hload : h.IsLoad) (hlo : h.filesz.toNat ≤ k) (hhi : k < h.memsz.toNat)
    (hplace : h.place ram k = .ok a) :
    lastCopy (fun h => decide h.IsCopied) ram hs a = strayByte ram hs a := by
  refine lastCopy_stray fun h' hmem' hload' l hl hsame => ?_
  have hspan : k < h.span := Nat.lt_of_lt_of_le hhi (Nat.le_max_right _ _)
  have hspan' : l < h'.span := Nat.lt_of_lt_of_le hl h'.filesz_le_span
  by_cases heq : h = h'
  · subst heq
    have hindex := hplaced.injective h hmem hload k l a hspan hspan' hplace hsame
    omega
  · exact hplaced.disjoint.forall hmem hmem' heq hload hload' k l a hspan hspan' hplace hsame

/-- **The kernel is loaded as its headers say** if and only if the image and the old memory suit
the loader. -/
theorem kernel_loaded_iff {old : ByteMemory} {s : LoaderState} {eip eipCpy : UInt32}
    (hcall : Called len old s)
    (hplaced : Placed len (setupPage old) (programHeaders (setupPage old)))
    (hstray : StraysApart len (setupPage old) (programHeaders (setupPage old))) :
    (∃ s', kernelInit eip eipCpy s = .ok s' ∧
      KernelLoaded (setupPage old) s'.ram (programHeaders (setupPage old))) ↔
    LoadsRight (setupPage old) (programHeaders (setupPage old)) := by
  have hcont := hplaced.contained hstray hcall.image.file
  -- a byte of a segment is not on the stack
  have hoff : ∀ h ∈ programHeaders (setupPage old), h.IsLoad → ∀ k a, k < h.span →
      h.place (setupPage old) k = .ok a → ¬ LoaderStack a := fun h hmem hload k a hk hplace hstack =>
    hplaced.apart h hmem hload k hk a hplace (Or.inr (Or.inr (Or.inr hstack)))
  constructor
  · rintro ⟨s', hrun, hloaded⟩
    have hmapped := kernelInit_mapped hcall hcont hrun
    obtain ⟨t, hrun', hram⟩ := kernelInit_copies eip eipCpy hcall hcont hmapped
    obtain rfl : t = s' := by
      rw [hrun] at hrun'
      exact (Except.ok.inj hrun').symm
    refine ⟨hmapped, ?_, ?_, ?_⟩
    · intro before h after heq hload k a x hk hplace hx
      have hmem : h ∈ programHeaders (setupPage old) := by
        rw [heq]
        exact List.mem_append_right _ List.mem_cons_self
      obtain ⟨a', hplace', hbyte⟩ := hloaded.file h hmem hload k hk
      obtain rfl : a = a' := Except.ok.inj (hplace.symm.trans hplace')
      have hlast := Placed.lastCopy_load (heq ▸ hplaced) hload hk hplace
      rw [hram a (hoff h hmem hload k a (Nat.lt_of_lt_of_le hk h.filesz_le_span) hplace), heq, hlast,
        hx] at hbyte
      exact hbyte
    · intro h hmem hload k hlo hhi
      obtain ⟨a, hplace, hbyte⟩ := hloaded.zero h hmem hload k hlo hhi
      have hspan : k < h.span := Nat.lt_of_lt_of_le hhi (Nat.le_max_right _ _)
      rw [hram a (hoff h hmem hload k a hspan hplace),
        hplaced.lastCopy_zero hmem hload hlo hhi hplace] at hbyte
      exact ⟨a, hplace, hbyte⟩
    · intro a x hout hstack hx
      have hbyte := hloaded.rest a hout hstack
      have hnone := lastCopy_stray fun h hmem hload k hk hplace =>
        hout ⟨h, hmem, hload, k, Nat.lt_of_lt_of_le hk h.filesz_le_span, hplace⟩
      rw [hram a hstack, hnone, hx] at hbyte
      exact hbyte
  · intro hright
    obtain ⟨s', hrun, hram⟩ := kernelInit_copies eip eipCpy hcall hcont
      hright.mapped
    refine ⟨s', hrun, ?_, ?_, ?_⟩
    · intro h hmem hload k hk
      obtain ⟨a, hplace⟩ := hright.mapped h hmem hload.isCopied k hk
      obtain ⟨before, after, heq⟩ := List.append_of_mem hmem
      have hlast := Placed.lastCopy_load (heq ▸ hplaced) hload hk hplace
      refine ⟨a, hplace, ?_⟩
      rw [hram a (hoff h hmem hload k a (Nat.lt_of_lt_of_le hk h.filesz_le_span) hplace), heq, hlast,
        Option.getD_some]
      cases hx : strayByte (setupPage old) after a with
      | none => exact Option.getD_none
      | some x => exact hright.file before h after heq hload k a x hk hplace hx
    · intro h hmem hload k hlo hhi
      obtain ⟨a, hplace, hbyte⟩ := hright.zero h hmem hload k hlo hhi
      have hspan : k < h.span := Nat.lt_of_lt_of_le hhi (Nat.le_max_right _ _)
      refine ⟨a, hplace, ?_⟩
      rw [hram a (hoff h hmem hload k a hspan hplace),
        hplaced.lastCopy_zero hmem hload hlo hhi hplace]
      exact hbyte
    · intro a hout hstack
      have hnone := lastCopy_stray fun h hmem hload k hk hplace =>
        hout ⟨h, hmem, hload, k, Nat.lt_of_lt_of_le hk h.filesz_le_span, hplace⟩
      rw [hram a hstack, hnone]
      cases hx : strayByte (setupPage old) (programHeaders (setupPage old)) a with
      | none => exact Option.getD_none
      | some x => exact hright.rest a x hout hstack hx

end Loading

/-! ## A small image -/

/-- A kernel with `n` program headers, one or two. The first segment has one byte in the file, for
address 0x1000, and `memsz` bytes in memory; the memory has `b` behind that address. -/
def smallImage (n memsz b : UInt8) : ByteMemory := fun a =>
  if a = 0x70000 + 28 then 52
  else if a = 0x70000 + 42 then 32
  else if a = 0x70000 + 44 then n
  -- the first header
  else if a = 0x70000 + 52 then 1
  else if a = 0x70000 + 56 then 116
  else if a = 0x70000 + 61 then 0x10
  else if a = 0x70000 + 68 then 1
  else if a = 0x70000 + 72 then memsz
  -- the second header
  else if a = 0x70000 + 84 then 1
  else if a = 0x70000 + 88 then 117
  else if a = 0x70000 + 93 then 0x12
  else if a = 0x70000 + 100 then 1
  else if a = 0x70000 + 104 then 1
  -- the bytes of the segments
  else if a = 0x70000 + 116 then 0x55
  else if a = 0x70000 + 117 then 0x66
  else if a = 0x1001 then b
  else 0

/-- The loader before it calls `kernel_init`. -/
def loaderStart (ram : ByteMemory) : LoaderState where
  eax := 0
  ebx := 0
  ecx := 0
  edx := 0
  esi := 0
  edi := 0
  ebp := 0
  esp := 0xc0000900
  ram := setupPage ram

theorem setupPage_read32 (ram : ByteMemory) {a : Nat} (ha : a + 4 ≤ 0x100000) :
    (setupPage ram).read32 a = ram.read32 a :=
  ByteMemory.read32_congr fun _ _ => setupPage_below ram (by omega)

theorem setupPage_half (ram : ByteMemory) {a : Nat} (ha : a + 2 ≤ 0x100000) :
    halfAt (setupPage ram) a = halfAt ram a := by
  rw [halfAt, halfAt, setupPage_below ram (by omega), setupPage_below ram (by omega)]

theorem setupPage_header (ram : ByteMemory) {p : Nat} (hp : p + 24 ≤ 0x100000) :
    headerAt (setupPage ram) p = headerAt ram p := by
  rw [headerAt, headerAt, setupPage_read32 ram (by omega), setupPage_read32 ram (by omega),
    setupPage_read32 ram (by omega), setupPage_read32 ram (by omega), setupPage_read32 ram (by omega)]

/-- The first 1 MB is mapped to itself. -/
theorem place_low (ram : ByteMemory) (h : ProgramHeader) {k : Nat}
    (hk : h.vaddr.toNat + k < 0x100000) :
    h.place (setupPage ram) k = .ok (h.vaddr.toNat + k) := by
  have haddr : (h.vaddr + UInt32.ofNat k).toNat = h.vaddr.toNat + k := toNat_add_ofNat (by omega)
  have hmapped := @setupPage_mapped ram (h.vaddr + UInt32.ofNat k)
    (by unfold dirIndex; omega) (by unfold tableIndex; omega)
  rw [ProgramHeader.place, hmapped, tableIndex, haddr, Except.ok.injEq]
  omega

/-- All headers are of type `PT_LOAD`. -/
theorem strayByte_none {ram : ByteMemory} {hs : List ProgramHeader} (hload : ∀ h ∈ hs, h.IsLoad)
    (a : Nat) : strayByte ram hs a = none := by
  induction hs with
  | nil => rfl
  | cons h hs ih =>
    have hnot : ¬ h.IsStray := fun hstray => hstray.2 (hload h List.mem_cons_self)
    have hrest := ih fun h' hmem => hload h' (List.mem_cons_of_mem _ hmem)
    rw [strayByte] at hrest
    rw [strayByte, lastCopy, hrest, decide_eq_false hnot]
    rfl

section SmallImage

variable {n memsz b : UInt8} {h : ProgramHeader}

def firstHeader (memsz : UInt8) : ProgramHeader where
  type := 1
  offset := 116
  vaddr := 0x1000
  filesz := 1
  memsz := UInt32.ofNat memsz.toNat

def secondHeader : ProgramHeader where
  type := 1
  offset := 117
  vaddr := 0x1200
  filesz := 1
  memsz := 1

theorem smallImage_counts : phentsize (setupPage (smallImage n memsz b)) = 32 ∧
    phoff (setupPage (smallImage n memsz b)) = 52 ∧
    phnum (setupPage (smallImage n memsz b)) = n.toNat := by
  refine ⟨?_, ?_, ?_⟩
  · rw [phentsize, setupPage_half _ (by omega)]
    rfl
  · rw [phoff, setupPage_read32 _ (by omega)]
    rfl
  · rw [phnum, setupPage_half _ (by omega)]
    rfl

theorem smallImage_headers (hn : n = 1 ∨ n = 2) :
    programHeaders (setupPage (smallImage n memsz b)) =
      [firstHeader memsz, secondHeader].take n.toNat := by
  obtain ⟨hsize, hoff, hnum⟩ := @smallImage_counts n memsz b
  have hfirst : headerAt (setupPage (smallImage n memsz b)) (0x70000 + 52) = firstHeader memsz := by
    rw [setupPage_header _ (by omega), headerAt]
    rfl
  have hsecond : headerAt (setupPage (smallImage n memsz b)) (0x70000 + 52 + 32) = secondHeader := by
    rw [setupPage_header _ (by omega), headerAt]
    rfl
  rw [programHeaders, hoff, hnum]
  rcases hn with rfl | rfl
  · have hone : (1 : UInt8).toNat = 1 := rfl
    rw [hone, headersFrom, headersFrom, hfirst, List.take_succ_cons, List.take_zero]
  · have htwo : (2 : UInt8).toNat = 2 := rfl
    rw [htwo, headersFrom, headersFrom, headersFrom, hsize, hfirst, hsecond, List.take_succ_cons,
      List.take_succ_cons, List.take_zero]

theorem smallImage_header (hn : n = 1 ∨ n = 2)
    (hmem : h ∈ programHeaders (setupPage (smallImage n memsz b))) :
    h = firstHeader memsz ∨ h = secondHeader := by
  rw [smallImage_headers hn] at hmem
  have hall := List.mem_of_mem_take hmem
  rw [List.mem_cons, List.mem_singleton] at hall
  exact hall

/-- What the two headers have in common. -/
theorem smallImage_load (hn : n = 1 ∨ n = 2)
    (hmem : h ∈ programHeaders (setupPage (smallImage n memsz b))) :
    h.IsLoad ∧ h.filesz.toNat = 1 ∧ h.offset.toNat + 1 ≤ 118 ∧ h.span < 0x200 ∧
      (h.vaddr.toNat = 0x1000 ∨ h.vaddr.toNat = 0x1200) := by
  rcases smallImage_header hn hmem with rfl | rfl
  · refine ⟨rfl, rfl, show 116 + 1 ≤ 118 by decide, ?_, Or.inl rfl⟩
    have hlt := memsz.toNat_lt
    have hone : (1 : UInt32).toNat = 1 := rfl
    rw [ProgramHeader.span, firstHeader, UInt32.toNat_ofNat', hone]
    omega
  · exact ⟨rfl, rfl, by decide, by decide, Or.inr rfl⟩

theorem smallImage_place (hn : n = 1 ∨ n = 2)
    (hmem : h ∈ programHeaders (setupPage (smallImage n memsz b))) {k : Nat} (hk : k < h.span) :
    h.place (setupPage (smallImage n memsz b)) k = .ok (h.vaddr.toNat + k) := by
  obtain ⟨-, -, -, hspan, hvaddr⟩ := smallImage_load hn hmem
  exact place_low _ h (by omega)

theorem smallImage_called (hn : n = 1 ∨ n = 2) :
    Called 118 (smallImage n memsz b) (loaderStart (smallImage n memsz b)) where
  ram := by rw [loaderStart]
  esp := rfl
  image := by
    obtain ⟨hsize, hoff, hnum⟩ := @smallImage_counts n memsz b
    have hle : 1 ≤ n.toNat ∧ n.toNat ≤ 2 := by
      rcases hn with rfl | rfl
      · decide
      · decide
    refine ⟨by decide, by decide, by omega, by omega, ?_, ?_⟩
    · rw [hsize, hoff, hnum]
      omega
    intro h hmem _
    obtain ⟨-, hfilesz, hoffset, -⟩ := smallImage_load hn hmem
    rw [hfilesz]
    exact hoffset

theorem smallImage_placed (hn : n = 1 ∨ n = 2) :
    Placed 118 (setupPage (smallImage n memsz b))
      (programHeaders (setupPage (smallImage n memsz b))) := by
  refine ⟨?_, ?_, ?_⟩
  · rw [smallImage_headers hn]
    refine List.Pairwise.sublist (List.take_sublist _ _) (List.pairwise_pair.mpr ?_)
    intro _ _ k l a hk hl hka hla
    have hlt := memsz.toNat_lt
    have hfirst : (firstHeader memsz).span < 0x200 := by
      have hone : (1 : UInt32).toNat = 1 := rfl
      rw [ProgramHeader.span, firstHeader, UInt32.toNat_ofNat', hone]
      omega
    have hsecond : secondHeader.span = 1 := by decide
    have hvaddr : (firstHeader memsz).vaddr.toNat = 0x1000 := rfl
    have hvaddr' : secondHeader.vaddr.toNat = 0x1200 := rfl
    rw [place_low _ _ (by omega), Except.ok.injEq] at hka hla
    omega
  · intro h hmem _ k l a hk hl hka hla
    rw [smallImage_place hn hmem hk, Except.ok.injEq] at hka
    rw [smallImage_place hn hmem hl, Except.ok.injEq] at hla
    omega
  · intro h hmem _ k hk a hka
    obtain ⟨-, -, -, hspan, hvaddr⟩ := smallImage_load hn hmem
    rw [smallImage_place hn hmem hk, Except.ok.injEq] at hka
    unfold Occupied LoaderStack
    omega

theorem smallImage_strays (hn : n = 1 ∨ n = 2) :
    StraysApart 118 (setupPage (smallImage n memsz b))
      (programHeaders (setupPage (smallImage n memsz b))) := fun _ hmem hstray =>
  absurd (smallImage_load hn hmem).1 hstray.2

end SmallImage

/-- Two segments are loaded, where the byte behind the first one was clear. -/
theorem kernel_loaded_clear :
    ∃ s', kernelInit 0xd6a 0xd95 (loaderStart (smallImage 2 2 0)) = .ok s' ∧
      KernelLoaded (setupPage (smallImage 2 2 0)) s'.ram
        (programHeaders (setupPage (smallImage 2 2 0))) := by
  have hn : (2 : UInt8) = 1 ∨ (2 : UInt8) = 2 := Or.inr rfl
  have hload : ∀ h ∈ programHeaders (setupPage (smallImage 2 2 0)), h.IsLoad :=
    fun h hmem => (smallImage_load hn hmem).1
  refine (kernel_loaded_iff (smallImage_called hn) (smallImage_placed hn)
    (smallImage_strays hn)).mpr ⟨?_, ?_, ?_, ?_⟩
  · intro h hmem _ k hk
    exact ⟨_, smallImage_place hn hmem (Nat.lt_of_lt_of_le hk h.filesz_le_span)⟩
  · intro before h after heq _ k a x _ _ hx
    have hafter : ∀ h' ∈ after, h'.IsLoad := fun h' hmem =>
      hload h' (heq ▸ List.mem_append_right _ (List.mem_cons_of_mem _ hmem))
    rw [strayByte_none hafter] at hx
    cases hx
  · intro h hmem _ k hlo hhi
    have hplace := smallImage_place hn hmem (Nat.lt_of_lt_of_le hhi (Nat.le_max_right _ _))
    refine ⟨_, hplace, ?_⟩
    rw [strayByte_none hload, Option.getD_none]
    rcases smallImage_header hn hmem with rfl | rfl
    · replace hlo : 1 ≤ k := hlo
      replace hhi : k < 2 := hhi
      obtain rfl : k = 1 := by omega
      exact setupPage_below _ (show 0x1001 < 0x100000 by decide)
    · exact absurd (Nat.lt_of_le_of_lt hlo hhi) (by decide)
  · intro a x _ _ hx
    rw [strayByte_none hload] at hx
    cases hx

/-- The byte behind a segment of two bytes, of which the file has one, keeps its old value. -/
theorem kernelInit_leaves_bss :
    Called 118 (smallImage 1 2 7) (loaderStart (smallImage 1 2 7)) ∧
    Placed 118 (setupPage (smallImage 1 2 7)) (programHeaders (setupPage (smallImage 1 2 7))) ∧
    StraysApart 118 (setupPage (smallImage 1 2 7)) (programHeaders (setupPage (smallImage 1 2 7))) ∧
    ∃ s', kernelInit 0xd6a 0xd95 (loaderStart (smallImage 1 2 7)) = .ok s' ∧ s'.ram 0x1001 = 7 ∧
      ¬ KernelLoaded (setupPage (smallImage 1 2 7)) s'.ram
        (programHeaders (setupPage (smallImage 1 2 7))) := by
  have hn : (1 : UInt8) = 1 ∨ (1 : UInt8) = 2 := Or.inl rfl
  have hcall := @smallImage_called 1 2 7 hn
  have hplaced := @smallImage_placed 1 2 7 hn
  have hstray := @smallImage_strays 1 2 7 hn
  refine ⟨hcall, hplaced, hstray, ?_⟩
  have hmem : firstHeader 2 ∈ programHeaders (setupPage (smallImage 1 2 7)) := by
    rw [smallImage_headers hn]
    exact List.mem_cons_self
  have hplace : (firstHeader 2).place (setupPage (smallImage 1 2 7)) 1 = .ok 0x1001 :=
    smallImage_place hn hmem (by decide)
  have hmapped : AllMapped (setupPage (smallImage 1 2 7))
      (programHeaders (setupPage (smallImage 1 2 7))) := by
    intro h hmem _ k hk
    exact ⟨_, smallImage_place hn hmem (Nat.lt_of_lt_of_le hk h.filesz_le_span)⟩
  obtain ⟨s', hrun, hram⟩ := kernelInit_copies 0xd6a 0xd95 hcall
    (hplaced.contained hstray hcall.image.file) hmapped
  have hbyte : s'.ram 0x1001 = 7 := by
    rw [hram 0x1001 (by unfold LoaderStack; omega),
      hplaced.lastCopy_zero (k := 1) hmem rfl (by decide) (by decide) hplace,
      strayByte_none fun h hmem => (smallImage_load hn hmem).1, Option.getD_none,
      setupPage_below _ (by omega)]
    rfl
  refine ⟨s', hrun, hbyte, fun hloaded => ?_⟩
  obtain ⟨a, hplace', hzero⟩ := hloaded.zero _ hmem rfl 1 (by decide) (by decide)
  obtain rfl : 0x1001 = a := Except.ok.inj (hplace.symm.trans hplace')
  rw [hbyte] at hzero
  exact absurd hzero (by decide)

end OsKernel
