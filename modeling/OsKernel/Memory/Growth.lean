import OsKernel.Memory.Rollback
import OsKernel.Memory.Spaces

/-!
# Nothing is ever given back

No function of kernel/memory.c clears a bit of a bitmap. So a page or a frame that is in use stays
in use, and what was true of the size and the place of a bitmap stays true.

- `BitmapGrows`, `PoolGrows`: one bitmap, one pool.
- `Grows t pf`: the pools and the bitmap `vaddr_get` uses for `t` and `pf`; one lemma a function.
- `Grows.not_returned`: `vaddr_get` does not return a page that has been in use.
-/

namespace OsKernel

open Lib

/-! ## Bitmaps and pools -/

/-- `btmp'` is the same bitmap later on. -/
structure BitmapGrows (btmp btmp' : Bitmap) : Prop where
  area : SameArea btmp btmp'
  bits : ∀ i, btmp.get i = true → btmp'.get i = true

theorem BitmapGrows.refl (btmp : Bitmap) : BitmapGrows btmp btmp :=
  ⟨.refl btmp, fun _ hi => hi⟩

theorem BitmapGrows.trans {b₁ b₂ b₃ : Bitmap} (h : BitmapGrows b₁ b₂) (h' : BitmapGrows b₂ b₃) :
    BitmapGrows b₁ b₃ :=
  ⟨h.area.trans h'.area, fun i hi => h'.bits i (h.bits i hi)⟩

/-- The bit that has been set lies inside the bitmap, and it is the only one that changes. -/
theorem bitmapSet_mark {btmp btmp' : Bitmap} {i : Nat} (h : bitmapSet btmp i 1 = .ok btmp') :
    i < btmp.size ∧ SameArea btmp btmp' ∧ btmp'.get = mark btmp.get ⟨i, 1⟩ := by
  have hi : i < btmp.size := by
    by_contra hout
    rw [bitmapSet_error (Nat.le_of_not_lt hout)] at h
    cases h
  obtain ⟨btmp₂, hset, harea, hget⟩ := bitmapSet_one btmp hi
  rw [h] at hset
  cases hset
  exact ⟨hi, harea, hget⟩

theorem bitmapSet_grows {btmp btmp' : Bitmap} {i : Nat} (h : bitmapSet btmp i 1 = .ok btmp') :
    BitmapGrows btmp btmp' := by
  obtain ⟨-, harea, hget⟩ := bitmapSet_mark h
  refine ⟨harea, fun k hk => ?_⟩
  rw [hget]
  exact mark_le hk

theorem setBits_grows {start cnt : Nat} {btmp btmp' : Bitmap}
    (h : setBits start cnt btmp = .ok btmp') : BitmapGrows btmp btmp' := by
  induction cnt generalizing start btmp with
  | zero =>
    cases h
    exact .refl _
  | succ cnt ih =>
    obtain ⟨btmp₁, hset, hrest⟩ := bind_eq_ok.mp h
    exact (bitmapSet_grows hset).trans (ih hrest)

/-- `p'` is the same pool later on. -/
structure PoolGrows (p p' : Pool) : Prop where
  bitmap : BitmapGrows p.poolBitmap p'.poolBitmap
  start : p'.phyAddrStart = p.phyAddrStart

theorem PoolGrows.refl (p : Pool) : PoolGrows p p := ⟨.refl _, rfl⟩

theorem PoolGrows.trans {p₁ p₂ p₃ : Pool} (h : PoolGrows p₁ p₂) (h' : PoolGrows p₂ p₃) :
    PoolGrows p₁ p₃ :=
  ⟨h.bitmap.trans h'.bitmap, h'.start.trans h.start⟩

theorem PoolGrows.ok {p p' : Pool} (h : PoolGrows p p') (hp : p.Ok) : p'.Ok where
  pos := h.start ▸ hp.pos
  aligned := h.start ▸ hp.aligned
  bound := by
    rw [h.start, h.bitmap.area.size]
    exact hp.bound

/-- There are never more free frames. -/
theorem PoolGrows.freeFrames_le {p p' : Pool} (h : PoolGrows p p') :
    p'.freeFrames ≤ p.freeFrames := by
  unfold Pool.freeFrames
  rw [h.bitmap.area.size]
  exact freeCount_le fun i _ hi => h.bitmap.bits i hi

theorem palloc_grows {p p' : Pool} {q : UInt32} (h : palloc p = .ok (q, p')) : PoolGrows p p' := by
  unfold palloc at h
  split at h
  · cases h
    exact .refl p
  · obtain ⟨btmp, hset, h⟩ := bind_eq_ok.mp h
    cases h
    exact ⟨bitmapSet_grows hset, rfl⟩

/-! ## Functions -/

/-- No frame is given back, and no page that `vaddr_get` manages for the thread `t`. -/
structure Grows (t : Tid) (pf : PoolFlags) (m m' : Memory) : Prop where
  kernelPool : PoolGrows m.kernelPool m'.kernelPool
  userPool : PoolGrows m.userPool m'.userPool
  vaddrs : BitmapGrows (m.vaddrs t pf).vaddrBitmap (m'.vaddrs t pf).vaddrBitmap
  vaddrStart : (m'.vaddrs t pf).vaddrStart = (m.vaddrs t pf).vaddrStart

section Grows

variable {t : Tid} {pf : PoolFlags} {m m₁ m₂ m₃ m' : Memory}

theorem Grows.refl (t : Tid) (pf : PoolFlags) (m : Memory) : Grows t pf m m :=
  ⟨.refl _, .refl _, .refl _, rfl⟩

theorem Grows.trans (h : Grows t pf m₁ m₂) (h' : Grows t pf m₂ m₃) : Grows t pf m₁ m₃ :=
  ⟨h.kernelPool.trans h'.kernelPool, h.userPool.trans h'.userPool, h.vaddrs.trans h'.vaddrs,
    h'.vaddrStart.trans h.vaddrStart⟩

/-- Memory and the pools apart, nothing matters. -/
theorem Grows.of_pools (hkernel : PoolGrows m.kernelPool m'.kernelPool)
    (huser : PoolGrows m.userPool m'.userPool) (hvaddr : m'.kernelVaddr = m.kernelVaddr)
    (husers : m'.userprogVaddr = m.userprogVaddr) : Grows t pf m m' := by
  have hsame : m'.vaddrs t pf = m.vaddrs t pf := by
    cases pf with
    | kernel => exact hvaddr
    | user => exact congrFun husers t
  refine ⟨hkernel, huser, ?_, by rw [hsame]⟩
  rw [hsame]
  exact .refl _

theorem Grows.setPool {p : Pool} (pf' : PoolFlags) (h : PoolGrows (m.pool pf') p) :
    Grows t pf m (m.setPool p pf') := by
  cases pf' with
  | kernel => exact .of_pools h (.refl _) rfl rfl
  | user => exact .of_pools (.refl _) h rfl rfl

/-- A thread `u` gets other addresses; those of `t` may be the same. -/
theorem Grows.setVaddrs {u : Tid} {pf' : PoolFlags} {btmp : Bitmap}
    (h : BitmapGrows (m.vaddrs u pf').vaddrBitmap btmp) :
    Grows t pf m (m.setVaddrs u { m.vaddrs u pf' with vaddrBitmap := btmp } pf') := by
  cases pf' with
  | kernel =>
    refine ⟨.refl _, .refl _, ?_, ?_⟩
    · cases pf with
      | kernel => exact h
      | user => exact .refl _
    · cases pf with
      | kernel => rfl
      | user => rfl
  | user =>
    refine ⟨.refl _, .refl _, ?_, ?_⟩
    · cases pf with
      | kernel => exact .refl _
      | user =>
        show BitmapGrows _ (Function.update m.userprogVaddr u _ t).vaddrBitmap
        by_cases heq : t = u
        · rw [heq, Function.update_self]
          exact h
        · rw [Function.update_of_ne heq]
          exact .refl _
    · cases pf with
      | kernel => rfl
      | user =>
        show (Function.update m.userprogVaddr u _ t).vaddrStart = _
        by_cases heq : t = u
        · rw [heq, Function.update_self]
        · rw [Function.update_of_ne heq]
          rfl

variable {u : Tid} {pf' : PoolFlags} {n a vaddr p : UInt32}

/-- `vaddr_get` finds no run, or takes the one it has found. -/
theorem vaddrGet_inv (h : vaddrGet u pf' n m = .ok (a, m')) :
    (a = 0 ∧ m' = m) ∨ ∃ s btmp,
      bitmapScan (m.vaddrs u pf').vaddrBitmap n.toNat = some s ∧
      setBits s n.toNat (m.vaddrs u pf').vaddrBitmap = .ok btmp ∧
      a = (m.vaddrs u pf').pageAddr s ∧
      m' = m.setVaddrs u { m.vaddrs u pf' with vaddrBitmap := btmp } pf' := by
  unfold vaddrGet at h
  dsimp only at h
  split at h
  · cases h
    exact Or.inl ⟨rfl, rfl⟩
  · next s hscan =>
    obtain ⟨btmp, hset, h⟩ := bind_eq_ok.mp h
    refine Or.inr ⟨s, btmp, hscan, hset, ?_⟩
    cases pf' with
    | kernel =>
      cases h
      exact ⟨rfl, rfl⟩
    | user =>
      obtain ⟨_, -, h⟩ := bind_eq_ok.mp h
      cases h
      exact ⟨rfl, rfl⟩

theorem vaddrGet_grows (h : vaddrGet u pf' n m = .ok (a, m')) : Grows t pf m m' := by
  rcases vaddrGet_inv h with ⟨-, rfl⟩ | ⟨s, btmp, -, hset, -, rfl⟩
  · exact .refl t pf m'
  · exact .setVaddrs (setBits_grows hset)

/-- `page_table_add` may take a frame of `kernel_pool`. -/
theorem pageTableAdd_grows (h : pageTableAdd u vaddr p m = .ok m') : Grows t pf m m' := by
  obtain ⟨_, -, h⟩ := bind_eq_ok.mp h
  obtain ⟨_, -, h⟩ := bind_eq_ok.mp h
  obtain ⟨e, -, h⟩ := bind_eq_ok.mp h
  split at h
  · obtain ⟨_, -, h⟩ := bind_eq_ok.mp h
    obtain ⟨_, -, h⟩ := bind_eq_ok.mp h
    obtain ⟨_, -, h⟩ := bind_eq_ok.mp h
    cases h
    exact .of_pools (.refl _) (.refl _) rfl rfl
  · obtain ⟨⟨q, pool⟩, hpalloc, h⟩ := bind_eq_ok.mp h
    obtain ⟨_, -, h⟩ := bind_eq_ok.mp h
    obtain ⟨_, -, h⟩ := bind_eq_ok.mp h
    obtain ⟨_, -, h⟩ := bind_eq_ok.mp h
    obtain ⟨_, -, h⟩ := bind_eq_ok.mp h
    obtain ⟨_, -, h⟩ := bind_eq_ok.mp h
    cases h
    exact .of_pools (palloc_grows hpalloc) (.refl _) rfl rfl

theorem mallocLoop_grows {cnt : Nat} {complete : Bool}
    (h : mallocLoop u pf' cnt vaddr m = .ok (complete, m')) : Grows t pf m m' := by
  induction cnt generalizing vaddr m with
  | zero =>
    cases h
    exact .refl t pf _
  | succ cnt ih =>
    obtain ⟨⟨p, pool⟩, hpalloc, h⟩ := bind_eq_ok.mp h
    have hfirst : Grows t pf m (m.setPool pool pf') := .setPool pf' (palloc_grows hpalloc)
    dsimp only at h
    split at h
    · cases h
      exact hfirst
    · obtain ⟨m₁, hadd, hrest⟩ := bind_eq_ok.mp h
      exact (hfirst.trans (pageTableAdd_grows hadd)).trans (ih hrest)

theorem mallocPage_grows (h : mallocPage u pf' n m = .ok (a, m')) : Grows t pf m m' := by
  obtain ⟨_, -, h⟩ := bind_eq_ok.mp h
  obtain ⟨⟨addrStart, m₁⟩, hvaddr, h⟩ := bind_eq_ok.mp h
  obtain ⟨⟨complete, m₂⟩, hloop, h⟩ := bind_eq_ok.mp h
  cases h
  exact (vaddrGet_grows hvaddr).trans (mallocLoop_grows hloop)

theorem getPages_grows (h : getPages u pf' n m = .ok (a, m')) : Grows t pf m m' := by
  obtain ⟨⟨vaddr, m₁⟩, hmalloc, h⟩ := bind_eq_ok.mp h
  have hpages : Grows t pf m m₁ := mallocPage_grows hmalloc
  dsimp only at h
  split at h
  · obtain ⟨ram, -, h⟩ := bind_eq_ok.mp h
    cases h
    exact hpages.trans (.of_pools (.refl _) (.refl _) rfl rfl)
  · cases h
    exact hpages

theorem getAPage_grows (h : getAPage u pf' vaddr m = .ok (a, m')) : Grows t pf m m' := by
  obtain ⟨_, -, h⟩ := bind_eq_ok.mp h
  obtain ⟨_, -, h⟩ := bind_eq_ok.mp h
  obtain ⟨btmp, hset, h⟩ := bind_eq_ok.mp h
  obtain ⟨⟨p, pool⟩, hpalloc, h⟩ := bind_eq_ok.mp h
  have hbit : Grows t pf m (m.setVaddrs u { m.vaddrs u pf' with vaddrBitmap := btmp } pf') :=
    .setVaddrs (bitmapSet_grows hset)
  have hfirst := hbit.trans (.setPool pf' (palloc_grows hpalloc))
  dsimp only at h
  split at h
  · cases h
    exact hfirst
  · obtain ⟨m₁, hadd, h⟩ := bind_eq_ok.mp h
    cases h
    exact hfirst.trans (pageTableAdd_grows hadd)

/-! ## A page that is in use -/

/-- The managed addresses of `t` end below 4 GB. -/
def VirtualAddr.InRange (va : VirtualAddr) : Prop :=
  va.vaddrStart.toNat + 0x1000 * va.vaddrBitmap.size ≤ 2 ^ 32

theorem VirtualAddr.InRange.pageAddr_toNat {va : VirtualAddr} (h : va.InRange) {s : Nat}
    (hs : s < va.vaddrBitmap.size) :
    (va.pageAddr s).toNat = va.vaddrStart.toNat + 0x1000 * s := by
  unfold VirtualAddr.InRange at h
  rw [VirtualAddr.pageAddr, UInt32.toNat_add, UInt32.toNat_mul, UInt32.toNat_ofNat']
  show (_ + s % 2 ^ 32 * 0x1000 % 2 ^ 32) % 2 ^ 32 = _
  omega

/-- **A page in use is not returned** by `vaddr_get`, whatever has been called in between. -/
theorem Grows.not_returned (h : Grows t pf m m₁) (hrange : (m.vaddrs t pf).InRange) {i : Nat}
    (hbit : (m.vaddrs t pf).vaddrBitmap.get i = true)
    (hret : vaddrGet t pf n m₁ = .ok (a, m₂)) (ha : a ≠ 0) :
    ¬ (a.toNat ≤ (m.vaddrs t pf).vaddrStart.toNat + 0x1000 * i ∧
      (m.vaddrs t pf).vaddrStart.toNat + 0x1000 * i < a.toNat + 0x1000 * n.toNat) := by
  intro ⟨hlo, hhi⟩
  have hpos : 0 < n.toNat := by omega
  have hrange₁ : (m₁.vaddrs t pf).InRange := by
    rw [VirtualAddr.InRange, h.vaddrStart, h.vaddrs.area.size]
    exact hrange
  rcases vaddrGet_inv hret with ⟨hnull, -⟩ | ⟨s, btmp, hscan, -, haddr, -⟩
  · exact ha hnull
  · have hfit := bitmapScan_spec (m₁.vaddrs t pf).vaddrBitmap hpos
    rw [hscan] at hfit
    have hbound := hfit.bound
    rw [haddr, hrange₁.pageAddr_toNat (by omega), h.vaddrStart] at hlo hhi
    -- the run that is taken was clear
    have hin : s ≤ i ∧ i < s + n.toNat := by omega
    have hclear := hfit.clear i hin
    rw [h.vaddrs.bits i hbit] at hclear
    cases hclear

end Grows

end OsKernel
