import OsKernel.Userprog.Descriptors
import OsKernel.Userprog.Isolation

/-!
# userprog/process.c: process_execute and process_activate

A process has a page for its `task_struct` and a page directory, both from the kernel heap.
`process_activate` loads the directory and names the stack that interrupts of the process use.

- `processExecute`, `pageDirActivate`, `processActivate`, `processSpaces`: the operations, and runs in
  which processes also write to their memory.
- `ProcessInv`: every process has a directory of its own, at the address that `pgdir` holds.
- `process_activate_own_space`: what an activation loads.
- `user_data_kept`: only a process itself changes what is in its memory.
-/

namespace OsKernel

open Lib

/-! ## The operations -/

/-- Memory and processor, and for each thread the address of its `task_struct` and the directory that
`create_page_dir` has made for it. `dirs` has all directories made so far. -/
structure ProcessSpaces where
  mem : Memory
  dirs : List Nat
  cr3 : Nat
  tss : Tss
  pcb : Tid → UInt32
  dirOf : Tid → Nat

inductive ProcessFault where
  | panic (p : Panic)
  /-- `process_activate`: `p_thread != NULL` -/
  | processActivateThread

/-- The part of `process_execute` that concerns the memory, in thread `t` and for the new thread `u`.
The fields of the new `task_struct` are those of `mem`. -/
def processExecute (userVaddrStart : UInt32) (t u : Tid) (s : ProcessSpaces) :
    Except Panic ProcessSpaces := do
  let (thread, m) ← getKernelPages t 1 (s.mem.activate t s.cr3)
  -- `init_thread` clears the structure with `memset`
  assert (thread != 0) .memsetDst
  let m ← createUserVaddrBitmap userVaddrStart t u m
  let (pgdir, m) ← createPageDir t m
  let s := { s with
    mem := { m with pgdir := Function.update m.pgdir u pgdir }
    pcb := Function.update s.pcb u thread }
  if pgdir = 0 then return s
  let dir ← addrV2p t pgdir m
  return { s with dirs := dir.toNat :: s.dirs, dirOf := Function.update s.dirOf u dir.toNat }

/-- `page_dir_activate` in thread `t`: what it loads to cr3 for the thread `p`. -/
def pageDirActivate (t p : Tid) (m : Memory) : Except Panic Nat :=
  if m.pgdir p ≠ 0 then do
    let pagedirPhyAddr ← addrV2p t (m.pgdir p) m
    return pagedirPhyAddr.toNat
  else return 0x100000

/-- `process_activate` in thread `t` -/
def processActivate (t p : Tid) (s : ProcessSpaces) : Except ProcessFault ProcessSpaces :=
  if s.pcb p = 0 then .error .processActivateThread
  else Except.mapError .panic do
    let cr3 ← pageDirActivate t p (s.mem.activate t s.cr3)
    -- `update_tss_esp`
    let tss := if s.mem.pgdir p ≠ 0 then { s.tss with esp0 := s.pcb p + 4096 } else s.tss
    return { s with cr3 := cr3, tss := tss }

inductive ProcessOp where
  | call (op : PageOp)
  | execute (u : Tid)
  | activate (p : Tid)
  /-- The running process writes a byte. -/
  | store (vaddr : UInt32) (x : UInt8)

/-- Thread `t` does something. -/
structure ProcessStep where
  thread : Tid
  op : ProcessOp

def ProcessOp.exec (userVaddrStart : UInt32) (t : Tid) (s : ProcessSpaces) :
    ProcessOp → Except ProcessFault ProcessSpaces
  | .call op => Except.mapError .panic do
    let r ← op.exec userVaddrStart t ⟨s.mem.activate t s.cr3, s.dirs⟩
    return { s with mem := r.mem, dirs := r.dirs }
  | .execute u => Except.mapError .panic (processExecute userVaddrStart t u s)
  | .activate p => processActivate t p s
  | .store vaddr x => Except.mapError .panic do
    let ram ← store8 s.cr3 s.mem.ram vaddr x
    return { s with mem := { s.mem with ram := ram } }

/-- There are no processes yet. -/
structure ProcessesStart (allMem : UInt32) (s : ProcessSpaces) : Prop where
  pages : PageStart allMem ⟨s.mem, s.dirs⟩
  cr3 : s.cr3 = pageDirTablePos
  none : ∀ u, s.mem.pgdir u = 0

def processSpaces (allMem userVaddrStart : UInt32) :
    System ProcessSpaces ProcessStep ProcessFault where
  init := ProcessesStart allMem
  step e s := some (e.op.exec userVaddrStart e.thread s)

/-- Calls find the frames for the page tables they have to make, a new thread has not been used before,
and processes write to their own addresses. -/
def Orderly (s : ProcessSpaces) (e : ProcessStep) : Prop :=
  match e.op with
  | .call op => op.Served e.thread s.cr3 s.mem
  | .execute u => s.mem.pgdir u = 0
  | .activate _ => True
  | .store vaddr _ => UserAddress s.cr3 vaddr

/-! ## Pages of the kernel heap -/

/-- The heap page at the address `a` is the frame at `f`. -/
def HeapAt (m : Memory) (a : UInt32) (f : Nat) : Prop :=
  ∃ page, page < 0x10000 ∧ a = heapAddr page ∧
    MapsFrame m pageDirTablePos (heapDir page) (heapSlot page) f

section HeapAt

variable {m m' : Memory} {dirs : List Nat} {d f f' : Nat} {a q : UInt32} {t : Tid}

/-- It is that frame in every directory. -/
theorem HeapAt.translate (h : HeapAt m a f) (hm : TableInv m dirs) (hd : d ∈ dirs) :
    translate d m.ram a = .ok f := by
  obtain ⟨page, hpage, rfl, hmaps⟩ := h
  obtain ⟨hdir, hslot, hoff⟩ := heap_fields (Nat.succ_pos 0xfff) (heapAddr_toNat hpage)
  have hlt := heapDir_lt hpage
  have hlo : 768 ≤ heapDir page := Nat.le_add_right 768 _
  have hsame : dirEntry d m.ram (heapDir page) = dirEntry pageDirTablePos m.ram (heapDir page) := by
    rw [hm.spaces.kernel d hd _ hlo hlt, hm.spaces.kernel _ hm.boot _ hlo hlt]
  have htable : tableEntry d m.ram (heapDir page) (heapSlot page) =
      tableEntry pageDirTablePos m.ram (heapDir page) (heapSlot page) := by
    rw [tableEntry, hsame, tableEntry]
  have heq : translate d m.ram (heapAddr page) =
      .ok (frame (tableEntry d m.ram (dirIndex (heapAddr page)) (tableIndex (heapAddr page))) +
        (heapAddr page).toNat % 0x1000) := by
    refine translate_eq ?_ ?_
    · rw [hdir, hsame]
      exact hmaps.dir_present
    · rw [hdir, hslot, htable]
      exact hmaps.present
  rw [heq, hdir, hslot, htable, hmaps.frame, hoff, Nat.add_zero]

theorem HeapAt.unique (h : HeapAt m a f) (h' : HeapAt m a f') (hm : TableInv m dirs) : f = f' :=
  Except.ok.inj ((h.translate hm hm.boot).symm.trans (h'.translate hm hm.boot))

theorem HeapAt.kept (h : HeapAt m a f)
    (hkept : ∀ i j f, MapsFrame m pageDirTablePos i j f → MapsFrame m' pageDirTablePos i j f) :
    HeapAt m' a f := by
  obtain ⟨page, hpage, ha, hmaps⟩ := h
  exact ⟨page, hpage, ha, hkept _ _ _ hmaps⟩

theorem HeapAt.lt (h : HeapAt m a f) : f < 2 ^ 32 := by
  obtain ⟨page, -, -, hmaps⟩ := h
  have hlt := (tableEntry pageDirTablePos m.ram (heapDir page) (heapSlot page)).toNat_lt
  rw [← hmaps.frame, frame]
  omega

/-- Its frame is in use. -/
theorem HeapAt.used (h : HeapAt m a f) (hm : TableInv m dirs) : ¬ m.kernelPool.FreeFrame f := by
  obtain ⟨page, -, -, hmaps⟩ := h
  exact (hm.pages _ hm.boot _ _ _ hmaps).1

/-- A page that an operation has mapped. -/
theorem HeapPage.heapAt {page : Nat} (hpage : HeapPage m m' page q) (hlt : page < 0x10000)
    (hm : Spaces m dirs) (hm' : TableInv m' dirs) : HeapAt m' (heapAddr page) q.toNat := by
  obtain ⟨hdir, hplace⟩ := hm'.spaces.heap_dir hm'.boot hlt
  have haligned := (hm.pools.free hpage.free).1
  have hentry : tableEntry pageDirTablePos m'.ram (heapDir page) (heapSlot page) = entryOf q := by
    rw [tableEntry, hplace, hpage.entry]
  refine ⟨page, hlt, rfl, heapDir_lt hlt, heapSlot_lt page, hdir, ?_, ?_⟩
  · rw [hentry]
    exact present_entryOf haligned
  · rw [hentry]
    exact frame_entryOf haligned

/-- `addr_v2p` of a heap page, in any thread. -/
theorem HeapAt.addrV2p (h : HeapAt m a q.toNat) (hm : TableInv m dirs) (hd : m.cr3 t ∈ dirs) :
    addrV2p t a m = .ok q := by
  rw [addrV2p_eq (hm.spaces.last _ hd) (h.translate hm hd), UInt32.ofNat_toNat]

end HeapAt

/-! ## The invariant -/

/-- A process has a page directory of its own, behind `pgdir`, and a page for its `task_struct`. -/
structure Owns (s : ProcessSpaces) (u : Tid) : Prop where
  dir : s.dirOf u ∈ s.dirs
  made : s.dirOf u ≠ pageDirTablePos
  pgdir : HeapAt s.mem (s.mem.pgdir u) (s.dirOf u)
  pcb : ∃ f, HeapAt s.mem (s.pcb u) f

structure ProcessInv (s : ProcessSpaces) : Prop where
  frames : FrameInv s.mem s.dirs
  active : s.cr3 ∈ s.dirs
  owns : ∀ u, s.mem.pgdir u ≠ 0 → Owns s u
  apart : ∀ u u', s.mem.pgdir u ≠ 0 → s.mem.pgdir u' ≠ 0 → u ≠ u' →
    s.dirOf u ≠ s.dirOf u' ∧ s.pcb u ≠ s.pcb u'

/-- What is mapped stays mapped, and processes keep what is theirs. -/
structure Later (s s' : ProcessSpaces) : Prop where
  dirs : s.dirs ⊆ s'.dirs
  maps : ∀ d ∈ s.dirs, ∀ i j f, MapsFrame s.mem d i j f → MapsFrame s'.mem d i j f
  process : ∀ u, s.mem.pgdir u ≠ 0 →
    s'.mem.pgdir u = s.mem.pgdir u ∧ s'.dirOf u = s.dirOf u ∧ s'.pcb u = s.pcb u

theorem Later.refl (s : ProcessSpaces) : Later s s :=
  ⟨fun _ hd => hd, fun _ _ _ _ _ hmaps => hmaps, fun _ _ => ⟨rfl, rfl, rfl⟩⟩

theorem Later.trans {s₁ s₂ s₃ : ProcessSpaces} (h : Later s₁ s₂) (h' : Later s₂ s₃) : Later s₁ s₃ where
  dirs _ hd := h'.dirs (h.dirs hd)
  maps d hd i j f hmaps := h'.maps d (h.dirs hd) i j f (h.maps d hd i j f hmaps)
  process u hu := by
    obtain ⟨hpgdir, hdir, hpcb⟩ := h.process u hu
    obtain ⟨hpgdir', hdir', hpcb'⟩ := h'.process u (hpgdir ▸ hu)
    exact ⟨hpgdir'.trans hpgdir, hdir'.trans hdir, hpcb'.trans hpcb⟩

section Steps

variable {allMem userVaddrStart : UInt32} {t u p : Tid} {s s' : ProcessSpaces} {m : Memory}
  {dirs : List Nat}

theorem mapError_eq_ok {α : Type} {x : Except Panic α} {a : α} :
    x.mapError ProcessFault.panic = .ok a ↔ x = .ok a := by
  cases x with
  | error e => simp [Except.mapError]
  | ok b => simp [Except.mapError]

theorem TableInv.setPgdir (h : TableInv m dirs) (pgdir : Tid → UInt32) :
    TableInv { m with pgdir := pgdir } dirs :=
  h.remap h.spaces.pools rfl (fun _ hf => hf) h.userOk rfl h.users (fun _ _ => .refl _)
    fun _ _ _ _ _ _ _ _ => Or.inl rfl

/-- The memory changes, and `pgdir` stays. -/
theorem ProcessInv.memory (h : ProcessInv s) (hframes : FrameInv m dirs)
    (hmaps : ∀ d ∈ s.dirs, ∀ i j f, MapsFrame s.mem d i j f → MapsFrame m d i j f)
    (hsub : s.dirs ⊆ dirs) (hpgdir : m.pgdir = s.mem.pgdir) :
    ProcessInv { s with mem := m, dirs := dirs } ∧ Later s { s with mem := m, dirs := dirs } := by
  have hboot := h.frames.tables.boot
  refine ⟨⟨hframes, hsub h.active, ?_, ?_⟩, hsub, hmaps, fun u _ => ⟨by rw [hpgdir], rfl, rfl⟩⟩
  · intro u hu
    dsimp only at hu
    rw [hpgdir] at hu
    obtain ⟨hdir, hmade, hat, f, hpcb⟩ := h.owns u hu
    refine ⟨hsub hdir, hmade, ?_, f, hpcb.kept (hmaps _ hboot)⟩
    dsimp only
    rw [hpgdir]
    exact hat.kept (hmaps _ hboot)
  · intro u u' hu hu' hne
    dsimp only at hu hu'
    rw [hpgdir] at hu hu'
    exact h.apart u u' hu hu' hne

/-- A call. -/
theorem call_kept (hstart : userVaddrStart.toNat ≤ 0xc0000000)
    (halign : userVaddrStart.toNat % 0x1000 = 0) {op : PageOp} (h : ProcessInv s)
    (hserved : op.Served t s.cr3 s.mem)
    (hret : (ProcessOp.call op).exec userVaddrStart t s = .ok s') :
    ProcessInv s' ∧ Later s s' ∧ Kept s.dirs s.mem s'.mem := by
  obtain ⟨r, hexec, hret⟩ := bind_eq_ok.mp (mapError_eq_ok.mp hret)
  cases hret
  obtain ⟨hframes, hkept, hsub⟩ := pageRuns_step (s := ⟨s.mem, s.dirs⟩) (e := ⟨t, s.cr3, op⟩) hstart
    halign h.frames ⟨h.active, hserved⟩ hexec
  have hpgdir : r.mem.pgdir = s.mem.pgdir := PageOp.exec_pgdir hexec
  obtain ⟨hinv, hlater⟩ := h.memory hframes hkept.maps hsub hpgdir
  exact ⟨hinv, hlater, hkept⟩

theorem createUserVaddrBitmap_cr3 {m m' : Memory} (h : Spaces m dirs) (hd : m.cr3 t ∈ dirs)
    (hret : createUserVaddrBitmap userVaddrStart t u m = .ok m') : m'.cr3 t = m.cr3 t := by
  obtain ⟨⟨_, m₁⟩, hpages, hret⟩ := bind_eq_ok.mp hret
  obtain ⟨_, -, hret⟩ := bind_eq_ok.mp hret
  cases hret
  have hcr3 : m₁.cr3 = m.cr3 := (getKernelPages_step h hd hpages).1.cr3
  exact congrFun hcr3 t

/-- The pages that `process_execute` gets. -/
theorem processExecute_pages (hstart : userVaddrStart.toNat ≤ 0xc0000000)
    (halign : userVaddrStart.toNat % 0x1000 = 0) (h : ProcessInv s)
    (hret : processExecute userVaddrStart t u s = .ok s') :
    ∃ m thread pgdir f, FrameInv m s.dirs ∧ Kept s.dirs s.mem m ∧ m.pgdir = s.mem.pgdir ∧
      s.mem.kernelPool.FreeFrame f ∧ HeapAt m thread f ∧
      s'.mem = { m with pgdir := Function.update m.pgdir u pgdir } ∧
      s'.pcb = Function.update s.pcb u thread ∧ s'.cr3 = s.cr3 ∧
      (pgdir = 0 ∧ s'.dirs = s.dirs ∧ s'.dirOf = s.dirOf ∨
        ∃ q : UInt32, q.toNat ∉ s.dirs ∧ FrameInv m (q.toNat :: s.dirs) ∧ HeapAt m pgdir q.toNat ∧
          s'.dirs = q.toNat :: s.dirs ∧ s'.dirOf = Function.update s.dirOf u q.toNat) := by
  obtain ⟨⟨thread, m₁⟩, hthread, hret⟩ := bind_eq_ok.mp hret
  obtain ⟨_, hne, hret⟩ := bind_eq_ok.mp hret
  obtain ⟨m₂, hbitmap, hret⟩ := bind_eq_ok.mp hret
  obtain ⟨⟨pgdir, m₃⟩, hcreate, hret⟩ := bind_eq_ok.mp hret
  -- the page of the `task_struct`
  obtain ⟨h₀, hkept₀⟩ := h.frames.activate t s.cr3
  have hd₀ : (s.mem.activate t s.cr3).cr3 t ∈ s.dirs := (activate_cr3 s.mem t s.cr3).symm ▸ h.active
  obtain ⟨h₁, hkept₁⟩ := getKernelPages_frames h₀ hd₀ hthread
  obtain ⟨hstep₁, hblock⟩ := getKernelPages_step h₀.tables.spaces hd₀ hthread
  have hnull : thread ≠ 0 := by
    rintro rfl
    cases hne
  obtain ⟨page, rfl, hpages⟩ := hblock hnull
  have hbound := hpages.bound
  have hsize := h₀.tables.spaces.pools.vaddrSize
  obtain ⟨f, hpage, -⟩ := hpages.pages 0 (by decide)
  rw [Nat.add_zero] at hpage
  have hthreadAt := hpage.heapAt (by omega) h₀.tables.spaces h₁.tables
  -- the bitmap
  have hd₁ : m₁.cr3 t ∈ s.dirs := hstep₁.cr3 ▸ hd₀
  obtain ⟨h₂, hkept₂⟩ := createUserVaddrBitmap_frames hstart halign h₁ hd₁ hbitmap
  have hd₂ : m₂.cr3 t ∈ s.dirs := (createUserVaddrBitmap_cr3 h₁.tables.spaces hd₁ hbitmap) ▸ hd₁
  -- the directory
  obtain ⟨h₃, hkept₃⟩ := createPageDir_frames h₂ hd₂ hcreate
  obtain ⟨hstep₃, hdir⟩ := createPageDir_step h₂.tables.spaces hd₂ hcreate
  have hkept := ((hkept₀.trans hkept₁).trans hkept₂).trans hkept₃
  have hboot := h.frames.tables.boot
  have hthreadAt₃ : HeapAt m₃ (heapAddr page) f.toNat := hthreadAt.kept fun i j f hmaps =>
    hkept₃.maps _ hboot i j f (hkept₂.maps _ hboot i j f hmaps)
  have hpgdir₁ : m₁.pgdir = s.mem.pgdir := hstep₁.pgdir
  have hpgdir : m₃.pgdir = s.mem.pgdir := by
    rw [createPageDir_pgdir hcreate, createUserVaddrBitmap_pgdir hbitmap, hpgdir₁]
  refine ⟨m₃, heapAddr page, pgdir, f.toNat, h₃, hkept, hpgdir, hpage.free, hthreadAt₃, ?_⟩
  dsimp only at hret
  split at hret
  · next hnone =>
    cases hret
    exact ⟨rfl, rfl, rfl, Or.inl ⟨hnone, rfl, rfl⟩⟩
  · next hsome =>
    obtain ⟨page', q, hpage', rfl, hq, hnew⟩ := hdir hsome
    have hdirAt := hq.heapAt hpage' h₂.tables.spaces h₃.tables
    obtain ⟨dir, hv2p, hret⟩ := bind_eq_ok.mp hret
    rw [hdirAt.addrV2p h₃.tables (hstep₃.cr3 ▸ hd₂)] at hv2p
    cases hv2p
    cases hret
    have hfresh : q.toNat ∉ s.dirs := fun hin => h₂.tables.spaces.used _ hin hq.free
    exact ⟨rfl, rfl, rfl, Or.inr ⟨q, hfresh, h₃.newDir (h₂.tables.newDir hstep₃ hq hnew) hnew, hdirAt,
      rfl, rfl⟩⟩

/-- **`process_execute`** for a new thread. -/
theorem execute_kept (hstart : userVaddrStart.toNat ≤ 0xc0000000)
    (halign : userVaddrStart.toNat % 0x1000 = 0) (h : ProcessInv s) (hu : s.mem.pgdir u = 0)
    (hret : processExecute userVaddrStart t u s = .ok s') :
    ProcessInv s' ∧ Later s s' ∧ Kept s.dirs s.mem s'.mem := by
  obtain ⟨m, thread, pgdir, f, hm, hkept, hpgdir, hfree, hthread, hmem, hpcb, hcr3, hcase⟩ :=
    processExecute_pages hstart halign h hret
  have hboot := h.frames.tables.boot
  have hkept' : Kept s.dirs s.mem s'.mem := by
    rw [hmem]
    exact hkept.trans (.of_ram rfl rfl fun _ hf => hf)
  have hlast : ∀ a f, HeapAt m a f → HeapAt s'.mem a f := by
    intro a f hat
    have hram : s'.mem.ram = m.ram := by rw [hmem]
    exact hat.kept fun _ _ _ hmaps => hmaps.of_ram hram
  have hframes : ∀ dirs, FrameInv m dirs → FrameInv s'.mem dirs := by
    intro dirs hm
    have htables := hm.tables.setPgdir (Function.update m.pgdir u pgdir)
    rw [← hmem] at htables
    exact (hm.sameRam htables (by rw [hmem]) (by rw [hmem]) (by rw [hmem])).1
  have hpgdirOf : s'.mem.pgdir = Function.update s.mem.pgdir u pgdir := by rw [hmem, ← hpgdir]
  have hsub : s.dirs ⊆ s'.dirs := by
    rcases hcase with ⟨-, hdirs, -⟩ | ⟨q, -, -, -, hdirs, -⟩
    · rw [hdirs]
      exact fun _ hd => hd
    · rw [hdirs]
      exact List.subset_cons_self _ _
  -- the other threads keep what they have
  have hother : ∀ u', u' ≠ u → s'.mem.pgdir u' = s.mem.pgdir u' ∧ s'.dirOf u' = s.dirOf u' ∧
      s'.pcb u' = s.pcb u' := by
    intro u' hne
    rw [hpgdirOf, hpcb, Function.update_of_ne hne, Function.update_of_ne hne]
    refine ⟨rfl, ?_, rfl⟩
    rcases hcase with ⟨-, -, hdirOf⟩ | ⟨q, -, -, -, -, hdirOf⟩
    · rw [hdirOf]
    · rw [hdirOf, Function.update_of_ne hne]
  have hlater : Later s s' := by
    refine ⟨hsub, hkept'.maps, fun u' hu' => hother u' ?_⟩
    rintro rfl
    exact hu' hu
  have howns : ∀ u', u' ≠ u → s.mem.pgdir u' ≠ 0 → Owns s' u' := by
    intro u' hne hu'
    obtain ⟨hpgdir', hdirOf', hpcb'⟩ := hother u' hne
    obtain ⟨hdir, hmade, hat, f', hat'⟩ := h.owns u' hu'
    refine ⟨hdirOf' ▸ hsub hdir, hdirOf' ▸ hmade, ?_, f', ?_⟩
    · rw [hpgdir', hdirOf']
      exact hat.kept (hkept'.maps _ hboot)
    · rw [hpcb']
      exact hat'.kept (hkept'.maps _ hboot)
  have hfresh : ∀ u', u' ≠ u → s.mem.pgdir u' ≠ 0 → thread ≠ s.pcb u' := by
    rintro u' - hu' rfl
    obtain ⟨-, -, -, f', hat'⟩ := h.owns u' hu'
    have heq := hthread.unique (hat'.kept (hkept.maps _ hboot)) hm.tables
    exact hat'.used h.frames.tables (heq ▸ hfree)
  have hthreadOf : s'.pcb u = thread := by rw [hpcb, Function.update_self]
  have hpgdirU : s'.mem.pgdir u = pgdir := by rw [hpgdirOf, Function.update_self]
  rcases hcase with ⟨hnone, hdirs, -⟩ | ⟨q, hq, hm', hqAt, hdirs, hdirOf⟩
  · have hne : ∀ u', s'.mem.pgdir u' ≠ 0 → u' ≠ u := by
      rintro u' hu' rfl
      exact hu' (hpgdirU.trans hnone)
    refine ⟨⟨hdirs ▸ hframes _ hm, hcr3 ▸ hsub h.active, fun u' hu' => ?_, ?_⟩, hlater, hkept'⟩
    · exact howns u' (hne u' hu') ((hother u' (hne u' hu')).1 ▸ hu')
    · intro u₁ u₂ h₁ h₂ hdiff
      obtain ⟨hpgdir₁, hdirOf₁, hpcb₁⟩ := hother u₁ (hne u₁ h₁)
      obtain ⟨hpgdir₂, hdirOf₂, hpcb₂⟩ := hother u₂ (hne u₂ h₂)
      rw [hdirOf₁, hdirOf₂, hpcb₁, hpcb₂]
      exact h.apart u₁ u₂ (hpgdir₁ ▸ h₁) (hpgdir₂ ▸ h₂) hdiff
  · have hdirU : s'.dirOf u = q.toNat := by rw [hdirOf, Function.update_self]
    have hmine : Owns s' u := by
      refine ⟨?_, ?_, ?_, f, hthreadOf ▸ hlast _ _ hthread⟩
      · rw [hdirU, hdirs]
        exact List.mem_cons_self
      · rw [hdirU]
        exact fun heq => hq (heq ▸ hboot)
      · rw [hpgdirU, hdirU]
        exact hlast _ _ hqAt
    have hnewApart : ∀ u', u' ≠ u → s'.mem.pgdir u' ≠ 0 →
        s'.dirOf u ≠ s'.dirOf u' ∧ s'.pcb u ≠ s'.pcb u' := by
      intro u' hne hu'
      obtain ⟨hpgdir', hdirOf', hpcb'⟩ := hother u' hne
      have hold : s.mem.pgdir u' ≠ 0 := hpgdir' ▸ hu'
      rw [hdirU, hdirOf', hthreadOf, hpcb']
      exact ⟨fun heq => hq (heq ▸ (h.owns u' hold).dir), hfresh u' hne hold⟩
    refine ⟨⟨hdirs ▸ hframes _ hm', hcr3 ▸ hsub h.active, fun u' hu' => ?_, ?_⟩, hlater, hkept'⟩
    · by_cases hne : u' = u
      · exact hne ▸ hmine
      · exact howns u' hne ((hother u' hne).1 ▸ hu')
    · intro u₁ u₂ h₁ h₂ hdiff
      by_cases hne₁ : u₁ = u
      · subst hne₁
        exact hnewApart u₂ (Ne.symm hdiff) h₂
      · by_cases hne₂ : u₂ = u
        · subst hne₂
          obtain ⟨hdir, hpage⟩ := hnewApart u₁ hne₁ h₁
          exact ⟨Ne.symm hdir, Ne.symm hpage⟩
        · obtain ⟨hpgdir₁, hdirOf₁, hpcb₁⟩ := hother u₁ hne₁
          obtain ⟨hpgdir₂, hdirOf₂, hpcb₂⟩ := hother u₂ hne₂
          rw [hdirOf₁, hdirOf₂, hpcb₁, hpcb₂]
          exact h.apart u₁ u₂ (hpgdir₁ ▸ h₁) (hpgdir₂ ▸ h₂) hdiff

/-- What `page_dir_activate` loads for a thread. -/
def ProcessSpaces.spaceOf (s : ProcessSpaces) (p : Tid) : Nat :=
  if s.mem.pgdir p ≠ 0 then s.dirOf p else pageDirTablePos

theorem ProcessInv.spaceOf_mem (h : ProcessInv s) (p : Tid) : s.spaceOf p ∈ s.dirs := by
  unfold ProcessSpaces.spaceOf
  split
  · next hp => exact (h.owns p hp).dir
  · exact h.frames.tables.boot

theorem pageDirActivate_eq (h : ProcessInv s) (t p : Tid) :
    pageDirActivate t p (s.mem.activate t s.cr3) = .ok (s.spaceOf p) := by
  have hcr3 := activate_cr3 s.mem t s.cr3
  have hm := (h.frames.activate t s.cr3).1.tables
  have hpgdir : (s.mem.activate t s.cr3).pgdir = s.mem.pgdir := rfl
  rw [pageDirActivate, ProcessSpaces.spaceOf, hpgdir]
  by_cases hp : s.mem.pgdir p ≠ 0
  · have hat := (h.owns p hp).pgdir
    have hq : (UInt32.ofNat (s.dirOf p)).toNat = s.dirOf p := UInt32.toNat_ofNat_of_lt' hat.lt
    have hat' : HeapAt (s.mem.activate t s.cr3) (s.mem.pgdir p) (UInt32.ofNat (s.dirOf p)).toNat :=
      hq.symm ▸ hat.kept fun _ _ _ hmaps => hmaps.of_ram (activate_ram _ _ _)
    have hv2p := hat'.addrV2p hm (hcr3.symm ▸ h.active)
    rw [if_pos hp, if_pos hp]
    refine bind_eq_ok.mpr ⟨_, hv2p, ?_⟩
    rw [hq]
    rfl
  · rw [if_neg hp, if_neg hp]
    rfl

theorem processActivate_eq (h : ProcessInv s) (hp : s.pcb p ≠ 0) : processActivate t p s = .ok
    { s with
      cr3 := s.spaceOf p
      tss := if s.mem.pgdir p ≠ 0 then { s.tss with esp0 := s.pcb p + 4096 } else s.tss } := by
  rw [processActivate, if_neg hp, pageDirActivate_eq h]
  rfl

/-- **`process_activate`** -/
theorem activate_kept (h : ProcessInv s) (hret : processActivate t p s = .ok s') :
    ProcessInv s' ∧ Later s s' ∧ s'.mem = s.mem := by
  by_cases hp : s.pcb p = 0
  · rw [processActivate, if_pos hp] at hret
    cases hret
  · rw [processActivate_eq h hp] at hret
    cases hret
    exact ⟨⟨h.frames, h.spaceOf_mem p, fun u hu => ⟨(h.owns u hu).dir, (h.owns u hu).made,
      (h.owns u hu).pgdir, (h.owns u hu).pcb⟩, h.apart⟩,
      ⟨fun _ hd => hd, fun _ _ _ _ _ hmaps => hmaps, fun _ _ => ⟨rfl, rfl, rfl⟩⟩, rfl⟩

/-- **A process writes** to one of its addresses. -/
theorem store_kept {vaddr : UInt32} {x : UInt8} (h : ProcessInv s) (hv : UserAddress s.cr3 vaddr)
    (hret : (ProcessOp.store vaddr x).exec userVaddrStart t s = .ok s') :
    ProcessInv s' ∧ Later s s' ∧ ∃ a, translate s.cr3 s.mem.ram vaddr = .ok a ∧
      s'.mem.ram = Function.update s.mem.ram a x := by
  obtain ⟨ram, hstore, hret⟩ := bind_eq_ok.mp (mapError_eq_ok.mp hret)
  obtain ⟨a, htrans, hstore⟩ := bind_eq_ok.mp hstore
  cases hstore
  cases hret
  obtain ⟨hhigh, -⟩ := h.frames.userFrame h.active hv htrans
  have hbelow : ∀ y, y < kernelEnd s.mem.toPools → Function.update s.mem.ram a x y = s.mem.ram y :=
    fun y hy => Function.update_of_ne (by omega) x s.mem.ram
  obtain ⟨hframes, hmaps⟩ := h.frames.fill hbelow
  obtain ⟨hinv, hlater⟩ := h.memory hframes (fun d hd _ _ _ => (hmaps d hd _ _ _).mpr) (fun _ hd => hd)
    rfl
  exact ⟨hinv, hlater, a, htrans, rfl⟩

/-- The process with the directory `d` does not write to `v`. -/
def HandsOff (d : Nat) (v : UInt32) (s : ProcessSpaces) (e : ProcessStep) : Prop :=
  ∀ x, e.op = .store v x → s.cr3 ≠ d

/-- **One step** keeps the invariant, what is mapped, and the memory of those who do not write. -/
theorem processStep_kept (hstart : userVaddrStart.toNat ≤ 0xc0000000)
    (halign : userVaddrStart.toNat % 0x1000 = 0) {e : ProcessStep} (h : ProcessInv s)
    (horder : Orderly s e) (hret : e.op.exec userVaddrStart e.thread s = .ok s') :
    ProcessInv s' ∧ Later s s' ∧ ∀ d ∈ s.dirs, ∀ v a, UserAddress d v →
      translate d s.mem.ram v = .ok a → HandsOff d v s e → s'.mem.ram a = s.mem.ram a := by
  obtain ⟨t, op⟩ := e
  cases op with
  | call op =>
    obtain ⟨hinv, hlater, hkept⟩ := call_kept hstart halign h horder hret
    refine ⟨hinv, hlater, fun d hd v a hv htrans _ => ?_⟩
    obtain ⟨hhigh, hused⟩ := h.frames.userFrame hd hv htrans
    exact hkept.data a hhigh hused
  | execute u =>
    obtain ⟨hinv, hlater, hkept⟩ := execute_kept hstart halign h horder (mapError_eq_ok.mp hret)
    refine ⟨hinv, hlater, fun d hd v a hv htrans _ => ?_⟩
    obtain ⟨hhigh, hused⟩ := h.frames.userFrame hd hv htrans
    exact hkept.data a hhigh hused
  | activate p =>
    obtain ⟨hinv, hlater, hmem⟩ := activate_kept h hret
    exact ⟨hinv, hlater, fun d hd v a hv htrans _ => by rw [hmem]⟩
  | store vaddr x =>
    obtain ⟨hinv, hlater, b, htrans', hram⟩ := store_kept h horder hret
    refine ⟨hinv, hlater, fun d hd v a hv htrans hoff => ?_⟩
    rw [hram]
    refine Function.update_of_ne (fun heq => ?_) x s.mem.ram
    -- the byte would be behind two user addresses
    rw [heq] at htrans
    obtain ⟨hdir, haddr⟩ := h.frames.isolated.apart d hd s.cr3 h.active v vaddr b hv horder htrans
      htrans'
    exact hoff x (haddr ▸ rfl) hdir.symm

theorem processSpaces_inv (hmem : 0x200000 ≤ allMem.toNat)
    (hstart : userVaddrStart.toNat ≤ 0xc0000000) (halign : userVaddrStart.toNat % 0x1000 = 0)
    (hs : (processSpaces allMem userVaddrStart).Reach Orderly s) : ProcessInv s := by
  induction hs with
  | init h =>
    refine ⟨h.pages.frames hmem, ?_, fun u hu => absurd (h.none u) hu,
      fun u _ hu => absurd (h.none u) hu⟩
    have hdirs := h.pages.dirs
    dsimp only at hdirs
    rw [h.cr3, hdirs]
    exact List.mem_cons_self
  | step _ horder hstep ih =>
    exact (processStep_kept hstart halign ih horder (Option.some.inj hstep)).1

end Steps

/-! ## A process on a machine with 4 MB -/

/-- The kernel after `mem_init`, without a process. -/
def bootedSpaces : ProcessSpaces where
  mem := { processStart.mem with pgdir := fun _ => 0 }
  dirs := processStart.dirs
  cr3 := pageDirTablePos
  tss := { esp0 := 0, ss0 := 0x10 }
  pcb := fun _ => 0
  dirOf := fun _ => 0

theorem bootedSpaces_start : ProcessesStart 0x400000 bootedSpaces := by
  obtain ⟨hpools, hram, hdirs, husers⟩ := processStart_start
  have hsame : bootedSpaces.mem.ram = processStart.mem.ram := by simp only [bootedSpaces]
  refine ⟨⟨hpools, ?_, hdirs, husers⟩, rfl, fun _ => rfl⟩
  rw [hsame]
  exact hram

theorem bootedSpaces_room :
    SpaceRoom 0 [pageDirTablePos] 0 256 (bootedSpaces.mem.activate 0 bootedSpaces.cr3) := by
  have hstart := bootedSpaces_start.pages
  have hcr3 : bootedSpaces.mem.cr3 0 = bootedSpaces.cr3 := rfl
  rw [activate_self hcr3]
  exact ⟨(hstart.tables (by decide)).spaces, rfl, List.mem_cons_self,
    ⟨_, ((hstart.heapStart (by decide)).inv (by decide)).inv⟩, rfl, fun i _ hi => bitmapInit_get _ hi,
    processStart_frames⟩

/-- The bitmap for the addresses of a process. -/
def userVaddr (bits : UInt32) : VirtualAddr where
  vaddrBitmap := bitmapInit ⟨0x16ff7, bits, fun _ => 0⟩
  vaddrStart := 0x8048000

/-- `process_execute` on this machine. -/
theorem bootedSpaces_execute : ∃ s bits, processExecute 0x8048000 0 1 bootedSpaces = .ok s ∧
    s.pcb 1 ≠ 0 ∧ s.mem.pgdir 1 ≠ 0 ∧ s.mem.userprogVaddr 1 = userVaddr bits ∧
    dirEntry (s.dirOf 1) s.mem.ram 32 = 0 ∧ s.mem.userPool = bootedSpaces.mem.userPool ∧
    0 < s.mem.kernelPool.freeFrames := by
  have hroom := bootedSpaces_room
  have huser : (bootedSpaces.mem.activate 0 bootedSpaces.cr3).userPool = bootedSpaces.mem.userPool := rfl
  obtain ⟨thread, m₁, hthread, hne, hstep₁, hroom₁⟩ := hroom.getKernelPages (c := 1) (by decide)
    (by decide) (by decide)
  obtain ⟨bits, m₂, hbits, hbitsNe, hstep₂, hroom₂⟩ := hroom₁.getKernelPages (c := 23) (by decide)
    (by decide) (by decide)
  have hbitmap : createUserVaddrBitmap 0x8048000 0 1 m₁ = .ok
      { m₂ with userprogVaddr := Function.update m₂.userprogVaddr 1 (userVaddr bits) } := by
    have hcount : ((0xc0000000 - 0x8048000) / pgSize / 8 + pgSize - 1) / pgSize = (23 : UInt32) := by
      decide
    have htrue : (bits != 0) = true := bne_iff_ne.mpr hbitsNe
    simp only [createUserVaddrBitmap, hcount, hbits, ok_bind, htrue, assert_true, pure_eq_ok]
    rfl
  have hroom₃ := hroom₂.users (Function.update m₂.userprogVaddr 1 (userVaddr bits))
  obtain ⟨page, q, m₃, hcreate, hdirNe, hv2p, hstep₃, -, hnew, hroom₄⟩ :=
    hroom₃.createPageDir (by decide) (by decide)
  have hthreadNe : (thread != 0) = true := bne_iff_ne.mpr hne
  refine ⟨{ bootedSpaces with
    mem := { m₃ with pgdir := Function.update m₃.pgdir 1 (heapAddr page) }
    pcb := Function.update bootedSpaces.pcb 1 thread
    dirs := q.toNat :: bootedSpaces.dirs
    dirOf := Function.update bootedSpaces.dirOf 1 q.toNat }, bits, ?_, ?_, ?_, ?_, ?_, ?_, ?_⟩
  · simp only [processExecute, hthread, ok_bind, hthreadNe, assert_true, hbitmap, hcreate, if_neg hdirNe]
    rw [hv2p]
    rfl
  · dsimp only
    rw [Function.update_self]
    exact hne
  · dsimp only
    rw [Function.update_self]
    exact hdirNe
  · dsimp only
    rw [hstep₃.userprogVaddr]
    exact Function.update_self (1 : Tid) (userVaddr bits) m₂.userprogVaddr
  · dsimp only
    rw [Function.update_self]
    exact hnew.user 32 (by decide)
  · dsimp only
    rw [hstep₃.userPool]
    exact (hstep₂.userPool.trans hstep₁.userPool).trans huser
  · have hfree := hroom₄.room.frames
    replace hfree : m₃.kernelPool.freeFrames = 231 := hfree
    dsimp only
    omega

/-- The process of `bootedSpaces_execute`, with the second page of its addresses free. -/
theorem bootedSpaces_process : ∃ s, (processSpaces 0x400000 0x8048000).Reach Orderly s ∧
    s.pcb 1 ≠ 0 ∧ s.mem.pgdir 1 ≠ 0 ∧
    pageIndex (s.mem.activate 1 (s.dirOf 1)) 1 .user 0x8049000 = 1 ∧
    FreePage 1 .user 0x8049000 (s.mem.activate 1 (s.dirOf 1)) := by
  obtain ⟨s, bits, hexec, hpcb, hpgdir, hvaddr, hdir, huser, hkernel⟩ := bootedSpaces_execute
  refine ⟨s, .step (e := ⟨0, .execute 1⟩) (.init bootedSpaces_start) rfl ?_, hpcb, hpgdir,
    secondPage_free hpgdir ?_ (noMapping_of_zero hdir) ?_ hkernel⟩
  · show some (Except.mapError ProcessFault.panic (processExecute 0x8048000 0 1 bootedSpaces)) = _
    rw [hexec]
    rfl
  · rw [hvaddr]
    exact ⟨rfl, rfl, bitmapInit_get _ (show 1 < 0xb7fb8 by decide)⟩
  · rw [huser]
    exact (processStart_freePage (i := 1) (by decide)
      (show (0x8049000 : UInt32).toNat = _ from rfl)).2.frame

/-- The process runs and gets the page. -/
theorem bootedSpaces_page : ∃ s f, (processSpaces 0x400000 0x8048000).Reach Orderly s ∧
    s.cr3 ∈ s.dirs ∧ s.cr3 ≠ pageDirTablePos ∧
    MapsFrame s.mem s.cr3 (dirIndex 0x8049000) (tableIndex 0x8049000) f := by
  obtain ⟨s, hs, hpcb, hpgdir, hindex, hpage⟩ := bootedSpaces_process
  have h := processSpaces_inv (by decide) (by decide) (by decide) hs
  have howns := h.owns 1 hpgdir
  have hactive := processActivate_eq (t := 0) h hpcb
  have hspace : s.spaceOf 1 = s.dirOf 1 := by rw [ProcessSpaces.spaceOf, if_pos hpgdir]
  rw [hspace] at hactive
  have hs₂ : (processSpaces 0x400000 0x8048000).Reach Orderly _ :=
    .step (e := ⟨0, .activate 1⟩) hs trivial (congrArg some hactive)
  obtain ⟨m', hret, hgiven⟩ := hpage.given (h.frames.tables.activate 1 (s.dirOf 1))
    (by rw [activate_cr3]; exact howns.dir) (by rw [hindex]; decide)
  obtain ⟨f, -, hmaps⟩ := hgiven.frame
  rw [activate_cr3] at hmaps
  have htable := hpage.table
  have hcall : (ProcessOp.call (.aPage .user 0x8049000)).exec 0x8048000 1
      { s with
        cr3 := s.dirOf 1
        tss := if s.mem.pgdir 1 ≠ 0 then { s.tss with esp0 := s.pcb 1 + 4096 } else s.tss } = .ok
      { s with
        mem := m'
        cr3 := s.dirOf 1
        tss := if s.mem.pgdir 1 ≠ 0 then { s.tss with esp0 := s.pcb 1 + 4096 } else s.tss } := by
    rw [ProcessOp.exec, PageOp.exec, hret]
    rfl
  refine ⟨_, f, .step (e := ⟨1, .call (.aPage .user 0x8049000)⟩) hs₂ ?_ (congrArg some hcall),
    howns.dir, howns.made, hmaps⟩
  intro hpos
  have hone : min 1 s.mem.userPool.freeFrames = 1 := by
    dsimp only at hpos
    omega
  dsimp only
  rw [hone]
  exact Nat.le_trans (missingTables_one (s.dirOf 1) s.mem.ram 32) htable

/-! ## What a process can rely on -/

section Processes

variable {allMem userVaddrStart : UInt32} {p : Tid} {s s' : ProcessSpaces} {m : Memory}
  {dirs : List Nat}

/-- The space that `process_activate` has loaded for `p`. -/
structure OwnSpace (s s' : ProcessSpaces) (p : Tid) : Prop where
  mem : s'.mem = s.mem
  loaded : s'.cr3 = s.spaceOf p
  dir : s'.cr3 ∈ s.dirs
  /-- No process has the directory of another thread. -/
  alone : ∀ p', p' ≠ p → s.mem.pgdir p' ≠ 0 → s.spaceOf p' ≠ s'.cr3
  /-- The kernel is where it was. -/
  kernel : ∀ v : UInt32, 0xc0000000 ≤ v.toNat → v.toNat < 0xffc00000 →
    translate s'.cr3 s.mem.ram v = translate s.cr3 s.mem.ram v
  /-- An interrupt of the process will find its stack, which is the process's own. -/
  stack : s.mem.pgdir p ≠ 0 → s'.tss.esp0 = s.pcb p + 4096 ∧
    (∃ f, translate s'.cr3 s.mem.ram (s.pcb p) = .ok f) ∧
    ∀ p', p' ≠ p → s.mem.pgdir p' ≠ 0 → s.pcb p' ≠ s.pcb p
  /-- A thread without a directory leaves the stack of the last process. -/
  thread : s.mem.pgdir p = 0 → s'.tss.esp0 = s.tss.esp0

/-- The kernel half is the same in all directories. -/
theorem Spaces.translate_kernel {d d' : Nat} (h : Spaces m dirs) (hd : d ∈ dirs) (hd' : d' ∈ dirs)
    {v : UInt32} (hlo : 0xc0000000 ≤ v.toNat) (hhi : v.toNat < 0xffc00000) :
    translate d' m.ram v = translate d m.ram v := by
  have hindex : 768 ≤ dirIndex v ∧ dirIndex v < 1023 := by
    unfold dirIndex
    omega
  have hsame : dirEntry d' m.ram (dirIndex v) = dirEntry d m.ram (dirIndex v) := by
    rw [h.kernel d' hd' _ hindex.1 hindex.2, h.kernel d hd _ hindex.1 hindex.2]
  rw [translate, translate, tableEntry, tableEntry, hsame]

/-- **`process_activate`** returns for every thread, in every run, and loads the thread's own space:
a process gets the directory that `create_page_dir` has made for it and its own stack for interrupts,
and a kernel thread the boot loader's directory. -/
theorem process_activate_own_space (hmem : 0x200000 ≤ allMem.toNat)
    (hstart : userVaddrStart.toNat ≤ 0xc0000000) (halign : userVaddrStart.toNat % 0x1000 = 0)
    (hs : (processSpaces allMem userVaddrStart).Reach Orderly s) (t : Tid) (hp : s.pcb p ≠ 0) :
    ∃ s', processActivate t p s = .ok s' ∧ OwnSpace s s' p := by
  have h := processSpaces_inv hmem hstart halign hs
  have hdir := h.spaceOf_mem p
  refine ⟨_, processActivate_eq h hp, rfl, rfl, hdir, ?_, ?_, ?_, ?_⟩
  · intro p' hne hp' heq
    dsimp only at heq
    rw [ProcessSpaces.spaceOf, if_pos hp', ProcessSpaces.spaceOf] at heq
    split at heq
    · next hp => exact (h.apart p' p hp' hp hne).1 heq
    · exact (h.owns p' hp').made heq
  · intro v hlo hhi
    exact h.frames.tables.spaces.translate_kernel h.active hdir hlo hhi
  · intro hprocess
    dsimp only
    obtain ⟨f, hat⟩ := (h.owns p hprocess).pcb
    rw [if_pos hprocess]
    exact ⟨rfl, ⟨f, hat.translate h.frames.tables hdir⟩,
      fun p' hne hp' => (h.apart p' p hp' hprocess hne).2⟩
  · intro hthread
    dsimp only
    rw [if_neg (not_not_intro hthread)]

theorem process_activate_own_space_first : ∃ s s', s.mem.pgdir 1 ≠ 0 ∧
    processActivate 0 1 s = .ok s' ∧ OwnSpace s s' 1 := by
  obtain ⟨s, hs, hpcb, hpgdir, -⟩ := bootedSpaces_process
  obtain ⟨s', hret, hspace⟩ :=
    process_activate_own_space (by decide) (by decide) (by decide) hs 0 hpcb
  exact ⟨s, s', hpgdir, hret, hspace⟩

/-- What is mapped stays behind the same address. -/
theorem Later.translate {d a : Nat} {v : UInt32} (h : Later s s') (hd : d ∈ s.dirs)
    (hv : v.toNat < 0xffc00000) (htrans : translate d s.mem.ram v = .ok a) :
    translate d s'.mem.ram v = .ok a := by
  obtain ⟨f, hmaps, rfl, -⟩ := translate_maps hv htrans
  obtain ⟨-, -, hdir, htable, hframe⟩ := h.maps d hd _ _ f hmaps
  rw [translate_eq hdir htable, hframe]

/-- **The memory of a process is its own**: whatever the other processes do, whatever is allocated and
whichever space is active, a byte of a process stays until the process writes to it. -/
theorem user_data_kept (hmem : 0x200000 ≤ allMem.toNat)
    (hstart : userVaddrStart.toNat ≤ 0xc0000000) (halign : userVaddrStart.toNat % 0x1000 = 0)
    (hs : (processSpaces allMem userVaddrStart).Reach Orderly s) {d : Nat} (hd : d ∈ s.dirs)
    {v : UInt32} (hv : UserAddress d v) {x : UInt8} (hx : load8 d s.mem.ram v = .ok x)
    (hs' : ((processSpaces allMem userVaddrStart).startAt s).Reach
      (fun s e => Orderly s e ∧ HandsOff d v s e) s') :
    load8 d s'.mem.ram v = .ok x := by
  obtain ⟨a, htrans, hbyte⟩ := bind_eq_ok.mp hx
  have hlt := hv.1
  obtain ⟨-, hlater, hkept⟩ : ProcessInv s' ∧ Later s s' ∧ s'.mem.ram a = s.mem.ram a := by
    induction hs' with
    | init heq =>
      cases heq
      exact ⟨processSpaces_inv hmem hstart halign hs, .refl s, rfl⟩
    | step _ hguard hstep ih =>
      obtain ⟨hinv, hlater, hkept⟩ := ih
      obtain ⟨hinv', hlater', hdata⟩ :=
        processStep_kept hstart halign hinv hguard.1 (Option.some.inj hstep)
      have hnow := hlater.translate hd (by omega) htrans
      exact ⟨hinv', hlater.trans hlater',
        (hdata d (hlater.dirs hd) v a hv hnow hguard.2).trans hkept⟩
  rw [load8, hlater.translate hd (by omega) htrans, ok_bind, hkept]
  exact hbyte

/-- The page keeps its first byte when the process writes the second one. -/
theorem user_data_kept_first : ∃ s s' d x, d ≠ pageDirTablePos ∧
    load8 d s.mem.ram 0x8049000 = .ok x ∧
    (ProcessOp.store 0x8049001 1).exec 0x8048000 1 s = .ok s' ∧
    load8 d s'.mem.ram 0x8049000 = .ok x := by
  obtain ⟨s, f, hs, hd, hmade, hmaps⟩ := bootedSpaces_page
  obtain ⟨-, -, hdir, htable, -⟩ := hmaps
  have hx := translate_eq hdir htable
  have hy : translate s.cr3 s.mem.ram 0x8049001 = _ :=
    @translate_eq s.cr3 s.mem.ram 0x8049001 hdir htable
  have hv : ∀ v : UInt32, v.toNat < 0xc0000000 → UserAddress s.cr3 v := fun v hlt =>
    ⟨hlt, fun heq => absurd heq hmade⟩
  refine ⟨s, _, s.cr3, _, hmade, by rw [load8, hx]; rfl, by rw [ProcessOp.exec, store8, hy]; rfl, ?_⟩
  refine user_data_kept (by decide) (by decide) (by decide) hs hd (hv _ (by decide))
    (by rw [load8, hx]; rfl) (.step (e := ⟨1, .store 0x8049001 1⟩) (.init rfl)
      ⟨hv _ (by decide), fun _ heq => by cases heq⟩ ?_)
  show some ((ProcessOp.store 0x8049001 1).exec 0x8048000 1 s) = _
  rw [ProcessOp.exec, store8, hy]
  rfl

end Processes

end OsKernel
