import OsKernel.Kernel.IntrusiveList

/-!
# lib/kernel/list.c: all lists of a heap

The functions of `Kernel.IntrusiveList` and the two searches that are left, on a heap that holds any
number of node-disjoint lists. The searches walk until they come to the address of the tail; here the
number of turns is a parameter, and every number above the length of the list will do.

- `listLen`, `listTraversal`, `elemFindWithin`: the searches.
- `ListCall`, `callList`: the operations that write; `ListEffect`: what they do to the sequences.
- `ListEffect.refined`: one operation. `runLists_refined`: any number of them.
- `listInit_represents`: `list_init` adds a list.
- `lists_behave`: operations and searches together.
-/

namespace OsKernel

open Lib

variable {α : Type*} [DecidableEq α] [StartLinks α]

/-! ## The searches -/

/-- `elem_find` with a given number of turns. -/
def elemFindWithin (fuel : Nat) (plist : ListEnds α) (elem : α) (h : LinkHeap α) :
    Except Panic Bool :=
  elemFindLoop plist.tail elem h fuel (h.get plist.head).next

theorem elemFind_within (plist : ListEnds α) (elem : α) (h : LinkHeap α) :
    elemFind plist elem h = elemFindWithin (h.cells.length + 3) plist elem h := rfl

/-- The loop of `list_traversal`. -/
def listTraversalLoop (tail : α) (func : α → Int32 → Int32) (arg : Int32) (h : LinkHeap α) :
    Nat → Option α → Except Panic (Option α)
  | 0, _ => .error .wildPointer
  | _ + 1, none => .error .wildPointer
  | fuel + 1, some temp =>
    if temp = tail then .ok none
    else if func temp arg = 1 then .ok (some temp)
    else listTraversalLoop tail func arg h fuel (h.get temp).next

/-- `list_traversal`; `bool`, which `func` returns, is `int`. -/
def listTraversal (fuel : Nat) (plist : ListEnds α) (func : α → Int32 → Int32) (arg : Int32)
    (h : LinkHeap α) : Except Panic (Option α) :=
  if listEmpty plist h then .ok none
  else listTraversalLoop plist.tail func arg h fuel (h.get plist.head).next

/-- The loop of `list_len`. -/
def listLenLoop (tail : α) (h : LinkHeap α) : Nat → UInt32 → Option α → Except Panic UInt32
  | 0, _, _ => .error .wildPointer
  | _ + 1, _, none => .error .wildPointer
  | fuel + 1, len, some temp =>
    if temp = tail then .ok len else listLenLoop tail h fuel (len + 1) (h.get temp).next

/-- `list_len` -/
def listLen (fuel : Nat) (plist : ListEnds α) (h : LinkHeap α) : Except Panic UInt32 :=
  listLenLoop plist.tail h fuel 0 (h.get plist.head).next

/-! ## The operations -/

/-- A call of one of the functions that write links. -/
inductive ListCall (ι α : Type*) where
  | push (i : ι) (elem : α)
  | append (i : ι) (elem : α)
  | insertBefore (before elem : α)
  | remove (elem : α)
  | pop (i : ι)

variable {ι : Type*} [DecidableEq ι]

omit [DecidableEq ι] in
/-- The call, with the value of `list_pop`. -/
def callList (ends : ι → ListEnds α) (h : LinkHeap α) :
    ListCall ι α → Except Panic (Option α × LinkHeap α)
  | .push i elem => do
    let h ← listPush (ends i) elem h
    return (none, h)
  | .append i elem => do
    let h ← listAppend (ends i) elem h
    return (none, h)
  | .insertBefore before elem => do
    let h ← listInsertBefore (some before) elem h
    return (none, h)
  | .remove elem => do
    let h ← listRemove (some elem) h
    return (none, h)
  | .pop i => listPop (ends i) h

omit [DecidableEq α] [StartLinks α] [DecidableEq ι] in
/-- The node is in none of the lists. -/
def InNoList (ends : ι → ListEnds α) (Q : ι → List α) (e : α) : Prop :=
  ∀ j, e ∉ (ends j).nodes (Q j)

omit [DecidableEq α] [StartLinks α] in
/-- What a call does to the sequences of the lists, and what it returns. -/
inductive ListEffect (ends : ι → ListEnds α) (Q : ι → List α) :
    ListCall ι α → Option α → ι → List α → Prop where
  | push {i : ι} {e : α} (hnew : InNoList ends Q e) : ListEffect ends Q (.push i e) none i (e :: Q i)
  | append {i : ι} {e : α} (hnew : InNoList ends Q e) :
      ListEffect ends Q (.append i e) none i (Q i ++ [e])
  | insertBefore {i : ι} {e c : α} {l₁ l₂ : List α} (hnew : InNoList ends Q e)
      (hsplit : Q i = l₁ ++ c :: l₂) :
      ListEffect ends Q (.insertBefore c e) none i (l₁ ++ e :: c :: l₂)
  | insertBeforeTail {i : ι} {e : α} (hnew : InNoList ends Q e) :
      ListEffect ends Q (.insertBefore (ends i).tail e) none i (Q i ++ [e])
  | remove {i : ι} {e : α} {l₁ l₂ : List α} (hsplit : Q i = l₁ ++ e :: l₂) :
      ListEffect ends Q (.remove e) none i (l₁ ++ l₂)
  | pop {i : ι} {e : α} {xs : List α} (hsplit : Q i = e :: xs) :
      ListEffect ends Q (.pop i) (some e) i xs

section Specs

variable {ends : ι → ListEnds α} {h h' : LinkHeap α} {Q : ι → List α} {i : ι} {xs : List α}

/-- The heap after a change of list `i`: it is represented, and no node of another list has been
written. -/
structure Changed (ends : ι → ListEnds α) (h h' : LinkHeap α) (Q : ι → List α) (i : ι)
    (xs : List α) : Prop where
  represents : Represents ends h' (Function.update Q i xs)
  others : ∀ j, j ≠ i → ∀ x ∈ (ends j).nodes (Q j), h'.get x = h.get x

omit [DecidableEq α] [StartLinks α] [DecidableEq ι] in
/-- The node in front of a place behind the head. -/
theorem nodes_split (p : ListEnds α) (l₁ l₂ : List α) :
    ∃ l q, p.head :: (l₁ ++ l₂) = l ++ q :: l₂ ∧ ∀ l₃, p.head :: (l₁ ++ l₃) = l ++ q :: l₃ := by
  rcases List.eq_nil_or_concat l₁ with rfl | ⟨ys, y, rfl⟩
  · exact ⟨[], p.head, rfl, fun _ => rfl⟩
  · exact ⟨p.head :: ys, y, by simp, fun l₃ => by simp⟩

/-- **`list_insert_before`**: the node goes directly before the target. -/
theorem listInsertBefore_changed (hr : Represents ends h Q) {e c : α} {l₁ l₂ : List α}
    (hnew : InNoList ends Q e) (hold : Q i ++ [(ends i).tail] = l₁ ++ c :: l₂)
    (hxs : xs ++ [(ends i).tail] = l₁ ++ e :: c :: l₂) :
    ∃ h', listInsertBefore (some c) e h = .ok h' ∧ Changed ends h h' Q i xs := by
  obtain ⟨l, p, hsplit, hsplit'⟩ := nodes_split (ends i) l₁ (c :: l₂)
  have hnodes : (ends i).nodes (Q i) = l ++ p :: c :: l₂ := by
    rw [ListEnds.nodes, hold, hsplit]
  have hnodes' : (ends i).nodes xs = l ++ p :: e :: c :: l₂ := by
    rw [ListEnds.nodes, hxs, hsplit']
  have hlink := represents_linked hr hnodes
  refine ⟨_, listInsertBefore_eq hlink.2, ?_, ?_⟩
  · exact hr.spliceIn hnodes hnodes' hnew fun heq => hnew i (by simp [ListEnds.nodes, heq])
  · intro j hj x hx
    have hin : ∀ y, y ∈ (ends i).nodes (Q i) → x ≠ y := by
      rintro y hy rfl
      exact hr.disjoint i j hj.symm x hy hx
    apply spliceIn_get_of_ne
    · exact hin p (by rw [hnodes]; simp)
    · rintro rfl
      exact hnew j hx
    · exact hin c (by rw [hnodes]; simp)

/-- **`list_remove`** of a member deletes it. -/
theorem listRemove_changed (hr : Represents ends h Q) {e : α} {l₁ l₂ : List α}
    (hold : Q i = l₁ ++ e :: l₂) :
    ∃ h', listRemove (some e) h = .ok h' ∧ Changed ends h h' Q i (l₁ ++ l₂) := by
  obtain ⟨n, l₃, hnext⟩ : ∃ n l₃, l₂ ++ [(ends i).tail] = n :: l₃ :=
    List.exists_cons_of_ne_nil (by simp)
  obtain ⟨l, p, hsplit, hsplit'⟩ := nodes_split (ends i) l₁ (e :: n :: l₃)
  have hnodes : (ends i).nodes (Q i) = l ++ p :: e :: n :: l₃ := by
    rw [ListEnds.nodes, hold, List.append_assoc, List.cons_append, hnext, hsplit]
  have hnodes' : (ends i).nodes (l₁ ++ l₂) = l ++ p :: n :: l₃ := by
    rw [ListEnds.nodes, List.append_assoc, hnext, hsplit']
  have hshift : (ends i).nodes (Q i) = (l ++ [p]) ++ e :: n :: l₃ := by
    rw [hnodes]
    simp
  have hbefore := represents_linked hr hnodes
  have hafter := represents_linked hr hshift
  have hne : p ≠ e := by
    have hnd : ((ends i).nodes (Q i)).Nodup := (hr.dlist i).nodup
    rw [hnodes] at hnd
    have hnd' := (List.nodup_append.mp hnd).2.1
    simp only [List.nodup_cons, List.mem_cons, not_or] at hnd'
    exact hnd'.1.1
  refine ⟨_, listRemove_eq hbefore.2 hafter.1 hne, hr.spliceOut hnodes hnodes', ?_⟩
  intro j hj x hx
  have hin : ∀ y, y ∈ (ends i).nodes (Q i) → x ≠ y := by
    rintro y hy rfl
    exact hr.disjoint i j hj.symm x hy hx
  apply spliceOut_get_of_ne
  · exact hin p (by rw [hnodes]; simp)
  · exact hin n (by rw [hnodes]; simp)

omit [DecidableEq ι] in
/-- The first node behind the head. -/
theorem represents_first (hr : Represents ends h Q) {c : α} {l₂ : List α}
    (hold : Q i ++ [(ends i).tail] = c :: l₂) : (h.get (ends i).head).next = some c := by
  have hnodes : (ends i).nodes (Q i) = [] ++ (ends i).head :: c :: l₂ := by
    rw [ListEnds.nodes, hold, List.nil_append]
  exact (represents_linked hr hnodes).1

/-- **Each operation** acts on its list's sequence as its name says and leaves the other lists
alone. -/
theorem ListEffect.refined {call : ListCall ι α} {r : Option α} (hr : Represents ends h Q)
    (heff : ListEffect ends Q call r i xs) :
    ∃ h', callList ends h call = .ok (r, h') ∧ Changed ends h h' Q i xs := by
  cases heff with
  | @push i e hnew =>
    obtain ⟨c, l₂, hold⟩ : ∃ c l₂, Q i ++ [(ends i).tail] = c :: l₂ :=
      List.exists_cons_of_ne_nil (by simp)
    have hold' : Q i ++ [(ends i).tail] = [] ++ c :: l₂ := hold
    have hxs : e :: Q i ++ [(ends i).tail] = [] ++ e :: c :: l₂ := by
      rw [List.cons_append, hold, List.nil_append]
    obtain ⟨h', hcall, hc⟩ := listInsertBefore_changed hr hnew hold' hxs
    exact ⟨h', by rw [callList, listPush, represents_first hr hold, hcall]; rfl, hc⟩
  | @append i e hnew =>
    have hxs : Q i ++ [e] ++ [(ends i).tail] = Q i ++ e :: (ends i).tail :: [] := by simp
    obtain ⟨h', hcall, hc⟩ := listInsertBefore_changed hr hnew rfl hxs
    exact ⟨h', by rw [callList, listAppend, hcall]; rfl, hc⟩
  | @insertBefore i e c l₁ l₂ hnew hsplit =>
    have hold : Q i ++ [(ends i).tail] = l₁ ++ c :: (l₂ ++ [(ends i).tail]) := by
      rw [hsplit, List.append_assoc, List.cons_append]
    have hxs : l₁ ++ e :: c :: l₂ ++ [(ends i).tail] = l₁ ++ e :: c :: (l₂ ++ [(ends i).tail]) := by
      simp
    obtain ⟨h', hcall, hc⟩ := listInsertBefore_changed hr hnew hold hxs
    exact ⟨h', by rw [callList, hcall]; rfl, hc⟩
  | @insertBeforeTail i e hnew =>
    have hxs : Q i ++ [e] ++ [(ends i).tail] = Q i ++ e :: (ends i).tail :: [] := by simp
    obtain ⟨h', hcall, hc⟩ := listInsertBefore_changed hr hnew rfl hxs
    exact ⟨h', by rw [callList, hcall]; rfl, hc⟩
  | remove hsplit =>
    obtain ⟨h', hcall, hc⟩ := listRemove_changed hr hsplit
    exact ⟨h', by rw [callList, hcall]; rfl, hc⟩
  | @pop i e xs hsplit =>
    have hsplit' : Q i = [] ++ e :: xs := hsplit
    obtain ⟨h', hcall, hc⟩ := listRemove_changed hr hsplit'
    have hfirst := represents_first hr (by rw [hsplit, List.cons_append])
    exact ⟨h', by rw [callList, listPop, hfirst, hcall]; rfl, hc⟩

/-! ## Runs -/

/-- Calls one after another, with the values they return. -/
def runLists (ends : ι → ListEnds α) :
    List (ListCall ι α) → LinkHeap α → Except Panic (List (Option α) × LinkHeap α)
  | [], h => .ok ([], h)
  | call :: calls, h => do
    let (r, h) ← callList ends h call
    let (rs, h) ← runLists ends calls h
    return (r :: rs, h)

/-- The same calls on the sequences. -/
inductive ListEffects (ends : ι → ListEnds α) :
    (ι → List α) → List (ListCall ι α) → List (Option α) → (ι → List α) → Prop where
  | nil (Q : ι → List α) : ListEffects ends Q [] [] Q
  | cons {Q Q' : ι → List α} {call : ListCall ι α} {calls : List (ListCall ι α)} {r : Option α}
      {rs : List (Option α)} {i : ι} {xs : List α} (heff : ListEffect ends Q call r i xs)
      (hrest : ListEffects ends (Function.update Q i xs) calls rs Q') :
      ListEffects ends Q (call :: calls) (r :: rs) Q'

/-- **Any number of operations** keep the lists well formed. -/
theorem runLists_refined {calls : List (ListCall ι α)} {rs : List (Option α)} {Q' : ι → List α}
    (hr : Represents ends h Q) (heffs : ListEffects ends Q calls rs Q') :
    ∃ h', runLists ends calls h = .ok (rs, h') ∧ Represents ends h' Q' := by
  induction heffs generalizing h with
  | nil Q => exact ⟨h, rfl, hr⟩
  | cons heff _ ih =>
    obtain ⟨h₁, hcall, hc⟩ := heff.refined hr
    obtain ⟨h', hrun, hr'⟩ := ih hc.represents
    refine ⟨h', ?_, hr'⟩
    simp [runLists, hcall, hrun, bind, Except.bind, pure, Except.pure]

/-! ## The searches end -/

/-- What the loops walk along: the members of the list and then its tail, by forward pointers. -/
inductive Walk (tail : α) (h : LinkHeap α) : Option α → List α → Prop where
  | nil : Walk tail h (some tail) []
  | cons {x : α} {xs : List α} (hne : x ≠ tail) (hrest : Walk tail h (h.get x).next xs) :
      Walk tail h (some x) (x :: xs)

omit [DecidableEq ι] in
theorem represents_walk (hr : Represents ends h Q) (i : ι) :
    Walk (ends i).tail h (h.get (ends i).head).next (Q i) := by
  have hchain : ∀ (xs : List α) (a : α), (a :: (xs ++ [(ends i).tail])).IsChain (Linked h) →
      (ends i).tail ∉ xs → Walk (ends i).tail h (h.get a).next xs := by
    intro xs
    induction xs with
    | nil =>
      intro a hc _
      simp only [List.nil_append, List.isChain_cons_cons] at hc
      rw [hc.1.1]
      exact .nil
    | cons x xs ih =>
      intro a hc ht
      simp only [List.cons_append, List.isChain_cons_cons] at hc
      simp only [List.mem_cons, not_or] at ht
      rw [hc.1.1]
      exact .cons (Ne.symm ht.1) (ih x hc.2 ht.2)
  exact hchain (Q i) (ends i).head (hr.dlist i).chain (hr.dlist i).tail_not_mem

omit [DecidableEq ι] in
theorem Walk.elemFind {t e : α} {start : Option α} (hw : Walk t h start xs) {fuel : Nat}
    (hfuel : xs.length < fuel) : elemFindLoop t e h fuel start = .ok (decide (e ∈ xs)) := by
  induction hw generalizing fuel with
  | nil =>
    obtain ⟨n, rfl⟩ := Nat.exists_eq_succ_of_ne_zero (Nat.ne_of_gt hfuel)
    simp [elemFindLoop]
  | @cons x xs hne _ ih =>
    rw [List.length_cons] at hfuel
    obtain ⟨n, rfl⟩ := Nat.exists_eq_succ_of_ne_zero (Nat.ne_of_gt (Nat.zero_lt_of_lt hfuel))
    rw [elemFindLoop, if_neg hne]
    by_cases hx : x = e
    · simp [hx]
    · rw [if_neg hx, ih (Nat.lt_of_succ_lt_succ hfuel)]
      simp [Ne.symm hx]

omit [DecidableEq ι] in
theorem Walk.listTraversal {t : α} {start : Option α} (hw : Walk t h start xs)
    (func : α → Int32 → Int32) (arg : Int32) {fuel : Nat} (hfuel : xs.length < fuel) :
    listTraversalLoop t func arg h fuel start = .ok (xs.find? fun x => func x arg = 1) := by
  induction hw generalizing fuel with
  | nil =>
    obtain ⟨n, rfl⟩ := Nat.exists_eq_succ_of_ne_zero (Nat.ne_of_gt hfuel)
    simp [listTraversalLoop]
  | @cons x xs hne _ ih =>
    rw [List.length_cons] at hfuel
    obtain ⟨n, rfl⟩ := Nat.exists_eq_succ_of_ne_zero (Nat.ne_of_gt (Nat.zero_lt_of_lt hfuel))
    rw [listTraversalLoop, if_neg hne]
    by_cases hx : func x arg = 1
    · simp [hx]
    · rw [if_neg hx, ih (Nat.lt_of_succ_lt_succ hfuel)]
      simp [hx]

omit [DecidableEq ι] in
theorem Walk.listLen {t : α} {start : Option α} (hw : Walk t h start xs) (len : UInt32) {fuel : Nat}
    (hfuel : xs.length < fuel) :
    listLenLoop t h fuel len start = .ok (len + UInt32.ofNat xs.length) := by
  induction hw generalizing len fuel with
  | nil =>
    obtain ⟨n, rfl⟩ := Nat.exists_eq_succ_of_ne_zero (Nat.ne_of_gt hfuel)
    simp [listLenLoop]
  | @cons x xs hne _ ih =>
    rw [List.length_cons] at hfuel
    obtain ⟨n, rfl⟩ := Nat.exists_eq_succ_of_ne_zero (Nat.ne_of_gt (Nat.zero_lt_of_lt hfuel))
    rw [listLenLoop, if_neg hne, ih _ (Nat.lt_of_succ_lt_succ hfuel), List.length_cons,
      UInt32.add_assoc, Nat.add_comm xs.length 1, UInt32.ofNat_add]
    rfl

omit [DecidableEq α] [StartLinks α] in
/-- There are no more members than addresses. -/
theorem length_lt_of_nodup {addr : α → UInt32} (haddr : Function.Injective addr) {a b : α}
    {xs : List α} (hnd : (a :: (xs ++ [b])).Nodup) : xs.length < 2 ^ 32 := by
  have hinj : Function.Injective fun x => (addr x).toNat :=
    fun x y heq => haddr (UInt32.toNat_inj.mp heq)
  have hsub : (a :: (xs ++ [b])).map (fun x => (addr x).toNat) ⊆ List.range (2 ^ 32) := by
    intro n hn
    obtain ⟨x, -, rfl⟩ := List.mem_map.mp hn
    exact List.mem_range.mpr (addr x).toNat_lt
  have hle := (List.subperm_of_subset (hnd.map hinj) hsub).length_le
  rw [List.length_map, List.length_range, List.length_cons, List.length_append] at hle
  omega

/-! ## Operations and searches -/

omit [DecidableEq α] [StartLinks α] [DecidableEq ι] in
/-- A family with one more list. -/
def addList {β : Type*} (first : β) (rest : ι → β) : Option ι → β
  | none => first
  | some i => rest i

omit [DecidableEq ι] in
/-- **`list_init`** on sentinels that are in no list adds an empty list. -/
theorem listInit_represents (hr : Represents ends h Q) {p : ListEnds α} (hne : p.head ≠ p.tail)
    (hhead : InNoList ends Q p.head) (htail : InNoList ends Q p.tail) :
    Represents (addList p ends) (listInit p h) (addList [] Q) where
  dlist
    | none => listInit_spec hne h
    | some i => by
      apply (hr.dlist i).frame
      intro x hx
      have hxh : x ≠ p.head := by
        rintro rfl
        exact hhead i hx
      have hxt : x ≠ p.tail := by
        rintro rfl
        exact htail i hx
      simp [listInit, LinkHeap.setNext, LinkHeap.setPrev, hxh, hxt]
  disjoint
    | none, none => fun hij => absurd rfl hij
    | none, some j => by
      intro _ x hx hxj
      simp only [addList, ListEnds.nodes, List.nil_append, List.mem_cons, List.not_mem_nil,
        or_false] at hx
      rcases hx with rfl | rfl
      · exact hhead j hxj
      · exact htail j hxj
    | some i, none => by
      intro _ x hx hxn
      simp only [addList, ListEnds.nodes, List.nil_append, List.mem_cons, List.not_mem_nil,
        or_false] at hxn
      rcases hxn with rfl | rfl
      · exact hhead i hx
      · exact htail i hx
    | some i, some j => fun hij => hr.disjoint i j fun heq => hij (heq ▸ rfl)

/-- The lists behave as their sequences do, under every operation and every search. -/
structure ListsBehave (ends : ι → ListEnds α) (h : LinkHeap α) (Q : ι → List α) : Prop where
  calls : ∀ call r i xs, ListEffect ends Q call r i xs →
    ∃ h', callList ends h call = .ok (r, h') ∧ Changed ends h h' Q i xs
  listInit : ∀ p, p.head ≠ p.tail → InNoList ends Q p.head → InNoList ends Q p.tail →
    Represents (addList p ends) (listInit p h) (addList [] Q)
  elemFind : ∀ i e fuel, (Q i).length < fuel →
    elemFindWithin fuel (ends i) e h = .ok (decide (e ∈ Q i))
  listLen : ∀ i fuel, (Q i).length < fuel →
    ∃ n, listLen fuel (ends i) h = .ok n ∧ n.toNat = (Q i).length
  listEmpty : ∀ i, listEmpty (ends i) h = decide (Q i = [])
  listTraversal : ∀ i func arg fuel, (Q i).length < fuel →
    listTraversal fuel (ends i) func arg h = .ok ((Q i).find? fun x => func x arg = 1)

/-- **Intrusive lists.** On every heap that holds node-disjoint lists, whose nodes have 32-bit
addresses, the lists behave as their sequences do. -/
theorem lists_behave {addr : α → UInt32} (haddr : Function.Injective addr)
    (hr : Represents ends h Q) : ListsBehave ends h Q where
  calls call r i xs heff := heff.refined hr
  listInit p hne hhead htail := listInit_represents hr hne hhead htail
  elemFind i e fuel hfuel := (represents_walk hr i).elemFind hfuel
  listLen i fuel hfuel := by
    refine ⟨_, (represents_walk hr i).listLen 0 hfuel, ?_⟩
    rw [UInt32.zero_add]
    exact UInt32.toNat_ofNat_of_lt' (length_lt_of_nodup haddr (hr.dlist i).nodup)
  listEmpty i := listEmpty_spec hr i
  listTraversal i func arg fuel hfuel := by
    rw [listTraversal, listEmpty_spec hr i]
    by_cases hnil : Q i = []
    · simp [hnil]
    · rw [decide_eq_false hnil, if_neg Bool.false_ne_true]
      exact (represents_walk hr i).listTraversal func arg hfuel

end Specs

/-- Memory that has been cleared. -/
instance : StartLinks UInt32 := ⟨fun _ => { prev := none, next := none }⟩

/-- The sentinels of two lists. -/
def twoEnds : Option Unit → ListEnds UInt32 :=
  addList ⟨0x2000, 0x2008⟩ fun _ => ⟨0x1000, 0x1008⟩

/-- Two members in one list and one in the other. -/
def twoListsAfter : Option Unit → List UInt32 := addList [0x4000] fun _ => [0x3000, 0x3010]

/-- The calls that put them there. -/
def twoListsCalls : List (ListCall (Option Unit) UInt32) :=
  [.append (some ()) 0x3010, .push (some ()) 0x3000, .append none 0x4000]

/-- Two lists that have just been initialized. -/
def twoListsInit : LinkHeap UInt32 :=
  listInit ⟨0x2000, 0x2008⟩ (listInit ⟨0x1000, 0x1008⟩ ⟨[]⟩)

theorem twoListsInit_represents : Represents twoEnds twoListsInit (addList [] fun _ => []) := by
  have hone : Represents (fun _ : Unit => ⟨0x1000, 0x1008⟩) (listInit ⟨0x1000, 0x1008⟩ ⟨[]⟩)
      (fun _ => ([] : List UInt32)) :=
    { dlist := fun _ => listInit_spec (by decide) _
      disjoint := fun _ _ hij => absurd rfl hij }
  have hfree : ∀ e, e ∉ [0x1000, 0x1008] →
      InNoList (fun _ : Unit => ⟨0x1000, 0x1008⟩) (fun _ => ([] : List UInt32)) e := fun _ he _ => he
  exact listInit_represents hone (by decide) (hfree 0x2000 (by decide)) (hfree 0x2008 (by decide))

theorem inNoList_two {Q : Option Unit → List UInt32} {e : UInt32}
    (hnone : e ∉ (twoEnds none).nodes (Q none))
    (hsome : e ∉ (twoEnds (some ())).nodes (Q (some ()))) : InNoList twoEnds Q e
  | none => hnone
  | some () => hsome

theorem twoLists_effects :
    ListEffects twoEnds (addList [] fun _ => []) twoListsCalls [none, none, none] twoListsAfter := by
  have hend : Function.update (Function.update (Function.update (addList [] fun _ => [])
      (some ()) [0x3010]) (some ()) [0x3000, 0x3010]) none [0x4000] = twoListsAfter := by
    funext j
    rcases j with _ | ⟨⟩
    · rfl
    · rfl
  rw [← hend]
  have h₁ : InNoList twoEnds (addList [] fun _ => []) 0x3010 :=
    inNoList_two (by decide) (by decide)
  have h₂ : InNoList twoEnds (Function.update (addList [] fun _ => []) (some ()) [0x3010]) 0x3000 :=
    inNoList_two (by decide) (by decide)
  have h₃ : InNoList twoEnds (Function.update (Function.update (addList [] fun _ => [])
      (some ()) [0x3010]) (some ()) [0x3000, 0x3010]) 0x4000 :=
    inNoList_two (by decide) (by decide)
  exact .cons (.append h₁) (.cons (.push h₂) (.cons (.append h₃) (.nil _)))

/-- Two lists with members: a node leaves the first list, one is popped from the second, and one is
put before a member; the searches find what is there. -/
theorem lists_behave_two :
    ∃ h, runLists twoEnds twoListsCalls twoListsInit = .ok ([none, none, none], h) ∧
      (∃ h', callList twoEnds h (.remove 0x3000) = .ok (none, h') ∧
        Changed twoEnds h h' twoListsAfter (some ()) [0x3010]) ∧
      (∃ h', callList twoEnds h (.pop none) = .ok (some 0x4000, h') ∧
        Changed twoEnds h h' twoListsAfter none []) ∧
      (∃ h', callList twoEnds h (.insertBefore 0x3010 0x5000) = .ok (none, h') ∧
        Changed twoEnds h h' twoListsAfter (some ()) [0x3000, 0x5000, 0x3010]) ∧
      elemFindWithin 3 (twoEnds (some ())) 0x3010 h = .ok true ∧
      elemFindWithin 3 (twoEnds none) 0x3010 h = .ok false ∧
      (∃ n, listLen 3 (twoEnds (some ())) h = .ok n ∧ n.toNat = 2) ∧
      listTraversal 3 (twoEnds (some ())) (fun x _ => if x = 0x3010 then 1 else 0) 0 h =
        .ok (some 0x3010) := by
  obtain ⟨h, hrun, hr⟩ := runLists_refined twoListsInit_represents twoLists_effects
  have hb : ListsBehave twoEnds h twoListsAfter := lists_behave Function.injective_id hr
  have hnew : InNoList twoEnds twoListsAfter 0x5000 :=
    inNoList_two (by decide) (by decide)
  have hfirst : twoListsAfter (some ()) = [] ++ 0x3000 :: [0x3010] := rfl
  have hsecond : twoListsAfter (some ()) = [0x3000] ++ 0x3010 :: [] := rfl
  refine ⟨h, hrun, hb.calls _ _ _ _ (.remove hfirst), hb.calls _ _ _ _ (.pop rfl),
    hb.calls _ _ _ _ (.insertBefore hnew hsecond), ?_, ?_,
    hb.listLen (some ()) 3 (by decide), ?_⟩
  · exact hb.elemFind (some ()) 0x3010 3 (by decide)
  · exact hb.elemFind none 0x3010 3 (by decide)
  · exact hb.listTraversal (some ()) (fun x _ => if x = 0x3010 then 1 else 0) 0 3 (by decide)

end OsKernel
