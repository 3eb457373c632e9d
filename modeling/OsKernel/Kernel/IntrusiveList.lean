import OsKernel.Kernel.Debug
import OsKernel.Lib.LinkedHeap

/-!
# lib/kernel/list.c

The kernel's intrusive doubly linked lists. A `struct list` is a pair of sentinel cells; the
members are `struct list_elem`s that live inside other objects. Addresses are an arbitrary type,
a null pointer is `none`. The interrupt flag that `list_insert_before` and `list_remove` save and
restore belongs to the thread model; here each function is its effect on the heap.

For any family of node-disjoint lists each function acts on its list's sequence as its name says
and leaves the other lists alone (`listAppend_spec`, `listPush_spec`, `listPop_spec`,
`elemFind_spec`, `listEmpty_spec`).
-/

namespace OsKernel

open Lib

variable {α : Type*} [DecidableEq α] [StartLinks α]

/-! ## The functions -/

/-- `list_init` -/
def listInit (plist : ListEnds α) (h : LinkHeap α) : LinkHeap α :=
  (((h.setPrev plist.head none).setNext plist.head (some plist.tail)).setPrev plist.tail
    (some plist.head)).setNext plist.tail none

/-- `list_insert_before` -/
def listInsertBefore (before : Option α) (elem : α) (h : LinkHeap α) :
    Except Panic (LinkHeap α) :=
  match before with
  | none => .error .listInsertBefore
  | some b =>
    match (h.get b).prev with
    | none => .error .listInsertBefore
    | some p =>
      let h := h.setNext p (some elem)
      let h := h.setPrev elem (h.get b).prev
      let h := h.setNext elem (some b)
      .ok (h.setPrev b (some elem))

/-- `list_push` -/
def listPush (plist : ListEnds α) (elem : α) (h : LinkHeap α) : Except Panic (LinkHeap α) :=
  listInsertBefore (h.get plist.head).next elem h

/-- `list_append` -/
def listAppend (plist : ListEnds α) (elem : α) (h : LinkHeap α) : Except Panic (LinkHeap α) :=
  listInsertBefore (some plist.tail) elem h

/-- `list_remove` -/
def listRemove (elem : Option α) (h : LinkHeap α) : Except Panic (LinkHeap α) :=
  match elem with
  | none => .error .listRemove
  | some e =>
    let h := match (h.get e).prev with
      | some p => h.setNext p (h.get e).next
      | none => h
    .ok (match (h.get e).next with
      | some n => h.setPrev n (h.get e).prev
      | none => h)

/-- `list_pop` -/
def listPop (plist : ListEnds α) (h : LinkHeap α) :
    Except Panic (Option α × LinkHeap α) := do
  let temp := (h.get plist.head).next
  let h ← listRemove temp h
  return (temp, h)

/-- The loop of `elem_find`. A walk through more cells than were ever linked runs in a circle, so
the fuel only runs out where the C loop does not end. -/
def elemFindLoop (tail elem : α) (h : LinkHeap α) : Nat → Option α → Except Panic Bool
  | 0, _ => .error .wildPointer
  | _ + 1, none => .error .wildPointer
  | fuel + 1, some temp =>
    if temp = tail then .ok false
    else if temp = elem then .ok true
    else elemFindLoop tail elem h fuel (h.get temp).next

/-- `elem_find` -/
def elemFind (plist : ListEnds α) (elem : α) (h : LinkHeap α) : Except Panic Bool :=
  elemFindLoop plist.tail elem h (h.cells.length + 3) (h.get plist.head).next

/-- `list_empty` -/
def listEmpty (plist : ListEnds α) (h : LinkHeap α) : Bool :=
  (h.get plist.head).next = some plist.tail

/-! ## The writes of one insertion and one removal -/

/-- The four writes of `list_insert_before` splice the element in. -/
theorem listInsertBefore_eq {h : LinkHeap α} {b p elem : α} (hp : (h.get b).prev = some p) :
    listInsertBefore (some b) elem h = .ok (spliceIn h p elem b) := by
  simp [listInsertBefore, hp, spliceIn, LinkHeap.prev_setNext]

/-- The writes of `list_remove` on a linked member splice it out. -/
theorem listRemove_eq {h : LinkHeap α} {e p n : α} (hp : (h.get e).prev = some p)
    (hn : (h.get e).next = some n) (hpe : p ≠ e) :
    listRemove (some e) h = .ok (spliceOut h p n) := by
  have hnext : ((h.setNext p (some n)).get e).next = some n := by
    rw [LinkHeap.next_setNext, if_neg hpe.symm, hn]
  have hprev : ((h.setNext p (some n)).get e).prev = some p := by
    rw [LinkHeap.prev_setNext, hp]
  simp [listRemove, hp, hn, hnext, hprev, spliceOut]

/-! ## Effect on a family of lists -/

section Specs

variable {ι : Type*} [DecidableEq ι]
variable {ends : ι → ListEnds α} {h : LinkHeap α} {Q : ι → List α}

omit [DecidableEq ι] in
/-- Consecutive nodes of a represented list are linked both ways. -/
theorem represents_linked (hr : Represents ends h Q) {i : ι} {l₁ l₂ : List α} {p c : α}
    (hsplit : (ends i).nodes (Q i) = l₁ ++ p :: c :: l₂) :
    (h.get p).next = some c ∧ (h.get c).prev = some p := by
  have hchain : ((ends i).nodes (Q i)).IsChain (Linked h) := (hr.dlist i).chain
  rw [hsplit, List.isChain_append_cons_cons] at hchain
  exact hchain.2.1

omit [DecidableEq α] [StartLinks α] [DecidableEq ι] in
/-- The nodes of a list end with the tail sentinel, whose predecessor is the last member. -/
theorem nodes_split_last (p : ListEnds α) (xs : List α) :
    ∃ l₁ q, p.nodes xs = l₁ ++ q :: p.tail :: [] ∧
      ∀ e, p.nodes (xs ++ [e]) = l₁ ++ q :: e :: p.tail :: [] := by
  rcases List.eq_nil_or_concat xs with rfl | ⟨ys, y, rfl⟩
  · exact ⟨[], p.head, by simp [ListEnds.nodes], fun e => by simp [ListEnds.nodes]⟩
  · exact ⟨p.head :: ys, y, by simp [ListEnds.nodes], fun e => by simp [ListEnds.nodes]⟩

/-- `list_append` of a cell of no list puts it last. -/
theorem listAppend_spec (hr : Represents ends h Q) (i : ι) {e : α}
    (he : ∀ j, e ∉ (ends j).nodes (Q j)) :
    ∃ h', listAppend (ends i) e h = .ok h' ∧
      Represents ends h' (Function.update Q i (Q i ++ [e])) := by
  obtain ⟨l₁, q, hold, hnew⟩ := nodes_split_last (ends i) (Q i)
  have hlink := represents_linked hr hold
  refine ⟨_, listInsertBefore_eq hlink.2, ?_⟩
  exact hr.spliceIn hold (hnew e) he fun heq => he i (by simp [ListEnds.nodes, heq])

/-- `list_push` of a cell of no list puts it first. -/
theorem listPush_spec (hr : Represents ends h Q) (i : ι) {e : α}
    (he : ∀ j, e ∉ (ends j).nodes (Q j)) :
    ∃ h', listPush (ends i) e h = .ok h' ∧
      Represents ends h' (Function.update Q i (e :: Q i)) := by
  obtain ⟨c, l₂, hsplit⟩ : ∃ c l₂, Q i ++ [(ends i).tail] = c :: l₂ :=
    List.exists_cons_of_ne_nil (by simp)
  have hold : (ends i).nodes (Q i) = [] ++ (ends i).head :: c :: l₂ := by
    simp [ListEnds.nodes, hsplit]
  have hnew : (ends i).nodes (e :: Q i) = [] ++ (ends i).head :: e :: c :: l₂ := by
    simp [ListEnds.nodes, hsplit]
  have hlink := represents_linked hr hold
  refine ⟨_, ?_, hr.spliceIn hold hnew he fun heq => he i (by simp [ListEnds.nodes, heq])⟩
  rw [listPush, hlink.1]
  exact listInsertBefore_eq hlink.2

/-- `list_pop` of a non-empty list removes and returns the first member. -/
theorem listPop_spec (hr : Represents ends h Q) {i : ι} {e : α} {xs : List α}
    (hq : Q i = e :: xs) :
    ∃ h', listPop (ends i) h = .ok (some e, h') ∧
      Represents ends h' (Function.update Q i xs) := by
  obtain ⟨c, l₂, hsplit⟩ : ∃ c l₂, xs ++ [(ends i).tail] = c :: l₂ :=
    List.exists_cons_of_ne_nil (by simp)
  have hold : (ends i).nodes (Q i) = [] ++ (ends i).head :: e :: c :: l₂ := by
    simp [ListEnds.nodes, hq, hsplit]
  have hold' : (ends i).nodes (Q i) = [(ends i).head] ++ e :: c :: l₂ := by
    simp [ListEnds.nodes, hq, hsplit]
  have hnew : (ends i).nodes xs = [] ++ (ends i).head :: c :: l₂ := by
    simp [ListEnds.nodes, hsplit]
  have hfirst := represents_linked hr hold
  have hsecond := represents_linked hr hold'
  have hne : (ends i).head ≠ e := by
    have hnd : ((ends i).nodes (Q i)).Nodup := (hr.dlist i).nodup
    rw [hold] at hnd
    simp only [List.nil_append, List.nodup_cons, List.mem_cons, not_or] at hnd
    exact hnd.1.1
  refine ⟨_, ?_, hr.spliceOut hold hnew⟩
  simp only [listPop, hfirst.1, listRemove_eq hfirst.2 hsecond.1 hne]
  rfl

/-- The walk of `elem_find` along a chain that ends at the tail sentinel. -/
private theorem elemFindLoop_chain {t e : α} {h : LinkHeap α} :
    ∀ (xs : List α) (a : α) (fuel : Nat), (a :: (xs ++ [t])).IsChain (Linked h) →
      t ∉ xs → xs.length < fuel →
      elemFindLoop t e h fuel (h.get a).next = .ok (decide (e ∈ xs)) := by
  intro xs
  induction xs with
  | nil =>
    intro a fuel hc _ hfuel
    obtain ⟨n, rfl⟩ : ∃ n, fuel = n + 1 := ⟨fuel - 1, by simp at hfuel; omega⟩
    simp only [List.nil_append, List.isChain_cons_cons] at hc
    simp [elemFindLoop, hc.1.1]
  | cons x xs ih =>
    intro a fuel hc ht hfuel
    obtain ⟨n, rfl⟩ : ∃ n, fuel = n + 1 := ⟨fuel - 1, by simp at hfuel; omega⟩
    simp only [List.cons_append, List.isChain_cons_cons] at hc
    simp only [List.mem_cons, not_or] at ht
    rw [hc.1.1, elemFindLoop, if_neg (Ne.symm ht.1)]
    by_cases hx : x = e
    · simp [hx]
    · rw [if_neg hx, ih x n hc.2 ht.2 (by simpa using hfuel)]
      simp [Ne.symm hx]

omit [DecidableEq ι] in
/-- `elem_find` terminates and decides membership. -/
theorem elemFind_spec (hr : Represents ends h Q) (i : ι) (e : α)
    (hstart : ∀ x ∈ Q i, (StartLinks.startLink x).next = none) :
    elemFind (ends i) e h = .ok (decide (e ∈ Q i)) := by
  have hl := hr.dlist i
  apply elemFindLoop_chain (Q i) (ends i).head _ hl.chain
  · exact hl.tail_not_mem
  · have := hl.length_le hstart
    omega

omit [DecidableEq ι] in
/-- `list_empty` tests whether the list has a member. -/
theorem listEmpty_spec (hr : Represents ends h Q) (i : ι) :
    listEmpty (ends i) h = decide (Q i = []) := by
  have hl := hr.dlist i
  cases hq : Q i with
  | nil =>
    have hchain := hl.chain
    rw [hq] at hchain
    simp only [List.nil_append, List.isChain_cons_cons] at hchain
    simp [listEmpty, hchain.1.1]
  | cons x xs =>
    have hchain := hl.chain
    have hnd := hl.nodup
    rw [hq] at hchain hnd
    simp only [List.cons_append, List.isChain_cons_cons] at hchain
    have hne : x ≠ (ends i).tail := by
      rintro rfl
      exact (List.nodup_cons.mp (List.nodup_cons.mp hnd).2).1 (by simp)
    simp [listEmpty, hchain.1.1, hne]

/-- `list_init` on sentinels outside all other lists makes an empty list. -/
theorem listInit_spec {p : ListEnds α} (hne : p.head ≠ p.tail) (h : LinkHeap α) :
    IsDList (listInit p h) p.head p.tail [] where
  chain := by
    simp [Linked, listInit, LinkHeap.next_setNext, LinkHeap.next_setPrev, LinkHeap.prev_setNext,
      LinkHeap.prev_setPrev, hne]
  head_prev := by
    simp [listInit, LinkHeap.prev_setNext, LinkHeap.prev_setPrev, hne]
  tail_next := by simp [listInit, LinkHeap.next_setNext]
  nodup := by simp [hne]

end Specs

end OsKernel
