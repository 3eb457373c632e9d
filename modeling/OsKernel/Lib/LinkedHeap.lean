import Mathlib

/-!
# Doubly linked chains in a heap

A heap maps addresses to cells that hold a `prev` and a `next` pointer; a null pointer is
`none`. The heap is the log of its writes, the last one first, so it is a finite object and the
length of the log bounds every chain of cells that were ever linked.

- `IsDList h a b xs`: the sentinels `a` and `b` enclose the chain `xs`, linked both ways.
- `IsDList.insert`, `IsDList.remove`: what the four (two) pointer writes of an insertion
  (removal) do to the chain.
- `IsDList.frame`: writes outside a chain leave it alone.
-/

namespace OsKernel.Lib

/-- One cell: a backward and a forward pointer. -/
structure Link (α : Type*) where
  prev : Option α
  next : Option α
deriving DecidableEq, Repr

/-- What the cells hold before the first write. -/
class StartLinks (α : Type*) where
  startLink : α → Link α

/-- A heap of cells, as the log of its writes. -/
structure LinkHeap (α : Type*) where
  cells : List (α × Link α)

namespace LinkHeap

variable {α : Type*} [DecidableEq α] [StartLinks α]

/-- The cell at an address: its last write, or what it held at the start. -/
def get (h : LinkHeap α) (a : α) : Link α :=
  (h.cells.lookup a).getD (StartLinks.startLink a)

/-- Overwrite a cell. -/
def set (h : LinkHeap α) (a : α) (l : Link α) : LinkHeap α := ⟨(a, l) :: h.cells⟩

/-- `a->prev = p`. -/
def setPrev (h : LinkHeap α) (a : α) (p : Option α) : LinkHeap α :=
  h.set a { h.get a with prev := p }

/-- `a->next = n`. -/
def setNext (h : LinkHeap α) (a : α) (n : Option α) : LinkHeap α :=
  h.set a { h.get a with next := n }

@[simp] theorem get_set_self (h : LinkHeap α) (a : α) (l : Link α) : (h.set a l).get a = l := by
  simp [get, set]

@[simp] theorem get_set_of_ne (h : LinkHeap α) {a b : α} (l : Link α) (hne : b ≠ a) :
    (h.set a l).get b = h.get b := by
  have hbeq : (b == a) = false := beq_eq_false_iff_ne.mpr hne
  simp [get, set, List.lookup, hbeq]

theorem next_setNext (h : LinkHeap α) (a b : α) (n : Option α) :
    ((h.setNext a n).get b).next = if b = a then n else (h.get b).next := by
  by_cases hb : b = a
  · subst hb; simp [setNext]
  · simp [setNext, hb]

theorem next_setPrev (h : LinkHeap α) (a b : α) (p : Option α) :
    ((h.setPrev a p).get b).next = (h.get b).next := by
  by_cases hb : b = a
  · subst hb; simp [setPrev]
  · simp [setPrev, hb]

theorem prev_setPrev (h : LinkHeap α) (a b : α) (p : Option α) :
    ((h.setPrev a p).get b).prev = if b = a then p else (h.get b).prev := by
  by_cases hb : b = a
  · subst hb; simp [setPrev]
  · simp [setPrev, hb]

theorem prev_setNext (h : LinkHeap α) (a b : α) (n : Option α) :
    ((h.setNext a n).get b).prev = (h.get b).prev := by
  by_cases hb : b = a
  · subst hb; simp [setNext]
  · simp [setNext, hb]

/-- A cell with a forward pointer has been written, unless it had one at the start. -/
theorem mem_keys_of_next {h : LinkHeap α} {a b : α} (hn : (h.get a).next = some b)
    (hstart : (StartLinks.startLink a).next = none) : a ∈ h.cells.map Prod.fst := by
  by_contra hmem
  have hlookup : h.cells.lookup a = none := by
    rw [List.lookup_eq_none_iff]
    intro p hp
    refine bne_iff_ne.mpr fun heq => ?_
    exact hmem (List.mem_map.mpr ⟨p, hp, heq.symm⟩)
  simp [get, hlookup, hstart] at hn

end LinkHeap

variable {α : Type*} [DecidableEq α] [StartLinks α]

/-- Neighbours in a chain point to each other. -/
def Linked (h : LinkHeap α) (a b : α) : Prop :=
  (h.get a).next = some b ∧ (h.get b).prev = some a

/-- The sentinels `a` and `b` enclose the chain `xs`: linked in both directions, closed by null
pointers, and no cell occurs twice. -/
structure IsDList (h : LinkHeap α) (a b : α) (xs : List α) : Prop where
  chain : (a :: (xs ++ [b])).IsChain (Linked h)
  head_prev : (h.get a).prev = none
  tail_next : (h.get b).next = none
  nodup : (a :: (xs ++ [b])).Nodup

/-! ## Chains under heap writes -/

/-- A chain survives writes that keep the forward pointers of all its cells but the last, and
the backward pointers of all but the first. -/
theorem isChain_frame {h h' : LinkHeap α} {l : List α} (hl : l.IsChain (Linked h))
    (hnext : ∀ x ∈ l.dropLast, (h'.get x).next = (h.get x).next)
    (hprev : ∀ x ∈ l.tail, (h'.get x).prev = (h.get x).prev) :
    l.IsChain (Linked h') := by
  induction l with
  | nil => exact .nil
  | cons a l ih =>
    cases l with
    | nil => exact .singleton a
    | cons b l =>
      simp only [List.isChain_cons_cons] at hl ⊢
      refine ⟨⟨?_, ?_⟩, ih hl.2 ?_ ?_⟩
      · rw [hnext a (by simp)]; exact hl.1.1
      · rw [hprev b (by simp)]; exact hl.1.2
      · intro x hx
        exact hnext x (by simp [hx])
      · intro x hx
        exact hprev x (by simp at hx ⊢; exact Or.inr hx)

/-- Writes to cells outside a list leave it as it was. -/
theorem IsDList.frame {h h' : LinkHeap α} {a b : α} {xs : List α} (hl : IsDList h a b xs)
    (hsame : ∀ x ∈ a :: (xs ++ [b]), h'.get x = h.get x) : IsDList h' a b xs where
  chain := by
    refine isChain_frame hl.chain (fun x hx => ?_) (fun x hx => ?_)
    · rw [hsame x (List.dropLast_subset _ hx)]
    · rw [hsame x (List.mem_of_mem_tail hx)]
  head_prev := by rw [hsame a (by simp)]; exact hl.head_prev
  tail_next := by rw [hsame b (by simp)]; exact hl.tail_next
  nodup := hl.nodup

/-- A member of a list points to its successor. -/
theorem IsDList.next_of_mem {h : LinkHeap α} {a b : α} {xs : List α} (hl : IsDList h a b xs)
    {y : α} (hy : y ∈ xs) : ∃ z, (h.get y).next = some z := by
  have hnext : ∀ l : List α, ∀ x : α, (x :: (l ++ [b])).IsChain (Linked h) →
      ∀ y ∈ x :: l, ∃ z, (h.get y).next = some z := by
    intro l
    induction l with
    | nil =>
      intro x hc y hy
      simp only [List.nil_append, List.isChain_cons_cons] at hc
      simp only [List.mem_singleton] at hy
      exact ⟨b, hy ▸ hc.1.1⟩
    | cons c l ih =>
      intro x hc y hy
      simp only [List.cons_append, List.isChain_cons_cons] at hc
      rcases List.mem_cons.mp hy with rfl | hy
      · exact ⟨c, hc.1.1⟩
      · exact ih c hc.2 y hy
  exact hnext xs a hl.chain y (List.mem_cons_of_mem _ hy)

/-- A chain of cells that were not linked at the start is no longer than the log of the heap's
writes. -/
theorem IsDList.length_le {h : LinkHeap α} {a b : α} {xs : List α} (hl : IsDList h a b xs)
    (hstart : ∀ x ∈ xs, (StartLinks.startLink x).next = none) :
    xs.length ≤ h.cells.length := by
  have hkeys : xs ⊆ h.cells.map Prod.fst := by
    intro y hy
    obtain ⟨z, hz⟩ := hl.next_of_mem hy
    exact LinkHeap.mem_keys_of_next hz (hstart y hy)
  have hnd : xs.Nodup := (List.nodup_append.mp (List.nodup_cons.mp hl.nodup).2).1
  simpa using (hnd.subperm hkeys).length_le

/-- The tail sentinel is no member. -/
theorem IsDList.tail_not_mem {h : LinkHeap α} {a b : α} {xs : List α} (hl : IsDList h a b xs) :
    b ∉ xs := by
  intro hmem
  have hnd := (List.nodup_cons.mp hl.nodup).2
  exact (List.nodup_append.mp hnd).2.2 _ hmem _ (List.mem_singleton_self _) rfl

/-- The pointers determine the sequence of members. -/
theorem IsDList.unique {h : LinkHeap α} {a b : α} {xs ys : List α} (hx : IsDList h a b xs)
    (hy : IsDList h a b ys) : xs = ys := by
  have hchain : ∀ (xs ys : List α) (a : α), (a :: (xs ++ [b])).IsChain (Linked h) →
      (a :: (ys ++ [b])).IsChain (Linked h) → b ∉ xs → b ∉ ys → xs = ys := by
    intro xs
    induction xs with
    | nil =>
      intro ys a hx hy _ hb
      cases ys with
      | nil => rfl
      | cons y ys =>
        simp only [List.nil_append, List.cons_append, List.isChain_cons_cons] at hx hy
        have heq : b = y := Option.some.inj (hx.1.1.symm.trans hy.1.1)
        exact absurd (heq ▸ List.mem_cons_self) hb
    | cons x xs ih =>
      intro ys a hx hy hbx hby
      cases ys with
      | nil =>
        simp only [List.nil_append, List.cons_append, List.isChain_cons_cons] at hx hy
        have heq : x = b := Option.some.inj (hx.1.1.symm.trans hy.1.1)
        exact absurd (heq ▸ List.mem_cons_self) hbx
      | cons y ys =>
        simp only [List.cons_append, List.isChain_cons_cons] at hx hy
        obtain rfl : x = y := Option.some.inj (hx.1.1.symm.trans hy.1.1)
        rw [ih ys x hx.2 hy.2 (fun hm => hbx (List.mem_cons_of_mem _ hm))
          fun hm => hby (List.mem_cons_of_mem _ hm)]
  exact hchain xs ys a hx.chain hy.chain hx.tail_not_mem hy.tail_not_mem

/-! ## Insertion and removal -/

/-- The pointer writes that put `e` before `c`, where `p` is the cell before `c`. -/
def spliceIn (h : LinkHeap α) (p e c : α) : LinkHeap α :=
  (((h.setNext p (some e)).setPrev e (some p)).setNext e (some c)).setPrev c (some e)

/-- The pointer writes that take a cell out from between `p` and `c`. -/
def spliceOut (h : LinkHeap α) (p c : α) : LinkHeap α :=
  (h.setNext p (some c)).setPrev c (some p)

theorem spliceIn_get_of_ne {h : LinkHeap α} {p e c x : α} (hp : x ≠ p) (he : x ≠ e)
    (hc : x ≠ c) : (spliceIn h p e c).get x = h.get x := by
  simp [spliceIn, LinkHeap.setNext, LinkHeap.setPrev, hp, he, hc]

theorem spliceOut_get_of_ne {h : LinkHeap α} {p c x : α} (hp : x ≠ p) (hc : x ≠ c) :
    (spliceOut h p c).get x = h.get x := by
  simp [spliceOut, LinkHeap.setNext, LinkHeap.setPrev, hp, hc]

omit [DecidableEq α] [StartLinks α] in
/-- The chain around a member of a list that is split at it. -/
private theorem chain_split {R : α → α → Prop} {a b c : α} {l₁ l₂ : List α}
    (h : (l₁ ++ a :: b :: c :: l₂).IsChain R) :
    (l₁ ++ [a]).IsChain R ∧ R a b ∧ R b c ∧ (c :: l₂).IsChain R := by
  obtain ⟨h₁, h₂⟩ := List.isChain_split.mp h
  simp only [List.isChain_cons_cons] at h₂
  exact ⟨h₁, h₂.1, h₂.2.1, h₂.2.2⟩

/-- Inserting `e` before `c` puts it into the chain there. -/
theorem isChain_spliceIn {h : LinkHeap α} {l₁ l₂ : List α} {p e c : α}
    (hl : (l₁ ++ p :: c :: l₂).IsChain (Linked h)) (hnd : (l₁ ++ p :: c :: l₂).Nodup)
    (he : e ∉ l₁ ++ p :: c :: l₂) :
    (l₁ ++ p :: e :: c :: l₂).IsChain (Linked (spliceIn h p e c)) := by
  have hsplit := List.isChain_split.mp hl
  have hmem : ∀ x, x ∈ l₁ ++ p :: c :: l₂ → x ≠ e := fun x hx hxe => he (hxe ▸ hx)
  rw [List.nodup_append] at hnd
  simp only [List.nodup_cons, List.mem_cons, not_or] at hnd
  obtain ⟨-, ⟨⟨hpc, hpl⟩, hcl, -⟩, hdisj⟩ := hnd
  have hep : e ≠ p := (hmem p (by simp)).symm
  have hec : e ≠ c := (hmem c (by simp)).symm
  have hnext : ∀ x, x ≠ p → x ≠ e → ((spliceIn h p e c).get x).next = (h.get x).next := by
    intro x hxp hxe
    simp [spliceIn, LinkHeap.next_setNext, LinkHeap.next_setPrev, hxp, hxe]
  have hprev : ∀ x, x ≠ c → x ≠ e → ((spliceIn h p e c).get x).prev = (h.get x).prev := by
    intro x hxc hxe
    simp [spliceIn, LinkHeap.prev_setNext, LinkHeap.prev_setPrev, hxc, hxe]
  refine List.isChain_split.mpr ⟨?_, ?_⟩
  · refine isChain_frame hsplit.1 (fun x hx => ?_) (fun x hx => ?_)
    · rw [List.dropLast_concat] at hx
      exact hnext x (fun hxp => (hdisj x hx p (by simp)) hxp) (hmem x (by simp [hx]))
    · have hx' : x ∈ l₁ ++ [p] := List.mem_of_mem_tail hx
      refine hprev x ?_ (hmem x (by simp at hx' ⊢; tauto))
      rintro rfl
      rcases List.mem_append.mp hx' with hx' | hx'
      · exact hdisj x hx' x (by simp) rfl
      · exact hpc (List.mem_singleton.mp hx').symm
  · simp only [List.isChain_cons_cons]
    refine ⟨⟨?_, ?_⟩, ⟨?_, ?_⟩, ?_⟩
    · simp [spliceIn, LinkHeap.next_setNext, LinkHeap.next_setPrev, hep.symm]
    · simp [spliceIn, LinkHeap.prev_setNext, LinkHeap.prev_setPrev, hec]
    · simp [spliceIn, LinkHeap.next_setNext, LinkHeap.next_setPrev]
    · simp [spliceIn, LinkHeap.prev_setPrev]
    · have hcl' : (c :: l₂).IsChain (Linked h) := (List.isChain_cons_cons.mp hsplit.2).2
      refine isChain_frame hcl' (fun x hx => ?_) (fun x hx => ?_)
      · have hx' : x ∈ c :: l₂ := List.dropLast_subset _ hx
        refine hnext x ?_ (hmem x (by simp at hx' ⊢; tauto))
        rintro rfl
        rcases List.mem_cons.mp hx' with rfl | hx'
        · exact hpc rfl
        · exact hpl hx'
      · have hx' : x ∈ l₂ := by simpa using hx
        exact hprev x (fun hxc => hcl (hxc ▸ hx')) (hmem x (by simp [hx']))

/-- Taking `e` out from between its neighbours `p` and `c` deletes it from the chain. -/
theorem isChain_spliceOut {h : LinkHeap α} {l₁ l₂ : List α} {p e c : α}
    (hl : (l₁ ++ p :: e :: c :: l₂).IsChain (Linked h)) (hnd : (l₁ ++ p :: e :: c :: l₂).Nodup) :
    (l₁ ++ p :: c :: l₂).IsChain (Linked (spliceOut h p c)) := by
  obtain ⟨hleft, -, -, hright⟩ := chain_split hl
  rw [List.nodup_append] at hnd
  simp only [List.nodup_cons, List.mem_cons, not_or] at hnd
  obtain ⟨-, ⟨⟨-, hpc, hpl⟩, -, hcl, -⟩, hdisj⟩ := hnd
  have hnext : ∀ x, x ≠ p → ((spliceOut h p c).get x).next = (h.get x).next := by
    intro x hxp
    simp [spliceOut, LinkHeap.next_setNext, LinkHeap.next_setPrev, hxp]
  have hprev : ∀ x, x ≠ c → ((spliceOut h p c).get x).prev = (h.get x).prev := by
    intro x hxc
    simp [spliceOut, LinkHeap.prev_setNext, LinkHeap.prev_setPrev, hxc]
  refine List.isChain_split.mpr ⟨?_, ?_⟩
  · refine isChain_frame hleft (fun x hx => ?_) (fun x hx => ?_)
    · rw [List.dropLast_concat] at hx
      exact hnext x (fun hxp => (hdisj x hx p (by simp)) hxp)
    · have hx' : x ∈ l₁ ++ [p] := List.mem_of_mem_tail hx
      refine hprev x ?_
      rintro rfl
      rcases List.mem_append.mp hx' with hx' | hx'
      · exact hdisj x hx' x (by simp) rfl
      · exact hpc (List.mem_singleton.mp hx').symm
  · simp only [List.isChain_cons_cons]
    refine ⟨⟨?_, ?_⟩, ?_⟩
    · simp [spliceOut, LinkHeap.next_setNext, LinkHeap.next_setPrev]
    · simp [spliceOut, LinkHeap.prev_setPrev]
    · refine isChain_frame hright (fun x hx => ?_) (fun x hx => ?_)
      · have hx' : x ∈ c :: l₂ := List.dropLast_subset _ hx
        refine hnext x ?_
        rintro rfl
        rcases List.mem_cons.mp hx' with rfl | hx'
        · exact hpc rfl
        · exact hpl hx'
      · have hx' : x ∈ l₂ := by simpa using hx
        exact hprev x (fun hxc => hcl (hxc ▸ hx'))

/-! ## Families of lists

Several lists share one heap; `ends i` are the sentinels of list `i` and `Q i` its members. -/

/-- The sentinel cells of one list. -/
structure ListEnds (α : Type*) where
  head : α
  tail : α

variable {ι : Type*} [DecidableEq ι]

/-- All cells of a list, sentinels included. -/
def ListEnds.nodes (p : ListEnds α) (xs : List α) : List α := p.head :: (xs ++ [p.tail])

/-- The heap holds the lists `Q`, with no cell in two of them. -/
structure Represents (ends : ι → ListEnds α) (h : LinkHeap α) (Q : ι → List α) : Prop where
  dlist : ∀ i, IsDList h (ends i).head (ends i).tail (Q i)
  disjoint : ∀ i j, i ≠ j → ∀ x ∈ (ends i).nodes (Q i), x ∉ (ends j).nodes (Q j)

variable {ends : ι → ListEnds α} {h : LinkHeap α} {Q : ι → List α}

omit [DecidableEq ι] in
theorem Represents.unique {Q' : ι → List α} (hr : Represents ends h Q)
    (hr' : Represents ends h Q') : Q = Q' :=
  funext fun i => (hr.dlist i).unique (hr'.dlist i)

/-- Changing one list, with writes to its own cells and to cells of no list only, leaves the
others alone. -/
theorem Represents.update (hr : Represents ends h Q) {h' : LinkHeap α} {i : ι} {xs : List α}
    (hi : IsDList h' (ends i).head (ends i).tail xs)
    (hsame : ∀ j, j ≠ i → ∀ x ∈ (ends j).nodes (Q j), h'.get x = h.get x)
    (hfresh : ∀ x ∈ (ends i).nodes xs, ∀ j, j ≠ i → x ∉ (ends j).nodes (Q j)) :
    Represents ends h' (Function.update Q i xs) where
  dlist j := by
    by_cases hj : j = i
    · subst hj; rw [Function.update_self]; exact hi
    · rw [Function.update_of_ne hj]
      exact (hr.dlist j).frame (hsame j hj)
  disjoint j k hjk x hx := by
    by_cases hj : j = i
    · subst hj
      rw [Function.update_self] at hx
      rw [Function.update_of_ne hjk.symm]
      exact hfresh x hx k hjk.symm
    · rw [Function.update_of_ne hj] at hx
      by_cases hk : k = i
      · subst hk
        rw [Function.update_self]
        exact fun hx' => hfresh x hx' j hj hx
      · rw [Function.update_of_ne hk]
        exact hr.disjoint j k hjk x hx

/-- **Insertion**: splicing a cell of no list in front of the node `c` of list `i` inserts it
there and changes no other list. -/
theorem Represents.spliceIn (hr : Represents ends h Q) {i : ι} {l₁ l₂ xs : List α} {p e c : α}
    (hold : (ends i).nodes (Q i) = l₁ ++ p :: c :: l₂)
    (hnew : (ends i).nodes xs = l₁ ++ p :: e :: c :: l₂)
    (he : ∀ j, e ∉ (ends j).nodes (Q j))
    (hhead : e ≠ (ends i).head) :
    Represents ends (spliceIn h p e c) (Function.update Q i xs) := by
  have hi := hr.dlist i
  have hchain := hi.chain
  have hnd := hi.nodup
  change ((ends i).nodes (Q i)).IsChain _ at hchain
  change ((ends i).nodes (Q i)).Nodup at hnd
  have hei := he i
  rw [hold] at hchain hnd hei
  have hp : p ∈ (ends i).nodes (Q i) := by rw [hold]; simp
  have hc : c ∈ (ends i).nodes (Q i) := by rw [hold]; simp
  have hother : ∀ j, j ≠ i → ∀ x ∈ (ends j).nodes (Q j), x ≠ p ∧ x ≠ e ∧ x ≠ c := by
    refine fun j hj x hx => ⟨?_, ?_, ?_⟩
    · rintro rfl; exact hr.disjoint i j hj.symm x hp hx
    · rintro rfl; exact he j hx
    · rintro rfl; exact hr.disjoint i j hj.symm x hc hx
  have hcne : c ≠ (ends i).head := by
    rintro hceq
    cases l₁ with
    | nil =>
      have : (ends i).head = p := by simpa [ListEnds.nodes] using congrArg List.head? hold
      rw [List.nil_append, List.nodup_cons] at hnd
      exact hnd.1 (by rw [← this, ← hceq]; simp)
    | cons x l₁ =>
      have : (ends i).head = x := by simpa [ListEnds.nodes] using congrArg List.head? hold
      rw [List.cons_append, List.nodup_cons] at hnd
      exact hnd.1 (by rw [← this, ← hceq]; simp)
  have hpne : p ≠ (ends i).tail := by
    intro hpeq
    have hsplit : (ends i).nodes (Q i) = ((ends i).head :: Q i) ++ [(ends i).tail] := rfl
    have hlast : (c :: l₂).getLast (by simp) = (ends i).tail := by
      have h₁ : (l₁ ++ p :: c :: l₂).getLast (by simp) = (ends i).tail := by
        simp only [← hold, hsplit, List.getLast_concat]
      simpa [List.getLast_append] using h₁
    have hnd' := (List.nodup_append.mp hnd).2.1
    rw [List.nodup_cons] at hnd'
    exact hnd'.1 (hpeq ▸ hlast ▸ List.getLast_mem _)
  have hetail : e ≠ (ends i).tail := fun heq => he i (by simp [ListEnds.nodes, heq])
  refine hr.update ⟨?_, ?_, ?_, ?_⟩ ?_ ?_
  · change ((ends i).nodes xs).IsChain _
    rw [hnew]
    exact isChain_spliceIn hchain hnd hei
  · have : ((OsKernel.Lib.spliceIn h p e c).get (ends i).head).prev
        = (h.get (ends i).head).prev := by
      simp [OsKernel.Lib.spliceIn, LinkHeap.prev_setNext, LinkHeap.prev_setPrev, hcne.symm,
        hhead.symm]
    rw [this]; exact hi.head_prev
  · have : ((OsKernel.Lib.spliceIn h p e c).get (ends i).tail).next
        = (h.get (ends i).tail).next := by
      simp [OsKernel.Lib.spliceIn, LinkHeap.next_setNext, LinkHeap.next_setPrev, hpne.symm,
        hetail.symm]
    rw [this]; exact hi.tail_next
  · change ((ends i).nodes xs).Nodup
    rw [hnew]
    have hperm : (l₁ ++ p :: e :: c :: l₂).Perm (e :: (l₁ ++ p :: c :: l₂)) := by
      have hmid : ((l₁ ++ [p]) ++ e :: (c :: l₂)).Perm (e :: ((l₁ ++ [p]) ++ (c :: l₂))) :=
        List.perm_middle
      simpa using hmid
    exact hperm.nodup_iff.mpr (List.nodup_cons.mpr ⟨hei, hnd⟩)
  · intro j hj x hx
    obtain ⟨hxp, hxe, hxc⟩ := hother j hj x hx
    exact spliceIn_get_of_ne hxp hxe hxc
  · intro x hx j hj hxj
    rw [hnew] at hx
    obtain ⟨-, hxe, -⟩ := hother j hj x hxj
    have hx' : x ∈ (ends i).nodes (Q i) := by
      rw [hold]
      simp only [List.mem_append, List.mem_cons] at hx ⊢
      tauto
    exact hr.disjoint i j hj.symm x hx' hxj

/-- **Removal**: splicing out the node `e` of list `i` deletes it there and changes no other
list. -/
theorem Represents.spliceOut (hr : Represents ends h Q) {i : ι} {l₁ l₂ xs : List α} {p e c : α}
    (hold : (ends i).nodes (Q i) = l₁ ++ p :: e :: c :: l₂)
    (hnew : (ends i).nodes xs = l₁ ++ p :: c :: l₂) :
    Represents ends (spliceOut h p c) (Function.update Q i xs) := by
  have hi := hr.dlist i
  have hchain := hi.chain
  have hnd := hi.nodup
  change ((ends i).nodes (Q i)).IsChain _ at hchain
  change ((ends i).nodes (Q i)).Nodup at hnd
  rw [hold] at hchain hnd
  have hsub : ∀ x ∈ (ends i).nodes xs, x ∈ (ends i).nodes (Q i) := by
    intro x hx
    rw [hnew] at hx
    rw [hold]
    simp only [List.mem_append, List.mem_cons] at hx ⊢
    tauto
  have hp : p ∈ (ends i).nodes (Q i) := by rw [hold]; simp
  have hc : c ∈ (ends i).nodes (Q i) := by rw [hold]; simp
  have hnd' : ((ends i).nodes xs).Nodup := by
    rw [hnew]
    refine hnd.sublist (List.Sublist.append_left ?_ l₁)
    exact (List.sublist_cons_self e (c :: l₂)).cons_cons p
  have hcne : c ≠ (ends i).head := by
    rintro hceq
    have hne : (ends i).head ∉ xs ++ [(ends i).tail] := (List.nodup_cons.mp hnd').1
    have hlast : c ∈ ((ends i).nodes xs).tail := by
      rw [hnew]
      cases l₁ with
      | nil => simp
      | cons x l₁ => simp
    exact hne (hceq ▸ hlast)
  have hpne : p ≠ (ends i).tail := by
    intro hpeq
    have hmem : p ∈ ((ends i).nodes xs).dropLast := by
      rw [hnew, List.dropLast_append_of_ne_nil (by simp)]
      simp [List.dropLast_cons_of_ne_nil]
    have hrw : ((ends i).nodes xs).dropLast = (ends i).head :: xs := by
      change ((ends i).head :: xs ++ [(ends i).tail]).dropLast = _
      rw [List.dropLast_concat]
    rw [hrw, hpeq] at hmem
    have hcat : ((ends i).head :: xs ++ [(ends i).tail]).Nodup := hnd'
    exact (List.nodup_append.mp hcat).2.2 _ hmem _ (List.mem_singleton_self _) rfl
  refine hr.update ⟨?_, ?_, ?_, hnd'⟩ ?_ ?_
  · change ((ends i).nodes xs).IsChain _
    rw [hnew]
    exact isChain_spliceOut hchain hnd
  · have : ((OsKernel.Lib.spliceOut h p c).get (ends i).head).prev
        = (h.get (ends i).head).prev := by
      simp [OsKernel.Lib.spliceOut, LinkHeap.prev_setNext, LinkHeap.prev_setPrev, hcne.symm]
    rw [this]; exact hi.head_prev
  · have : ((OsKernel.Lib.spliceOut h p c).get (ends i).tail).next
        = (h.get (ends i).tail).next := by
      simp [OsKernel.Lib.spliceOut, LinkHeap.next_setNext, LinkHeap.next_setPrev, hpne.symm]
    rw [this]; exact hi.tail_next
  · intro j hj x hx
    refine spliceOut_get_of_ne ?_ ?_
    · rintro rfl; exact hr.disjoint i j hj.symm x hp hx
    · rintro rfl; exact hr.disjoint i j hj.symm x hc hx
  · exact fun x hx j hj => hr.disjoint i j hj.symm x (hsub x hx)

end OsKernel.Lib
