import Mathlib.Data.Finmap
import Mathlib.Data.List.Chain

/-! # Circular doubly linked lists

A heap maps the addresses that are allocated to cells.  A cell has two link fields, which
may be null, and a value.  A *ring* is a circular doubly linked list: an anchor `c`, and
the cells after it, in order (`IsRing`).

What a program may do to the links of a ring is stated by its effect: `Inserted` says that a
cell has been put between two others, `Removed` that it has been taken out.  The rules are
`IsRing.insert` and `IsRing.remove`; a ring does not notice what is done elsewhere
(`IsRing.congr`).

Several rings in one heap, and cells that are in none, are `Owns`: every cell allocated is in
exactly one place.
-/
namespace LinkedRing

/-! ## Cells -/

/-- A cell: two links, null or not, and what else is in it. -/
structure Cell (N V : Type) where
  next : Option N
  prev : Option N
  val : V

/-- The cells that are allocated. -/
abbrev Heap (N V : Type) := Finmap (fun _ : N => Cell N V)

namespace Heap
variable {N V : Type} [DecidableEq N]

/-- The link forwards, if the cell is allocated and the link is not null. -/
def next (h : Heap N V) (a : N) : Option N := (h.lookup a).bind Cell.next

def prev (h : Heap N V) (a : N) : Option N := (h.lookup a).bind Cell.prev

def val (h : Heap N V) (a : N) : Option V := (h.lookup a).map Cell.val

/-- Assigning to a cell, which must be allocated. -/
def modify (h : Heap N V) (a : N) (f : Cell N V → Cell N V) : Option (Heap N V) :=
  (h.lookup a).map (fun c => h.insert a (f c))

def setNext (h : Heap N V) (a : N) (v : Option N) : Option (Heap N V) :=
  h.modify a (fun c => { c with next := v })

def setPrev (h : Heap N V) (a : N) (v : Option N) : Option (Heap N V) :=
  h.modify a (fun c => { c with prev := v })

def setVal (h : Heap N V) (a : N) (v : V) : Option (Heap N V) :=
  h.modify a (fun c => { c with val := v })

/-- A cell whose links are not set yet. -/
def alloc (h : Heap N V) (a : N) (v : V) : Heap N V := h.insert a ⟨none, none, v⟩

/-- Giving a cell back, which must be allocated. -/
def free (h : Heap N V) (a : N) : Option (Heap N V) := (h.lookup a).map (fun _ => h.erase a)

variable {h h' : Heap N V} {a b : N}

theorem mem_of_next (hn : h.next a = some b) : a ∈ h := by
  obtain ⟨c, hc, -⟩ := Option.bind_eq_some_iff.mp hn
  exact Finmap.mem_of_lookup_eq_some hc

theorem modify_spec (ha : a ∈ h) (f : Cell N V → Cell N V) :
    ∃ h', h.modify a f = some h' ∧ (∀ b, b ∈ h' ↔ b ∈ h) ∧
      (∀ b ≠ a, h'.lookup b = h.lookup b) ∧ h'.lookup a = (h.lookup a).map f := by
  obtain ⟨c, hc⟩ := Finmap.mem_iff.mp ha
  refine ⟨h.insert a (f c), ?_, ?_, ?_, ?_⟩
  · rw [modify, hc]
    rfl
  · intro b
    rw [Finmap.mem_insert]
    constructor
    · rintro (rfl | hb)
      · exact ha
      · exact hb
    · exact Or.inr
  · intro b hb
    exact Finmap.lookup_insert_of_ne h hb
  · rw [Finmap.lookup_insert, hc]
    rfl

theorem setVal_spec (ha : a ∈ h) (v : V) :
    ∃ h', h.setVal a v = some h' ∧ h'.next = h.next ∧ h'.prev = h.prev ∧
      h'.val = Function.update h.val a (some v) ∧ ∀ b, b ∈ h' ↔ b ∈ h := by
  obtain ⟨h', he, hmem, hother, hself⟩ := modify_spec ha (fun c => { c with val := v })
  obtain ⟨c, hc⟩ := Finmap.mem_iff.mp ha
  refine ⟨h', he, funext fun b => ?_, funext fun b => ?_, funext fun b => ?_, hmem⟩
  all_goals by_cases hb : b = a
  · subst hb
    simp [next, hself, hc]
  · simp [next, hother b hb]
  · subst hb
    simp [prev, hself, hc]
  · simp [prev, hother b hb]
  · subst hb
    simp [val, hself, hc]
  · simp [val, hother b hb, Function.update_of_ne hb]

@[simp] theorem mem_alloc {v : V} : b ∈ h.alloc a v ↔ b = a ∨ b ∈ h := Finmap.mem_insert

theorem lookup_alloc_of_ne {v : V} (hb : b ≠ a) : (h.alloc a v).lookup b = h.lookup b :=
  Finmap.lookup_insert_of_ne h hb

@[simp] theorem val_alloc_self {v : V} : (h.alloc a v).val a = some v := by
  simp [val, alloc, Finmap.lookup_insert]

theorem free_spec (ha : a ∈ h) :
    ∃ h', h.free a = some h' ∧ (∀ b, b ∈ h' ↔ b ≠ a ∧ b ∈ h) ∧
      ∀ b ≠ a, h'.lookup b = h.lookup b := by
  obtain ⟨c, hc⟩ := Finmap.mem_iff.mp ha
  refine ⟨h.erase a, ?_, fun b => Finmap.mem_erase, fun b hb => Finmap.lookup_erase_ne hb⟩
  rw [free, hc]
  rfl

end Heap

/-! ## Around a place

A ring with the anchor `c` is cut at the place between `as` and `bs`.  The cells around the
place are `as.getLastD c` and `bs.headD c`. -/

section Around
variable {N : Type} {c : N} {as bs : List N}

theorem getLast?_cons_eq (c : N) (as : List N) : (c :: as).getLast? = some (as.getLastD c) := by
  rw [List.getLast?_cons, List.getLastD_eq_getLast?]

theorem head?_append_eq (c : N) (bs : List N) : (bs ++ [c]).head? = some (bs.headD c) := by
  cases bs <;> rfl

theorem lastD_mem (c : N) (as : List N) : as.getLastD c ∈ c :: as :=
  List.mem_of_getLast? (getLast?_cons_eq c as)

theorem headD_mem (c : N) (bs : List N) : bs.headD c ∈ bs ++ [c] :=
  List.mem_of_head? (head?_append_eq c bs)

theorem chain_append_iff {R : N → N → Prop} (c : N) (as bs : List N) :
    (c :: (as ++ bs ++ [c])).IsChain R ↔
      (c :: as).IsChain R ∧ (bs ++ [c]).IsChain R ∧ R (as.getLastD c) (bs.headD c) := by
  rw [List.append_assoc, ← List.cons_append, List.isChain_append, getLast?_cons_eq, head?_append_eq]
  simp

theorem chain_cons_iff {R : N → N → Prop} (x c : N) (bs : List N) :
    (x :: (bs ++ [c])).IsChain R ↔ R x (bs.headD c) ∧ (bs ++ [c]).IsChain R := by
  rw [List.isChain_cons, head?_append_eq]
  simp

section Nodup
variable (hnd : (c :: (as ++ bs)).Nodup)
include hnd

theorem lastD_notMem_dropLast : as.getLastD c ∉ (c :: as).dropLast := by
  have hsplit := List.dropLast_append_getLast? _ (getLast?_cons_eq c as)
  have hnodup : (c :: as).Nodup := hnd.sublist (by simp)
  rw [← hsplit] at hnodup
  intro hmem
  exact (List.nodup_append.mp hnodup).2.2 _ hmem _ (by simp) rfl

theorem lastD_notMem_after : as.getLastD c ∉ bs := by
  intro hmem
  rcases List.mem_cons.mp (lastD_mem c as) with hc | ha
  · rw [hc] at hmem
    exact (List.nodup_cons.mp hnd).1 (List.mem_append_right _ hmem)
  · exact (List.nodup_append.mp (List.nodup_cons.mp hnd).2).2.2 _ ha _ hmem rfl

theorem headD_notMem_before : bs.headD c ∉ as := by
  intro hmem
  rcases List.mem_append.mp (headD_mem c bs) with hb | hc
  · exact (List.nodup_append.mp (List.nodup_cons.mp hnd).2).2.2 _ hmem _ hb rfl
  · rw [List.mem_singleton.mp hc] at hmem
    exact (List.nodup_cons.mp hnd).1 (List.mem_append_left _ hmem)

theorem headD_notMem_tail : bs.headD c ∉ (bs ++ [c]).tail := by
  cases bs with
  | nil => simp
  | cons b bs =>
    simp only [List.cons_append, List.tail_cons, List.headD_cons, List.mem_append,
      List.mem_singleton, not_or]
    have hcons := List.nodup_cons.mp hnd
    constructor
    · exact (List.nodup_cons.mp (List.nodup_append.mp hcons.2).2.1).1
    · rintro rfl
      exact hcons.1 (by simp)

end Nodup
end Around

/-! ## Rings -/

section Ring
variable {N V : Type} [DecidableEq N] {h h' : Heap N V} {a b c x : N} {xs as bs : List N}

/-- `a` and `b` point at each other. -/
def Linked (h : Heap N V) (a b : N) : Prop := h.next a = some b ∧ h.prev b = some a

/-- The circular list at the anchor `c`. -/
structure IsRing (h : Heap N V) (c : N) (xs : List N) : Prop where
  nodup : (c :: xs).Nodup
  chain : (c :: (xs ++ [c])).IsChain (Linked h)

/-- A chain of links depends on the links forwards of all but its last cell, and on the
links backwards of all but its first. -/
theorem isChain_congr {l : List N} (hc : l.IsChain (Linked h))
    (hnext : ∀ a ∈ l.dropLast, h'.next a = h.next a) (hprev : ∀ b ∈ l.tail, h'.prev b = h.prev b) :
    l.IsChain (Linked h') := by
  induction l with
  | nil => exact List.isChain_nil
  | cons a rest ih =>
    cases rest with
    | nil => exact List.isChain_singleton a
    | cons b rest =>
      obtain ⟨⟨hab, hba⟩, hrest⟩ := List.isChain_cons_cons.mp hc
      refine List.isChain_cons_cons.mpr ⟨⟨?_, ?_⟩, ih hrest ?_ ?_⟩
      · rw [hnext a (by simp), hab]
      · rw [hprev b (by simp), hba]
      · intro y hy
        exact hnext y (by simp [hy])
      · intro y hy
        exact hprev y (by simp only [List.tail_cons] at hy ⊢; exact List.mem_cons_of_mem _ hy)

/-- What is done at a place does not break the chains on its two sides. -/
theorem sides_congr (hnd : (c :: (as ++ bs)).Nodup) (hfront : (c :: as).IsChain (Linked h))
    (hback : (bs ++ [c]).IsChain (Linked h))
    (hnext : ∀ a ∈ c :: (as ++ bs), a ≠ as.getLastD c → h'.next a = h.next a)
    (hprev : ∀ b ∈ c :: (as ++ bs), b ≠ bs.headD c → h'.prev b = h.prev b) :
    (c :: as).IsChain (Linked h') ∧ (bs ++ [c]).IsChain (Linked h') := by
  constructor
  · refine isChain_congr hfront (fun a ha => hnext a ?_ ?_) (fun b hb => hprev b ?_ ?_)
    · exact (List.Sublist.subset (by simp) (List.dropLast_subset _ ha) : a ∈ c :: (as ++ bs))
    · rintro rfl
      exact lastD_notMem_dropLast hnd ha
    · rw [List.tail_cons] at hb
      simp [hb]
    · rintro rfl
      exact headD_notMem_before hnd hb
  · refine isChain_congr hback (fun a ha => hnext a ?_ ?_) (fun b hb => hprev b ?_ ?_)
    · rw [List.dropLast_concat] at ha
      simp [ha]
    · rw [List.dropLast_concat] at ha
      rintro rfl
      exact lastD_notMem_after hnd ha
    · have hmem := List.mem_of_mem_tail hb
      simp only [List.mem_append, List.mem_cons] at hmem ⊢
      tauto
    · rintro rfl
      exact headD_notMem_tail hnd hb

namespace IsRing

/-- The cells of a ring are allocated. -/
theorem mem (hr : IsRing h c xs) (ha : a ∈ c :: xs) : a ∈ h := by
  obtain ⟨as, bs, hsplit⟩ := List.append_of_mem ha
  have hchain := hr.chain
  rw [← List.cons_append, hsplit, List.append_assoc, List.cons_append] at hchain
  have hlinked := ((chain_cons_iff a c bs).mp (List.isChain_append.mp hchain).2.1).1
  exact Heap.mem_of_next hlinked.1

/-- **A ring does not notice what is done elsewhere.** -/
theorem congr (hr : IsRing h c xs)
    (hsame : ∀ a ∈ c :: xs, h'.next a = h.next a ∧ h'.prev a = h.prev a) : IsRing h' c xs := by
  refine ⟨hr.nodup, isChain_congr hr.chain ?_ ?_⟩
  · intro a ha
    rw [← List.cons_append, List.dropLast_concat] at ha
    exact (hsame a ha).1
  · intro b hb
    refine (hsame b ?_).2
    simpa [or_comm] using hb

end IsRing

/-! ## Putting a cell in and taking it out -/

/-- From `h` to `h'` the cell `x` has been put between `p` and `n`. -/
structure Inserted (h h' : Heap N V) (p x n : N) : Prop where
  next : h'.next = Function.update (Function.update h.next x (some n)) p (some x)
  prev : h'.prev = Function.update (Function.update h.prev x (some p)) n (some x)
  val : h'.val = h.val
  mem : ∀ a, a ∈ h' ↔ a ∈ h

/-- From `h` to `h'` the cell `x` has been taken out from between `p` and `n`. -/
structure Removed (h h' : Heap N V) (p x n : N) : Prop where
  next : h'.next = Function.update (Function.update h.next p (some n)) x none
  prev : h'.prev = Function.update (Function.update h.prev n (some p)) x none
  val : h'.val = h.val
  mem : ∀ a, a ∈ h' ↔ a ∈ h

/-- **A cell is put in.** -/
theorem IsRing.insert (hr : IsRing h c (as ++ bs)) (hx : x ∉ c :: (as ++ bs))
    (hi : Inserted h h' (as.getLastD c) x (bs.headD c)) : IsRing h' c (as ++ x :: bs) := by
  have hnd := hr.nodup
  obtain ⟨hfront, hback, -⟩ := (chain_append_iff c as bs).mp hr.chain
  have hparts : x ≠ c ∧ x ∉ as ∧ x ∉ bs := by simpa using hx
  have hxp : x ≠ as.getLastD c := by
    rintro he
    have hp := lastD_mem c as
    rw [← he] at hp
    simp_all
  have hxn : x ≠ bs.headD c := by
    rintro he
    have hn := headD_mem c bs
    rw [← he] at hn
    simp_all
  have hother : ∀ a ∈ c :: (as ++ bs), a ≠ x := by
    rintro a ha rfl
    exact hx ha
  have hsides : (c :: as).IsChain (Linked h') ∧ (bs ++ [c]).IsChain (Linked h') :=
    sides_congr hnd hfront hback
    (fun a ha hap => by
      rw [hi.next, Function.update_of_ne hap, Function.update_of_ne (hother a ha)])
    (fun b hb hbn => by
      rw [hi.prev, Function.update_of_ne hbn, Function.update_of_ne (hother b hb)])
  obtain ⟨hfront', hback'⟩ := hsides
  have hpx : Linked h' (as.getLastD c) x := by
    constructor
    · rw [hi.next, Function.update_self]
    · rw [hi.prev, Function.update_of_ne hxn, Function.update_self]
  have hxn' : Linked h' x (bs.headD c) := by
    constructor
    · rw [hi.next, Function.update_of_ne hxp, Function.update_self]
    · rw [hi.prev, Function.update_self]
  constructor
  · rw [← List.cons_append] at hnd hx ⊢
    exact List.nodup_middle.mpr (List.nodup_cons.mpr ⟨hx, hnd⟩)
  · exact (chain_append_iff c as (x :: bs)).mpr
      ⟨hfront', (chain_cons_iff x c bs).mpr ⟨hxn', hback'⟩, hpx⟩

/-- **A cell is taken out.** -/
theorem IsRing.remove (hr : IsRing h c (as ++ x :: bs))
    (hm : Removed h h' (as.getLastD c) x (bs.headD c)) : IsRing h' c (as ++ bs) := by
  obtain ⟨hfront, hrest, -⟩ := (chain_append_iff c as (x :: bs)).mp hr.chain
  have hback := ((chain_cons_iff x c bs).mp hrest).2
  have hnodup : (x :: (c :: (as ++ bs))).Nodup := by
    have hnd := hr.nodup
    rw [← List.cons_append] at hnd ⊢
    exact List.nodup_middle.mp hnd
  obtain ⟨hx, hnd⟩ := List.nodup_cons.mp hnodup
  have hparts : x ≠ c ∧ x ∉ as ∧ x ∉ bs := by simpa using hx
  have hother : ∀ a ∈ c :: (as ++ bs), a ≠ x := by
    rintro a ha rfl
    exact hx ha
  have hpx : as.getLastD c ≠ x := by
    refine hother _ ?_
    have hp := lastD_mem c as
    simp only [List.mem_cons, List.mem_append] at hp ⊢
    tauto
  have hnx : bs.headD c ≠ x := by
    refine hother _ ?_
    have hn := headD_mem c bs
    simp only [List.mem_cons, List.mem_append] at hn ⊢
    tauto
  have hsides : (c :: as).IsChain (Linked h') ∧ (bs ++ [c]).IsChain (Linked h') :=
    sides_congr hnd hfront hback
    (fun a ha hap => by
      rw [hm.next, Function.update_of_ne (hother a ha), Function.update_of_ne hap])
    (fun b hb hbn => by
      rw [hm.prev, Function.update_of_ne (hother b hb), Function.update_of_ne hbn])
  obtain ⟨hfront', hback'⟩ := hsides
  refine ⟨hnd, (chain_append_iff c as bs).mpr ⟨hfront', hback', ?_, ?_⟩⟩
  · rw [hm.next, Function.update_of_ne hpx, Function.update_self]
  · rw [hm.prev, Function.update_of_ne hnx, Function.update_self]

end Ring

/-! ## Several rings in one heap -/

/-- The addresses of a heap with one anchor for each `q : Q`. -/
inductive Place (Q M : Type) where
  | head (q : Q)
  | node (m : M)
  deriving DecidableEq

section Family
variable {Q M V : Type} [DecidableEq Q] [DecidableEq M] {h h' : Heap (Place Q M) V}
  {nodes : Q → List M} {loose : List M} {q : Q} {m : M} {as bs : List M}

/-- The heap consists of one ring for each anchor, and of the cells `loose`. -/
structure Owns (h : Heap (Place Q M) V) (nodes : Q → List M) (loose : List M) : Prop where
  ring : ∀ q, IsRing h (.head q) ((nodes q).map .node)
  apart : ∀ q q' m, m ∈ nodes q → m ∈ nodes q' → q = q'
  fresh : ∀ q m, m ∈ nodes q → m ∉ loose
  nodup : loose.Nodup
  mem : ∀ m, Place.node m ∈ h ↔ (∃ q, m ∈ nodes q) ∨ m ∈ loose

/-- The cells of the ring at `q`, with its anchor. -/
abbrev ringCells (nodes : Q → List M) (q : Q) : List (Place Q M) :=
  .head q :: (nodes q).map .node

omit [DecidableEq Q] [DecidableEq M] in
theorem node_mem_ringCells : Place.node m ∈ ringCells nodes q ↔ m ∈ nodes q := by
  simp [ringCells]

namespace Owns

theorem ringCells_apart (ho : Owns h nodes loose) {q q' : Q} (hne : q ≠ q') {a : Place Q M}
    (ha : a ∈ ringCells nodes q) : a ∉ ringCells nodes q' := by
  intro ha'
  cases a with
  | head r =>
    simp only [ringCells, List.mem_cons, List.mem_map, Place.head.injEq, reduceCtorEq, and_false,
      exists_false, or_false] at ha ha'
    exact hne (ha.symm.trans ha')
  | node m => exact hne (ho.apart q q' m (node_mem_ringCells.mp ha) (node_mem_ringCells.mp ha'))

theorem loose_notMem (ho : Owns h nodes loose) (hm : m ∈ loose) (q : Q) :
    Place.node m ∉ ringCells nodes q :=
  fun h => ho.fresh q m (node_mem_ringCells.mp h) hm

theorem mem_loose (ho : Owns h nodes loose) (hm : m ∈ loose) : Place.node m ∈ h :=
  (ho.mem m).mpr (Or.inr hm)

/-- The rings stay the same when nothing but the links of loose cells is written. -/
theorem ring_congr (ho : Owns h nodes loose) (q : Q)
    (hsame : ∀ a ∈ ringCells nodes q, h'.next a = h.next a ∧ h'.prev a = h.prev a) :
    IsRing h' (.head q) ((nodes q).map .node) := (ho.ring q).congr hsame

/-- **A loose cell is put into a ring.** -/
theorem insert (ho : Owns h nodes (m :: loose)) (hq : nodes q = as ++ bs)
    (hi : Inserted h h' ((as.map .node).getLastD (.head q)) (.node m)
      ((bs.map .node).headD (.head q))) :
    Owns h' (Function.update nodes q (as ++ m :: bs)) loose := by
  have hm : m ∈ m :: loose := List.mem_cons_self ..
  have hring := ho.ring q
  have hnot := ho.loose_notMem hm q
  rw [ringCells, hq, List.map_append] at hnot
  rw [hq, List.map_append] at hring
  have hmem : ∀ q' m', m' ∈ Function.update nodes q (as ++ m :: bs) q' ↔
      m' ∈ nodes q' ∨ (q' = q ∧ m' = m) := by
    intro q' m'
    by_cases hqq : q' = q
    · subst hqq
      rw [Function.update_self, hq]
      simp only [List.mem_append, List.mem_cons]
      tauto
    · rw [Function.update_of_ne hqq]
      simp [hqq]
  have hloose := List.nodup_cons.mp ho.nodup
  refine ⟨fun q' => ?_, fun q₁ q₂ m' h₁ h₂ => ?_, fun q' m' h₁ h₂ => ?_, hloose.2, fun m' => ?_⟩
  · by_cases hqq : q' = q
    · subst hqq
      rw [Function.update_self, List.map_append, List.map_cons]
      exact hring.insert hnot hi
    · rw [Function.update_of_ne hqq]
      refine ho.ring_congr q' fun a ha => ?_
      have hax : a ≠ .node m := by
        rintro rfl
        exact ho.loose_notMem hm q' ha
      have hap : ∀ b ∈ ringCells nodes q, a ≠ b := by
        rintro b hb rfl
        exact ho.ringCells_apart hqq ha hb
      have hp := lastD_mem (Place.head q) (as.map (Place.node (Q := Q)))
      have hn := headD_mem (Place.head q) (bs.map (Place.node (Q := Q)))
      rw [hi.next, hi.prev, Function.update_of_ne (hap _ ?_), Function.update_of_ne hax,
        Function.update_of_ne (hap _ ?_), Function.update_of_ne hax]
      · exact ⟨rfl, rfl⟩
      · rw [ringCells, hq, List.map_append]
        simp only [List.mem_cons, List.mem_append] at hn ⊢
        tauto
      · rw [ringCells, hq, List.map_append]
        simp only [List.mem_cons, List.mem_append] at hp ⊢
        tauto
  · rcases (hmem q₁ m').mp h₁ with hold | ⟨rfl, rfl⟩
    · rcases (hmem q₂ m').mp h₂ with hold' | ⟨rfl, rfl⟩
      · exact ho.apart q₁ q₂ m' hold hold'
      · exact absurd hm (ho.fresh q₁ _ hold)
    · rcases (hmem q₂ m').mp h₂ with hold' | ⟨rfl, -⟩
      · exact absurd hm (ho.fresh q₂ _ hold')
      · rfl
  · rcases (hmem q' m').mp h₁ with h₁ | ⟨rfl, rfl⟩
    · exact ho.fresh q' m' h₁ (List.mem_cons_of_mem _ h₂)
    · exact hloose.1 h₂
  · rw [hi.mem, ho.mem]
    simp only [hmem, List.mem_cons]
    constructor
    · rintro (⟨q', h'⟩ | rfl | h')
      · exact Or.inl ⟨q', Or.inl h'⟩
      · exact Or.inl ⟨q, Or.inr ⟨rfl, rfl⟩⟩
      · exact Or.inr h'
    · rintro (⟨q', h' | ⟨-, rfl⟩⟩ | h')
      · exact Or.inl ⟨q', h'⟩
      · exact Or.inr (Or.inl rfl)
      · exact Or.inr (Or.inr h')

/-- **A cell is taken out of its ring.** -/
theorem remove (ho : Owns h nodes loose) (hq : nodes q = as ++ m :: bs)
    (hm : Removed h h' ((as.map .node).getLastD (.head q)) (.node m)
      ((bs.map .node).headD (.head q))) :
    Owns h' (Function.update nodes q (as ++ bs)) (m :: loose) := by
  have hring := ho.ring q
  have hnd := hring.nodup
  rw [hq, List.map_append, List.map_cons] at hring
  have hin : m ∈ nodes q := by
    rw [hq]
    simp
  have hout : m ∉ as ++ bs := by
    have hnodup : (nodes q).Nodup := List.Nodup.of_map _ (List.nodup_cons.mp hnd).2
    rw [hq] at hnodup
    exact (List.nodup_cons.mp (List.nodup_middle.mp hnodup)).1
  have hmem : ∀ q' m', m' ∈ Function.update nodes q (as ++ bs) q' ↔ m' ∈ nodes q' ∧ m' ≠ m := by
    intro q' m'
    by_cases hqq : q' = q
    · subst hqq
      rw [Function.update_self, hq]
      constructor
      · intro h'
        refine ⟨?_, fun he => hout (he ▸ h')⟩
        simp only [List.mem_append, List.mem_cons] at h' ⊢
        tauto
      · rintro ⟨h', hne⟩
        simp only [List.mem_append, List.mem_cons] at h' ⊢
        tauto
    · rw [Function.update_of_ne hqq]
      refine ⟨fun h' => ⟨h', ?_⟩, fun h' => h'.1⟩
      rintro rfl
      exact hqq (ho.apart q' q _ h' hin)
  refine ⟨fun q' => ?_, fun q₁ q₂ m' h₁ h₂ => ?_, fun q' m' h₁ h₂ => ?_, ?_, fun m' => ?_⟩
  · by_cases hqq : q' = q
    · subst hqq
      rw [Function.update_self, List.map_append]
      exact hring.remove hm
    · rw [Function.update_of_ne hqq]
      refine ho.ring_congr q' fun a ha => ?_
      have hap : ∀ b ∈ ringCells nodes q, a ≠ b := by
        rintro b hb rfl
        exact ho.ringCells_apart hqq ha hb
      have hp := lastD_mem (Place.head q) (as.map (Place.node (Q := Q)))
      have hn := headD_mem (Place.head q) (bs.map (Place.node (Q := Q)))
      have hself := hap _ (node_mem_ringCells.mpr hin)
      rw [hm.next, hm.prev, Function.update_of_ne hself, Function.update_of_ne (hap _ ?_),
        Function.update_of_ne hself, Function.update_of_ne (hap _ ?_)]
      · exact ⟨rfl, rfl⟩
      · rw [ringCells, hq, List.map_append, List.map_cons]
        simp only [List.mem_cons, List.mem_append] at hn ⊢
        tauto
      · rw [ringCells, hq, List.map_append, List.map_cons]
        simp only [List.mem_cons, List.mem_append] at hp ⊢
        tauto
  · exact ho.apart q₁ q₂ m' ((hmem q₁ m').mp h₁).1 ((hmem q₂ m').mp h₂).1
  · obtain ⟨h₁, hne⟩ := (hmem q' m').mp h₁
    rcases List.mem_cons.mp h₂ with he | h₂
    · exact hne he
    · exact ho.fresh q' m' h₁ h₂
  · exact List.nodup_cons.mpr ⟨ho.fresh q m hin, ho.nodup⟩
  · rw [hm.mem, ho.mem]
    simp only [hmem, List.mem_cons]
    constructor
    · rintro (⟨q', h'⟩ | h')
      · by_cases he : m' = m
        · exact Or.inr (Or.inl he)
        · exact Or.inl ⟨q', h', he⟩
      · exact Or.inr (Or.inr h')
    · rintro (⟨q', h', -⟩ | rfl | h')
      · exact Or.inl ⟨q', h'⟩
      · exact Or.inl ⟨q, hin⟩
      · exact Or.inr h'

/-- **A new cell is loose.** -/
theorem alloc (ho : Owns h nodes loose) (hm : Place.node m ∉ h) (v : V) :
    Owns (h.alloc (.node m) v) nodes (m :: loose) := by
  have hin : ∀ q, m ∉ nodes q := fun q h' => hm ((ho.mem m).mpr (Or.inl ⟨q, h'⟩))
  have hloose : m ∉ loose := fun h' => hm ((ho.mem m).mpr (Or.inr h'))
  refine ⟨fun q => ho.ring_congr q fun a ha => ?_, ho.apart, fun q m' h₁ h₂ => ?_,
    List.nodup_cons.mpr ⟨hloose, ho.nodup⟩, fun m' => ?_⟩
  · have hne : a ≠ .node m := by
      rintro rfl
      exact hin q (node_mem_ringCells.mp ha)
    simp only [Heap.next, Heap.prev, Heap.lookup_alloc_of_ne hne, and_self]
  · rcases List.mem_cons.mp h₂ with rfl | h₂
    · exact hin q h₁
    · exact ho.fresh q m' h₁ h₂
  · rw [Heap.mem_alloc, ho.mem, List.mem_cons, Place.node.injEq]
    tauto

/-- **A loose cell can be given back.** -/
theorem free (ho : Owns h nodes (m :: loose)) :
    ∃ h', h.free (.node m) = some h' ∧ Owns h' nodes loose ∧
      ∀ m' ≠ m, h'.val (.node m') = h.val (.node m') := by
  have hm : m ∈ m :: loose := List.mem_cons_self ..
  obtain ⟨hloose, hnodup⟩ := List.nodup_cons.mp ho.nodup
  obtain ⟨h', he, hmem, hsame⟩ := Heap.free_spec (ho.mem_loose hm)
  refine ⟨h', he, ⟨fun q => ho.ring_congr q fun a ha => ?_, ho.apart, fun q m' h₁ h₂ => ?_, hnodup,
    fun m' => ?_⟩, fun m' hne => ?_⟩
  · have hne : a ≠ .node m := by
      rintro rfl
      exact ho.loose_notMem hm q ha
    simp only [Heap.next, Heap.prev, hsame a hne, and_self]
  · exact ho.fresh q m' h₁ (List.mem_cons_of_mem _ h₂)
  · rw [hmem, ho.mem, List.mem_cons, ne_eq, Place.node.injEq]
    constructor
    · rintro ⟨hne, h₁ | h₁ | h₁⟩
      · exact Or.inl h₁
      · exact absurd h₁ hne
      · exact Or.inr h₁
    · rintro (⟨q, h₁⟩ | h₁)
      · exact ⟨fun he => ho.fresh q m' h₁ (he ▸ hm), Or.inl ⟨q, h₁⟩⟩
      · exact ⟨fun he => hloose (he ▸ h₁), Or.inr (Or.inr h₁)⟩
  · have hne' : Place.node m' ≠ (Place.node m : Place Q M) := fun h => hne (Place.node.inj h)
    rw [Heap.val, Heap.val, hsame _ hne']

/-- Assigning to a value leaves the rings alone. -/
theorem of_links (ho : Owns h nodes loose) (hnext : h'.next = h.next) (hprev : h'.prev = h.prev)
    (hmem : ∀ a, a ∈ h' ↔ a ∈ h) : Owns h' nodes loose :=
  ⟨fun q => ho.ring_congr q fun a _ => by rw [hnext, hprev]; exact ⟨rfl, rfl⟩, ho.apart, ho.fresh,
    ho.nodup, fun m => (hmem _).trans (ho.mem m)⟩

end Owns
end Family

/-! ## What the cells hold -/

section Contents
variable {Q M S : Type} [DecidableEq Q] [DecidableEq M] {h h' : Heap (Place Q M) (Option S)}
  {cells : Q → List (M × S)} {loose as bs : List (M × S)} {q : Q} {m : M} {x y : S}

/-- The value at a place; an anchor has none. -/
def Heap.entry (h : Heap (Place Q M) (Option S)) (p : Place Q M) : Option S := (h.val p).join

/-- The addresses of cells. -/
abbrev addresses (cells : Q → List (M × S)) (q : Q) : List M := (cells q).map Prod.fst

/-- The heap consists of the rings `cells` and of the cells `loose`, each holding its value. -/
structure Stores (h : Heap (Place Q M) (Option S)) (cells : Q → List (M × S))
    (loose : List (M × S)) : Prop where
  owns : Owns h (addresses cells) (loose.map Prod.fst)
  holds : ∀ q, ∀ c ∈ cells q, h.entry (.node c.1) = some c.2
  holdsLoose : ∀ c ∈ loose, h.entry (.node c.1) = some c.2

omit [DecidableEq M] in
theorem addresses_update (cells : Q → List (M × S)) (q : Q) (l : List (M × S)) :
    addresses (Function.update cells q l) =
      Function.update (addresses cells) q (l.map Prod.fst) := by
  funext q'
  by_cases hqq : q' = q
  · subst hqq
    simp [addresses]
  · simp [addresses, Function.update_of_ne hqq]

omit [DecidableEq M] in
theorem mem_update {cells : Q → List (M × S)} {l : List (M × S)} {q' : Q} {c : M × S}
    (hc : c ∈ Function.update cells q l q') : c ∈ l ∨ c ∈ cells q' := by
  by_cases hqq : q' = q
  · subst hqq
    rw [Function.update_self] at hc
    exact Or.inl hc
  · rw [Function.update_of_ne hqq] at hc
    exact Or.inr hc

/-- Where the cells of a ring begin; the anchor if there are none. -/
def firstPlace (q : Q) (l : List (M × S)) : Place Q M :=
  (l.map (fun c => Place.node c.1)).headD (.head q)

/-- Where they end. -/
def lastPlace (q : Q) (l : List (M × S)) : Place Q M :=
  (l.map (fun c => Place.node c.1)).getLastD (.head q)

omit [DecidableEq Q] [DecidableEq M] in
@[simp] theorem lastPlace_nil : lastPlace q ([] : List (M × S)) = .head q := rfl

namespace Stores

theorem entry_congr {p : Place Q M} (hv : h'.val p = h.val p) : h'.entry p = h.entry p := by
  rw [Heap.entry, Heap.entry, hv]

theorem ring (hs : Stores h cells loose) (hq : cells q = as) :
    IsRing h (.head q) (as.map (fun c => Place.node c.1)) := by
  have hr := hs.owns.ring q
  rw [addresses, hq, List.map_map] at hr
  exact hr

/-- **A loose cell is put into a ring.** -/
theorem insert (hs : Stores h cells ((m, x) :: loose)) (hq : cells q = as ++ bs)
    (hi : Inserted h h' (lastPlace q as) (.node m) (firstPlace q bs)) :
    Stores h' (Function.update cells q (as ++ (m, x) :: bs)) loose := by
  have hval : ∀ p, h'.entry p = h.entry p := fun p => entry_congr (congrFun hi.val p)
  refine ⟨?_, fun q' c hc => ?_, fun c hc => ?_⟩
  · have hn : addresses cells q = as.map Prod.fst ++ bs.map Prod.fst := by
      rw [addresses, hq, List.map_append]
    rw [addresses_update, List.map_append, List.map_cons]
    refine hs.owns.insert hn ?_
    rw [List.map_map, List.map_map]
    exact hi
  · rw [hval]
    rcases mem_update hc with hc | hc
    · rcases List.mem_append.mp hc with hc | hc
      · exact hs.holds q c (by rw [hq]; exact List.mem_append_left _ hc)
      · rcases List.mem_cons.mp hc with rfl | hc
        · exact hs.holdsLoose _ (List.mem_cons_self ..)
        · exact hs.holds q c (by rw [hq]; exact List.mem_append_right _ hc)
    · exact hs.holds q' c hc
  · rw [hval]
    exact hs.holdsLoose c (List.mem_cons_of_mem _ hc)

/-- **A cell is taken out of its ring.** -/
theorem remove (hs : Stores h cells loose) (hq : cells q = as ++ (m, x) :: bs)
    (hm : Removed h h' (lastPlace q as) (.node m) (firstPlace q bs)) :
    Stores h' (Function.update cells q (as ++ bs)) ((m, x) :: loose) := by
  have hval : ∀ p, h'.entry p = h.entry p := fun p => entry_congr (congrFun hm.val p)
  have hold : ∀ c ∈ as ++ (m, x) :: bs, h'.entry (.node c.1) = some c.2 := by
    intro c hc
    rw [hval]
    exact hs.holds q c (by rw [hq]; exact hc)
  refine ⟨?_, fun q' c hc => ?_, fun c hc => ?_⟩
  · have hn : addresses cells q = as.map Prod.fst ++ m :: bs.map Prod.fst := by
      rw [addresses, hq, List.map_append, List.map_cons]
    rw [addresses_update, List.map_append, List.map_cons]
    refine hs.owns.remove hn ?_
    rw [List.map_map, List.map_map]
    exact hm
  · rcases mem_update hc with hc | hc
    · refine hold c ?_
      rcases List.mem_append.mp hc with hc | hc
      · exact List.mem_append_left _ hc
      · exact List.mem_append_right _ (List.mem_cons_of_mem _ hc)
    · rw [hval]
      exact hs.holds q' c hc
  · rcases List.mem_cons.mp hc with rfl | hc
    · exact hold _ (by simp)
    · rw [hval]
      exact hs.holdsLoose c hc

/-- **A new cell is loose.** -/
theorem alloc (hs : Stores h cells loose) (hm : Place.node m ∉ h) (x : S) :
    Stores (h.alloc (.node m) (some x)) cells ((m, x) :: loose) := by
  have hother : ∀ c : M × S, Place.node c.1 ∈ h →
      (h.alloc (.node m) (some x)).entry (.node c.1) = h.entry (.node c.1) := by
    intro c hc
    refine entry_congr ?_
    rw [Heap.val, Heap.val, Heap.lookup_alloc_of_ne]
    intro he
    exact hm (he ▸ hc)
  refine ⟨hs.owns.alloc hm (some x), fun q c hc => ?_, fun c hc => ?_⟩
  · rw [hother c ((hs.owns.mem c.1).mpr (Or.inl ⟨q, List.mem_map_of_mem hc⟩))]
    exact hs.holds q c hc
  · rcases List.mem_cons.mp hc with rfl | hc
    · simp [Heap.entry]
    · rw [hother c ((hs.owns.mem c.1).mpr (Or.inr (List.mem_map_of_mem hc)))]
      exact hs.holdsLoose c hc

/-- **A loose cell can be given back.** -/
theorem free (hs : Stores h cells ((m, x) :: loose)) :
    ∃ h', h.free (.node m) = some h' ∧ Stores h' cells loose := by
  obtain ⟨h', he, howns, hsame⟩ := hs.owns.free
  have hm : m ∈ ((m, x) :: loose).map Prod.fst := by simp
  refine ⟨h', he, howns, fun q c hc => ?_, fun c hc => ?_⟩
  · have hne : c.1 ≠ m := by
      rintro hcm
      exact hs.owns.fresh q c.1 (List.mem_map_of_mem hc) (hcm ▸ hm)
    rw [entry_congr (hsame c.1 hne)]
    exact hs.holds q c hc
  · have hne : c.1 ≠ m := by
      rintro hcm
      have hnd := hs.owns.nodup
      rw [List.map_cons, List.nodup_cons] at hnd
      have hfst : c.1 ∈ loose.map Prod.fst := List.mem_map_of_mem hc
      rw [hcm] at hfst
      exact hnd.1 hfst
    rw [entry_congr (hsame c.1 hne)]
    exact hs.holdsLoose c (List.mem_cons_of_mem _ hc)

/-- **A cell of a ring is assigned to.** -/
theorem assign (hs : Stores h cells loose) (hq : cells q = as ++ (m, x) :: bs) (y : S) :
    ∃ h', h.setVal (.node m) (some y) = some h' ∧
      Stores h' (Function.update cells q (as ++ (m, y) :: bs)) loose := by
  have hin : m ∈ addresses cells q := by simp [addresses, hq]
  have hmem : Place.node m ∈ h := (hs.owns.mem m).mpr (Or.inl ⟨q, hin⟩)
  obtain ⟨h', he, hnext, hprev, hval, hdom⟩ := Heap.setVal_spec hmem (some y)
  have hself : h'.entry (.node m) = some y := by simp [Heap.entry, hval]
  have hother : ∀ c : M × S, c.1 ≠ m → h'.entry (.node c.1) = h.entry (.node c.1) := by
    intro c hne
    refine entry_congr ?_
    rw [hval, Function.update_of_ne (fun h => hne (Place.node.inj h))]
  have hnodup : ((as ++ (m, x) :: bs).map Prod.fst).Nodup := by
    have hnd := (List.nodup_cons.mp (hs.owns.ring q).nodup).2
    rw [← hq]
    exact List.Nodup.of_map _ hnd
  refine ⟨h', he, ?_, fun q' c hc => ?_, fun c hc => ?_⟩
  · rw [addresses_update]
    have hsame : (as ++ (m, y) :: bs).map Prod.fst = addresses cells q := by
      simp [addresses, hq]
    rw [hsame, Function.update_eq_self]
    exact hs.owns.of_links hnext hprev hdom
  · by_cases hqq : q' = q
    · subst hqq
      rw [Function.update_self] at hc
      rw [List.map_append, List.map_cons] at hnodup
      have hout := (List.nodup_cons.mp (List.nodup_middle.mp hnodup)).1
      by_cases hcm : c.1 = m
      · have hfst : ∀ l : List (M × S), c ∈ l → m ∈ l.map Prod.fst := by
          intro l hl
          rw [← hcm]
          exact List.mem_map_of_mem hl
        rcases List.mem_append.mp hc with hc | hc
        · exact absurd (List.mem_append_left _ (hfst as hc)) hout
        · rcases List.mem_cons.mp hc with rfl | hc
          · exact hself
          · exact absurd (List.mem_append_right _ (hfst bs hc)) hout
      · rw [hother c hcm]
        refine hs.holds q' c ?_
        rw [hq]
        rcases List.mem_append.mp hc with hc | hc
        · exact List.mem_append_left _ hc
        · rcases List.mem_cons.mp hc with rfl | hc
          · exact absurd rfl hcm
          · exact List.mem_append_right _ (List.mem_cons_of_mem _ hc)
    · rw [Function.update_of_ne hqq] at hc
      have hne : c.1 ≠ m := by
        rintro hcm
        exact hqq (hs.owns.apart q' q c.1 (List.mem_map_of_mem hc) (hcm ▸ hin))
      rw [hother c hne]
      exact hs.holds q' c hc
  · have hne : c.1 ≠ m := by
      rintro hcm
      exact hs.owns.fresh q m hin (hcm ▸ List.mem_map_of_mem hc)
    rw [hother c hne]
    exact hs.holdsLoose c hc

end Stores
end Contents
end LinkedRing
