import FlexProxy.KcpMemory

/-! # The queues in memory are lists

The control block in memory (`KcpMemory`) refines the one on lists.  The two are related by
`Represents`: each queue in memory is a ring of cells that hold the segments of the list.  A
function refines another one when it goes through and what comes out represents what the other
one returns (`Refines`, `RefinesWith`).

Every loop over a queue has one lemma, by induction on the cells that are left; the number of
turns it is given is more than there are cells, because a ring is no longer than the heap.
This module has `ikcp_send` and `ikcp_recv`, `KcpInputRefinement` has `ikcp_input`, and
`KcpMemorySafety` the rest and what follows for runs.
-/
namespace FlexProxy
open LinkedRing

section Fields
variable {α : Type}

/-- The segments of a queue. -/
def Ikcpcb.queue (kcp : Ikcpcb α) : Queue → List (IkcpSeg α)
  | .sndQueue => kcp.sndQueue
  | .rcvQueue => kcp.rcvQueue
  | .sndBuf => kcp.sndBuf
  | .rcvBuf => kcp.rcvBuf

def Ikcpcb.setQueue (kcp : Ikcpcb α) (l : List (IkcpSeg α)) : Queue → Ikcpcb α
  | .sndQueue => { kcp with sndQueue := l }
  | .rcvQueue => { kcp with rcvQueue := l }
  | .sndBuf => { kcp with sndBuf := l }
  | .rcvBuf => { kcp with rcvBuf := l }

/-- The control block but for its queues. -/
def Ikcpcb.bare (kcp : Ikcpcb α) : Ikcpcb α :=
  { kcp with sndQueue := [], rcvQueue := [], sndBuf := [], rcvBuf := [] }

@[simp] theorem bare_setQueue (kcp : Ikcpcb α) (l : List (IkcpSeg α)) (q : Queue) :
    (kcp.setQueue l q).bare = kcp.bare := by
  cases q <;> rfl

theorem queue_setQueue (kcp : Ikcpcb α) (l : List (IkcpSeg α)) (q : Queue) :
    (kcp.setQueue l q).queue = Function.update kcp.queue q l := by
  funext q'
  cases q <;> cases q' <;> rfl

end Fields

/-! ## Representation -/

section Represents
variable {M α : Type} [DecidableEq M] {h h' : SegHeap M α} {kcp : Ikcpcb α}
  {cells : Queue → List (M × IkcpSeg α)} {loose loose' : List (M × IkcpSeg α)}

/-- The control block in memory, when the queues of `kcp` are in the heap. -/
def Ikcpcb.memory (kcp : Ikcpcb α) (h : SegHeap M α) : KcpMemory M α := ⟨kcp.bare, h⟩

/-- The heap holds the queues of `kcp`: in the ring of each queue the cells `cells`, and
besides them the cells `loose`. -/
structure Represents (h : SegHeap M α) (kcp : Ikcpcb α) (cells : Queue → List (M × IkcpSeg α))
    (loose : List (M × IkcpSeg α)) : Prop where
  stores : Stores h cells loose
  queue : ∀ q, kcp.queue q = (cells q).map Prod.snd

/-- What comes out represents `kcp`. -/
def Refines (o : Option (KcpMemory M α)) (kcp : Ikcpcb α) (loose : List (M × IkcpSeg α)) : Prop :=
  ∃ h cells, o = some (kcp.memory h) ∧ Represents h kcp cells loose

namespace Represents

/-- A step on one queue. -/
theorem update (hr : Represents h kcp cells loose) {q : Queue} {l : List (M × IkcpSeg α)}
    (hs : Stores h' (Function.update cells q l) loose') :
    Represents h' (kcp.setQueue (l.map Prod.snd) q) (Function.update cells q l) loose' := by
  refine ⟨hs, fun q' => ?_⟩
  rw [queue_setQueue]
  by_cases hqq : q' = q
  · subst hqq
    rw [Function.update_self, Function.update_self]
  · rw [Function.update_of_ne hqq, Function.update_of_ne hqq]
    exact hr.queue q'

/-- A step that leaves the queues as they are. -/
theorem of_stores (hr : Represents h kcp cells loose) (hs : Stores h' cells loose') :
    Represents h' kcp cells loose' := ⟨hs, hr.queue⟩

theorem new (A : Allocator M) (hr : Represents h kcp cells loose) (seg : IkcpSeg α) :
    Represents (h.alloc (.node (A.malloc h.keys)) (some seg)) kcp cells
      ((A.malloc h.keys, seg) :: loose) :=
  hr.of_stores (hr.stores.alloc (fun hm => A.fresh _ (Finmap.mem_keys.mpr hm)) seg)

/-- A segment is put at the end of a queue. -/
theorem append (hr : Represents h kcp cells loose) {q : Queue} {m : M} {seg : IkcpSeg α}
    (hs : Stores h' (Function.update cells q (cells q ++ [(m, seg)])) loose') :
    Represents h' (kcp.setQueue (kcp.queue q ++ [seg]) q)
      (Function.update cells q (cells q ++ [(m, seg)])) loose' := by
  have hupdate := hr.update hs
  rw [List.map_append, ← hr.queue q] at hupdate
  exact hupdate

/-- Writing a queue as it is. -/
theorem same (hr : Represents h kcp cells loose) {q : Queue} {l : List (IkcpSeg α)}
    (hl : l = kcp.queue q) : Represents h (kcp.setQueue l q) cells loose := by
  refine ⟨hr.stores, fun q' => ?_⟩
  rw [queue_setQueue, hl, Function.update_eq_self]
  exact hr.queue q'

end Represents

/-- One step after another. -/
theorem Refines.bind {o : Option (KcpMemory M α)} {f : KcpMemory M α → Option (KcpMemory M α)}
    {kcp' : Ikcpcb α} (ho : Refines o kcp loose)
    (hf : ∀ h cells, Represents h kcp cells loose → Refines (f (kcp.memory h)) kcp' loose') :
    Refines (o.bind f) kcp' loose' := by
  obtain ⟨h, cells, he, hr⟩ := ho
  rw [he]
  exact hf h cells hr

/-- The same for a step that also returns something: both return the same. -/
def RefinesWith {β : Type} (o : Option (KcpMemory M α × β)) (r : Ikcpcb α × β)
    (loose : List (M × IkcpSeg α)) : Prop :=
  ∃ h cells, o = some (r.1.memory h, r.2) ∧ Represents h r.1 cells loose

theorem RefinesWith.bind {β γ : Type} {o : Option (KcpMemory M α × β)}
    {f : KcpMemory M α × β → Option (KcpMemory M α × γ)} {r : Ikcpcb α × β} {r' : Ikcpcb α × γ}
    (ho : RefinesWith o r loose)
    (hf : ∀ h cells, Represents h r.1 cells loose → RefinesWith (f (r.1.memory h, r.2)) r' loose') :
    RefinesWith (o.bind f) r' loose' := by
  obtain ⟨h, cells, he, hr⟩ := ho
  rw [he]
  exact hf h cells hr

end Represents
end FlexProxy
