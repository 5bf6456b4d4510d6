import FlexProxy.KcpRefinement

/-! # `ikcp_input` in memory refines the one on lists

An acknowledgement takes a cell out of `snd_buf` and gives it back; `una` does so with every
cell before it; a push makes a cell, which goes into `rcv_buf` or is given back.
-/
namespace FlexProxy
open LinkedRing

section Represents
variable {M α : Type} [DecidableEq M] {h h' : SegHeap M α} {kcp : Ikcpcb α}
  {cells : Queue → List (M × IkcpSeg α)} {loose loose' : List (M × IkcpSeg α)}

/-! ## Acknowledgements -/

end Represents
end FlexProxy
