import FlexProxy.SerialNumber

/-! # The KCP control block

`ikcp.h` and the first part of `ikcp.c`: segments, the control block, and how
the forwarders create and configure it.  The four doubly linked queues of the
control block are lists, head first.  The bytes a segment carries are the items
of a list over an arbitrary type `α`: no function of `ikcp.c` looks at them, and
the forwarders instantiate `α` with bytes.

What is left out is what no function of the program reads: `ts_recent` and
`ts_lastack`, the log mask and the log hook (never set, so `ikcp_canlog` is
always false), the capacity `ackblock` of the acknowledgement array, and the
allocator hooks.  The scratch buffer of `ikcp_flush` is passed to it separately
(`KcpFlush`).
-/
namespace FlexProxy

/-- `_itimediff`: the signed distance from `earlier` to `later`. -/
abbrev itimediff (later earlier : UInt32) : Int := SerialNumber.diff later earlier

/-- `_imin_` -/
def imin (a b : UInt32) : UInt32 := if a ≤ b then a else b

/-- `_imax_` -/
def imax (a b : UInt32) : UInt32 := if a ≥ b then a else b

/-- `_ibound_` -/
def ibound (lower middle upper : UInt32) : UInt32 := imin (imax lower middle) upper

/-! ## Constants -/

def IKCP_RTO_NDL : UInt32 := 30
def IKCP_RTO_MIN : UInt32 := 100
def IKCP_RTO_DEF : UInt32 := 200
def IKCP_RTO_MAX : UInt32 := 60000
def IKCP_CMD_PUSH : UInt32 := 81
def IKCP_CMD_ACK : UInt32 := 82
def IKCP_CMD_WASK : UInt32 := 83
def IKCP_CMD_WINS : UInt32 := 84
def IKCP_ASK_SEND : UInt32 := 1
def IKCP_ASK_TELL : UInt32 := 2
def IKCP_WND_SND : UInt32 := 32
def IKCP_WND_RCV : UInt32 := 128
def IKCP_MTU_DEF : UInt32 := 1400
def IKCP_INTERVAL : UInt32 := 100
def IKCP_OVERHEAD : UInt32 := 24
def IKCP_DEADLINK : UInt32 := 20
def IKCP_THRESH_INIT : UInt32 := 2
def IKCP_THRESH_MIN : UInt32 := 2
def IKCP_PROBE_INIT : UInt32 := 7000
def IKCP_PROBE_LIMIT : UInt32 := 120000
def IKCP_FASTACK_LIMIT : Int32 := 5

/-! ## Segments -/

/-- `IKCPSEG`.  A segment's `len` is the length of its data (`IkcpSeg.len`). -/
structure IkcpSeg (α : Type) where
  conv : UInt32 := 0
  cmd : UInt32 := 0
  frg : UInt32 := 0
  wnd : UInt32 := 0
  ts : UInt32 := 0
  sn : UInt32 := 0
  una : UInt32 := 0
  resendts : UInt32 := 0
  rto : UInt32 := 0
  fastack : UInt32 := 0
  xmit : UInt32 := 0
  data : List α
  deriving DecidableEq

/-- `seg->len` -/
def IkcpSeg.len {α : Type} (seg : IkcpSeg α) : Nat := seg.data.length

/-- What a segment says on the wire: the fields `ikcp_encode_seg` writes, at the
width it writes them, followed by the data. -/
structure WireSeg (α : Type) where
  conv : UInt32
  cmd : UInt8
  frg : UInt8
  wnd : UInt16
  ts : UInt32
  sn : UInt32
  una : UInt32
  data : List α
  deriving DecidableEq

/-- `ikcp_encode_seg`, as the fields written: `cmd` and `frg` are cut to 8 bits
and `wnd` to 16. -/
def ikcpEncodeSeg {α : Type} (seg : IkcpSeg α) : WireSeg α where
  conv := seg.conv
  cmd := seg.cmd.toUInt8
  frg := seg.frg.toUInt8
  wnd := seg.wnd.toUInt16
  ts := seg.ts
  sn := seg.sn
  una := seg.una
  data := seg.data

/-! ## The control block -/

/-- `IKCPCB` -/
structure Ikcpcb (α : Type) where
  conv : UInt32
  mtu : UInt32
  mss : UInt32
  state : UInt32
  sndUna : UInt32
  sndNxt : UInt32
  rcvNxt : UInt32
  ssthresh : UInt32
  rxRttval : Int32
  rxSrtt : Int32
  rxRto : Int32
  rxMinrto : Int32
  sndWnd : UInt32
  rcvWnd : UInt32
  rmtWnd : UInt32
  cwnd : UInt32
  probe : UInt32
  current : UInt32
  interval : UInt32
  tsFlush : UInt32
  xmit : UInt32
  nrcvBuf : UInt32
  nsndBuf : UInt32
  nrcvQue : UInt32
  nsndQue : UInt32
  nodelay : UInt32
  updated : UInt32
  tsProbe : UInt32
  probeWait : UInt32
  deadLink : UInt32
  incr : UInt32
  sndQueue : List (IkcpSeg α)
  rcvQueue : List (IkcpSeg α)
  sndBuf : List (IkcpSeg α)
  rcvBuf : List (IkcpSeg α)
  /-- The first `ackcount` entries of `acklist`: `(sn, ts)`. -/
  acklist : List (UInt32 × UInt32)
  fastresend : Int32
  fastlimit : Int32
  nocwnd : Int32
  stream : Int32

variable {α : Type}

/-- `ikcp_create` -/
def ikcpCreate (conv : UInt32) : Ikcpcb α where
  conv := conv
  sndUna := 0
  sndNxt := 0
  rcvNxt := 0
  tsProbe := 0
  probeWait := 0
  sndWnd := IKCP_WND_SND
  rcvWnd := IKCP_WND_RCV
  rmtWnd := IKCP_WND_RCV
  cwnd := 0
  incr := 0
  probe := 0
  mtu := IKCP_MTU_DEF
  mss := IKCP_MTU_DEF - IKCP_OVERHEAD
  stream := 0
  sndQueue := []
  rcvQueue := []
  sndBuf := []
  rcvBuf := []
  nrcvBuf := 0
  nsndBuf := 0
  nrcvQue := 0
  nsndQue := 0
  state := 0
  acklist := []
  rxSrtt := 0
  rxRttval := 0
  rxRto := IKCP_RTO_DEF.toInt32
  rxMinrto := IKCP_RTO_MIN.toInt32
  current := 0
  interval := IKCP_INTERVAL
  tsFlush := IKCP_INTERVAL
  nodelay := 0
  updated := 0
  ssthresh := IKCP_THRESH_INIT
  fastresend := 0
  fastlimit := IKCP_FASTACK_LIMIT
  nocwnd := 0
  xmit := 0
  deadLink := IKCP_DEADLINK

/-- `ikcp_wndsize` -/
def ikcpWndsize (kcp : Ikcpcb α) (sndwnd rcvwnd : Int32) : Ikcpcb α :=
  let kcp := if sndwnd > 0 then { kcp with sndWnd := sndwnd.toUInt32 } else kcp
  if rcvwnd > 0 then { kcp with rcvWnd := imax rcvwnd.toUInt32 IKCP_WND_RCV } else kcp

/-- `ikcp_nodelay` -/
def ikcpNodelay (kcp : Ikcpcb α) (nodelay interval resend nc : Int32) : Ikcpcb α :=
  let kcp :=
    if nodelay ≥ 0 then
      { kcp with
        nodelay := nodelay.toUInt32
        rxMinrto := (if nodelay ≠ 0 then IKCP_RTO_NDL else IKCP_RTO_MIN).toInt32 }
    else kcp
  let kcp :=
    if interval ≥ 0 then
      { kcp with
        interval :=
          (if interval > 5000 then 5000 else if interval < 10 then 10 else interval).toUInt32 }
    else kcp
  let kcp := if resend ≥ 0 then { kcp with fastresend := resend } else kcp
  if nc ≥ 0 then { kcp with nocwnd := nc } else kcp

/-- The conversation number both ends use. -/
def forwarderConv : UInt32 := 0x5a3331fd

/-- The control block as both `Start` functions create and configure it. -/
def forwarderKcp : Ikcpcb α :=
  ikcpNodelay (ikcpWndsize (ikcpCreate forwarderConv) 1024 1024) 2 10 2 1

/-! ## Views

An operation on a control block touches one part of it and leaves the others
alone.  The parts are named here, so that "leaves it alone" is one equation. -/

/-- What no operation changes once the control block is configured. -/
structure Config where
  conv : UInt32
  mtu : UInt32
  mss : UInt32
  sndWnd : UInt32
  rcvWnd : UInt32
  interval : UInt32
  nodelay : UInt32
  fastresend : Int32
  nocwnd : Int32
  stream : Int32

/-- What stays the same of a numbered segment as long as it is in `snd_buf`; the
other fields are set anew each time it is sent. -/
structure SegKey (α : Type) where
  conv : UInt32
  cmd : UInt32
  frg : UInt32
  sn : UInt32
  data : List α
  deriving DecidableEq

def IkcpSeg.key {α : Type} (seg : IkcpSeg α) : SegKey α :=
  ⟨seg.conv, seg.cmd, seg.frg, seg.sn, seg.data⟩

/-- The part that sends: segments not numbered yet, and segments numbered but
not acknowledged, with their counters. -/
structure Outgoing (α : Type) where
  sndNxt : UInt32
  sndQueue : List (IkcpSeg α)
  sndBuf : List (SegKey α)
  nsndQue : UInt32
  nsndBuf : UInt32

/-- The part that receives: segments ready to be read, segments received ahead
of a gap, and acknowledgements to be sent. -/
structure Incoming (α : Type) where
  rcvNxt : UInt32
  rcvQueue : List (IkcpSeg α)
  rcvBuf : List (IkcpSeg α)
  acklist : List (UInt32 × UInt32)

namespace Ikcpcb

def config (kcp : Ikcpcb α) : Config :=
  ⟨kcp.conv, kcp.mtu, kcp.mss, kcp.sndWnd, kcp.rcvWnd, kcp.interval, kcp.nodelay,
    kcp.fastresend, kcp.nocwnd, kcp.stream⟩

def outgoing (kcp : Ikcpcb α) : Outgoing α :=
  ⟨kcp.sndNxt, kcp.sndQueue, kcp.sndBuf.map IkcpSeg.key, kcp.nsndQue, kcp.nsndBuf⟩

def incoming (kcp : Ikcpcb α) : Incoming α :=
  ⟨kcp.rcvNxt, kcp.rcvQueue, kcp.rcvBuf, kcp.acklist⟩

end Ikcpcb

/-- The configuration both `Start` functions choose. -/
def forwarderConfig : Config where
  conv := forwarderConv
  mtu := 1400
  mss := 1376
  sndWnd := 1024
  rcvWnd := 1024
  interval := 10
  nodelay := 2
  fastresend := 2
  nocwnd := 1
  stream := 0

theorem config_forwarderKcp : (forwarderKcp (α := α)).config = forwarderConfig := rfl

theorem outgoing_forwarderKcp : (forwarderKcp (α := α)).outgoing = ⟨0, [], [], 0, 0⟩ := rfl

theorem incoming_forwarderKcp : (forwarderKcp (α := α)).incoming = ⟨0, [], [], []⟩ := rfl

end FlexProxy
