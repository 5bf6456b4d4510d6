import Mathlib.Data.List.Basic
import Mathlib.Data.UInt

/-! # Socket addresses

`AddressParser::ParseSocketAddress` reads the `ADDRESS:PORT` texts of the
configuration.  The part before the last colon goes to `asio::ip::make_address`,
which is a parameter here; the part after it is checked to be digits, read by
`sscanf` with `%d`, and checked to be in the range of a port.

`%d` reads a 64-bit number that saturates and then cuts it to 32 bits, so the last
check sees another number than the text says from `2^31` on.  What is accepted is
`parseAddressAndPort_eq_some_iff`; when that is what the text means is
`parseSocketAddress_reads_iff`.
-/
namespace FlexProxy.AddressParser

/-- `':'` -/
def colon : UInt8 := 58

/-- `std::isdigit` -/
def isdigit (c : UInt8) : Bool := 48 ≤ c && c ≤ 57

/-- `std::isspace` -/
def isspace (c : UInt8) : Bool := c = 32 || 9 ≤ c && c ≤ 13

/-- `ipPortStr.rfind(c)`, `none` for `npos`. -/
def rfind (c : UInt8) : List UInt8 → Option Nat
  | [] => none
  | x :: rest => ((rfind c rest).map (· + 1)).or (if x = c then some 0 else none)

/-- The number that digits denote. -/
def number (digits : List UInt8) : Nat :=
  digits.foldl (fun n c => 10 * n + (c.toNat - 48)) 0

/-- `strtol` stops at the ends of a 64-bit `long`. -/
def saturate (n : Int) : Int := max (-2 ^ 63) (min n (2 ^ 63 - 1))

/-- `sscanf(s, "%d", &result)`: what it assigns to `result`, if anything.  Behind
the text stands the terminating NUL, which is neither space, sign nor digit. -/
def sscanfD (s : List UInt8) : Option Int32 :=
  let s := s.dropWhile isspace
  let negative := s.head? = some 45
  let s := if s.head? = some 45 ∨ s.head? = some 43 then s.drop 1 else s
  let digits := s.takeWhile isdigit
  if digits = [] then none
  else some (Int32.ofInt (saturate (if negative then -number digits else number digits)))

/-- `ParseAddressAndPort`: the address and the port, `none` if it returns false. -/
def parseAddressAndPort {A : Type} (makeAddress : List UInt8 → Option A) (ipPortStr : List UInt8) :
    Option (A × UInt16) :=
  match rfind colon ipPortStr with
  | none => none
  | some index =>
    if index = ipPortStr.length - 1 then none
    else
      match makeAddress (ipPortStr.take index) with
      | none => none
      | some address =>
        if !(ipPortStr.drop (index + 1)).all isdigit then none
        else
          let intPort := (sscanfD (ipPortStr.drop (index + 1))).getD (-1)
          if intPort < 0 ∨ intPort > 65535 then none
          else some (address, intPort.toUInt32.toUInt16)

/-- The protocol of `asio::ip::tcp::endpoint`. -/
inductive Tcp
  deriving DecidableEq

/-- The protocol of `asio::ip::udp::endpoint`. -/
inductive Udp
  deriving DecidableEq

/-- `asio::ip::basic_endpoint<Protocol>` -/
structure Endpoint (Protocol A : Type) where
  address : A
  port : UInt16
  deriving DecidableEq

/-- `ParseSocketAddress`: the endpoint afterwards, and the return value.  The two
overloads differ in `Protocol` only. -/
def parseSocketAddress {Protocol A : Type} (makeAddress : List UInt8 → Option A)
    (endpoint : Endpoint Protocol A) (ipPortStr : List UInt8) : Endpoint Protocol A × Bool :=
  match parseAddressAndPort makeAddress ipPortStr with
  | none => (endpoint, false)
  | some (ipAddress, port) => (⟨ipAddress, port⟩, true)

/-- `ParseSocketAddress(asio_tcp::endpoint&, std::string_view)` -/
def parseTcpSocketAddress {A : Type} (makeAddress : List UInt8 → Option A)
    (endpoint : Endpoint Tcp A) (ipPortStr : List UInt8) : Endpoint Tcp A × Bool :=
  parseSocketAddress makeAddress endpoint ipPortStr

/-- `ParseSocketAddress(asio_udp::endpoint&, std::string_view)` -/
def parseUdpSocketAddress {A : Type} (makeAddress : List UInt8 → Option A)
    (endpoint : Endpoint Udp A) (ipPortStr : List UInt8) : Endpoint Udp A × Bool :=
  parseSocketAddress makeAddress endpoint ipPortStr

/-! ## What a text means -/

/-- The text is an address that `makeAddress` accepts, a colon, and the digits of
`port`; no colon is among the digits. -/
structure IsAddressPort {A : Type} (makeAddress : List UInt8 → Option A) (ipPortStr : List UInt8)
    (address : A) (port : Nat) : Prop where
  split : ∃ a p, ipPortStr = a ++ colon :: p ∧ colon ∉ p ∧ makeAddress a = some address ∧
    p ≠ [] ∧ p.all isdigit ∧ number p = port

/-- `r` is what reading `ipPortStr` into `endpoint` should give: an address and a port
of 16 bits are stored, and everything else is refused. -/
def Reads {Protocol A : Type} (makeAddress : List UInt8 → Option A) (ipPortStr : List UInt8)
    (endpoint : Endpoint Protocol A) (r : Endpoint Protocol A × Bool) : Prop :=
  (∀ address port, IsAddressPort makeAddress ipPortStr address port → port ≤ 65535 →
    r = (⟨address, UInt16.ofNat port⟩, true)) ∧
  ((¬ ∃ address port, IsAddressPort makeAddress ipPortStr address port ∧ port ≤ 65535) →
    r = (endpoint, false))

/-- The number after the colon is none of a port, and is one when it is cut to 32
bits. -/
def Wraps {A : Type} (makeAddress : List UInt8 → Option A) (ipPortStr : List UInt8) : Prop :=
  ∃ address port, IsAddressPort makeAddress ipPortStr address port ∧
    65535 < port ∧ port < 2 ^ 63 ∧ port % 2 ^ 32 ≤ 65535

/-! ## The last colon -/

theorem rfind_eq_none {c : UInt8} {s : List UInt8} (h : c ∉ s) : rfind c s = none := by
  induction s with
  | nil => rfl
  | cons x rest ih =>
    rw [List.mem_cons, not_or] at h
    rw [rfind, ih h.2, if_neg (Ne.symm h.1)]
    rfl

theorem rfind_append {c : UInt8} {p : List UInt8} (h : c ∉ p) (a : List UInt8) :
    rfind c (a ++ c :: p) = some a.length := by
  induction a with
  | nil =>
    show ((rfind c p).map (· + 1)).or (if c = c then some 0 else none) = some 0
    rw [rfind_eq_none h, if_pos rfl]
    rfl
  | cons x rest ih =>
    rw [List.cons_append, rfind, ih]
    rfl

theorem exists_last {c : UInt8} {s : List UInt8} (h : c ∈ s) : ∃ a p, s = a ++ c :: p ∧ c ∉ p := by
  induction s with
  | nil => cases h
  | cons x rest ih =>
    by_cases hrest : c ∈ rest
    · obtain ⟨a, p, rfl, hp⟩ := ih hrest
      exact ⟨x :: a, p, rfl, hp⟩
    · rcases List.mem_cons.mp h with rfl | h
      · exact ⟨[], rest, rfl, hrest⟩
      · exact absurd h hrest

/-- A text has one last colon. -/
theorem split_unique {c : UInt8} {a p a' p' : List UInt8} (h : a ++ c :: p = a' ++ c :: p')
    (hp : c ∉ p) (hp' : c ∉ p') : a = a' ∧ p = p' := by
  have hlen : a.length = a'.length := by
    have hfind := rfind_append hp' a'
    rw [← h, rfind_append hp a] at hfind
    exact Option.some.inj hfind
  obtain ⟨rfl, htail⟩ := List.append_inj h hlen
  exact ⟨rfl, (List.cons.inj htail).2⟩

/-! ## The number -/

theorem not_special_of_isdigit {c : UInt8} (h : isdigit c = true) :
    isspace c = false ∧ c ≠ 45 ∧ c ≠ 43 := by
  have hrange : 48 ≤ c.toNat ∧ c.toNat ≤ 57 := by
    simpa [isdigit, UInt8.le_iff_toNat_le] using h
  refine ⟨?_, ?_, ?_⟩
  · simp only [isspace, Bool.or_eq_false_iff, Bool.and_eq_false_iff, decide_eq_false_iff_not,
      UInt8.le_iff_toNat_le]
    constructor
    · rintro rfl
      exact absurd hrange (by decide)
    · right
      simp only [UInt8.reduceToNat]
      omega
  · rintro rfl
    exact absurd hrange (by decide)
  · rintro rfl
    exact absurd hrange (by decide)

/-- On digits alone `%d` reads the number they denote, saturated and cut. -/
theorem sscanfD_digits {p : List UInt8} (hne : p ≠ []) (hp : p.all isdigit = true) :
    sscanfD p = some (Int32.ofInt (saturate (number p))) := by
  obtain ⟨c, rest, rfl⟩ := List.exists_cons_of_ne_nil hne
  have hdigits : ∀ x ∈ c :: rest, isdigit x = true := List.all_eq_true.mp hp
  obtain ⟨hspace, hminus, hplus⟩ := not_special_of_isdigit (hdigits c (List.mem_cons_self ..))
  have hskip : (c :: rest).dropWhile isspace = c :: rest := by
    rw [List.dropWhile_cons, hspace]
    rfl
  have htake : (c :: rest).takeWhile isdigit = c :: rest := by
    rw [← List.append_nil (c :: rest), List.takeWhile_append_of_pos hdigits]
    rfl
  simp only [sscanfD, hskip, List.head?_cons, Option.some.injEq, hminus, hplus, or_self, if_false,
    htake, reduceCtorEq]

/-- What is left of a number that `%d` reads. -/
theorem toInt_saturated (n : Nat) :
    (Int32.ofInt (saturate n)).toInt =
      if n < 2 ^ 63 then (n : Int).bmod (2 ^ 32) else -1 := by
  rw [Int32.toInt_ofInt, saturate]
  split
  · rw [show max (-2 ^ 63) (min (n : Int) (2 ^ 63 - 1)) = n by omega]
    rfl
  · rw [show max (-2 ^ 63) (min (n : Int) (2 ^ 63 - 1)) = 2 ^ 63 - 1 by omega]
    decide

/-- The range check passes what is a port modulo `2^32` and does not saturate. -/
theorem inRange_saturated (n : Nat) :
    ¬ (Int32.ofInt (saturate n) < 0 ∨ Int32.ofInt (saturate n) > 65535) ↔
      n < 2 ^ 63 ∧ n % 2 ^ 32 ≤ 65535 := by
  have h0 : (0 : Int32).toInt = 0 := rfl
  have hmax : (65535 : Int32).toInt = 65535 := rfl
  rw [gt_iff_lt, Int32.lt_iff_toInt_lt, Int32.lt_iff_toInt_lt, h0, hmax, toInt_saturated]
  split
  · rename_i h
    have hmod : ((n : Int).bmod (2 ^ 32)) = if (n : Int) % (2 ^ 32) < (2 ^ 32 + 1) / 2
        then (n : Int) % (2 ^ 32) else (n : Int) % (2 ^ 32) - 2 ^ 32 := by
      exact_mod_cast Int.bmod_def (n : Int) (2 ^ 32)
    rw [hmod]
    split <;> omega
  · omega

/-- The port that is stored is the number modulo `2^32`. -/
theorem port_saturated {n : Nat} (h : n < 2 ^ 63 ∧ n % 2 ^ 32 ≤ 65535) :
    (Int32.ofInt (saturate n)).toUInt32.toUInt16 = UInt16.ofNat (n % 2 ^ 32) := by
  have hword : (Int32.ofInt (saturate n)).toUInt32.toNat = n % 2 ^ 32 := by
    rw [saturate, show max (-2 ^ 63) (min (n : Int) (2 ^ 63 - 1)) = n by omega]
    show (BitVec.ofInt 32 n).toNat = _
    rw [BitVec.toNat_ofInt]
    omega
  apply UInt16.toNat_inj.mp
  rw [UInt32.toNat_toUInt16, hword, UInt16.toNat_ofNat']

/-! ## What is accepted -/

section Accepted
variable {A : Type} (makeAddress : List UInt8 → Option A)

/-- What `ParseAddressAndPort` does with a text, once its last colon is found. -/
theorem parseAddressAndPort_split {a p : List UInt8} (hp : colon ∉ p) :
    parseAddressAndPort makeAddress (a ++ colon :: p) =
      if p = [] then none
      else (makeAddress a).bind fun address =>
        if p.all isdigit ∧ number p < 2 ^ 63 ∧ number p % 2 ^ 32 ≤ 65535 then
          some (address, UInt16.ofNat (number p % 2 ^ 32))
        else none := by
  have hport : (a ++ colon :: p).drop (a.length + 1) = p := List.drop_length_add_append 1
  have hend : a.length = (a ++ colon :: p).length - 1 ↔ p = [] := by
    rw [List.length_append, List.length_cons, ← List.length_eq_zero_iff]
    omega
  rw [parseAddressAndPort, rfind_append hp]
  simp only [hend, hport, List.take_left]
  by_cases hne : p = []
  · rw [if_pos hne, if_pos hne]
  · rw [if_neg hne, if_neg hne]
    cases makeAddress a with
    | none => rfl
    | some address =>
      by_cases hdigits : p.all isdigit = true
      · simp only [hdigits, Bool.not_true, Bool.false_eq_true, if_false, true_and,
          sscanfD_digits hne hdigits, Option.getD_some, Option.bind_some]
        by_cases hrange : number p < 2 ^ 63 ∧ number p % 2 ^ 32 ≤ 65535
        · rw [if_neg ((inRange_saturated _).mpr hrange), if_pos hrange, port_saturated hrange]
        · have hout := (inRange_saturated (number p)).not.mpr hrange
          rw [if_pos (not_not.mp hout), if_neg hrange]
      · simp [hdigits]

/-- **What is accepted**: texts `ADDRESS:PORT` whose number `%d` reads as one of 16
bits. -/
theorem parseAddressAndPort_eq_some_iff {ipPortStr : List UInt8} {r : A × UInt16} :
    parseAddressAndPort makeAddress ipPortStr = some r ↔
      ∃ port, IsAddressPort makeAddress ipPortStr r.1 port ∧
        (port < 2 ^ 63 ∧ port % 2 ^ 32 ≤ 65535) ∧ r.2 = UInt16.ofNat (port % 2 ^ 32) := by
  constructor
  · intro h
    by_cases hcolon : colon ∈ ipPortStr
    · obtain ⟨a, p, rfl, hp⟩ := exists_last hcolon
      rw [parseAddressAndPort_split makeAddress hp] at h
      obtain ⟨hne, h⟩ := Option.ite_none_left_eq_some.mp h
      obtain ⟨address, haddress, h⟩ := Option.bind_eq_some_iff.mp h
      obtain ⟨⟨hdigits, hrange⟩, h⟩ := Option.ite_none_right_eq_some.mp h
      cases h
      exact ⟨number p, ⟨a, p, rfl, hp, haddress, hne, hdigits, rfl⟩, hrange, rfl⟩
    · rw [parseAddressAndPort, rfind_eq_none hcolon] at h
      cases h
  · rintro ⟨port, ⟨a, p, rfl, hp, haddress, hne, hdigits, rfl⟩, hrange, hr⟩
    rw [parseAddressAndPort_split makeAddress hp, if_neg hne, haddress, Option.bind_some,
      if_pos ⟨hdigits, hrange⟩, ← hr]

/-- A text means one address and one number. -/
theorem IsAddressPort.unique {ipPortStr : List UInt8} {address address' : A} {port port' : Nat}
    (h : IsAddressPort makeAddress ipPortStr address port)
    (h' : IsAddressPort makeAddress ipPortStr address' port') :
    address = address' ∧ port = port' := by
  obtain ⟨a, p, rfl, hp, haddress, -, -, rfl⟩ := h
  obtain ⟨a', p', hsplit, hp', haddress', -, -, rfl⟩ := h'
  obtain ⟨rfl, rfl⟩ := split_unique hsplit hp hp'
  exact ⟨Option.some.inj (haddress.symm.trans haddress'), rfl⟩

variable {Protocol : Type}

/-- `ParseSocketAddress` reads a text as it should unless its number wraps. -/
theorem reads_parseSocketAddress_iff (endpoint : Endpoint Protocol A) (ipPortStr : List UInt8) :
    Reads makeAddress ipPortStr endpoint (parseSocketAddress makeAddress endpoint ipPortStr) ↔
      ¬ Wraps makeAddress ipPortStr := by
  constructor
  · -- a number that wraps into the range is accepted, and should be refused
    rintro ⟨-, hrefused⟩ ⟨address, port, hmeans, hlarge, hrange⟩
    have hnone : ¬ ∃ address port, IsAddressPort makeAddress ipPortStr address port ∧
        port ≤ 65535 := by
      rintro ⟨address', port', hmeans', hsmall⟩
      have hport := (hmeans.unique makeAddress hmeans').2
      omega
    have haccepted : parseAddressAndPort makeAddress ipPortStr =
        some (address, UInt16.ofNat (port % 2 ^ 32)) :=
      (parseAddressAndPort_eq_some_iff makeAddress).mpr ⟨port, hmeans, hrange, rfl⟩
    have h := hrefused hnone
    rw [parseSocketAddress, haccepted] at h
    exact Bool.noConfusion (congrArg Prod.snd h)
  · intro hwraps
    constructor
    · intro address port hmeans hsmall
      have hmod : port % 2 ^ 32 = port := Nat.mod_eq_of_lt (by omega)
      have haccepted : parseAddressAndPort makeAddress ipPortStr =
          some (address, UInt16.ofNat port) :=
        (parseAddressAndPort_eq_some_iff makeAddress).mpr
          ⟨port, hmeans, ⟨by omega, by omega⟩, by rw [hmod]⟩
      rw [parseSocketAddress, haccepted]
    · intro hnone
      have hrefused : parseAddressAndPort makeAddress ipPortStr = none := by
        by_contra hsome
        obtain ⟨r, hr⟩ := Option.ne_none_iff_exists'.mp hsome
        obtain ⟨port, hmeans, hrange, -⟩ := (parseAddressAndPort_eq_some_iff makeAddress).mp hr
        by_cases hsmall : port ≤ 65535
        · exact hnone ⟨r.1, port, hmeans, hsmall⟩
        · exact hwraps ⟨r.1, port, hmeans, by omega, hrange⟩
      rw [parseSocketAddress, hrefused]

/-- **Both overloads read a text as they should if and only if its number does not
wrap.** -/
theorem parseSocketAddress_reads_iff (tcp : Endpoint Tcp A) (udp : Endpoint Udp A)
    (ipPortStr : List UInt8) :
    (Reads makeAddress ipPortStr tcp (parseTcpSocketAddress makeAddress tcp ipPortStr) ↔
      ¬ Wraps makeAddress ipPortStr) ∧
    (Reads makeAddress ipPortStr udp (parseUdpSocketAddress makeAddress udp ipPortStr) ↔
      ¬ Wraps makeAddress ipPortStr) :=
  ⟨reads_parseSocketAddress_iff makeAddress tcp ipPortStr,
    reads_parseSocketAddress_iff makeAddress udp ipPortStr⟩

end Accepted

/-- `"::1:4294967376"`: the number is `2^32 + 80`. -/
def wrappingText : List UInt8 := [58, 58, 49, 58, 52, 50, 57, 52, 57, 54, 55, 51, 55, 54]

/-- `asio::ip::make_address` on `"::1"`; the address is a name here. -/
def makeLoopback (text : List UInt8) : Option (List UInt8) :=
  if text = [58, 58, 49] then some text else none

/-- The text is accepted, and the port is 80. -/
theorem parseSocketAddress_wraps :
    parseTcpSocketAddress makeLoopback ⟨[], 0⟩ wrappingText = (⟨[58, 58, 49], 80⟩, true) ∧
    ¬ Reads makeLoopback wrappingText ⟨[], 0⟩
      (parseTcpSocketAddress makeLoopback ⟨[], 0⟩ wrappingText) := by
  have haccepted : parseTcpSocketAddress makeLoopback ⟨[], 0⟩ wrappingText =
      (⟨[58, 58, 49], 80⟩, true) := by
    decide +kernel
  refine ⟨haccepted, ?_⟩
  rintro ⟨-, hrefused⟩
  have hmeans : IsAddressPort makeLoopback wrappingText [58, 58, 49] (2 ^ 32 + 80) :=
    ⟨[58, 58, 49], [52, 50, 57, 52, 57, 54, 55, 51, 55, 54], rfl, by decide, rfl, by decide,
      by decide, by decide⟩
  have hnone : ¬ ∃ address port, IsAddressPort makeLoopback wrappingText address port ∧
      port ≤ 65535 := by
    rintro ⟨address, port, hmeans', hsmall⟩
    have hport := (hmeans.unique makeLoopback hmeans').2
    omega
  rw [hrefused hnone] at haccepted
  exact absurd (congrArg Prod.snd haccepted) (by decide)

end FlexProxy.AddressParser
