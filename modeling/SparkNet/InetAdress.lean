/-
  SparkNet.InetAdress — addresses and their text.

  `InetAdress` keeps one endpoint in four forms (`include/InetAdress.h`); the
  C library's `inet_pton`, `inet_ntop`, `htons` and `ntohs` are modelled for
  IPv4.  Text is a list of characters.

  Main result:
    * `InetAdress.ipPortStr_inj` — the text of a peer's address tells its IPv4
      address and port apart from any other's.
-/
import Mathlib.Data.List.Basic

namespace SparkNet

/-- `std::string`. -/
abbrev Text := List Char

/-- `std::to_string` of an unsigned number. -/
def decimal (n : Nat) : Text := Nat.toDigits 10 n

def AF_INET : Nat := 2

/-- The four bytes of `in_addr`, in the order they lie in memory. -/
structure InAddr where
  a : UInt8
  b : UInt8
  c : UInt8
  d : UInt8
  deriving DecidableEq, Repr

def INADDR_ANY : InAddr := ⟨0, 0, 0, 0⟩

structure SockaddrIn where
  sin_family : Nat
  /-- In network byte order. -/
  sin_port : BitVec 16
  sin_addr : InAddr
  deriving DecidableEq, Repr

/-- `htons` on a little-endian machine: the two bytes change places. -/
def htons (p : BitVec 16) : BitVec 16 := (p <<< 8) ||| (p >>> 8)

def ntohs (p : BitVec 16) : BitVec 16 := (p <<< 8) ||| (p >>> 8)

/-! ## §1. The C library's conversions. -/

/-- The state of `inet_pton`'s scan: finished octets (newest first), the octet
being read, and whether a digit of it was seen. -/
structure PtonScan where
  octets : List Nat
  current : Nat
  sawDigit : Bool

/-- One character of `inet_pton`; `none` rejects the text. -/
def PtonScan.next (s : PtonScan) (ch : Char) : Option PtonScan :=
  if ch.isDigit then
    let value := s.current * 10 + (ch.toNat - '0'.toNat)
    if s.sawDigit && s.current == 0 then none
    else if value > 255 then none
    else if !s.sawDigit && s.octets.length ≥ 4 then none
    else some { s with current := value, sawDigit := true }
  else if ch == '.' && s.sawDigit then
    if s.octets.length ≥ 3 then none
    else some ⟨s.current :: s.octets, 0, false⟩
  else none

/-- `inet_pton(AF_INET, ip.c_str(), …)`: the text up to the first NUL must be
four decimal octets without leading zeros, separated by dots. -/
def inetPton (ip : Text) : Option InAddr := do
  let s ← (ip.takeWhile (· != '\x00')).foldlM PtonScan.next ⟨[], 0, false⟩
  match s with
  | ⟨[c, b, a], d, true⟩ =>
      some ⟨UInt8.ofNat a, UInt8.ofNat b, UInt8.ofNat c, UInt8.ofNat d⟩
  | _ => none

/-- `inet_ntop`, which knows no family here but `AF_INET`. -/
def inetNtop (family : Nat) (addr : InAddr) : Option Text :=
  if family = AF_INET then
    some (decimal addr.a.toNat ++ ['.'] ++ decimal addr.b.toNat ++ ['.']
      ++ decimal addr.c.toNat ++ ['.'] ++ decimal addr.d.toNat)
  else none

/-! ## §2. `NetOpt` and `InetAdress`. -/

/-- `NetOpt::IpStringToAddr`: the returned flag and the address written. -/
def ipStringToAddr (ip : Text) (addr : SockaddrIn) : Bool × SockaddrIn :=
  let addr := { addr with sin_family := AF_INET }
  if ip.isEmpty then (true, { addr with sin_addr := INADDR_ANY })
  else
    match inetPton ip with
    | some a => (true, { addr with sin_addr := a })
    | none => (false, addr)

/-- `NetOpt::AddrToIpString`: the returned flag and the text written. -/
def addrToIpString (addr : SockaddrIn) (ip : Text) : Bool × Text :=
  match inetNtop addr.sin_family addr.sin_addr with
  | some text => (true, text)
  | none => (false, ip)

structure InetAdress where
  addr : SockaddrIn
  ip : Text
  port : BitVec 16
  ipPortStr : Text
  deriving DecidableEq, Repr

namespace InetAdress

/-- The constructor: `_addr` is zeroed. -/
def new : InetAdress := ⟨⟨0, 0, INADDR_ANY⟩, [], 0, []⟩

def fromIpPort (self : InetAdress) (ip : Text) (port : BitVec 16) : Bool × InetAdress :=
  let self := if ip.isEmpty then { self with ip := "0.0.0.0".toList } else self
  let self := { self with port := port, addr := { self.addr with sin_port := htons port } }
  let self := { self with ipPortStr := self.ip ++ [':'] ++ decimal port.toNat }
  let (ret, addr) := ipStringToAddr ip self.addr
  (ret, { self with addr := addr })

def fromAddr (self : InetAdress) (addr : SockaddrIn) : Bool × InetAdress :=
  let self := { self with addr := addr, port := ntohs addr.sin_port }
  let (ret, ip) := addrToIpString addr self.ip
  (ret, { self with ip := ip, ipPortStr := ip ++ [':'] ++ decimal self.port.toNat })

end InetAdress

/-! ## §3. Texts tell addresses apart. -/

theorem decimal_injective : Function.Injective decimal := by
  intro m n h
  have hparsed := congrArg (fun text => Nat.ofDigitChars 10 text 0) h
  simpa [decimal] using hparsed

/-- A separator is no digit. -/
theorem not_mem_decimal {ch : Char} (h : ch.isDigit = false) (n : Nat) : ch ∉ decimal n := by
  intro hmem
  have hdigit := Nat.isDigit_of_mem_toDigits (by decide) (by decide) hmem
  exact absurd (h.symm.trans hdigit) (by simp)

/-- A text is cut at its first separator in one way. -/
theorem append_separator_inj {x y z t : Text} {ch : Char} (hx : ch ∉ x) (hy : ch ∉ y)
    (h : x ++ ch :: z = y ++ ch :: t) : x = y ∧ z = t := by
  induction x generalizing y with
  | nil =>
      cases y with
      | nil => exact ⟨rfl, (List.cons.inj h).2⟩
      | cons b y =>
          obtain ⟨rfl, _⟩ := List.cons.inj h
          exact absurd List.mem_cons_self hy
  | cons a x ih =>
      cases y with
      | nil =>
          obtain ⟨rfl, _⟩ := List.cons.inj h
          exact absurd List.mem_cons_self hx
      | cons b y =>
          obtain ⟨rfl, htail⟩ := List.cons.inj h
          obtain ⟨rfl, hz⟩ := ih (fun hm => hx (List.mem_cons_of_mem _ hm))
            (fun hm => hy (List.mem_cons_of_mem _ hm)) htail
          exact ⟨rfl, hz⟩

/-- The dotted form of an address. -/
def InAddr.dotted (i : InAddr) : Text :=
  decimal i.a.toNat ++ ['.'] ++ decimal i.b.toNat ++ ['.'] ++ decimal i.c.toNat ++ ['.']
    ++ decimal i.d.toNat

theorem InAddr.dotted_injective : Function.Injective InAddr.dotted := by
  intro i j h
  have hdot : ∀ n, '.' ∉ decimal n := not_mem_decimal (by decide)
  simp only [InAddr.dotted, List.append_assoc, List.singleton_append] at h
  obtain ⟨ha, h⟩ := append_separator_inj (hdot _) (hdot _) h
  obtain ⟨hb, h⟩ := append_separator_inj (hdot _) (hdot _) h
  obtain ⟨hc, hd⟩ := append_separator_inj (hdot _) (hdot _) h
  have hbyte : ∀ {m n : UInt8}, decimal m.toNat = decimal n.toNat → m = n := fun hm =>
    UInt8.toNat_inj.mp (decimal_injective hm)
  cases i
  cases j
  rw [InAddr.mk.injEq]
  exact ⟨hbyte ha, hbyte hb, hbyte hc, hbyte hd⟩

/-- Only digits and dots. -/
theorem InAddr.not_mem_dotted {ch : Char} (h : ch.isDigit = false) (hdot : ch ≠ '.')
    (i : InAddr) : ch ∉ i.dotted := by
  have hdec := not_mem_decimal h
  simp [InAddr.dotted, hdec, hdot]

theorem InAddr.dotted_ne_nil (i : InAddr) : i.dotted ≠ [] := by
  simp [InAddr.dotted]

theorem ntohs_ntohs (p : BitVec 16) : ntohs (ntohs p) = p := by
  apply BitVec.eq_of_getElem_eq
  intro i hi
  simp [ntohs]
  grind

/-- What the text of a peer's address tells of it. -/
def SockaddrIn.endpoint (addr : SockaddrIn) : Option InAddr × BitVec 16 :=
  (if addr.sin_family = AF_INET then some addr.sin_addr else none, addr.sin_port)

namespace InetAdress

/-- The peer as the library knows it, from the address `accept` gives. -/
def ofPeer (peer : SockaddrIn) : InetAdress := (new.fromAddr peer).2

theorem ipPortStr_ofPeer (peer : SockaddrIn) : (ofPeer peer).ipPortStr =
    ((peer.endpoint.1.map InAddr.dotted).getD [])
      ++ ':' :: decimal (ntohs peer.sin_port).toNat := by
  unfold ofPeer fromAddr addrToIpString inetNtop SockaddrIn.endpoint
  by_cases hf : peer.sin_family = AF_INET
  · simp [hf, InAddr.dotted]
  · simp [hf, new]

theorem not_mem_ipPortStr {ch : Char} (h : ch.isDigit = false) (hdot : ch ≠ '.')
    (hcolon : ch ≠ ':') (peer : SockaddrIn) : ch ∉ (ofPeer peer).ipPortStr := by
  rw [ipPortStr_ofPeer]
  have hdec := not_mem_decimal h
  cases peer.endpoint.1 with
  | none => simp [hdec, hcolon]
  | some i => simp [hdec, hcolon, InAddr.not_mem_dotted h hdot i]

/-- **The text tells the endpoint.** -/
theorem ipPortStr_inj {p q : SockaddrIn} :
    (ofPeer p).ipPortStr = (ofPeer q).ipPortStr ↔ p.endpoint = q.endpoint := by
  constructor
  · intro h
    rw [ipPortStr_ofPeer, ipPortStr_ofPeer] at h
    have hcolon : ∀ o : Option InAddr, ':' ∉ (o.map InAddr.dotted).getD [] := by
      intro o
      cases o with
      | none => simp
      | some i => exact InAddr.not_mem_dotted (by decide) (by decide) i
    obtain ⟨hip, hport⟩ := append_separator_inj (hcolon _) (hcolon _) h
    have hport' : p.sin_port = q.sin_port := by
      have hswap := congrArg ntohs (BitVec.eq_of_toNat_eq (decimal_injective hport))
      rwa [ntohs_ntohs, ntohs_ntohs] at hswap
    have hip' : p.endpoint.1 = q.endpoint.1 := by
      cases hp : p.endpoint.1 with
      | none =>
          cases hq : q.endpoint.1 with
          | none => rfl
          | some j =>
              rw [hp, hq] at hip
              exact absurd hip.symm (InAddr.dotted_ne_nil j)
      | some i =>
          cases hq : q.endpoint.1 with
          | none =>
              rw [hp, hq] at hip
              exact absurd hip (InAddr.dotted_ne_nil i)
          | some j =>
              rw [hp, hq] at hip
              rw [InAddr.dotted_injective hip]
    exact Prod.ext hip' hport'
  · intro h
    have hport : p.sin_port = q.sin_port := congrArg Prod.snd h
    rw [ipPortStr_ofPeer, ipPortStr_ofPeer, h, hport]

end InetAdress

end SparkNet
