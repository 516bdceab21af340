/-
  SparkNet.AddressForms — do the four forms of an address agree?

  `FromAddr` fills every field from its argument.  `FromIpPort` has no `else` to
  its test for an empty text: the text it is given goes into `_addr` only, and
  `_ipPortStr` is put together from whatever `_ip` was before.

  Main results:
    * `inetPton_dotted` — `inet_pton` reads back what `inet_ntop` writes;
    * `forms_agree_iff` — over a run of any length the forms agree after each call
      that returns true exactly when `FromIpPort` is only given the text the
      object already has.
-/
import Mathlib.Data.List.TakeWhile
import SparkNet.InetAdress
import SparkNet.Runs

namespace SparkNet

open Runs

/-! ## §1. Calls on an address. -/

inductive AddrCall where
  | fromIpPort (ip : Text) (port : BitVec 16)
  | fromAddr (addr : SockaddrIn)

namespace InetAdress

def call (self : InetAdress) : AddrCall → Bool × InetAdress
  | .fromIpPort ip port => self.fromIpPort ip port
  | .fromAddr addr => self.fromAddr addr

def next (self : InetAdress) (c : AddrCall) : Option InetAdress := some (self.call c).2

/-- The fields describe one endpoint. -/
structure OneEndpoint (x : InetAdress) : Prop where
  sin_port : x.addr.sin_port = htons x.port
  ip : x.ip = x.addr.sin_addr.dotted
  ipPortStr : x.ipPortStr = x.ip ++ ':' :: decimal x.port.toNat

/-- Two objects with the same text and the same port. -/
def SameText (x y : InetAdress) : Prop :=
  x.ip = y.ip ∧ x.port = y.port ∧ x.ipPortStr = y.ipPortStr

/-- A call that returns true leaves the forms in agreement. -/
def Agrees (self : InetAdress) (c : AddrCall) : Prop :=
  (self.call c).1 = true → (self.call c).2.OneEndpoint

/-- A text that is parsed is the one the object has already. -/
def Fits (self : InetAdress) : AddrCall → Prop
  | .fromIpPort ip _ => ∀ i, inetPton ip = some i → self.ip = i.dotted
  | .fromAddr _ => True

end InetAdress

/-! ## §2. `inet_pton` on canonical text. -/

theorem digitChar_spec {d : Nat} (h : d < 10) :
    (Nat.digitChar d).isDigit = true ∧ (Nat.digitChar d).toNat - '0'.toNat = d := by
  have hall : ∀ d : Fin 10,
      (Nat.digitChar d).isDigit = true ∧ (Nat.digitChar d).toNat - '0'.toNat = d := by
    decide
  exact hall ⟨d, h⟩

namespace PtonScan

variable {octets : List Nat}

theorem next_first {d : Nat} (hd : d < 10) (hroom : octets.length < 4) :
    next ⟨octets, 0, false⟩ (Nat.digitChar d) = some ⟨octets, d, true⟩ := by
  obtain ⟨hdigit, hvalue⟩ := digitChar_spec hd
  have hle : ¬ d > 255 := by omega
  have hlen : ¬ octets.length ≥ 4 := by omega
  simp only [next, hdigit, hvalue, if_true]
  simp [hle, hlen]

theorem next_digit {n d : Nat} (hn : 0 < n) (hd : d < 10) (hle : n * 10 + d ≤ 255) :
    next ⟨octets, n, true⟩ (Nat.digitChar d) = some ⟨octets, n * 10 + d, true⟩ := by
  obtain ⟨hdigit, hvalue⟩ := digitChar_spec hd
  have hne : n ≠ 0 := by omega
  simp only [next, hdigit, hvalue, if_true]
  simp [hne, hle]

theorem next_dot {n : Nat} (hroom : octets.length < 3) :
    next ⟨octets, n, true⟩ '.' = some ⟨n :: octets, 0, false⟩ := by
  have hdot : ('.').isDigit = false := by decide
  have hlen : ¬ octets.length ≥ 3 := by omega
  simp [next, hdot, hlen]

/-- **An octet in decimal** is read as itself. -/
theorem foldlM_decimal (hroom : octets.length < 4) :
    ∀ {n : Nat}, n ≤ 255 →
      (decimal n).foldlM next ⟨octets, 0, false⟩ = some ⟨octets, n, true⟩ := by
  intro n
  induction n using Nat.strongRecOn with
  | _ n ih =>
    intro hn
    rw [decimal, Nat.toDigits_eq_if (by decide)]
    split
    next hsmall =>
      show (next ⟨octets, 0, false⟩ (Nat.digitChar n)).bind some = _
      rw [next_first hsmall hroom]
      rfl
    next hlarge =>
      -- the digits before the last are those of `n / 10`
      have hhead := ih (n / 10) (by omega) (by omega)
      have hlast : next ⟨octets, n / 10, true⟩ (Nat.digitChar (n % 10))
          = some ⟨octets, n / 10 * 10 + n % 10, true⟩ := by
        apply next_digit
        · omega
        · omega
        · omega
      have hval : n / 10 * 10 + n % 10 = n := by omega
      rw [List.foldlM_append, show Nat.toDigits 10 (n / 10) = decimal (n / 10) from rfl, hhead]
      show (next ⟨octets, n / 10, true⟩ (Nat.digitChar (n % 10))).bind some = _
      rw [hlast, hval]
      rfl

/-- An octet and the dot after it. -/
theorem foldlM_octet {n : Nat} (hroom : octets.length < 3) (hn : n ≤ 255) (rest : Text) :
    (decimal n ++ '.' :: rest).foldlM next ⟨octets, 0, false⟩
      = rest.foldlM next ⟨n :: octets, 0, false⟩ := by
  rw [List.foldlM_append, foldlM_decimal (by omega) hn]
  show (next ⟨octets, n, true⟩ '.').bind (fun s => rest.foldlM next s) = _
  rw [next_dot hroom]
  rfl

end PtonScan

/-- **Canonical text** denotes the address it was written from. -/
theorem inetPton_dotted (i : InAddr) : inetPton i.dotted = some i := by
  have hbyte : ∀ b : UInt8, b.toNat ≤ 255 := fun b => Nat.le_of_lt_succ b.toNat_lt
  have hnul : i.dotted.takeWhile (· != '\x00') = i.dotted := by
    apply List.takeWhile_eq_self_iff.mpr
    intro ch hch
    have hne : ch ≠ '\x00' := by
      rintro rfl
      exact InAddr.not_mem_dotted (by decide) (by decide) i hch
    simpa using hne
  have hscan : i.dotted.foldlM PtonScan.next ⟨[], 0, false⟩
      = some ⟨[i.c.toNat, i.b.toNat, i.a.toNat], i.d.toNat, true⟩ := by
    simp only [InAddr.dotted, List.append_assoc, List.cons_append, List.nil_append]
    rw [PtonScan.foldlM_octet (by simp) (hbyte _), PtonScan.foldlM_octet (by simp) (hbyte _),
      PtonScan.foldlM_octet (by simp) (hbyte _), PtonScan.foldlM_decimal (by simp) (hbyte _)]
  rw [inetPton, hnul, hscan]
  simp

/-! ## §3. One call. -/

namespace InetAdress

variable {self : InetAdress}

theorem dotted_any : INADDR_ANY.dotted = "0.0.0.0".toList := by
  decide

theorem fromIpPort_nil (self : InetAdress) (port : BitVec 16) :
    self.fromIpPort [] port = (true, ⟨⟨AF_INET, htons port, INADDR_ANY⟩, "0.0.0.0".toList, port,
      "0.0.0.0".toList ++ ':' :: decimal port.toNat⟩) := by
  simp [fromIpPort, ipStringToAddr]

theorem inetPton_nil : inetPton [] = none := by
  decide

/-- A text that is parsed leaves `_ip` alone. -/
theorem fromIpPort_of_inetPton {ip : Text} {i : InAddr} (h : inetPton ip = some i)
    (port : BitVec 16) :
    self.fromIpPort ip port = (true, ⟨⟨AF_INET, htons port, i⟩, self.ip, port,
      self.ip ++ ':' :: decimal port.toNat⟩) := by
  have hne : ip ≠ [] := by
    rintro rfl
    rw [inetPton_nil] at h
    cases h
  simp [fromIpPort, ipStringToAddr, hne, h]

/-- A text that is refused. -/
theorem fromIpPort_of_malformed {ip : Text} (hne : ip ≠ []) (h : inetPton ip = none)
    (port : BitVec 16) : (self.fromIpPort ip port).1 = false := by
  simp [fromIpPort, ipStringToAddr, hne, h]

theorem htons_ntohs (p : BitVec 16) : htons (ntohs p) = p := ntohs_ntohs p

theorem ntohs_htons (p : BitVec 16) : ntohs (htons p) = p := ntohs_ntohs p

theorem fromAddr_inet {addr : SockaddrIn} (h : addr.sin_family = AF_INET) :
    self.fromAddr addr = (true, ⟨addr, addr.sin_addr.dotted, ntohs addr.sin_port,
      addr.sin_addr.dotted ++ ':' :: decimal (ntohs addr.sin_port).toNat⟩) := by
  simp [fromAddr, addrToIpString, inetNtop, h, InAddr.dotted]

theorem fromAddr_other {addr : SockaddrIn} (h : addr.sin_family ≠ AF_INET) :
    (self.fromAddr addr).1 = false := by
  simp [fromAddr, addrToIpString, inetNtop, h]

/-- `FromAddr` fills every field from its argument. -/
theorem agrees_fromAddr (self : InetAdress) (addr : SockaddrIn) :
    self.Agrees (.fromAddr addr) := by
  intro hret
  by_cases hf : addr.sin_family = AF_INET
  · show (self.fromAddr addr).2.OneEndpoint
    rw [fromAddr_inet hf]
    exact ⟨(htons_ntohs _).symm, rfl, rfl⟩
  · have hrefused : (self.call (.fromAddr addr)).1 = false := fromAddr_other hf
    rw [hrefused] at hret
    cases hret

/-- **One call** leaves the forms in agreement exactly when it fits. -/
theorem agrees_iff_fits (self : InetAdress) (c : AddrCall) : self.Agrees c ↔ self.Fits c := by
  cases c with
  | fromAddr addr => exact ⟨fun _ => trivial, fun _ => agrees_fromAddr self addr⟩
  | fromIpPort ip port =>
      unfold Agrees Fits
      show ((self.fromIpPort ip port).1 = true → (self.fromIpPort ip port).2.OneEndpoint)
        ↔ ∀ i, inetPton ip = some i → self.ip = i.dotted
      cases hparsed : inetPton ip with
      | some i =>
          rw [fromIpPort_of_inetPton hparsed]
          constructor
          · rintro h _ ⟨⟩
            exact (h rfl).ip
          · intro h _
            exact ⟨rfl, h i rfl, rfl⟩
      | none =>
          have hnone : ∀ i, (none : Option InAddr) = some i → self.ip = i.dotted := by
            rintro _ ⟨⟩
          refine ⟨fun _ => hnone, fun _ hret => ?_⟩
          by_cases hne : ip = []
          · rw [hne, fromIpPort_nil]
            exact ⟨rfl, dotted_any.symm, rfl⟩
          · rw [fromIpPort_of_malformed hne hparsed] at hret
            cases hret

/-- What `FromIpPort` stored, and what `FromAddr` makes of its `_addr`. -/
theorem sameText_iff {ip : Text} {i : InAddr} (h : inetPton ip = some i) (other : InetAdress)
    (port : BitVec 16) :
    (other.fromAddr (self.fromIpPort ip port).2.addr).2.SameText (self.fromIpPort ip port).2
      ↔ self.ip = i.dotted := by
  rw [fromIpPort_of_inetPton h, fromAddr_inet rfl]
  constructor
  · intro hsame
    exact hsame.1.symm
  · intro hip
    unfold SameText
    simp only [ntohs_htons, hip, and_self]

end InetAdress

/-! ## §4. Whole runs. -/

/-- **When the forms agree.**  Over every sequence of calls on every object they do
after each call that returns true iff `FromIpPort` is only given text that denotes
what `_ip` says already.  `FromAddr` applied to what `FromIpPort` made of a valid
text gives what `FromIpPort` stored under the same condition. -/
theorem forms_agree_iff (self : InetAdress) :
    (∀ calls, Along InetAdress.next InetAdress.Agrees self calls
        ↔ Along InetAdress.next InetAdress.Fits self calls)
      ∧ (∀ i, inetPton i.dotted = some i)
      ∧ ∀ ip i, inetPton ip = some i → ∀ (other : InetAdress) port,
          (other.fromAddr (self.fromIpPort ip port).2.addr).2.SameText (self.fromIpPort ip port).2
            ↔ self.ip = i.dotted := by
  refine ⟨fun calls => ?_, inetPton_dotted,
    fun _ _ h other port => InetAdress.sameText_iff h other port⟩
  have hsame : InetAdress.Agrees = InetAdress.Fits := by
    funext x c
    exact propext (InetAdress.agrees_iff_fits x c)
  rw [hsame]

/-- **An address that has no text**: a fresh object is given "127.0.0.1". -/
theorem fresh_address_has_no_text :
    ¬ ∀ (self : InetAdress) (calls : List AddrCall),
        Along InetAdress.next InetAdress.Agrees self calls := by
  intro h
  have hcall := (h .new [.fromIpPort "127.0.0.1".toList 80]).1 (by decide)
  have hip : (InetAdress.new.fromIpPort "127.0.0.1".toList 80).2.ip ≠ "127.0.0.1".toList := by
    decide
  exact hip hcall.ip

end SparkNet
