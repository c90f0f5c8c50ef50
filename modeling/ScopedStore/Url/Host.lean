import ScopedStore.Url.Address

/-!
Hosts: names in lower case, numeric addresses, and the text of schemes that know no hosts.
-/

namespace ScopedStore

/-- Why a text is no URL. -/
inductive UrlError where
  | emptyHost
  | invalidDomain
  | invalidPort
  | invalidIpv4
  | invalidIpv6
  | invalidDomainCharacter
  | relative
  deriving DecidableEq

def UrlError.message : UrlError → String
  | emptyHost => "empty host"
  | invalidDomain => "invalid international domain name"
  | invalidPort => "invalid port number"
  | invalidIpv4 => "invalid IPv4 address"
  | invalidIpv6 => "invalid IPv6 address"
  | invalidDomainCharacter => "invalid domain character"
  | relative => "relative URL without a base"

namespace Url

/-- The characters that a name must not have; controls are forbidden too. -/
def forbiddenInName : List Char :=
  [' ', '%', '#', '/', ':', '<', '>', '?', '@', '[', '\\', ']', '^', '|', '\x7f']

def isForbiddenInName (c : Char) : Bool :=
  c.toNat < 0x20 || 0x80 ≤ c.toNat || forbiddenInName.contains c

/-- The characters of a name that has been brought to ASCII, which is in lower case. -/
def isInName (c : Char) : Bool := !isForbiddenInName c && !c.isUpper

/-- A way to bring the name of a host to ASCII. The tables for names beyond ASCII are not part of
this library; by any of them only characters of a name come out. -/
class Naming where
  toAscii : Text.Bytes → Except UrlError (List Char)
  isInName_of_toAscii : ∀ {bytes name}, toAscii bytes = .ok name → name.all isInName = true

/-- A name in lower case. Names beyond ASCII are not supported. -/
def asciiName (bytes : Text.Bytes) : Except UrlError (List Char) :=
  match Text.ofBytes? bytes with
  | none => .error .invalidDomain
  | some text =>
    if text.toList.any isForbiddenInName then .error .invalidDomain
    else .ok (text.toList.map Char.toLower)

theorem isInName_toLower {c : Char} (h : isForbiddenInName c = false) :
    isInName c.toLower = true := by
  have hlt : c.toNat < 0x80 := by
    simp only [isForbiddenInName, Bool.or_eq_false_iff, decide_eq_false_iff_not] at h
    omega
  exact Text.forall_ascii (P := fun c => isForbiddenInName c = false → isInName c.toLower = true)
    (by decide) hlt h

/-- Names in ASCII. -/
instance : Naming where
  toAscii := asciiName
  isInName_of_toAscii h := by
    unfold asciiName at h
    split at h
    · cases h
    next text _ =>
      split at h
      · cases h
      next hallowed =>
        cases h
        rw [List.all_map, List.all_eq_true]
        intro c hc
        refine isInName_toLower (Bool.not_eq_true _ ▸ fun hforbidden => hallowed ?_)
        exact List.any_eq_true.mpr ⟨c, hc, hforbidden⟩

inductive Host where
  | domain (name : String)
  | ipv4 (address : Nat)
  | ipv6 (pieces : List Nat)
  deriving DecidableEq

namespace Host

def chars : Host → List Char
  | domain name => name.toList
  | ipv4 address => Ipv4.chars address
  | ipv6 pieces => '[' :: Ipv6.chars pieces ++ [']']

def text (host : Host) : String := String.ofList host.chars

def bracketed (cs : List Char) : Except UrlError Host :=
  if cs.getLast? = some ']' then
    match Ipv6.parse? cs.dropLast with
    | some pieces => .ok (ipv6 pieces)
    | none => .error .invalidIpv6
  else .error .invalidIpv6

/-- Reads the host of a scheme that knows hosts. -/
def parse [Naming] (cs : List Char) : Except UrlError Host :=
  match cs with
  | '[' :: rest => bracketed rest
  | _ => do
    let name ← Naming.toAscii (decode cs)
    if name = [] then .error .emptyHost
    else if Ipv4.looksNumeric name then
      match Ipv4.parse? name with
      | some address => .ok (ipv4 address)
      | none => .error .invalidIpv4
    else .ok (domain (String.ofList name))

private def forbiddenInOpaque : List Char :=
  ['\x00', ' ', '#', '/', ':', '<', '>', '?', '@', '[', '\\', ']', '^', '|']

/-- Reads the host of a scheme that knows no hosts, which is kept as it is. -/
def parseOpaque (cs : List Char) : Except UrlError Host :=
  match cs with
  | '[' :: rest => bracketed rest
  | _ =>
    if cs.any forbiddenInOpaque.contains then .error .invalidDomainCharacter
    else .ok (domain (String.ofList (encode [] cs)))

end Host

end Url

end ScopedStore
