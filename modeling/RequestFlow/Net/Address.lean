import RequestFlow.Number.Text
import RequestFlow.Text.Reader

/-!
# Socket addresses

A socket address is a host and the number of a service on it: `1.2.3.4:80`, `[2001:db8::1]:80` or,
with the number of a scope, `[fe80::1%2]:80`.

Octets are written without leading zeros, groups in at most four hexadecimal digits, services and
scopes in decimal with any number of leading zeros. One `::` stands for at least one group of zeros,
and the last two groups of either half may be written as an IPv4 address.

`SocketAddress.text` writes the one normal form of an address: the longest run of two or more zero
groups is left out, the first of equally long ones; an IPv4 address mapped into IPv6 keeps its dots;
scope zero is not written.
-/

namespace RequestFlow.Net

structure Ipv4 where
  a : UInt8
  b : UInt8
  c : UInt8
  d : UInt8
deriving DecidableEq, Repr

structure Ipv6 where
  groups : List UInt16
  length_groups : groups.length = 8
deriving DecidableEq

/-- A host and the number of a service on it. -/
inductive SocketAddress where
  | v4 (host : Ipv4) (service : UInt16)
  | v6 (host : Ipv6) (scope : UInt32) (service : UInt16)
deriving DecidableEq

/-! ### Reading -/

def octet? (s : List Char) : Option (UInt8 × List Char) :=
  match spanDigits 10 s with
  | ([], _) => none
  | (0 :: _ :: _, _) => none
  | (digits, rest) =>
    if digits.length ≤ 3 ∧ ofDigits 10 digits < 256 then some (.ofNat (ofDigits 10 digits), rest)
    else none

/-- Four octets between dots. -/
def ipv4? (s : List Char) : Option (Ipv4 × List Char) := do
  let (a, s) ← octet? s
  let (b, s) ← octet? (← expect? '.' s)
  let (c, s) ← octet? (← expect? '.' s)
  let (d, s) ← octet? (← expect? '.' s)
  some (⟨a, b, c, d⟩, s)

def group? (s : List Char) : Option (UInt16 × List Char) :=
  match spanDigits 16 s with
  | ([], _) => none
  | (digits, rest) =>
    if digits.length ≤ 4 then some (.ofNat (ofDigits 16 digits), rest) else none

/-- The two groups that an IPv4 address stands for. -/
def Ipv4.groups (h : Ipv4) : List UInt16 :=
  [.ofNat (h.a.toNat * 256 + h.b.toNat), .ofNat (h.c.toNat * 256 + h.d.toNat)]

/-- The groups at the head of a text. -/
structure Groups where
  groups : List UInt16
  /-- Whether the last two of them were written as an IPv4 address. -/
  dotted : Bool
  rest : List Char

/-- Read as many groups as there are, at most `room`. Groups are separated by colons. -/
def readGroups (first : Bool) : Nat → List Char → Groups
  | 0, s => ⟨[], false, s⟩
  | room + 1, s =>
    match if first then some s else expect? ':' s with
    | none => ⟨[], false, s⟩
    | some start =>
      match if 1 ≤ room then ipv4? start else none with
      | some (h, rest) => ⟨h.groups, true, rest⟩
      | none =>
        match group? start with
        | none => ⟨[], false, s⟩
        | some (g, rest) =>
          let more := readGroups false room rest
          { more with groups := g :: more.groups }

/-- The address of a list of groups, if there are eight. -/
def Ipv6.ofGroups? (groups : List UInt16) : Option Ipv6 :=
  if h : groups.length = 8 then some ⟨groups, h⟩ else none

def ipv6? (s : List Char) : Option (Ipv6 × List Char) := do
  let head := readGroups true 8 s
  if head.groups.length = 8 then
    some (← Ipv6.ofGroups? head.groups, head.rest)
  else if head.dotted then none
  else
    let rest ← expect? ':' head.rest
    let rest ← expect? ':' rest
    let tail := readGroups true (7 - head.groups.length) rest
    let zeros := List.replicate (8 - head.groups.length - tail.groups.length) 0
    some (← Ipv6.ofGroups? (head.groups ++ zeros ++ tail.groups), tail.rest)

/-- A decimal number below a bound, behind a mark. -/
def markedNumber? (mark : Char) (bound : Nat) (s : List Char) : Option (Nat × List Char) := do
  match spanDigits 10 (← expect? mark s) with
  | ([], _) => none
  | (digits, rest) =>
    let n := ofDigits 10 digits
    if n < bound then some (n, rest) else none

def socket4? (s : List Char) : Option (SocketAddress × List Char) := do
  let (host, s) ← ipv4? s
  let (service, s) ← markedNumber? ':' 65536 s
  some (.v4 host (.ofNat service), s)

def socket6? (s : List Char) : Option (SocketAddress × List Char) := do
  let s ← expect? '[' s
  let (host, s) ← ipv6? s
  let (scope, s) := (markedNumber? '%' 4294967296 s).getD (0, s)
  let s ← expect? ']' s
  let (service, s) ← markedNumber? ':' 65536 s
  some (.v6 host (.ofNat scope) (.ofNat service), s)

def SocketAddress.read? (s : List Char) : Option SocketAddress :=
  match (socket4? s).orElse fun _ => socket6? s with
  | some (address, []) => some address
  | _ => none

def SocketAddress.ofText? (s : String) : Option SocketAddress := read? s.toList

/-! ### Writing -/

def decimal (n : Nat) : List Char := Nat.toDigits 10 n

/-- An IPv4 address in dotted form. -/
def Ipv4.chars (h : Ipv4) : List Char :=
  decimal h.a.toNat ++ '.' :: decimal h.b.toNat ++ '.' :: decimal h.c.toNat ++
    '.' :: decimal h.d.toNat

def groupChars (groups : List UInt16) : List Char :=
  [':'].intercalate (groups.map fun g => Nat.toDigits 16 g.toNat)

/-- Where the longest run of zeros starts and how long it is, the first of equally long ones. The
search stands at `position`; the run up to there began at `start`. -/
def longestZeros (position start : Nat) (best : Nat × Nat) : List UInt16 → Nat × Nat
  | [] => best
  | g :: rest =>
    if g = 0 then
      let length := position + 1 - start
      longestZeros (position + 1) start (if best.2 < length then (start, length) else best) rest
    else longestZeros (position + 1) (position + 1) best rest

/-- An IPv6 address in its normal form. -/
def Ipv6.chars (h : Ipv6) : List Char :=
  match h.groups with
  | [0, 0, 0, 0, 0, 0xffff, g, k] =>
    "::ffff:".toList ++
      Ipv4.chars ⟨.ofNat (g.toNat / 256), .ofNat g.toNat, .ofNat (k.toNat / 256), .ofNat k.toNat⟩
  | groups =>
    let (start, length) := longestZeros 0 0 (0, 0) groups
    if 1 < length then
      groupChars (groups.take start) ++ ':' :: ':' :: groupChars (groups.drop (start + length))
    else groupChars groups

def SocketAddress.chars : SocketAddress → List Char
  | .v4 host service => host.chars ++ ':' :: decimal service.toNat
  | .v6 host scope service =>
    '[' :: host.chars ++ (if scope = 0 then [] else '%' :: decimal scope.toNat) ++
      ']' :: ':' :: decimal service.toNat

def SocketAddress.text (a : SocketAddress) : String := String.ofList a.chars

end RequestFlow.Net
