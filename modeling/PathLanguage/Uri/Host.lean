/-
Hosts: addresses, domain names of the special schemes, and what other schemes have in their place.
-/
import PathLanguage.Fault
import PathLanguage.Uri.Address
import PathLanguage.Uri.Domain

namespace PathLanguage.Uri

def specialPorts : List (String × Option Nat) :=
  [("http", some 80), ("https", some 443), ("ws", some 80), ("wss", some 443), ("ftp", some 21),
    ("file", none)]

def isSpecial (scheme : List Char) : Bool := (specialPorts.lookup (String.ofList scheme)).isSome

def isFile (scheme : List Char) : Bool := scheme == "file".toList

/-- An address in brackets. -/
def readBracketed (cs : List Char) : Except UriFault (List Char) :=
  match if cs.getLast? == some ']' then IPv6.read? (cs.drop 1).dropLast else none with
  | some ns => .ok ('[' :: IPv6.textOf ns ++ [']'])
  | none => .error .invalidIPv6

/-- A domain name, which is an address if its last label is a number. -/
def readDomain (cs : List Char) : Except UriFault (List Char) :=
  match (decode? cs).bind Domain.toAscii? with
  | none => .error .invalidDomain
  | some domain =>
    if domain.isEmpty then .error .emptyHost
    else if IPv4.isMeant domain then
      match IPv4.read? domain with
      | some address => .ok address
      | none => .error .invalidIPv4
    else .ok domain

/-- Any text without the characters that end a host. -/
def readOpaqueHost (cs : List Char) : Except UriFault (List Char) :=
  if cs.any fun c => c.toNat == 0 || "\t\n\r #/:<>?@[\\]^|".toList.contains c then
    .error .invalidDomainCharacter
  else .ok (encode [] cs)

def readHost (special : Bool) (cs : List Char) : Except UriFault (List Char) :=
  if cs.head? == some '[' then readBracketed cs
  else if special then readDomain cs
  else readOpaqueHost cs

/-- The port number behind a host, left out when it is the usual one of the scheme. -/
def readPort (scheme : List Char) (digits : List Char) : Except UriFault (List Char) :=
  let n := digits.foldl (fun n c => 10 * n + (c.toNat - '0'.toNat)) 0
  if !digits.all Char.isDigit || 65535 < n then .error .invalidPort
  else if digits.isEmpty || specialPorts.lookup (String.ofList scheme) == some (some n) then .ok []
  else .ok (':' :: (toString n).toList)

end PathLanguage.Uri
