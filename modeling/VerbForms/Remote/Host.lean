import VerbForms.Text.Digits
import VerbForms.Text.Printable

/-!
# Host names in addresses

Which host texts stand for numeric addresses, and which of those are well formed.
-/

namespace VerbForms.Remote

/-- Whether the characters consist of some parts of digits with one character between two parts. -/
def isDotted : Nat → Bool → List Char → Bool
  | parts, seen, [] => parts == 1 && seen
  | parts, seen, c :: rest =>
    (c.isDigit && isDotted parts true rest) || (seen && 1 < parts && isDotted (parts - 1) false rest)
termination_by _ _ cs => cs.length

/-- A part of an IPv4 address: up to 255, without leading zeros. -/
def isOctet (part : List Char) : Bool :=
  !part.isEmpty && part.all Char.isDigit && part.length ≤ 3 && (part.length == 1 || part.head? != some '0')
    && Text.naturalOf part ≤ 255

/-- IPv4 addresses. -/
def isIPv4 (host : List Char) : Bool :=
  let parts := Text.splitAt '.' host
  parts.length == 4 && parts.all isOctet

/-- Hexadecimal digits. -/
def isHexDigit (c : Char) : Bool := c.isDigit || ('a' ≤ c && c ≤ 'f') || ('A' ≤ c && c ≤ 'F')

/-- A part of an IPv6 address. -/
def isHextet (part : List Char) : Bool := !part.isEmpty && part.length ≤ 4 && part.all isHexDigit

/-- The parts of an IPv6 address, an IPv4 address at the end counting as two parts. -/
def hextets (host : List Char) : Option (List (List Char)) :=
  let parts := Text.splitAt ':' host
  match parts.getLast? with
  | some last =>
    if last.contains '.' then
      if isIPv4 last then some (parts.dropLast ++ [['0'], ['0']]) else none
    else some parts
  | none => some parts

/-- IPv6 addresses: eight parts, or fewer with one gap, which is an empty part between two colons. -/
def isIPv6 (host : List Char) : Bool :=
  match hextets host with
  | none => false
  | some parts =>
    if (Text.splitAt ':' host).length < 3 || 9 < parts.length then false
    else
      let inner := (parts.drop 1).dropLast
      match inner.findIdx? List.isEmpty with
      | none => parts.length == 8 && parts.all isHextet
      | some gap =>
        let before := parts.take (gap + 1)
        let behind := parts.drop (gap + 2)
        let head := if before == [[]] then [] else before
        let tail := if behind == [[]] then [] else behind
        head.all isHextet && tail.all isHextet && head.length + tail.length < 8

end VerbForms.Remote
