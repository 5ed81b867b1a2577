/-! Internet addresses in text, read as the standard library of the source
reads them. -/

set_option autoImplicit false

namespace OpenGauss.Lib

inductive IpAddr where
  | v4 (octets : List Nat)
  | v6 (segments : List Nat)
  deriving DecidableEq, Repr

namespace IpAddr

def digit? (radix : Nat) (char : Char) : Option Nat :=
  let code := char.toNat
  let value :=
    if 48 ≤ code ∧ code ≤ 57 then code - 48
    else if 97 ≤ code ∧ code ≤ 122 then code - 87
    else if 65 ≤ code ∧ code ≤ 90 then code - 55
    else radix
  if value < radix then some value else none

/-- A number of at most `maxDigits` digits and below `bound`. -/
def readNumber (radix maxDigits bound : Nat) (allowZeroPrefix : Bool) (text : List Char) :
    Option (Nat × List Char) :=
  let digits := text.takeWhile fun char => (digit? radix char).isSome
  let value := (digits.filterMap (digit? radix)).foldl (fun value digit => value * radix + digit) 0
  if digits = [] ∨ maxDigits < digits.length then none
  else if !allowZeroPrefix && digits.head? == some '0' && 1 < digits.length then none
  else if value < bound then some (value, text.drop digits.length)
  else none

/-- All but the first part stand behind a separator. -/
def readSeparated {Part : Type} (separator : Char) (index : Nat)
    (read : List Char → Option (Part × List Char)) (text : List Char) :
    Option (Part × List Char) :=
  if index = 0 then read text
  else
    match text with
    | char :: rest => if char = separator then read rest else none
    | [] => none

def readOctets : Nat → Nat → List Char → Option (List Nat × List Char)
  | 0, _, text => some ([], text)
  | remaining + 1, index, text => do
      let (octet, rest) ← readSeparated '.' index (readNumber 10 3 256 false) text
      let (octets, rest) ← readOctets remaining (index + 1) rest
      return (octet :: octets, rest)

def readIpv4Addr (text : List Char) : Option (List Nat × List Char) := readOctets 4 0 text

/-- Groups of an IPv6 address, and whether they end in an IPv4 address. -/
def readGroups (limit : Nat) : Nat → List Nat → List Char → List Nat × Bool × List Char
  | 0, groups, text => (groups, false, text)
  | remaining + 1, groups, text =>
      let embedded :=
        if groups.length + 1 < limit then readSeparated ':' groups.length readIpv4Addr text
        else none
      match embedded with
      | some ([one, two, three, four], rest) =>
          (groups ++ [one * 256 + two, three * 256 + four], true, rest)
      | _ =>
          match readSeparated ':' groups.length (readNumber 16 4 65536 true) text with
          | some (group, rest) => readGroups limit remaining (groups ++ [group]) rest
          | none => (groups, false, text)

def readIpv6Addr (text : List Char) : Option (List Nat × List Char) :=
  match readGroups 8 8 [] text with
  | (head, endsInIpv4, rest) =>
      if head.length = 8 then some (head, rest)
      else if endsInIpv4 then none
      else
        match rest with
        | ':' :: ':' :: rest =>
            match readGroups (7 - head.length) (7 - head.length) [] rest with
            | (tail, _, rest) =>
                some (head ++ List.replicate (8 - head.length - tail.length) 0 ++ tail, rest)
        | _ => none

/-- `IpAddr::from_str`. -/
def parse (text : List Char) : Option IpAddr :=
  match readIpv4Addr text with
  | some (octets, rest) => if rest = [] then some (.v4 octets) else none
  | none =>
      match readIpv6Addr text with
      | some (segments, rest) => if rest = [] then some (.v6 segments) else none
      | none => none

end IpAddr

end OpenGauss.Lib
