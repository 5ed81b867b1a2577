import OpenGauss.Lib.IpAddr

/-! Internet addresses as the standard library of the source displays them. -/

set_option autoImplicit false

namespace OpenGauss.Lib.IpAddr

structure Span where
  start : Nat := 0
  length : Nat := 0
  deriving DecidableEq, Repr

/-- The longest run of zeros so far, and the one that ends here. -/
structure Zeros where
  longest : Span := {}
  current : Span := {}
  deriving DecidableEq, Repr

def Zeros.next (zeros : Zeros) (segment : Nat × Nat) : Zeros :=
  if segment.1 = 0 then
    let start := if zeros.current.length = 0 then segment.2 else zeros.current.start
    let current : Span := ⟨start, zeros.current.length + 1⟩
    ⟨if zeros.longest.length < current.length then current else zeros.longest, current⟩
  else { zeros with current := {} }

/-- The longest run of zeros, the first one where there are several. -/
def zeroes (segments : List Nat) : Span :=
  (segments.zipIdx.foldl Zeros.next {}).longest

def displayIpv4 (octets : List Nat) : List Char := ['.'].intercalate (octets.map (Nat.toDigits 10))

def fmtSubslice (chunk : List Nat) : List Char := [':'].intercalate (chunk.map (Nat.toDigits 16))

def displayIpv6 (segments : List Nat) : List Char :=
  match segments with
  | [0, 0, 0, 0, 0, 65535, high, low] =>
      "::ffff:".toList ++ displayIpv4 [high / 256, high % 256, low / 256, low % 256]
  | _ =>
      let zeroes := zeroes segments
      if 1 < zeroes.length then
        fmtSubslice (segments.take zeroes.start) ++ "::".toList ++
          fmtSubslice (segments.drop (zeroes.start + zeroes.length))
      else fmtSubslice segments

/-- `IpAddr::to_string`. -/
def display : IpAddr → List Char
  | .v4 octets => displayIpv4 octets
  | .v6 segments => displayIpv6 segments

example : display (.v6 [8193, 3512, 0, 0, 1, 0, 0, 1]) = "2001:db8::1:0:0:1".toList := by decide

end OpenGauss.Lib.IpAddr
