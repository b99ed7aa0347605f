/-!
# UTF-8

Characters are encoded to octets, and octets are decoded to characters. Where octets are not UTF-8 the
fault says which octets are at fault, and whether no character starts like that, an octet does not
continue its character, or the octets end within a character.
-/

namespace DisplayFilter.Text.Utf8

inductive Reason where
  | start
  | continuation
  | truncated
  deriving DecidableEq, Repr

/-- The octets at fault: the first of them, where it stands, and how many they are. An unfinished
character at the end is counted from its own first octet, and so is the beginning of a surrogate. -/
structure Fault where
  octet : Nat
  position : Nat
  length : Nat
  reason : Reason
  deriving DecidableEq, Repr

/-- How many octets follow this first octet, and the range of the second one. -/
def lead? (octet : Nat) : Option (Nat × Nat × Nat) :=
  if octet < 0x80 then some (0, 0, 0)
  else if octet < 0xC2 then none
  else if octet < 0xE0 then some (1, 0x80, 0xBF)
  else if octet = 0xE0 then some (2, 0xA0, 0xBF)
  else if octet = 0xED then some (2, 0x80, 0x9F)
  else if octet < 0xF0 then some (2, 0x80, 0xBF)
  else if octet = 0xF0 then some (3, 0x90, 0xBF)
  else if octet < 0xF4 then some (3, 0x80, 0xBF)
  else if octet = 0xF4 then some (3, 0x80, 0x8F)
  else none

/-- Takes the octets that continue a character. On success the number of the character, and otherwise
how many octets continued it. -/
def continuation (low high : Nat) : Nat → Nat → Nat → List Nat → Except (Nat × Reason) Nat
  | 0, _, number, _ => .ok number
  | _ + 1, taken, _, [] => .error (taken, .truncated)
  | count + 1, taken, number, octet :: rest =>
    if low ≤ octet && octet ≤ high then
      continuation 0x80 0xBF count (taken + 1) (number * 64 + octet % 64) rest
    else .error (taken, .continuation)

/-- The bits of a first octet that belong to the number of the character. -/
def leadBits (octet count : Nat) : Nat :=
  if count = 0 then octet else octet % Nat.pow 2 (6 - count)

/-- The first two octets of a surrogate, and no octet after them. -/
def isSurrogateStart (octet : Nat) (rest : List Nat) : Bool :=
  match rest with
  | [second] => octet == 0xED && 0xA0 ≤ second && second ≤ 0xBF
  | _ => false

/-- Decodes octets from a position on; `pending` octets belong to the character before. -/
def decodeFrom (position pending : Nat) : List Nat → Except Fault (List Char)
  | [] => .ok []
  | octet :: rest =>
    match pending with
    | pending + 1 => decodeFrom (position + 1) pending rest
    | 0 =>
      match lead? octet with
      | none => .error ⟨octet, position, 1, .start⟩
      | some (count, low, high) =>
        match continuation low high count 1 (leadBits octet count) rest with
        | .error (taken, .truncated) => .error ⟨octet, 0, taken, .truncated⟩
        | .error (taken, reason) =>
          .error ⟨octet, if isSurrogateStart octet rest then 0 else position, taken, reason⟩
        | .ok number => do
          let decoded ← decodeFrom (position + 1) count rest
          return Char.ofNat number :: decoded

def encode (text : List Char) : List Nat :=
  text.flatMap fun c => (String.utf8EncodeChar c).map UInt8.toNat

def decode (octets : List Nat) : Except Fault (List Char) :=
  decodeFrom 0 0 octets

end DisplayFilter.Text.Utf8
