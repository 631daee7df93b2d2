/-!
# Text from octets

Files hold octets and are read as UTF-8.  A script is read leniently: every
maximal part that no character can start with becomes one replacement character,
so that the rest of the line still runs.  A settings file is read strictly.

One machine serves both readings.  It knows how many octets of the current
character are owed and between which bounds the next of them must lie; the first
octet that breaks the bounds ends the part.

## Main definitions

* `Lead` — what the first octet of a character promises.
* `decodeLossy` — the reading that replaces what it cannot decode.
* `decodeStrict?` — the reading that refuses it.
* `encode` — the octets of a text.
-/

namespace CommandShell.Text

/-- What the first octet of a character promises: the bits that it contributes, how
many octets follow, and the bounds of the first of those. -/
structure Lead where
  /-- The bits of the code point in the first octet. -/
  bits : Nat
  /-- The number of octets that follow. -/
  owed : Nat
  /-- The least value of the second octet. -/
  low : Nat
  /-- The greatest value of the second octet. -/
  high : Nat
deriving DecidableEq, Repr

/-- The promise of a first octet; an octet that starts no character makes none.  The
bounds exclude overlong forms, surrogates and numbers beyond the code space. -/
def lead? (b : UInt8) : Option Lead :=
  let n := b.toNat
  if n < 0x80 then some ⟨n, 0, 0x80, 0xBF⟩
  else if 0xC2 ≤ n ∧ n ≤ 0xDF then some ⟨n - 0xC0, 1, 0x80, 0xBF⟩
  else if n = 0xE0 then some ⟨0, 2, 0xA0, 0xBF⟩
  else if n = 0xED then some ⟨0xD, 2, 0x80, 0x9F⟩
  else if 0xE1 ≤ n ∧ n ≤ 0xEF then some ⟨n - 0xE0, 2, 0x80, 0xBF⟩
  else if n = 0xF0 then some ⟨0, 3, 0x90, 0xBF⟩
  else if 0xF1 ≤ n ∧ n ≤ 0xF3 then some ⟨n - 0xF0, 3, 0x80, 0xBF⟩
  else if n = 0xF4 then some ⟨4, 3, 0x80, 0x8F⟩
  else none

/-- What a reading met: a character, or a part that none can start with. -/
abbrev Reading := Option Char

/-- Reads octets one at a time.  `owed` octets of the current character are still to
come, the next between `low` and `high`, and `bits` is the code point so far; with
`owed = 0` the reading stands between characters.  A part that breaks off is
reported as `none`, and the octet that broke it starts afresh. -/
def readings (bits owed low high : Nat) : List UInt8 → List Reading
  | [] => if owed = 0 then [] else [none]
  | b :: rest =>
    let begin : List Reading :=
      match lead? b with
      | none => none :: readings 0 0 0x80 0xBF rest
      | some ⟨n, 0, _, _⟩ => some (Char.ofNat n) :: readings 0 0 0x80 0xBF rest
      | some ⟨n, k + 1, l, h⟩ => readings n (k + 1) l h rest
    match owed with
    | 0 => begin
    | k + 1 =>
      if low ≤ b.toNat ∧ b.toNat ≤ high then
        let n := bits * 64 + (b.toNat - 0x80)
        if k = 0 then some (Char.ofNat n) :: readings 0 0 0x80 0xBF rest
        else readings n k 0x80 0xBF rest
      else none :: begin

/-- The characters and broken parts of a sequence of octets. -/
def readingsOf (octets : List UInt8) : List Reading :=
  readings 0 0 0x80 0xBF octets

/-- The mark that stands for a part that cannot be decoded. -/
def replacement : Char := Char.ofNat 0xFFFD

/-- The text of a sequence of octets, each broken part replaced by one mark. -/
def decodeLossy (octets : List UInt8) : List Char :=
  (readingsOf octets).map (·.getD replacement)

/-- The text of a sequence of octets, if no part of it is broken. -/
def decodeStrict? (octets : List UInt8) : Option (List Char) :=
  (readingsOf octets).mapM id

/-- The octets of a text. -/
def encode (s : String) : List UInt8 :=
  s.toUTF8.toList

end CommandShell.Text
