import Mathlib.Data.Nat.Notation

/-! Text files as the modelled language reads them: strict UTF-8, with every line end
turned into a line feed. -/

namespace UdpAnalyzer

/-- The text of a byte string, of which a character is read already: `owed` bytes are
missing, the next one between `low` and `high`. -/
def decodeFrom (owed low high value : ℕ) : List UInt8 → Option (List Char)
  | [] => if owed = 0 then some [] else none
  | b :: rest =>
    let n := b.toNat
    if owed = 0 then
      if n ≤ 0x7F then (decodeFrom 0 0 0 0 rest).map (Char.ofNat n :: ·)
      else if 0xC2 ≤ n ∧ n ≤ 0xDF then decodeFrom 1 0x80 0xBF (n - 0xC0) rest
      else if n = 0xE0 then decodeFrom 2 0xA0 0xBF 0 rest
      else if n = 0xED then decodeFrom 2 0x80 0x9F 13 rest
      else if 0xE1 ≤ n ∧ n ≤ 0xEF then decodeFrom 2 0x80 0xBF (n - 0xE0) rest
      else if n = 0xF0 then decodeFrom 3 0x90 0xBF 0 rest
      else if 0xF1 ≤ n ∧ n ≤ 0xF3 then decodeFrom 3 0x80 0xBF (n - 0xF0) rest
      else if n = 0xF4 then decodeFrom 3 0x80 0x8F 4 rest
      else none
    else if low ≤ n ∧ n ≤ high then
      let value := value * 64 + (n - 0x80)
      if owed = 1 then (decodeFrom 0 0 0 0 rest).map (Char.ofNat value :: ·)
      else decodeFrom (owed - 1) 0x80 0xBF value rest
    else none

/-- `data.decode("utf-8")`. -/
def decodeUtf8 (data : List UInt8) : Option (List Char) := decodeFrom 0 0 0 0 data

/-- Line ends as text mode gives them. -/
def universalNewlines : List Char → List Char
  | '\r' :: '\n' :: rest => '\n' :: universalNewlines rest
  | '\r' :: rest => '\n' :: universalNewlines rest
  | c :: rest => c :: universalNewlines rest
  | [] => []

/-- The bytes of a text below 128. -/
def asciiBytes (text : List Char) : List UInt8 := text.map fun c => UInt8.ofNat c.toNat

end UdpAnalyzer
