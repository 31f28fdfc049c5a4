namespace TorrentQuery.Number

def hexValue? (c : Char) : Option Nat :=
  if c.isDigit then some (c.toNat - 48)
  else if 'a' ≤ c && c ≤ 'f' then some (c.toNat - 87)
  else if 'A' ≤ c && c ≤ 'F' then some (c.toNat - 55)
  else none

def isHexDigit (c : Char) : Bool := (hexValue? c).isSome

def ofHexDigits? (ds : List Char) : Option Nat :=
  ds.foldlM (fun n c => (hexValue? c).map (16 * n + ·)) 0

/-- The character with a code point in hexadecimal digits, of which there must be one. -/
def hexChar? (ds : List Char) : Option Char := do
  let n ← ofHexDigits? ds
  if ds.isEmpty || !(n.isValidChar) then none else some (Char.ofNat n)

end TorrentQuery.Number
