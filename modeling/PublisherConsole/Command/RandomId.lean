/-!
# Random identifiers

An API that is registered without an identifier gets a random one: 122 random bits as thirty-two
digits of base sixteen, in five groups between dashes. The first digit of the third group is `4`,
and the first one of the fourth group has its upper bits set to `10`.
-/

namespace PublisherConsole.Command.RandomId

/-- The places of the dashes. -/
def dashes : List Nat := [8, 13, 18, 23]

/-- The two digits of a byte. -/
def digits (b : Nat) : List Char := [Nat.digitChar (b / 16 % 16), Nat.digitChar (b % 16)]

/-- The bytes with the fixed bits in their places. -/
def marked (bytes : List Nat) : List Nat :=
  (bytes.modify 6 fun b => b % 16 + 64).modify 8 fun b => b % 64 + 128

/-- The identifier of sixteen random bytes. -/
def ofBytes (bytes : List Nat) : String :=
  let ds := (marked bytes).flatMap digits
  let groups := [ds.take 8, (ds.drop 8).take 4, (ds.drop 12).take 4, (ds.drop 16).take 4,
    (ds.drop 20).take 12]
  "-".intercalate (groups.map String.ofList)

/-- Whether a character can stand at a place of a random identifier. -/
def fits (place : Nat) (c : Char) : Bool :=
  if dashes.contains place then c = '-'
  else if place = 14 then c = '4'
  else if place = 19 then "89ab".toList.contains c
  else c.isDigit || "abcdef".toList.contains c

/-- Whether characters are a random identifier. -/
def isText (cs : List Char) : Bool := cs.length = 36 && cs.zipIdx.all fun (c, i) => fits i c

end PublisherConsole.Command.RandomId
