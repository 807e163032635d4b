/-!
Texts as lists of characters: their bytes, the white space at their ends and between their words,
and their lines. A line ends in a line feed, with or without a carriage return before it, and the
last one may lack its end.
-/
namespace Delegations.Text

def utf8 (text : List Char) : List UInt8 := text.flatMap String.utf8EncodeChar

def isWhiteSpace (c : Char) : Bool :=
  let n := c.toNat
  (0x9 ≤ n && n ≤ 0xD) || n == 0x20 || n == 0x85 || n == 0xA0 || n == 0x1680 ||
    (0x2000 ≤ n && n ≤ 0x200A) || n == 0x2028 || n == 0x2029 || n == 0x202F || n == 0x205F ||
    n == 0x3000

def trimStart (text : List Char) : List Char := text.dropWhile isWhiteSpace

def trimEnd (text : List Char) : List Char := (trimStart text.reverse).reverse

def trim (text : List Char) : List Char := trimEnd (trimStart text)

def splitAtWhiteSpace? (text : List Char) : Option (List Char × List Char) :=
  match text.dropWhile (!isWhiteSpace ·) with
  | [] => none
  | _ :: rest => some (text.takeWhile (!isWhiteSpace ·), rest)

def dropCarriageReturn (line : List Char) : List Char :=
  if line.getLast? = some '\r' then line.dropLast else line

def lines (text : List Char) : List (List Char) :=
  let pieces := text.splitOn '\n'
  let last := pieces.getLast?.getD []
  pieces.dropLast.map dropCarriageReturn ++ if last = [] then [] else [last]

end Delegations.Text
