namespace BulkSync

/-- Drops the carriage return that precedes a line feed; the line is given last byte first. -/
def dropReturn : List UInt8 → List UInt8
  | 13 :: rest => rest
  | line => line

/-- Cuts bytes into lines. A line ends at a line feed; what follows the last one is a line only
if it is not empty. `current` holds the line read so far, last byte first. -/
def linesFrom (finished : Array (List UInt8)) (current : List UInt8) :
    List UInt8 → Array (List UInt8)
  | [] => if current.isEmpty then finished else finished.push current.reverse
  | 10 :: rest => linesFrom (finished.push (dropReturn current).reverse) [] rest
  | byte :: rest => linesFrom finished (byte :: current) rest

def byteLines (bytes : List UInt8) : List (List UInt8) :=
  (linesFrom #[] [] bytes).toList

/-- The text of a line, if its bytes are valid UTF-8. -/
def decodeLine? (line : List UInt8) : Option String :=
  String.fromUTF8? ⟨line.toArray⟩

end BulkSync
