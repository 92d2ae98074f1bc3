import PrefixArithmetic.Text.Blank

/-!
# Scripts

A script has one expression a line. A newline ends a line, and a carriage return
just before it belongs to the ending. Blanks at the ends of a line do not count,
and neither do empty lines and comments, which start with `#`. A file is UTF-8
text as a whole and then cut into lines; a stream is cut behind its newlines
first, and each piece of it has to be UTF-8 text.
-/
namespace PrefixArithmetic.Script

/-- The expression of a line, if it has one. -/
def expression? (line : List Char) : Option String :=
  let content := Text.trim line
  if content.isEmpty || content.head? == some '#' then none else some (String.ofList content)

/-- The expressions of some lines, in order. -/
def expressions (lines : List String) : List String := lines.filterMap (expression? ·.toList)

/-- Puts units in front of the first piece. -/
def glue {α : Type} (front : List α) : List (List α) → List (List α)
  | [] => [front]
  | piece :: rest => (front ++ piece) :: rest

/-- Cuts behind every mark. What stands behind the last mark is a piece, unless it is empty. -/
def pieces {α : Type} [DecidableEq α] (mark : α) (units : List α) : List (List α) :=
  units.foldr (fun unit found => if unit = mark then [unit] :: found else glue [unit] found) []

/-- The line of a piece. A piece without a newline is a line as it is. -/
def unended (piece : List Char) : List Char :=
  match piece.reverse with
  | '\n' :: '\r' :: line => line.reverse
  | '\n' :: line => line.reverse
  | _ => piece

def line (piece : String) : String := String.ofList (unended piece.toList)

/-- A text, cut behind its newlines. -/
def textPieces (text : String) : List String := (pieces '\n' text.toList).map String.ofList

/-- The lines of a text. -/
def lines (text : String) : List String := (textPieces text).map line

/-- The expressions of a file, if all of it is text. -/
def ofFile? (bytes : ByteArray) : Option (List String) :=
  (String.fromUTF8? bytes).map fun text => expressions (lines text)

/-- Bytes, cut behind those of newlines. -/
def bytePieces (bytes : ByteArray) : List ByteArray :=
  (pieces '\n'.toUInt8 bytes.data.toList).map fun piece => ⟨piece.toArray⟩

/-- The lines of a stream, if every piece of it is text. -/
def streamLines? (bytes : ByteArray) : Option (List String) :=
  ((bytePieces bytes).mapM String.fromUTF8?).map (·.map line)

/-- The expressions of a stream, if every line of it is text. -/
def ofStream? (bytes : ByteArray) : Option (List String) := (streamLines? bytes).map expressions

end PrefixArithmetic.Script
