import SecdMachine.Text.Words

/-!
# SecdMachine.Text.Wrap

Greedy word wrap between two margins.  The lines of the given text are
paragraphs; each is filled on its own, and white space inside a paragraph
only separates words.  Widths count the bytes of the UTF-8 form, so a word
beyond ASCII is wider than its number of characters.

1. A line holds as many words as fit between the margins, with one space
   between neighbours.
2. A word that does not fit between the margins has a line of its own.
3. A paragraph without words is one line that holds only the margin.
4. The width between the margins is a machine integer: it wraps around if the
   right margin lies too far in front of the left one.
-/

namespace SecdMachine.Text

/-- Fills lines of at most `width` bytes with the words, the first line
beginning with the text `line`. -/
def fillFrom (width : Int) (line : String) : List String → List String
  | [] => [line]
  | w :: ws =>
    if width < (line.utf8ByteSize : Int) + 1 + (w.utf8ByteSize : Int) then
      line :: fillFrom width w ws
    else
      fillFrom width (line ++ " " ++ w) ws

/-- Fills lines of at most `width` bytes with the words of a paragraph. -/
def fill (width : Int) : List String → List String
  | [] => [""]
  | w :: ws => fillFrom width w ws

/-- The width between two margins, as a signed 64-bit number. -/
def room (left : Nat) (right : Int) : Int :=
  (right - left).bmod 18446744073709551616

/-- Word-wraps a text between the margins `left` and `right`, which are byte
columns. -/
def wrap (left : Nat) (right : Int) (s : String) : String :=
  let margin := String.ofList (List.replicate left ' ')
  let paragraph (cs : List Char) : String :=
    unlines ((fill (room left right) ((words cs).map String.ofList)).map (margin ++ ·))
  concat ((lines s.toList).map paragraph)

end SecdMachine.Text
