namespace OnScreen.Text

/-!
# Blank space and lines

Blank space is the Unicode property White_Space.  A text is a sequence of lines; a line ends at a
line feed, which a carriage return may precede, and nothing else ends one.
-/

/-- The characters with the property White_Space. -/
def isBlank (c : Char) : Bool :=
  let n := c.toNat
  (9 ≤ n && n ≤ 13) || n == 0x20 || n == 0x85 || n == 0xA0 || n == 0x1680 ||
    (0x2000 ≤ n && n ≤ 0x200A) || n == 0x2028 || n == 0x2029 || n == 0x202F || n == 0x205F ||
    n == 0x3000

/-- A text without the blank space at its start. -/
def trimStart (cs : List Char) : List Char := cs.dropWhile isBlank

/-- A text without the blank space at its end. -/
def trimEnd (cs : List Char) : List Char := (cs.reverse.dropWhile isBlank).reverse

/-- A text without the blank space around it. -/
def trim (cs : List Char) : List Char := trimEnd (trimStart cs)

/-- A line without the carriage return at its end. -/
def dropReturn (line : List Char) : List Char :=
  match line.reverse with
  | '\r' :: rest => rest.reverse
  | _ => line

/-- The lines of a text.  What follows the last line feed is a line of its own unless it is empty,
    and as no line feed ends it, a carriage return at its end is kept. -/
def lines : List Char → List (List Char)
  | [] => []
  | c :: rest => go [] c rest
where
  /-- Goes on with the line whose characters so far are `line`, reversed. -/
  go (line : List Char) (c : Char) : List Char → List (List Char)
    | [] => if c = '\n' then [dropReturn line.reverse] else [(c :: line).reverse]
    | d :: rest =>
      if c = '\n' then dropReturn line.reverse :: go [] d rest else go (c :: line) d rest

end OnScreen.Text
