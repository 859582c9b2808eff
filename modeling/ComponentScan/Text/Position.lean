/-!
# Positions in a source

Offsets count bytes from the start of the source.  A reader wants lines and columns: the
line of an offset is the number of line feeds before it, and its column the number of
bytes since the last of them.  An offset behind the end of the source stands for the
end.
-/

namespace ComponentScan

/-- A place in a source; both counts start at zero, and columns count bytes. -/
structure Position where
  /-- The number of line feeds before the place. -/
  line : Nat
  /-- The number of bytes since the start of the line. -/
  column : Nat
deriving DecidableEq

namespace Position

/-- The place right behind the bytes `before`. -/
def after (before : List UInt8) : Position where
  line := before.count 0x0A
  column := (before.reverse.takeWhile (· != 0x0A)).length

/-- The place of the byte offset `offset` in `source`. -/
def ofOffset (source : Array UInt8) (offset : Nat) : Position :=
  after (source.toList.take offset)

/-- Places are ordered by line, then by column. -/
instance : LE Position where
  le p q := p.line < q.line ∨ p.line = q.line ∧ p.column ≤ q.column

instance (p q : Position) : Decidable (p ≤ q) :=
  inferInstanceAs (Decidable (p.line < q.line ∨ p.line = q.line ∧ p.column ≤ q.column))

end Position

/-- The part of a source from one place up to another. -/
structure Span where
  /-- Where the part starts. -/
  start : Position
  /-- The place right behind the part. -/
  stop : Position
deriving DecidableEq

end ComponentScan
