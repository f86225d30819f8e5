/-
**Identifiers for hoisted references.**

The identifier of a literal is `__$_<callee>_<core>__`, where the core keeps the ASCII letters and
digits of the literal and joins their runs with single underscores.
-/

namespace RenderLink.Identifier

/-- The core read so far, last character first, after one more character of the literal. -/
def extendCore (core : List Char) (c : Char) : List Char :=
  if c.isAlphanum then c :: core
  else if core ≠ [] ∧ core.head? ≠ some '_' then '_' :: core
  else core

/-- The runs of letters and digits of a literal, joined by underscores. -/
def sanitize (literal : List Char) : List Char :=
  let core := literal.foldl extendCore []
  (if core.head? = some '_' then core.tail else core).reverse

/-- The identifier around a core. -/
def wrap (callee core : List Char) : List Char :=
  ['_', '_', '$', '_'] ++ callee ++ '_' :: core ++ ['_', '_']

def synthesize (callee literal : List Char) : List Char :=
  wrap callee (sanitize literal)

/-- The identifier of a literal of a callee with a number, for when the plain one is taken. -/
def synthesizeNth (callee literal : List Char) (n : Nat) : List Char :=
  wrap callee (sanitize literal ++ '_' :: Nat.toDigits 10 n)

end RenderLink.Identifier
