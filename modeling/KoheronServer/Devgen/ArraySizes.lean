import KoheronServer.Devgen.DevicesJson

/-!
# Sizes of arrays

The size of a `std::array` argument is written three times: in the header, from where the server
has it, in the `static_assert` of the generated parser, and in the table of commands that clients
ask for. The last two come from the text of the type. They are the size of the header exactly when
that size has none of the characters that the text is cut at, and, in the table, no white space
that JSON escapes, and is an operand of `<<` whose type is not a character type.
-/

namespace KoheronServer.Devgen

open Foundation

/-! ## The three sizes -/

def isTypeChar (c : Char) : Bool := c.isAlphanum || c ∈ ['_', ':', ' ']

structure ScalarName where
  text : List Char
  nonempty : text ≠ []
  trimmed : Trimmed text
  chars : text.all isTypeChar = true

/-- The text `std::array<T, N>` of an argument type. -/
structure ArrayText where
  T : ScalarName
  N : List Char
  trimmed : Trimmed N

def ArrayText.text (a : ArrayText) : List Char :=
  "std::array<".toList ++ a.T.text ++ ", ".toList ++ a.N ++ ">".toList

namespace ArrayText

/-- The type in the table of commands: what `format_type` returns is dumped, and stands behind the
two replacements in the literal of the stream statement. -/
def announced (cc : Compiler) (a : ArrayText) : Option (List Char) :=
  (formatType a.text).toOption.bind fun formatted =>
    written cc.streamed (streamStatement (quoted (formatted.flatMap escapeChar)))

end ArrayText

namespace ArrayText

variable (cc : Compiler) (a : ArrayText)

end ArrayText

/-! ## Sizes of the tests and a shift -/

def one : Expression := .word (.numeral 1)

def uint32 : ScalarName := ⟨"uint32_t".toList, by decide, by decide, by decide⟩

end KoheronServer.Devgen
