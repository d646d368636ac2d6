import Stencil.Text.Case.Mapping
import Stencil.Text.Case.Property

/-!
# Case mapping of texts

Uppercasing maps every character by itself.  Lowercasing does so as well, but for the
capital sigma: it becomes a final sigma at the end of a word, that is, when a cased
character comes before it and none comes after it, where ignorable characters are skipped
on both sides.
-/

namespace Stencil.Text

/-- Whether the first character that is not ignorable is cased. -/
def startsCased (text : List Char) : Bool :=
  (text.dropWhile isCaseIgnorable).head?.any isCased

/-- The lowercase form of a character between `before`, which is in reverse order, and
`after`. -/
def lowerBetween (before : List Char) (c : Char) (after : List Char) : List Char :=
  if c = 'Σ' then
    if startsCased before && !startsCased after then ['ς'] else ['σ']
  else lowerChar c

/-- The lowercase form of `text`, which comes after `before`; both `before` and the part
already mapped, `mapped`, are in reverse order. -/
def lowerFrom (before mapped : List Char) : (text : List Char) → List Char
  | [] => mapped.reverse
  | c :: rest =>
      lowerFrom (c :: before) ((lowerBetween before c rest).reverse ++ mapped) rest

/-- The lowercase form of a text. -/
def lower (text : List Char) : List Char := lowerFrom [] [] text

/-- The uppercase form of a text. -/
def upper (text : List Char) : List Char := text.flatMap upperChar

/-- What is already mapped stands at the front. -/
theorem lowerFrom_eq (before mapped text : List Char) :
  lowerFrom before mapped text = mapped.reverse ++ lowerFrom before [] text
  := by
  induction text generalizing before mapped with
  | nil => simp [lowerFrom]
  | cons c rest ih =>
      rw [lowerFrom, ih, lowerFrom, ih (c :: before) (_ ++ [])]
      simp

end Stencil.Text
