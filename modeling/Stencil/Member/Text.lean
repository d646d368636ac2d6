import Stencil.Member.Basic
import Stencil.Text.Blank
import Stencil.Text.Case
import Stencil.Text.Copies
import Stencil.Text.Occurrence

/-!
# Members of strings

`lower`, `upper` and `trim` map a text, `contains` looks for a part of it, and `repeat`
and `replace` build a new text from it.  The last two work out the length of their result
before they build it and refuse one that is longer than the limits of the run allow.
-/

namespace Stencil.Member

variable {count : Nat}

/-- The end of a body whose result is a string. -/
def giveText (text : List Char) : Body count :=
  .done (proceed (.string (String.ofList text)))

/-- Goes on if a text of `length` bytes can be built from another: its length must be a size
and within the limit of the run.  The run is aborted if the text would grow beyond what any
text can take, which a limit does not have to prevent.  The rest of the body is a function, so
that nothing is built before the length is known to be acceptable. -/
def withinLimit (operation source : String) (length : Nat) (next : Unit → Body count) :
    Body count :=
  if Size.largest.toNat < length then .done (fail (.integerOverflow operation))
  else .limits fun limits =>
    if limits.maxStringLen.toNat < length then
      .done (fail (.stringTooLong operation length limits.maxStringLen))
    else if Size.capacity.toNat < length ∧ source.utf8ByteSize < length then .done abort
    else next ()

/-- What holds of the refusals and of the rest of the body holds of a body that looks at the limit
before it goes on. -/
theorem withinLimit_elim {motive : Body count → Prop} {next : Unit → Body count}
    (hnext : motive (next ())) (hrefused : ∀ e, motive (.done (.error e)))
    (hlimits : ∀ {next : Limits → Body count}, (∀ limits, motive (next limits)) →
      motive (.limits next))
    (operation source : String) (length : Nat) :
  motive (withinLimit operation source length next)
  := by
  rw [withinLimit]
  split
  · apply hrefused
  · apply hlimits
    intro limits
    split
    · apply hrefused
    · split
      · apply hrefused
      · apply hnext

/-- The text in lowercase. -/
def lower : Member where
  name := "lower"
  arity := .nullary
  body c _ := giveText (Text.lower c.text.toList)

/-- The text in uppercase. -/
def upper : Member where
  name := "upper"
  arity := .nullary
  body c _ := giveText (Text.upper c.text.toList)

/-- The text without blank characters at its ends. -/
def trim : Member where
  name := "trim"
  arity := .nullary
  body c _ := giveText (Text.trim c.text.toList)

/-- Whether the display text of the argument occurs in the text. -/
def contains : Member where
  name := "contains"
  arity := .exactly 1
  body c _ := c.argument 0 fun pattern =>
    .done (proceed (.boolean (Text.occursIn pattern.display.toList c.text.toList)))

/-- As many copies of the text as the argument says. -/
def repeated : Member where
  name := "repeat"
  arity := .exactly 1
  body c _ := c.argument 0 fun
    | .integer n =>
        if n < 0 then
          .done (.error (.ofMessage
            ("repeat count must not be negative, got " ++ toString n.toInt)))
        else
          let copies := n.toInt.toNat
          withinLimit "repeat" c.text (c.text.utf8ByteSize * copies)
            fun _ => .done (proceed (.string (Text.copies copies c.text)))
    | v => .done (fail (.typeMismatch "repeat" c.receiver.kindName v.kindName))

/-- The text with every occurrence of the first argument's display text replaced by that
of the second. -/
def replace : Member where
  name := "replace"
  arity := .exactly 2
  body c _ := c.argument 0 fun pattern => c.argument 1 fun new =>
    let found := Text.occurrences pattern.display.toList c.text.toList
    let kept := c.text.utf8ByteSize - found * pattern.display.utf8ByteSize
    withinLimit "replace" c.text (kept + found * new.display.utf8ByteSize) fun _ =>
      giveText (Text.replace pattern.display.toList new.display.toList c.text.toList)

/-- The members of strings. -/
def ofString : List Member := [lower, upper, trim, contains, repeated, replace]

end Stencil.Member
