import Stencil.Context.Basic

/-!
# Wrapped trees

A tree can be put into a root or a block of its own, and the result again, any number of times.  On
the way out a wrapper may turn the outcome of what is inside into another one: a root and a block
make a string of a value, and a block takes a return.  But what the outcome amounts to as output
stays the same, so that the wrapped tree renders as the tree itself does
(`Context.render_wrapAll`).  Only the local variables show that there is a block.
-/

namespace Stencil

/-- A node around a single tree. -/
inductive Wrapper where
  | root
  | block (scope : Option Scope)

namespace Wrapper

/-- The tree in a wrapper. -/
def wrap : Wrapper → Node → Node
  | root, n => .root [n]
  | block scope, n => .block [n] scope

/-- The tree in wrappers, the first of which is the outermost. -/
def wrapAll (wrappers : List Wrapper) (n : Node) : Node := wrappers.foldr wrap n

/-- Whether what is inside has local variables of its own. -/
def isBlock : Wrapper → Bool
  | root => false
  | block _ => true

end Wrapper

/-! ### One wrapper -/

/-- A block that takes a return gives its value, which is the output of the return. -/
theorem Outcome.output_leaveBlock (scope : Option Scope) (outcome : Outcome) :
  (outcome.leaveBlock scope).output = outcome.output
  := by
  cases outcome with
  | returning v s =>
      rw [leaveBlock]
      split <;> rfl
  | proceed v => rfl
  | terminating v s => rfl

section Wrapping

variable (answer : Answer) (n : Node) (env : Environment)

/-- The display text of a single node amounts to the same output as the node. -/
theorem Node.output_concatenate_singleton :
  (Node.concatenate answer [n] "" env).1.map Outcome.output
    = (n.evaluate answer env).1.map Outcome.output
  := by
  rw [concatenate]
  rcases n.evaluate answer env with ⟨f | ⟨v⟩ | ⟨v, s⟩ | ⟨v, s⟩, e⟩
  case ok.proceed =>
    simp only [proceeding, concatenate, proceed, Except.map, Outcome.output, Value.display,
      String.empty_append]
  all_goals rfl

theorem Node.environment_concatenate_singleton :
  (Node.concatenate answer [n] "" env).2 = (n.evaluate answer env).2
  := by
  rw [concatenate]
  rcases n.evaluate answer env with ⟨f | ⟨v⟩ | ⟨v, s⟩ | ⟨v, s⟩, e⟩
  case ok.proceed => simp only [proceeding, concatenate]
  all_goals rfl

namespace Wrapper

/-- The outcome of a wrapped node amounts to the same output as that of the node. -/
theorem output_wrap (w : Wrapper) :
  ((w.wrap n).evaluate answer env).1.map Outcome.output
    = (n.evaluate answer env).1.map Outcome.output
  := by
  rw [← Node.output_concatenate_singleton answer n env]
  cases w with
  | root => rw [wrap, Node.evaluate]
  | block scope =>
      rw [wrap, Node.evaluate]
      obtain ⟨result, inner⟩ := Node.concatenate answer [n] "" env
      cases result with
      | error e => rfl
      | ok outcome => exact congrArg Except.ok (outcome.output_leaveBlock scope)

/-- A wrapped node leaves the environment that the node leaves, except that a block leaves the
local variables as they are. -/
theorem environment_wrap (w : Wrapper) :
  ((w.wrap n).evaluate answer env).2
    = { (n.evaluate answer env).2 with
        locals := if w.isBlock then env.locals else (n.evaluate answer env).2.locals }
  := by
  rw [← Node.environment_concatenate_singleton answer n env]
  cases w with
  | root =>
      rw [wrap, Node.evaluate]
      rfl
  | block scope =>
      rw [wrap, Node.evaluate]
      rfl

/-! ### Any number of wrappers -/

theorem output_wrapAll (wrappers : List Wrapper) :
  ((wrapAll wrappers n).evaluate answer env).1.map Outcome.output
    = (n.evaluate answer env).1.map Outcome.output
  := by
  induction wrappers with
  | nil => rfl
  | cons w rest ih =>
      rw [← ih]
      apply output_wrap answer (wrapAll rest n) env w

theorem environment_wrapAll (wrappers : List Wrapper) :
  ((wrapAll wrappers n).evaluate answer env).2
    = { (n.evaluate answer env).2 with
        locals := if wrappers.any isBlock then env.locals else (n.evaluate answer env).2.locals }
  := by
  induction wrappers with
  | nil => rfl
  | cons w rest ih =>
      have hwrap := environment_wrap answer (wrapAll rest n) env w
      rw [ih] at hwrap
      rw [wrapAll, List.foldr_cons, ← wrapAll, hwrap, List.any_cons]
      cases w <;> rfl

end Wrapper

end Wrapping

/-- A tree in any number of roots and blocks renders to what the tree renders to: the same text,
the same reason for stopping, or the same error.  The effect on what is common to all contexts is
the same, and so are the local variables afterwards, except that they are what they were before if
there is a block among the wrappers. -/
theorem Context.render_wrapAll (c : Context) (wrappers : List Wrapper) (n : Node) :
  (c.render (Wrapper.wrapAll wrappers n)).1 = (c.render n).1
    ∧ (c.render (Wrapper.wrapAll wrappers n)).2.store = (c.render n).2.store
    ∧ (c.render (Wrapper.wrapAll wrappers n)).2.locals
      = if wrappers.any Wrapper.isBlock then c.locals else (c.render n).2.locals
  := by
  have henvironment := Wrapper.environment_wrapAll c.answer n c.environment wrappers
  refine ⟨Wrapper.output_wrapAll c.answer n c.environment wrappers, ?_, ?_⟩
  · apply congrArg Environment.store henvironment
  · apply congrArg Environment.locals henvironment

end Stencil
