import Stencil.Context.Basic
import Stencil.Text.Quoted

/-!
# Descriptions

Contexts and members as they are shown to someone who debugs an application.
-/

namespace Stencil

/-- A record with its name and its fields. -/
def describeRecord (name : String) (fields : List String) : String :=
  name ++ " \x7b " ++ String.intercalate ", " fields ++ " \x7d"

/-- The description of limits. -/
def Limits.description (l : Limits) : String :=
  describeRecord "EvalConfig"
    ["max_call_depth: " ++ toString l.maxCallDepth,
      "max_string_len: " ++ toString l.maxStringLen]

/-- The description of a context: the bound names, the limits and the open calls. -/
def Context.description (c : Context) : String :=
  describeRecord "EvalContext"
    ["globals: " ++ Text.quotedList c.store.globals.names,
      "locals: " ++ Text.quotedList c.locals.names,
      "functions: " ++ Text.quotedList c.store.functions.names,
      "config: " ++ c.limits.description,
      "depth: " ++ toString c.depth]

/-- The description of a member, which leaves out its body. -/
def Member.description (m : Member) : String :=
  describeRecord "MemberFunction"
    ["name: " ++ Text.quoted m.name,
      "arity: " ++ describeRecord "ArgumentRange"
        ["min: " ++ toString m.arity.least, "max: " ++ toString m.arity.most],
      ".."]

end Stencil
