import Stencil.Function.Stock
import Stencil.Proofs.Course.Changes
import Stencil.Proofs.Outcome

/-!
# Reading what was assigned

An assignment only starts to evaluate its expression while its name is not bound globally,
and binds the value locally.  Reading the name right afterwards gives that value, unless the
evaluation of the expression has bound the name globally in the meantime
(`Context.read_assignment`).
-/

namespace Stencil

namespace Context

variable (c : Context)

/-- A bound name gives its value right afterwards, unless it is bound globally. -/
theorem read_bind (name : String) (v : Value) (h : c.hasGlobal name = false) :
  ((c.bind name (.constant v)).read name).1 = some v
  := by
  have hglobal : c.store.globals.get? name = none := by
    simpa [hasGlobal, Table.contains] using h
  simp [read, bind, environment, withEnvironment, Environment.read, Environment.resolve?,
    Environment.bind, Store.allocate, Store.read, hglobal]

/-- A global variable is read in place of a local one. -/
theorem read_of_global {name : String} {b : Binding} (h : c.store.globals.get? name = some b) :
  (c.read name).1 = some (c.store.read b).1
  := by simp [read, environment, Environment.read, Environment.resolve?, h]

/-- An assignment gives a value only if its name is not bound globally and its expression
gives a value; then it binds that value after the expression has been evaluated. -/
theorem evaluate_assignment {name : String} {expression : Node} {w : Value} {after : Context}
    (h : c.evaluate (.assignment name expression) = (proceed w, after)) :
  c.hasGlobal name = false ∧ w = .empty
    ∧ ∃ v, (c.evaluate expression).1 = proceed v
      ∧ after = (c.evaluate expression).2.bind name (.constant v)
  := by
  simp only [evaluate, Node.evaluate] at h
  obtain ⟨hresult, hafter⟩ := Prod.mk.inj h
  split at hresult
  · cases hresult
  · rename_i hglobal
    obtain ⟨v, hv, hbinding⟩ := exists_of_proceeding_eq_proceed hresult
    rw [hbinding] at hresult
    rw [if_neg hglobal, hbinding] at hafter
    refine ⟨eq_false_of_ne_true hglobal, ?_, v, hv, hafter.symm⟩
    apply (Outcome.proceed.inj (Except.ok.inj hresult)).symm

/-- If an assignment gives a value, its name was not bound globally at first, and its
expression has given some `v`, which is bound to the name in the state that the expression
has left behind.  If the name has not been bound globally while the expression was evaluated,
reading it right afterwards gives `v`; otherwise it gives the value of the global variable. -/
theorem read_assignment {name : String} {expression : Node} {w : Value} {after : Context}
    (h : c.evaluate (.assignment name expression) = (proceed w, after)) :
  c.hasGlobal name = false ∧ w = .empty
    ∧ ∃ v, (c.evaluate expression).1 = proceed v
      ∧ after = (c.evaluate expression).2.bind name (.constant v)
      ∧ (.defines name ∉ (c.course expression).events → (after.read name).1 = some v)
      ∧ (.defines name ∈ (c.course expression).events →
        ∃ b, after.store.globals.get? name = some b
          ∧ (after.read name).1 = some (after.store.read b).1)
  := by
  obtain ⟨hglobal, hw, v, hv, hafter⟩ := c.evaluate_assignment h
  refine ⟨hglobal, hw, v, hv, hafter, ?_, ?_⟩
  · intro hquiet
    rw [hafter]
    apply read_bind
    rw [← Bool.not_eq_true, c.hasGlobal_evaluate, not_or]
    exact ⟨Bool.eq_false_iff.mp hglobal, hquiet⟩
  · intro hdefines
    have hbound : after.hasGlobal name = true := by
      rw [hafter]
      apply (c.hasGlobal_evaluate expression name).mpr (.inr hdefines)
    obtain ⟨b, hb⟩ := Option.isSome_iff_exists.mp hbound
    exact ⟨b, hb, after.read_of_global hb⟩

/-- If the expression of an assignment binds another name globally, the assigned value is
read. -/
theorem read_assignment_of_other_define :
  ∃ (c : Context) (expression : Node) (after : Context),
    c.evaluate (.assignment "x" expression) = (proceed .empty, after)
      ∧ .defines "y" ∈ (c.course expression).events
      ∧ (after.read "x").1 = some .empty
  := by
  let c := ((root .standard).register "define" (.define .any)).2
  let name : Node := .literal (.string "y")
  let value : Node := .literal (.integer 1)
  let expression : Node := .call "define" [name, value] none
  let call : Activity := .call (.function "define" [name, value] none)
    ((Function.define .any).body 2 none)
  have hevents : (c.course expression).events
      = [.starts (.node expression), .starts call, .starts (.node name),
        .ends (.node name) (proceed (.string "y")), .starts (.node value),
        .ends (.node value) (proceed (.integer 1)), .defines "y", .ends call (proceed .empty),
        .ends (.node expression) (proceed .empty)] :=
    rfl
  have hassigned : c.evaluate (.assignment "x" expression) = (proceed .empty, _) := rfl
  obtain ⟨-, -, v, hv, -, hread, -⟩ := c.read_assignment hassigned
  obtain rfl : Value.empty = v := Outcome.proceed.inj (Except.ok.inj hv)
  refine ⟨c, expression, _, hassigned, ?_, hread ?_⟩
  · simp [hevents]
  · simp [hevents]

/-- If the expression of an assignment binds the same name globally, the assigned value
cannot be read. -/
theorem not_read_assignment_of_define :
  ¬ ∀ (c : Context) (name : String) (expression : Node) (v w : Value),
    (c.evaluate expression).1 = proceed v →
    (c.evaluate (.assignment name expression)).1 = proceed w →
      ((c.evaluate (.assignment name expression)).2.read name).1 = some v
  := by
  intro h
  let c := ((root .standard).register "define" (.define .any)).2
  have hread := h c "x" (.call "define" [.literal (.string "x"), .literal (.integer 1)] none)
    .empty .empty rfl rfl
  have hglobal : some (Value.integer 1) = some .empty := hread
  cases hglobal

end Context

end Stencil
